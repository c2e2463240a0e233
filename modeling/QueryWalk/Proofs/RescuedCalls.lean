import QueryWalk.Proofs.CollectedResults
import QueryWalk.Proofs.HandlerInvocation
import QueryWalk.Proofs.HandlerMachine
import QueryWalk.Proofs.WalkAppearance

namespace QueryWalk

/-!
# Calls that fail inside a rescue

An action that makes a call does the work of taking it, and a call that fails leaves
the registers alone. So all that stays of it in the handler is what it delivered, which
is what it delivers when it is made alone. A transformer whose fallback is not replaced
delivers nothing in a call that fails: visits deliver at their end, and what is rebuilt
is collected first.
-/

/-- Evaluating one thing after another is to run one after the other. -/
theorem Run.ofExcept_bind_eq
    {Outcome Next : Type}
    (outcome : Except Failure Outcome)
    (next : Outcome → Except Failure Next) :
    Run.ofExcept (outcome >>= next) =
      (Run.ofExcept outcome).bind fun value => .ofExcept (next value) := by
  cases outcome <;> rfl

namespace Call

/-- The call of a service for a node in a changed context. -/
def back
    (scope : Scope)
    (service : Service)
    (subject : Expression)
    (change : Change) :
    Except Failure Call := do
  let value ← subject.eval scope
  let changed ← change.apply scope
  return { service := service, node := value.asNode, context := changed }

end Call

namespace Services

/-- What a walk gives that is asked for a call and for nothing else. -/
def take (services : Services) (call : Call) : Run Unit :=
  match call.service with
  | .visitNode => services.visitNode call.node call.context
  | .generic => services.generic call.node call.context
  | .structural => services.structural call.node call.context
  | .rebuild =>
      (services.rebuild call.node call.context).bind fun _ => .done ()
  | .restart =>
      (services.restart call.node call.context.keys).bind Run.delivering

end Services

namespace Action

/-- The call that an action makes in a scope, if it makes one, or why it cannot. -/
def call?
    (settings : Settings)
    (scope : Scope) :
    Action → Option (Except Failure Call)
  | .generic subject change =>
      some (Call.back scope .generic subject change)
  | .structural subject change =>
      some (Call.back scope .structural subject change)
  | .visit subject change =>
      some (Call.back scope .visitNode subject change)
  | .rebuild subject change =>
      some (Call.back scope .rebuild subject change)
  | .child place index change => some do
      let above ← change.apply scope
      let below ← above.descend settings scope.node index
      return {
        service := .visitNode
        node := (scope.node.childValue place).asNode
        context := below }
  | .visitUnder subject parent index change => some do
      let value ← subject.eval scope
      let upper ← parent.eval scope
      let above ← change.apply scope
      let below ← above.descend settings upper.asNode index
      return {
        service := .visitNode
        node := value.asNode
        context := below }
  | .restart tree start => some do
      let root ← tree.eval scope
      let keys ← start.keys scope
      return .traversal settings root.asNode keys
  | .deliver _ | .deliverAll _ | .log _ | .fail _
  | .choose .. | .rescue .. => none

/-- Work whose outcome is of no account is the work alone. -/
theorem effect_performs
    (scope : Scope)
    {work alone : Run Unit}
    (same : work = alone) :
    ∃ performed,
      Finish.effect scope work = Finish.perform scope performed ∧
        (performed.bind fun _ => .done ()) = alone := by
  refine ⟨_, rfl, ?_⟩
  rw [Run.bind_bind, ← same]
  exact Run.bind_done work

/-- An action that makes a call does the work of taking it. -/
theorem run_of_call?
    {services : Services}
    {scope : Scope}
    {action : Action}
    {asked : Except Failure Call}
    (calls : action.call? services.settings scope = some asked) :
    ∃ work,
      action.run services scope = Finish.perform scope work ∧
        (work.bind fun _ => .done ()) =
          (Run.ofExcept asked).bind services.take := by
  cases action with
  | generic | structural | visit | child | visitUnder | restart =>
      cases calls
      rw [run]
      apply effect_performs
      simp only [callback, Call.back, Run.ofExcept_bind_eq, Run.bind_eq,
        Run.bind_bind]
      rfl
  | rebuild =>
      cases calls
      rw [run]
      refine ⟨_, rfl, ?_⟩
      simp only [callback, Call.back, Run.ofExcept_bind_eq, Run.bind_eq,
        Run.bind_bind]
      rfl
  | _ =>
      cases calls

/-- An action that makes a call does not consist of others. -/
theorem simple_of_call?
    {settings : Settings}
    {scope : Scope}
    {action : Action}
    {asked : Except Failure Call}
    (calls : action.call? settings scope = some asked) :
    action.parts? scope = none := by
  cases action with
  | generic | structural | visit | child | visitUnder | restart
  | rebuild =>
      rfl
  | _ =>
      cases calls

/-- An action whose call fails leaves the scope alone and shows the call alone. -/
theorem trace_of_call?_failed
    {handlers : HandlerMap Handler}
    {services : Services}
    {scope last : Scope}
    {action : Action}
    {asked : Except Failure Call}
    {events : List Event}
    {failure : Failure}
    (calls : action.call? services.settings scope = some asked)
    (fails :
      (action.run services scope).trace handlers =
        { events := events
          ending := .finished { scope := last, failure := some failure } }) :
    last = scope ∧
      ((Run.ofExcept asked).bind services.take).trace handlers =
        { events := events, ending := .failed failure } := by
  obtain ⟨work, isWork, alone⟩ := run_of_call? calls
  rw [isWork, Finish.trace_perform] at fails
  rw [← alone, Run.trace_bind_done]
  generalize work.trace handlers = worked at fails ⊢
  rcases worked with ⟨shown, after | reason | _⟩
  · cases fails
  · cases fails
    exact ⟨rfl, rfl⟩
  · cases fails

end Action

namespace Run

variable
  {handlers : HandlerMap Handler}
  {Outcome Next : Type}
  {run : Run Outcome}
  {next : Outcome → Run Next}

/-- A run delivers nothing. -/
def IsSilent
    (handlers : HandlerMap Handler)
    (run : Run Outcome) :
    Prop :=
  Event.results (run.trace handlers).events = []

/-- A run delivers nothing if it fails. -/
def IsAtomic
    (handlers : HandlerMap Handler)
    (run : Run Outcome) :
    Prop :=
  ∀ failure,
    (run.trace handlers).ending = .failed failure →
    run.IsSilent handlers

namespace IsSilent

/-- Results that are collected are not delivered. -/
theorem gather
    (run : Run Unit) :
    run.gather.IsSilent handlers :=
  (Yields.gather ⟨rfl, rfl⟩).results

/-- Silent runs one after the other are silent. -/
theorem bind
    (silent : run.IsSilent handlers)
    (nextSilent : ∀ outcome, (next outcome).IsSilent handlers) :
    (run.bind next).IsSilent handlers := by
  cases ends : (run.trace handlers).ending with
  | finished outcome =>
      exact (Yields.bind ⟨silent, ends⟩ ⟨nextSilent outcome, rfl⟩).results
  | failed failure =>
      exact (Yields.bind_failed ⟨silent, ends⟩).results
  | exhausted =>
      exact (Yields.bind_exhausted ⟨silent, ends⟩).results

/-- After a silent run, a run that delivers nothing if it fails may follow. -/
theorem bind_isAtomic
    (silent : run.IsSilent handlers)
    (nextAtomic : ∀ outcome, (next outcome).IsAtomic handlers) :
    (run.bind next).IsAtomic handlers := by
  intro failure fails
  cases ends : (run.trace handlers).ending with
  | finished outcome =>
      have onward :
          (run.bind next).Yields handlers
            ([] ++ Event.results ((next outcome).trace handlers).events)
            ((next outcome).trace handlers).ending :=
        .bind ⟨silent, ends⟩ ⟨rfl, rfl⟩
      have nextFails := onward.ending.symm.trans fails
      exact onward.results.trans (nextAtomic outcome failure nextFails)
  | failed reason =>
      exact (Yields.bind_failed ⟨silent, ends⟩).results
  | exhausted =>
      exact (Yields.bind_exhausted ⟨silent, ends⟩).results

/-- A silent run delivers nothing if it fails. -/
theorem isAtomic
    (silent : run.IsSilent handlers) :
    run.IsAtomic handlers :=
  fun _ _ => silent

end IsSilent

namespace IsAtomic

/-- To deliver results does not fail. -/
theorem deliverAll
    (values : List Value) :
    (Run.deliverAll values).IsAtomic handlers := by
  intro failure fails
  have delivers : (Run.deliverAll values).Collects handlers (.ok values) :=
    .deliverAll values
  rw [delivers.ending] at fails
  cases fails

/-- A run that is out of recursion does not fail. -/
theorem exhausted :
    (.exhausted : Run Outcome).IsAtomic handlers := by
  intro failure fails
  cases fails

end IsAtomic

end Run

namespace Walker

variable {handlers : HandlerMap Handler}

/-- To rebuild a node delivers nothing. -/
theorem rebuild_isSilent
    (services : Services)
    (node : Node)
    (context : Context) :
    (rebuild services node context).IsSilent handlers := by
  unfold rebuild
  split
  · exact rfl
  · apply Run.IsSilent.bind (.gather _)
    intro replacements
    exact (Run.Yields.ofExcept _).results

/-- A new traversal delivers nothing before its outcome. -/
theorem traverse_isSilent
    (walker : Walker)
    (services : Services)
    (tree : Node)
    (keys : Fields Value) :
    (walker.traverse services tree keys).IsSilent handlers := by
  unfold traverse
  apply Run.IsSilent.bind (.gather _)
  intro results
  split <;> exact rfl

variable {walker : Walker} (transformer : walker.mode = .transformer)

include transformer

/-- A transformer's built-in fallback delivers nothing if it fails. -/
theorem callStructural_isAtomic
    (services : Services)
    (node : Node)
    (context : Context) :
    ((walker.callStructural services node context).bind id).IsAtomic
      handlers := by
  simp only [callStructural, transformer, Run.bind_bind]
  apply Run.IsSilent.bind_isAtomic (rebuild_isSilent services node context)
  intro rebuilt
  exact .deliverAll [.node rebuilt]

/-- A transformer delivers nothing in a call that fails, if its fallback is built in. -/
theorem take_isAtomic
    (original : walker.fallback = none)
    (bound : Nat)
    (call : Call) :
    ((walker.services bound).take call).IsAtomic handlers := by
  rcases call with ⟨service, node, context⟩
  cases bound with
  | zero =>
      cases service <;> exact .exhausted
  | succ bound =>
      cases service with
      | visitNode =>
          simp only [Services.take, services, visitNode, transformer]
          exact .bind_isAtomic (.gather _) .deliverAll
      | generic =>
          simp only [Services.take, services, callGeneric, original]
          exact callStructural_isAtomic transformer _ node context
      | structural =>
          exact callStructural_isAtomic transformer _ node context
      | rebuild =>
          simp only [Services.take, services,
            callRebuild_of_transformer transformer]
          apply Run.IsSilent.isAtomic
          exact .bind (rebuild_isSilent _ node context) fun _ => rfl
      | restart =>
          apply Run.IsSilent.bind_isAtomic
            (walker.traverse_isSilent _ node context.keys)
          intro outcome
          exact .deliverAll [outcome]

end Walker

namespace Session

/-- A run that fails gives an iterator its results one by one, and then its failure. -/
theorem replies_nexts_of_failed
    (walker : Walker)
    {handlers : HandlerMap Handler}
    (bound : Nat)
    (name : String)
    {run : Run Unit}
    {events : List Event}
    {failure : Failure}
    (fails :
      run.trace handlers =
        { events := events, ending := .failed failure }) :
    (((create walker handlers).withIterator name run).answers bound
        (List.replicate ((Event.results events).length + 1)
          (.next name))).map Answer.reply =
      (Event.results events).map .value ++ [.refused failure] := by
  have isOpen :
      ((create walker handlers).withIterator name run).iterator? name =
        some run :=
    iterator?_withIterator_self _ name run
  obtain ⟨sameEvents, sameEnding, _⟩ :=
    run.complete_eq_trace (.ofMap handlers)
  rw [fails] at sameEvents sameEnding
  have sameResults :
      (run.complete (.ofMap handlers)).results = Event.results events :=
    congrArg Event.results sameEvents
  rw [replies_nexts bound _ isOpen, table_withIterator]
  simp only [create, sameEnding, sameResults]
  rw [Reply.pulled_of_lt _ (Nat.lt_succ_self _), Nat.succ_sub (Nat.le_refl _),
    Nat.sub_self]
  rfl

end Session

namespace Walker

/--
A handler goes on when a call fails that it makes inside a rescue. What it has given
then is what it gave before the call, what the call delivered, what the handling gives,
with its registers as they were before the call but for the failure, and what the
actions after the rescue give. The call has delivered what it delivers when it is made
alone, before it fails there. In a transformer whose fallback is not replaced that is
nothing.
-/
theorem rescue_of_failing_call
    (walker : Walker)
    (handlers : HandlerMap Handler)
    (bound : Nat)
    {handler : Handler}
    {node : Node}
    {context : Context}
    {scope last : Scope}
    {action : Action}
    {rest handling later : List Action}
    {frames outer : List Frame}
    {before during : List Event}
    {asked : Except Failure Call}
    {failure : Failure}
    (reaches :
      (Point.start handler node context).Reaches (walker.services bound)
        handlers before
        { scope := scope, actions := action :: rest, frames := frames })
    (calls : action.call? walker.settings scope = some asked)
    (inside : Frame.rescuer? frames = some (handling, later, outer))
    (fails :
      (action.run (walker.services bound) scope).trace handlers =
        { events := during
          ending :=
            .finished { scope := last, failure := some failure } }) :
    let services := walker.services bound
    let given := (handler.body services node context).trace handlers
    last = scope ∧
      given =
        (((Point.handling scope failure handling later outer).gives
          services).trace handlers).afterAll (before ++ during) ∧
      (∀ handled after,
        (Action.runAll services
            { scope with error := .data failure.toData }
            handling).trace handlers =
          { events := handled
            ending := .finished { scope := after, failure := none } } →
        given =
          ((Point.gives services
            { scope := after, actions := later, frames := outer }).trace
              handlers).afterAll (before ++ during ++ handled)) ∧
      (asked = .error failure ∧ during = [] ∨
        ∃ call,
          asked = .ok call ∧
          (services.take call).trace handlers =
            { events := during, ending := .failed failure } ∧
          ∀ name,
            (((Session.create walker handlers).withIterator name
                (services.take call)).answers bound
                (List.replicate ((Event.results during).length + 1)
                  (.next name))).map Answer.reply =
              (Event.results during).map .value ++ [.refused failure]) ∧
      (walker.mode = .transformer →
        walker.fallback = none →
        Event.results during = []) := by
  intro services given
  have sameSettings : services.settings = walker.settings :=
    walker.settings_services bound
  rw [← sameSettings] at calls
  obtain ⟨unchanged, alone⟩ := Action.trace_of_call?_failed calls fails
  subst unchanged
  have rescued :
      given =
        (((Point.handling last failure handling later outer).gives
          services).trace handlers).afterAll (before ++ during) := by
    have step :
        Point.Step services handlers
          { scope := last, actions := action :: rest, frames := frames }
          during
          (.handling last failure handling later outer) :=
      .rescued (Action.simple_of_call? calls) fails inside
    rw [show given = _ from
        congrArg (Run.trace handlers)
          (Point.gives_start services handler node context).symm,
      reaches.trace_gives, step.trace_gives, Trace.afterAll_afterAll]
  refine ⟨rfl, rescued, ?_, ?_, ?_⟩
  · intro handled after finishes
    rw [rescued, Point.trace_gives_handling finishes,
      Trace.afterAll_afterAll]
  · cases asked with
    | error reason =>
        cases alone
        exact .inl ⟨rfl, rfl⟩
    | ok call =>
        exact .inr
          ⟨call, rfl, alone,
            fun name =>
              Session.replies_nexts_of_failed walker bound name alone⟩
  · intro transformer original
    cases asked with
    | error reason =>
        cases alone
        rfl
    | ok call =>
        have shown :
            (services.take call).trace handlers =
              { events := during, ending := .failed failure } :=
          alone
        have atomic : (services.take call).IsAtomic handlers :=
          take_isAtomic transformer original bound call
        have silent := atomic failure (congrArg Trace.ending shown)
        rw [Run.IsSilent, shown] at silent
        exact silent

/-- A walker that goes two levels down, and whose fallback is not replaced. -/
def goingTwoDown (mode : Mode) : Walker where
  mode := mode
  settings :=
    { trackParents := false
      trackNewParents := true
      trackPaths := false
      maxDepth := 2
      maxDepth_pos := Nat.two_pos
      listener := .logging none }
  fallback := none

/-- Words give themselves with a mark, and phrases give themselves and fail. -/
def failingPhrases : HandlerMap Handler :=
  [(.exactly (.term .word),
      { eager := false, actions := [.deliver (.append "!" .node)] }),
    (.exactly (.term .phrase),
      { eager := false, actions := [.deliver .node, .fail "no phrases"] })]

/-- Ask the fallback for the node as it is. -/
def askingFallback : Action :=
  .generic .node { assigned := [], removed := [], position := none }

/-- Ask the fallback inside a rescue, between two results. -/
def guarding : Handler where
  eager := false
  actions :=
    [.deliver .kind,
      .rescue [askingFallback, .deliver .node] [.deliver .error],
      .deliver .depth]

/-- Two words around a phrase. -/
def phraseBetweenWords : Node :=
  Query.or [Query.word "a", Query.phrase "b", Query.word "c"]

/-- The root of that query. -/
def rootContext : Context where
  keys := []
  position := { depth := .ofNat 0, path := none }

/-- Where the fallback is asked. -/
def beforeAsking : Point where
  scope := .start phraseBetweenWords rootContext
  actions := [askingFallback, .deliver .node]
  frames :=
    [{ later := [.deliver .depth], handling := some [.deliver .error] }]

/-- What happens when a walker's fallback is asked there. -/
def askedEvents (mode : Mode) : List Event :=
  ((askingFallback.run ((goingTwoDown mode).services 9)
      beforeAsking.scope).trace failingPhrases).events

/--
A visitor keeps what it gave before the phrase failed, and the phrase. A transformer
keeps nothing.
-/
theorem rescue_of_failing_call_guarding :
    (∀ mode,
      (Point.start guarding phraseBetweenWords rootContext).Reaches
          ((goingTwoDown mode).services 9) failingPhrases
          [.delivered (.text "orOperation")] beforeAsking ∧
        (guarding.body ((goingTwoDown mode).services 9)
            phraseBetweenWords rootContext).trace failingPhrases =
          (((Point.handling beforeAsking.scope (.handler "no phrases")
              [.deliver .error] [.deliver .depth] []).gives
                ((goingTwoDown mode).services 9)).trace
                  failingPhrases).afterAll
                    ([.delivered (.text "orOperation")] ++ askedEvents mode)) ∧
      Event.results (askedEvents .visitor) =
        [.node (Query.word "a!"), .node (Query.phrase "b")] ∧
      Event.results (askedEvents .transformer) = [] := by
  have reaches :
      ∀ mode,
        (Point.start guarding phraseBetweenWords rootContext).Reaches
          ((goingTwoDown mode).services 9) failingPhrases
          [.delivered (.text "orOperation")] beforeAsking := by
    intro mode
    have first :
        (Point.start guarding phraseBetweenWords rootContext).Step
          ((goingTwoDown mode).services 9) failingPhrases
          [.delivered (.text "orOperation")]
          { scope := .start phraseBetweenWords rootContext
            actions := guarding.actions.tail
            frames := [] } :=
      .done rfl rfl
    exact .onward first (.onward (.entered rfl) .here)
  have fails :
      ∀ mode,
        (askingFallback.run ((goingTwoDown mode).services 9)
            beforeAsking.scope).trace failingPhrases =
          { events := askedEvents mode
            ending :=
              .finished
                { scope := beforeAsking.scope
                  failure := some (.handler "no phrases") } } := by
    intro mode
    cases mode <;> rfl
  have applied :=
    fun mode =>
      rescue_of_failing_call (goingTwoDown mode) failingPhrases 9
        (reaches mode) rfl rfl (fails mode)
  obtain ⟨_, _, _, _, silent⟩ := applied .transformer
  refine ⟨?_, rfl, silent rfl rfl⟩
  intro mode
  obtain ⟨_, goesOn, _⟩ := applied mode
  exact ⟨reaches mode, goesOn⟩

end Walker

end QueryWalk
