import QueryWalk.Proofs.LazyTraversal
import QueryWalk.Proofs.RunCongruence
import QueryWalk.Proofs.SelfLikeness
import QueryWalk.Proofs.StepIsolation

namespace QueryWalk

/-!
# Lazy and eager handlers

A lazy handler runs as its results are asked for, and an eager one runs to its end when
it is called. A complete run cannot tell which: a transformer collects what a node gives
before anybody sees it, and a visitor makes its notes in the same order, with the same
results in the end, unless a failure is caught after some of them have been delivered.
-/

/-- An ending with results beside its outcome, and then without them, is the same. -/
theorem Ending.map_snd_map
    {Outcome : Type}
    (results : List Value)
    (ending : Ending Outcome) :
    (ending.map fun outcome => (results, outcome)).map Prod.snd =
      ending := by
  cases ending <;> rfl

namespace Event

/-- Whether an event is a note. -/
def isNote : Event → Bool
  | .noted _ => true
  | .delivered _ => false

/-- Without their results, events have the same notes. -/
@[simp] theorem notes_filter_isNote
    (events : List Event) :
    notes (events.filter isNote) = notes events := by
  unfold notes
  rw [List.filterMap_filter]
  congr 1
  funext event
  cases event <;> rfl

/-- So they have the same log. -/
@[simp] theorem log_filter_isNote
    (events : List Event) :
    log (events.filter isNote) = log events :=
  log_eq_of_notes_eq (notes_filter_isNote events)

end Event

namespace Run

variable {Outcome Next : Type}

/-- Collect the results of a run, and finish with them and its outcome. -/
def collect : Run Outcome → Run (List Value × Outcome)
  | .done outcome => .done ([], outcome)
  | .failed failure => .failed failure
  | .exhausted => .exhausted
  | .note noted rest => .note noted fun _ => collect (rest ())
  | .deliver value rest =>
      (collect (rest ())).bind fun collected =>
        .done (value :: collected.1, collected.2)
  | .resolve kind rest =>
      .resolve kind fun registration => collect (rest registration)

/-- The results of a run come before those of what goes on with its outcome. -/
theorem collect_bind
    (run : Run Outcome)
    (next : Outcome → Run Next) :
    (run.bind next).collect =
      run.collect.bind fun first =>
        (next first.2).collect.bind fun second =>
          .done (first.1 ++ second.1, second.2) := by
  induction run with
  | done outcome =>
      exact (bind_done (next outcome).collect).symm
  | failed failure | exhausted =>
      rfl
  | note noted rest inductionHypothesis =>
      simp only [bind, collect, inductionHypothesis]
  | deliver value rest inductionHypothesis =>
      simp only [bind, collect, inductionHypothesis, bind_bind,
        List.cons_append]
  | resolve kind rest inductionHypothesis =>
      simp only [bind, collect, inductionHypothesis]

/-- Collecting the results of a run is collecting them and its outcome. -/
theorem gather_eq_collect
    (run : Run Unit) :
    run.gather = run.collect.bind fun collected => .done collected.1 := by
  induction run with
  | done outcome | failed failure | exhausted =>
      rfl
  | note noted rest inductionHypothesis =>
      simp only [gather, gatherOnto, collect, bind] at inductionHypothesis ⊢
      simp only [inductionHypothesis]
  | deliver value rest inductionHypothesis =>
      simp only [gather, gatherOnto, collect]
      rw [gatherOnto_eq, inductionHypothesis, bind_bind, bind_bind]
      rfl
  | resolve kind rest inductionHypothesis =>
      simp only [gather, gatherOnto, collect, bind] at inductionHypothesis ⊢
      simp only [inductionHypothesis]

/-- Results delivered from a list are collected into that list. -/
@[simp] theorem collect_deliverAll
    (values : List Value) :
    (deliverAll values).collect = .done (values, ()) := by
  induction values with
  | nil =>
      rfl
  | cons value rest inductionHypothesis =>
      simp only [deliverAll, collect, inductionHypothesis, bind]

/-- Collecting results leaves none to be collected. -/
theorem collect_collect
    (run : Run Outcome) :
    run.collect.collect =
      run.collect.bind fun collected => .done ([], collected) := by
  induction run with
  | done outcome | failed failure | exhausted =>
      rfl
  | note noted rest inductionHypothesis =>
      simp only [collect, bind, inductionHypothesis]
  | deliver value rest inductionHypothesis =>
      simp only [collect, collect_bind, inductionHypothesis, bind_bind,
        bind, List.nil_append]
  | resolve kind rest inductionHypothesis =>
      simp only [collect, bind, inductionHypothesis]

/-- When results are delivered does not matter to who collects them. -/
@[simp] theorem collect_regather
    (run : Run Unit) :
    (run.gather.bind deliverAll).collect = run.collect := by
  rw [gather_eq_collect, bind_bind, collect_bind, collect_collect,
    bind_bind]
  simp only [bind, collect_deliverAll, List.nil_append]
  exact bind_done run.collect

/-- Collecting keeps the notes of a run, and finishes with the results. -/
theorem trace_collect
    (handlers : HandlerMap Handler)
    (run : Run Outcome) :
    run.collect.trace handlers =
      { events := (run.trace handlers).events.filter Event.isNote
        ending :=
          (run.trace handlers).ending.map fun outcome =>
            (Event.results (run.trace handlers).events, outcome) } := by
  induction run with
  | done outcome | failed failure | exhausted =>
      rfl
  | note noted rest inductionHypothesis =>
      simp only [collect, trace, inductionHypothesis, Trace.after]
      rfl
  | deliver value rest inductionHypothesis =>
      simp only [collect, trace, trace_bind, inductionHypothesis]
      rcases (rest ()).trace handlers with ⟨events, ending⟩
      cases ending with
      | finished outcome =>
          simp only [Trace.andThen, Ending.map, List.append_nil]
          rfl
      | failed failure | exhausted =>
          rfl
  | resolve kind rest inductionHypothesis =>
      exact inductionHypothesis _

end Run

/-- Handlers with the same actions, run lazily or all at once. -/
def Handler.SameActions (handler other : Handler) : Prop :=
  handler.actions = other.actions

/-- Registrations under one type, of handlers with the same actions. -/
structure Registration.SameActions
    (registration other : Registration Handler) : Prop where
  type_eq : registration.type = other.type
  handler : registration.handler.SameActions other.handler

namespace HandlerMap

/-- Maps with handlers of the same actions under the same types. -/
def SameActions (handlers others : HandlerMap Handler) : Prop :=
  List.Forall₂
    (fun entry other =>
      entry.1 = other.1 ∧ entry.2.SameActions other.2)
    handlers others

variable {handlers others : HandlerMap Handler}

/-- Under every type such maps have handlers with the same actions. -/
theorem SameActions.registration?
    (same : handlers.SameActions others)
    (type : NodeType) :
    Option.Rel Registration.SameActions (handlers.registration? type)
      (others.registration? type) := by
  induction same with
  | nil =>
      exact .none
  | @cons entry other _ _ first _ inductionHypothesis =>
      obtain ⟨sameType, sameActions⟩ := first
      simp only [HandlerMap.registration?, handler?, List.find?_cons,
        ← sameType] at inductionHypothesis ⊢
      by_cases isUnder : entry.1 = type
      · simp only [isUnder, decide_true]
        exact .some ⟨rfl, sameActions⟩
      · simp only [isUnder, decide_false]
        exact inductionHypothesis

/-- Every kind resolves to handlers with the same actions. -/
theorem SameActions.resolve?
    (same : handlers.SameActions others)
    (kind : NodeKind) :
    Option.Rel Registration.SameActions (handlers.resolve? kind)
      (others.resolve? kind) := by
  unfold HandlerMap.resolve?
  induction kind.ancestry with
  | nil =>
      exact .none
  | cons type rest inductionHypothesis =>
      simp only [List.findSome?_cons]
      have underType := same.registration? type
      generalize handlers.registration? type = found at underType ⊢
      generalize others.registration? type = otherFound at underType ⊢
      cases underType with
      | none =>
          exact inductionHypothesis
      | some sameActions =>
          exact .some sameActions

end HandlerMap

section Congruences

variable (handlers others : HandlerMap Handler)

variable {handlers others} in
/-- Runs with the same traces go on to runs with the same traces. -/
theorem Run.trace_bind_congr
    {Outcome Next : Type}
    {run other : Run Outcome}
    {next further : Outcome → Run Next}
    (same : run.trace handlers = other.trace others)
    (onward :
      ∀ outcome,
        (next outcome).trace handlers = (further outcome).trace others) :
    (run.bind next).trace handlers = (other.bind further).trace others := by
  simp only [trace_bind, same, onward]

/-- Related runs, each with its own handlers, make the same log and end alike. -/
def Congruence.ShowsSame (congruence : Congruence) : Prop :=
  ∀ {Outcome : Type} {run other : Run Outcome},
    congruence.relates run other →
    Event.log (run.trace handlers).events =
        Event.log (other.trace others).events ∧
      (run.trace handlers).ending = (other.trace others).ending

/-- Runs that have the same trace, each with its own handlers. -/
def Congruence.sameTrace : Congruence where
  relates run other := run.trace handlers = other.trace others
  logs _ := True
  catches := True
  done _ := rfl
  failed _ := rfl
  exhausted := rfl
  log _ := rfl
  entered _ _ := rfl
  delivering _ := rfl
  bind := Run.trace_bind_congr
  gather same := by
    rw [Run.gather_eq_collect, Run.gather_eq_collect]
    apply Run.trace_bind_congr
    · rw [Run.trace_collect, Run.trace_collect, same]
    · exact fun _ => rfl
  attempt _ same := by
    rw [Run.trace_attempt, Run.trace_attempt, same]

/--
Runs that make the same notes and end in the same way, with the same results in all, each
with its own handlers. Where both fail they may have delivered different results.
-/
def Congruence.sameCollected : Congruence where
  relates run other :=
    run.collect.trace handlers = other.collect.trace others
  logs _ := True
  catches := False
  done _ := rfl
  failed _ := rfl
  exhausted := rfl
  log _ := rfl
  entered _ _ := rfl
  delivering _ := rfl
  bind same onward := by
    rw [Run.collect_bind, Run.collect_bind]
    apply Run.trace_bind_congr same
    intro first
    apply Run.trace_bind_congr (onward first.2)
    exact fun _ => rfl
  gather same := by
    simp only [Run.gather_eq_collect, Run.collect_bind,
      Run.collect_collect, Run.bind_bind]
    apply Run.trace_bind_congr same
    exact fun _ => rfl
  attempt := False.elim

variable {handlers others}

/-- Runs with the same traces make the same notes and give the same results. -/
theorem Congruence.collected_of_sameTrace
    {Outcome : Type}
    {run other : Run Outcome}
    (same : (Congruence.sameTrace handlers others).relates run other) :
    (Congruence.sameCollected handlers others).relates run other := by
  change run.trace handlers = other.trace others at same
  change run.collect.trace handlers = other.collect.trace others
  rw [Run.trace_collect, Run.trace_collect, same]

/-- The same traces show the same. -/
theorem Congruence.sameTrace_showsSame :
    (Congruence.sameTrace handlers others).ShowsSame handlers others := by
  intro Outcome run other same
  change run.trace handlers = other.trace others at same
  rw [same]
  exact ⟨rfl, rfl⟩

/-- So do runs that make the same notes and give the same results. -/
theorem Congruence.sameCollected_showsSame :
    (Congruence.sameCollected handlers others).ShowsSame handlers
      others := by
  intro Outcome run other same
  change run.collect.trace handlers = other.collect.trace others at same
  rw [Run.trace_collect, Run.trace_collect] at same
  obtain ⟨sameNotes, sameEndings⟩ := Trace.mk.inj same
  have sameLog := congrArg Event.log sameNotes
  rw [Event.log_filter_isNote, Event.log_filter_isNote] at sameLog
  have sameOutcomes := congrArg (Ending.map Prod.snd) sameEndings
  rw [Ending.map_snd_map, Ending.map_snd_map] at sameOutcomes
  exact ⟨sameLog, sameOutcomes⟩

/-- All actions may be run for the same traces. -/
theorem Handler.suits_sameTrace
    (handler : Handler) :
    handler.Throughout
      (Action.SuitsTo (.sameTrace handlers others)) :=
  handler.suits (fun _ => trivial) trivial

/-- All actions but rescues may be run for the same to be collected. -/
theorem Handler.suits_sameCollected
    {handler : Handler}
    (uncaught :
      handler.Throughout fun action => action.isRescue = false) :
    handler.Throughout
      (Action.SuitsTo (.sameCollected handlers others)) := by
  apply uncaught.mono
  intro action noRescue
  cases action with
  | log =>
      exact fun _ _ _ => trivial
  | rescue =>
      cases noRescue
  | _ =>
      trivial

end Congruences

namespace Handler

variable
  {handler other : Handler}
  (services : Services)
  (node : Node)
  (context : Context)

/-- To who collects the results of a handler its actions are run at once. -/
theorem collect_given
    (handler : Handler) :
    (handler.given services node context).collect =
      (handler.body services node context).collect := by
  cases isEager : handler.eager with
  | true =>
      rw [given_of_eager isEager, Run.collect_regather]
  | false =>
      rw [given_of_lazy isEager]

variable
  {services node context}
  {handlers others : HandlerMap Handler}
  {otherServices : Services}

/-- What is collected from a handler does not depend on when its actions are run. -/
theorem SameActions.given
    (same : handler.SameActions other)
    (bodies :
      (Congruence.sameCollected handlers others).relates
        (handler.body services node context)
        (handler.body otherServices node context)) :
    (Congruence.sameCollected handlers others).relates
      (handler.given services node context)
      (other.given otherServices node context) := by
  have sameActions : handler.actions = other.actions := same
  have sameBody :
      other.body otherServices node context =
        handler.body otherServices node context := by
    unfold body
    rw [sameActions]
  change _ = _
  rw [collect_given, collect_given, sameBody]
  exact bodies

end Handler

namespace Walker

variable
  {handlers others : HandlerMap Handler}
  {services otherServices : Services}
  {left right : Walker}

/-- Telling the listener asks no question that handlers could answer. -/
theorem trace_notify
    (settings : Settings)
    (node : Node)
    (type : Option NodeType) :
    (notify settings node type).trace handlers =
      (notify settings node type).trace others := by
  unfold notify
  cases settings.listener with
  | silent | debugging =>
      rfl
  | logging rejected =>
      by_cases rejects : rejected = some node.kind
      · simp only [if_pos rejects]
        rfl
      · simp only [if_neg rejects]
        rfl

/-- After the choice among handlers with the same actions the same is collected. -/
theorem visitResolved_sameCollected
    (same : handlers.SameActions others)
    (sameSettings : left.settings = right.settings)
    {node : Node}
    {context : Context}
    (generic :
      (Congruence.sameCollected handlers others).relates
        ((left.callGeneric services node context).bind id)
        ((right.callGeneric otherServices node context).bind id))
    (bodies :
      ∀ {type handler},
        (type, handler) ∈ handlers →
        (Congruence.sameCollected handlers others).relates
          (handler.body services node context)
          (handler.body otherServices node context)) :
    (Congruence.sameCollected handlers others).relates
      (left.visitResolved services node context
        (handlers.resolve? node.kind))
      (right.visitResolved otherServices node context
        (others.resolve? node.kind)) := by
  let congruence := Congruence.sameCollected handlers others
  have told :
      ∀ type,
        congruence.relates (notify left.settings node type)
          (notify right.settings node type) := by
    intro type
    simp only [congruence, Congruence.sameCollected, sameSettings]
    rw [Run.trace_collect, Run.trace_collect, trace_notify]
  have resolved := same.resolve? node.kind
  unfold visitResolved
  cases found : handlers.resolve? node.kind with
  | none =>
      rw [found] at resolved
      cases otherFound : others.resolve? node.kind with
      | some other =>
          rw [otherFound] at resolved
          cases resolved
      | none =>
          exact congruence.bind (told none) fun _ => generic
  | some registration =>
      rw [found] at resolved
      cases otherFound : others.resolve? node.kind with
      | none =>
          rw [otherFound] at resolved
          cases resolved
      | some other =>
          rw [otherFound] at resolved
          obtain ⟨sameActions⟩ := resolved
          have isBound :
              registration.handlerFor node = .ok registration.handler :=
            if_pos (HandlerMap.includes_of_resolve? found)
          have otherIsBound :
              other.handlerFor node = .ok other.handler :=
            if_pos (HandlerMap.includes_of_resolve? otherFound)
          simp only [Option.map_some, ← sameActions.type_eq, isBound,
            otherIsBound]
          have called :
              congruence.relates
                (Run.noting
                  (.entered (some registration.type) node context))
                (Run.noting
                  (.entered (some registration.type) node context)) :=
            rfl
          apply congruence.bind (told (some registration.type))
          intro _
          apply congruence.bind called
          intro _
          exact sameActions.handler.given
            (bodies (HandlerMap.mem_of_resolve? found))

/-- A visit collects just what is collected after the choice of a handler. -/
theorem trace_collect_callNode
    (walker : Walker)
    (services : Services)
    (node : Node)
    (context : Context) :
    ((walker.callNode services node context).bind id).collect.trace
        handlers =
      (walker.visitResolved services node context
        (handlers.resolve? node.kind)).collect.trace handlers := by
  rw [callNode_bind_id]
  rfl

/-- Whether the handlers of a transformer are eager cannot be seen in any trace. -/
theorem couples_sameTrace
    {walker : Walker}
    (transformer : walker.mode = .transformer)
    (same : handlers.SameActions others) :
    walker.Couples (.sameTrace handlers others) walker where
  mode_eq := rfl
  root _ := rfl
  descend _ _ _ := rfl
  generic related :=
    callGeneric_relates related rfl rfl fun handler _ =>
      handler.suits_sameTrace
  visitNode {services otherServices} related node context := by
    have generic :
        (Congruence.sameTrace handlers others).relates
          ((walker.callGeneric services node context).bind id)
          ((walker.callGeneric otherServices node context).bind id) :=
      callGeneric_relates related rfl rfl
        (fun handler _ => handler.suits_sameTrace) node context
    have resolved :=
      visitResolved_sameCollected same rfl
        (Congruence.collected_of_sameTrace generic)
        fun {_ handler} _ =>
          Congruence.collected_of_sameTrace
            (Handler.body_relates related handler.suits_sameTrace node
              context)
    -- Whatever is delivered has been collected before.
    simp only [visitNode, transformer, Run.gather_eq_collect]
    apply Run.trace_bind_congr
    · apply Run.trace_bind_congr
      · rw [trace_collect_callNode, trace_collect_callNode]
        exact resolved
      · exact fun _ => rfl
    · exact (Congruence.sameTrace handlers others).deliverAll

/-- What is collected from the fallback does not depend on when its actions are run. -/
theorem callGeneric_sameCollected
    (related :
      services.Related (.sameCollected handlers others) otherServices)
    (sameMode : left.mode = right.mode)
    (sameFallback :
      Option.Rel Handler.SameActions left.fallback right.fallback)
    (uncaught :
      ∀ handler,
        left.fallback = some handler →
        handler.Throughout fun action => action.isRescue = false)
    (node : Node)
    (context : Context) :
    (Congruence.sameCollected handlers others).relates
      ((left.callGeneric services node context).bind id)
      ((right.callGeneric otherServices node context).bind id) := by
  unfold callGeneric
  generalize right.fallback = otherFallback at sameFallback
  cases given : left.fallback with
  | none =>
      rw [given] at sameFallback
      cases sameFallback
      exact callStructural_relates related sameMode node context
  | some handler =>
      rw [given] at sameFallback
      obtain ⟨sameActions⟩ := sameFallback
      have body :=
        Handler.body_relates related
          (Handler.suits_sameCollected (uncaught handler given)) node
          context
      simp only [callHandler_bind_id]
      apply Congruence.bind _ (Congruence.entered _ node context)
      exact fun _ => sameActions.given body

/-- What is collected without rescues cannot show which handlers are eager. -/
theorem couples_sameCollected
    (sameMode : left.mode = right.mode)
    (sameSettings : left.settings = right.settings)
    (sameFallback :
      Option.Rel Handler.SameActions left.fallback right.fallback)
    (same : handlers.SameActions others)
    (uncaught :
      ∀ handler,
        left.Employs handlers handler →
        handler.Throughout fun action => action.isRescue = false) :
    left.Couples (.sameCollected handlers others) right where
  mode_eq := sameMode
  root keys := by
    rw [sameSettings]
  descend parent index context := by
    rw [sameSettings]
  generic related :=
    callGeneric_sameCollected related sameMode sameFallback
      fun handler given => uncaught handler (.inr given)
  visitNode {services otherServices} related node context := by
    have generic :=
      callGeneric_sameCollected related sameMode sameFallback
        (fun handler given => uncaught handler (.inr given)) node context
    have resolved :=
      visitResolved_sameCollected same sameSettings generic
        fun member =>
          Handler.body_relates related
            (Handler.suits_sameCollected (uncaught _ (.inl ⟨_, member⟩)))
            node context
    apply visitNode_relates sameMode
    change _ = _
    rw [trace_collect_callNode, trace_collect_callNode]
    exact resolved

end Walker

namespace Session

/-- A session with a walker that has been made with some handlers. -/
structure IsFor
    (session : Session)
    (walker : Walker)
    (handlers : HandlerMap Handler) : Prop where
  walker_eq : session.walker = walker
  table : session.table.StandsFor handlers

/-- So is a session before its first step. -/
theorem IsFor.create
    (walker : Walker)
    (handlers : HandlerMap Handler) :
    (Session.create walker handlers).IsFor walker handlers where
  walker_eq := rfl
  table := .ofMap handlers

/-- And so is a session after a step. -/
theorem IsFor.step
    {session : Session}
    {walker : Walker}
    {handlers : HandlerMap Handler}
    (isFor : session.IsFor walker handlers)
    (bound : Nat)
    (step : Step) :
    (session.step bound step).2.IsFor walker handlers where
  walker_eq := (walker_step bound session step).trans isFor.walker_eq
  table := table_step bound isFor.table step

section Couples

variable
  {handlers others : HandlerMap Handler}
  {left right : Session}
  {leftWalker rightWalker : Walker}
  {congruence : Congruence}

/--
What holds of the answers to related complete runs, and of answers without a log, holds
of the answers to every step that is no iterator's.
-/
theorem step_of_couples
    (compare : Answer → Answer → Prop)
    (couples : leftWalker.Couples congruence rightWalker)
    (isLeft : left.IsFor leftWalker handlers)
    (isRight : right.IsFor rightWalker others)
    (bound : Nat)
    {step : Step}
    (complete : step.iterator? = none)
    (silent :
      ∀ reply, compare { log := [], reply } { log := [], reply })
    (completes :
      ∀ {Outcome : Type} (reply : Outcome → Reply)
        {run other : Run Outcome},
        congruence.relates run other →
        compare (left.complete reply run).1
          (right.complete reply other).1) :
    compare (left.step bound step).1 (right.step bound step).1 := by
  have related := couples.related_services bound
  have leftIs := isLeft.walker_eq
  have rightIs := isRight.walker_eq
  cases step with
  | childContext parent index context =>
      simp only [Session.step, leftIs, rightIs]
      rw [couples.descend]
      exact silent _
  | setHandler | deleteHandler =>
      exact silent _
  | traverse tree keys =>
      simp only [Session.step, step.services, leftIs, rightIs]
      exact completes _ (related.restart tree keys)
  | visitNode node context =>
      simp only [Session.step, step.services, leftIs, rightIs]
      exact completes _
        (congruence.gather (related.visitNode node context))
  | generic node context =>
      simp only [Session.step, step.services, leftIs, rightIs]
      exact completes _
        (congruence.gather (related.generic node context))
  | rebuild node context =>
      simp only [Session.step, step.services, leftIs, rightIs]
      exact completes _ (related.rebuild node context)
  | start | startNode | startGeneric | next | rest =>
      cases complete

variable (showsSame : congruence.ShowsSame handlers others)

include showsSame

/-- Related complete runs are answered in the same way, if they show the same. -/
theorem complete_eq_of_relates
    {Outcome : Type}
    (leftStands : left.table.StandsFor handlers)
    (rightStands : right.table.StandsFor others)
    (reply : Outcome → Reply)
    {run other : Run Outcome}
    (related : congruence.relates run other) :
    (left.complete reply run).1 = (right.complete reply other).1 := by
  obtain ⟨sameEvents, sameEnding, _⟩ := run.complete_eq_trace leftStands
  obtain ⟨otherEvents, otherEnding, _⟩ :=
    other.complete_eq_trace rightStands
  obtain ⟨sameLog, sameEndings⟩ := showsSame related
  simp only [complete, History.log]
  rw [sameEvents, sameEnding, otherEvents, otherEnding, sameLog,
    sameEndings]

/-- Steps that are no iterator's are answered in the same way. -/
theorem answer_eq_of_couples
    (couples : leftWalker.Couples congruence rightWalker)
    (isLeft : left.IsFor leftWalker handlers)
    (isRight : right.IsFor rightWalker others)
    (bound : Nat)
    {step : Step}
    (complete : step.iterator? = none) :
    (left.step bound step).1 = (right.step bound step).1 := by
  apply step_of_couples (· = ·) couples isLeft isRight bound complete
  · exact fun _ => rfl
  · exact complete_eq_of_relates showsSame isLeft.table isRight.table

/-- So are sequences of such steps. -/
theorem answers_eq_of_couples
    (couples : leftWalker.Couples congruence rightWalker)
    (isLeft : left.IsFor leftWalker handlers)
    (isRight : right.IsFor rightWalker others)
    (bound : Nat)
    {steps : List Step}
    (complete : ∀ step ∈ steps, step.iterator? = none) :
    left.answers bound steps = right.answers bound steps := by
  induction steps generalizing left right with
  | nil =>
      rfl
  | cons first later inductionHypothesis =>
      obtain ⟨firstComplete, laterComplete⟩ :=
        List.forall_mem_cons.mp complete
      rw [answers_cons, answers_cons,
        answer_eq_of_couples showsSame couples isLeft isRight bound
          firstComplete,
        inductionHypothesis (isLeft.step bound first)
          (isRight.step bound first) laterComplete]

end Couples

/--
Whether handlers are lazy or eager never matters to a caller who asks for complete runs.
In a transformer this is so of all handlers but the fallback. Without rescues it is so of
all handlers with the fallback, in a visitor as well. Every step that is no iterator's is
answered with the same log and the same result or failure.
-/
theorem eagerness_never_matters
    (walker : Walker)
    {handlers others : HandlerMap Handler}
    (same : handlers.SameActions others)
    (bound : Nat)
    {steps : List Step}
    (complete : ∀ step ∈ steps, step.iterator? = none) :
    let answers (walker : Walker) (handlers : HandlerMap Handler) :=
      (create walker handlers).answers bound steps
    (walker.mode = .transformer →
      answers walker handlers = answers walker others) ∧
    ∀ fallback,
      Option.Rel Handler.SameActions walker.fallback fallback →
      (∀ handler,
        walker.Employs handlers handler →
        handler.Throughout fun action => action.isRescue = false) →
      answers walker handlers =
        answers { walker with fallback := fallback } others := by
  intro answers
  refine ⟨?_, ?_⟩
  · intro transformer
    exact answers_eq_of_couples Congruence.sameTrace_showsSame
      (Walker.couples_sameTrace transformer same) (.create _ _)
      (.create _ _) bound complete
  · intro fallback sameFallback uncaught
    have couples :
        walker.Couples (.sameCollected handlers others)
          { walker with fallback := fallback } :=
      Walker.couples_sameCollected rfl rfl sameFallback same uncaught
    exact answers_eq_of_couples Congruence.sameCollected_showsSame couples
      (.create _ _) (.create _ _) bound complete

/-- A context that is left as it is. -/
def unchanged : Change where
  assigned := []
  removed := []
  position := none

/-- A walker that logs the kinds of nodes without a handler. -/
def logging (mode : Mode) (eager : Bool) : Walker where
  mode := mode
  settings :=
    { trackParents := false
      trackNewParents := false
      trackPaths := true
      maxDepth := 2
      maxDepth_pos := Nat.two_pos
      listener := .logging none }
  fallback :=
    some
      { eager := eager
        actions := [.log .kind, .structural .node unchanged] }

/-- Words give themselves and fail, and groups can do with that. -/
def failingWords (eager : Bool) : HandlerMap Handler :=
  [(.exactly (.term .word),
      { eager := eager
        actions := [.deliver .node, .fail "no words"] }),
    (.anyOf .group,
      { eager := !eager
        actions :=
          [.rescue
            [.child (.ofNat 0) (.ofNat 0) unchanged]
            [.log .error, .deliver .node]] })]

/-- Phrases give themselves, and words fail after that. -/
def phrasesAndWords (eager : Bool) : HandlerMap Handler :=
  [(.exactly (.term .phrase),
      { eager := eager, actions := [.log .path, .deliver .node] }),
    (.exactly (.term .word),
      { eager := eager, actions := [.deliver .node, .fail "no words"] })]

/-- Complete runs of a transformer that catches failures, and of a visitor. -/
theorem eagerness_never_matters_failingWords :
    let steps : List Step :=
      [.traverse
          (Query.and [Query.phrase "b", Query.group (Query.word "a")]) [],
        .traverse (Query.and [Query.phrase "b", Query.word "a"]) []]
    (failingWords false).SameActions (failingWords true) ∧
    (phrasesAndWords false).SameActions (phrasesAndWords true) ∧
    (∀ step ∈ steps, step.iterator? = none) ∧
    (∀ handler,
      (logging .visitor false).Employs (phrasesAndWords false) handler →
      handler.Throughout fun action => action.isRescue = false) ∧
    (create (logging .transformer true) (failingWords false)).answers 9
        steps =
      (create (logging .transformer true) (failingWords true)).answers 9
        steps ∧
    (create (logging .visitor false) (phrasesAndWords false)).answers 9
        steps =
      (create (logging .visitor true) (phrasesAndWords true)).answers 9
        steps := by
  intro steps
  have sameFailing :
      (failingWords false).SameActions (failingWords true) :=
    .cons ⟨rfl, rfl⟩ (.cons ⟨rfl, rfl⟩ .nil)
  have samePhrases :
      (phrasesAndWords false).SameActions (phrasesAndWords true) :=
    .cons ⟨rfl, rfl⟩ (.cons ⟨rfl, rfl⟩ .nil)
  have complete : ∀ step ∈ steps, step.iterator? = none := by
    intro step member
    rcases List.mem_pair.mp member with isFirst | isSecond
    · rw [isFirst]
      rfl
    · rw [isSecond]
      rfl
  have uncaught :
      ∀ handler,
        (logging .visitor false).Employs (phrasesAndWords false) handler →
        handler.Throughout fun action => action.isRescue = false := by
    rintro handler (⟨type, member⟩ | replaced)
    · rcases List.mem_pair.mp member with isPhrase | isWord
      · cases isPhrase
        exact ⟨rfl, rfl, trivial⟩
      · cases isWord
        exact ⟨rfl, rfl, trivial⟩
    · cases replaced
      exact ⟨rfl, rfl, trivial⟩
  have inTransformer :=
    (eagerness_never_matters (logging .transformer true) sameFailing 9
      complete).1
  have inVisitor :=
    (eagerness_never_matters (logging .visitor false) samePhrases 9
      complete).2
  exact
    ⟨sameFailing, samePhrases, complete, uncaught, inTransformer rfl,
      inVisitor _ (.some rfl) uncaught⟩

end Session

end QueryWalk
