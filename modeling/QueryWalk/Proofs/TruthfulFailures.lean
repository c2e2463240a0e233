import QueryWalk.Proofs.IterableChains
import QueryWalk.Proofs.ListenerRetelling

namespace QueryWalk

/-!
# The truth of failures

Whatever fails in the use of a walker fails for a reason, and the failure tells it: a node
was given a number of children that its kind does not take, a tree was not transformed to
one root, the walk became deeper than its limit, or a chain of ancestors that it keeps
could not be extended. If handlers and listener do not give up, handlers give no node other
children, and those of a transformer deliver exactly one result each, then only the last
two are left to fail for; and the last one only where a caller or a handler has put under
the key of a chain what cannot be spread.
-/

/-- A failure tells what is the case. -/
def Failure.TellsTruth (walker : Walker) : Failure → Prop
  | .transformArity count _ => count ≠ .ofNat 1
  | .nodeArity kind expected actual =>
      ∃ arity : Nat,
        kind.arity? = some arity ∧
          expected = .ofNat arity ∧
          actual ≠ expected
  | .traversalDepth maxDepth =>
      maxDepth = .ofNat walker.settings.maxDepth
  | .notIterable key =>
      ∃ chain : Chain,
        chain.isTracked walker.settings = true ∧ key = chain.key
  | .noRebuild => walker.mode = .visitor
  | .handler _ => True
  -- Settings are made before a walk, and handlers are called for nodes of their types.
  | .invalidMaxDepth _ | .handlerMismatch .. => False

/-- Numbers that count differently are different. -/
theorem Number.ofNat_injective : Function.Injective Number.ofNat := by
  intro first second same
  cases same
  rfl

/-- A misfit tells what is the case. -/
theorem Failure.IsMisfit.tellsTruth
    {failure : Failure}
    (misfit : failure.IsMisfit)
    (walker : Walker) :
    failure.TellsTruth walker := by
  obtain ⟨kind, arity, actual, isArity, differs, rfl⟩ :=
    misfit.exists_arity
  refine ⟨arity, isArity, rfl, ?_⟩
  intro same
  exact differs (Number.ofNat_injective same)

/-- What a child's context is refused for is the case. -/
theorem Context.tellsTruth_of_refused
    {walker : Walker}
    {parent : Node}
    {index : Number}
    {context : Context}
    {failure : Failure}
    (refused :
      context.descend walker.settings parent index = .error failure) :
    failure.TellsTruth walker := by
  obtain ⟨-, rfl⟩ | ⟨chain, stuck, rfl⟩ := failure_of_descend refused
  · rfl
  · exact ⟨chain, Chain.isTracked_of_stuck stuck, rfl⟩

/-- A walk has become too deep, or else one of its chains could not be extended. -/
def Failure.IsOfDescent
    (settings : Settings)
    (failure : Failure) :
    Prop :=
  failure = .traversalDepth (.ofNat settings.maxDepth) ∨
    ∃ chain : Chain,
      chain.isTracked settings = true ∧ failure = .notIterable chain.key

namespace Promise

/-- Every failure tells what is the case. -/
def truth (walker : Walker) : Promise where
  note _ := True
  failure := Failure.TellsTruth walker

/--
Walks fail on their way down only, and if their chains can always be spread, they fail for
being too deep only.
-/
def onlyDescent (settings : Settings) (spread : Prop) : Promise where
  note _ := True
  failure failure :=
    failure.IsOfDescent settings ∧
      (spread → failure = .traversalDepth (.ofNat settings.maxDepth))

end Promise

/-- What a child's context is refused for is met on the way down. -/
theorem Context.onlyDescent_of_refused
    {settings : Settings}
    {parent : Node}
    {index : Number}
    {context : Context}
    {failure : Failure}
    {spread : Prop}
    (iterable : spread → context.IsIterable settings)
    (refused : context.descend settings parent index = .error failure) :
    (Promise.onlyDescent settings spread).failure failure := by
  refine ⟨?_, fun isSpread => (iterable isSpread).eq_of_refused refused⟩
  obtain ⟨-, isDepth⟩ | ⟨chain, stuck, isStuck⟩ :=
    failure_of_descend refused
  · exact .inl isDepth
  · exact .inr ⟨chain, Chain.isTracked_of_stuck stuck, isStuck⟩

/-- Whatever calls a walk makes, its failures tell what is the case. -/
theorem Walker.truthInvariant
    (walker : Walker)
    (handlers : HandlerMap Handler) :
    CallInvariant walker handlers (fun _ => True) (.truth walker) where
  closed _ _ := trivial
  entered _ _ := trivial
  logged _ := trivial
  told _ _ := trivial
  refused _ _ refused := Context.tellsTruth_of_refused refused
  raised := by
    rintro call type handler failure _ _ ⟨action, _, raises⟩
    apply raises.cause
    · exact fun _ _ _ _ misfit => misfit.tellsTruth walker
    · exact fun _ _ => trivial
  rejected _ := trivial
  refitted := by
    intro bound call replacements failure _ _ _ failed
    exact Failure.IsMisfit.tellsTruth ⟨_, _, failed⟩ walker
  noRebuild _ _ visitor := visitor
  severalRoots := by
    intro bound tree keys results _ _ notOne same
    exact notOne (Number.ofNat_injective same)

/-- An action, by itself, neither gives up nor gives a node other children. -/
def Action.neverFails : Action → Bool
  | .fail _ => false
  | action => !action.refits

/-- An action asks for a node to be rebuilt. -/
def Action.isRebuild : Action → Bool
  | .rebuild .. => true
  | _ => false

/-- An action that never fails by itself gives no node other children. -/
theorem Action.refits_eq_false
    {action : Action}
    (never : action.neverFails = true) :
    action.refits = false := by
  cases action with
  | fail wording =>
      cases never
  | _ =>
      simpa [neverFails] using never

/-- A handler whose actions never fail by themselves does not. -/
theorem Handler.not_raises
    {handler : Handler}
    (never : handler.Throughout fun action => action.neverFails = true)
    {node : Node}
    {context : Context}
    {failure : Failure} :
    ¬ handler.Raises node context failure := by
  rintro ⟨action, member, raises⟩
  have throughout := Action.AllThroughout.of_mem never member
  apply raises.cause
  · intro inner within refits _ _
    have innerNever := (within.throughout throughout).self
    rw [Action.refits_eq_false innerNever] at refits
    cases refits
  · intro wording within
    have innerNever := (within.throughout throughout).self
    cases innerNever

/-- Actions that do not ask for a node to be rebuilt make no call that does. -/
theorem Action.Makes.service_ne_rebuild
    {settings : Settings}
    {node : Node}
    {context : Context}
    {action : Action}
    {moves : List Move}
    {call : Call}
    (makes : action.Makes settings node context moves call)
    (never : action.Throughout fun action => action.isRebuild = false) :
    call.service ≠ .rebuild := by
  induction makes with
  | @callback action service _ _ _ _ _ _ calls =>
      rintro rfl
      cases action with
      | rebuild =>
          cases never
      | _ =>
          cases calls
  | child | visitUnder | restart =>
      exact nofun
  | consequence _ _ member _ inductionHypothesis =>
      exact inductionHypothesis (never.2.1.of_mem member)
  | alternative _ _ member _ inductionHypothesis =>
      exact inductionHypothesis (never.2.2.of_mem member)
  | body member _ inductionHypothesis =>
      exact inductionHypothesis (never.2.1.of_mem member)
  | handling member _ inductionHypothesis =>
      exact inductionHypothesis (never.2.2.of_mem member)

/-- A listener that never gives up rejects no kind. -/
theorem Listener.NeverGivesUp.ne_logging
    {listener : Listener}
    (never : listener.NeverGivesUp)
    {kind : NodeKind} :
    listener ≠ .logging (some kind) := by
  rintro rfl
  exact never

namespace Walker

variable
  {walker : Walker}
  {handlers : HandlerMap Handler}

/-- Neither the listener nor the handlers of a walk fail by themselves. -/
structure NeverFails
    (walker : Walker)
    (handlers : HandlerMap Handler) : Prop where
  listener : walker.settings.listener.NeverGivesUp
  handlers :
    ∀ handler,
      walker.Employs handlers handler →
      handler.Throughout fun action => action.neverFails = true

/-- A call is made with chains that can be spread, if all are to be. -/
def CallsIterable
    (walker : Walker)
    (spread : Prop)
    (call : Call) :
    Prop :=
  spread → call.context.IsIterable walker.settings

variable
  {spread : Prop}
  (keeps : spread → walker.KeepsIterable handlers)

include keeps

/-- A visitor whose handlers and listener never fail fails on its way down only. -/
theorem onlyDescent_of_visitor
    (visitor : walker.mode = .visitor)
    (never : walker.NeverFails handlers)
    (neverRebuild :
      ∀ handler,
        walker.Employs handlers handler →
        handler.Throughout fun action => action.isRebuild = false) :
    CallInvariant walker handlers
      (fun call =>
        call.service ≠ .rebuild ∧ walker.CallsIterable spread call)
      (.onlyDescent walker.settings spread) where
  closed := by
    rintro call moves next ⟨_, iterable⟩ leads
    refine ⟨?_, fun isSpread =>
      leads.isIterable (keeps isSpread) (iterable isSpread)⟩
    cases leads with
    | byHandler invokes makes =>
        obtain ⟨action, member, byAction⟩ := makes
        have throughout := neverRebuild _ invokes.employs
        exact byAction.service_ne_rebuild (throughout.of_mem member)
    | toFallback | toStructural | toChild | toRoot =>
        exact nofun
  entered _ _ := trivial
  logged _ := trivial
  told _ _ := trivial
  refused permits derives refused :=
    Context.onlyDescent_of_refused
      (fun isSpread =>
        derives.isIterable (keeps isSpread) (permits.2 isSpread))
      refused
  raised _ invokes raises :=
    (Handler.not_raises (never.handlers _ invokes.employs) raises).elim
  rejected rejects := (never.listener.ne_logging rejects).elim
  refitted _ transformer := by
    rw [visitor] at transformer
    cases transformer
  noRebuild permits rebuilds := (permits.1 rebuilds).elim
  severalRoots transformer := by
    rw [visitor] at transformer
    cases transformer

end Walker

namespace Run

variable
  {handlers : HandlerMap Handler}
  {Outcome Next : Type}
  {count further : Nat}
  {run : Run Outcome}

/-- Whenever a run finishes, it has delivered so many results. -/
def Counts
    (handlers : HandlerMap Handler)
    (count : Nat)
    (run : Run Outcome) :
    Prop :=
  ∀ outcome,
    (run.trace handlers).ending = .finished outcome →
    (Event.results (run.trace handlers).events).length = count

namespace Counts

/-- What goes on adds the results that it delivers. -/
theorem bind
    {next : Outcome → Run Next}
    (first : run.Counts handlers count)
    (second :
      ∀ outcome,
        (run.trace handlers).ending = .finished outcome →
        (next outcome).Counts handlers further) :
    (run.bind next).Counts handlers (count + further) := by
  intro last finished
  rw [trace_bind, Trace.andThen] at finished ⊢
  cases ended : (run.trace handlers).ending with
  | finished outcome =>
      rw [ended] at finished
      rw [Event.results_append, List.length_append, first outcome ended,
        second outcome ended last finished]
  | failed failure | exhausted =>
      rw [ended] at finished
      cases finished

/-- What goes on after a run without results delivers all the results. -/
theorem andThen
    {next : Outcome → Run Next}
    (first : run.Counts handlers 0)
    (second :
      ∀ outcome,
        (run.trace handlers).ending = .finished outcome →
        (next outcome).Counts handlers further) :
    (run.bind next).Counts handlers further := by
  rw [← Nat.zero_add further]
  exact first.bind second

/-- An outcome that may be missing comes without results. -/
theorem ofExcept
    (outcome : Except Failure Outcome) :
    (Run.ofExcept outcome).Counts handlers 0 := by
  cases outcome with
  | ok value =>
      exact fun _ _ => rfl
  | error failure =>
      exact fun _ _ => rfl

/-- Results that are collected are not delivered. -/
theorem gather
    (run : Run Unit) :
    run.gather.Counts handlers 0 := by
  intro values _
  have yields : run.Yields handlers _ _ := ⟨rfl, rfl⟩
  rw [yields.gather.results]
  rfl

/-- As many results are collected as are delivered. -/
theorem length_of_gather
    {run : Run Unit}
    {values : List Value}
    (counts : run.Counts handlers count)
    (collected : (run.gather.trace handlers).ending = .finished values) :
    values.length = count := by
  have yields : run.Yields handlers _ _ := ⟨rfl, rfl⟩
  rw [yields.gather.ending] at collected
  cases ended : (run.trace handlers).ending with
  | finished outcome =>
      rw [ended] at collected
      cases collected
      exact counts outcome ended
  | failed failure | exhausted =>
      rw [ended] at collected
      cases collected

/-- Delivering some values delivers as many results. -/
theorem deliverAll
    (values : List Value) :
    (Run.deliverAll values).Counts handlers values.length := by
  induction values with
  | nil =>
      exact fun _ _ => rfl
  | cons value rest inductionHypothesis =>
      intro outcome finished
      exact congrArg (· + 1) (inductionHypothesis outcome finished)

/-- As many results are delivered when they are collected first. -/
theorem regather
    {run : Run Unit}
    (counts : run.Counts handlers count) :
    (run.gather.bind Run.deliverAll).Counts handlers count := by
  apply (gather run).andThen
  intro values collected
  rw [← counts.length_of_gather collected]
  exact deliverAll values

end Counts

end Run

/-- Whether a handler is eager does not matter to how many results it gives. -/
theorem Handler.given_counts
    {handlers : HandlerMap Handler}
    {handler : Handler}
    {services : Services}
    {node : Node}
    {context : Context}
    {count : Nat}
    (counts : (handler.body services node context).Counts handlers count) :
    (handler.given services node context).Counts handlers count := by
  cases isEager : handler.eager with
  | true =>
      rw [given_of_eager isEager]
      exact counts.regather
  | false =>
      rw [given_of_lazy isEager]
      exact counts

namespace Walker

variable
  {walker : Walker}
  {handlers : HandlerMap Handler}
  {services : Services}

/-- A listener is told without results. -/
theorem notify_counts
    (settings : Settings)
    (node : Node)
    (type : Option NodeType) :
    (notify settings node type).Counts handlers 0 := by
  unfold notify
  cases settings.listener with
  | silent | debugging =>
      exact fun _ _ => rfl
  | logging rejected =>
      simp only [Run.noting, Run.bind_eq, Run.bind]
      split
      · exact fun _ _ => rfl
      · exact fun _ _ => rfl

/-- Children give as many results as there are if each gives one. -/
theorem visitChildren_counts
    (each :
      ∀ node context, (services.visitNode node context).Counts handlers 1)
    (node : Node)
    (context : Context)
    (first : Nat)
    (children : List Node) :
    (visitChildren services node context first children).Counts handlers
      children.length := by
  induction children generalizing first with
  | nil =>
      exact fun _ _ => rfl
  | cons child rest inductionHypothesis =>
      rw [visitChildren_cons, List.length_cons, Nat.add_comm]
      apply Run.Counts.bind
      · exact (Run.Counts.ofExcept _).andThen
          fun below _ => each child below
      · exact fun _ _ => inductionHypothesis (first + 1)

/-- A node is rebuilt without results. -/
theorem rebuild_counts
    (node : Node)
    (context : Context) :
    (rebuild services node context).Counts handlers 0 := by
  unfold rebuild
  split
  · exact fun _ _ => rfl
  · exact (Run.Counts.gather _).andThen fun _ _ => .ofExcept _

section Transformer

variable
  (transformer : walker.mode = .transformer)
  (each :
    ∀ handler,
      walker.Employs handlers handler →
      ∀ node context,
        (handler.body services node context).Counts handlers 1)

include transformer each

/-- The fallback of a transformer gives one result. -/
theorem callGeneric_counts
    (node : Node)
    (context : Context) :
    ((walker.callGeneric services node context).bind id).Counts handlers
      1 := by
  unfold callGeneric
  cases replaced : walker.fallback with
  | none =>
      simp only [callStructural, transformer, Run.bind_bind]
      exact (rebuild_counts node context).andThen fun _ _ _ _ => rfl
  | some handler =>
      have given :=
        Handler.given_counts (each handler (.inr replaced) node context)
      simp only [callHandler_bind_id]
      exact given

/-- A node of a transformer gives one result. -/
theorem visitNode_counts
    (node : Node)
    (context : Context) :
    (walker.visitNode services node context).Counts handlers 1 := by
  have called :
      (walker.visitResolved services node context
        (handlers.resolve? node.kind)).Counts handlers 1 := by
    apply (notify_counts walker.settings node _).andThen
    intro _ _
    cases found : handlers.resolve? node.kind with
    | none =>
        exact callGeneric_counts transformer each node context
    | some registration =>
        have employs : walker.Employs handlers registration.handler :=
          .inl ⟨_, HandlerMap.mem_of_resolve? found⟩
        have isBound :
            registration.handlerFor node = .ok registration.handler :=
          if_pos (HandlerMap.includes_of_resolve? found)
        simp only [isBound]
        exact Handler.given_counts (each _ employs node context)
  have results :
      ((walker.callNode services node context).bind id).Counts handlers
        1 := by
    rw [callNode_bind_id]
    exact called
  simp only [visitNode, transformer]
  exact results.regather

end Transformer

end Walker

/-- A node takes as many other children as it has. -/
theorem Node.exists_withChildren
    {node : Node}
    {given : List Node}
    (sameLength : given.length = node.children.length) :
    ∃ result, node.withChildren given = .ok result :=
  withChildren_isOk fun _ fixed =>
    sameLength.trans (length_children_of_arity? fixed)

namespace Walker

variable
  {walker : Walker}
  {handlers : HandlerMap Handler}

/--
A transformer whose handlers and listener never fail fails on its way down only, if
whatever its handlers complete has delivered one result.
-/
theorem onlyDescent_of_transformer
    {spread : Prop}
    (keeps : spread → walker.KeepsIterable handlers)
    (transformer : walker.mode = .transformer)
    (never : walker.NeverFails handlers)
    (each :
      ∀ handler,
        walker.Employs handlers handler →
        ∀ bound node context,
          (handler.body (walker.services bound) node context).Counts
            handlers 1) :
    CallInvariant walker handlers (walker.CallsIterable spread)
      (.onlyDescent walker.settings spread) where
  closed iterable leads isSpread :=
    leads.isIterable (keeps isSpread) (iterable isSpread)
  entered _ _ := trivial
  logged _ := trivial
  told _ _ := trivial
  refused iterable derives refused :=
    Context.onlyDescent_of_refused
      (fun isSpread =>
        derives.isIterable (keeps isSpread) (iterable isSpread))
      refused
  raised _ invokes raises :=
    (Handler.not_raises (never.handlers _ invokes.employs) raises).elim
  rejected rejects := (never.listener.ne_logging rejects).elim
  noRebuild _ _ visitor := by
    rw [transformer] at visitor
    cases visitor
  refitted := by
    intro bound call replacements failure _ _ collected failed
    have visits :
        ∀ node context,
          ((walker.services bound).visitNode node context).Counts handlers
            1 := by
      intro node context
      cases bound with
      | zero =>
          exact fun _ => nofun
      | succ bound =>
          exact visitNode_counts transformer
            (fun handler employs => each handler employs bound) node
            context
    have counts :=
      visitChildren_counts visits call.node call.context 0
        call.node.children
    have sameLength :
        (replacements.map Value.asNode).length =
          call.node.children.length := by
      rw [List.length_map, counts.length_of_gather collected]
    obtain ⟨result, rebuilt⟩ := Node.exists_withChildren sameLength
    rw [rebuilt] at failed
    cases failed
  severalRoots := by
    intro bound tree keys results _ collected notOne
    have counts :=
      visitNode_counts transformer
        (fun handler employs => each handler employs bound) tree
        (.root walker.settings keys)
    exact (notOne (counts.length_of_gather collected)).elim

/--
A failure is met in the use of a walker: a step is refused for it, or a rescue in a handler
that a step leads to has it to handle.
-/
inductive Meets
    (walker : Walker)
    (handlers : HandlerMap Handler)
    (steps : List Step)
    (failure : Failure) : Prop where
  | refused
      {bound : Nat}
      {answer : Answer}
      (member :
        answer ∈ (Session.create walker handlers).answers bound steps)
      (isRefusal : answer.reply = .refused failure)
  | caught
      {step : Step}
      {first call : Call}
      {moves : List Move}
      (member : step ∈ steps)
      (asks : step.call? walker.settings = some first)
      (route : walker.Route handlers first moves call)
      (catches : walker.Catches handlers call failure)

/-- A route leads from a permitted call to permitted ones. -/
theorem Route.permits
    {permitted : Call → Prop}
    {promise : Promise}
    {first call : Call}
    {moves : List Move}
    (route : walker.Route handlers first moves call)
    (invariant : CallInvariant walker handlers permitted promise)
    (permits : permitted first) :
    permitted call := by
  induction route with
  | here =>
      exact permits
  | onward _ leads inductionHypothesis =>
      exact invariant.closed inductionHypothesis leads

/-- Every failure that is met is as an invariant promises. -/
theorem Meets.promised
    {permitted : Call → Prop}
    {promise : Promise}
    {steps : List Step}
    {failure : Failure}
    (meets : walker.Meets handlers steps failure)
    (invariant : CallInvariant walker handlers permitted promise)
    (covered :
      ∀ step ∈ steps,
        step.IsCovered walker.settings permitted promise) :
    promise.failure failure := by
  cases meets with
  | @refused bound answer member isRefusal =>
      have promised :=
        (Session.Keeps.create walker handlers promise).answers invariant
          bound covered answer member
      rw [isRefusal] at promised
      exact promised
  | @caught step first call moves member asks route catches =>
      have permits : permitted call :=
        route.permits invariant ((covered step member).permits first asks)
      exact catches.promised invariant permits

end Walker

/-- A caller asks for a node to be rebuilt by a step. -/
def Step.isRebuild : Step → Bool
  | .rebuild .. => true
  | _ => false

/-- Steps whose chains can be spread, if all are to be, are covered. -/
theorem Step.isCovered_onlyDescent
    {walker : Walker}
    {spread : Prop}
    {step : Step}
    (iterable : spread → step.IsIterable walker.settings) :
    step.IsCovered walker.settings (walker.CallsIterable spread)
      (.onlyDescent walker.settings spread) where
  permits _ asks isSpread := (iterable isSpread).call asks
  refused := by
    rintro parent index context failure rfl refused
    exact Context.onlyDescent_of_refused
      (fun isSpread => (iterable isSpread).context context rfl) refused

/--
Whatever fails in some steps fails on the way down, and if neither the handlers nor the
steps put under the key of a chain what cannot be spread, it fails for being too deep.
-/
def Walker.FailsInDescentOnly
    (walker : Walker)
    (handlers : HandlerMap Handler)
    (steps : List Step) :
    Prop :=
  ∀ failure,
    walker.Meets handlers steps failure →
    failure.IsOfDescent walker.settings ∧
      (walker.KeepsIterable handlers →
        (∀ step ∈ steps, step.IsIterable walker.settings) →
        failure = .traversalDepth (.ofNat walker.settings.maxDepth))

/--
Failures tell the truth. Every failure that is met in the use of a walker, whatever its
handlers and its listener are, tells what is the case. If neither the listener nor the
handlers fail by themselves, all failures that are met are met on the way down, and are for
the depth alone where the chains that are kept can be spread: in a visitor where no node is
rebuilt, and in a transformer whose handlers have delivered one result whenever they
complete.
-/
theorem Walker.failures_tell_truth
    (walker : Walker)
    (handlers : HandlerMap Handler) :
    (∀ steps failure,
      walker.Meets handlers steps failure →
      failure.TellsTruth walker) ∧
    (walker.mode = .visitor →
      walker.NeverFails handlers →
      (∀ handler,
        walker.Employs handlers handler →
        handler.Throughout fun action => action.isRebuild = false) →
      ∀ steps : List Step,
        (∀ step ∈ steps, step.isRebuild = false) →
        walker.FailsInDescentOnly handlers steps) ∧
    (walker.mode = .transformer →
      walker.NeverFails handlers →
      (∀ handler,
        walker.Employs handlers handler →
        ∀ bound node context,
          (handler.body (walker.services bound) node context).Counts
            handlers 1) →
      ∀ steps, walker.FailsInDescentOnly handlers steps) := by
  refine ⟨?_, ?_, ?_⟩
  · intro steps failure meets
    apply meets.promised (walker.truthInvariant handlers)
    intro step _
    exact
      { permits := fun _ _ => trivial
        refused := fun _ _ _ _ _ => Context.tellsTruth_of_refused }
  · intro visitor never neverRebuild steps noRebuild failure meets
    rw [← and_imp]
    apply meets.promised
      (onlyDescent_of_visitor And.left visitor never neverRebuild)
    rintro step member
    have covered :=
      Step.isCovered_onlyDescent
        fun isSpread :
          walker.KeepsIterable handlers ∧
            ∀ step ∈ steps, step.IsIterable walker.settings =>
          isSpread.2 step member
    refine ⟨fun call asks => ⟨?_, covered.permits call asks⟩,
      covered.refused⟩
    intro rebuilds
    have notRebuild := noRebuild step member
    cases step <;> cases asks <;> cases rebuilds
    cases notRebuild
  · intro transformer never each steps failure meets
    rw [← and_imp]
    apply meets.promised
      (onlyDescent_of_transformer And.left transformer never each)
    exact fun step member =>
      Step.isCovered_onlyDescent fun isSpread => isSpread.2 step member

/-- A walker that goes one level down, and whose fallback is not replaced. -/
def goingOneDown (mode : Mode) : Walker where
  mode := mode
  settings :=
    { trackParents := false
      trackNewParents := true
      trackPaths := true
      maxDepth := 1
      maxDepth_pos := Nat.one_pos
      listener := .logging none }
  fallback := none

/-- Terms log where they are and give themselves with a mark. -/
def exclaimingTerms : HandlerMap Handler :=
  [(.anyOf .term,
    { eager := true
      actions := [.log .path, .deliver (.append "!" .node)] })]

/-- Two groups around a word. -/
def twoGroups : Node :=
  Query.group (Query.group (Query.word "a"))

/-- With those handlers walkers never fail by themselves. -/
theorem neverFails_exclaimingTerms
    (mode : Mode) :
    (goingOneDown mode).NeverFails exclaimingTerms := by
  refine ⟨trivial, ?_⟩
  rintro handler (⟨type, member⟩ | replaced)
  · cases List.mem_singleton.mp member
    exact ⟨rfl, rfl, trivial⟩
  · cases replaced

/-- With those handlers walkers can go down from all contexts in circulation. -/
theorem keepsIterable_exclaimingTerms
    (mode : Mode) :
    (goingOneDown mode).KeepsIterable exclaimingTerms := by
  rintro handler (⟨type, member⟩ | replaced)
  · cases List.mem_singleton.mp member
    exact ⟨⟨nofun, nofun⟩, ⟨nofun, nofun⟩, trivial⟩
  · cases replaced

/-- Those handlers ask for no node to be rebuilt. -/
theorem neverRebuild_exclaimingTerms
    {mode : Mode}
    {handler : Handler}
    (employs : (goingOneDown mode).Employs exclaimingTerms handler) :
    handler.Throughout fun action => action.isRebuild = false := by
  rcases employs with ⟨type, member⟩ | replaced
  · cases List.mem_singleton.mp member
    exact ⟨rfl, rfl, trivial⟩
  · cases replaced

/-- Those handlers deliver one result whenever they complete. -/
theorem counts_exclaimingTerms
    {mode : Mode}
    {handler : Handler}
    (employs : (goingOneDown mode).Employs exclaimingTerms handler)
    (services : Services)
    (node : Node)
    (context : Context) :
    (handler.body services node context).Counts exclaimingTerms 1 := by
  rcases employs with ⟨type, member⟩ | replaced
  · cases List.mem_singleton.mp member
    exact fun _ _ => rfl
  · cases replaced

/-- A step that is refused meets a failure. -/
theorem Walker.Meets.of_reply
    {walker : Walker}
    {handlers : HandlerMap Handler}
    {step : Step}
    {failure : Failure}
    (bound : Nat)
    (isRefused :
      ((Session.create walker handlers).answers bound [step])[0]?.map
          Answer.reply =
        some (.refused failure)) :
    walker.Meets handlers [step] failure := by
  obtain ⟨answer, isFirst, isRefusal⟩ :=
    Option.map_eq_some_iff.mp isRefused
  exact .refused (List.mem_of_getElem? isFirst) isRefusal

/-- Begin with a number where the new ancestors are kept. -/
def traverseWithNumber : Step :=
  .traverse twoGroups [("newParents", .number (.ofNat 5))]

/--
A visitor and a transformer that become too deep, and fail for nothing else but a number
where ancestors are kept.
-/
theorem Walker.failures_tell_truth_twoGroups :
    (∀ handler,
      (goingOneDown .visitor).Employs exclaimingTerms handler →
      handler.Throughout fun action => action.isRebuild = false) ∧
    (∀ handler,
      (goingOneDown .transformer).Employs exclaimingTerms handler →
      ∀ bound node context,
        (handler.body ((goingOneDown .transformer).services bound) node
            context).Counts exclaimingTerms 1) ∧
    ∀ mode,
      (goingOneDown mode).NeverFails exclaimingTerms ∧
      (goingOneDown mode).KeepsIterable exclaimingTerms ∧
      (Step.traverse twoGroups []).IsIterable
        (goingOneDown mode).settings ∧
      (goingOneDown mode).Meets exclaimingTerms [.traverse twoGroups []]
        (.traversalDepth (.ofNat 1)) ∧
      (∀ failure,
        (goingOneDown mode).Meets exclaimingTerms [.traverse twoGroups []]
          failure →
        failure = .traversalDepth (.ofNat 1)) ∧
      (goingOneDown mode).Meets exclaimingTerms [traverseWithNumber]
        (.notIterable "newParents") ∧
      ∀ failure,
        (goingOneDown mode).Meets exclaimingTerms [traverseWithNumber]
          failure →
        failure.IsOfDescent (goingOneDown mode).settings := by
  have neverRebuild :
      ∀ handler,
        (goingOneDown .visitor).Employs exclaimingTerms handler →
        handler.Throughout fun action => action.isRebuild = false :=
    fun _ => neverRebuild_exclaimingTerms
  have each :
      ∀ handler,
        (goingOneDown .transformer).Employs exclaimingTerms handler →
        ∀ bound node context,
          (handler.body ((goingOneDown .transformer).services bound) node
              context).Counts exclaimingTerms 1 :=
    fun _ employs _ => counts_exclaimingTerms employs _
  have inDescent :
      ∀ mode keys,
        (goingOneDown mode).FailsInDescentOnly exclaimingTerms
          [.traverse twoGroups keys] := by
    intro mode keys
    have never := neverFails_exclaimingTerms mode
    have noRebuild :
        ∀ step ∈ [Step.traverse twoGroups keys],
          step.isRebuild = false := by
      simp [Step.isRebuild]
    cases mode with
    | visitor =>
        obtain ⟨_, ofVisitor, _⟩ :=
          failures_tell_truth (goingOneDown .visitor) exclaimingTerms
        exact ofVisitor rfl never neverRebuild _ noRebuild
    | transformer =>
        obtain ⟨_, _, ofTransformer⟩ :=
          failures_tell_truth (goingOneDown .transformer) exclaimingTerms
        exact ofTransformer rfl never each _
  refine ⟨neverRebuild, each, ?_⟩
  intro mode
  have keeps := keepsIterable_exclaimingTerms mode
  have iterable :
      (Step.traverse twoGroups []).IsIterable
        (goingOneDown mode).settings :=
    { context := nofun
      keys := by
        rintro _ ⟨⟩
        exact Chain.areIterable_nil }
  refine
    ⟨neverFails_exclaimingTerms mode, keeps, iterable, .of_reply 9 ?_, ?_,
      .of_reply 9 ?_, fun failure meets =>
        (inDescent mode _ failure meets).1⟩
  · cases mode <;> rfl
  · intro failure meets
    apply (inDescent mode [] failure meets).2 keeps
    rintro step member
    cases List.mem_singleton.mp member
    exact iterable
  · cases mode <;> rfl

/--
Handlers and listener that never fail by themselves do not leave only the depth to fail
for: a rescue handles that a number cannot be spread, and the traversal gives the text that
the rescue has ready for it.
-/
theorem Walker.failures_not_of_depth_only :
    keepingParents.NeverFails numberingGroups ∧
    ¬ keepingParents.KeepsIterable numberingGroups ∧
    (∀ handler,
      keepingParents.Employs numberingGroups handler →
      handler.Throughout fun action => action.isRebuild = false) ∧
    (Step.traverse (Query.group (Query.word "a")) []).isRebuild = false ∧
    ((Session.create keepingParents numberingGroups).answers 9
        [.traverse (Query.group (Query.word "a")) []]).map Answer.reply =
      [.result (.list [.data (.text "caught")])] ∧
    ∃ failure,
      keepingParents.Meets numberingGroups
        [.traverse (Query.group (Query.word "a")) []] failure ∧
      failure ≠ .traversalDepth (.ofNat keepingParents.settings.maxDepth) := by
  have throughout :
      ∀ handler,
        keepingParents.Employs numberingGroups handler →
        handler.Throughout (fun action => action.neverFails = true) ∧
          handler.Throughout fun action => action.isRebuild = false := by
    rintro handler (⟨type, member⟩ | replaced)
    · rcases List.mem_pair.mp member with isGroup | isWord
      · cases isGroup
        exact
          ⟨⟨⟨rfl, ⟨rfl, trivial⟩, rfl, trivial⟩, trivial⟩,
            ⟨⟨rfl, ⟨rfl, trivial⟩, rfl, trivial⟩, trivial⟩⟩
      · cases isWord
        exact ⟨⟨rfl, trivial⟩, rfl, trivial⟩
    · cases replaced
  let root : Context := .root keepingParents.settings []
  let scope : Scope := .start (Query.group (Query.word "a")) root
  have catches :
      keepingParents.Catches numberingGroups
        { service := .visitNode
          node := Query.group (Query.word "a")
          context := root }
        (.notIterable "parents") :=
    @Catches.rescue _ _ _ _ _ _ _ _ scope 7
      { scope := scope, failure := some (.notIterable "parents") }
      _ (.resolved rfl) List.mem_cons_self .itself ⟨rfl, rfl⟩ rfl rfl
  have route :
      keepingParents.Route numberingGroups
        (.traversal keepingParents.settings
          (Query.group (Query.word "a")) [])
        [] _ :=
    Route.here.onward .toRoot
  exact
    ⟨⟨trivial, fun handler employs => (throughout handler employs).1⟩,
      not_keepsIterable_numberingGroups,
      fun handler employs => (throughout handler employs).2, rfl, rfl,
      .notIterable "parents",
      .caught List.mem_cons_self rfl route catches, nofun⟩

end QueryWalk
