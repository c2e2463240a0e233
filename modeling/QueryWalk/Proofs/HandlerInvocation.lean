import QueryWalk.Proofs.CallRoutes
import QueryWalk.Proofs.EvaluationFailures

namespace QueryWalk

/-!
# Invocations of handlers

An invariant of calls holds of every call that a walk comes to, provided that it
passes from each call to those it leads to. So what is promised of the handlers
called under the invariant holds of all handlers the walk calls, and what is promised
of its failures holds of all that it meets. The strongest invariant is that a route
leads to the call.
-/

/-- A walk that is too deep is no misfit. -/
theorem Failure.IsMisfit.ne_traversalDepth
    {failure : Failure}
    {limit : Number}
    (misfit : failure.IsMisfit) :
    failure ≠ .traversalDepth limit := by
  rintro rfl
  obtain ⟨kind, arity, actual, _, _, same⟩ := misfit.exists_arity
  cases same

namespace Action

/-- Whether an action, by itself, may give a node other children. -/
def refits : Action → Bool
  | .deliver value | .deliverAll value | .log value => value.refits
  | .fail _ | .rescue .. => false
  | .generic subject change | .structural subject change
  | .visit subject change | .rebuild subject change =>
      subject.refits || change.refits
  | .child _ _ change => change.refits
  | .visitUnder subject parent _ change =>
      subject.refits || (parent.refits || change.refits)
  | .restart tree start => tree.refits || start.refits
  | .choose condition _ _ => condition.refits

/-- An action fails by itself where it gives a node other children, or gives up. -/
theorem Misses.cause
    {cause : Failure → Prop}
    {scope : Scope}
    {failure : Failure}
    {action : Action}
    (misses : action.Misses scope failure)
    (refit :
      action.refits = true →
      ∀ {failure : Failure}, failure.IsMisfit → cause failure)
    (givesUp :
      ∀ wording,
        action = .fail wording →
        cause (.handler wording)) :
    cause failure := by
  cases action with
  | deliver value | deliverAll value | log value =>
      exact value.missesFor scope refit failure misses
  | fail wording =>
      cases misses
      exact givesUp wording rfl
  | generic subject change | structural subject change
  | visit subject change | rebuild subject change =>
      rcases misses with subjectMisses | changeMisses
      · exact subject.missesFor scope
          (fun refits => refit (Bool.or_eq_true_iff.mpr (.inl refits)))
          failure subjectMisses
      · exact change.missesFor scope
          (fun refits => refit (Bool.or_eq_true_iff.mpr (.inr refits)))
          failure changeMisses
  | child place index change =>
      exact change.missesFor scope refit failure misses
  | visitUnder subject parent index change =>
      rcases misses with subjectMisses | parentMisses | changeMisses
      · exact subject.missesFor scope
          (fun refits => refit (Bool.or_eq_true_iff.mpr (.inl refits)))
          failure subjectMisses
      · exact parent.missesFor scope
          (fun refits =>
            refit (Bool.or_eq_true_iff.mpr
              (.inr (Bool.or_eq_true_iff.mpr (.inl refits)))))
          failure parentMisses
      · exact change.missesFor scope
          (fun refits =>
            refit (Bool.or_eq_true_iff.mpr
              (.inr (Bool.or_eq_true_iff.mpr (.inr refits)))))
          failure changeMisses
  | restart tree start =>
      rcases misses with treeMisses | startMisses
      · exact tree.missesFor scope
          (fun refits => refit (Bool.or_eq_true_iff.mpr (.inl refits)))
          failure treeMisses
      · exact start.missesFor scope
          (fun refits => refit (Bool.or_eq_true_iff.mpr (.inr refits)))
          failure startMisses
  | choose condition consequence alternative =>
      exact condition.missesFor scope refit failure misses
  | rescue =>
      exact misses.elim

/-- A handler fails by itself where it gives a node other children, or gives up. -/
theorem Raises.cause
    {cause : Failure → Prop}
    {node : Node}
    {context : Context}
    {action : Action}
    {failure : Failure}
    (raises : action.Raises node context failure)
    (refit :
      ∀ inner : Action,
        inner.Within node context action →
        inner.refits = true →
        ∀ {failure : Failure}, failure.IsMisfit → cause failure)
    (givesUp :
      ∀ wording,
        (Action.fail wording).Within node context action →
        cause (.handler wording)) :
    cause failure := by
  cases raises with
  | @misses inner _ _ within _ misses =>
      apply misses.cause (refit inner within)
      rintro wording rfl
      exact givesUp wording within

end Action

/-- The entry made where somebody is told of the choice of a handler for a node. -/
def Listener.entry?
    (listener : Listener)
    (node : Node)
    (type : Option NodeType) :
    Option LogEntry :=
  match listener with
  | .silent => none
  | .debugging => some (.traced node.kind type)
  | .logging _ => some (.dispatched node.kind type node.attributes)

/--
What is known of the calls of a walk, and what that promises of its notes and of its
failures.
-/
structure CallInvariant
    (walker : Walker)
    (handlers : HandlerMap Handler)
    (permitted : Call → Prop)
    (promise : Promise) : Prop where
  closed :
    ∀ {call moves next},
      permitted call →
      walker.Leads handlers call moves next →
      permitted next
  entered :
    ∀ {call type handler},
      permitted call →
      walker.Invokes handlers call type handler →
      promise.note (.entered type call.node call.context)
  logged : ∀ value, promise.note (.entry (.logged value))
  told :
    ∀ {node context entry},
      permitted
        { service := .visitNode, node := node, context := context } →
      walker.settings.listener.entry? node
          ((handlers.resolve? node.kind).map Registration.type) =
        some entry →
      promise.note (.entry entry)
  /-- The context of a child is refused. -/
  refused :
    ∀ {call above parent index failure},
      permitted call →
      walker.Derives handlers call above parent index →
      above.descend walker.settings parent index = .error failure →
      promise.failure failure
  /-- A handler fails by itself. -/
  raised :
    ∀ {call type handler failure},
      permitted call →
      walker.Invokes handlers call type handler →
      handler.Raises call.node call.context failure →
      promise.failure failure
  /-- The listener gives up. -/
  rejected :
    ∀ {kind : NodeKind},
      walker.settings.listener = .logging (some kind) →
      promise.failure (.handler ("listener rejects " ++ kind.name))
  /-- A node that is rebuilt does not take what its children gave. -/
  refitted :
    ∀ {bound call replacements failure},
      permitted call →
      walker.mode = .transformer →
      ((Walker.visitChildren (walker.services bound) call.node call.context 0
          call.node.children).gather.trace handlers).ending =
        .finished replacements →
      call.node.withChildren (replacements.map Value.asNode) =
        .error failure →
      promise.failure failure
  /-- A visitor is asked to rebuild a node. -/
  noRebuild :
    ∀ {call},
      permitted call →
      call.service = .rebuild →
      walker.mode = .visitor →
      promise.failure .noRebuild
  /-- A tree is not transformed to one root. -/
  severalRoots :
    ∀ {bound tree keys results},
      walker.mode = .transformer →
      ((walker.visitNode (walker.services bound) tree
          (.root walker.settings keys)).gather.trace handlers).ending =
        .finished results →
      results.length ≠ 1 →
      promise.failure (.transformArity (.ofNat results.length) none)

/--
All that an action of a handler called for a node can ask for is permitted, and its
failures are as promised.
-/
structure Action.Permitted
    (settings : Settings)
    (permitted : Call → Prop)
    (promise : Promise)
    (node : Node)
    (context : Context)
    (action : Action) : Prop where
  calls :
    ∀ moves call,
      action.Makes settings node context moves call →
      permitted call
  refusals :
    ∀ above parent index failure,
      action.Derives node context above parent index →
      above.descend settings parent index = .error failure →
      promise.failure failure
  raises :
    ∀ failure,
      action.Raises node context failure →
      promise.failure failure

/-- All that a handler of a permitted call asks for is permitted. -/
theorem CallInvariant.permits_action
    {walker : Walker}
    {handlers : HandlerMap Handler}
    {permitted : Call → Prop}
    {promise : Promise}
    {call : Call}
    {type : Option NodeType}
    {handler : Handler}
    {action : Action}
    (invariant : CallInvariant walker handlers permitted promise)
    (permits : permitted call)
    (invokes : walker.Invokes handlers call type handler)
    (member : action ∈ handler.actions) :
    action.Permitted walker.settings permitted promise call.node
      call.context where
  calls _ _ makes :=
    invariant.closed permits
      (.byHandler invokes ⟨action, member, makes⟩)
  refusals _ _ _ _ derives refused :=
    invariant.refused permits
      (.byHandler invokes ⟨action, member, derives⟩) refused
  raises _ raises :=
    invariant.raised permits invokes ⟨action, member, raises⟩

/-- What an action that is permitted has within it is permitted. -/
theorem Action.Permitted.within
    {settings : Settings}
    {permitted : Call → Prop}
    {promise : Promise}
    {node : Node}
    {context : Context}
    {inner action : Action}
    (allowed : action.Permitted settings permitted promise node context)
    (within : inner.Within node context action) :
    inner.Permitted settings permitted promise node context where
  calls moves call makes := allowed.calls moves call (within.makes makes)
  refusals above parent index failure derives :=
    allowed.refusals above parent index failure (within.derives derives)
  raises failure raises := allowed.raises failure (within.raises raises)

namespace Services

/-- Services that make the promised notes when the call is permitted. -/
structure Follow
    (services : Services)
    (handlers : HandlerMap Handler)
    (permitted : Call → Prop)
    (promise : Promise) : Prop where
  visitNode :
    ∀ {node context},
      permitted
        { service := .visitNode, node := node, context := context } →
      (services.visitNode node context).Ensures handlers promise
        fun _ => True
  generic :
    ∀ {node context},
      permitted
        { service := .generic, node := node, context := context } →
      (services.generic node context).Ensures handlers promise
        fun _ => True
  structural :
    ∀ {node context},
      permitted
        { service := .structural, node := node, context := context } →
      (services.structural node context).Ensures handlers promise
        fun _ => True
  rebuild :
    ∀ {node context},
      permitted
        { service := .rebuild, node := node, context := context } →
      (services.rebuild node context).Ensures handlers promise
        fun _ => True
  restart :
    ∀ {tree keys},
      permitted (.traversal services.settings tree keys) →
      (services.restart tree keys).Ensures handlers promise
        fun _ => True

end Services

section Actions

variable
  {handlers : HandlerMap Handler}
  {permitted : Call → Prop}
  {promise : Promise}
  {services : Services}
  {node : Node}
  {context : Context}
  {scope : Scope}

namespace Finish

/-- Actions finish at the node of their handler, or in a failure that is as promised. -/
structure StaysAt
    (promise : Promise)
    (node : Node)
    (context : Context)
    (finish : Finish) : Prop where
  isAt : finish.scope.IsAt node context
  failure :
    ∀ failure,
      finish.failure = some failure →
      promise.failure failure

/-- Actions that do not fail only have to stay at the node. -/
theorem StaysAt.of_isAt
    (isAt : scope.IsAt node context) :
    StaysAt promise node context { scope := scope, failure := none } where
  isAt := isAt
  failure := by
    intro failure same
    cases same

/-- Work that stays at the node of a handler lets the handler stay there. -/
theorem perform_ensures
    {work : Run Scope}
    (isAt : scope.IsAt node context)
    (ensures :
      work.Ensures handlers promise fun changed =>
        changed.IsAt node context) :
    (perform scope work).Ensures handlers promise
      (StaysAt promise node context) := by
  apply ensures.attempt.bind
  intro outcome promised
  cases outcome with
  | ok changed =>
      exact .of_isAt promised
  | error failure =>
      refine ⟨isAt, ?_⟩
      intro met same
      cases same
      exact promised

/-- Work that has no outcome lets a handler stay at its node. -/
theorem effect_ensures
    {work : Run Unit}
    (isAt : scope.IsAt node context)
    (ensures : work.Ensures handlers promise fun _ => True) :
    (effect scope work).Ensures handlers promise
      (StaysAt promise node context) := by
  apply perform_ensures isAt
  apply ensures.bind
  intro _ _
  exact isAt

end Finish

namespace Action

/-- A call back promises what the service called promises. -/
theorem callback_ensures
    {Outcome : Type}
    {onOutcome : Outcome → Prop}
    {service : Node → Context → Run Outcome}
    {subject : Expression}
    {change : Change}
    (missed :
      ∀ failure,
        subject.eval scope = .error failure ∨
          change.apply scope = .error failure →
        promise.failure failure)
    (promised :
      ∀ value changed,
        subject.eval scope = .ok value →
        change.apply scope = .ok changed →
        (service value.asNode changed).Ensures handlers promise
          onOutcome) :
    (callback scope service subject change).Ensures handlers promise
      onOutcome := by
  apply Run.Ensures.ofExcept_bind
  · intro failure failed
    exact missed failure (.inl failed)
  · intro value evaluated
    apply Run.Ensures.ofExcept_bind
    · intro failure failed
      exact missed failure (.inr failed)
    · intro changed applied
      exact promised value changed evaluated applied

mutual

/-- An action that is permitted stays at the node of its handler. -/
theorem run_ensures
    (follow : services.Follow handlers permitted promise)
    (logged : ∀ value, promise.note (.entry (.logged value))) :
    ∀ (action : Action) {scope : Scope},
      scope.IsAt node context →
      action.Permitted services.settings permitted promise node context →
      (action.run services scope).Ensures handlers promise
        (Finish.StaysAt promise node context)
  | .deliver value, scope, isAt, allowed => by
      apply Finish.effect_ensures isAt
      apply Run.Ensures.ofExcept_bind
      · intro failure failed
        exact allowed.raises failure (.misses .itself isAt failed)
      · intro _ _
        trivial
  | .deliverAll values, scope, isAt, allowed => by
      apply Finish.effect_ensures isAt
      apply Run.Ensures.ofExcept_bind
      · intro failure failed
        exact allowed.raises failure (.misses .itself isAt failed)
      · intro _ _
        exact .deliverAll _
  | .log value, scope, isAt, allowed => by
      apply Finish.effect_ensures isAt
      apply Run.Ensures.ofExcept_bind
      · intro failure failed
        exact allowed.raises failure (.misses .itself isAt failed)
      · intro _ _
        exact ⟨logged _, trivial⟩
  | .fail wording, scope, isAt, allowed => by
      apply Finish.effect_ensures isAt
      exact allowed.raises _ (.misses .itself isAt rfl)
  | .generic subject change, scope, isAt, allowed => by
      apply Finish.effect_ensures isAt
      apply callback_ensures fun failure failed =>
        allowed.raises failure (.misses .itself isAt failed)
      intro value changed evaluated applied
      exact follow.generic
        (allowed.calls _ _ (.callback isAt rfl evaluated applied))
  | .structural subject change, scope, isAt, allowed => by
      apply Finish.effect_ensures isAt
      apply callback_ensures fun failure failed =>
        allowed.raises failure (.misses .itself isAt failed)
      intro value changed evaluated applied
      exact follow.structural
        (allowed.calls _ _ (.callback isAt rfl evaluated applied))
  | .child place index change, scope, isAt, allowed => by
      apply Finish.effect_ensures isAt
      apply Run.Ensures.ofExcept_bind
      · intro failure failed
        exact allowed.raises failure (.misses .itself isAt failed)
      · intro above applied
        apply Run.Ensures.ofExcept_bind
        · intro failure refused
          exact allowed.refusals _ _ _ _
            (.asks .itself isAt rfl rfl applied) refused
        · intro below descended
          rw [isAt.node_eq] at descended ⊢
          exact follow.visitNode
            (allowed.calls _ _ (.child isAt applied descended))
  | .visit subject change, scope, isAt, allowed => by
      apply Finish.effect_ensures isAt
      apply callback_ensures fun failure failed =>
        allowed.raises failure (.misses .itself isAt failed)
      intro value changed evaluated applied
      exact follow.visitNode
        (allowed.calls _ _ (.callback isAt rfl evaluated applied))
  | .visitUnder subject parent index change, scope, isAt, allowed => by
      apply Finish.effect_ensures isAt
      apply Run.Ensures.ofExcept_bind
      · intro failure failed
        exact allowed.raises failure (.misses .itself isAt (.inl failed))
      · intro value evaluated
        have makesContext :
            (callback scope
                (fun parent above => Run.ofExcept
                  (above.descend services.settings parent index))
                parent change).Ensures handlers promise fun below =>
              permitted
                { service := .visitNode
                  node := value.asNode
                  context := below } := by
          apply callback_ensures fun failure failed =>
            allowed.raises failure
              (.misses .itself isAt (.inr failed))
          intro upper above upperEvaluated applied
          apply Run.Ensures.ofExcept
          · intro failure refused
            exact allowed.refusals _ _ _ _
              (.asks .itself isAt rfl upperEvaluated applied) refused
          · intro below descended
            exact allowed.calls _ _
              (.visitUnder isAt evaluated upperEvaluated applied
                descended)
        apply makesContext.bind
        intro below permits
        exact follow.visitNode permits
  | .rebuild subject change, scope, isAt, allowed => by
      apply Finish.perform_ensures isAt
      have rebuilds :
          (callback scope services.rebuild subject change).Ensures
            handlers promise fun _ => True := by
        apply callback_ensures fun failure failed =>
          allowed.raises failure (.misses .itself isAt failed)
        intro value changed evaluated applied
        exact follow.rebuild
          (allowed.calls _ _ (.callback isAt rfl evaluated applied))
      apply rebuilds.bind
      intro result _
      exact ⟨isAt.node_eq, isAt.context_eq⟩
  | .restart tree start, scope, isAt, allowed => by
      apply Finish.effect_ensures isAt
      apply Run.Ensures.ofExcept_bind
      · intro failure failed
        exact allowed.raises failure (.misses .itself isAt (.inl failed))
      · intro value evaluated
        apply Run.Ensures.ofExcept_bind
        · intro failure failed
          exact allowed.raises failure
            (.misses .itself isAt (.inr failed))
        · intro keys given
          have restarts :=
            follow.restart
              (allowed.calls _ _ (.restart isAt evaluated given))
          exact restarts.bind fun _ _ => trivial
  | .choose condition consequence alternative, scope, isAt, allowed => by
      unfold Action.run
      split
      · rename_i holds
        exact runAll_ensures follow logged consequence isAt
          fun action member =>
            allowed.within (.consequence isAt holds member .itself)
      · rename_i fails
        exact runAll_ensures follow logged alternative isAt
          fun action member =>
            allowed.within (.alternative isAt fails member .itself)
      · rename_i failure failed
        refine ⟨isAt, ?_⟩
        intro met same
        cases same
        exact allowed.raises failure (.misses .itself isAt failed)
  | .rescue body handling, scope, isAt, allowed => by
      unfold Action.run
      apply (runAll_ensures follow logged body isAt
        fun action member =>
          allowed.within (.body member .itself)).bind
      intro finish stays
      split
      · exact stays
      · exact runAll_ensures follow logged handling
          ⟨stays.isAt.node_eq, stays.isAt.context_eq⟩
          fun action member =>
            allowed.within (.handling member .itself)

/-- Actions that are permitted stay at the node of their handler. -/
theorem runAll_ensures
    (follow : services.Follow handlers permitted promise)
    (logged : ∀ value, promise.note (.entry (.logged value))) :
    ∀ (actions : List Action) {scope : Scope},
      scope.IsAt node context →
      (∀ action ∈ actions,
        action.Permitted services.settings permitted promise node
          context) →
      (runAll services scope actions).Ensures handlers promise
        (Finish.StaysAt promise node context)
  | [], _, isAt, _ => .of_isAt isAt
  | action :: rest, scope, isAt, allowed => by
      unfold runAll
      apply (run_ensures follow logged action isAt
        (allowed action List.mem_cons_self)).bind
      intro finish stays
      unfold Finish.andThen
      split
      · exact runAll_ensures follow logged rest stays.isAt
          fun later member =>
            allowed later (List.mem_cons_of_mem action member)
      · exact stays

end

end Action

end Actions

namespace Handler

variable
  {handlers : HandlerMap Handler}
  {permitted : Call → Prop}
  {promise : Promise}
  {services : Services}
  {handler : Handler}
  {node : Node}
  {context : Context}

/-- What a handler gives, its actions permitted. -/
theorem body_ensures
    (follow : services.Follow handlers permitted promise)
    (logged : ∀ value, promise.note (.entry (.logged value)))
    (allowed :
      ∀ action ∈ handler.actions,
        action.Permitted services.settings permitted promise node
          context) :
    (handler.body services node context).Ensures handlers promise
      fun _ => True := by
  have startsAt : (Scope.start node context).IsAt node context :=
    ⟨rfl, rfl⟩
  apply (Action.runAll_ensures follow logged handler.actions startsAt
    allowed).bind
  intro finish stays
  split
  · trivial
  · rename_i failure failed
    exact stays.failure failure failed

/-- The call of a handler and what it leaves to be run, its actions permitted. -/
theorem call_ensures
    (follow : services.Follow handlers permitted promise)
    (logged : ∀ value, promise.note (.entry (.logged value)))
    (allowed :
      ∀ action ∈ handler.actions,
        action.Permitted services.settings permitted promise node
          context) :
    (handler.call services node context).Ensures handlers promise
      fun run => run.Ensures handlers promise fun _ => True := by
  have body := body_ensures follow logged allowed
  unfold call
  split
  · apply body.gather.bind
    intro results _
    exact .deliverAll results
  · exact body

end Handler

namespace Walker

variable
  {walker : Walker}
  {handlers : HandlerMap Handler}
  {permitted : Call → Prop}
  {promise : Promise}
  {services : Services}

/-- Telling the listener makes its entry, and fails only if the listener gives up. -/
theorem notify_ensures
    {settings : Settings}
    {node : Node}
    {type : Option NodeType}
    (rejected :
      ∀ kind : NodeKind,
        settings.listener = .logging (some kind) →
        promise.failure (.handler ("listener rejects " ++ kind.name)))
    (told :
      ∀ entry,
        settings.listener.entry? node type = some entry →
        promise.note (.entry entry)) :
    (notify settings node type).Ensures handlers promise
      fun _ => True := by
  simp only [notify]
  cases listens : settings.listener with
  | silent =>
      trivial
  | debugging =>
      rw [listens] at told
      exact ⟨told _ rfl, trivial⟩
  | logging kind =>
      rw [listens] at told
      refine ⟨told _ rfl, ?_⟩
      by_cases rejects : kind = some node.kind
      · simp only [Run.bind, if_pos rejects]
        exact rejected _ (listens.trans (congrArg _ rejects))
      · simp only [Run.bind, if_neg rejects]
        trivial

/-- What the children of a node give, their visits permitted. -/
theorem visitChildren_ensures
    (follow : services.Follow handlers permitted promise)
    {node : Node}
    {context : Context}
    {first : Nat}
    {children : List Node}
    (refused :
      ∀ place child failure,
        children[place]? = some child →
        context.descend services.settings node (.ofNat (first + place)) =
          .error failure →
        promise.failure failure)
    (allowed :
      ∀ place child below,
        children[place]? = some child →
        context.descend services.settings node (.ofNat (first + place)) =
          .ok below →
        permitted
          { service := .visitNode, node := child, context := below }) :
    (visitChildren services node context first children).Ensures
      handlers promise fun _ => True := by
  induction children generalizing first with
  | nil =>
      trivial
  | cons child rest inductionHypothesis =>
      have sameIndex :
          ∀ place, first + 1 + place = first + (place + 1) := by
        omega
      apply Run.Ensures.ofExcept_bind
      · intro failure refusedFirst
        exact refused 0 child failure rfl refusedFirst
      · intro below descended
        have visit :=
          follow.visitNode (allowed 0 child below rfl descended)
        apply visit.bind
        intro _ _
        apply inductionHypothesis
        · intro place later failure isChild refusedLater
          rw [sameIndex] at refusedLater
          exact refused (place + 1) later failure isChild refusedLater
        · intro place later further isChild descendedLater
          rw [sameIndex] at descendedLater
          exact allowed (place + 1) later further isChild descendedLater

section Invariant

variable
  {bound : Nat}
  (invariant : CallInvariant walker handlers permitted promise)
  (follow : (walker.services bound).Follow handlers permitted promise)

include invariant follow

/-- The built-in visit of the children under an invariant. -/
theorem visitAllChildren_ensures
    {call : Call}
    (visits : call.service.VisitsChildren walker.mode)
    (permits : permitted call) :
    (visitChildren (walker.services bound) call.node call.context 0
        call.node.children).Ensures handlers promise fun _ => True := by
  apply visitChildren_ensures follow
  · intro place child failure isChild refused
    rw [Nat.zero_add, settings_services] at refused
    exact invariant.refused permits (.byEngine visits isChild) refused
  · intro place child below isChild descended
    rw [Nat.zero_add, settings_services] at descended
    exact invariant.closed permits (.toChild visits isChild descended)

/-- A rebuild under an invariant. -/
theorem rebuild_ensures
    {call : Call}
    (visits : call.service.VisitsChildren walker.mode)
    (transformer : walker.mode = .transformer)
    (permits : permitted call) :
    (rebuild (walker.services bound) call.node call.context).Ensures
      handlers promise fun _ => True := by
  unfold rebuild
  split
  · trivial
  · apply (visitAllChildren_ensures invariant follow visits
      permits).gather.finished.bind
    rintro replacements ⟨_, collected⟩
    apply Run.Ensures.ofExcept
    · intro failure failed
      exact invariant.refitted permits transformer collected failed
    · intro _ _
      trivial

/-- A call of the built-in fallback under an invariant. -/
theorem callStructural_ensures
    {node : Node}
    {context : Context}
    (permits :
      permitted
        { service := .structural, node := node, context := context }) :
    (walker.callStructural (walker.services bound) node context).Ensures
      handlers promise
      fun run => run.Ensures handlers promise fun _ => True := by
  unfold callStructural
  split
  · exact visitAllChildren_ensures invariant follow (.inl rfl) permits
  · rename_i transformer
    apply (rebuild_ensures invariant follow (.inl rfl) transformer
      permits).bind
    intro rebuilt _
    trivial

/-- A call that asks for a node to be rebuilt under an invariant. -/
theorem callRebuild_ensures
    {node : Node}
    {context : Context}
    (permits :
      permitted
        { service := .rebuild, node := node, context := context }) :
    (walker.callRebuild (walker.services bound) node context).Ensures
      handlers promise fun _ => True := by
  unfold callRebuild
  split
  · rename_i visitor
    exact invariant.noRebuild permits rfl visitor
  · rename_i transformer
    exact rebuild_ensures invariant follow (.inr ⟨rfl, transformer⟩)
      transformer permits

/-- A call of a handler that an invariant permits. -/
theorem callHandler_ensures
    {call : Call}
    {type : Option NodeType}
    {handler : Handler}
    (permits : permitted call)
    (invokes : walker.Invokes handlers call type handler) :
    (callHandler (walker.services bound) type handler call.node
        call.context).Ensures handlers promise
      fun run => run.Ensures handlers promise fun _ => True := by
  refine ⟨invariant.entered permits invokes, ?_⟩
  apply Handler.call_ensures follow invariant.logged
  intro action member
  rw [settings_services]
  exact invariant.permits_action permits invokes member

/-- A call of the fallback under an invariant. -/
theorem callGeneric_ensures
    {node : Node}
    {context : Context}
    (permits :
      permitted
        { service := .generic, node := node, context := context }) :
    (walker.callGeneric (walker.services bound) node context).Ensures
      handlers promise
      fun run => run.Ensures handlers promise fun _ => True := by
  unfold callGeneric
  split
  · rename_i handler given
    exact callHandler_ensures invariant follow permits (.replaced given)
  · rename_i original
    exact callStructural_ensures invariant follow
      (invariant.closed permits (.toStructural original))

/-- The resolution of a node and the call it comes to under an invariant. -/
theorem callNode_ensures
    {node : Node}
    {context : Context}
    (permits :
      permitted
        { service := .visitNode, node := node, context := context }) :
    (walker.callNode (walker.services bound) node context).Ensures handlers
      promise
      fun run => run.Ensures handlers promise fun _ => True := by
  change ((notify walker.settings node _).bind _).Ensures _ _ _
  apply (notify_ensures (fun _ => invariant.rejected)
    fun entry => invariant.told permits).bind
  intro _ _
  split
  · rename_i missed
    exact callGeneric_ensures invariant follow
      (invariant.closed permits (.toFallback missed))
  · rename_i registration found
    have isBound :
        registration.handlerFor node = .ok registration.handler :=
      if_pos (HandlerMap.includes_of_resolve? found)
    rw [isBound]
    exact callHandler_ensures invariant follow permits (.resolved found)

/-- The call that a node comes to, with all that it leaves to be run. -/
theorem callNode_bind_ensures
    {node : Node}
    {context : Context}
    (permits :
      permitted
        { service := .visitNode, node := node, context := context }) :
    ((walker.callNode (walker.services bound) node context).bind id).Ensures
      handlers promise fun _ => True :=
  (callNode_ensures invariant follow permits).bind
    fun _ promised => promised

/-- What a node gives under an invariant. -/
theorem visitNode_ensures
    {node : Node}
    {context : Context}
    (permits :
      permitted
        { service := .visitNode, node := node, context := context }) :
    (walker.visitNode (walker.services bound) node context).Ensures handlers
      promise fun _ => True := by
  have results := callNode_bind_ensures invariant follow permits
  unfold visitNode
  split
  · exact results
  · apply results.gather.bind
    intro values _
    exact .deliverAll values

/-- A walker that is asked for what a node gives, under an invariant. -/
theorem openNode_ensures
    {node : Node}
    {context : Context}
    (permits :
      permitted
        { service := .visitNode, node := node, context := context }) :
    (walker.openNode (walker.services bound) node context).Ensures handlers
      promise
      fun run => run.Ensures handlers promise fun _ => True := by
  unfold openNode
  split
  · exact callNode_ensures invariant follow permits
  · apply (callNode_bind_ensures invariant follow permits).gather.bind
    intro values _
    exact .deliverAll values

/-- A traversal under an invariant. -/
theorem traverse_ensures
    {tree : Node}
    {keys : Fields Value}
    (permits : permitted (.traversal walker.settings tree keys)) :
    (walker.traverse (walker.services bound) tree keys).Ensures handlers
      promise fun _ => True := by
  have visit :=
    visitNode_ensures invariant follow (invariant.closed permits .toRoot)
  apply visit.gather.finished.bind
  rintro results ⟨_, collected⟩
  split
  · trivial
  · trivial
  · rename_i transformer notOne
    apply invariant.severalRoots transformer collected
    intro isOne
    obtain ⟨root, rfl⟩ := List.length_eq_one_iff.mp isOne
    exact notOne root rfl

end Invariant

/-- With recursion to any bound, a walk makes the notes an invariant promises. -/
theorem services_follow
    (invariant : CallInvariant walker handlers permitted promise)
    (bound : Nat) :
    (walker.services bound).Follow handlers permitted promise := by
  induction bound with
  | zero =>
      constructor <;> intros <;> trivial
  | succ bound follow =>
      refine ⟨?_, ?_, ?_, ?_, ?_⟩
      · intro node context permits
        exact visitNode_ensures invariant follow permits
      · intro node context permits
        exact (callGeneric_ensures invariant follow permits).bind
          fun _ promised => promised
      · intro node context permits
        exact (callStructural_ensures invariant follow permits).bind
          fun _ promised => promised
      · intro node context permits
        exact callRebuild_ensures invariant follow permits
      · intro tree keys permits
        exact traverse_ensures invariant follow permits

/--
Whatever is known of a note: a route leads to the handler it tells of, or to the visit
of the node that the listener was told of.
-/
def Reaches
    (walker : Walker)
    (handlers : HandlerMap Handler)
    (first : Call) :
    Note → Prop
  | .entry entry =>
      (∃ value, entry = .logged value) ∨
        ∃ moves node context,
          walker.Route handlers first moves
              { service := .visitNode, node := node, context := context } ∧
            walker.settings.listener.entry? node
                ((handlers.resolve? node.kind).map Registration.type) =
              some entry
  | .entered type node context =>
      ∃ moves service handler,
        walker.Route handlers first moves
            { service := service, node := node, context := context } ∧
          walker.Invokes handlers
            { service := service, node := node, context := context }
            type handler

/--
A failure for being too deep is met where a route leads to a call at which the context
of a child is refused.
-/
def Blames
    (walker : Walker)
    (handlers : HandlerMap Handler)
    (first : Call)
    (failure : Failure) :
    Prop :=
  ∀ limit,
    failure = .traversalDepth limit →
    ∃ moves call above parent index,
      walker.Route handlers first moves call ∧
        walker.Derives handlers call above parent index ∧
        above.descend walker.settings parent index = .error failure

/-- That a route leads to a call is an invariant of calls. -/
theorem routeInvariant
    (walker : Walker)
    (handlers : HandlerMap Handler)
    (first : Call) :
    CallInvariant walker handlers
      (fun call => ∃ moves, walker.Route handlers first moves call)
      { note := walker.Reaches handlers first
        failure := walker.Blames handlers first } where
  logged value := .inl ⟨value, rfl⟩
  raised := by
    rintro call type handler failure _ _ ⟨action, _, raises⟩
    apply raises.cause
    · rintro _ _ _ _ misfit limit same
      exact (misfit.ne_traversalDepth same).elim
    · exact fun _ _ _ => nofun
  rejected _ _ := nofun
  refitted := by
    rintro bound call replacements failure _ _ _ misfits limit rfl
    have misfit : (Failure.traversalDepth limit).IsMisfit :=
      ⟨_, _, misfits⟩
    exact (misfit.ne_traversalDepth rfl).elim
  closed := by
    rintro call further next ⟨moves, route⟩ leads
    exact ⟨moves ++ further, route.onward leads⟩
  entered := by
    rintro call type handler ⟨moves, route⟩ invokes
    exact ⟨moves, call.service, handler, route, invokes⟩
  told := by
    rintro node context entry ⟨moves, route⟩ isTold
    exact .inr ⟨moves, node, context, route, isTold⟩
  noRebuild _ _ _ _ := nofun
  refused := by
    rintro call above parent index failure ⟨moves, route⟩ derives refused
      limit _
    exact ⟨moves, call, above, parent, index, route, derives, refused⟩
  severalRoots _ _ _ _ := nofun

/--
A handler is called, under a type or as the replaced fallback, in a traversal
of a tree: when the traversal is completed, or when its results are pulled.
-/
def CallsDuring
    (walker : Walker)
    (handlers : HandlerMap Handler)
    (bound : Nat)
    (tree : Node)
    (keys : Fields Value)
    (type : Option NodeType)
    (node : Node)
    (context : Context) :
    Prop :=
  .noted (.entered type node context) ∈
      (((walker.services bound).restart tree keys).complete
        (.ofMap handlers)).events ∨
    .noted (.entered type node context) ∈
      (((walker.services bound).visitNode tree
        (.root walker.settings keys)).complete (.ofMap handlers)).events

/--
Something is noted in a traversal of a tree: when the traversal is completed, or when
its results are pulled.
-/
def NotesDuring
    (walker : Walker)
    (handlers : HandlerMap Handler)
    (bound : Nat)
    (tree : Node)
    (keys : Fields Value)
    (noted : Note) :
    Prop :=
  .noted noted ∈
      (((walker.services bound).restart tree keys).complete
        (.ofMap handlers)).events ∨
    .noted noted ∈
      (((walker.services bound).visitNode tree
        (.root walker.settings keys)).complete (.ofMap handlers)).events

/--
A traversal of a tree ends in a failure: when the traversal is completed, or when its
results are pulled.
-/
def FailsDuring
    (walker : Walker)
    (handlers : HandlerMap Handler)
    (bound : Nat)
    (tree : Node)
    (keys : Fields Value)
    (failure : Failure) :
    Prop :=
  (((walker.services bound).restart tree keys).complete
      (.ofMap handlers)).halt = .failed failure ∨
    (((walker.services bound).visitNode tree
      (.root walker.settings keys)).complete (.ofMap handlers)).halt =
        .failed failure

section Traversals

variable
  (walker : Walker)
  (handlers : HandlerMap Handler)
  (bound : Nat)
  (tree : Node)
  (keys : Fields Value)

/-- A completed traversal keeps to the routes from its start. -/
theorem restart_ensures :
    ((walker.services bound).restart tree keys).Ensures handlers
      { note :=
          walker.Reaches handlers (.traversal walker.settings tree keys)
        failure :=
          walker.Blames handlers (.traversal walker.settings tree keys) }
      fun _ => True := by
  let first := Call.traversal walker.settings tree keys
  have follow :=
    services_follow (routeInvariant walker handlers first) bound
  apply follow.restart
  rw [settings_services]
  exact ⟨[], .here⟩

/-- A traversal whose results are pulled keeps to the routes from its start. -/
theorem visitRoot_ensures :
    ((walker.services bound).visitNode tree
        (.root walker.settings keys)).Ensures handlers
      { note :=
          walker.Reaches handlers (.traversal walker.settings tree keys)
        failure :=
          walker.Blames handlers (.traversal walker.settings tree keys) }
      fun _ => True := by
  let first := Call.traversal walker.settings tree keys
  have follow :=
    services_follow (routeInvariant walker handlers first) bound
  have atStart : walker.Route handlers first [] first := .here
  exact follow.visitNode ⟨[], atStart.onward .toRoot⟩

end Traversals

section During

variable
  {bound : Nat}
  {tree : Node}
  {keys : Fields Value}

/-- A route leads from the start of a traversal to all that is noted in it. -/
theorem NotesDuring.reaches
    {noted : Note}
    (happens : walker.NotesDuring handlers bound tree keys noted) :
    walker.Reaches handlers (.traversal walker.settings tree keys)
      noted := by
  rcases happens with inComplete | inPulled
  · rw [(Run.complete_eq_trace (.ofMap handlers) _).1] at inComplete
    exact (restart_ensures walker handlers bound tree keys).of_mem_trace
      inComplete
  · rw [(Run.complete_eq_trace (.ofMap handlers) _).1] at inPulled
    exact (visitRoot_ensures walker handlers bound tree keys).of_mem_trace
      inPulled

/-- A route leads from the start of a traversal to where it becomes too deep. -/
theorem FailsDuring.blames
    {failure : Failure}
    (fails : walker.FailsDuring handlers bound tree keys failure) :
    walker.Blames handlers (.traversal walker.settings tree keys)
      failure := by
  rcases fails with inComplete | inPulled
  · have ensures :=
      (restart_ensures walker handlers bound tree keys).of_ending
    rw [(Run.complete_eq_trace (.ofMap handlers) _).2.1] at inComplete
    rw [inComplete] at ensures
    exact ensures
  · have ensures :=
      (visitRoot_ensures walker handlers bound tree keys).of_ending
    rw [(Run.complete_eq_trace (.ofMap handlers) _).2.1] at inPulled
    rw [inPulled] at ensures
    exact ensures

/-- A route leads from the start of a traversal to every handler it calls. -/
theorem CallsDuring.reaches
    {type : Option NodeType}
    {node : Node}
    {context : Context}
    (called :
      walker.CallsDuring handlers bound tree keys type node context) :
    walker.Reaches handlers (.traversal walker.settings tree keys)
      (.entered type node context) :=
  NotesDuring.reaches called

end During

end Walker

end QueryWalk
