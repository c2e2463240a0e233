import QueryWalk.Proofs.CarriedProperties
import QueryWalk.Proofs.FamilyRegistration

namespace QueryWalk

/-!
# Catch-all handlers

A replaced fallback is called for exactly the nodes that have no handler. So it may as
well be a handler for all of them, in a walker whose fallback is not replaced: what it
asked the built-in fallback for it now asks the fallback for. A walk shows the same either
way, as long as nobody asks for the replaced fallback itself.
-/

/-- An action does not itself ask for the fallback. -/
def Action.SparesFallback : Action → Prop
  | .generic .. => False
  | .deliver _ | .deliverAll _ | .log _ | .fail _ | .structural ..
  | .child .. | .visit .. | .visitUnder .. | .rebuild .. | .restart ..
  | .choose .. | .rescue .. => True

namespace Action

mutual

/-- The action, asking for the fallback where it asks for the built-in one. -/
def askingFallback : Action → Action
  | .structural subject change => .generic subject change
  | .choose condition consequence alternative =>
      .choose condition (allAskingFallback consequence)
        (allAskingFallback alternative)
  | .rescue body handling =>
      .rescue (allAskingFallback body) (allAskingFallback handling)
  | action => action

/-- Some actions, asking for the fallback where they ask for the built-in one. -/
def allAskingFallback : List Action → List Action
  | [] => []
  | action :: rest => action.askingFallback :: allAskingFallback rest

end

section Sparing

variable
  (services : Services)
  (generic : Node → Context → Run Unit)

mutual

/-- What the fallback is does not matter to actions that do not ask for it. -/
theorem run_of_sparing :
    ∀ (action : Action) (scope : Scope),
      action.Throughout SparesFallback →
      action.run { services with generic := generic } scope =
        action.run services scope
  | .generic .., _, spares => spares.elim
  | .choose condition consequence alternative, scope, spares => by
      simp only [run,
        runAll_of_sparing consequence scope spares.2.1,
        runAll_of_sparing alternative scope spares.2.2]
  | .rescue body handling, scope, spares => by
      simp only [run, runAll_of_sparing body scope spares.2.1]
      congr 1
      funext finish
      cases finish.failure with
      | none =>
          rfl
      | some failure =>
          exact runAll_of_sparing handling _ spares.2.2
  | .deliver _, _, _ | .deliverAll _, _, _ | .log _, _, _ | .fail _, _, _
  | .structural .., _, _ | .child .., _, _ | .visit .., _, _
  | .visitUnder .., _, _ | .rebuild .., _, _ | .restart .., _, _ => rfl

/-- So for some actions. -/
theorem runAll_of_sparing :
    ∀ (actions : List Action) (scope : Scope),
      AllThroughout SparesFallback actions →
      runAll { services with generic := generic } scope actions =
        runAll services scope actions
  | [], _, _ => rfl
  | action :: rest, scope, spare => by
      simp only [runAll, run_of_sparing action scope spare.1]
      congr 1
      funext finish
      congr 1
      funext changed
      exact runAll_of_sparing rest changed spare.2

end

end Sparing

section Asking

variable {services : Services}

mutual

/-- Where the fallback is the built-in one, it may be asked for instead. -/
theorem run_askingFallback
    (original : services.generic = services.structural) :
    ∀ (action : Action) (scope : Scope),
      action.askingFallback.run services scope = action.run services scope
  | .structural subject change, scope => by
      simp only [askingFallback, run, original]
  | .choose condition consequence alternative, scope => by
      simp only [askingFallback, run,
        runAll_askingFallback original consequence scope,
        runAll_askingFallback original alternative scope]
  | .rescue body handling, scope => by
      simp only [askingFallback, run, runAll_askingFallback original body scope]
      congr 1
      funext finish
      cases finish.failure with
      | none =>
          rfl
      | some failure =>
          exact runAll_askingFallback original handling _
  | .deliver _, _ | .deliverAll _, _ | .log _, _ | .fail _, _
  | .generic .., _ | .child .., _ | .visit .., _ | .visitUnder .., _
  | .rebuild .., _ | .restart .., _ => rfl

/-- So for some actions. -/
theorem runAll_askingFallback
    (original : services.generic = services.structural) :
    ∀ (actions : List Action) (scope : Scope),
      runAll services scope (allAskingFallback actions) =
        runAll services scope actions
  | [], _ => rfl
  | action :: rest, scope => by
      simp only [allAskingFallback, runAll,
        run_askingFallback original action scope]
      congr 1
      funext finish
      congr 1
      funext changed
      exact runAll_askingFallback original rest changed

end

end Asking

end Action

namespace Handler

/-- A replaced fallback, as a handler in a walker whose fallback is not replaced. -/
def asCatchAll (override : Handler) : Handler where
  eager := override.eager
  actions := Action.allAskingFallback override.actions

/-- What the fallback is does not matter to a handler that does not ask for it. -/
theorem call_of_sparing
    {handler : Handler}
    (spares : handler.Throughout Action.SparesFallback)
    (services : Services)
    (generic : Node → Context → Run Unit)
    (node : Node)
    (context : Context) :
    handler.call { services with generic := generic } node context =
      handler.call services node context := by
  simp only [call, body,
    Action.runAll_of_sparing services generic handler.actions _ spares]

/-- As a catch-all a handler is called to do what it did as the fallback. -/
theorem call_asCatchAll
    {services : Services}
    (original : services.generic = services.structural)
    (handler : Handler)
    (node : Node)
    (context : Context) :
    handler.asCatchAll.call services node context =
      handler.call services node context := by
  simp only [call, body, asCatchAll,
    Action.runAll_askingFallback original handler.actions]

end Handler

namespace HandlerMap

variable (handlers : HandlerMap Handler)

/-- The map that also has a handler under every kind that has none. -/
def withCatchAll (handler : Handler) : HandlerMap Handler :=
  handlers ++ ofKinds fun kind =>
    if (handlers.resolve? kind).isNone then some handler else none

/-- What two maps together have under a type is what the first has, or else the second. -/
theorem handler?_append
    (others : HandlerMap Handler)
    (type : NodeType) :
    handler? (handlers ++ others) type =
      (handlers.handler? type).or (others.handler? type) := by
  simp only [handler?, List.find?_append, Option.map_or]

/-- The catch-all is the handler of the kinds that had none, and of no other. -/
theorem resolve?_withCatchAll
    (handler : Handler)
    (kind : NodeKind) :
    (handlers.withCatchAll handler).resolve? kind =
      (handlers.resolve? kind).or
        (some { type := .exactly kind, handler := handler }) := by
  have underKind :
      (handlers.withCatchAll handler).registration? (.exactly kind) =
        (handlers.registration? (.exactly kind)).or
          (if (handlers.resolve? kind).isNone then
            some { type := .exactly kind, handler := handler }
          else
            none) := by
    simp only [registration?, withCatchAll, handler?_append,
      handler?_ofKinds_exactly, Option.map_or]
    congr 1
    split <;> rfl
  have underFamily :
      (kind.family?.map NodeType.anyOf).bind
          (handlers.withCatchAll handler).registration? =
        (kind.family?.map NodeType.anyOf).bind handlers.registration? := by
    cases kind.family? with
    | none =>
        rfl
    | some family =>
        simp [withCatchAll, handler?_append, registration?]
  rw [resolve?_eq_or, underKind, underFamily, handlers.resolve?_eq_or]
  cases handlers.registration? (.exactly kind) <;>
    cases (kind.family?.map NodeType.anyOf).bind handlers.registration? <;>
    rfl

end HandlerMap

/-- An entry that tells of a catch-all for every node that has no handler. -/
def LogEntry.catchingAll : LogEntry → LogEntry
  | .dispatched kind type attributes =>
      .dispatched kind (some (type.getD (.exactly kind))) attributes
  | .traced kind type => .traced kind (some (type.getD (.exactly kind)))
  | .logged value => .logged value

/-- The second of two runs shows what the first does, of a catch-all for the fallback. -/
abbrev Congruence.catchingAll
    (handlers : HandlerMap Handler)
    (override : Handler) :
    Congruence :=
  .showing handlers (handlers.withCatchAll override.asCatchAll)
    (some ·.catchingAll)

/-- The walker with its fallback replaced by a handler, or not replaced. -/
def Walker.withFallback
    (walker : Walker)
    (fallback : Option Handler) :
    Walker :=
  { walker with fallback := fallback }

/-- The services with the built-in fallback in the place of a replaced one. -/
def Services.original (services : Services) : Services :=
  { services with generic := services.structural }

namespace Walker

section Original

variable
  (services : Services)
  (node : Node)
  (context : Context)

/-- Children are visited without the fallback being asked for. -/
theorem visitChildren_original
    (first : Nat)
    (children : List Node) :
    visitChildren services.original node context first children =
      visitChildren services node context first children := by
  induction children generalizing first with
  | nil =>
      rfl
  | cons child rest inductionHypothesis =>
      rw [visitChildren_cons, visitChildren_cons, inductionHypothesis]
      rfl

/-- So are nodes rebuilt. -/
theorem rebuild_original :
    rebuild services.original node context =
      rebuild services node context := by
  simp only [rebuild, visitChildren_original]

/-- The built-in fallback does not ask for the one in its place. -/
theorem callStructural_original
    (walker : Walker) :
    walker.callStructural services.original node context =
      walker.callStructural services node context := by
  simp only [callStructural, visitChildren_original, rebuild_original]

/-- A walker that is asked to rebuild a node asks for no fallback in its place. -/
theorem callRebuild_original
    (walker : Walker) :
    walker.callRebuild services.original node context =
      walker.callRebuild services node context := by
  simp only [callRebuild, rebuild_original]

end Original

end Walker

section Walks

variable
  {handlers : HandlerMap Handler}
  {override : Handler}
  {services others : Services}
  (related :
    services.original.Related (.catchingAll handlers override) others)

include related

/-- A handler that does not ask for the fallback is called to show the same. -/
theorem Handler.call_catchingAll
    {handler : Handler}
    (spares : handler.Throughout Action.SparesFallback)
    (node : Node)
    (context : Context) :
    Run.ShowsCall handlers (handlers.withCatchAll override.asCatchAll)
      (some ·.catchingAll)
      (handler.call services node context)
      (handler.call others node context) := by
  rw [← call_of_sparing spares services services.structural]
  exact call_shows related (handler.suits (fun _ => rfl) trivial) node
    context

namespace Walker

variable
  (walker : Walker)
  (original : others.generic = others.structural)
  (overrideSpares : override.Throughout Action.SparesFallback)
  (handlersSpare :
    ∀ entry ∈ handlers, entry.2.Throughout Action.SparesFallback)

include original overrideSpares handlersSpare

/-- A node is called to show the same with a catch-all for the replaced fallback. -/
theorem callNode_catchingAll
    (node : Node)
    (context : Context) :
    Run.ShowsCall handlers (handlers.withCatchAll override.asCatchAll)
      (some ·.catchingAll)
      ((walker.withFallback (some override)).callNode services node
        context)
      ((walker.withFallback none).callNode others node context) := by
  have resolves :=
    handlers.resolve?_withCatchAll override.asCatchAll node.kind
  have sameType :
      ((handlers.withCatchAll override.asCatchAll).resolve?
          node.kind).map Registration.type =
        some (((handlers.resolve? node.kind).map
          Registration.type).getD (.exactly node.kind)) := by
    rw [resolves]
    cases handlers.resolve? node.kind <;> rfl
  have sameListener :
      (walker.withFallback (some override)).settings.listener =
        (walker.withFallback none).settings.listener :=
    rfl
  apply callNode_shows sameListener
  · rw [sameType]
    rfl
  · rw [sameType]
    rfl
  · cases found : handlers.resolve? node.kind with
    | none =>
        rw [found, Option.none_or] at resolves
        rw [resolves, callChosen_of_resolved resolves]
        apply callHandler_shows none (some (.exactly node.kind))
        rw [Handler.call_asCatchAll original]
        exact Handler.call_catchingAll related overrideSpares node context
    | some registration =>
        rw [found, Option.some_or] at resolves
        rw [resolves, callChosen_of_resolved found,
          callChosen_of_resolved resolves]
        apply callHandler_shows
        have inMap := HandlerMap.mem_of_resolve? found
        exact Handler.call_catchingAll related (handlersSpare _ inMap)
          node context

end Walker

end Walks

namespace Walker

variable
  (walker : Walker)
  {handlers : HandlerMap Handler}
  {override : Handler}
  (overrideSpares : override.Throughout Action.SparesFallback)
  (handlersSpare :
    ∀ entry ∈ handlers, entry.2.Throughout Action.SparesFallback)

include overrideSpares handlersSpare

/-- With the same recursion all services show the same, but for the replaced fallback. -/
theorem services_catchingAll
    (bound : Nat) :
    ((walker.withFallback (some override)).services bound).original.Related
      (.catchingAll handlers override)
      ((walker.withFallback none).services bound) := by
  induction bound with
  | zero =>
      exact
        { descend := fun _ _ _ => rfl
          visitNode := fun _ _ => rfl
          generic := fun _ _ => rfl
          structural := fun _ _ => rfl
          rebuild := fun _ _ => rfl
          restart := fun _ _ => rfl }
  | succ bound related =>
      let left := walker.withFallback (some override)
      let right := walker.withFallback none
      have isOriginal :
          ∀ bound,
            (right.services bound).generic =
              (right.services bound).structural :=
        right.generic_eq_structural rfl
      have sameMode : left.mode = right.mode := rfl
      have visits :
          ∀ node context,
            (Congruence.catchingAll handlers override).relates
              (left.visitNode (left.services bound) node context)
              (right.visitNode (right.services bound) node context) := by
        intro node context
        exact visitNode_shows sameMode
          (callNode_catchingAll related walker (isOriginal bound)
            overrideSpares handlersSpare node context)
      have structural :
          ∀ node context,
            (Congruence.catchingAll handlers override).relates
              ((left.services (bound + 1)).structural node context)
              ((right.services (bound + 1)).structural node context) := by
        intro node context
        have calls :=
          callStructural_relates related sameMode node context
        rw [left.callStructural_original] at calls
        exact calls
      exact
        { descend := fun _ _ _ => rfl
          visitNode := visits
          generic := by
            rw [isOriginal (bound + 1)]
            exact structural
          structural := structural
          rebuild := fun node context => by
            have rebuilds :=
              callRebuild_relates related sameMode node context
            rw [left.callRebuild_original] at rebuilds
            exact rebuilds
          restart := fun tree keys =>
            traverse_relates sameMode (visits tree _) }

end Walker

namespace Session

/--
A replaced fallback is a catch-all handler. With its handler registered for every kind
that has no other, a walker whose fallback is not replaced gives the same answers to all
that a caller does who never asks for the fallback itself, as long as no handler asks for
it either; in their logs the catch-all's nodes are told of under their kinds.
-/
theorem replaced_fallback_is_catch_all
    (walker : Walker)
    {handlers : HandlerMap Handler}
    {override : Handler}
    (overrideSpares : override.Throughout Action.SparesFallback)
    (handlersSpare :
      ∀ entry ∈ handlers, entry.2.Throughout Action.SparesFallback)
    (bound : Nat)
    {steps : List Step}
    (unasked : ∀ step ∈ steps, step.asksFallback = false) :
    (create (walker.withFallback none)
        (handlers.withCatchAll override.asCatchAll)).answers bound steps =
      ((create (walker.withFallback (some override)) handlers).answers bound
        steps).map (Answer.retell (some ·.catchingAll)) := by
  let left := walker.withFallback (some override)
  let right := walker.withFallback none
  have related :=
    walker.services_catchingAll overrideSpares handlersSpare bound
  have sameMode : left.mode = right.mode := rfl
  have shown :
      left.ShownBy handlers (handlers.withCatchAll override.asCatchAll)
        (some ·.catchingAll) False bound right :=
    { mode_eq := sameMode
      root := fun _ => rfl
      descend := fun _ _ _ => rfl
      visitNode := related.visitNode
      rebuild := related.rebuild
      restart := related.restart
      openNode := fun node context =>
        Walker.openNode_shows sameMode
          (Walker.callNode_catchingAll related walker
            (right.generic_eq_structural rfl bound) overrideSpares
            handlersSpare node context)
      generic := False.elim
      callGeneric := False.elim }
  apply (ShownBy.create left right).answers shown
  intro step member asks
  rw [unasked step member] at asks
  cases asks

/-- Terms give themselves with a mark. -/
def markedTerms : HandlerMap Handler :=
  [(.anyOf .term,
    { eager := false, actions := [.deliver (.append "!" .node)] })]

/-- A fallback that logs the kind of a node and goes on to the built-in one. -/
def loggingKinds : Handler where
  eager := true
  actions := [.log .kind, .structural .node ⟨[], [], none⟩]

/-- A transformer that tells of every node. -/
def tellingTransformer : Walker where
  mode := .transformer
  settings :=
    { trackParents := true
      trackNewParents := false
      trackPaths := true
      maxDepth := 1
      maxDepth_pos := Nat.one_pos
      listener := .logging none }
  fallback := none

/-- A query is transformed, what it gives is asked for, and another query is too deep. -/
theorem replaced_fallback_is_catch_all_markedTerms :
    let query := Query.and [Query.word "a", Query.phrase "b"]
    let steps : List Step :=
      [.traverse query [],
        .visitNode query (.root tellingTransformer.settings []),
        .traverse (Query.group query) []]
    loggingKinds.Throughout Action.SparesFallback ∧
    (∀ entry ∈ markedTerms, entry.2.Throughout Action.SparesFallback) ∧
    (∀ step ∈ steps, step.asksFallback = false) ∧
    (create (tellingTransformer.withFallback none)
        (markedTerms.withCatchAll loggingKinds.asCatchAll)).answers 9
        steps =
      ((create (tellingTransformer.withFallback (some loggingKinds))
        markedTerms).answers 9 steps).map
          (Answer.retell (some ·.catchingAll)) := by
  intro query steps
  have overrideSpares : loggingKinds.Throughout Action.SparesFallback :=
    ⟨trivial, trivial, trivial⟩
  have handlersSpare :
      ∀ entry ∈ markedTerms, entry.2.Throughout Action.SparesFallback := by
    intro entry member
    cases List.mem_singleton.mp member
    exact ⟨trivial, trivial⟩
  have unasked : ∀ step ∈ steps, step.asksFallback = false := by
    simp [steps, Step.asksFallback]
  exact
    ⟨overrideSpares, handlersSpare, unasked,
      replaced_fallback_is_catch_all tellingTransformer overrideSpares
        handlersSpare 9 unasked⟩

end Session

end QueryWalk
