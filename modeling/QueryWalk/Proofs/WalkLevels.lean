import QueryWalk.Proofs.ContextDepth
import QueryWalk.Proofs.ContextMoves
import QueryWalk.Proofs.SelfLikeness

namespace QueryWalk

/-!
# Levels of a walk

The level of a context is the number of descents by which it was made from the root of
the innermost traversal. If no handler replaces the position, the depth of every context
in circulation is its level, whatever handlers do with it otherwise, and no walk goes
below the limit: the context of a child is refused exactly at the limit, before anybody
is called for the child, and no walk fails for being too deep in any other place.
-/

namespace Move

/-- The level after a move. A new traversal begins at its own root. -/
def level (former : Nat) : Move → Nat
  | .changed .. => former
  | .descended .. => former + 1
  | .restarted _ => 0

/-- The level after some moves from the root of a traversal. -/
def levels (moves : List Move) : Nat :=
  moves.foldl level 0

/-- A move that leaves the position to the walk. -/
def KeepsPosition : Move → Prop
  | .changed _ change => change.position = none
  | .descended .. | .restarted _ => True

end Move

namespace Context

/-- A context is at a level that a walk goes down to. -/
structure IsAtLevel
    (settings : Settings)
    (level : Nat)
    (context : Context) : Prop where
  isAtDepth : context.IsAtDepth level
  admits : settings.Admits level

namespace IsAtLevel

variable
  {settings : Settings}
  {level : Nat}
  {context after : Context}

/-- The root of a traversal is at level zero. -/
theorem root
    (settings : Settings)
    (keys : Fields Value) :
    (Context.root settings keys).IsAtLevel settings 0 where
  isAtDepth := .root settings keys
  admits := .inl (Nat.zero_le _)

/-- A context that is changed otherwise stays at its level. -/
theorem of_position_eq
    (isAt : context.IsAtLevel settings level)
    (same : after.position = context.position) :
    after.IsAtLevel settings level where
  isAtDepth := by
    simp only [IsAtDepth, same]
    exact isAt.isAtDepth
  admits := isAt.admits

/-- The context of a child is made only where the walk goes one level down. -/
theorem admits_of_descend
    {parent : Node}
    {index : Number}
    (isAt : context.IsAtLevel settings level)
    (descended : context.descend settings parent index = .ok after) :
    settings.Admits (level + 1) := by
  by_contra tooDeep
  rw [isAt.isAtDepth.descend_error tooDeep] at descended
  cases descended

/-- The context of a child is one level down. -/
theorem descend
    {parent : Node}
    {index : Number}
    (isAt : context.IsAtLevel settings level)
    (descended : context.descend settings parent index = .ok after) :
    after.IsAtLevel settings (level + 1) := by
  exact
    ⟨isAt.isAtDepth.of_descend descended,
      isAt.admits_of_descend descended⟩

/-- The context of a child is too deep at the limit only, and for the limit. -/
theorem eq_of_tooDeep
    {parent : Node}
    {index number : Number}
    (isAt : context.IsAtLevel settings level)
    (refused :
      context.descend settings parent index =
        .error (.traversalDepth number)) :
    level = settings.maxDepth ∧ number = .ofNat settings.maxDepth := by
  obtain ⟨exceeds, ⟨⟩⟩ | ⟨chain, -, ⟨⟩⟩ := failure_of_descend refused
  have tooDeep : ¬ settings.Admits (level + 1) := by
    simpa [isAt.isAtDepth.exceeds] using exceeds
  have admits := isAt.admits
  simp only [Settings.Admits] at admits tooDeep
  exact ⟨by omega, rfl⟩

/-- As far as numbers count one by one, depths are levels within the limit. -/
theorem depth_eq
    (isAt : context.IsAtLevel settings level)
    (counted : level < Number.exactLimit) :
    context.position.depth = .ofNat level ∧ level ≤ settings.maxDepth := by
  have isDepth := isAt.isAtDepth
  have admits := isAt.admits
  simp only [IsAtDepth, Nat.min_eq_left (Nat.le_of_lt counted)] at isDepth
  simp only [Settings.Admits] at admits
  exact ⟨isDepth, by omega⟩

/-- A move that leaves the position to the walk leads to the level after it. -/
theorem takes
    {move : Move}
    (isAt : context.IsAtLevel settings level)
    (keeps : move.KeepsPosition)
    (takes : move.Takes settings context after) :
    after.IsAtLevel settings (move.level level) := by
  cases takes with
  | @changed scope change _ applied =>
      have noPosition : change.position = none := keeps
      apply isAt.of_position_eq
      rw [Change.position_apply applied, noPosition]
      rfl
  | descended made =>
      exact isAt.descend made
  | @restarted keys =>
      exact .root settings keys

/-- Some such moves lead to the level after them. -/
theorem takeAll
    {moves : List Move}
    (isAt : context.IsAtLevel settings level)
    (keep : ∀ move ∈ moves, move.KeepsPosition)
    (takeAll : Move.TakeAll settings context moves after) :
    after.IsAtLevel settings (moves.foldl Move.level level) := by
  induction moves generalizing context level with
  | nil =>
      cases takeAll
      exact isAt
  | cons move rest inductionHypothesis =>
      obtain ⟨between, takes, onward⟩ := takeAll
      have between :=
        isAt.takes (keep move List.mem_cons_self) takes
      exact inductionHypothesis between
        (fun later member =>
          keep later (List.mem_cons_of_mem move member))
        onward

end IsAtLevel

end Context

section Throughout

variable
  {property : Action → Prop}
  {node : Node}
  {context : Context}

/-- A property that holds throughout an action holds of the action. -/
theorem Action.Throughout.self
    {action : Action}
    (throughout : action.Throughout property) :
    property action := by
  cases action with
  | choose | rescue =>
      exact throughout.1
  | _ =>
      exact throughout

/-- A property that holds throughout some actions holds throughout each. -/
theorem Action.AllThroughout.of_mem
    {action : Action}
    {actions : List Action}
    (throughout : AllThroughout property actions)
    (member : action ∈ actions) :
    action.Throughout property := by
  induction actions with
  | nil =>
      cases member
  | cons first rest inductionHypothesis =>
      rcases List.mem_cons.mp member with isFirst | inRest
      · subst isFirst
        exact throughout.1
      · exact inductionHypothesis throughout.2 inRest

/-- A property that holds throughout an action holds throughout what is within it. -/
theorem Action.Within.throughout
    {inner action : Action}
    (within : inner.Within node context action)
    (throughout : action.Throughout property) :
    inner.Throughout property := by
  induction within with
  | itself =>
      exact throughout
  | consequence _ _ member _ inductionHypothesis =>
      exact inductionHypothesis (throughout.2.1.of_mem member)
  | alternative _ _ member _ inductionHypothesis =>
      exact inductionHypothesis (throughout.2.2.of_mem member)
  | body member _ inductionHypothesis =>
      exact inductionHypothesis (throughout.2.1.of_mem member)
  | handling member _ inductionHypothesis =>
      exact inductionHypothesis (throughout.2.2.of_mem member)

end Throughout

namespace Action

/-- An action leaves the position to the walk, whatever else it changes for its call. -/
def KeepsPosition (action : Action) : Prop :=
  ∀ change, action.change? = some change → change.position = none

variable
  {settings : Settings}
  {node : Node}
  {context : Context}
  {action : Action}

/-- The context with which an action calls back is changed by the action. -/
theorem change?_of_callback?
    {service : Service}
    {subject : Expression}
    {change : Change}
    (calls : action.callback? = some (service, subject, change)) :
    action.change? = some change := by
  cases action with
  | generic | structural | visit | rebuild =>
      cases calls
      rfl
  | _ =>
      cases calls

/-- The context below which an action asks for another is changed by the action. -/
theorem change?_of_derivation?
    {upper : Expression}
    {index : Number}
    {change : Change}
    (derivation : action.derivation? = some (upper, index, change)) :
    action.change? = some change := by
  cases action with
  | child | visitUnder =>
      cases derivation
      rfl
  | _ =>
      cases derivation

/-- The moves before a call leave the position to the walk if the action does. -/
theorem Makes.keepPosition
    {moves : List Move}
    {call : Call}
    (makes : action.Makes settings node context moves call)
    (keeps : action.Throughout KeepsPosition) :
    ∀ move ∈ moves, move.KeepsPosition := by
  induction makes with
  | callback _ calls _ _ =>
      intro move member
      cases List.mem_singleton.mp member
      exact keeps.self _ (change?_of_callback? calls)
  | child | visitUnder =>
      intro move member
      rcases List.mem_pair.mp member with isChange | isDescent
      · cases isChange
        exact keeps.self _ rfl
      · cases isDescent
        trivial
  | restart =>
      intro move member
      cases List.mem_singleton.mp member
      trivial
  | consequence _ _ member _ inductionHypothesis =>
      exact inductionHypothesis (keeps.2.1.of_mem member)
  | alternative _ _ member _ inductionHypothesis =>
      exact inductionHypothesis (keeps.2.2.of_mem member)
  | body member _ inductionHypothesis =>
      exact inductionHypothesis (keeps.2.1.of_mem member)
  | handling member _ inductionHypothesis =>
      exact inductionHypothesis (keeps.2.2.of_mem member)

/-- A child's context is asked for where the handler of the action is. -/
theorem Derives.position_eq
    {above : Context}
    {parent : Node}
    {index : Number}
    (derives : action.Derives node context above parent index)
    (keeps : action.Throughout KeepsPosition) :
    above.position = context.position := by
  cases derives with
  | asks within isAt derivation _ applied =>
      have noPosition :=
        (within.throughout keeps).self _
          (change?_of_derivation? derivation)
      rw [Change.position_apply applied, noPosition, isAt.context_eq]
      rfl

end Action

namespace Walker

variable
  {walker : Walker}
  {handlers : HandlerMap Handler}

/-- A handler that a walk invokes is one that it employs. -/
theorem Invokes.employs
    {call : Call}
    {type : Option NodeType}
    {handler : Handler}
    (invokes : walker.Invokes handlers call type handler) :
    walker.Employs handlers handler := by
  cases invokes with
  | resolved found =>
      exact .inl ⟨_, HandlerMap.mem_of_resolve? found⟩
  | replaced given =>
      exact .inr given

/--
From a context at a level a walk goes down to a child unless the level is the limit. At
the limit it fails with nobody called for the child. Above the limit it does so too where
a chain that it keeps track of is in the way, but not for being too deep.
-/
structure GoesDownTo
    (walker : Walker)
    (limit level : Nat)
    (above : Context)
    (parent : Node)
    (index : Number) : Prop where
  refused :
    level = limit →
    ∀ bound child,
      (walker.services bound).visitBelow parent index child above =
        .failed (.traversalDepth (.ofNat limit))
  stuck :
    level < limit →
    ∀ chain,
      Chain.stuck? walker.settings above.keys = some chain →
      ∀ bound child,
        (walker.services bound).visitBelow parent index child above =
          .failed (.notIterable chain.key)
  made :
    level < limit →
    above.IsIterable walker.settings →
    ∃ below,
      below.position.depth = .ofNat (level + 1) ∧
        ∀ bound child,
          (walker.services bound).visitBelow parent index child above =
            (walker.services bound).visitNode child below

/-- A walk goes down from every level within its limit, as far as numbers count. -/
theorem GoesDownTo.of_isAtLevel
    {level : Nat}
    {above : Context}
    {parent : Node}
    {index : Number}
    (isAt : above.IsAtLevel walker.settings level)
    (counted : level < Number.exactLimit) :
    walker.GoesDownTo walker.settings.maxDepth level above parent
      index where
  refused := by
    intro atLimit bound child
    have tooDeep : ¬ walker.settings.Admits (level + 1) := by
      simp only [Settings.Admits]
      omega
    rw [Services.visitBelow, settings_services,
      isAt.isAtDepth.descend_error tooDeep]
    rfl
  stuck := by
    intro within chain stuck bound child
    rw [Services.visitBelow, settings_services,
      isAt.isAtDepth.descend_stuck (.inl within) stuck]
    rfl
  made := by
    intro within iterable
    have admits : walker.settings.Admits (level + 1) := .inl within
    have isBelow := isAt.isAtDepth.child walker.settings parent index
    rw [Context.IsAtDepth, Nat.min_eq_left counted] at isBelow
    refine ⟨_, isBelow, ?_⟩
    intro bound child
    rw [Services.visitBelow, settings_services,
      isAt.isAtDepth.descend admits iterable]
    rfl

/--
On a route that goes on from a call after some moves, the context of a child is asked for
at the limit.
-/
def Overruns
    (walker : Walker)
    (handlers : HandlerMap Handler)
    (moves : List Move)
    (call : Call) :
    Prop :=
  ∃ further next above parent index,
    walker.Route handlers call further next ∧
      walker.Derives handlers next above parent index ∧
      Move.levels (moves ++ further) = walker.settings.maxDepth

/-- A rescue in a handler called by a call has a failure to handle. -/
inductive Catches
    (walker : Walker)
    (handlers : HandlerMap Handler) :
    Call → Failure → Prop where
  | rescue
      {call : Call}
      {type : Option NodeType}
      {handler : Handler}
      {action : Action}
      {body handling : List Action}
      {scope : Scope}
      {bound : Nat}
      {finish : Finish}
      {failure : Failure}
      (invokes : walker.Invokes handlers call type handler)
      (member : action ∈ handler.actions)
      (within :
        (Action.rescue body handling).Within call.node call.context action)
      (isAt : scope.IsAt call.node call.context)
      (finished :
        ((Action.runAll (walker.services bound) scope body).trace
          handlers).ending = .finished finish)
      (failed : finish.failure = some failure) :
      Catches walker handlers call failure

/-- What an invariant promises of failures is promised of what a rescue handles. -/
theorem Catches.promised
    {permitted : Call → Prop}
    {promise : Promise}
    {call : Call}
    {failure : Failure}
    (catches : walker.Catches handlers call failure)
    (invariant : CallInvariant walker handlers permitted promise)
    (permits : permitted call) :
    promise.failure failure := by
  cases catches with
  | @rescue _ _ _ body _ scope bound finish _
      invokes member within isAt finished failed =>
      have follow := services_follow invariant bound
      have allowed := invariant.permits_action permits invokes member
      rw [← settings_services walker bound] at allowed
      have ensures :=
        (Action.runAll_ensures follow invariant.logged body isAt
          fun inner isInner =>
            (allowed.within within).within
              (.body isInner .itself)).of_ending
      rw [finished] at ensures
      exact ensures.failure failure failed

/-- For a failure that a rescue handles, a route leads on to where it is too deep. -/
theorem Catches.blames
    {call : Call}
    {failure : Failure}
    (catches : walker.Catches handlers call failure) :
    walker.Blames handlers call failure :=
  catches.promised (routeInvariant walker handlers call) ⟨[], .here⟩

section Keeps

variable
  (keeps :
    ∀ handler,
      walker.Employs handlers handler →
      handler.Throughout Action.KeepsPosition)

include keeps

/-- The moves between two calls leave the position to the walk. -/
theorem Leads.keepPosition
    {call next : Call}
    {moves : List Move}
    (leads : walker.Leads handlers call moves next) :
    ∀ move ∈ moves, move.KeepsPosition := by
  cases leads with
  | byHandler invokes makes =>
      obtain ⟨action, member, byAction⟩ := makes
      have throughout := keeps _ invokes.employs
      exact byAction.keepPosition (throughout.of_mem member)
  | toFallback | toStructural | toRoot =>
      exact fun _ member => nomatch member
  | toChild =>
      intro move member
      cases List.mem_singleton.mp member
      trivial

/-- From the start of a traversal a route leads to the level after its moves. -/
theorem Route.isAtLevel
    {tree : Node}
    {keys : Fields Value}
    {moves : List Move}
    {call : Call}
    (route :
      walker.Route handlers (.traversal walker.settings tree keys) moves
        call) :
    call.context.IsAtLevel walker.settings (Move.levels moves) := by
  induction route with
  | here =>
      exact .root walker.settings keys
  | onward _ leads inductionHypothesis =>
      simp only [Move.levels, List.foldl_append]
      exact inductionHypothesis.takeAll (leads.keepPosition keeps)
        leads.takeAll

/-- A child's context is asked for at the level of the call. -/
theorem Derives.isAtLevel
    {level : Nat}
    {call : Call}
    {above : Context}
    {parent : Node}
    {index : Number}
    (derives : walker.Derives handlers call above parent index)
    (isAt : call.context.IsAtLevel walker.settings level) :
    above.IsAtLevel walker.settings level := by
  cases derives with
  | byHandler invokes derives =>
      obtain ⟨action, member, byAction⟩ := derives
      have throughout := keeps _ invokes.employs
      exact isAt.of_position_eq
        (byAction.position_eq (throughout.of_mem member))
  | byEngine =>
      exact isAt

/-- At a call some moves from the root of its traversal the context is at their level. -/
theorem Route.depth_eq
    {tree : Node}
    {keys : Fields Value}
    {moves : List Move}
    {call : Call}
    (route :
      walker.Route handlers (.traversal walker.settings tree keys) moves
        call)
    (counted : Move.levels moves < Number.exactLimit) :
    call.context.position.depth = .ofNat (Move.levels moves) ∧
      Move.levels moves ≤ walker.settings.maxDepth :=
  (route.isAtLevel keeps).depth_eq counted

/--
A walk is blamed for being too deep only where the context of a child is asked for at the
limit, and then for the limit.
-/
theorem Blames.overruns
    {tree : Node}
    {keys : Fields Value}
    {moves : List Move}
    {call : Call}
    {number : Number}
    (route :
      walker.Route handlers (.traversal walker.settings tree keys) moves
        call)
    (blames : walker.Blames handlers call (.traversalDepth number)) :
    number = .ofNat walker.settings.maxDepth ∧
      walker.Overruns handlers moves call := by
  obtain ⟨further, next, above, parent, index, onward, derives, refused⟩ :=
    blames number rfl
  have isAtNext := (route.trans onward).isAtLevel keeps
  have isAt := derives.isAtLevel keeps isAtNext
  obtain ⟨atLimit, rfl⟩ := isAt.eq_of_tooDeep refused
  exact ⟨rfl, further, next, above, parent, index, onward, derives,
    atLimit⟩

end Keeps

section Limit

variable
  {tree : Node}
  {keys : Fields Value}

end Limit

/-- A visitor that goes one level down and tells of every choice of a handler. -/
def diving : Walker where
  mode := .visitor
  settings :=
    { trackParents := false
      trackNewParents := false
      trackPaths := true
      maxDepth := 1
      maxDepth_pos := Nat.one_pos
      listener := .logging none }
  fallback := none

/-- Groups are gone into as if what is in them were their eighth child. -/
def intoGroups : HandlerMap Handler :=
  [(.exactly (.group .plain),
      { eager := true
        actions :=
          [.child (.ofNat 0) (.ofNat 7)
            { assigned := [("above", .kind)]
              removed := []
              position := none }] })]

/-- Groups in one another around a word. -/
def threeGroups : Node :=
  Query.group (Query.group (Query.group (Query.word "a")))

/-- The call for the group in the outermost one. -/
def visitSecondGroup : Call where
  service := .visitNode
  node := Query.group (Query.group (Query.word "a"))
  context :=
    { keys := [("above", .text "group")]
      position := { depth := .ofNat 1, path := some [.ofNat 7] } }

/-- The moves from the root to that group. -/
def movesToSecondGroup : List Move :=
  [.changed
      (.start threeGroups (.root diving.settings []))
      { assigned := [("above", .kind)]
        removed := []
        position := none },
    .descended threeGroups (.ofNat 7)]

/-- They are those of a route. -/
theorem route_visitSecondGroup :
    diving.Route intoGroups
      (.traversal diving.settings threeGroups [])
      movesToSecondGroup visitSecondGroup := by
  have atRoot :
      diving.Route intoGroups
        (.traversal diving.settings threeGroups []) []
        { service := .visitNode
          node := threeGroups
          context := .root diving.settings [] } :=
    Route.here.onward .toRoot
  apply atRoot.onward
  exact .byHandler (.resolved rfl)
    ⟨_, List.mem_singleton_self _, .child ⟨rfl, rfl⟩ rfl rfl⟩

end Walker

end QueryWalk
