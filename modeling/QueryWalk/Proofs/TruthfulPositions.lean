import QueryWalk.Proofs.ContextDepth
import QueryWalk.Proofs.ContextMoves
import QueryWalk.Proofs.HandlerInvocation
import QueryWalk.Proofs.TreeAddresses

namespace QueryWalk

/-!
# Truthful positions

A context tells the truth about a node of a tree when its position and its
chains are those of an address of that node. The root context does, making the
context of a child keeps it so, and a handler may change whatever else it likes.
So where handlers go on only from their own node, every handler is told the
truth.
-/

namespace Change

/-- A change that leaves the position and the chains alone. -/
structure KeepsPlace (change : Change) : Prop where
  position : change.position = none
  assigned :
    ∀ (chain : Chain), ∀ entry ∈ change.assigned, entry.1 ≠ chain.key
  removed : ∀ chain : Chain, chain.key ∉ change.removed

/-- A change that keeps the place has no effect on the chains. -/
theorem KeepsPlace.effect_chain
    {change : Change}
    (keeps : change.KeepsPlace)
    (scope : Scope)
    (chain : Chain)
    (former : Option Value) :
    change.effect scope chain.key former = former := by
  rw [effect, if_neg (keeps.removed chain)]
  have noneAssigned := keeps.assigned chain
  generalize change.assigned = assigned at noneAssigned
  induction assigned with
  | nil =>
      rfl
  | cons entry rest inductionHypothesis =>
      rw [List.foldl_cons,
        if_neg (noneAssigned entry List.mem_cons_self)]
      exact inductionHypothesis fun later member =>
        noneAssigned later (List.mem_cons_of_mem entry member)

variable
  {change : Change}
  {scope : Scope}
  {after : Context}

/-- A change that keeps the place leaves the position as it is. -/
theorem KeepsPlace.position_apply
    (keeps : change.KeepsPlace)
    (applied : change.apply scope = .ok after) :
    after.position = scope.context.position := by
  rw [Change.position_apply applied, keeps.position]
  rfl

/-- A change that keeps the place leaves the chains as they are. -/
theorem KeepsPlace.get?_chain
    (keeps : change.KeepsPlace)
    (applied : change.apply scope = .ok after)
    (chain : Chain) :
    after.keys.get? chain.key = scope.context.keys.get? chain.key := by
  rw [Change.get?_apply applied, keeps.effect_chain]

end Change

namespace Context

/--
A context tells the truth about a node of a tree, for a traversal that began
with the caller's keys: the node is at an address, and position and chains are
those of that address. A chain that is tracked goes on from what the caller's can be
spread into. Depths are exact as far as numbers count one by one.
-/
structure Truthful
    (settings : Settings)
    (tree : Node)
    (keys : Fields Value)
    (address : List Nat)
    (node : Node)
    (context : Context) : Prop where
  isThere : tree.at? address = some node
  depth :
    context.position.depth =
      .ofNat (min address.length Number.exactLimit)
  path :
    ∃ indices : List Number,
      indices.map Number.toIndex? = address.map some ∧
        context.position.path =
          if settings.trackPaths then some indices else none
  tracked :
    ∀ chain : Chain,
      chain.isTracked settings = true →
      address ≠ [] →
      ∃ former,
        chain.former? keys = some former ∧
          context.keys.get? chain.key =
            some (.list (former ++ (tree.above address).map .node))
  untouched :
    ∀ chain : Chain,
      chain.isTracked settings = false ∨ address = [] →
      context.keys.get? chain.key = keys.get? chain.key

namespace Truthful

variable
  {settings : Settings}
  {tree node child : Node}
  {keys : Fields Value}
  {address : List Nat}
  {context below : Context}

/-- The root context tells the truth about the root. -/
theorem root
    (settings : Settings)
    (tree : Node)
    (keys : Fields Value) :
    (Context.root settings keys).Truthful settings tree keys [] tree where
  isThere := rfl
  depth := rfl
  path := ⟨[], rfl, rfl⟩
  tracked _ _ nonempty := (nonempty rfl).elim
  untouched _ _ := rfl

/-- Changing anything but position and chains leaves a context truthful. -/
theorem changed
    {scope : Scope}
    {change : Change}
    {after : Context}
    (truthful : context.Truthful settings tree keys address node)
    (inScope : scope.context = context)
    (keeps : change.KeepsPlace)
    (applied : change.apply scope = .ok after) :
    after.Truthful settings tree keys address node := by
  subst inScope
  have samePosition := keeps.position_apply applied
  have sameChain := keeps.get?_chain applied
  refine ⟨truthful.isThere, ?_, ?_, ?_, ?_⟩
  · rw [samePosition]
    exact truthful.depth
  · rw [samePosition]
    exact truthful.path
  · intro chain isTracked nonempty
    rw [sameChain]
    exact truthful.tracked chain isTracked nonempty
  · intro chain free
    rw [sameChain]
    exact truthful.untouched chain free

/-- What the chain of a truthful context holds, whether or not its node is the root. -/
theorem former?_eq
    (truthful : context.Truthful settings tree keys address node)
    {chain : Chain}
    (isTracked : chain.isTracked settings = true) :
    chain.former? context.keys =
      (chain.former? keys).map fun former =>
        former ++ (tree.above address).map .node := by
  by_cases atRoot : address = []
  · subst atRoot
    rw [Chain.former?_congr (truthful.untouched chain (.inr rfl))]
    simp
  · obtain ⟨former, holds, isExtended⟩ :=
      truthful.tracked chain isTracked atRoot
    rw [Chain.former?_of_list isExtended, holds]
    rfl

/-- From a truthful context the chains can be extended if from the root's they can. -/
theorem isIterable
    (truthful : context.Truthful settings tree keys address node)
    (iterable : Chain.AreIterable settings keys) :
    context.IsIterable settings := by
  rw [IsIterable, Chain.areIterable_iff]
  rw [Chain.areIterable_iff] at iterable
  intro chain isTracked
  obtain ⟨former, holds⟩ := iterable chain isTracked
  rw [truthful.former?_eq isTracked, holds]
  exact ⟨_, rfl⟩

/-- The context made for a child tells the truth about it. -/
theorem descend
    {index : Number}
    {place : Nat}
    (truthful : context.Truthful settings tree keys address node)
    (denotes : index.toIndex? = some place)
    (isChild : node.children[place]? = some child)
    (descended : context.descend settings node index = .ok below) :
    below.Truthful settings tree keys (address ++ [place]) child := by
  have position := Context.position_of_descend descended
  refine ⟨?_, ?_, ?_, ?_, ?_⟩
  · exact Node.at?_append_singleton truthful.isThere isChild
  · rw [position, List.length_append, List.length_singleton,
      ← Number.plusOne_ofNat_min, ← truthful.depth]
    rfl
  · obtain ⟨indices, denote, samePath⟩ := truthful.path
    refine ⟨indices ++ [index], ?_, ?_⟩
    · simp [denote, denotes]
    · rw [position, Position.child, samePath]
      by_cases tracks : settings.trackPaths = true <;> simp [tracks]
  · intro chain isTracked _
    obtain ⟨former, holds, isExtended⟩ :=
      Context.exists_former_of_descend descended isTracked
    rw [truthful.former?_eq isTracked, Option.map_eq_some_iff] at holds
    obtain ⟨first, holdsFirst, rfl⟩ := holds
    refine ⟨first, holdsFirst, ?_⟩
    rw [isExtended, Node.above_append_singleton truthful.isThere place,
      List.map_append, List.append_assoc]
    rfl
  · intro chain free
    have notTracked : chain.isTracked settings = false := by
      rcases free with notTracked | atRoot
      · exact notTracked
      · simp at atRoot
    rw [Context.get?_chain_of_descend descended notTracked]
    exact truthful.untouched chain (.inl notTracked)

end Truthful

end Context

namespace Call

/--
A call that a handler makes for its own node, its context changed but in its
place, or for one of its children, in the context made for that child.
-/
inductive OwnOf (node : Node) : List Move → Call → Prop where
  | itself
      {service : Service}
      {scope : Scope}
      {change : Change}
      {context : Context}
      (goesOn :
        service = .generic ∨ service = .structural ∨ service = .rebuild)
      (keeps : change.KeepsPlace) :
      OwnOf node
        [.changed scope change]
        { service := service, node := node, context := context }
  | child
      {child : Node}
      {scope : Scope}
      {change : Change}
      {index : Number}
      {place : Nat}
      {context : Context}
      (keeps : change.KeepsPlace)
      (denotes : index.toIndex? = some place)
      (isChild : node.children[place]? = some child) :
      OwnOf node
        [.changed scope change, .descended node index]
        { service := .visitNode, node := child, context := context }

end Call

namespace Call.OwnOf

/-- A handler's own call from a truthful context is made in a truthful one. -/
theorem truthful
    {settings : Settings}
    {tree node : Node}
    {keys : Fields Value}
    {address : List Nat}
    {context : Context}
    {moves : List Move}
    {next : Call}
    (own : next.OwnOf node moves)
    (truthful : context.Truthful settings tree keys address node)
    (take : Move.TakeAll settings context moves next.context) :
    ∃ further,
      next.context.Truthful settings tree keys further next.node := by
  cases own with
  | itself _ keeps =>
      obtain ⟨_, takes, rfl⟩ := take
      cases takes with
      | changed applied =>
          exact ⟨address, truthful.changed rfl keeps applied⟩
  | @child child scope change index place _ keeps denotes isChild =>
      obtain ⟨above, takes, below, takesOn, rfl⟩ := take
      cases takes with
      | changed applied =>
          have stillTruthful := truthful.changed rfl keeps applied
          cases takesOn with
          | descended descended =>
              exact ⟨address ++ [place],
                stillTruthful.descend denotes isChild descended⟩

end Call.OwnOf

namespace Walker

/-- The handlers called from a first call on make calls of their own only. -/
def OnlyDescends
    (walker : Walker)
    (handlers : HandlerMap Handler)
    (first : Call) :
    Prop :=
  ∀ ⦃route call type handler moves next⦄,
    walker.Route handlers first route call →
    walker.Invokes handlers call type handler →
    handler.Makes walker.settings call.node call.context moves next →
    next.OwnOf call.node moves

variable
  {walker : Walker}
  {handlers : HandlerMap Handler}

/--
On a route from the start of a traversal whose handlers go on from their own
nodes only, every context tells the truth about the node it goes with.
-/
theorem Route.truthful
    {tree : Node}
    {keys : Fields Value}
    {moves : List Move}
    {call : Call}
    (descends :
      walker.OnlyDescends handlers (.traversal walker.settings tree keys))
    (route :
      walker.Route handlers (.traversal walker.settings tree keys)
        moves call) :
    ∃ address,
      call.context.Truthful walker.settings tree keys address
        call.node := by
  induction route with
  | here =>
      exact ⟨[], .root walker.settings tree keys⟩
  | onward route leads inductionHypothesis =>
      obtain ⟨address, truthful⟩ := inductionHypothesis
      cases leads with
      | byHandler invokes makes =>
          -- Only a handler could lead astray; the walk's own calls cannot.
          exact (descends route invokes makes).truthful truthful
            (Leads.byHandler invokes makes).takeAll
      | toFallback | toStructural | toRoot =>
          exact ⟨address, truthful⟩
      | toChild _ isChild descended =>
          exact ⟨_,
            truthful.descend (Number.toIndex?_ofNat _) isChild descended⟩

/--
Positions are truthful. Where the handlers of a traversal go on from their own
nodes only, a handler is called at a node of the tree that is told about it
truthfully, and all keys but those of the tracked chains are what the changes on
the way have made of the caller's.
-/
theorem positions_truthful
    {bound : Nat}
    {tree node : Node}
    {keys : Fields Value}
    {type : Option NodeType}
    {context : Context}
    (descends :
      walker.OnlyDescends handlers (.traversal walker.settings tree keys))
    (called :
      walker.CallsDuring handlers bound tree keys type node context) :
    (∃ address,
      context.Truthful walker.settings tree keys address node) ∧
      ∃ moves service,
        walker.Route handlers (.traversal walker.settings tree keys) moves
            { service := service, node := node, context := context } ∧
          ∀ key,
            (∀ chain : Chain,
              chain.isTracked walker.settings = true →
              chain.key ≠ key) →
            context.keys.get? key =
              Move.effects key (keys.get? key) moves := by
  obtain ⟨moves, service, handler, route, _⟩ := called.reaches
  refine ⟨route.truthful descends, moves, service, route, ?_⟩
  intro key other
  exact route.takeAll.get? other

/-- A transformer that rebuilds trees and knows where it is. -/
def regrouping : Walker where
  mode := .transformer
  settings :=
    { trackParents := true
      trackNewParents := true
      trackPaths := true
      maxDepth := 5
      maxDepth_pos := by decide
      listener := .silent }
  fallback := none

/-- A handler of groups that tells what is in a group what it is under. -/
def throughGroups : HandlerMap Handler :=
  [(.exactly (.group .plain),
      { eager := false
        actions :=
          [.rebuild .node
              { assigned := [("under", .kind)]
                removed := []
                position := none },
            .deliver .rebuilt] })]

/-- Its handler goes on from its own node only. -/
theorem onlyDescends_regrouping
    (first : Call) :
    regrouping.OnlyDescends throughGroups first := by
  intro route call type handler moves next _ invokes makes
  cases invokes with
  | replaced given =>
      cases given
  | resolved found =>
      have registered := HandlerMap.mem_of_resolve? found
      obtain ⟨_, isHandler⟩ :=
        Prod.mk.inj (List.mem_singleton.mp registered)
      rw [isHandler] at makes
      obtain ⟨action, member, byAction⟩ := makes
      rcases List.mem_pair.mp member with isRebuild | isDeliver
      · subst isRebuild
        cases byAction with
        | callback isAt calls evaluated _ =>
            cases calls
            cases evaluated
            rw [← isAt.node_eq]
            refine .itself (.inr (.inr rfl)) ⟨rfl, ?_, ?_⟩
            · rintro (_ | _) <;> decide
            · rintro (_ | _) <;> decide
      · subst isDeliver
        cases byAction with
        | callback _ calls =>
            cases calls

/-- A group in a group. -/
def groupInGroup : Node :=
  Query.group (Query.group (Query.word "a"))

/-- The context of the inner group, where the caller gave a parent itself. -/
def inOuterGroup : Context where
  keys :=
    [("newParents", .list [.node groupInGroup]),
      ("parents", .list [.text "outside", .node groupInGroup]),
      ("under", .text "group")]
  position := { depth := .ofNat 1, path := some [.ofNat 0] }

/--
The inner group is told where it is, and by the outer one's handler what it is
under.
-/
theorem positions_truthful_regrouping :
    let inner := Query.group (Query.word "a")
    let caller : Fields Value := [("parents", .list [.text "outside"])]
    let first := Call.traversal regrouping.settings groupInGroup caller
    regrouping.OnlyDescends throughGroups first ∧
      regrouping.CallsDuring throughGroups 9 groupInGroup caller
        (some (.exactly (.group .plain))) inner inOuterGroup ∧
      (∃ address,
        inOuterGroup.Truthful regrouping.settings groupInGroup caller
          address inner) ∧
      ∃ moves service,
        regrouping.Route throughGroups first moves
            { service := service
              node := inner
              context := inOuterGroup } ∧
          some (.text "group") = Move.effects "under" none moves := by
  have descends :=
    onlyDescends_regrouping
      (.traversal regrouping.settings groupInGroup
        [("parents", .list [.text "outside"])])
  have second :
      (((regrouping.services 9).restart groupInGroup
            [("parents", .list [.text "outside"])]).complete
          (.ofMap throughGroups)).events[1]? =
        some (.noted
          (.entered (some (.exactly (.group .plain)))
            (Query.group (Query.word "a")) inOuterGroup)) :=
    rfl
  have called :
      regrouping.CallsDuring throughGroups 9 groupInGroup
        [("parents", .list [.text "outside"])]
        (some (.exactly (.group .plain)))
        (Query.group (Query.word "a")) inOuterGroup :=
    .inl (List.mem_of_getElem? second)
  obtain ⟨truthful, moves, service, route, keysAre⟩ :=
    positions_truthful descends called
  refine ⟨descends, called, truthful, moves, service, route, ?_⟩
  apply keysAre "under"
  rintro (_ | _) _ <;> decide

end Walker

end QueryWalk
