import QueryWalk.Proofs.AddressEnumeration
import QueryWalk.Proofs.CollectedResults
import QueryWalk.Proofs.ContextDepth
import QueryWalk.Proofs.HandlerInvocation

namespace QueryWalk

/-!
# Walks without handlers

Where no handler applies, a visitor reports nothing and a transformer gives back
every node as it was, whatever the node carries besides what its kind declares.
Only the depth of the tree matters: the walk fails if the tree goes below the
depth limit. A node without children is never checked against the limit.
-/

namespace HandlerMap

/-- No node of a tree has a handler. -/
def Spares (handlers : HandlerMap Handler) (tree : Node) : Prop :=
  ∀ (address : List Nat) (node : Node),
    tree.at? address = some node →
    handlers.resolve? node.kind = none

/-- A map that spares a tree spares the trees below its root. -/
theorem Spares.of_child
    {handlers : HandlerMap Handler}
    {tree child : Node}
    {index : Nat}
    (spares : handlers.Spares tree)
    (isChild : tree.children[index]? = some child) :
    handlers.Spares child := by
  intro address node isThere
  apply spares (index :: address) node
  rw [Node.at?_cons isChild]
  exact isThere

end HandlerMap

namespace Mode

/-- What a node gives if nothing is done about it. -/
def untouched : Mode → Node → List Value
  | .visitor, _ => []
  | .transformer, node => [.node node]

/-- What a traversal of a tree comes to if nothing is done about it. -/
def unchanged : Mode → Node → Value
  | .visitor, _ => .list []
  | .transformer, tree => .node tree

theorem outcome_untouched
    (mode : Mode)
    (tree : Node) :
    mode.outcome (mode.untouched tree) = .ok (mode.unchanged tree) := by
  cases mode <;> rfl

/-- The nodes that a transformer's children give are the children. -/
theorem asNode_untouched
    (nodes : List Node) :
    (nodes.flatMap (untouched .transformer)).map Value.asNode = nodes := by
  induction nodes with
  | nil =>
      rfl
  | cons node rest inductionHypothesis =>
      exact congrArg (List.cons node) inductionHypothesis

end Mode

namespace Settings

variable {settings : Settings}

/--
A tree is within the limit, seen from the depth of its root: it has no level
below the root, or the walk goes down to its lowest one.
-/
def Contains (settings : Settings) (depth : Nat) (tree : Node) : Prop :=
  tree.height = 0 ∨ settings.Admits (depth + tree.height)

instance (depth : Nat) (tree : Node) :
    Decidable (settings.Contains depth tree) :=
  inferInstanceAs (Decidable (_ ∨ _))

/-- A tree is within the limit if the walk goes as deep as each child needs. -/
theorem contains_iff
    {depth : Nat}
    {tree : Node} :
    settings.Contains depth tree ↔
      ∀ child ∈ tree.children,
        settings.Admits (depth + 1 + child.height) := by
  unfold Contains Admits
  constructor
  · intro contains child member
    have lower := Node.height_lt_of_mem_children member
    omega
  · intro admits
    by_cases unlimited : Number.exactLimit ≤ settings.maxDepth
    · exact .inr (.inr unlimited)
    · by_cases flat : tree.height = 0
      · exact .inl flat
      · have low : tree.height ≤ settings.maxDepth - depth := by
          rw [Node.height_eq, Node.heightAbove_le_iff]
          intro child member
          have deepEnough := admits child member
          omega
        omega

/-- Where the root is within the limit, only the lowest level matters. -/
theorem contains_iff_of_admits
    {depth : Nat}
    {tree : Node}
    (admits : settings.Admits depth) :
    settings.Contains depth tree ↔ settings.Admits (depth + tree.height) := by
  unfold Contains Admits at *
  omega

/-- From the root every walk sees the height of a tree. -/
theorem contains_zero_iff
    {tree : Node} :
    settings.Contains 0 tree ↔ settings.Admits tree.height := by
  unfold Contains Admits
  omega

/-- At depths that are counted one by one, the limit is compared with the sum. -/
theorem contains_iff_of_lt
    {depth : Nat}
    {tree : Node}
    (counted : depth + tree.height < Number.exactLimit) :
    settings.Contains depth tree ↔
      tree.height = 0 ∨ depth + tree.height ≤ settings.maxDepth := by
  unfold Contains Admits
  omega

end Settings

namespace Walker

section Untouched

variable
  {walker : Walker}
  {handlers : HandlerMap Handler}
  {node : Node}
  {context : Context}
  {depth bound : Nat}
  (original : walker.fallback = none)
  (accepts : ∀ kind, walker.settings.listener ≠ .logging (some kind))

/-- What comes of a tree that no handler applies to. -/
def spared
    {Outcome : Type}
    (settings : Settings)
    (depth : Nat)
    (tree : Node)
    (outcome : Outcome) :
    Except Failure Outcome :=
  if settings.Contains depth tree then
    .ok outcome
  else
    .error (.traversalDepth (.ofNat settings.maxDepth))

/-- The children of a node that no handler applies to, where each is as promised. -/
theorem visitChildren_spared
    {services : Services}
    (sameSettings : services.settings = walker.settings)
    (isAt : context.IsAtDepth depth)
    (iterable :
      node.children ≠ [] →
      walker.settings.Admits (depth + 1) →
      context.IsIterable walker.settings)
    (each :
      ∀ child ∈ node.children, ∀ below : Context,
        below.IsAtDepth (depth + 1) →
        below.IsIterable walker.settings →
        (services.visitNode child below).Collects handlers
          (spared walker.settings (depth + 1) child
            (walker.mode.untouched child))) :
    (visitChildren services node context 0 node.children).Collects handlers
      (spared walker.settings depth node
        (node.children.flatMap walker.mode.untouched)) := by
  have inOrder :=
    inTurn_map_ite
      (fun child => walker.settings.Admits (depth + 1 + child.height))
      walker.mode.untouched
      (.traversalDepth (.ofNat walker.settings.maxDepth))
      node.children
  simp only [spared, Settings.contains_iff]
  rw [← inOrder]
  apply visitChildren_collects (List.length_map _)
  intro place child outcome isChild isOutcome
  rw [List.getElem?_map, isChild] at isOutcome
  cases isOutcome
  unfold visitChild
  rw [sameSettings]
  by_cases admits : walker.settings.Admits (depth + 1)
  · have member := List.mem_of_getElem? isChild
    have isIterable := iterable (List.ne_nil_of_mem member) admits
    have visited :=
      each child member _
        (isAt.child walker.settings node (.ofNat (0 + place)))
        (isIterable.child node (.ofNat (0 + place)))
    simp only [spared, Settings.contains_iff_of_admits admits] at visited
    rw [isAt.descend admits isIterable]
    exact visited
  · -- The context of the child cannot be made, however low the child is.
    have tooDeep :
        ¬ walker.settings.Admits (depth + 1 + child.height) :=
      fun deep => admits (deep.mono (Nat.le_add_right _ _))
    rw [isAt.descend_error admits]
    simp only [if_neg tooDeep]
    exact .failed _

/-- A rebuilt node is the node itself, where its children are as promised. -/
theorem rebuild_spared
    (transformer : walker.mode = .transformer)
    {services : Services}
    (collects :
      (visitChildren services node context 0 node.children).Collects
        handlers
        (spared walker.settings depth node
          (node.children.flatMap walker.mode.untouched))) :
    (rebuild services node context).Yields handlers []
      (.ofExcept (spared walker.settings depth node node)) := by
  have rebuilt := rebuild_yields collects
  unfold spared at rebuilt ⊢
  split
  · rename_i contains
    rw [if_pos contains, transformer] at rebuilt
    simp only [Except.bind, Mode.asNode_untouched,
      Node.withChildren_children] at rebuilt
    exact rebuilt
  · rename_i tooDeep
    rw [if_neg tooDeep] at rebuilt
    exact rebuilt

include original

/-- The fallback leaves a node untouched, where its children are as promised. -/
theorem callGeneric_spared
    {services : Services}
    (collects :
      (visitChildren services node context 0 node.children).Collects
        handlers
        (spared walker.settings depth node
          (node.children.flatMap walker.mode.untouched))) :
    ((walker.callGeneric services node context).bind id).Collects handlers
      (spared walker.settings depth node
        (walker.mode.untouched node)) := by
  cases mode : walker.mode with
  | visitor =>
      have noResults :
          node.children.flatMap walker.mode.untouched =
            Mode.untouched .visitor node := by
        rw [mode]
        exact List.flatMap_eq_nil_iff.mpr fun _ _ => rfl
      rw [noResults] at collects
      exact callGeneric_collects_of_visitor mode original collects
  | transformer =>
      have rebuilt := rebuild_spared mode collects
      have given :=
        callGeneric_collects_of_transformer mode original rebuilt
      unfold spared at given ⊢
      split at given
      · rename_i contains
        rw [if_pos contains]
        exact given
      · rename_i tooDeep
        rw [if_neg tooDeep]
        exact given

include accepts

/-- What a node gives that no handler applies to, at any depth. -/
theorem visitNode_spared
    (spares : handlers.Spares node)
    (enough : node.height < bound)
    (isAt : context.IsAtDepth depth)
    (iterable :
      node.children ≠ [] →
      walker.settings.Admits (depth + 1) →
      context.IsIterable walker.settings) :
    ((walker.services bound).visitNode node context).Collects handlers
      (spared walker.settings depth node
        (walker.mode.untouched node)) := by
  induction node using Node.induction_on_children
    generalizing bound depth context with
  | step node inductionHypothesis =>
      obtain ⟨bound, rfl⟩ : ∃ less, bound = less + 1 :=
        ⟨bound - 1, by omega⟩
      apply visitNode_collects_of_missed accepts (spares [] node rfl)
      apply callGeneric_spared original
      apply visitChildren_spared (settings_services walker bound) isAt
        iterable
      intro child member below isBelow iterableBelow
      obtain ⟨index, isChild⟩ := List.mem_iff_getElem?.mp member
      have lower := Node.height_lt_of_mem_children member
      exact inductionHypothesis child member (spares.of_child isChild)
        (by omega) isBelow fun _ _ => iterableBelow

/-- The children of a node that no handler applies to, at any depth. -/
theorem visitChildren_services_spared
    (spares : handlers.Spares node)
    (enough : node.height ≤ bound)
    (isAt : context.IsAtDepth depth)
    (iterable :
      node.children ≠ [] →
      walker.settings.Admits (depth + 1) →
      context.IsIterable walker.settings) :
    (visitChildren (walker.services bound) node context 0
        node.children).Collects handlers
      (spared walker.settings depth node
        (node.children.flatMap walker.mode.untouched)) := by
  apply visitChildren_spared (settings_services walker bound) isAt iterable
  intro child member below isBelow iterableBelow
  obtain ⟨index, isChild⟩ := List.mem_iff_getElem?.mp member
  have lower := Node.height_lt_of_mem_children member
  exact visitNode_spared original accepts (spares.of_child isChild)
    (by omega) isBelow fun _ _ => iterableBelow

end Untouched

end Walker

namespace Session

/-- The reply to a call tells what it collects, or why it fails. -/
theorem reply_of_collects
    {session : Session}
    {handlers : HandlerMap Handler}
    (standsFor : session.table.StandsFor handlers)
    {run : Run Unit}
    {collected : Except Failure (List Value)}
    (collects : run.Collects handlers collected) :
    (session.complete (fun results => .result (.list results))
        run.gather).1.reply =
      .ofEnding (fun results => .result (.list results))
        (.ofExcept collected) :=
  reply_complete standsFor collects.gather _

/-- What a caller is told of a tree that no handler applies to. -/
theorem ofEnding_spared
    {Outcome : Type}
    (reply : Outcome → Reply)
    (settings : Settings)
    (depth : Nat)
    (tree : Node)
    (outcome : Outcome) :
    Reply.ofEnding reply
        (.ofExcept (Walker.spared settings depth tree outcome)) =
      if settings.Contains depth tree then
        reply outcome
      else
        .refused (.traversalDepth (.ofNat settings.maxDepth)) := by
  unfold Walker.spared
  split <;> rfl

/-- The same, where depths are counted one by one. -/
theorem ofEnding_spared_of_lt
    {Outcome : Type}
    (reply : Outcome → Reply)
    {settings : Settings}
    {depth : Nat}
    {tree : Node}
    (counted : depth + tree.height < Number.exactLimit)
    (outcome : Outcome) :
    Reply.ofEnding reply
        (.ofExcept (Walker.spared settings depth tree outcome)) =
      if tree.height = 0 ∨ depth + tree.height ≤ settings.maxDepth then
        reply outcome
      else
        .refused (.traversalDepth (.ofNat settings.maxDepth)) := by
  rw [ofEnding_spared]
  simp only [Settings.contains_iff_of_lt counted]

/-- Where the context of a child is refused, so is all that goes down from its node. -/
theorem replies_of_refused
    {walker : Walker}
    {handlers : HandlerMap Handler}
    {tree : Node}
    {context : Context}
    {failure : Failure}
    (original : walker.fallback = none)
    (accepts : ∀ kind, walker.settings.listener ≠ .logging (some kind))
    (missed : handlers.resolve? tree.kind = none)
    (inner : tree.children ≠ [])
    (refused :
      context.descend walker.settings tree (.ofNat 0) = .error failure)
    (bound : Nat) :
    let replies (step : Step) :=
      ((Session.create walker handlers).answers (bound + 1) [step]).map
        Answer.reply
    replies (.visitNode tree context) = [.refused failure] ∧
      replies (.generic tree context) = [.refused failure] ∧
      (walker.mode = .transformer →
        replies (.rebuild tree context) = [.refused failure]) := by
  intro replies
  have standsFor :
      (Session.create walker handlers).table.StandsFor handlers :=
    .ofMap handlers
  rw [← Walker.settings_services walker bound] at refused
  have given :
      ((walker.callGeneric (walker.services bound) tree context).bind
          id).Collects handlers (.error failure) :=
    Walker.callGeneric_collects_of_refused original inner refused
  have visited :=
    Walker.visitNode_collects_of_missed accepts missed given
  refine ⟨?_, ?_, ?_⟩
  · exact congrArg ([·]) (reply_of_collects standsFor visited)
  · exact congrArg ([·]) (reply_of_collects standsFor given)
  · intro transformer
    have failed :
        (walker.callRebuild (walker.services bound) tree context).Yields
          handlers [] (.failed failure) := by
      rw [Walker.callRebuild_of_transformer transformer,
        Walker.rebuild_of_refused inner refused]
      exact .failed _
    exact
      congrArg ([·])
        (reply_complete standsFor failed fun node =>
          .result (.node node))

/-- A transformer that goes two levels down. -/
def twoLevels : Walker where
  mode := .transformer
  settings :=
    { trackParents := true
      trackNewParents := true
      trackPaths := true
      maxDepth := 2
      maxDepth_pos := by decide
      listener := .logging none }
  fallback := none

/-- A handler for phrases only. -/
def phrasesOnly : HandlerMap Handler :=
  [(.exactly (.term .phrase),
      { eager := true, actions := [.fail "no phrases"] })]

/-- A tree of two levels without phrases, with properties of other kinds. -/
def decorated : Node :=
  .group .plain
    (.searchField "title" (.term .word "a" [("expr", .null)]) [])
    [("operands", .list []), ("term", .text "b")]

end Session

end QueryWalk
