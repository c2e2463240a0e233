import QueryWalk.Proofs.AddressEnumeration
import QueryWalk.Proofs.CarriedProperties
import QueryWalk.Proofs.HandlerMachine
import QueryWalk.Proofs.ListingVisitor
import QueryWalk.Proofs.NodeArity

namespace QueryWalk

/-!
# Collapsing operations

A transformer may rebuild every operation, and then drop it where no operand is left,
or put the only operand that is left in its place. It brings a tree into a normal form,
where every operation has at least two operands. All other nodes stay as they are and
where they are in the order of the tree. Only trees and children of which nothing would
be left stand in the way.
-/

namespace Node

/-- Whether a node is an operation. -/
def isOperation (node : Node) : Bool :=
  node.isOfType (.anyOf .operation)

/-- The nodes of a tree, parents before their children and these from left to right. -/
def inOrder (tree : Node) : List Node :=
  tree.addresses.filterMap tree.at?

/-- The leaves of a tree from left to right. -/
def leaves (tree : Node) : List Node :=
  tree.inOrder.filter isLeaf

/-- The nodes of a tree that are no operations, in order. -/
def fixtures (tree : Node) : List Node :=
  tree.inOrder.filter fun node => !node.isOperation

/-- What a node is besides its children. -/
def properties (node : Node) :
    NodeKind × List Attribute × Fields Data :=
  (node.kind, node.attributes, node.extra)

mutual

/-- An operation is hollow if all its operands are. -/
def isHollow : Node → Bool
  | .operation _ operands _ => areHollow operands
  | .term .. | .noneItem .. | .group .. | .searchField ..
  | .approximation .. | .boost .. | .range .. | .unary .. => false

/-- Whether all of some trees are hollow. -/
def areHollow : List Node → Bool
  | [] => true
  | tree :: rest => tree.isHollow && areHollow rest

end

/-- A node that takes a fixed number of children has a hollow one. -/
def LosesChild (node : Node) : Prop :=
  node.kind.arity?.isSome ∧ ∃ child ∈ node.children, child.isHollow = true

instance (node : Node) : Decidable node.LosesChild :=
  inferInstanceAs (Decidable (_ ∧ _))

/-- Every operation in a tree has at least two operands. -/
def IsNormal (tree : Node) : Prop :=
  ∀ node ∈ tree.inOrder, node.isOperation = true → 2 ≤ node.children.length

/-- What is left of an operation that was rebuilt. -/
def collapsed (rebuilt : Node) : List Node :=
  match rebuilt.children with
  | [] => []
  | [only] => [only]
  | _ :: _ :: _ => [rebuilt]

variable {tree node : Node}

theorem areHollow_eq_all
    (trees : List Node) :
    areHollow trees = trees.all isHollow := by
  induction trees with
  | nil =>
      rfl
  | cons tree rest inductionHypothesis =>
      rw [areHollow, List.all_cons, inductionHypothesis]

theorem isHollow_eq
    (tree : Node) :
    tree.isHollow =
      (tree.isOperation && tree.children.all isHollow) := by
  cases tree with
  | operation kind operands extra =>
      exact areHollow_eq_all operands
  | _ =>
      rfl

/-- A member of a forest is found below the address of its root. -/
theorem filterMap_at?_addressesFrom
    (before : List Node)
    {after : List Node}
    (children_eq : tree.children = before ++ after) :
    (addressesFrom before.length after).filterMap tree.at? =
      after.flatMap inOrder := by
  induction after generalizing before with
  | nil =>
      rfl
  | cons child rest inductionHypothesis =>
      have isChild : tree.children[before.length]? = some child := by
        rw [children_eq, List.getElem?_append_right (Nat.le_refl _),
          Nat.sub_self]
        rfl
      have inChild :
          (child.addresses.map (before.length :: ·)).filterMap tree.at? =
            child.inOrder := by
        rw [List.filterMap_map]
        exact List.filterMap_congr fun address _ => at?_cons isChild address
      have inRest :=
        inductionHypothesis (before ++ [child])
          (by rw [children_eq, List.append_assoc, List.singleton_append])
      rw [List.length_append, List.length_singleton] at inRest
      rw [addressesFrom, List.filterMap_append, inChild, inRest,
        List.flatMap_cons]

theorem inOrder_eq
    (tree : Node) :
    tree.inOrder = tree :: tree.children.flatMap inOrder := by
  have below :
      (addressesFrom 0 tree.children).filterMap tree.at? =
        tree.children.flatMap inOrder :=
    filterMap_at?_addressesFrom [] rfl
  rw [inOrder, addresses_eq, List.filterMap_cons_some tree.at?_nil]
  exact congrArg (tree :: ·) below

theorem mem_inOrder_self
    (tree : Node) :
    tree ∈ tree.inOrder := by
  rw [inOrder_eq]
  exact List.mem_cons_self

/-- What is in a child is in the tree. -/
theorem mem_inOrder_of_child
    {child : Node}
    (isChild : child ∈ tree.children)
    (member : node ∈ child.inOrder) :
    node ∈ tree.inOrder := by
  rw [inOrder_eq]
  exact List.mem_cons_of_mem tree (List.mem_flatMap_of_mem isChild member)

/-- A property of all nodes of a tree is one of its root and of those below. -/
theorem forall_mem_inOrder
    {property : Node → Prop} :
    (∀ node ∈ tree.inOrder, property node) ↔
      property tree ∧
        ∀ child ∈ tree.children, ∀ node ∈ child.inOrder, property node := by
  rw [inOrder_eq, List.forall_mem_cons, List.forall_mem_flatMap]

theorem isNormal_iff :
    tree.IsNormal ↔
      (tree.isOperation = true → 2 ≤ tree.children.length) ∧
        ∀ child ∈ tree.children, child.IsNormal :=
  forall_mem_inOrder

end Node

/-- A reading of nodes that looks at neither operations nor children. -/
structure Node.IsReading {Reading : Type} (read : Node → Option Reading) :
    Prop where
  none_of_operation : ∀ node, node.isOperation = true → read node = none
  sameRebuilt :
    ∀ {node rebuilt given},
      node.withChildren given = .ok rebuilt →
      read rebuilt = read node

/--
Trees that are left of others. One is left of each that is not hollow, all are in
normal form, and what stands in them besides operations stood there before.
-/
structure Node.AreLeftOf (remaining given : List Node) : Prop where
  length_eq :
    remaining.length = given.countP fun tree => !tree.isHollow
  normal : ∀ tree ∈ remaining, tree.IsNormal
  sameReading :
    ∀ {Reading : Type} {read : Node → Option Reading},
      IsReading read →
      (remaining.flatMap inOrder).filterMap read =
        (given.flatMap inOrder).filterMap read
  lower :
    ∀ tree ∈ remaining, ∃ origin ∈ given, tree.height ≤ origin.height
  unchanged : (∀ tree ∈ given, tree.IsNormal) → remaining = given

namespace Node.IsReading

/-- Leaves are no operations and are not rebuilt as anything else. -/
theorem leaf :
    IsReading (Option.guard Node.isLeaf) where
  none_of_operation := by
    intro node operation
    cases node with
    | operation =>
        rfl
    | _ =>
        cases operation
  sameRebuilt := by
    intro node rebuilt given built
    cases leaf : node.isLeaf with
    | true =>
        have same := withChildren_of_isLeaf leaf built
        rw [same]
    | false =>
        have sameKind := (KeepsPropertiesOf.of_withChildren built).kind_eq
        have noLeaf : rebuilt.isLeaf = false := by
          rw [Node.isLeaf, sameKind]
          exact leaf
        rw [Option.guard, Option.guard, leaf, noLeaf]
        rfl

/-- The properties of a node that is no operation stay when it is rebuilt. -/
theorem properties :
    IsReading fun node =>
      (Option.guard (fun node => !node.isOperation) node).map
        Node.properties where
  none_of_operation := by
    intro node operation
    rw [Option.guard, operation]
    rfl
  sameRebuilt := by
    intro node rebuilt given built
    have keeps := KeepsPropertiesOf.of_withChildren built
    have sameProperties : rebuilt.properties = node.properties := by
      rw [Node.properties, keeps.kind_eq, keeps.attributes_eq,
        keeps.extra_eq]
      rfl
    have sameOperation : rebuilt.isOperation = node.isOperation :=
      congrArg (NodeType.anyOf .operation).includes keeps.kind_eq
    by_cases operation : node.isOperation = true
    · simp [Option.guard, sameOperation, operation]
    · simp [Option.guard, sameOperation, operation, sameProperties]

end Node.IsReading

namespace Node.AreLeftOf

variable {given remaining : List Node}

/-- The leaves of a tree are those of the only tree that is left of it. -/
theorem leaves_eq
    {tree result : Node}
    (left : AreLeftOf [result] [tree]) :
    result.leaves = tree.leaves := by
  have same := left.sameReading .leaf
  simp only [List.flatMap_singleton, List.filterMap_eq_filter] at same
  exact same

theorem fixtures_eq
    {tree result : Node}
    (left : AreLeftOf [result] [tree]) :
    result.fixtures.map Node.properties =
      tree.fixtures.map Node.properties := by
  have same := left.sameReading .properties
  simp only [List.flatMap_singleton, ← List.map_filterMap,
    List.filterMap_eq_filter] at same
  exact same

theorem nil :
    AreLeftOf [] [] where
  length_eq := rfl
  normal := nofun
  sameReading _ := rfl
  lower := nofun
  unchanged _ := rfl

theorem append
    {further last : List Node}
    (first : AreLeftOf remaining given)
    (second : AreLeftOf further last) :
    AreLeftOf (remaining ++ further) (given ++ last) where
  length_eq := by
    rw [List.length_append, List.countP_append, first.length_eq,
      second.length_eq]
  normal := List.forall_mem_append.mpr ⟨first.normal, second.normal⟩
  sameReading isReading := by
    rw [List.flatMap_append, List.flatMap_append, List.filterMap_append,
      List.filterMap_append, first.sameReading isReading,
      second.sameReading isReading]
  lower := by
    intro tree member
    rcases List.mem_append.mp member with inFirst | inSecond
    · obtain ⟨origin, isGiven, lower⟩ := first.lower tree inFirst
      exact ⟨origin, List.mem_append_left last isGiven, lower⟩
    · obtain ⟨origin, isGiven, lower⟩ := second.lower tree inSecond
      exact ⟨origin, List.mem_append_right given isGiven, lower⟩
  unchanged := by
    intro normal
    obtain ⟨firstNormal, secondNormal⟩ := List.forall_mem_append.mp normal
    rw [first.unchanged firstNormal, second.unchanged secondNormal]

/-- What is left of trees one by one is left of all of them. -/
theorem flatten
    {parts : List (List Node)}
    (each :
      List.Forall₂ (fun tree part => AreLeftOf part [tree]) given parts) :
    AreLeftOf parts.flatten given := by
  induction each with
  | nil =>
      exact nil
  | cons first _ inductionHypothesis =>
      exact first.append inductionHypothesis

/-- What is left of the children are the children if the tree is in normal form. -/
theorem eq_children
    {tree : Node}
    (left : AreLeftOf remaining tree.children)
    (normal : tree.IsNormal) :
    remaining = tree.children :=
  left.unchanged (isNormal_iff.mp normal).2

/-- A node with what is left of its children is no higher than it was. -/
theorem height_le
    {tree rebuilt : Node}
    (left : AreLeftOf remaining tree.children)
    (children_eq : rebuilt.children = remaining) :
    rebuilt.height ≤ tree.height := by
  rw [height_eq rebuilt, heightAbove_le_iff, children_eq]
  intro node member
  obtain ⟨origin, isChild, lower⟩ := left.lower node member
  exact Nat.lt_of_le_of_lt lower (height_lt_of_mem_children isChild)

/-- A node that is no operation is left with what is left of its children. -/
theorem of_rebuilt
    {tree rebuilt : Node}
    (fixed : tree.isOperation = false)
    (left : AreLeftOf remaining tree.children)
    (built : tree.withChildren remaining = .ok rebuilt) :
    AreLeftOf [rebuilt] [tree] where
  length_eq := by
    rw [List.countP_singleton, isHollow_eq, fixed]
    rfl
  normal := by
    intro node member
    rw [List.mem_singleton.mp member, isNormal_iff,
      children_of_withChildren built]
    refine ⟨?_, left.normal⟩
    intro operation
    have sameKind := (KeepsPropertiesOf.of_withChildren built).kind_eq
    rw [isOperation, isOfType, sameKind] at operation
    exact absurd operation (Bool.eq_false_iff.mp fixed)
  sameReading isReading := by
    rw [List.flatMap_singleton, List.flatMap_singleton, inOrder_eq rebuilt,
      inOrder_eq tree, children_of_withChildren built,
      List.filterMap_cons, List.filterMap_cons, isReading.sameRebuilt built,
      left.sameReading isReading]
  lower := by
    intro node member
    rw [List.mem_singleton.mp member]
    exact
      ⟨tree, List.mem_singleton_self tree,
        left.height_le (children_of_withChildren built)⟩
  unchanged := by
    intro normal
    have same :=
      left.eq_children (normal tree (List.mem_singleton_self tree))
    rw [same, withChildren_children] at built
    cases built
    rfl

section Operation

variable
  {kind : OperationKind}
  {operands : List Node}
  {extra : Fields Data}
  (left : AreLeftOf remaining operands)
include left

/-- An operation is hollow if nothing is left of its operands. -/
theorem isHollow_iff :
    (operation kind operands extra).isHollow = true ↔ remaining = [] := by
  rw [isHollow_eq, ← List.length_eq_zero_iff, left.length_eq,
    List.countP_eq_zero]
  change operands.all isHollow = true ↔ _
  simp

/-- Of an operation is left what is left of it after its operands. -/
theorem of_collapsed :
    AreLeftOf (collapsed (.operation kind remaining extra))
      [.operation kind operands extra] where
  length_eq := by
    have hollow :
        (operation kind operands extra).isHollow = true ↔ remaining = [] :=
      left.isHollow_iff
    rw [List.countP_singleton]
    match remaining with
    | [] =>
        rw [hollow.mpr rfl]
        rfl
    | [_] | _ :: _ :: _ =>
        rw [Bool.eq_false_iff.mpr (mt hollow.mp nofun)]
        rfl
  normal := by
    intro node member
    match remaining, left with
    | [only], left =>
        exact left.normal node member
    | first :: second :: rest, left =>
        rw [List.mem_singleton.mp member, isNormal_iff]
        exact ⟨fun _ => Nat.le_add_left 2 rest.length, left.normal⟩
  sameReading := by
    intro Reading read isReading
    have overlooked (members : List Node) :
        ([operation kind members extra].flatMap inOrder).filterMap read =
          (members.flatMap inOrder).filterMap read := by
      rw [List.flatMap_singleton, inOrder_eq,
        List.filterMap_cons_none (isReading.none_of_operation _ rfl)]
      rfl
    rw [overlooked operands, ← left.sameReading isReading]
    match remaining with
    | [] =>
        rfl
    | [only] =>
        rfl
    | first :: second :: rest =>
        exact overlooked (first :: second :: rest)
  lower := by
    intro node member
    let whole : Node := .operation kind operands extra
    refine ⟨whole, List.mem_singleton_self whole, ?_⟩
    match remaining, left with
    | [only], left =>
        obtain ⟨origin, isOperand, lower⟩ := left.lower node member
        have below : origin.height < whole.height :=
          height_lt_of_mem_children isOperand
        exact Nat.le_of_lt (Nat.lt_of_le_of_lt lower below)
    | first :: second :: rest, left =>
        have rebuiltLower :
            (operation kind (first :: second :: rest) extra).height ≤
              whole.height :=
          left.height_le rfl
        rw [List.mem_singleton.mp member]
        exact rebuiltLower
  unchanged := by
    intro normal
    have isNormal := normal _ (List.mem_singleton_self _)
    have two := (isNormal_iff.mp isNormal).1 rfl
    have same : remaining = operands := left.eq_children isNormal
    subst same
    match remaining, two with
    | first :: second :: rest, _ =>
        rfl

end Operation

end Node.AreLeftOf

namespace Node

variable {tree : Node}

theorem isOperation_eq_false_of_arity?
    (fixed : tree.kind.arity?.isSome) :
    tree.isOperation = false := by
  cases tree with
  | operation =>
      cases fixed
  | _ =>
      rfl

/-- All that is in a hollow tree is hollow. -/
theorem isHollow_of_mem_inOrder
    (hollow : tree.isHollow = true) :
    ∀ node ∈ tree.inOrder, node.isHollow = true := by
  induction tree using induction_on_children with
  | step tree inductionHypothesis =>
      have below := isHollow_eq tree
      rw [hollow, eq_comm, Bool.and_eq_true, List.all_eq_true] at below
      exact forall_mem_inOrder.mpr
        ⟨hollow, fun child isChild =>
          inductionHypothesis child isChild (below.2 child isChild)⟩

/-- Nothing in a hollow tree takes a fixed number of children. -/
theorem not_losesChild_of_isHollow
    (hollow : tree.isHollow = true) :
    ∀ node ∈ tree.inOrder, ¬ node.LosesChild := by
  intro node member loses
  have isHollow := isHollow_of_mem_inOrder hollow node member
  rw [isHollow_eq, isOperation_eq_false_of_arity? loses.1] at isHollow
  cases isHollow

/-- In normal form no tree is hollow. -/
theorem IsNormal.isHollow_eq_false
    (normal : tree.IsNormal) :
    tree.isHollow = false := by
  induction tree using induction_on_children with
  | step tree inductionHypothesis =>
      obtain ⟨two, below⟩ := isNormal_iff.mp normal
      rw [isHollow_eq]
      cases operation : tree.isOperation with
      | false =>
          rfl
      | true =>
          have inChildren : 0 < tree.children.length :=
            Nat.lt_of_lt_of_le Nat.two_pos (two operation)
          have isChild := List.getElem_mem inChildren
          rw [Bool.true_and, List.all_eq_false]
          refine ⟨_, isChild, ?_⟩
          rw [inductionHypothesis _ isChild (below _ isChild)]
          exact Bool.false_ne_true

theorem IsNormal.not_losesChild
    (normal : tree.IsNormal) :
    ∀ node ∈ tree.inOrder, ¬ node.LosesChild := by
  induction tree using induction_on_children with
  | step tree inductionHypothesis =>
      obtain ⟨-, below⟩ := isNormal_iff.mp normal
      refine forall_mem_inOrder.mpr ⟨?_, fun child isChild =>
        inductionHypothesis child isChild (below child isChild)⟩
      rintro ⟨-, child, isChild, hollow⟩
      rw [(below child isChild).isHollow_eq_false] at hollow
      cases hollow

/-- What comes of a tree whose operations are collapsed, from the leaves up. -/
def collapse (tree : Node) : Except Failure (List Value) :=
  ((inTurn (tree.children.attach.map fun child => collapse child.1)).bind
      fun values => tree.withChildren (values.map Value.asNode)).map
    fun rebuilt =>
      if tree.isOperation then
        rebuilt.collapsed.map .node
      else
        [.node rebuilt]
termination_by tree.size
decreasing_by exact size_lt_of_mem_children child.2

/-- A node rebuilt from what comes of its children. -/
def collapseBelow (tree : Node) : Except Failure Node :=
  (inTurn (tree.children.map collapse)).bind fun values =>
    tree.withChildren (values.map Value.asNode)

theorem collapse_eq
    (tree : Node) :
    tree.collapse =
      tree.collapseBelow.map fun rebuilt =>
        if tree.isOperation then
          rebuilt.collapsed.map .node
        else
          [.node rebuilt] := by
  rw [collapse, List.attach_map_val (l := tree.children) (f := collapse)]
  rfl

/--
What comes of a tree: what is left of it if none of its nodes loses a child, or the
failure of a node that does.
-/
inductive CollapsesTo (tree : Node) : Except Failure (List Value) → Prop where
  | left
      {values : List Value}
      (left : AreLeftOf (values.map Value.asNode) [tree])
      (whole : ∀ node ∈ tree.inOrder, ¬ node.LosesChild) :
      CollapsesTo tree (.ok values)
  | misfit
      {node : Node}
      {arity actual : Nat}
      (member : node ∈ tree.inOrder)
      (loses : node.LosesChild)
      (fixed : node.kind.arity? = some arity)
      (fewer : actual < arity) :
      CollapsesTo tree
        (.error (.nodeArity node.kind (.ofNat arity) (.ofNat actual)))

/-- No more trees are left of the children than the kind takes. -/
theorem AreLeftOf.length_le
    {remaining : List Node}
    {arity : Nat}
    (left : AreLeftOf remaining tree.children)
    (fixed : tree.kind.arity? = some arity) :
    remaining.length ≤ arity := by
  rw [← length_children_of_arity? fixed, left.length_eq]
  exact List.countP_le_length

/-- A node loses a child where too few trees are left of its children. -/
theorem AreLeftOf.losesChild_iff
    {remaining : List Node}
    {arity : Nat}
    (left : AreLeftOf remaining tree.children)
    (fixed : tree.kind.arity? = some arity) :
    tree.LosesChild ↔ remaining.length ≠ arity := by
  rw [← length_children_of_arity? fixed, left.length_eq, Ne,
    List.countP_eq_length]
  simp [LosesChild, fixed]

/-- What comes of a node that is no operation, where its children came to something. -/
theorem collapsesTo_of_fixed
    {values : List Value}
    {arity : Nat}
    (fixed : tree.kind.arity? = some arity)
    (left : AreLeftOf (values.map Value.asNode) tree.children)
    (whole :
      ∀ child ∈ tree.children, ∀ node ∈ child.inOrder, ¬ node.LosesChild) :
    tree.CollapsesTo
      ((tree.withChildren (values.map Value.asNode)).map fun rebuilt =>
        [.node rebuilt]) := by
  have loses := left.losesChild_iff fixed
  by_cases fits : (values.map Value.asNode).length = arity
  · obtain ⟨rebuilt, built⟩ :
        ∃ rebuilt,
          tree.withChildren (values.map Value.asNode) = .ok rebuilt := by
      apply withChildren_isOk
      intro other isOther
      rw [fixed] at isOther
      exact fits.trans (Option.some.inj isOther)
    have isFixed : tree.isOperation = false :=
      isOperation_eq_false_of_arity? (Option.isSome_of_eq_some fixed)
    rw [built]
    refine .left (left.of_rebuilt isFixed built)
      (forall_mem_inOrder.mpr ⟨?_, whole⟩)
    exact mt loses.mp (not_not_intro fits)
  · rw [withChildren_error fixed fits]
    exact .misfit (mem_inOrder_self tree) (loses.mpr fits) fixed
      (Nat.lt_of_le_of_ne (left.length_le fixed) fits)

/-- What comes of a node where its children came to something. -/
theorem collapsesTo_of_left
    {values : List Value}
    (left : AreLeftOf (values.map Value.asNode) tree.children)
    (whole :
      ∀ child ∈ tree.children, ∀ node ∈ child.inOrder, ¬ node.LosesChild) :
    tree.CollapsesTo
      ((tree.withChildren (values.map Value.asNode)).map fun rebuilt =>
        if tree.isOperation then
          rebuilt.collapsed.map .node
        else
          [.node rebuilt]) := by
  cases tree with
  | operation kind operands extra =>
      refine .left ?_ (forall_mem_inOrder.mpr ⟨?_, whole⟩)
      · change
          AreLeftOf
            (((operation kind (values.map Value.asNode) extra).collapsed.map
              .node).map Value.asNode) _
        rw [List.map_map]
        exact (List.map_id _).symm ▸ left.of_collapsed
      · rintro ⟨fixed, -⟩
        cases fixed
  | _ =>
      exact collapsesTo_of_fixed rfl left whole

theorem CollapsesTo.left_of_ok
    {values : List Value}
    (comes : tree.CollapsesTo (.ok values)) :
    AreLeftOf (values.map Value.asNode) [tree] ∧
      ∀ node ∈ tree.inOrder, ¬ node.LosesChild := by
  cases comes with
  | left left whole =>
      exact ⟨left, whole⟩

/-- What comes of a child that fails comes of its parent. -/
theorem CollapsesTo.of_child
    {child : Node}
    {failure : Failure}
    (isChild : child ∈ tree.children)
    (fails : child.CollapsesTo (.error failure)) :
    tree.CollapsesTo (.error failure) := by
  cases fails with
  | misfit member loses fixed fewer =>
      exact .misfit (mem_inOrder_of_child isChild member) loses fixed fewer

theorem collapsesTo
    (tree : Node) :
    tree.CollapsesTo tree.collapse := by
  induction tree using induction_on_children with
  | step tree inductionHypothesis =>
      rw [collapse_eq, collapseBelow]
      cases below : inTurn (tree.children.map collapse) with
      | error failure =>
          obtain ⟨child, isChild, childFails⟩ :=
            List.mem_map.mp (error_mem_of_inTurn below)
          have fails := inductionHypothesis child isChild
          rw [childFails] at fails
          exact fails.of_child isChild
      | ok values =>
          obtain ⟨parts, rfl, each⟩ := forall₂_of_inTurn below
          have eachLeft :
              List.Forall₂
                (fun child part =>
                  AreLeftOf (part.map Value.asNode) [child] ∧
                    ∀ node ∈ child.inOrder, ¬ node.LosesChild)
                tree.children parts := by
            have eachMember :=
              (List.forall₂_and_left _ _).mpr
                ⟨fun _ member => member, each⟩
            apply eachMember.imp
            intro child part ⟨isChild, isPart⟩
            have comes := inductionHypothesis child isChild
            rw [isPart] at comes
            exact comes.left_of_ok
          apply collapsesTo_of_left
          · rw [List.map_flatten]
            apply AreLeftOf.flatten
            rw [List.forall₂_map_right_iff]
            exact eachLeft.imp fun _ _ => And.left
          · intro child isChild
            obtain ⟨part, -, -, whole⟩ :=
              exists_partner_of_mem eachLeft.flip isChild
            exact whole

/-- Nothing comes of a hollow tree. -/
theorem collapse_of_isHollow
    (hollow : tree.isHollow = true) :
    tree.collapse = .ok [] := by
  have comes := tree.collapsesTo
  generalize tree.collapse = outcome at comes
  cases comes with
  | misfit member loses =>
      exact absurd loses (not_losesChild_of_isHollow hollow _ member)
  | @left values left =>
      have noneLeft := left.length_eq
      rw [List.countP_singleton, hollow, List.length_map] at noneLeft
      rw [List.eq_nil_of_length_eq_zero noneLeft]

/-- What comes of a tree are nodes. -/
theorem exists_node_of_collapse
    {values : List Value}
    (comes : tree.collapse = .ok values)
    {value : Value}
    (member : value ∈ values) :
    ∃ result, value = .node result := by
  rw [collapse_eq] at comes
  cases below : tree.collapseBelow with
  | error failure =>
      rw [below] at comes
      cases comes
  | ok rebuilt =>
      rw [below] at comes
      cases comes
      split at member
      · obtain ⟨result, -, rfl⟩ := List.mem_map.mp member
        exact ⟨result, rfl⟩
      · exact ⟨rebuilt, List.mem_singleton.mp member⟩

/-- One tree comes of a tree that is not hollow, where no node loses a child. -/
theorem exists_collapse_eq
    (solid : tree.isHollow = false)
    (whole : ∀ node ∈ tree.inOrder, ¬ node.LosesChild) :
    ∃ result,
      tree.collapse = .ok [.node result] ∧ AreLeftOf [result] [tree] := by
  have comes := tree.collapsesTo
  cases given : tree.collapse with
  | error failure =>
      rw [given] at comes
      cases comes with
      | misfit member loses =>
          exact absurd loses (whole _ member)
  | ok values =>
      rw [given] at comes
      have left := comes.left_of_ok.1
      have oneLeft := left.length_eq
      rw [List.countP_singleton, solid, List.length_map] at oneLeft
      obtain ⟨value, rfl⟩ := List.length_eq_one_iff.mp oneLeft
      obtain ⟨result, rfl⟩ :=
        exists_node_of_collapse given (List.mem_singleton_self value)
      exact ⟨result, rfl, left⟩

/-- A tree in normal form stays as it is. -/
theorem IsNormal.collapse_eq_self
    (normal : tree.IsNormal) :
    tree.collapse = .ok [.node tree] := by
  obtain ⟨result, comes, left⟩ :=
    exists_collapse_eq normal.isHollow_eq_false normal.not_losesChild
  have same := left.unchanged (List.forall_mem_singleton.mpr normal)
  rw [comes, List.singleton_inj.mp same]

end Node

/-- The handlers of a map with one handler, for operations. -/
def HandlerMap.forOperations (handler : Handler) : HandlerMap Handler :=
  [(.anyOf .operation, handler)]

/-- Only operations have the handler for operations. -/
theorem HandlerMap.resolve?_forOperations
    (handler : Handler)
    (node : Node) :
    (forOperations handler).resolve? node.kind =
      if node.isOperation then
        some { type := .anyOf .operation, handler := handler }
      else
        none := by
  cases node with
  | term kind | group kind | approximation kind | unary kind
  | operation kind =>
      cases kind <;> rfl
  | noneItem | searchField | boost | range =>
      rfl

/--
A transformer whose only handler is for operations. The handler rebuilds its operation
and gives what is left of it.
-/
structure Collapser where
  settings : Settings
  accepts : ∀ kind, settings.listener ≠ .logging (some kind)
  handler : Handler
  collapses :
    ∀ (services : Services) (node : Node) (context : Context)
      (outcome : Except Failure Node),
      (services.rebuild node context).Yields (.forOperations handler) []
          (.ofExcept outcome) →
        (handler.body services node context).Collects
          (.forOperations handler)
          (outcome.map fun rebuilt => rebuilt.collapsed.map .node)

namespace Collapser

variable
  {collapser : Collapser}
  {tree : Node}
  {context : Context}
  {depth bound : Nat}

/-- The handlers of a collapser. -/
def handlers (collapser : Collapser) : HandlerMap Handler :=
  .forOperations collapser.handler

/-- The transformer that collapses operations. -/
def transformer (collapser : Collapser) : Walker :=
  .original .transformer collapser.settings

/-- A node is rebuilt from what comes of its children. -/
theorem rebuild_yields_collapseBelow
    {services : Services}
    (sameSettings : services.settings = collapser.settings)
    (isAt : context.IsAtDepth depth)
    (iterable : context.IsIterable collapser.settings)
    (within : depth + tree.height ≤ collapser.settings.maxDepth)
    (each :
      ∀ index child,
        tree.children[index]? = some child →
        (services.visitNode child
          (context.child collapser.settings tree (.ofNat index))).Collects
          collapser.handlers child.collapse) :
    (Walker.rebuild services tree context).Yields collapser.handlers []
      (.ofExcept tree.collapseBelow) := by
  have visited :=
    Walker.visitChildren_downTo sameSettings isAt (fun _ _ => iterable)
      fun index child isChild _ => each index child isChild
  have allAdmitted :
      (tree.children.map fun child =>
          collapser.settings.downTo (depth + 1) child.collapse) =
        tree.children.map Node.collapse := by
    apply List.map_congr_left
    intro child isChild
    have lower := Node.height_lt_of_mem_children isChild
    exact if_pos (.inl (by omega))
  rw [allAdmitted] at visited
  exact Walker.rebuild_yields visited

/-- A node gives what comes of it. -/
theorem visitNode_collects_collapse
    (isAt : context.IsAtDepth depth)
    (iterable : context.IsIterable collapser.settings)
    (within : depth + tree.height ≤ collapser.settings.maxDepth)
    (enough : 2 * tree.height + 1 < bound) :
    ((collapser.transformer.services bound).visitNode tree
      context).Collects collapser.handlers tree.collapse := by
  induction tree using Node.induction_on_children
    generalizing bound depth context with
  | step tree inductionHypothesis =>
      obtain ⟨bound, rfl⟩ : ∃ less, bound = less + 2 :=
        ⟨bound - 2, by omega⟩
      -- A handler calls back, so its children are visited with one less.
      have rebuilt (less : Nat) (most : bound ≤ less) :
          (Walker.rebuild (collapser.transformer.services less) tree
            context).Yields collapser.handlers []
            (.ofExcept tree.collapseBelow) := by
        apply rebuild_yields_collapseBelow
          (Walker.settings_services collapser.transformer less) isAt
          iterable within
        intro index child isChild
        have lower :=
          Node.height_lt_of_mem_children (List.mem_of_getElem? isChild)
        exact
          inductionHypothesis child (List.mem_of_getElem? isChild)
            (isAt.child collapser.settings tree (.ofNat index))
            (iterable.child tree (.ofNat index)) (by omega) (by omega)
      have resolved :=
        HandlerMap.resolve?_forOperations collapser.handler tree
      rw [Node.collapse_eq]
      change
        (collapser.transformer.visitNode
          (collapser.transformer.services (bound + 1)) tree
          context).Collects _ _
      cases operation : tree.isOperation with
      | true =>
          rw [operation, if_pos rfl] at resolved
          have given :=
            collapser.collapses
              (collapser.transformer.services (bound + 1)) tree context _
              (rebuilt bound (Nat.le_refl bound))
          exact Walker.visitNode_collects_of_resolved collapser.accepts
            resolved given
      | false =>
          rw [operation, if_neg Bool.false_ne_true] at resolved
          have given :
              ((collapser.transformer.callGeneric
                  (collapser.transformer.services (bound + 1)) tree
                  context).bind id).Collects collapser.handlers
                (tree.collapseBelow.bind fun result =>
                  .ok [.node result]) :=
            Walker.callGeneric_collects_of_transformer rfl rfl
              (rebuilt (bound + 1) (Nat.le_succ bound))
          exact Walker.visitNode_collects_of_missed collapser.accepts
            resolved given

/-- A traversal tells what comes of its tree. -/
theorem reply_collapse
    {session : Session}
    (isFor : session.walker = collapser.transformer)
    (standsFor : session.table.StandsFor collapser.handlers)
    (within : tree.height ≤ collapser.settings.maxDepth)
    (enough : 2 * tree.height + 1 < bound)
    {keys : Fields Value}
    (iterable : Chain.AreIterable collapser.settings keys) :
    (session.step bound (.traverse tree keys)).1.reply =
      .ofEnding .result
        (.ofExcept (tree.collapse.bind (Mode.outcome .transformer))) := by
  have collects :=
    visitNode_collects_collapse (.root collapser.settings keys) iterable
      (by rw [Nat.zero_add]; exact within) enough
  cases session with
  | mk walker callerHandlers table iterators =>
  subst isFor
  exact Session.reply_traverse standsFor collects

end Collapser

/-- Rebuild the node and give what is left of it. -/
def Handler.collapsing (eager : Bool) : Handler where
  eager := eager
  actions :=
    [.rebuild .node .nothing,
      .choose (.childCount .rebuilt (.ofNat 0)) []
        [.choose (.childCount .rebuilt (.ofNat 1))
          [.deliver (.child (.ofNat 0) .rebuilt)]
          [.deliver .rebuilt]]]

theorem Action.deliver_yields
    {handlers : HandlerMap Handler}
    (services : Services)
    {scope : Scope}
    {expression : Expression}
    {value : Value}
    (evaluated : expression.eval scope = .ok value) :
    ((Action.deliver expression).run services scope).Yields handlers
      [value] (.finished { scope := scope, failure := none }) := by
  rw [run, evaluated]
  exact Finish.effect_yields scope (.delivering value)

/-- Once the node is rebuilt, what is left of it is given. -/
theorem Handler.yields_collapsed
    {handlers : HandlerMap Handler}
    (services : Services)
    {scope : Scope}
    {rebuilt : Node}
    (isRebuilt : scope.rebuilt = .node rebuilt) :
    (Action.runAll services scope
        (Handler.collapsing false).actions.tail).Yields handlers
      (rebuilt.collapsed.map .node)
      (.finished { scope := scope, failure := none }) := by
  have evaluated : Expression.rebuilt.eval scope = .ok (.node rebuilt) :=
    congrArg Except.ok isRebuilt
  have firstChild :
      (Expression.child (.ofNat 0) .rebuilt).eval scope =
        .ok (rebuilt.childValue (.ofNat 0)) := by
    rw [Expression.eval, evaluated]
    rfl
  have counted (count : Nat) :
      (Condition.childCount .rebuilt (.ofNat count)).eval scope =
        .ok (decide (some count = some rebuilt.children.length)) := by
    rw [Condition.eval, evaluated]
    rfl
  rw [Node.collapsed]
  simp only [collapsing, List.tail_cons, Action.runAll_singleton,
    Action.run, counted]
  rcases children : rebuilt.children with _ | ⟨only, _ | ⟨second, rest⟩⟩
  · exact .done _
  · have isOnly : rebuilt.childValue (.ofNat 0) = .node only := by
      rw [Node.childValue, children]
      rfl
    rw [isOnly] at firstChild
    exact Action.deliver_yields services firstChild
  · exact Action.deliver_yields services evaluated

/-- Rebuilding the node fills a register, unless it fails. -/
theorem Action.rebuild_yields
    {handlers : HandlerMap Handler}
    {services : Services}
    {scope : Scope}
    {ending : Ending Node}
    (yields :
      (services.rebuild scope.node scope.context).Yields handlers []
        ending) :
    ((Action.rebuild .node .nothing).run services scope).Yields handlers []
      ((ending.map fun rebuilt =>
        { scope with rebuilt := .node rebuilt }).performed scope) := by
  apply Finish.perform_yields
  change
    ((services.rebuild scope.node scope.context).bind fun rebuilt =>
      .done { scope with rebuilt := .node rebuilt }).Yields handlers [] _
  cases ending with
  | finished rebuilt =>
      exact yields.bind (.done _)
  | failed failure =>
      exact yields.bind_failed
  | exhausted =>
      exact yields.bind_exhausted

/-- The handler gives what is left of the node, unless the node cannot be rebuilt. -/
theorem Handler.collapsing_collects
    {handlers : HandlerMap Handler}
    {services : Services}
    {node : Node}
    {context : Context}
    {outcome : Except Failure Node}
    (eager : Bool)
    (yields :
      (services.rebuild node context).Yields handlers []
        (.ofExcept outcome)) :
    ((Handler.collapsing eager).body services node context).Collects
      handlers (outcome.map fun rebuilt => rebuilt.collapsed.map .node) := by
  have rebuilds :
      ((Action.rebuild .node .nothing).run services
        (.start node context)).Yields handlers [] _ :=
    Action.rebuild_yields yields
  rw [body, collapsing, Action.runAll, Run.bind_bind]
  cases outcome with
  | error failure =>
      exact ⟨[], rebuilds.bind (.failed failure)⟩
  | ok rebuilt =>
      apply Run.Collects.follow rebuilds
      change Run.Yields handlers _ (rebuilt.collapsed.map Value.node) _
      rw [← List.append_nil (rebuilt.collapsed.map Value.node)]
      exact
        Run.Yields.bind (Handler.yields_collapsed services rfl) (.done ())

/-- The handler collapses its node, run lazily or all at once. -/
def Collapser.collapsing
    (settings : Settings)
    (accepts : ∀ kind, settings.listener ≠ .logging (some kind))
    (eager : Bool) :
    Collapser where
  settings := settings
  accepts := accepts
  handler := .collapsing eager
  collapses _ _ _ _ := Handler.collapsing_collects eager

namespace Session

/--
Collapsing brings trees into a normal form. It fails only for a hollow tree, of which
nothing is left, and for a tree where a node that takes a fixed number of children has a
hollow child. Otherwise every operation in the result has at least two operands; leaves
and the properties of all nodes that are no operations are what they were, in order; the
result is no higher, and collapsing it again changes nothing. What callers give under the
keys of chains that the transformer keeps track of is to be something to go on from.
-/
theorem collapsing_reaches_normal_form
    (collapser : Collapser)
    {tree : Node}
    (within : tree.height ≤ collapser.settings.maxDepth)
    {bound : Nat}
    (enough : 2 * tree.height + 1 < bound)
    {keys : Fields Value}
    (iterable : Chain.AreIterable collapser.settings keys) :
    let replies :=
      fun steps =>
        ((Session.create collapser.transformer collapser.handlers).answers
          bound steps).map Answer.reply
    (tree.isHollow = true →
        replies [.traverse tree keys] =
          [.refused (.transformArity (.ofNat 0) none)]) ∧
      ((∃ node ∈ tree.inOrder, node.LosesChild) →
        ∃ node ∈ tree.inOrder,
          node.LosesChild ∧
            ∃ arity actual,
              node.kind.arity? = some arity ∧
                actual < arity ∧
                replies [.traverse tree keys] =
                  [.refused
                    (.nodeArity node.kind (.ofNat arity)
                      (.ofNat actual))]) ∧
      (tree.isHollow = false →
        (∀ node ∈ tree.inOrder, ¬ node.LosesChild) →
        ∃ result : Node,
          result.IsNormal ∧
            result.leaves = tree.leaves ∧
            result.fixtures.map Node.properties =
              tree.fixtures.map Node.properties ∧
            result.height ≤ tree.height ∧
            ∀ laterKeys,
              Chain.AreIterable collapser.settings laterKeys →
              replies
                  [.traverse tree keys, .traverse result laterKeys] =
                [.result (.node result), .result (.node result)]) := by
  intro replies
  have told :
      replies [.traverse tree keys] =
        [.ofEnding .result
          (.ofExcept
            (tree.collapse.bind (Mode.outcome .transformer)))] :=
    congrArg ([·])
      (Collapser.reply_collapse rfl (.ofMap collapser.handlers) within
        enough iterable)
  refine ⟨?_, ?_, ?_⟩
  · intro hollow
    rw [told, Node.collapse_of_isHollow hollow]
    rfl
  · rintro ⟨broken, inTree, brokenLoses⟩
    have comes := tree.collapsesTo
    generalize tree.collapse = outcome at comes told
    cases comes with
    | left left whole =>
        exact absurd brokenLoses (whole broken inTree)
    | misfit member loses fixed fewer =>
        exact ⟨_, member, loses, _, _, fixed, fewer, told⟩
  · intro solid whole
    obtain ⟨result, comes, left⟩ := Node.exists_collapse_eq solid whole
    have normal := left.normal result (List.mem_singleton_self result)
    obtain ⟨origin, isTree, lower⟩ :=
      left.lower result (List.mem_singleton_self result)
    rw [List.mem_singleton.mp isTree] at lower
    refine ⟨result, normal, left.leaves_eq, left.fixtures_eq, lower, ?_⟩
    intro laterKeys laterIterable
    let session :=
      Session.create collapser.transformer collapser.handlers
    have toldAgain :=
      Collapser.reply_collapse
        (Session.walker_step bound session (.traverse tree keys))
        (Session.table_step bound (.ofMap collapser.handlers)
          (.traverse tree keys))
        (Nat.le_trans lower within)
        (by omega : 2 * result.height + 1 < bound) laterIterable
    rw [normal.collapse_eq_self] at toldAgain
    rw [comes] at told
    have toldFirst := List.singleton_inj.mp told
    exact
      congrArg₂ (fun first second => [first, second]) toldFirst toldAgain

/-- A transformer that collapses operations and goes three levels down. -/
def collapserToThirdLevel : Collapser :=
  .collapsing
    { trackParents := true
      trackNewParents := false
      trackPaths := true
      maxDepth := 3
      maxDepth_pos := Nat.zero_lt_succ 2
      listener := .logging none }
    (fun _ => nofun) true

/-- A group over operations, among which stands only one word. -/
def wordUnderOperations : Node :=
  .group .plain
    (.operation .and
      [.operation .or [.operation .unknown [] []] [],
        .operation .or [.term .word "a" [("note", .null)]] []]
      [("note", .null)])
    [("note", .null)]

/-- All that is left in the group is the word. -/
theorem collapsing_reaches_normal_form_wordUnderOperations :
    ∃ result : Node,
      result.IsNormal ∧
        result.leaves = [.term .word "a" [("note", .null)]] ∧
        ((Session.create collapserToThirdLevel.transformer
            collapserToThirdLevel.handlers).answers 8
            [.traverse wordUnderOperations [], .traverse result []]).map
            Answer.reply =
          [.result (.node result), .result (.node result)] := by
  have within :
      wordUnderOperations.height ≤
        collapserToThirdLevel.settings.maxDepth := by
    decide
  have enough : 2 * wordUnderOperations.height + 1 < 8 := by
    decide
  obtain ⟨-, -, reaches⟩ :=
    collapsing_reaches_normal_form collapserToThirdLevel within enough
      (rfl : Chain.AreIterable collapserToThirdLevel.settings [])
  have solid : wordUnderOperations.isHollow = false := by
    rfl
  have whole : ∀ node ∈ wordUnderOperations.inOrder, ¬ node.LosesChild := by
    decide
  obtain ⟨result, normal, sameLeaves, -, -, told⟩ := reaches solid whole
  exact ⟨result, normal, sameLeaves, told [] rfl⟩

end Session

end QueryWalk
