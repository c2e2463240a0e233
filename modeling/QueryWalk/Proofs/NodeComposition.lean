import QueryWalk.Proofs.DeclaredProperties

namespace QueryWalk

/-!
# Composing nodes from their parts

The builder of a kind, given the attributes and the children of a node in the places of
its arguments, makes that node again, but for its undeclared properties. So a node
without such properties is nothing but its kind, its attributes and its children, and a
tree that is taken apart and put together again has all that its nodes declare.
-/

namespace Query

/--
The arguments of the builder of a kind, from the attributes and the children of a node. A
field has its name before its child; elsewhere the children come first.
-/
def argumentsFor
    (kind : NodeKind)
    (attributes : List Attribute)
    (children : List Node) :
    List Value :=
  let declared := attributes.map fun value => .data value.toData
  let below := children.map .node
  match kind with
  | .searchField => declared ++ below
  | _ => below ++ declared

end Query

namespace Node

/-- A node without undeclared properties of its own; its children keep theirs. -/
def bare : Node → Node
  | .term kind value _ => .term kind value []
  | .noneItem _ => .noneItem []
  | .group kind expr _ => .group kind expr []
  | .searchField name expr _ => .searchField name expr []
  | .approximation kind subject degree _ =>
      .approximation kind subject degree []
  | .boost expr force _ => .boost expr force []
  | .range low high includeLow includeHigh _ =>
      .range low high includeLow includeHigh []
  | .unary kind expr _ => .unary kind expr []
  | .operation kind operands _ => .operation kind operands []

@[simp] theorem kind_bare
    (node : Node) :
    node.bare.kind = node.kind := by
  cases node <;> rfl

@[simp] theorem attributes_bare
    (node : Node) :
    node.bare.attributes = node.attributes := by
  cases node <;> rfl

@[simp] theorem children_bare
    (node : Node) :
    node.bare.children = node.children := by
  cases node <;> rfl

/-- A stripped node has nothing left that could be taken off it. -/
@[simp] theorem bare_strip
    (node : Node) :
    node.strip.bare = node.strip := by
  cases node <;> simp only [strip, bare]

/-- The nodes of a list of values that are nodes. -/
theorem asNode_node
    (nodes : List Node) :
    (nodes.map Value.node).map Value.asNode = nodes := by
  rw [List.map_map]
  exact List.map_id nodes

/-- A builder makes a node from its parts, but for its undeclared properties. -/
theorem build_argumentsFor
    (node : Node) :
    Query.build node.kind
        (Query.argumentsFor node.kind node.attributes node.children) =
      node.bare := by
  cases node with
  | term kind value extra =>
      cases kind <;> rfl
  | group kind expr extra =>
      cases kind <;> rfl
  | approximation kind subject degree extra =>
      cases kind <;> rfl
  | unary kind expr extra =>
      cases kind <;> rfl
  | operation kind operands extra =>
      have operandsAre :
          (Query.argumentsFor (.operation kind) [] operands).map
              Value.asNode =
            operands := by
        simp only [Query.argumentsFor, List.map_nil, List.append_nil]
        exact asNode_node operands
      cases kind <;>
        exact congrArg (Node.operation _ · []) operandsAre
  | noneItem | searchField | boost | range =>
      rfl

/-- A stripped node is what the builder of its kind makes of its stripped parts. -/
theorem strip_eq_build
    (node : Node) :
    node.strip =
      Query.build node.kind
        (Query.argumentsFor node.kind node.attributes
          (node.children.map strip)) := by
  simpa using (build_argumentsFor node.strip).symm

/-- Stripped nodes are the same if they have the same parts. -/
theorem strip_eq_iff
    {left right : Node} :
    left.strip = right.strip ↔
      left.kind = right.kind ∧
        left.attributes = right.attributes ∧
        left.children.map strip = right.children.map strip := by
  constructor
  · intro same
    have sameKind := congrArg kind same
    have sameAttributes := congrArg attributes same
    have sameChildren := congrArg children same
    simp only [kind_strip, attributes_strip, children_strip] at *
    exact ⟨sameKind, sameAttributes, sameChildren⟩
  · rintro ⟨sameKind, sameAttributes, sameChildren⟩
    rw [strip_eq_build left, strip_eq_build right, sameKind,
      sameAttributes, sameChildren]

/--
A tree taken apart and put together again: the builders are applied to the attributes
of its nodes and to their children, which were put together before.
-/
def recompose (node : Node) : Node :=
  Query.build node.kind
    (Query.argumentsFor node.kind node.attributes
      (node.children.attach.map fun child => recompose child.1))
termination_by node.size
decreasing_by exact size_lt_of_mem_children child.2

theorem recompose_eq
    (node : Node) :
    node.recompose =
      Query.build node.kind
        (Query.argumentsFor node.kind node.attributes
          (node.children.map recompose)) := by
  rw [recompose, List.attach_map_val]

/-- A tree that is put together again has its declared properties and no others. -/
theorem recompose_eq_strip
    (tree : Node) :
    tree.recompose = tree.strip := by
  induction tree using Node.induction_on_children with
  | step node inductionHypothesis =>
      rw [recompose_eq, List.map_congr_left inductionHypothesis,
        ← strip_eq_build]

/-- A tree is stripped at once. -/
theorem strip_strip
    (tree : Node) :
    tree.strip.strip = tree.strip := by
  induction tree using Node.induction_on_children with
  | step node inductionHypothesis =>
      rw [strip_eq_iff]
      refine ⟨kind_strip node, attributes_strip node, ?_⟩
      rw [children_strip, List.map_map]
      exact List.map_congr_left inductionHypothesis

end Node

end QueryWalk
