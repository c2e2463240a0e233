import QueryWalk.Failure

namespace QueryWalk

/-!
# Query nodes

A query is a tree. Each constructor of `Node` declares the attributes and the
children of its kinds; `extra` holds whatever other properties a node carries,
which no operation here looks at. So nothing depends on what they are called: a
node that is read from data has none there that its kind declares. The three views
of a node are its kind, its attributes and its children, and `withChildren`
replaces the last of these.
-/

/-- A node of a query, with its undeclared properties in `extra`. -/
inductive Node where
  | term
      (kind : TermKind)
      (value : String)
      (extra : Fields Data)
  /-- The placeholder for an operand position that carries no value. -/
  | noneItem (extra : Fields Data)
  | group
      (kind : GroupKind)
      (expr : Node)
      (extra : Fields Data)
  | searchField
      (name : String)
      (expr : Node)
      (extra : Fields Data)
  | approximation
      (kind : ApproximationKind)
      (subject : Node)
      (degree : Number)
      (extra : Fields Data)
  | boost
      (expr : Node)
      (force : Number)
      (extra : Fields Data)
  | range
      (low high : Node)
      (includeLow includeHigh : Bool)
      (extra : Fields Data)
  | unary
      (kind : UnaryKind)
      (expr : Node)
      (extra : Fields Data)
  | operation
      (kind : OperationKind)
      (operands : List Node)
      (extra : Fields Data)

/-- The value of a declared attribute. -/
inductive Attribute where
  | text (value : String)
  | number (value : Number)
  | flag (value : Bool)
  deriving DecidableEq

namespace Attribute

/-- An attribute value as plain data. -/
def toData : Attribute → Data
  | .text value => .text value
  | .number value => .number value
  | .flag value => .flag value

/-- Written as plain data, attribute values stay apart. -/
theorem toData_injective : Function.Injective toData := by
  intro first second same
  cases first <;> cases second <;> cases same <;> rfl

end Attribute

namespace Node

instance : Inhabited Node := ⟨.noneItem []⟩

/-- What a node is. -/
def kind : Node → NodeKind
  | .term kind .. => .term kind
  | .noneItem .. => .noneItem
  | .group kind .. => .group kind
  | .searchField .. => .searchField
  | .approximation kind .. => .approximation kind
  | .boost .. => .boost
  | .range .. => .range
  | .unary kind .. => .unary kind
  | .operation kind .. => .operation kind

/-- The undeclared properties of a node. -/
def extra : Node → Fields Data
  | .term _ _ extra => extra
  | .noneItem extra => extra
  | .group _ _ extra => extra
  | .searchField _ _ extra => extra
  | .approximation _ _ _ extra => extra
  | .boost _ _ extra => extra
  | .range _ _ _ _ extra => extra
  | .unary _ _ extra => extra
  | .operation _ _ extra => extra

/-- The children of a node, in order. -/
def children : Node → List Node
  | .term .. | .noneItem .. => []
  | .group _ expr _ => [expr]
  | .searchField _ expr _ => [expr]
  | .approximation _ subject _ _ => [subject]
  | .boost expr _ _ => [expr]
  | .range low high _ _ _ => [low, high]
  | .unary _ expr _ => [expr]
  | .operation _ operands _ => operands

/-- The declared attributes of a node other than its children, in order. -/
def attributes : Node → List Attribute
  | .term _ value _ => [.text value]
  | .searchField name _ _ => [.text name]
  | .approximation _ _ degree _ => [.number degree]
  | .boost _ force _ => [.number force]
  | .range _ _ includeLow includeHigh _ =>
      [.flag includeLow, .flag includeHigh]
  | .noneItem .. | .group .. | .unary .. | .operation .. => []

/-- Whether a node belongs to a type. -/
def isOfType (node : Node) (type : NodeType) : Bool :=
  type.includes node.kind

/-- The failure of giving a kind a number of children it does not take. -/
def arityFailure
    (kind : NodeKind)
    (expected : Nat)
    (given : List Node) :
    Failure :=
  .nodeArity kind (.ofNat expected) (.ofNat given.length)

/-- The only element of a list of children. -/
def onlyChild (kind : NodeKind) : List Node → Except Failure Node
  | [only] => .ok only
  | given => .error (arityFailure kind 1 given)

/--
The node with other children. Everything else about it stays, its undeclared
properties included.
-/
def withChildren (node : Node) (given : List Node) : Except Failure Node :=
  match node with
  | .term .. | .noneItem .. =>
      if given.isEmpty then
        .ok node
      else
        .error (arityFailure node.kind 0 given)
  | .group kind _ extra =>
      (onlyChild node.kind given).map fun expr =>
        .group kind expr extra
  | .searchField name _ extra =>
      (onlyChild node.kind given).map fun expr =>
        .searchField name expr extra
  | .approximation kind _ degree extra =>
      (onlyChild node.kind given).map fun subject =>
        .approximation kind subject degree extra
  | .boost _ force extra =>
      (onlyChild node.kind given).map fun expr =>
        .boost expr force extra
  | .range _ _ includeLow includeHigh extra =>
      match given with
      | [low, high] => .ok (.range low high includeLow includeHigh extra)
      | _ => .error (arityFailure node.kind 2 given)
  | .unary kind _ extra =>
      (onlyChild node.kind given).map fun expr =>
        .unary kind expr extra
  | .operation kind _ extra =>
      .ok (.operation kind given extra)

mutual

/-- The number of nodes of a tree. -/
def size : Node → Nat
  | .term .. | .noneItem .. => 1
  | .group _ expr _ => expr.size + 1
  | .searchField _ expr _ => expr.size + 1
  | .approximation _ subject _ _ => subject.size + 1
  | .boost expr _ _ => expr.size + 1
  | .range low high _ _ _ => low.size + high.size + 1
  | .unary _ expr _ => expr.size + 1
  | .operation _ operands _ => sizeOfAll operands + 1

/-- The number of nodes of several trees. -/
def sizeOfAll : List Node → Nat
  | [] => 0
  | node :: rest => node.size + sizeOfAll rest

end

/-- A member of a list of trees has at most as many nodes as all of them. -/
theorem size_le_sizeOfAll
    {node : Node}
    {nodes : List Node}
    (member : node ∈ nodes) :
    node.size ≤ sizeOfAll nodes := by
  induction nodes with
  | nil =>
      cases member
  | cons first rest inductionHypothesis =>
      simp only [sizeOfAll]
      rcases List.mem_cons.mp member with isFirst | inRest
      · subst isFirst
        exact Nat.le_add_right node.size (sizeOfAll rest)
      · exact Nat.le_trans
          (inductionHypothesis inRest)
          (Nat.le_add_left (sizeOfAll rest) first.size)

/-- A child has fewer nodes than its parent. -/
theorem size_lt_of_mem_children
    {child node : Node}
    (member : child ∈ node.children) :
    child.size < node.size := by
  cases node with
  | term kind value extra =>
      cases member
  | noneItem extra =>
      cases member
  | range low high includeLow includeHigh extra =>
      simp only [children, List.mem_cons, List.not_mem_nil,
        or_false] at member
      simp only [size]
      rcases member with isLow | isHigh
      · subst isLow
        omega
      · subst isHigh
        omega
  | operation kind operands extra =>
      exact Nat.lt_succ_of_le (size_le_sizeOfAll member)
  | group kind expr extra
  | searchField name expr extra
  | approximation kind expr degree extra
  | boost expr force extra
  | unary kind expr extra =>
      simp only [children, List.mem_cons, List.not_mem_nil,
        or_false] at member
      subst member
      exact Nat.lt_succ_self child.size

/-- A property that passes from all children to their parent holds of all trees. -/
theorem induction_on_children
    {property : Node → Prop}
    (step :
      ∀ node,
        (∀ child, child ∈ node.children → property child) →
        property node)
    (node : Node) :
    property node :=
  step node fun child _member =>
    induction_on_children step child
termination_by node.size
decreasing_by exact size_lt_of_mem_children _member

/-- Giving a node its own children changes nothing. -/
theorem withChildren_children
    (node : Node) :
    node.withChildren node.children = .ok node := by
  cases node <;> rfl

/-- The children given to a node are the children it has afterwards. -/
theorem children_of_withChildren
    {node result : Node}
    {given : List Node}
    (built : node.withChildren given = .ok result) :
    result.children = given := by
  cases node with
  | term kind value extra
  | noneItem extra =>
      cases given with
      | nil =>
          cases built
          rfl
      | cons first rest =>
          cases built
  | operation kind operands extra =>
      cases built
      rfl
  | range low high includeLow includeHigh extra =>
      rcases given with _ | ⟨newLow, _ | ⟨newHigh, _ | ⟨third, rest⟩⟩⟩ <;>
        cases built
      rfl
  | group kind expr extra
  | searchField name expr extra
  | approximation kind expr degree extra
  | boost expr force extra
  | unary kind expr extra =>
      rcases given with _ | ⟨only, _ | ⟨second, rest⟩⟩ <;>
        cases built
      rfl

/-- Whether two nodes have one kind, equal attributes and equal children. -/
def equivalent (left right : Node) : Bool :=
  decide (left.kind = right.kind) &&
    decide (left.attributes = right.attributes) &&
    decide (left.children.length = right.children.length) &&
    (left.children.attach.zip right.children).all fun pair =>
      equivalent pair.1.1 pair.2
termination_by left.size
decreasing_by exact size_lt_of_mem_children pair.1.2

/-- Equality of trees compares two nodes and then their children in pairs. -/
theorem equivalent_eq
    (left right : Node) :
    left.equivalent right =
      (decide (left.kind = right.kind) &&
        decide (left.attributes = right.attributes) &&
        decide (left.children.length = right.children.length) &&
        (left.children.zip right.children).all fun pair =>
          pair.1.equivalent pair.2) := by
  rw [equivalent]
  congr 1
  conv =>
    rhs
    rw [← List.attach_map_subtype_val left.children]
  rw [List.zip_map_left, List.all_map]
  rfl

end Node

end QueryWalk
