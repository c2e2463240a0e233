import QueryWalk.Node

namespace QueryWalk

/-!
# Numbers of children

A kind takes a fixed number of children, or any number. A node may be given other
children exactly where their number is one that its kind takes.
-/

/-- The number of children that a kind takes, none where it takes any number. -/
def NodeKind.arity? : NodeKind → Option Nat
  | .term _ | .noneItem => some 0
  | .group _ | .searchField | .approximation _ | .boost | .unary _ => some 1
  | .range => some 2
  | .operation _ => none

/-- Whether the nodes of a kind have no place for children. -/
def NodeKind.isLeaf : NodeKind → Bool
  | .term _ | .noneItem => true
  | .group _ | .searchField | .approximation _ | .boost | .range
  | .unary _ | .operation _ => false

namespace Node

variable {given : List Node}

/-- A node takes as many children as its kind does. -/
theorem withChildren_isOk
    {node : Node}
    (fits : ∀ arity, node.kind.arity? = some arity → given.length = arity) :
    ∃ result, node.withChildren given = .ok result := by
  cases node with
  | term kind value extra
  | noneItem extra =>
      have noneGiven : given = [] :=
        List.eq_nil_of_length_eq_zero (fits 0 rfl)
      subst noneGiven
      exact ⟨_, rfl⟩
  | operation kind operands extra =>
      exact ⟨_, rfl⟩
  | range low high includeLow includeHigh extra =>
      have two : given.length = 2 := fits 2 rfl
      rcases given with _ | ⟨newLow, _ | ⟨newHigh, _ | ⟨third, rest⟩⟩⟩
      · cases two
      · cases two
      · exact ⟨_, rfl⟩
      · cases two
  | group kind expr extra
  | searchField name expr extra
  | approximation kind expr degree extra
  | boost expr force extra
  | unary kind expr extra =>
      obtain ⟨only, rfl⟩ :=
        List.length_eq_one_iff.mp (fits 1 rfl)
      exact ⟨_, rfl⟩

/-- A node does not take another number of children than its kind does. -/
theorem withChildren_error
    {node : Node}
    {arity : Nat}
    (fixed : node.kind.arity? = some arity)
    (misfit : given.length ≠ arity) :
    node.withChildren given =
      .error
        (.nodeArity node.kind (.ofNat arity) (.ofNat given.length)) := by
  cases node with
  | operation kind operands extra =>
      cases fixed
  | term kind value extra
  | noneItem extra =>
      cases fixed
      cases given with
      | nil =>
          exact (misfit rfl).elim
      | cons first rest =>
          rfl
  | range low high includeLow includeHigh extra =>
      cases fixed
      rcases given with _ | ⟨newLow, _ | ⟨newHigh, _ | ⟨third, rest⟩⟩⟩
      · rfl
      · rfl
      · exact (misfit rfl).elim
      · rfl
  | group kind expr extra
  | searchField name expr extra
  | approximation kind expr degree extra
  | boost expr force extra
  | unary kind expr extra =>
      cases fixed
      rcases given with _ | ⟨only, _ | ⟨second, rest⟩⟩
      · rfl
      · exact (misfit rfl).elim
      · rfl

/-- A node takes exactly as many children as its kind does. -/
theorem exists_withChildren_iff
    {node : Node} :
    (∃ result, node.withChildren given = .ok result) ↔
      ∀ arity, node.kind.arity? = some arity → given.length = arity := by
  constructor
  · rintro ⟨result, built⟩ arity fixed
    by_cases fits : given.length = arity
    · exact fits
    · rw [withChildren_error fixed fits] at built
      cases built
  · exact withChildren_isOk

/-- A node has as many children as its kind takes. -/
theorem length_children_of_arity?
    {node : Node}
    {arity : Nat}
    (fixed : node.kind.arity? = some arity) :
    node.children.length = arity :=
  exists_withChildren_iff.mp ⟨node, withChildren_children node⟩ arity fixed

/-- Whether a node has no place for children. -/
def isLeaf (node : Node) : Bool :=
  node.kind.isLeaf

theorem children_of_isLeaf
    {node : Node}
    (leaf : node.isLeaf = true) :
    node.children = [] := by
  cases node with
  | term | noneItem =>
      rfl
  | group | searchField | approximation | boost | range | unary
  | operation =>
      cases leaf

/-- A leaf that is rebuilt is what it was. -/
theorem withChildren_of_isLeaf
    {node result : Node}
    (leaf : node.isLeaf = true)
    (built : node.withChildren given = .ok result) :
    result = node := by
  cases node with
  | term | noneItem =>
      cases given with
      | nil =>
          cases built
          rfl
      | cons first rest =>
          cases built
  | group | searchField | approximation | boost | range | unary
  | operation =>
      cases leaf

end Node

end QueryWalk
