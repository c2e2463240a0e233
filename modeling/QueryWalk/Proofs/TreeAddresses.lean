import Mathlib.Data.List.Basic
import QueryWalk.Node

namespace QueryWalk

/-!
# Addresses in a tree

An address is a list of child indices, read from the root of a tree. It is valid
where every index has a child. The nodes above an address are those at its
proper prefixes, the root first.
-/

namespace Node

/-- The node at an address, where the address is valid. -/
def at? (tree : Node) : List Nat → Option Node
  | [] => some tree
  | index :: rest => tree.children[index]?.bind fun child => child.at? rest

/-- The nodes at the proper prefixes of an address, the root first. -/
def above (tree : Node) (address : List Nat) : List Node :=
  (List.range address.length).filterMap fun length =>
    tree.at? (address.take length)

@[simp] theorem at?_nil
    (tree : Node) :
    tree.at? [] = some tree :=
  rfl

@[simp] theorem above_nil
    (tree : Node) :
    tree.above [] = [] :=
  rfl

/-- A longer address goes on from the node at its beginning. -/
theorem at?_append
    (tree : Node)
    (first second : List Nat) :
    tree.at? (first ++ second) =
      (tree.at? first).bind fun node => node.at? second := by
  induction first generalizing tree with
  | nil =>
      rfl
  | cons index rest inductionHypothesis =>
      simp only [List.cons_append, at?, inductionHypothesis,
        Option.bind_assoc]

/-- The child of the node at an address has the address one index longer. -/
theorem at?_append_singleton
    {tree node child : Node}
    {address : List Nat}
    {index : Nat}
    (isThere : tree.at? address = some node)
    (isChild : node.children[index]? = some child) :
    tree.at? (address ++ [index]) = some child := by
  simp [at?_append, isThere, at?, isChild]

/-- The node at an address is the last one above the addresses of its children. -/
theorem above_append_singleton
    {tree node : Node}
    {address : List Nat}
    (isThere : tree.at? address = some node)
    (index : Nat) :
    tree.above (address ++ [index]) = tree.above address ++ [node] := by
  have sameBefore :
      ∀ length ∈ List.range address.length,
        tree.at? ((address ++ [index]).take length) =
          tree.at? (address.take length) := by
    intro length member
    rw [List.take_append_of_le_length
      (Nat.le_of_lt (List.mem_range.mp member))]
  simp only [above, List.length_append, List.length_singleton,
    List.range_succ, List.filterMap_append, List.filterMap_cons,
    List.filterMap_nil, List.take_left, isThere]
  rw [List.filterMap_congr sameBefore]

/-- A child is at a shorter address in its parent than in the tree. -/
theorem at?_cons
    {tree child : Node}
    {index : Nat}
    (isChild : tree.children[index]? = some child)
    (rest : List Nat) :
    tree.at? (index :: rest) = child.at? rest := by
  simp [at?, isChild]

/-- The root stands above what is above a node in the child. -/
theorem above_cons
    {tree child : Node}
    {index : Nat}
    (isChild : tree.children[index]? = some child)
    (rest : List Nat) :
    tree.above (index :: rest) = tree :: child.above rest := by
  have below :
      ∀ length ∈ List.range rest.length,
        tree.at? ((index :: rest).take (length + 1)) =
          child.at? (rest.take length) :=
    fun length _ => at?_cons isChild (rest.take length)
  simp only [above, List.length_cons, List.range_succ_eq_map,
    List.filterMap_cons, List.take_zero, at?_nil, List.filterMap_map]
  exact congrArg (tree :: ·) (List.filterMap_congr below)

/-- Some nodes are children of a node, one after the other from an index on. -/
def HasFrom (tree : Node) (first : Nat) (nodes : List Node) : Prop :=
  ∀ place child,
    nodes[place]? = some child →
    tree.children[first + place]? = some child

/-- The children of a node are its children from the first index on. -/
theorem hasFrom_zero
    (tree : Node) :
    tree.HasFrom 0 tree.children := by
  intro place child isChild
  rw [Nat.zero_add]
  exact isChild

namespace HasFrom

variable
  {tree child : Node}
  {first : Nat}
  {rest : List Node}

/-- The first of the nodes is the child at the index. -/
theorem head
    (areChildren : tree.HasFrom first (child :: rest)) :
    tree.children[first]? = some child :=
  areChildren 0 child rfl

/-- The others are children from the next index on. -/
theorem tail
    (areChildren : tree.HasFrom first (child :: rest)) :
    tree.HasFrom (first + 1) rest := by
  intro place later isLater
  rw [Nat.add_assoc, Nat.add_comm 1 place]
  exact areChildren (place + 1) later isLater

end HasFrom

end Node

end QueryWalk
