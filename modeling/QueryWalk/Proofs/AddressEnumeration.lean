import Mathlib.Data.List.Lex
import Mathlib.Data.Nat.Basic
import QueryWalk.Proofs.TreeAddresses

namespace QueryWalk

/-!
# All addresses of a tree

The addresses of a tree are put in a list, the address of a node before those
of its children and these from left to right. The list holds the valid
addresses and nothing else, in increasing lexicographic order. In a tree that
is too high for a limit, the addresses up to the first that is too long are
those before it in that order.
-/

namespace Node

mutual

/-- The addresses of a tree, parents first and children from left to right. -/
def addresses : Node → List (List Nat)
  | .term .. | .noneItem .. => [[]]
  | .group _ expr _ => [] :: expr.addresses.map (0 :: ·)
  | .searchField _ expr _ => [] :: expr.addresses.map (0 :: ·)
  | .approximation _ subject _ _ => [] :: subject.addresses.map (0 :: ·)
  | .boost expr _ _ => [] :: expr.addresses.map (0 :: ·)
  | .range low high _ _ _ =>
      [] :: (low.addresses.map (0 :: ·) ++ high.addresses.map (1 :: ·))
  | .unary _ expr _ => [] :: expr.addresses.map (0 :: ·)
  | .operation _ operands _ => [] :: addressesFrom 0 operands

/-- The addresses below siblings, which are counted from an index on. -/
def addressesFrom : Nat → List Node → List (List Nat)
  | _, [] => []
  | index, node :: rest =>
      node.addresses.map (index :: ·) ++ addressesFrom (index + 1) rest

end

mutual

/-- The length of the longest way down from the root of a tree. -/
def height : Node → Nat
  | .term .. | .noneItem .. => 0
  | .group _ expr _ => expr.height + 1
  | .searchField _ expr _ => expr.height + 1
  | .approximation _ subject _ _ => subject.height + 1
  | .boost expr _ _ => expr.height + 1
  | .range low high _ _ _ => max (low.height + 1) (high.height + 1)
  | .unary _ expr _ => expr.height + 1
  | .operation _ operands _ => heightAbove operands

/-- The height of a node with some children. -/
def heightAbove : List Node → Nat
  | [] => 0
  | node :: rest => max (node.height + 1) (heightAbove rest)

end

theorem addresses_eq
    (tree : Node) :
    tree.addresses = [] :: addressesFrom 0 tree.children := by
  cases tree <;> simp [addresses, addressesFrom, children]

theorem height_eq
    (tree : Node) :
    tree.height = heightAbove tree.children := by
  cases tree <;> simp [height, heightAbove, children]

theorem heightAbove_le_iff
    {nodes : List Node}
    {bound : Nat} :
    heightAbove nodes ≤ bound ↔ ∀ node ∈ nodes, node.height < bound := by
  induction nodes with
  | nil =>
      simp [heightAbove]
  | cons node rest inductionHypothesis =>
      simp only [heightAbove, Nat.max_le, inductionHypothesis,
        List.forall_mem_cons, Nat.add_one_le_iff]

/-- A child is lower than its parent. -/
theorem height_lt_of_mem_children
    {child tree : Node}
    (member : child ∈ tree.children) :
    child.height < tree.height := by
  have bounded : heightAbove tree.children ≤ tree.height :=
    Nat.le_of_eq (height_eq tree).symm
  exact heightAbove_le_iff.mp bounded child member

/-- A tree has no level below its root if its root has no children. -/
theorem height_eq_zero_iff
    {tree : Node} :
    tree.height = 0 ↔ tree.children = [] := by
  constructor
  · intro flat
    rw [List.eq_nil_iff_forall_not_mem]
    intro child member
    have lower := height_lt_of_mem_children member
    omega
  · intro childless
    rw [height_eq, childless]
    rfl

/-- An address below siblings begins with the index of one of them. -/
theorem mem_addressesFrom
    {first : Nat}
    {nodes : List Node}
    {address : List Nat} :
    address ∈ addressesFrom first nodes ↔
      ∃ place node rest,
        nodes[place]? = some node ∧
          address = (first + place) :: rest ∧
          rest ∈ node.addresses := by
  induction nodes generalizing first with
  | nil =>
      simp [addressesFrom]
  | cons node later inductionHypothesis =>
      simp only [addressesFrom, List.mem_append, List.mem_map,
        inductionHypothesis]
      constructor
      · rintro (⟨rest, member, rfl⟩ | ⟨place, other, rest, isThere, rfl, member⟩)
        · exact ⟨0, node, rest, rfl, rfl, member⟩
        · refine ⟨place + 1, other, rest, isThere, ?_, member⟩
          rw [Nat.add_assoc, Nat.add_comm 1 place]
      · rintro ⟨place, other, rest, isThere, rfl, member⟩
        cases place with
        | zero =>
            cases isThere
            exact .inl ⟨rest, member, rfl⟩
        | succ place =>
            refine .inr ⟨place, other, rest, isThere, ?_, member⟩
            rw [Nat.add_assoc, Nat.add_comm 1 place]

/-- The list holds the valid addresses and nothing else. -/
theorem mem_addresses
    {tree : Node}
    {address : List Nat} :
    address ∈ tree.addresses ↔ (tree.at? address).isSome := by
  induction address generalizing tree with
  | nil =>
      simp [addresses_eq]
  | cons index rest inductionHypothesis =>
      rw [addresses_eq, List.mem_cons, mem_addressesFrom]
      simp only [reduceCtorEq, false_or, Nat.zero_add, List.cons.injEq]
      constructor
      · rintro ⟨place, child, _, isChild, ⟨rfl, rfl⟩, member⟩
        rw [at?_cons isChild]
        exact inductionHypothesis.mp member
      · intro valid
        cases isChild : tree.children[index]? with
        | none =>
            simp [at?, isChild] at valid
        | some child =>
            rw [at?_cons isChild] at valid
            exact ⟨index, child, rest, isChild, ⟨rfl, rfl⟩,
              inductionHypothesis.mpr valid⟩

/-- The addresses below siblings come in order where those of each do. -/
theorem pairwise_addressesFrom
    {first : Nat}
    {nodes : List Node}
    (each : ∀ node ∈ nodes, node.addresses.Pairwise (· < ·)) :
    (addressesFrom first nodes).Pairwise (· < ·) := by
  induction nodes generalizing first with
  | nil =>
      exact .nil
  | cons node rest inductionHypothesis =>
      rw [List.forall_mem_cons] at each
      rw [addressesFrom, List.pairwise_append]
      refine ⟨?_, inductionHypothesis each.2, ?_⟩
      · rw [List.pairwise_map]
        exact each.1.imp fun less => List.cons_lt_cons_self.mpr less
      · intro earlier inNode later inRest
        obtain ⟨below, _, rfl⟩ := List.mem_map.mp inNode
        obtain ⟨place, _, further, _, rfl, _⟩ :=
          mem_addressesFrom.mp inRest
        apply List.cons_lt_cons_iff.mpr
        left
        omega

/-- The addresses of a tree come in increasing order, so each comes once. -/
theorem pairwise_addresses
    (tree : Node) :
    tree.addresses.Pairwise (· < ·) := by
  induction tree using induction_on_children with
  | step tree inductionHypothesis =>
      rw [addresses_eq, List.pairwise_cons]
      refine ⟨?_, pairwise_addressesFrom inductionHypothesis⟩
      intro address member
      obtain ⟨place, _, rest, _, rfl, _⟩ := mem_addressesFrom.mp member
      exact List.nil_lt_cons _ _

/-- A valid address is no longer than the tree is high. -/
theorem length_le_height
    {tree : Node}
    {address : List Nat}
    (valid : (tree.at? address).isSome) :
    address.length ≤ tree.height := by
  induction address generalizing tree with
  | nil =>
      exact Nat.zero_le _
  | cons index rest inductionHypothesis =>
      cases isChild : tree.children[index]? with
      | none =>
          simp [at?, isChild] at valid
      | some child =>
          rw [at?_cons isChild] at valid
          have lower :=
            height_lt_of_mem_children (List.mem_of_getElem? isChild)
          exact Nat.lt_of_le_of_lt (inductionHypothesis valid) lower

/-- A tree has addresses of every length up to its height. -/
theorem exists_at?_of_le_height
    {tree : Node}
    {length : Nat}
    (low : length ≤ tree.height) :
    ∃ address : List Nat,
      (tree.at? address).isSome ∧ address.length = length := by
  induction length generalizing tree with
  | zero =>
      exact ⟨[], rfl, rfl⟩
  | succ length inductionHypothesis =>
      have notLower : ¬ heightAbove tree.children ≤ length := by
        rw [← height_eq]
        exact Nat.not_le.mpr low
      rw [heightAbove_le_iff] at notLower
      simp only [not_forall, Nat.not_lt] at notLower
      obtain ⟨child, member, highEnough⟩ := notLower
      obtain ⟨rest, valid, sameLength⟩ := inductionHypothesis highEnough
      obtain ⟨index, isChild⟩ := List.mem_iff_getElem?.mp member
      refine ⟨index :: rest, ?_, congrArg Nat.succ sameLength⟩
      rw [at?_cons isChild]
      exact valid

/-- The beginning of a valid address is valid. -/
theorem isSome_at?_take
    {tree : Node}
    {address : List Nat}
    (valid : (tree.at? address).isSome)
    (length : Nat) :
    (tree.at? (address.take length)).isSome := by
  rw [← List.take_append_drop length address, at?_append] at valid
  exact Option.isSome_of_isSome_bind valid

/--
Where a list in increasing order is cut at the first element that fails a test,
the elements before the cut are those less than this one.
-/
theorem exists_cut
    {addresses : List (List Nat)}
    (ordered : addresses.Pairwise (· < ·))
    {allowed : List Nat → Bool}
    (someFails : addresses.all allowed = false) :
    ∃ first ∈ addresses,
      allowed first = false ∧
        (∀ other ∈ addresses, allowed other = false → first ≤ other) ∧
        addresses.takeWhile allowed =
          addresses.filter fun other => other < first := by
  induction addresses with
  | nil =>
      cases someFails
  | cons address rest inductionHypothesis =>
      obtain ⟨least, orderedRest⟩ := List.pairwise_cons.mp ordered
      cases test : allowed address with
      | false =>
          refine ⟨address, List.mem_cons_self, test, ?_, ?_⟩
          · intro other member _
            rcases List.mem_cons.mp member with isFirst | inRest
            · rw [isFirst]
            · exact le_of_lt (least other inRest)
          · have noneLess :
                ∀ other ∈ address :: rest, ¬ other < address := by
              intro other member
              rcases List.mem_cons.mp member with isFirst | inRest
              · rw [isFirst]
                exact lt_irrefl address
              · exact lt_asymm (least other inRest)
            rw [List.takeWhile_cons_of_neg (by simp [test]), eq_comm,
              List.filter_eq_nil_iff]
            simpa using noneLess
      | true =>
          have restFails : rest.all allowed = false := by
            simpa [test] using someFails
          obtain ⟨first, member, fails, isFirst, cut⟩ :=
            inductionHypothesis orderedRest restFails
          refine
            ⟨first, List.mem_cons_of_mem address member, fails, ?_, ?_⟩
          · intro other memberOther failsOther
            rcases List.mem_cons.mp memberOther with isAddress | inRest
            · rw [isAddress, test] at failsOther
              cases failsOther
            · exact isFirst other inRest failsOther
          · rw [List.takeWhile_cons_of_pos test, cut,
              List.filter_cons_of_pos (by simpa using least first member)]

/--
In a tree that is higher than a limit there is a first address that is one too
long, and the addresses up to the first that exceeds the limit are those before
it.
-/
theorem exists_first_of_lt_height
    {tree : Node}
    {limit : Nat}
    (tooHigh : limit < tree.height) :
    ∃ first : List Nat,
      (tree.at? first).isSome ∧
        first.length = limit + 1 ∧
        (∀ other : List Nat,
          (tree.at? other).isSome →
          other.length = limit + 1 →
          first ≤ other) ∧
        (tree.addresses.takeWhile fun address =>
            address.length ≤ limit) =
          tree.addresses.filter fun address => address < first := by
  obtain ⟨long, validLong, lengthLong⟩ := exists_at?_of_le_height tooHigh
  have someFails :
      (tree.addresses.all fun address => address.length ≤ limit) =
        false := by
    rw [List.all_eq_false]
    refine ⟨long, mem_addresses.mpr validLong, ?_⟩
    simp [lengthLong]
  obtain ⟨first, member, fails, isFirst, cut⟩ :=
    exists_cut (pairwise_addresses tree) someFails
  have valid := mem_addresses.mp member
  have tooLong : limit < first.length := by
    simpa using fails
  have isLeast :
      ∀ other : List Nat,
        (tree.at? other).isSome →
        limit < other.length →
        first ≤ other := by
    intro other validOther long
    exact isFirst other (mem_addresses.mpr validOther) (by simpa using long)
  -- The beginning of the first address is too long already.
  have beginning : first ≤ first.take (limit + 1) := by
    apply isLeast _ (isSome_at?_take valid _)
    rw [List.length_take, Nat.min_eq_left tooLong]
    exact Nat.lt_succ_self limit
  have notLess : ¬ first < first.take (limit + 1) :=
    (List.take_prefix (limit + 1) first).le
  have isBeginning : first = first.take (limit + 1) :=
    le_antisymm beginning (not_lt.mp notLess)
  have sameLength : first.length = limit + 1 := by
    rw [isBeginning, List.length_take, Nat.min_eq_left tooLong]
  refine ⟨first, valid, sameLength, ?_, cut⟩
  intro other validOther lengthOther
  exact isLeast other validOther (by omega)

end Node

end QueryWalk
