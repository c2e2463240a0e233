import Mathlib.Data.List.Forall2
import QueryWalk.Proofs.CarriedProperties
import QueryWalk.Proofs.NodeArity
import QueryWalk.Proofs.NodeComposition
import QueryWalk.Proofs.NumberPatterns
import QueryWalk.Proofs.TreeAddresses

namespace QueryWalk

/-!
# Equality of declared trees

Two trees are equal in what their nodes declare exactly if they are the same tree once
they are stripped. Equality may be decided step by step, by the first difference that is
met, and where both trees hold one and the same node there is no need to look into it.
-/

namespace Node

/-- Nodes of one kind have the same number of attributes. -/
theorem length_attributes_eq
    {left right : Node}
    (sameKind : left.kind = right.kind) :
    left.attributes.length = right.attributes.length := by
  have counted (node : Node) :
      node.attributes.length =
        match node.kind with
        | .term _ | .searchField | .approximation _ | .boost => 1
        | .range => 2
        | .noneItem | .group _ | .unary _ | .operation _ => 0 := by
    cases node <;> rfl
  rw [counted left, counted right, sameKind]

/-- Nodes are equal if their kinds, their attributes and, in pairs, their children are. -/
theorem equivalent_iff
    {left right : Node} :
    left.equivalent right = true ↔
      left.kind = right.kind ∧
        left.attributes = right.attributes ∧
        List.Forall₂ (fun child other => child.equivalent other = true)
          left.children right.children := by
  rw [equivalent_eq, List.forall₂_iff_zip]
  simp only [Bool.and_eq_true, decide_eq_true_eq, List.all_eq_true,
    Prod.forall, and_assoc]

/-- Nodes are equal in what they declare if they are the same, stripped. -/
theorem equivalent_iff_strip_eq
    {left right : Node} :
    left.equivalent right = true ↔ left.strip = right.strip := by
  induction left using Node.induction_on_children generalizing right with
  | step left inductionHypothesis =>
      rw [equivalent_iff, strip_eq_iff]
      apply and_congr_right'
      apply and_congr_right'
      generalize left.children = children at inductionHypothesis
      generalize right.children = others
      induction children generalizing others with
      | nil =>
          cases others <;> simp
      | cons child rest further =>
          cases others with
          | nil =>
              simp
          | cons other others =>
              rw [List.forall₂_cons, List.map_cons, List.map_cons,
                List.cons.injEq,
                inductionHypothesis child List.mem_cons_self,
                further fun later member =>
                  inductionHypothesis later
                    (List.mem_cons_of_mem child member)]

/--
Equality of two trees, decided step by step. At the addresses in `shared` the trees hold
one and the same node, which is not looked into. Otherwise the first difference decides:
of the kinds, of an attribute, of the numbers of children or of a child.
-/
def equivalentSkipping
    (shared : List Nat → Bool)
    (left right : Node) :
    Bool :=
  if shared [] then
    true
  else if left.kind ≠ right.kind then
    false
  else if
      !left.attributes.zipIdx.all fun (value, place) =>
        decide (right.attributes[place]? = some value)
    then
    false
  else if left.children.length ≠ right.children.length then
    false
  else
    left.children.attach.zipIdx.all fun (child, place) =>
      match right.children[place]? with
      | none => false
      | some other =>
          equivalentSkipping
            (fun address => shared (place :: address)) child.1 other
termination_by left.size
decreasing_by exact size_lt_of_mem_children child.2

/-- Both trees hold the same at the addresses at which they share a node. -/
def Share (shared : List Nat → Bool) (left right : Node) : Prop :=
  ∀ address, shared address = true → left.at? address = right.at? address

variable
  {shared : List Nat → Bool}
  {left right : Node}

/-- Trees share below their children what they share further below. -/
theorem Share.child
    {child other : Node}
    {place : Nat}
    (share : Share shared left right)
    (isChild : left.children[place]? = some child)
    (isOther : right.children[place]? = some other) :
    Share (fun address => shared (place :: address)) child other := by
  intro address isShared
  have same := share (place :: address) isShared
  rw [at?_cons isChild, at?_cons isOther] at same
  exact same

/--
Where the kinds are the same, an attribute of the left node that the right node does not
have in its place is the only way in which the attributes can differ.
-/
theorem all_attributes_iff
    (sameKind : left.kind = right.kind) :
    (left.attributes.zipIdx.all fun (value, place) =>
        decide (right.attributes[place]? = some value)) = true ↔
      left.attributes = right.attributes := by
  have sameLength := length_attributes_eq sameKind
  simp only [List.all_eq_true, Prod.forall, decide_eq_true_eq,
    List.mk_mem_zipIdx_iff_getElem?]
  constructor
  · intro found
    apply List.ext_getElem?
    intro place
    by_cases within : place < left.attributes.length
    · have isThere := List.getElem?_eq_getElem within
      rw [isThere, found _ place isThere]
    · have beyond := Nat.le_of_not_lt within
      rw [List.getElem?_eq_none beyond,
        List.getElem?_eq_none (sameLength ▸ beyond)]
  · intro same value place isThere
    rw [← same]
    exact isThere

/-- Children compared with those in their places on the other side. -/
theorem all_children_iff
    (check : Nat → Node → Node → Bool)
    (sameLength : left.children.length = right.children.length) :
    (left.children.attach.zipIdx.all fun (child, place) =>
        match right.children[place]? with
        | none => false
        | some other => check place child.1 other) = true ↔
      ∀ place within withinOther,
        check place (left.children.get ⟨place, within⟩)
          (right.children.get ⟨place, withinOther⟩) = true := by
  rw [List.all_eq_true]
  constructor
  · intro checked place within withinOther
    have isThere :
        left.children.attach[place]? =
          some ⟨left.children[place], List.getElem_mem within⟩ := by
      simp [within]
    have further := checked _ (List.mk_mem_zipIdx_iff_getElem?.mpr isThere)
    simpa [withinOther] using further
  · rintro each ⟨child, place⟩ isThere
    obtain ⟨attached, isChild⟩ :=
      List.getElem?_eq_some_iff.mp
        (List.mk_mem_zipIdx_iff_getElem?.mp isThere)
    have within : place < left.children.length :=
      List.length_attach ▸ attached
    have withinOther : place < right.children.length :=
      sameLength ▸ within
    subst isChild
    simpa [withinOther] using each place within withinOther

/--
Where two trees do not share their roots, they are equal step by step if their kinds,
their attributes and, step by step again, their children are.
-/
theorem equivalentSkipping_iff
    (apart : shared [] = false) :
    left.equivalentSkipping shared right = true ↔
      left.kind = right.kind ∧
        left.attributes = right.attributes ∧
        left.children.length = right.children.length ∧
        ∀ place within withinOther,
          equivalentSkipping
              (fun address => shared (place :: address))
              (left.children.get ⟨place, within⟩)
              (right.children.get ⟨place, withinOther⟩) =
            true := by
  by_cases sameKind : left.kind = right.kind
  · by_cases sameLength : left.children.length = right.children.length
    · rw [← all_attributes_iff sameKind,
        ← all_children_iff
          (fun place =>
            equivalentSkipping fun address => shared (place :: address))
          sameLength]
      rw [equivalentSkipping]
      simp [apart, sameKind, sameLength]
    · rw [equivalentSkipping]
      simp [apart, sameKind, sameLength]
  · rw [equivalentSkipping]
    simp [apart, sameKind]

/-- Not looking into nodes that both trees hold never changes whether they are equal. -/
theorem equivalentSkipping_eq
    (share : Share shared left right) :
    left.equivalentSkipping shared right = left.equivalent right := by
  induction left using Node.induction_on_children
      generalizing shared right with
  | step left inductionHypothesis =>
      rw [Bool.eq_iff_iff]
      by_cases atRoot : shared [] = true
      · have same : left = right := Option.some.inj (share [] atRoot)
        subst same
        rw [equivalentSkipping, if_pos atRoot, equivalent_iff_strip_eq]
        simp only
      · rw [equivalentSkipping_iff (Bool.eq_false_iff.mpr atRoot),
          equivalent_iff, List.forall₂_iff_get]
        apply and_congr_right'
        apply and_congr_right'
        apply and_congr_right'
        apply forall₃_congr
        intro place within withinOther
        have below :=
          share.child
            (List.getElem?_eq_getElem within)
            (List.getElem?_eq_getElem withinOther)
        rw [← Bool.eq_iff_iff]
        exact inductionHypothesis _ (List.getElem_mem within) below

/-- Equality with what is declared is an equivalence. -/
theorem equivalence_equivalent :
    Equivalence fun left right : Node => left.equivalent right = true where
  refl _ := equivalent_iff_strip_eq.mpr rfl
  symm equal :=
    equivalent_iff_strip_eq.mpr (equivalent_iff_strip_eq.mp equal).symm
  trans first second :=
    equivalent_iff_strip_eq.mpr
      ((equivalent_iff_strip_eq.mp first).trans
        (equivalent_iff_strip_eq.mp second))

/-- Nodes that are given children are equal if they were and their new children are. -/
theorem equivalent_withChildren_iff
    {given others : List Node}
    {first second : Node}
    (built : left.withChildren given = .ok first)
    (builtOther : right.withChildren others = .ok second) :
    first.equivalent second = true ↔
      left.kind = right.kind ∧
        left.attributes = right.attributes ∧
        List.Forall₂ (fun child other => child.equivalent other = true)
          given others := by
  have kept := KeepsPropertiesOf.of_withChildren built
  have keptOther := KeepsPropertiesOf.of_withChildren builtOther
  rw [equivalent_iff, kept.kind_eq, keptOther.kind_eq,
    kept.attributes_eq, keptOther.attributes_eq,
    children_of_withChildren built,
    children_of_withChildren builtOther]

/--
Equality decides whether two trees are the same in what their nodes declare: whether they
are one tree, once both are stripped. So it is an equivalence, and not looking into nodes
that both trees hold never changes its answer. It is a congruence: of nodes that are given
children, those are equal that were of one kind with the same attributes, and whose new
children are equal in pairs. Numbers are the same attributes if their patterns are, or if
both are not-a-number.
-/
theorem equality_of_declared_trees :
    (∀ left right : Node,
        left.equivalent right = true ↔ left.strip = right.strip) ∧
      (Equivalence fun left right : Node =>
        left.equivalent right = true) ∧
      (∀ (shared : List Nat → Bool) (left right : Node),
        Share shared left right →
        left.equivalentSkipping shared right = left.equivalent right) ∧
      (∀ (left right first second : Node) (given others : List Node),
        left.withChildren given = .ok first →
        right.withChildren others = .ok second →
        (first.equivalent second = true ↔
          left.kind = right.kind ∧
            left.attributes = right.attributes ∧
            List.Forall₂ (fun child other => child.equivalent other = true)
              given others)) ∧
      ∀ bits pattern : Nat,
        bits < 2 ^ 64 →
        pattern < 2 ^ 64 →
        (Number.ofBits bits = Number.ofBits pattern ↔
          Number.Pattern.StandAlike bits pattern) := by
  exact
    ⟨fun _ _ => equivalent_iff_strip_eq, equivalence_equivalent,
      fun _ _ _ => equivalentSkipping_eq,
      fun _ _ _ _ _ _ => equivalent_withChildren_iff,
      fun _ _ => Number.ofBits_eq_iff⟩

/-- A conjunction of a group, which may be shared, and a boosted word. -/
def groupAndBoost (force : Number) (note : Fields Data) : Node :=
  .operation .and
    [.group .plain (.term .word "a" []) [("note", .text "shared")],
      .boost (.term .word "b" note) force note]
    []

/--
Two conjunctions of one group are equal without a look into it, whatever notes there are
on the rest, if what they boost by is not-a-number in both. They are equal again with
other children that are, and not equal if they boost by zeros of either sign.
-/
theorem equality_of_declared_trees_sharedGroup :
    let notANumber := 2047 * 2 ^ 52 + 1
    let negativeNotANumber := 2 ^ 63 + 2047 * 2 ^ 52 + 2 ^ 51
    let negativeZero := 2 ^ 63
    let noted (bits : Nat) :=
      groupAndBoost (.ofBits bits) [("note", .text "seen")]
    let plain (bits : Nat) := groupAndBoost (.ofBits bits) []
    let shared : List Nat → Bool := (· == [0])
    let phrase (note : Fields Data) := Node.term .phrase "c" note
    Share shared (noted notANumber) (plain negativeNotANumber) ∧
      (noted notANumber).equivalentSkipping shared
          (plain negativeNotANumber) =
        true ∧
      (noted 0).equivalent (plain negativeZero) = false ∧
      (noted 0).withChildren [phrase []] =
        .ok (.operation .and [phrase []] []) ∧
      (plain negativeZero).withChildren [phrase [("note", .null)]] =
        .ok (.operation .and [phrase [("note", .null)]] []) ∧
      (Node.operation .and [phrase []] []).equivalent
          (.operation .and [phrase [("note", .null)]] []) =
        true := by
  intro notANumber negativeNotANumber negativeZero noted plain shared phrase
  obtain ⟨decides, equivalence, skipping, congruence, patterns⟩ :=
    equality_of_declared_trees
  have share :
      Share shared (noted notANumber) (plain negativeNotANumber) := by
    intro address isShared
    rw [beq_iff_eq.mp isShared]
    rfl
  have isOfNone : Number.Pattern.IsOfNotANumber (2047 * 2 ^ 52 + 1) :=
    ⟨by decide, by decide⟩
  have negativeIsOfNone :
      Number.Pattern.IsOfNotANumber (2 ^ 63 + 2047 * 2 ^ 52 + 2 ^ 51) :=
    ⟨by decide, by decide⟩
  have sameForce :
      Number.ofBits notANumber = Number.ofBits negativeNotANumber :=
    (patterns _ _ (by decide) (by decide)).mpr
      (.inr ⟨isOfNone, negativeIsOfNone⟩)
  have otherForce : Number.ofBits 0 ≠ Number.ofBits negativeZero := by
    intro same
    obtain (same | ⟨⟨full, -⟩, -⟩) :=
      (patterns 0 (2 ^ 63) (by decide) (by decide)).mp same
    · exact absurd same (by decide)
    · exact absurd full (by decide)
  have samePhrase : (phrase []).equivalent (phrase [("note", .null)]) = true :=
    (decides _ _).mpr (by simp only [phrase, strip])
  refine ⟨share, ?_, ?_, rfl, rfl, ?_⟩
  · rw [skipping shared _ _ share, decides]
    simp only [noted, plain, groupAndBoost, strip, stripAll, sameForce]
  · rw [Bool.eq_false_iff, ne_eq, decides]
    simp only [noted, plain, groupAndBoost, strip, stripAll]
    intro same
    injection same with _ sameOperands
    injection sameOperands with _ sameRest
    injection sameRest with sameBoost
    injection sameBoost with _ same
    exact otherForce same
  · exact
      (congruence (noted 0) (plain negativeZero) _ _ _ _ rfl rfl).mpr
        ⟨rfl, rfl, .cons samePhrase .nil⟩

/--
Nothing that is declared is lost when a tree is taken apart and put together again. What
comes of it is the stripped tree, which is equal to the tree in what its nodes declare,
and doing it again changes nothing. Wherever children fit a node, giving them to it is
building it from its attributes and them, but for its undeclared properties.
-/
theorem recomposing_keeps_declared
    (tree : Node) :
    tree.recompose = tree.strip ∧
      tree.recompose.equivalent tree = true ∧
      tree.recompose.recompose = tree.recompose ∧
      ∀ given : List Node,
        (∀ arity, tree.kind.arity? = some arity → given.length = arity) →
        ∃ result,
          tree.withChildren given = .ok result ∧
            result.equivalent
                (Query.build tree.kind
                  (Query.argumentsFor tree.kind tree.attributes given)) =
              true := by
  refine ⟨recompose_eq_strip tree, ?_, ?_, ?_⟩
  · rw [equivalent_iff_strip_eq, recompose_eq_strip, strip_strip]
  · rw [recompose_eq_strip, recompose_eq_strip, strip_strip]
  · intro given fits
    obtain ⟨result, built⟩ := withChildren_isOk fits
    have kept := KeepsPropertiesOf.of_withChildren built
    have isBuilt := build_argumentsFor result
    rw [kept.kind_eq, kept.attributes_eq,
      children_of_withChildren built] at isBuilt
    refine ⟨result, built, ?_⟩
    rw [isBuilt, equivalent_iff, kind_bare, attributes_bare, children_bare]
    exact
      ⟨rfl, rfl,
        List.forall₂_same.mpr fun child _ => equivalence_equivalent.refl child⟩

/-- A range in a field, put together again, has its bounds and flags where they were. -/
theorem recomposing_keeps_declared_fieldOverRange :
    let range (low high : String) (note : Fields Data) : Node :=
      .range (.term .word low note) (.term .word high note) true false note
    let field := Node.searchField "year" (range "a" "b" [("expr", .null)]) []
    let words := [Node.term .word "c" [], .term .word "d" []]
    field.recompose = .searchField "year" (range "a" "b" []) [] ∧
      (∀ arity,
        (range "a" "b" []).kind.arity? = some arity → words.length = arity) ∧
      ∃ result,
        (range "a" "b" [("expr", .null)]).withChildren words =
            .ok result ∧
          result.equivalent
              (Query.range (.term .word "c" []) (.term .word "d" [])
                true false) =
            true := by
  intro range field words
  have fits (arity : Nat) :
      (range "a" "b" []).kind.arity? = some arity →
        words.length = arity := by
    rintro ⟨⟩
    rfl
  refine ⟨?_, fits, ?_⟩
  · rw [(recomposing_keeps_declared field).1]
    simp only [field, range, strip]
  · exact (recomposing_keeps_declared _).2.2.2 words fits

end Node

end QueryWalk
