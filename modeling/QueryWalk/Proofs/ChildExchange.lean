import QueryWalk.Node.Record
import QueryWalk.Proofs.CarriedProperties
import QueryWalk.Proofs.NodeArity

namespace QueryWalk

/-!
# Exchanging the children of a node

A node can be looked at through its children, and given other ones. Whatever it was
given is what it has afterwards, nothing else about it changes, and only the last
exchange matters. Nothing else means also every property of its record but those that
hold the children of its kind, under whatever names a node carries others.
-/

/-- The names of the properties that hold the children of a kind, in order. -/
def NodeKind.childNames : NodeKind → List String
  | .term _ | .noneItem => []
  | .group _ | .searchField | .boost | .unary _ => ["expr"]
  | .approximation _ => ["term"]
  | .range => ["low", "high"]
  | .operation _ => ["operands"]

namespace Fields

variable {α : Type}

/-- Of inserted fields with the same keys only those under a key decide about it. -/
theorem get?_insertAll_of_agree
    {key : String}
    {first second : List (String × α)}
    (agree :
      List.Forall₂
        (fun field other =>
          field.1 = other.1 ∧ (field.1 = key → field.2 = other.2))
        first second)
    {fields others : Fields α}
    (before : fields.get? key = others.get? key) :
    (fields.insertAll first).get? key =
      (others.insertAll second).get? key := by
  induction agree generalizing fields others with
  | nil =>
      exact before
  | @cons field other _ _ same _ inductionHypothesis =>
      obtain ⟨name, value⟩ := field
      obtain ⟨otherName, otherValue⟩ := other
      obtain ⟨sameName, sameValue⟩ := same
      dsimp only at sameName sameValue
      subst sameName
      apply inductionHypothesis
      by_cases isKey : name = key
      · subst isKey
        simp [sameValue rfl]
      · simp [get?_insert_of_ne _ isKey, before]

end Fields

namespace Node

/-- What a node shows under a name, whether its kind declares it or not. -/
def property? (node : Node) (name : String) : Option Data :=
  match node.toData with
  | .record fields => Fields.get? fields name
  | _ => none

variable {node result : Node} {given : List Node}

/-- Records that only differ in a declared property show the same under other names. -/
theorem property?_eq_of_agree
    {kind : NodeKind}
    {declared others : List (String × Data)}
    {extra : Fields Data}
    {name : String}
    (isRecord : result.toData = describe kind declared extra)
    (isOther : node.toData = describe kind others extra)
    (agree :
      List.Forall₂
        (fun field other =>
          field.1 = other.1 ∧ (field.1 = name → field.2 = other.2))
        declared others) :
    result.property? name = node.property? name := by
  rw [property?, property?, isRecord, isOther]
  exact
    Fields.get?_insertAll_of_agree
      (.cons ⟨rfl, fun _ => rfl⟩ agree) rfl

/-- A node that is given other children shows the same under all other names. -/
theorem property?_of_withChildren
    (built : node.withChildren given = .ok result)
    {name : String}
    (other : name ∉ node.kind.childNames) :
    result.property? name = node.property? name := by
  cases node with
  | term kind value extra
  | noneItem extra =>
      rw [withChildren_of_isLeaf rfl built]
  | operation kind operands extra =>
      cases built
      apply property?_eq_of_agree (toData.eq_def _) (toData.eq_def _)
      simp_all [Node.kind, NodeKind.childNames, eq_comm]
  | range low high includeLow includeHigh extra =>
      rcases given with _ | ⟨newLow, _ | ⟨newHigh, _ | ⟨third, rest⟩⟩⟩ <;>
        cases built
      apply property?_eq_of_agree (toData.eq_def _) (toData.eq_def _)
      simp_all [Node.kind, NodeKind.childNames, eq_comm]
  | group kind expr extra
  | searchField label expr extra
  | approximation kind subject degree extra
  | boost expr force extra
  | unary kind expr extra =>
      rcases given with _ | ⟨only, _ | ⟨second, rest⟩⟩ <;>
        cases built
      apply property?_eq_of_agree (toData.eq_def _) (toData.eq_def _)
      simp_all [Node.kind, NodeKind.childNames, eq_comm]

/--
What a node shows of its children: the list of them where its kind takes any number, and
otherwise each of them.
-/
def childProperties (kind : NodeKind) (children : List Node) : List Data :=
  match kind.arity? with
  | none => [.list (children.map toData)]
  | some _ => children.map toData

/-- A node shows its children under the names that its kind has for them. -/
theorem property?_childNames
    (node : Node) :
    node.kind.childNames.map node.property? =
      (childProperties node.kind node.children).map some := by
  cases node <;>
    simp [Node.kind, NodeKind.childNames, childProperties,
      NodeKind.arity?, children, property?, toData, describe,
      allToData_eq_map, Fields.insertAll, Fields.get?_insert_of_ne]

/--
Children can be exchanged freely where their number fits. A node takes other children
exactly if they are as many as its kind takes; otherwise it fails with its kind, that
number and theirs. Afterwards it has the given children and shows them under the names
of its kind for them, and it has the kind, the attributes and all other properties that
it had. So giving it its own children changes nothing, and of two exchanges, one after
the other, the second alone decides what comes of them.
-/
theorem children_exchange_freely
    (node : Node)
    (given : List Node) :
    ((∃ result, node.withChildren given = .ok result) ↔
        ∀ arity, node.kind.arity? = some arity → given.length = arity) ∧
      (∀ arity,
        node.kind.arity? = some arity →
        given.length ≠ arity →
        node.withChildren given =
          .error
            (.nodeArity node.kind (.ofNat arity) (.ofNat given.length))) ∧
      (∀ result,
        node.withChildren given = .ok result →
        result.children = given ∧
          node.kind.childNames.map result.property? =
            (childProperties node.kind given).map some ∧
          result.KeepsPropertiesOf node ∧
          (∀ name,
            name ∉ node.kind.childNames →
            result.property? name = node.property? name) ∧
          ∀ later, result.withChildren later = node.withChildren later) ∧
      node.withChildren node.children = .ok node := by
  refine ⟨exists_withChildren_iff, ?_, ?_, withChildren_children node⟩
  · intro arity fixed misfit
    exact withChildren_error fixed misfit
  · intro result built
    have isGiven := children_of_withChildren built
    have kept := KeepsPropertiesOf.of_withChildren built
    have shown := property?_childNames result
    rw [isGiven, kept.kind_eq] at shown
    exact
      ⟨isGiven, shown, kept,
        fun _ other => property?_of_withChildren built other,
        withChildren_of_withChildren built⟩

/-- A range between two words that carries the properties of a group besides its own. -/
def decoyedRange (low high : String) : Node :=
  .range (.term .word low []) (.term .word high []) true false
    [("expr", .text "decoy"), ("operands", .list [])]

/-- A range gets new bounds and keeps its decoys; it does not take a single bound. -/
theorem children_exchange_freely_decoyedRange :
    let words := [Node.term .word "c" [], .term .word "d" []]
    let taken :=
      (decoyedRange "a" "b").withChildren words =
        .ok (decoyedRange "c" "d")
    taken ∧
      (decoyedRange "c" "d").children = words ∧
      (decoyedRange "c" "d").property? "expr" = some (.text "decoy") ∧
      (decoyedRange "c" "d").withChildren [.noneItem []] =
        (decoyedRange "a" "b").withChildren [.noneItem []] ∧
      (decoyedRange "a" "b").withChildren [.noneItem []] =
        .error (.nodeArity .range (.ofNat 2) (.ofNat 1)) := by
  intro words taken
  have built : taken := rfl
  obtain ⟨-, -, exchanged, -⟩ :=
    children_exchange_freely (decoyedRange "a" "b") words
  obtain ⟨isGiven, -, -, shown, again⟩ :=
    exchanged (decoyedRange "c" "d") built
  obtain ⟨-, refused, -, -⟩ :=
    children_exchange_freely (decoyedRange "a" "b") [.noneItem []]
  refine ⟨built, isGiven, ?_, again _, refused 2 rfl (by decide)⟩
  rw [shown "expr" (by decide)]
  rfl

end Node

end QueryWalk
