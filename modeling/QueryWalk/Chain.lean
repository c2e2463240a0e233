import QueryWalk.Settings
import QueryWalk.Value

namespace QueryWalk

/-!
# Chains of ancestors

A walk that keeps track of ancestors does so under keys of the context, and on the way
down it adds one node after the other. The keys belong to the caller too: what a chain
goes on from is whatever the caller or a handler has put there, if that can be spread.
-/

/-- The keys under which a walk keeps ancestors. -/
inductive Chain where
  | parents
  | newParents
  deriving DecidableEq

namespace Chain

/-- The key of a chain in a context. -/
def key : Chain → String
  | .parents => "parents"
  | .newParents => "newParents"

/-- Whether a walk keeps a chain. -/
def isTracked (settings : Settings) : Chain → Bool
  | .parents => settings.trackParents
  | .newParents => settings.trackNewParents

/--
What a chain holds so far: nothing where it is absent or null, and otherwise what its
value can be spread into, if it can be.
-/
def former? (keys : Fields Value) (chain : Chain) : Option (List Value) :=
  let kept := (keys.get? chain.key).getD .null
  if kept.isNull then some [] else kept.spread?

/-- Add a node at the lower end of a chain, if the walk keeps it. -/
def extend
    (settings : Settings)
    (parent : Node)
    (keys : Fields Value)
    (chain : Chain) :
    Except Failure (Fields Value) :=
  if chain.isTracked settings then
    match former? keys chain with
    | some former =>
        .ok (keys.insert chain.key (.list (former ++ [.node parent])))
    | none => .error (.notIterable chain.key)
  else
    .ok keys

/-- Add a node at the lower end of all chains that the walk keeps. -/
def extendAll
    (settings : Settings)
    (parent : Node)
    (keys : Fields Value) :
    Except Failure (Fields Value) :=
  (extend settings parent keys .parents).bind fun extended =>
    extend settings parent extended .newParents

/-- Whether the walk keeps a chain that cannot be extended. -/
def isStuck
    (settings : Settings)
    (keys : Fields Value)
    (chain : Chain) :
    Bool :=
  chain.isTracked settings && (former? keys chain).isNone

/-- The first chain that the walk keeps and that cannot be extended. -/
def stuck? (settings : Settings) (keys : Fields Value) : Option Chain :=
  [parents, newParents].find? (isStuck settings keys)

/-- All chains that the walk keeps can be extended. -/
def AreIterable (settings : Settings) (keys : Fields Value) : Prop :=
  stuck? settings keys = none

instance (settings : Settings) (keys : Fields Value) :
    Decidable (AreIterable settings keys) :=
  inferInstanceAs (Decidable (_ = none))

variable
  {settings : Settings}
  {parent : Node}
  {keys extended : Fields Value}
  {chain : Chain}

/-- A chain holds the same where its key has the same value. -/
theorem former?_congr
    {others : Fields Value}
    (same : keys.get? chain.key = others.get? chain.key) :
    former? keys chain = former? others chain := by
  rw [former?, former?, same]

/-- A chain that is a list holds the items of the list. -/
theorem former?_of_list
    {items : List Value}
    (isList : keys.get? chain.key = some (.list items)) :
    former? keys chain = some items := by
  rw [former?, isList]
  rfl

/-- A chain that is absent holds nothing. -/
theorem former?_of_absent
    (isAbsent : keys.get? chain.key = none) :
    former? keys chain = some [] := by
  rw [former?, isAbsent]
  rfl

/-- A chain holds something where its key has no value, null, or one that can be spread. -/
theorem exists_former_iff :
    (∃ former, former? keys chain = some former) ↔
      ∀ value,
        keys.get? chain.key = some value →
        value.isNull = true ∨ ∃ items, value.spread? = some items := by
  unfold former?
  cases keys.get? chain.key with
  | none =>
      exact ⟨fun _ _ => nofun, fun _ => ⟨[], rfl⟩⟩
  | some value =>
      simp only [Option.getD_some, Option.some.injEq, forall_eq']
      cases isNull : value.isNull with
      | true =>
          simp
      | false =>
          simp

/-- All chains that are kept can be extended if each of them can. -/
theorem areIterable_iff :
    AreIterable settings keys ↔
      ∀ chain : Chain,
        chain.isTracked settings = true →
        ∃ former, former? keys chain = some former := by
  simp only [AreIterable, stuck?, List.find?_eq_none, isStuck,
    Bool.and_eq_true, Option.isNone_iff_eq_none, not_and, ← ne_eq,
    Option.ne_none_iff_exists']
  constructor
  · intro each chain
    exact each chain (by cases chain <;> decide)
  · exact fun each chain _ => each chain

/-- Where there are no keys, no chain is in the way. -/
theorem areIterable_nil : AreIterable settings [] :=
  areIterable_iff.mpr fun _ _ => ⟨[], former?_of_absent rfl⟩

/-- A chain that is in the way is one that the walk keeps. -/
theorem isTracked_of_stuck
    (stuck : stuck? settings keys = some chain) :
    chain.isTracked settings = true := by
  have isStuck : isStuck settings keys chain = true :=
    List.find?_some stuck
  rw [Chain.isStuck, Bool.and_eq_true] at isStuck
  exact isStuck.1

/-- What chains hold is all that matters for whether they can be extended. -/
theorem AreIterable.congr
    {others : Fields Value}
    (iterable : AreIterable settings keys)
    (same :
      ∀ chain : Chain,
        chain.isTracked settings = true →
        keys.get? chain.key = others.get? chain.key) :
    AreIterable settings others := by
  rw [areIterable_iff] at iterable ⊢
  intro chain tracked
  rw [← former?_congr (same chain tracked)]
  exact iterable chain tracked

/-- A walk that does not keep a chain leaves it alone. -/
theorem extend_of_not_tracked
    (notTracked : chain.isTracked settings = false) :
    extend settings parent keys chain = .ok keys := by
  rw [extend, if_neg (Bool.eq_false_iff.mp notTracked)]

/-- A chain that is kept and can be spread gets the parent at its end. -/
theorem extend_of_former
    {former : List Value}
    (tracked : chain.isTracked settings = true)
    (holds : former? keys chain = some former) :
    extend settings parent keys chain =
      .ok (keys.insert chain.key (.list (former ++ [.node parent]))) := by
  rw [extend, if_pos tracked, holds]

/-- A chain that is kept and cannot be spread is not extended. -/
theorem extend_of_isStuck
    (stuck : isStuck settings keys chain = true)
    (parent : Node) :
    extend settings parent keys chain = .error (.notIterable chain.key) := by
  rw [isStuck, Bool.and_eq_true, Option.isNone_iff_eq_none] at stuck
  rw [extend, if_pos stuck.1, stuck.2]

/-- Every other chain is extended. -/
theorem exists_extend
    (free : isStuck settings keys chain = false)
    (parent : Node) :
    ∃ extended, extend settings parent keys chain = .ok extended := by
  cases tracked : chain.isTracked settings with
  | false =>
      exact ⟨keys, extend_of_not_tracked tracked⟩
  | true =>
      cases holds : former? keys chain with
      | none =>
          rw [isStuck, tracked, holds] at free
          cases free
      | some former =>
          exact ⟨_, extend_of_former tracked holds⟩

/-- An extended chain is as it was, or it has the parent at its end. -/
theorem extend_cases
    (made : extend settings parent keys chain = .ok extended) :
    chain.isTracked settings = false ∧ extended = keys ∨
      ∃ former,
        chain.isTracked settings = true ∧
          former? keys chain = some former ∧
          extended =
            keys.insert chain.key (.list (former ++ [.node parent])) := by
  cases tracked : chain.isTracked settings with
  | false =>
      rw [extend_of_not_tracked tracked] at made
      exact .inl ⟨rfl, (Except.ok.inj made).symm⟩
  | true =>
      cases holds : former? keys chain with
      | none =>
          have stuck : isStuck settings keys chain = true := by
            rw [isStuck, tracked, holds]
            rfl
          rw [extend_of_isStuck stuck] at made
          cases made
      | some former =>
          rw [extend_of_former tracked holds] at made
          exact .inr ⟨former, rfl, rfl, (Except.ok.inj made).symm⟩

/-- A chain that is extended gets the parent at its end if the walk keeps it. -/
theorem exists_former_of_extend
    (made : extend settings parent keys chain = .ok extended)
    (tracked : chain.isTracked settings = true) :
    ∃ former,
      former? keys chain = some former ∧
        extended.get? chain.key =
          some (.list (former ++ [.node parent])) := by
  obtain ⟨notTracked, -⟩ | ⟨former, -, holds, rfl⟩ := extend_cases made
  · rw [tracked] at notTracked
    cases notTracked
  · exact ⟨former, holds, Fields.get?_insert_self keys chain.key _⟩

/-- Extending a chain changes no other key, and none if it is not tracked. -/
theorem get?_extend_of_ne
    (made : extend settings parent keys chain = .ok extended)
    {key : String}
    (other : chain.isTracked settings = true → chain.key ≠ key) :
    extended.get? key = keys.get? key := by
  obtain ⟨-, rfl⟩ | ⟨former, tracked, -, rfl⟩ := extend_cases made
  · rfl
  · exact Fields.get?_insert_of_ne keys (other tracked) _

/-- Chains are extended one after the other. -/
theorem exists_between_of_extendAll
    (made : extendAll settings parent keys = .ok extended) :
    ∃ between,
      extend settings parent keys .parents = .ok between ∧
        extend settings parent between .newParents = .ok extended := by
  unfold extendAll at made
  cases first : extend settings parent keys .parents with
  | error failure =>
      rw [first] at made
      cases made
  | ok between =>
      rw [first] at made
      exact ⟨between, rfl, made⟩

/-- Every chain that the walk keeps gets the parent at its end. -/
theorem exists_former_of_extendAll
    (made : extendAll settings parent keys = .ok extended)
    (tracked : chain.isTracked settings = true) :
    ∃ former,
      former? keys chain = some former ∧
        extended.get? chain.key =
          some (.list (former ++ [.node parent])) := by
  obtain ⟨between, first, second⟩ := exists_between_of_extendAll made
  cases chain with
  | parents =>
      obtain ⟨former, holds, isExtended⟩ :=
        exists_former_of_extend first tracked
      refine ⟨former, holds, ?_⟩
      rw [get?_extend_of_ne second fun _ => by decide]
      exact isExtended
  | newParents =>
      obtain ⟨former, holds, isExtended⟩ :=
        exists_former_of_extend second tracked
      refine ⟨former, ?_, isExtended⟩
      rw [← holds]
      apply former?_congr
      exact (get?_extend_of_ne first fun _ => by decide).symm

/-- Extending the chains changes no key but those of the chains that are kept. -/
theorem get?_extendAll_of_ne
    (made : extendAll settings parent keys = .ok extended)
    {key : String}
    (other :
      ∀ chain : Chain,
        chain.isTracked settings = true →
        chain.key ≠ key) :
    extended.get? key = keys.get? key := by
  obtain ⟨between, first, second⟩ := exists_between_of_extendAll made
  rw [get?_extend_of_ne second (other .newParents),
    get?_extend_of_ne first (other .parents)]

/-- A chain that the walk keeps has another key than one that it does not. -/
theorem key_ne_of_not_tracked
    {kept : Chain}
    (notTracked : chain.isTracked settings = false)
    (tracked : kept.isTracked settings = true) :
    kept.key ≠ chain.key := by
  have different : kept ≠ chain := by
    rintro rfl
    rw [tracked] at notTracked
    cases notTracked
  revert different
  cases kept <;> cases chain <;> decide

/-- Chains that have been extended can be extended further. -/
theorem areIterable_of_extendAll
    (made : extendAll settings parent keys = .ok extended) :
    AreIterable settings extended := by
  rw [areIterable_iff]
  intro chain tracked
  obtain ⟨former, -, isExtended⟩ := exists_former_of_extendAll made tracked
  exact ⟨_, former?_of_list isExtended⟩

/-- What the first chain is extended by does not matter to the second. -/
theorem isStuck_newParents_of_extend
    (made : extend settings parent keys .parents = .ok extended) :
    isStuck settings extended .newParents =
      isStuck settings keys .newParents := by
  rw [isStuck, isStuck,
    former?_congr (get?_extend_of_ne made fun _ => by decide)]

/-- Where all chains can be extended, they are. -/
theorem AreIterable.exists_extendAll
    (iterable : AreIterable settings keys)
    (parent : Node) :
    ∃ extended, extendAll settings parent keys = .ok extended := by
  simp only [AreIterable, stuck?, List.find?_eq_none, List.mem_cons,
    List.not_mem_nil, or_false, forall_eq_or_imp, forall_eq,
    Bool.not_eq_true] at iterable
  obtain ⟨between, first⟩ := exists_extend iterable.1 parent
  rw [extendAll, first]
  apply exists_extend
  rw [isStuck_newParents_of_extend first]
  exact iterable.2

/-- Where a chain cannot be extended, they are not, and the first such chain is named. -/
theorem extendAll_of_stuck
    (stuck : stuck? settings keys = some chain)
    (parent : Node) :
    extendAll settings parent keys = .error (.notIterable chain.key) := by
  rw [stuck?, List.find?_cons] at stuck
  rw [extendAll]
  cases isFirst : isStuck settings keys .parents with
  | true =>
      rw [isFirst] at stuck
      cases stuck
      rw [extend_of_isStuck isFirst]
      rfl
  | false =>
      obtain ⟨between, first⟩ := exists_extend isFirst parent
      rw [isFirst] at stuck
      cases List.mem_singleton.mp (List.mem_of_find?_eq_some stuck)
      rw [first]
      apply extend_of_isStuck
      rw [isStuck_newParents_of_extend first]
      exact List.find?_some stuck

/-- Extending the chains fails for nothing but the first of them that is in the way. -/
theorem exists_stuck_of_extendAll
    {failure : Failure}
    (failed : extendAll settings parent keys = .error failure) :
    ∃ chain,
      stuck? settings keys = some chain ∧
        failure = .notIterable chain.key := by
  cases stuck : stuck? settings keys with
  | none =>
      obtain ⟨extended, made⟩ :=
        AreIterable.exists_extendAll stuck parent
      rw [made] at failed
      cases failed
  | some chain =>
      rw [extendAll_of_stuck stuck] at failed
      exact ⟨chain, rfl, (Except.error.inj failed).symm⟩

end Chain

end QueryWalk
