import QueryWalk.Context

namespace QueryWalk

/-!
# Depths

The depth of a context grows by one with every descent, as far as numbers count
one by one. So the depth a walk began at and the number of descents since decide
whether the next descent is made, as long as no chain of ancestors is in the way.
-/

namespace Number

/-- A depth grows with the length of an address, as far as numbers count. -/
theorem plusOne_ofNat_min
    (length : Nat) :
    plusOne (ofNat (min length exactLimit)) =
      ofNat (min (length + 1) exactLimit) := by
  rcases Nat.lt_or_ge length exactLimit with small | large
  · rw [Nat.min_eq_left (Nat.le_of_lt small), plusOne_ofNat small,
      Nat.min_eq_left small]
  · rw [Nat.min_eq_right large,
      Nat.min_eq_right (Nat.le_succ_of_le large)]
    decide

end Number

namespace Settings

/--
A walk goes down to a depth. Depths are counted one by one only up to
`Number.exactLimit`, so no depth exceeds that or a larger limit.
-/
def Admits (settings : Settings) (depth : Nat) : Prop :=
  depth ≤ settings.maxDepth ∨ Number.exactLimit ≤ settings.maxDepth

instance (settings : Settings) (depth : Nat) :
    Decidable (settings.Admits depth) :=
  inferInstanceAs (Decidable (_ ∨ _))

/-- A walk that goes down to a depth goes down to lower ones. -/
theorem Admits.mono
    {settings : Settings}
    {lower depth : Nat}
    (admits : settings.Admits depth)
    (below : lower ≤ depth) :
    settings.Admits lower := by
  unfold Admits at admits ⊢
  omega

end Settings

namespace Context

/--
The context of the child at an index of a node, at any depth. Where a chain is in the
way, the chains are as they were.
-/
def child
    (settings : Settings)
    (parent : Node)
    (index : Number)
    (context : Context) :
    Context where
  keys :=
    (Chain.extendAll settings parent context.keys).toOption.getD
      context.keys
  position := context.position.child settings index

/-- A context from which a walk can go down as far as its chains are concerned. -/
def IsIterable (settings : Settings) (context : Context) : Prop :=
  Chain.AreIterable settings context.keys

instance (settings : Settings) (context : Context) :
    Decidable (context.IsIterable settings) :=
  inferInstanceAs (Decidable (Chain.AreIterable _ _))

/-- A context has a depth, as far as numbers count. -/
def IsAtDepth (context : Context) (depth : Nat) : Prop :=
  context.position.depth = .ofNat (min depth Number.exactLimit)

namespace IsAtDepth

variable
  {settings : Settings}
  {context : Context}
  {depth : Nat}

/-- The context of a root has depth zero. -/
theorem root
    (settings : Settings)
    (keys : Fields Value) :
    (Context.root settings keys).IsAtDepth 0 :=
  rfl

/-- Depths that are counted one by one are what they are. -/
theorem of_le
    (isDepth : context.position.depth = .ofNat depth)
    (counted : depth ≤ Number.exactLimit) :
    context.IsAtDepth depth := by
  rw [IsAtDepth, Nat.min_eq_left counted]
  exact isDepth

/-- The context of a child is one level deeper. -/
theorem child
    (isAt : context.IsAtDepth depth)
    (settings : Settings)
    (parent : Node)
    (index : Number) :
    (context.child settings parent index).IsAtDepth (depth + 1) := by
  rw [IsAtDepth, ← Number.plusOne_ofNat_min, ← isAt]
  rfl

/-- However the context of a child has been made, it is one level deeper. -/
theorem of_descend
    {parent : Node}
    {index : Number}
    {below : Context}
    (isAt : context.IsAtDepth depth)
    (descended : context.descend settings parent index = .ok below) :
    below.IsAtDepth (depth + 1) := by
  have isBelow := isAt.child settings parent index
  rw [IsAtDepth, position_of_descend descended]
  exact isBelow

/-- The next depth exceeds the limit where the walk does not go down to it. -/
theorem exceeds
    (isAt : context.IsAtDepth depth) :
    context.position.depth.plusOne.exceeds settings.maxDepth =
      !decide (settings.Admits (depth + 1)) := by
  rw [isAt, Number.plusOne_ofNat_min, Number.exceeds_ofNat, ← decide_not,
    decide_eq_decide, Settings.Admits]
  omega

/-- A walk goes down from a depth it went down to, except from the limit. -/
theorem admits_succ
    (isAt : context.IsAtDepth depth)
    (admits : settings.Admits depth)
    (notAtLimit : context.position.depth ≠ .ofNat settings.maxDepth) :
    settings.Admits (depth + 1) := by
  rcases Nat.lt_or_ge settings.maxDepth Number.exactLimit with
    limited | unlimited
  · have reached : depth ≤ settings.maxDepth :=
      admits.resolve_right (Nat.not_le.mpr limited)
    have notLimit : depth ≠ settings.maxDepth := by
      intro isLimit
      apply notAtLimit
      rw [isAt, ← isLimit, Nat.min_eq_left (by omega)]
    exact .inl (by omega)
  · exact .inr unlimited

/-- Where a walk goes down, nothing but the chains can be in the way. -/
theorem descend_eq
    (isAt : context.IsAtDepth depth)
    (admits : settings.Admits (depth + 1))
    (parent : Node)
    (index : Number) :
    context.descend settings parent index =
      (Chain.extendAll settings parent context.keys).map fun extended =>
        { keys := extended
          position := context.position.child settings index } := by
  have within :
      context.position.depth.plusOne.exceeds settings.maxDepth = false := by
    rw [isAt.exceeds, decide_eq_true admits]
    rfl
  rw [Context.descend, within, if_neg Bool.false_ne_true]

/-- Where a walk goes down and the chains allow it, the context of a child is made. -/
theorem descend
    (isAt : context.IsAtDepth depth)
    (admits : settings.Admits (depth + 1))
    (iterable : context.IsIterable settings)
    (parent : Node)
    (index : Number) :
    context.descend settings parent index =
      .ok (context.child settings parent index) := by
  obtain ⟨extended, made⟩ :=
    Chain.AreIterable.exists_extendAll iterable parent
  rw [isAt.descend_eq admits, Context.child, made]
  rfl

/-- Where a walk goes down but a chain is in the way, making the context fails. -/
theorem descend_stuck
    {chain : Chain}
    (isAt : context.IsAtDepth depth)
    (admits : settings.Admits (depth + 1))
    (stuck : Chain.stuck? settings context.keys = some chain)
    (parent : Node)
    (index : Number) :
    context.descend settings parent index =
      .error (.notIterable chain.key) := by
  rw [isAt.descend_eq admits, Chain.extendAll_of_stuck stuck]
  rfl

/-- Where a walk does not go down, making the context of a child fails. -/
theorem descend_error
    (isAt : context.IsAtDepth depth)
    (tooDeep : ¬ settings.Admits (depth + 1))
    (parent : Node)
    (index : Number) :
    context.descend settings parent index =
      .error (.traversalDepth (.ofNat settings.maxDepth)) := by
  have beyond :
      context.position.depth.plusOne.exceeds settings.maxDepth = true := by
    rw [isAt.exceeds, decide_eq_false tooDeep]
    rfl
  rw [Context.descend, beyond]
  rfl

end IsAtDepth

/-- From a root whose caller has put a chain in the way no context of a child is made. -/
theorem descend_root_of_stuck
    {settings : Settings}
    {keys : Fields Value}
    {chain : Chain}
    (stuck : Chain.stuck? settings keys = some chain)
    (parent : Node)
    (index : Number) :
    (Context.root settings keys).descend settings parent index =
      .error (.notIterable chain.key) :=
  (IsAtDepth.root settings keys).descend_stuck
    (.inl settings.maxDepth_pos) stuck parent index

/-- Below a context whose chains allow it, contexts allow it again. -/
theorem IsIterable.child
    {settings : Settings}
    {context : Context}
    (iterable : context.IsIterable settings)
    (parent : Node)
    (index : Number) :
    (context.child settings parent index).IsIterable settings := by
  obtain ⟨extended, made⟩ :=
    Chain.AreIterable.exists_extendAll iterable parent
  rw [IsIterable, Context.child, made]
  exact Chain.areIterable_of_extendAll made

end Context

end QueryWalk
