import QueryWalk.Chain

namespace QueryWalk

/-!
# Contexts

A context goes with a node during a walk. Its keys belong to the caller, except
that a walk which tracks ancestors keeps them under `parents` and `newParents`.
Its position belongs to the walk and is no key.
-/

/-- Where a walk stands. -/
structure Position where
  /-- The distance from the root. -/
  depth : Number
  /-- The child indices from the root, in a walk that tracks paths. -/
  path : Option (List Number)
  deriving DecidableEq

/-- What a handler is told besides its node. -/
structure Context where
  keys : Fields Value
  position : Position

namespace Position

/-- The position of a root. -/
def root (settings : Settings) : Position where
  depth := .ofNat 0
  path := if settings.trackPaths then some [] else none

/-- The position one level down, at a child index. -/
def child
    (settings : Settings)
    (index : Number)
    (position : Position) :
    Position where
  depth := position.depth.plusOne
  path :=
    if settings.trackPaths then
      some (position.path.getD [] ++ [index])
    else
      none

/-- The path of a position as a value, null where there is none. -/
def pathValue (position : Position) : Value :=
  match position.path with
  | some path => .list (path.map .number)
  | none => .null

end Position

namespace Context

/-- The context of the root of a walk, with the caller's keys. -/
def root (settings : Settings) (keys : Fields Value) : Context where
  keys := keys
  position := .root settings

/-- The nodes of a chain, if the context has it. -/
def chain? (context : Context) (chain : Chain) : Option (List Node) :=
  match context.keys.get? chain.key with
  | none => none
  | some value => if value.isNull then none else some value.asNodes

/--
The context of the child at an index of a node. Below the depth limit there is
none, and none where a chain that the walk keeps cannot be extended.
-/
def descend
    (settings : Settings)
    (parent : Node)
    (index : Number)
    (context : Context) :
    Except Failure Context :=
  if context.position.depth.plusOne.exceeds settings.maxDepth then
    .error (.traversalDepth (.ofNat settings.maxDepth))
  else
    (Chain.extendAll settings parent context.keys).map fun extended =>
      { keys := extended
        position := context.position.child settings index }

variable
  {settings : Settings}
  {parent : Node}
  {index : Number}
  {context below : Context}

/-- A context is made in one way only, where it is not too deep and the chains allow it. -/
theorem eq_of_descend
    (descended : context.descend settings parent index = .ok below) :
    context.position.depth.plusOne.exceeds settings.maxDepth = false ∧
      Chain.extendAll settings parent context.keys = .ok below.keys ∧
      below.position = context.position.child settings index := by
  unfold descend at descended
  split at descended
  · cases descended
  · rename_i within
    cases made : Chain.extendAll settings parent context.keys with
    | error failure =>
        rw [made] at descended
        cases descended
    | ok extended =>
        rw [made] at descended
        cases descended
        exact ⟨Bool.eq_false_iff.mpr within, rfl, rfl⟩

/-- The position of a child's context is one step below. -/
theorem position_of_descend
    (descended : context.descend settings parent index = .ok below) :
    below.position = context.position.child settings index :=
  (eq_of_descend descended).2.2

/-- A chain that is kept is the former one with the parent at its end. -/
theorem exists_former_of_descend
    (descended : context.descend settings parent index = .ok below)
    {chain : Chain}
    (tracked : chain.isTracked settings = true) :
    ∃ former,
      chain.former? context.keys = some former ∧
        below.keys.get? chain.key =
          some (.list (former ++ [.node parent])) :=
  Chain.exists_former_of_extendAll (eq_of_descend descended).2.1 tracked

/-- A child's context has all other keys of its parent's. -/
theorem get?_of_descend
    (descended : context.descend settings parent index = .ok below)
    {key : String}
    (other :
      ∀ chain : Chain,
        chain.isTracked settings = true →
        chain.key ≠ key) :
    below.keys.get? key = context.keys.get? key :=
  Chain.get?_extendAll_of_ne (eq_of_descend descended).2.1 other

/-- A chain that is not kept is what it was. -/
theorem get?_chain_of_descend
    (descended : context.descend settings parent index = .ok below)
    {chain : Chain}
    (notTracked : chain.isTracked settings = false) :
    below.keys.get? chain.key = context.keys.get? chain.key :=
  get?_of_descend descended fun _ => Chain.key_ne_of_not_tracked notTracked

/-- From the context of a child the chains can be extended. -/
theorem areIterable_of_descend
    (descended : context.descend settings parent index = .ok below) :
    Chain.AreIterable settings below.keys :=
  Chain.areIterable_of_extendAll (eq_of_descend descended).2.1

/-- A child's context is refused for the limit, or for a chain that is in the way. -/
theorem failure_of_descend
    {failure : Failure}
    (refused : context.descend settings parent index = .error failure) :
    context.position.depth.plusOne.exceeds settings.maxDepth = true ∧
        failure = .traversalDepth (.ofNat settings.maxDepth) ∨
      ∃ chain,
        Chain.stuck? settings context.keys = some chain ∧
          failure = .notIterable chain.key := by
  unfold descend at refused
  split at refused
  · rename_i tooDeep
    exact .inl ⟨tooDeep, (Except.error.inj refused).symm⟩
  · cases made : Chain.extendAll settings parent context.keys with
    | error reason =>
        rw [made] at refused
        cases refused
        exact .inr (Chain.exists_stuck_of_extendAll made)
    | ok extended =>
        rw [made] at refused
        cases refused

/-- A context as callers see it. -/
def toData (context : Context) : Data :=
  .record
    [("depth", .number context.position.depth),
      ("keys", .record (Value.fieldsToData context.keys)),
      ("path", context.position.pathValue.toData)]

end Context

end QueryWalk
