import QueryWalk.Node

namespace QueryWalk

/-!
# Dispatch

A handler map registers handlers under node types. The handler of a kind is the
one registered under the most specific type of its ancestry. A handler table
holds a copy of such a map and remembers every answer it gave, misses included;
in a sound table what is remembered is what the map says.
-/

/-- Handlers under the types they are registered for. -/
abbrev HandlerMap (Handler : Type) :=
  List (NodeType × Handler)

/-- A handler with the type it was found under. -/
structure Registration (Handler : Type) where
  type : NodeType
  handler : Handler

namespace Registration

variable {Handler : Type}

/-- The handler, provided that a node belongs to the type it is meant for. -/
def handlerFor
    (registration : Registration Handler)
    (node : Node) :
    Except Failure Handler :=
  if node.isOfType registration.type then
    .ok registration.handler
  else
    .error (.handlerMismatch registration.type node.kind)

end Registration

namespace HandlerMap

variable {Handler : Type}

/-- The handler registered under a type. -/
def handler? (handlers : HandlerMap Handler) (type : NodeType) :
    Option Handler :=
  (handlers.find? fun entry => entry.1 = type).map Prod.snd

/-- The map without a handler under a type. -/
def remove (handlers : HandlerMap Handler) (type : NodeType) :
    HandlerMap Handler :=
  handlers.filter fun entry => entry.1 ≠ type

/-- The map with a handler under a type, in place of any former one. -/
def set
    (handlers : HandlerMap Handler)
    (type : NodeType)
    (handler : Handler) :
    HandlerMap Handler :=
  (type, handler) :: handlers.remove type

/-- The registration under a type. -/
def registration? (handlers : HandlerMap Handler) (type : NodeType) :
    Option (Registration Handler) :=
  (handlers.handler? type).map fun handler =>
    { type := type, handler := handler }

/-- The registration for a kind: the most specific one of its ancestry. -/
def resolve? (handlers : HandlerMap Handler) (kind : NodeKind) :
    Option (Registration Handler) :=
  kind.ancestry.findSome? handlers.registration?

/-- Without handlers no kind has one. -/
@[simp] theorem resolve?_nil
    (kind : NodeKind) :
    resolve? ([] : HandlerMap Handler) kind = none :=
  List.findSome?_eq_none_iff.mpr fun _ _ => rfl

/-- A kind is only given handlers of types that include it. -/
theorem includes_of_resolve?
    {handlers : HandlerMap Handler}
    {kind : NodeKind}
    {registration : Registration Handler}
    (resolved : handlers.resolve? kind = some registration) :
    registration.type.includes kind = true := by
  obtain ⟨type, member, found⟩ :=
    List.exists_of_findSome?_eq_some resolved
  obtain ⟨handler, _, same⟩ :=
    Option.map_eq_some_iff.mp found
  subst same
  exact NodeType.includes_iff.mpr member

/-- What a kind resolves to is in the map. -/
theorem mem_of_resolve?
    {handlers : HandlerMap Handler}
    {kind : NodeKind}
    {registration : Registration Handler}
    (resolved : handlers.resolve? kind = some registration) :
    (registration.type, registration.handler) ∈ handlers := by
  obtain ⟨type, _, found⟩ :=
    List.exists_of_findSome?_eq_some resolved
  obtain ⟨handler, underType, same⟩ :=
    Option.map_eq_some_iff.mp found
  subst same
  obtain ⟨entry, first, same⟩ :=
    Option.map_eq_some_iff.mp underType
  subst same
  have isUnderType : entry.1 = type := by
    simpa using List.find?_some first
  subst isUnderType
  exact List.mem_of_find?_eq_some first

end HandlerMap

/-- A copy of a handler map, with the answers given so far. -/
structure HandlerTable (Handler : Type) where
  handlers : HandlerMap Handler
  remembered : List (NodeKind × Option (Registration Handler))

namespace HandlerTable

variable {Handler : Type}

/-- A table that has not answered anything yet. -/
def ofMap (handlers : HandlerMap Handler) : HandlerTable Handler where
  handlers := handlers
  remembered := []

/-- The answer given for a kind before, if there was one. -/
def answer?
    (table : HandlerTable Handler)
    (kind : NodeKind) :
    Option (Option (Registration Handler)) :=
  (table.remembered.find? fun entry => entry.1 = kind).map Prod.snd

/-- The registration for a kind, and the table that remembers it. -/
def resolve
    (table : HandlerTable Handler)
    (kind : NodeKind) :
    Option (Registration Handler) × HandlerTable Handler :=
  match table.answer? kind with
  | some answer => (answer, table)
  | none =>
      let answer := table.handlers.resolve? kind
      (answer,
        { table with remembered := (kind, answer) :: table.remembered })

/-- Whatever a sound table remembers is what its map says. -/
def Sound (table : HandlerTable Handler) : Prop :=
  ∀ kind answer,
    table.answer? kind = some answer →
    answer = table.handlers.resolve? kind

/-- A fresh table is sound. -/
theorem sound_ofMap
    (handlers : HandlerMap Handler) :
    (ofMap handlers).Sound := by
  intro kind answer answered
  cases answered

/-- Answering does not change the map of a table. -/
@[simp] theorem handlers_resolve
    (table : HandlerTable Handler)
    (kind : NodeKind) :
    (table.resolve kind).2.handlers = table.handlers := by
  unfold resolve
  split <;> rfl

/-- A sound table answers what its map says. -/
theorem Sound.resolve_fst
    {table : HandlerTable Handler}
    (sound : table.Sound)
    (kind : NodeKind) :
    (table.resolve kind).1 = table.handlers.resolve? kind := by
  unfold resolve
  split
  · rename_i answer answered
    exact sound kind answer answered
  · rfl

/-- Answering keeps a table sound. -/
theorem Sound.resolve_snd
    {table : HandlerTable Handler}
    (sound : table.Sound)
    (kind : NodeKind) :
    (table.resolve kind).2.Sound := by
  unfold resolve
  split
  · exact sound
  · intro other answer answered
    by_cases same : kind = other
    · subst same
      simpa [answer?, eq_comm] using answered
    · apply sound other answer
      simpa [answer?, same] using answered

end HandlerTable

end QueryWalk
