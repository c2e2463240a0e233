namespace QueryWalk

/-!
# Node kinds and node types

Every node of a query has a kind. Kinds that behave alike form families, and a
handler may be registered under a kind or under a whole family: both are node
types. The ancestry of a kind lists the types its nodes belong to, the most
specific first.
-/

/-- Kinds of leaf that hold text to search for. -/
inductive TermKind where
  | word
  | phrase
  | regex
  deriving DecidableEq

/-- Kinds of parenthesised expression. -/
inductive GroupKind where
  | plain
  | field
  deriving DecidableEq

/-- Kinds of approximate match. -/
inductive ApproximationKind where
  | proximity
  | fuzzy
  deriving DecidableEq

/-- Kinds of operator with one operand. -/
inductive UnaryKind where
  | not
  | prohibit
  | plus
  deriving DecidableEq

/-- Kinds of operation with any number of operands. -/
inductive OperationKind where
  | and
  | or
  | unknown
  deriving DecidableEq

/-- What a node is. -/
inductive NodeKind where
  | term (kind : TermKind)
  | noneItem
  | group (kind : GroupKind)
  | searchField
  | approximation (kind : ApproximationKind)
  | boost
  | range
  | unary (kind : UnaryKind)
  | operation (kind : OperationKind)
  deriving DecidableEq

/-- A family of related kinds. -/
inductive Family where
  | term
  | group
  | approximation
  | unary
  | operation
  deriving DecidableEq

/-- Whatever a handler can be registered under. -/
inductive NodeType where
  | exactly (kind : NodeKind)
  | anyOf (family : Family)
  deriving DecidableEq

namespace NodeKind

/-- The name of a kind in queries and answers. -/
def name : NodeKind → String
  | .term .word => "word"
  | .term .phrase => "phrase"
  | .term .regex => "regex"
  | .noneItem => "noneItem"
  | .group .plain => "group"
  | .group .field => "fieldGroup"
  | .searchField => "searchField"
  | .approximation .proximity => "proximity"
  | .approximation .fuzzy => "fuzzy"
  | .boost => "boost"
  | .range => "range"
  | .unary .not => "not"
  | .unary .prohibit => "prohibit"
  | .unary .plus => "plus"
  | .operation .and => "andOperation"
  | .operation .or => "orOperation"
  | .operation .unknown => "unknownOperation"

/-- Every kind there is. -/
def all : List NodeKind :=
  [.term .word, .term .phrase, .term .regex, .noneItem,
    .group .plain, .group .field, .searchField,
    .approximation .proximity, .approximation .fuzzy, .boost, .range,
    .unary .not, .unary .prohibit, .unary .plus,
    .operation .and, .operation .or, .operation .unknown]

/-- The kind with a given name. -/
def ofName? (name : String) : Option NodeKind :=
  all.find? fun kind => kind.name = name

/-- The family a kind belongs to, if it has relatives. -/
def family? : NodeKind → Option Family
  | .term _ => some .term
  | .group _ => some .group
  | .approximation _ => some .approximation
  | .unary _ => some .unary
  | .operation _ => some .operation
  | .noneItem | .searchField | .boost | .range => none

/-- The types the nodes of a kind belong to, the most specific first. -/
def ancestry (kind : NodeKind) : List NodeType :=
  .exactly kind :: (kind.family?.map .anyOf).toList

/-- Names tell the kinds apart. -/
theorem ofName?_name
    (kind : NodeKind) :
    ofName? kind.name = some kind := by
  rcases kind with
    (_ | _ | _) | _ | (_ | _) | _ | (_ | _) | _ | _ |
      (_ | _ | _) | (_ | _ | _) <;>
    rfl

end NodeKind

namespace Family

/-- The name of a family in handler maps. -/
def name : Family → String
  | .term => "term"
  | .group => "baseGroup"
  | .approximation => "baseApprox"
  | .unary => "unaryOperator"
  | .operation => "baseOperation"

/-- Every family there is. -/
def all : List Family :=
  [.term, .group, .approximation, .unary, .operation]

end Family

namespace NodeType

/-- The name of a type in handler maps. -/
def name : NodeType → String
  | .exactly kind => kind.name
  | .anyOf family => family.name

/-- Every type there is: the kinds, then the families. -/
def all : List NodeType :=
  NodeKind.all.map .exactly ++ Family.all.map .anyOf

/-- The type with a given name. -/
def ofName? (name : String) : Option NodeType :=
  all.find? fun type => type.name = name

/-- Names tell the types apart. -/
theorem ofName?_name
    (type : NodeType) :
    ofName? type.name = some type := by
  cases type with
  | exactly kind =>
      have found :
          (NodeKind.all.map exactly).find?
              (fun type => type.name = (exactly kind).name) =
            some (exactly kind) := by
        rw [List.find?_map]
        exact congrArg (Option.map exactly) kind.ofName?_name
      rw [ofName?, all, List.find?_append, found, Option.some_or]
  | anyOf family =>
      cases family <;> rfl

/-- Whether the nodes of a kind belong to a type. -/
def includes (type : NodeType) (kind : NodeKind) : Bool :=
  kind.ancestry.contains type

/-- A type includes exactly the kinds that have it in their ancestry. -/
theorem includes_iff
    {type : NodeType}
    {kind : NodeKind} :
    type.includes kind = true ↔ type ∈ kind.ancestry := by
  simp [includes]

end NodeType

end QueryWalk
