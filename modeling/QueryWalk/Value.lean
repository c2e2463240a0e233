import QueryWalk.Node.Record
import QueryWalk.Query

namespace QueryWalk

/-!
# Values

Handlers compute with values: plain data, nodes, lists of values, and the
fields of a context. A value has one form as data, which answers show; data of
the form of a node may be used wherever a node is wanted.
-/

/-- Whatever a handler can compute, keep in a context or deliver. -/
inductive Value where
  | data (content : Data)
  | node (root : Node)
  | list (items : List Value)
  | record (fields : List (String × Value))

namespace Value

instance : Inhabited Value := ⟨.data .null⟩

/-- The value that stands for nothing. -/
def null : Value :=
  .data .null

/-- A text as a value. -/
def text (value : String) : Value :=
  .data (.text value)

/-- A number as a value. -/
def number (value : Number) : Value :=
  .data (.number value)

/-- A truth value as a value. -/
def flag (value : Bool) : Value :=
  .data (.flag value)

/-- Several nodes as a value. -/
def nodes (given : List Node) : Value :=
  .list (given.map .node)

/-- The attributes of a node as a value. -/
def attributesOf (node : Node) : Value :=
  .list (node.attributes.map fun declared => .data declared.toData)

mutual

/-- A value as plain data. -/
def toData : Value → Data
  | .data content => content
  | .node root => root.toData
  | .list items => .list (itemsToData items)
  | .record fields => .record (fieldsToData fields)

/-- Several values as plain data. -/
def itemsToData : List Value → List Data
  | [] => []
  | item :: rest => item.toData :: itemsToData rest

/-- Named values as plain data. -/
def fieldsToData : List (String × Value) → List (String × Data)
  | [] => []
  | (key, value) :: rest => (key, value.toData) :: fieldsToData rest

end

/-- The node that a value is or describes. -/
def node? : Value → Option Node
  | .node root => some root
  | .data content => Node.ofData? content
  | .list _ | .record _ => none

/-- The node of a value, an empty item where the value is none. -/
def asNode (value : Value) : Node :=
  value.node?.getD Query.noneItem

/-- The items of a value that is a list. -/
def items : Value → List Value
  | .list items => items
  | .data (.list items) => items.map .data
  | _ => []

/--
The values that a value can be spread into. A text is spread into its characters; nothing
but texts and lists can be spread.
-/
def spread? : Value → Option (List Value)
  | .list items => some items
  | .data (.list items) => some (items.map .data)
  | .data (.text value) =>
      some (value.toList.map fun letter => .text letter.toString)
  | _ => none

/-- The nodes of a value that is a list of nodes. -/
def asNodes (value : Value) : List Node :=
  value.items.map asNode

/-- The text of a value, empty where the value is none. -/
def asText : Value → String
  | .data (.text value) => value
  | _ => ""

/-- The number of a value, if it is one. -/
def number? : Value → Option Number
  | .data (.number value) => some value
  | _ => none

/-- The truth value of a value, if it is one. -/
def flag? : Value → Option Bool
  | .data (.flag value) => some value
  | _ => none

/-- Whether a value stands for nothing. -/
def isNull : Value → Bool
  | .data .null => true
  | _ => false

/-- Whether two values look the same in an answer. -/
def sameData (left right : Value) : Bool :=
  decide (left.toData = right.toData)

end Value

end QueryWalk
