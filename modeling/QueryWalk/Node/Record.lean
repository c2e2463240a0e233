import QueryWalk.Node

namespace QueryWalk

/-!
# Nodes as records

Outside a walk a node is a record: its kind under `kind`, every declared
attribute and child under its name, and the undeclared properties beside them.
`Node.toData` writes that record and `Node.ofData?` reads it.
-/

namespace Node

/-- A record of a kind, with the declared values over the undeclared ones. -/
def describe
    (kind : NodeKind)
    (declared : List (String × Data))
    (extra : Fields Data) :
    Data :=
  .record (extra.insertAll (("kind", .text kind.name) :: declared))

mutual

/-- The record of a node. -/
def toData : Node → Data
  | .term kind value extra =>
      describe (.term kind) [("value", .text value)] extra
  | .noneItem extra =>
      describe .noneItem [] extra
  | .group kind expr extra =>
      describe (.group kind) [("expr", expr.toData)] extra
  | .searchField name expr extra =>
      describe .searchField
        [("name", .text name), ("expr", expr.toData)]
        extra
  | .approximation kind subject degree extra =>
      describe (.approximation kind)
        [("term", subject.toData), ("degree", .number degree)]
        extra
  | .boost expr force extra =>
      describe .boost
        [("expr", expr.toData), ("force", .number force)]
        extra
  | .range low high includeLow includeHigh extra =>
      describe .range
        [("low", low.toData), ("high", high.toData),
          ("includeLow", .flag includeLow),
          ("includeHigh", .flag includeHigh)]
        extra
  | .unary kind expr extra =>
      describe (.unary kind) [("expr", expr.toData)] extra
  | .operation kind operands extra =>
      describe (.operation kind)
        [("operands", .list (allToData operands))]
        extra

/-- The records of several nodes. -/
def allToData : List Node → List Data
  | [] => []
  | node :: rest => node.toData :: allToData rest

end

/-- Several nodes are written one by one. -/
theorem allToData_eq_map
    (nodes : List Node) :
    allToData nodes = nodes.map toData := by
  induction nodes with
  | nil =>
      rfl
  | cons node rest inductionHypothesis =>
      simp only [allToData, inductionHypothesis, List.map_cons]

/-- A value of a record, with the node or the nodes it can be read as. -/
structure Reading where
  data : Data
  node? : Option Node
  nodes? : Option (List Node)

/-- Read a node off its properties, once these have been read. -/
def ofReadings? (properties : Fields Reading) : Option Node := do
  let kind ← NodeKind.ofName? (← text? "kind")
  match kind with
  | .term kind =>
      return .term kind (← text? "value") (besides ["value"])
  | .noneItem =>
      return .noneItem (besides [])
  | .group kind =>
      return .group kind (← node? "expr") (besides ["expr"])
  | .searchField =>
      return .searchField
        (← text? "name") (← node? "expr") (besides ["name", "expr"])
  | .approximation kind =>
      return .approximation kind
        (← node? "term") (← number? "degree") (besides ["term", "degree"])
  | .boost =>
      return .boost
        (← node? "expr") (← number? "force") (besides ["expr", "force"])
  | .range =>
      return .range
        (← node? "low") (← node? "high")
        (← flag? "includeLow") (← flag? "includeHigh")
        (besides ["low", "high", "includeLow", "includeHigh"])
  | .unary kind =>
      return .unary kind (← node? "expr") (besides ["expr"])
  | .operation kind =>
      return .operation kind (← nodes? "operands") (besides ["operands"])
where
  text? (key : String) : Option String := do
    match (← properties.get? key).data with
    | .text value => some value
    | _ => none
  number? (key : String) : Option Number := do
    match (← properties.get? key).data with
    | .number value => some value
    | _ => none
  flag? (key : String) : Option Bool := do
    match (← properties.get? key).data with
    | .flag value => some value
    | _ => none
  node? (key : String) : Option Node := do
    (← properties.get? key).node?
  nodes? (key : String) : Option (List Node) := do
    (← properties.get? key).nodes?
  besides (declared : List String) : Fields Data :=
    (properties.eraseAll ("kind" :: declared)).map fun property =>
      (property.1, property.2.data)

mutual

/-- Read data as itself and, where it has the form, as a node or as nodes. -/
def Reading.of : Data → Reading
  | .record fields =>
      { data := .record fields
        node? := ofReadings? (Reading.ofFields fields)
        nodes? := none }
  | .list items =>
      { data := .list items
        node? := none
        nodes? := Reading.nodesOf? items }
  | other =>
      { data := other
        node? := none
        nodes? := none }

/-- Read every item of a list as a node. -/
def Reading.nodesOf? : List Data → Option (List Node)
  | [] => some []
  | item :: rest => do
      return (← (Reading.of item).node?) :: (← Reading.nodesOf? rest)

/-- Read every value of a record. -/
def Reading.ofFields : List (String × Data) → Fields Reading
  | [] => []
  | (key, value) :: rest =>
      (key, Reading.of value) :: Reading.ofFields rest

end

/-- The node that a record describes. -/
def ofData? (data : Data) : Option Node :=
  (Reading.of data).node?

/--
A copy of a node with some properties replaced or added. A property that does
not fit the kind leaves the node as it is.
-/
def withProperties (node : Node) (given : Fields Data) : Node :=
  match node.toData with
  | .record fields =>
      (ofData? (.record (Fields.insertAll fields given))).getD node
  | _ => node

/-- A copy of a term with text appended to its value; other nodes stay. -/
def appendText (suffix : String) : Node → Node
  | .term kind value extra => .term kind (value ++ suffix) extra
  | node => node

end Node

end QueryWalk
