import QueryWalk.Value

namespace QueryWalk

/-!
# Building nodes by name

The builders of a query can be chosen by name and applied to a list of values.
A missing argument, or one that stands for nothing, takes its usual value.
-/

namespace Query

/-- The name of the builder of a kind. -/
def builderName : NodeKind → String
  | .noneItem => "NONE_ITEM"
  | .operation .and => "and"
  | .operation .or => "or"
  | kind => kind.name

/-- The kind whose builder has a given name. -/
def ofBuilderName? (name : String) : Option NodeKind :=
  NodeKind.all.find? fun kind => builderName kind = name

/-- An argument by its place. -/
def argument (arguments : List Value) (place : Nat) : Value :=
  arguments.getD place .null

/-- Apply the builder of a kind to its arguments. -/
def build (kind : NodeKind) (arguments : List Value) : Node :=
  match kind with
  | .term .word => word (text 0)
  | .term .phrase => phrase (text 0)
  | .term .regex => regex (text 0)
  | .noneItem => noneItem
  | .group .plain => group (node 0)
  | .group .field => fieldGroup (node 0)
  | .searchField => searchField (text 0) (node 1)
  | .approximation .proximity =>
      proximity (node 0) (number 1 defaultProximity)
  | .approximation .fuzzy =>
      fuzzy (node 0) (number 1 defaultFuzziness)
  | .boost => boost (node 0) (number 1 .notANumber)
  | .range => range (node 0) (node 1) (flag 2) (flag 3)
  | .unary .not => not (node 0)
  | .unary .prohibit => prohibit (node 0)
  | .unary .plus => plus (node 0)
  | .operation .and => and (arguments.map Value.asNode)
  | .operation .or => or (arguments.map Value.asNode)
  | .operation .unknown => unknownOperation (arguments.map Value.asNode)
where
  text (place : Nat) : String :=
    (argument arguments place).asText
  node (place : Nat) : Node :=
    (argument arguments place).asNode
  number (place : Nat) (usual : Number) : Number :=
    (argument arguments place).number?.getD usual
  flag (place : Nat) : Bool :=
    (argument arguments place).flag?.getD true

/-- Builder names tell the kinds apart. -/
theorem ofBuilderName?_builderName
    (kind : NodeKind) :
    ofBuilderName? (builderName kind) = some kind := by
  rcases kind with
    (_ | _ | _) | _ | (_ | _) | _ | (_ | _) | _ | _ |
      (_ | _ | _) | (_ | _ | _) <;>
    rfl

end Query

end QueryWalk
