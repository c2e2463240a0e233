import QueryWalk.Node

namespace QueryWalk

/-!
# Writing queries

One builder per kind of node, with the usual attribute values where a query
leaves them out. A node made by a builder has no undeclared properties.
-/

namespace Query

/-- How far apart the words of a phrase may stand when nothing is said. -/
def defaultProximity : Number :=
  .whole 1

/-- How similar a fuzzy match must be when nothing is said. -/
def defaultFuzziness : Number :=
  .half

/-- The operand that carries no value. -/
def noneItem : Node :=
  .noneItem []

/-- A single word. -/
def word (value : String) : Node :=
  .term .word value []

/-- A quoted phrase, without its quotes. -/
def phrase (value : String) : Node :=
  .term .phrase value []

/-- A regular expression, without its slashes. -/
def regex (value : String) : Node :=
  .term .regex value []

/-- A parenthesised expression. -/
def group (expr : Node) : Node :=
  .group .plain expr []

/-- A parenthesised expression directly under a search field. -/
def fieldGroup (expr : Node) : Node :=
  .group .field expr []

/-- An expression searched for in a named field. -/
def searchField (name : String) (expr : Node) : Node :=
  .searchField name expr []

/-- A phrase whose words may stand apart. -/
def proximity
    (subject : Node)
    (degree : Number := defaultProximity) :
    Node :=
  .approximation .proximity subject degree []

/-- A word matched by similarity. -/
def fuzzy
    (subject : Node)
    (degree : Number := defaultFuzziness) :
    Node :=
  .approximation .fuzzy subject degree []

/-- An expression with a weight. -/
def boost (expr : Node) (force : Number) : Node :=
  .boost expr force []

/-- A range, its bounds included unless told otherwise. -/
def range
    (low high : Node)
    (includeLow : Bool := true)
    (includeHigh : Bool := true) :
    Node :=
  .range low high includeLow includeHigh []

/-- The negation of an expression. -/
def not (expr : Node) : Node :=
  .unary .not expr []

/-- An expression that must not match. -/
def prohibit (expr : Node) : Node :=
  .unary .prohibit expr []

/-- An expression that must match. -/
def plus (expr : Node) : Node :=
  .unary .plus expr []

/-- A conjunction. -/
def and (operands : List Node) : Node :=
  .operation .and operands []

/-- A disjunction. -/
def or (operands : List Node) : Node :=
  .operation .or operands []

/-- Operands side by side, the operator left open. -/
def unknownOperation (operands : List Node) : Node :=
  .operation .unknown operands []

end Query

end QueryWalk
