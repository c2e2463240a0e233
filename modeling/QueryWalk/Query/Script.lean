import QueryWalk.Query.Build

namespace QueryWalk

/-!
# Scripts

A script is a sequence of calls of the functions on nodes. The result of every
call is kept, and later calls may take it as an argument. A call that fails
leaves nothing to take.
-/

namespace Query

/-- The functions on nodes that a script can call. -/
inductive Function where
  | build (kind : NodeKind)
  | childrenOf
  | attributesOf
  | withChildren
  | nodesEqual
  | ancestryOf
  | isNodeType

namespace Function

/-- The function with a given name. -/
def ofName? : String → Option Function
  | "childrenOf" => some .childrenOf
  | "attributesOf" => some .attributesOf
  | "withChildren" => some .withChildren
  | "nodesEqual" => some .nodesEqual
  | "ancestryOf" => some .ancestryOf
  | "isNodeType" => some .isNodeType
  | name => (ofBuilderName? name).map .build

/-- Apply a function to its arguments. -/
def apply
    (function : Function)
    (arguments : List Value) :
    Except Failure Value :=
  match function with
  | .build kind => .ok (.node (Query.build kind arguments))
  | .childrenOf => .ok (.nodes first.asNode.children)
  | .attributesOf => .ok (.attributesOf first.asNode)
  | .withChildren =>
      (first.asNode.withChildren second.asNodes).map .node
  | .nodesEqual => .ok (.flag (first.asNode.equivalent second.asNode))
  | .ancestryOf =>
      .ok (.list ((ancestry first.asText).map fun type => .text type.name))
  | .isNodeType =>
      .ok (.flag
        ((NodeType.ofName? second.asText).any first.asNode.isOfType))
where
  first : Value := argument arguments 0
  second : Value := argument arguments 1
  ancestry (name : String) : List NodeType :=
    (NodeKind.ofName? name).elim [] NodeKind.ancestry

end Function

/-- An argument of a call, as it is written. -/
inductive Argument where
  | literal (value : Value)
  /-- The result of an earlier call. -/
  | result (call : Nat)
  | list (items : List Argument)

instance : Inhabited Argument := ⟨.list []⟩

mutual

/-- The value of an argument, given the results so far. -/
def Argument.value (results : List Value) : Argument → Value
  | .literal value => value
  | .result call => argument results call
  | .list items => .list (Argument.values results items)

/-- The values of several arguments. -/
def Argument.values (results : List Value) : List Argument → List Value
  | [] => []
  | item :: rest => item.value results :: Argument.values results rest

end

/-- A function with its arguments. -/
structure Call where
  function : Function
  arguments : List Argument

/-- Run calls in order, given the results so far. -/
def runCalls
    (results : List Value) :
    List Call → List (Except Failure Value)
  | [] => []
  | call :: rest =>
      let answer :=
        call.function.apply (Argument.values results call.arguments)
      answer :: runCalls (results ++ [answer.toOption.getD .null]) rest

/-- The answers of a script. -/
def runScript (calls : List Call) : List (Except Failure Value) :=
  runCalls [] calls

end Query

end QueryWalk
