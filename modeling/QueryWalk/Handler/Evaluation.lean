import QueryWalk.Handler
import QueryWalk.Query.Build

namespace QueryWalk

/-!
# Evaluation in a handler

Expressions, conditions and changes of the context are evaluated in the scope
of a running handler. Only giving a node children that do not fit it can fail.
-/

/-- What the actions of a running handler refer to. -/
structure Scope where
  node : Node
  context : Context
  rebuilt : Value
  error : Value

namespace Scope

/-- The scope at the start of a handler, its registers empty. -/
def start (node : Node) (context : Context) : Scope where
  node := node
  context := context
  rebuilt := .null
  error := .null

end Scope

/-- The child of a node at an index, null where there is none. -/
def Node.childValue (parent : Node) (index : Number) : Value :=
  match index.toIndex?.bind fun place => parent.children[place]? with
  | some child => .node child
  | none => .null

namespace Expression

mutual

/-- The value of an expression. -/
def eval (scope : Scope) : Expression → Except Failure Value
  | .node => .ok (.node scope.node)
  | .rebuilt => .ok scope.rebuilt
  | .error => .ok scope.error
  | .kind => .ok (.text scope.node.kind.name)
  | .attributes => .ok (.attributesOf scope.node)
  | .children => .ok (.nodes scope.node.children)
  | .depth => .ok (.number scope.context.position.depth)
  | .path => .ok scope.context.position.pathValue
  | .context => .ok (.record scope.context.keys)
  | .chain kept =>
      .ok ((scope.context.keys.get? kept.key).getD .null)
  | .chainKinds kept =>
      match scope.context.chain? kept with
      | some nodes =>
          .ok (.list (nodes.map fun ancestor => .text ancestor.kind.name))
      | none => .ok .null
  | .constant data => .ok (.data data)
  | .key name => .ok ((scope.context.keys.get? name).getD .null)
  | .list items => do
      return .list (← evalAll scope items)
  | .child index parent => do
      return (← parent.eval scope).asNode.childValue index
  | .childrenOf parent => do
      return .nodes (← parent.eval scope).asNode.children
  | .append suffix term => do
      return .node ((← term.eval scope).asNode.appendText suffix)
  | .update properties base => do
      return .node
        ((← base.eval scope).asNode.withProperties properties)
  | .build builder arguments => do
      return .node (Query.build builder (← evalAll scope arguments))
  | .withChildren base given => do
      let former := (← base.eval scope).asNode
      let latter := (← given.eval scope).asNodes
      return .node (← former.withChildren latter)

/-- The values of several expressions, in order. -/
def evalAll (scope : Scope) : List Expression → Except Failure (List Value)
  | [] => .ok []
  | item :: rest => do
      let value ← item.eval scope
      return value :: (← evalAll scope rest)

end

end Expression

namespace Condition

/-- Whether a condition holds. -/
def eval (scope : Scope) : Condition → Except Failure Bool
  | .not condition => do
      return !(← condition.eval scope)
  | .same left right => do
      return (← left.eval scope).sameData (← right.eval scope)
  | .equivalent left right => do
      return (← left.eval scope).asNode.equivalent
        (← right.eval scope).asNode
  | .isType subject type => do
      return (← subject.eval scope).asNode.isOfType type
  | .childCount subject count => do
      let node := (← subject.eval scope).asNode
      return decide (count.toIndex? = some node.children.length)
  | .hasKey name => .ok (scope.context.keys.contains name)
  | .someAncestor chain type =>
      .ok (((scope.context.chain? chain).getD []).any fun node =>
        node.isOfType type)

end Condition

namespace Change

/-- The values that a change assigns, all in the unchanged context. -/
def values
    (scope : Scope) :
    List (String × Expression) → Except Failure (Fields Value)
  | [] => .ok []
  | (key, expression) :: rest => do
      let value ← expression.eval scope
      return (key, value) :: (← values scope rest)

/--
The changed context: keys are assigned, then removed, and last the position is
replaced.
-/
def apply (change : Change) (scope : Scope) : Except Failure Context := do
  let assigned ← values scope change.assigned
  return {
    keys :=
      (scope.context.keys.insertAll assigned).eraseAll change.removed
    position := change.position.getD scope.context.position }

end Change

namespace Start

/-- The keys that a new traversal starts with. -/
def keys (scope : Scope) : Start → Except Failure (Fields Value)
  | .fresh keys => .ok (keys.map fun field => (field.1, .data field.2))
  | .inherited change => (change.apply scope).map Context.keys

end Start

end QueryWalk
