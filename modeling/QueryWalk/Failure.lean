import QueryWalk.Data
import QueryWalk.Kind
import QueryWalk.Number.Decimal

namespace QueryWalk

/-!
# Failures

Every way in which building a node, configuring a walker or walking a tree can
fail. A failure is a cause with its data; its wording is given once, by
`Failure.message`.
-/

/-- Why an operation failed. -/
inductive Failure where
  /-- A transformation produced another number of roots than one. -/
  | transformArity (count : Number) (wording : Option String)
  /-- A node was given a number of children its kind does not take. -/
  | nodeArity (kind : NodeKind) (expected actual : Number)
  /-- A walk went below the depth limit. -/
  | traversalDepth (maxDepth : Number)
  /-- A depth limit was not a positive integer. -/
  | invalidMaxDepth (given : Number)
  /-- A handler was handed a node outside the type it is registered under. -/
  | handlerMismatch (registered : NodeType) (kind : NodeKind)
  /-- What a context holds of a chain of ancestors cannot be spread into a list. -/
  | notIterable (key : String)
  /-- A visitor was asked to rebuild a node, which it has no function for. -/
  | noRebuild
  /-- A handler or a listener gave up with a text of its own. -/
  | handler (wording : String)
  deriving DecidableEq

namespace Failure

/-- The name of the cause. -/
def name : Failure → String
  | .transformArity .. => "TransformArityError"
  | .nodeArity .. => "NodeArityError"
  | .traversalDepth .. => "TraversalDepthError"
  | .invalidMaxDepth .. => "RangeError"
  | .handlerMismatch .. | .notIterable _ | .noRebuild => "TypeError"
  | .handler .. => "HandlerError"

/-- The explanation of the cause. -/
def message : Failure → String
  | .transformArity count wording =>
      wording.getD
        ("The transformation did not produce exactly one result (got " ++
          count.text ++ ")")
  | .nodeArity kind expected actual =>
      "A " ++ kind.name ++ " node takes exactly " ++ expected.text ++
        (if expected = .whole 1 then " child" else " children") ++
        ", got " ++ actual.text
  | .traversalDepth maxDepth =>
      "Tree is nested deeper than the configured maxDepth of " ++
        maxDepth.text
  | .invalidMaxDepth given =>
      "maxDepth must be a positive integer, got " ++ given.text
  | .handlerMismatch registered kind =>
      "Handler registered for \"" ++ registered.name ++
        "\" cannot take a \"" ++ kind.name ++ "\" node"
  | .notIterable key => "(context." ++ key ++ " ?? []) is not iterable"
  | .noRebuild => "visitor.rebuild is not a function"
  | .handler wording => wording

/-- The values that go with the cause. -/
def details : Failure → Fields Data
  | .transformArity count _ => [("count", .number count)]
  | .nodeArity kind expected actual =>
      [("actual", .number actual), ("expected", .number expected),
        ("kind", .text kind.name)]
  | .traversalDepth maxDepth => [("maxDepth", .number maxDepth)]
  | .invalidMaxDepth _ | .handlerMismatch .. | .notIterable _
  | .noRebuild | .handler _ => []

/-- A failure as handlers and callers see it. -/
def toData (failure : Failure) : Data :=
  .record
    [("data", .record failure.details),
      ("error", .text failure.name),
      ("message", .text failure.message)]

end Failure

end QueryWalk
