import QueryWalk.Context

namespace QueryWalk

/-!
# Branching descents

From one root context any number of descents may start, each from any context
made before. The contexts made so far are numbered from the root, which is
number zero.
-/

/-- One descent from a context made before. -/
structure Descent where
  origin : Nat
  parent : Node
  index : Number

namespace Descent

/--
Make one descent, given the contexts made so far. What failed to be made has no
descents of its own: they fail in the same way.
-/
def follow
    (settings : Settings)
    (root : Context)
    (made : List (Except Failure Context))
    (descent : Descent) :
    Except Failure Context :=
  (made.getD descent.origin (.ok root)).bind
    (Context.descend settings descent.parent descent.index)

/-- Make descents in order, given the contexts made so far. -/
def followAll
    (settings : Settings)
    (root : Context)
    (made : List (Except Failure Context)) :
    List Descent → List (Except Failure Context)
  | [] => made
  | descent :: rest =>
      followAll settings root
        (made ++ [descent.follow settings root made])
        rest

end Descent

namespace Context

/-- A root context and the contexts that descents make from it, in order. -/
def branches
    (settings : Settings)
    (root : Context)
    (descents : List Descent) :
    List (Except Failure Context) :=
  Descent.followAll settings root [.ok root] descents

end Context

end QueryWalk
