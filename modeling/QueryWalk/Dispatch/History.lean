import QueryWalk.Dispatch

namespace QueryWalk

/-!
# Histories of a handler table

A caller makes a table from a map and goes on to change that map, to resolve
nodes and to call the handlers found. Here a handler is a label that it answers
with, so that a history shows which handler was called.
-/

/-- A caller's map and the table made from it. -/
structure DispatchState (Label : Type) where
  callerHandlers : HandlerMap Label
  table : HandlerTable Label

/-- What a caller can do. -/
inductive DispatchStep (Label : Type) where
  | set (type : NodeType) (label : Label)
  | remove (type : NodeType)
  | resolve (node : Node)
  /-- Resolve for one node and hand the handler another. -/
  | handle (node given : Node)

/-- What a caller is told. -/
inductive DispatchReply (Label : Type) where
  | done
  | resolved (type : Option NodeType)
  | handled (type : NodeType) (results : List Label)
  | unhandled
  | refused (failure : Failure)

namespace DispatchState

variable {Label : Type}

/-- The state right after the table is made. -/
def ofMap (handlers : HandlerMap Label) : DispatchState Label where
  callerHandlers := handlers
  table := .ofMap handlers

/-- Call the handler of a registration with a node. -/
def call
    (registration : Registration Label)
    (given : Node) :
    DispatchReply Label :=
  match registration.handlerFor given with
  | .ok label => .handled registration.type [label]
  | .error failure => .refused failure

/-- Take one step. -/
def step
    (state : DispatchState Label) :
    DispatchStep Label → DispatchReply Label × DispatchState Label
  | .set type label =>
      (.done,
        { state with
          callerHandlers := state.callerHandlers.set type label })
  | .remove type =>
      (.done,
        { state with
          callerHandlers := state.callerHandlers.remove type })
  | .resolve node =>
      let (answer, table) := state.table.resolve node.kind
      (.resolved (answer.map Registration.type),
        { state with table := table })
  | .handle node given =>
      let (answer, table) := state.table.resolve node.kind
      (answer.elim .unhandled fun registration => call registration given,
        { state with table := table })

/-- What the table remembers, in the order of the names of the kinds. -/
def remembered (state : DispatchState Label) :
    List (NodeKind × Option NodeType) :=
  (state.table.remembered.map fun entry =>
      (entry.1, entry.2.map Registration.type)).mergeSort
    fun first second => decide (first.1.name ≤ second.1.name)

/-- The replies to a sequence of steps, each with what is remembered after it. -/
def history
    (state : DispatchState Label) :
    List (DispatchStep Label) →
      List (DispatchReply Label × List (NodeKind × Option NodeType))
  | [] => []
  | step :: rest =>
      let (reply, next) := state.step step
      (reply, next.remembered) :: next.history rest

end DispatchState

end QueryWalk
