import QueryWalk.Handler.Evaluation
import QueryWalk.Run

namespace QueryWalk

/-!
# Running a handler

The actions of a handler run in order, and the first failure ends them unless a
rescue stands around it. What was delivered and what the registers hold at that
moment stay as they are.
-/

/-- What the walk does for a handler that calls back into it. -/
structure Services where
  settings : Settings
  /-- What a node gives in a context. -/
  visitNode : Node → Context → Run Unit
  /-- What the fallback gives for a node, the replaced one if it is. -/
  generic : Node → Context → Run Unit
  /-- What the built-in fallback gives for a node. -/
  structural : Node → Context → Run Unit
  /-- A node with its children transformed. -/
  rebuild : Node → Context → Run Node
  /-- The outcome of a new traversal. -/
  restart : Node → Fields Value → Run Value

namespace Services

/-- The services when no recursion is left. -/
def exhausted (settings : Settings) : Services where
  settings := settings
  visitNode _ _ := .exhausted
  generic _ _ := .exhausted
  structural _ _ := .exhausted
  rebuild _ _ := .exhausted
  restart _ _ := .exhausted

end Services

/-- How a list of actions ended. -/
structure Finish where
  scope : Scope
  /-- The failure that ended the actions early, if one did. -/
  failure : Option Failure

namespace Finish

/-- Do something that fails or changes the registers. -/
def perform
    (scope : Scope)
    (work : Run Scope) :
    Run Finish :=
  work.attempt.bind fun
    | .ok changed => .done { scope := changed, failure := none }
    | .error failure =>
        .done { scope := scope, failure := some failure }

/-- Do something that fails or leaves the registers alone. -/
def effect
    (scope : Scope)
    (work : Run Unit) :
    Run Finish :=
  perform scope (work.bind fun _ => .done scope)

/-- Go on after some actions unless they failed. -/
def andThen
    (finish : Finish)
    (next : Scope → Run Finish) :
    Run Finish :=
  match finish.failure with
  | none => next finish.scope
  | some _ => .done finish

end Finish

namespace Action

/-- Call a service with a node and a changed context. -/
def callback
    {Outcome : Type}
    (scope : Scope)
    (service : Node → Context → Run Outcome)
    (subject : Expression)
    (change : Change) :
    Run Outcome := do
  let node ← Run.ofExcept (subject.eval scope)
  let context ← Run.ofExcept (change.apply scope)
  service node.asNode context

mutual

/-- Run one action. -/
def run (services : Services) (scope : Scope) : Action → Run Finish
  | .deliver value =>
      Finish.effect scope do
        Run.delivering (← Run.ofExcept (value.eval scope))
  | .deliverAll values =>
      Finish.effect scope do
        Run.deliverAll (← Run.ofExcept (values.eval scope)).items
  | .log value =>
      Finish.effect scope do
        Run.noting
          (.entry (.logged (← Run.ofExcept (value.eval scope))))
  | .fail wording =>
      Finish.effect scope (.failed (.handler wording))
  | .generic subject change =>
      Finish.effect scope
        (callback scope services.generic subject change)
  | .structural subject change =>
      Finish.effect scope
        (callback scope services.structural subject change)
  | .child place index change =>
      Finish.effect scope do
        let above ← Run.ofExcept (change.apply scope)
        let context ← Run.ofExcept
          (above.descend services.settings scope.node index)
        services.visitNode (scope.node.childValue place).asNode context
  | .visit subject change =>
      Finish.effect scope
        (callback scope services.visitNode subject change)
  | .visitUnder subject parent index change =>
      Finish.effect scope do
        let node ← Run.ofExcept (subject.eval scope)
        let context ← callback scope
          (fun parent above => Run.ofExcept
            (above.descend services.settings parent index))
          parent change
        services.visitNode node.asNode context
  | .rebuild subject change =>
      Finish.perform scope do
        let result ← callback scope services.rebuild subject change
        return { scope with rebuilt := .node result }
  | .restart tree start =>
      Finish.effect scope do
        let root ← Run.ofExcept (tree.eval scope)
        let keys ← Run.ofExcept (start.keys scope)
        Run.delivering (← services.restart root.asNode keys)
  | .choose condition consequence alternative =>
      match condition.eval scope with
      | .ok true => runAll services scope consequence
      | .ok false => runAll services scope alternative
      | .error failure =>
          .done { scope := scope, failure := some failure }
  | .rescue body handling =>
      (runAll services scope body).bind fun finish =>
        match finish.failure with
        | none => .done finish
        | some failure =>
            runAll services
              { finish.scope with error := .data failure.toData }
              handling

/-- Run actions in order, up to the first that fails. -/
def runAll (services : Services) (scope : Scope) : List Action → Run Finish
  | [] => .done { scope := scope, failure := none }
  | action :: rest =>
      (action.run services scope).bind fun finish =>
        finish.andThen fun changed => runAll services changed rest

end

end Action

namespace Handler

/-- What the actions of a handler give for a node, run lazily. -/
def body
    (handler : Handler)
    (services : Services)
    (node : Node)
    (context : Context) :
    Run Unit :=
  (Action.runAll services (.start node context) handler.actions).bind
    fun finish =>
      match finish.failure with
      | none => .done ()
      | some failure => .failed failure

/--
Call a handler. The call of a lazy handler does nothing and leaves its body to
be run; the call of an eager one runs the body and leaves the results.
-/
def call
    (handler : Handler)
    (services : Services)
    (node : Node)
    (context : Context) :
    Run (Run Unit) :=
  if handler.eager then
    (handler.body services node context).gather.bind fun results =>
      .done (.deliverAll results)
  else
    .done (handler.body services node context)

end Handler

end QueryWalk
