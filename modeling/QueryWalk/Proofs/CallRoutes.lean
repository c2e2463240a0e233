import QueryWalk.Proofs.RunContracts
import QueryWalk.Walker

namespace QueryWalk

/-!
# Routes of calls

A walk consists of calls: a node is visited, the fallback is asked for it, it is
rebuilt, a new traversal is begun. One call leads to others, by what the engine
does on its own and by what the handlers do, and on the way to the next call the
context moves: a handler changes it, or the context of a child is made. A route
is such a chain of calls with its moves. The main statement here is that
whenever a walk calls a handler, a route leads from the first call to that one.
-/

/-- What a walk can be asked to do with a node. -/
inductive Service where
  | visitNode
  | generic
  | structural
  | rebuild
  /-- Begin a new traversal. -/
  | restart
  deriving DecidableEq

/--
Whether a service visits the children of a node: the built-in fallback does, and so does
rebuilding the node, where there is a function for it.
-/
def Service.VisitsChildren (mode : Mode) (service : Service) : Prop :=
  service = .structural ∨ service = .rebuild ∧ mode = .transformer

/-- Something a walk is asked to do. -/
structure Call where
  service : Service
  node : Node
  context : Context

namespace Call

/-- The call that begins a traversal of a tree. -/
def traversal
    (settings : Settings)
    (tree : Node)
    (keys : Fields Value) :
    Call where
  service := .restart
  node := tree
  context := .root settings keys

end Call

/-- What happens to a context between one call and the next. -/
inductive Move where
  /-- A handler changes its context. -/
  | changed (scope : Scope) (change : Change)
  /-- The context of a child is made. -/
  | descended (parent : Node) (index : Number)
  /-- A new traversal begins. -/
  | restarted (keys : Fields Value)

namespace Scope

/-- Whether a scope belongs to a handler called for a node in a context. -/
structure IsAt (scope : Scope) (node : Node) (context : Context) : Prop where
  node_eq : scope.node = node
  context_eq : scope.context = context

end Scope

namespace Action

/-- The call back that an action makes for a node in a changed context. -/
def callback? : Action → Option (Service × Expression × Change)
  | .generic subject change => some (.generic, subject, change)
  | .structural subject change => some (.structural, subject, change)
  | .visit subject change => some (.visitNode, subject, change)
  | .rebuild subject change => some (.rebuild, subject, change)
  | _ => none

/--
An action of a handler called for a node in a context can make a call, after
moves of the context. The registers may hold anything.
-/
inductive Makes
    (settings : Settings)
    (node : Node)
    (context : Context) :
    Action → List Move → Call → Prop where
  | callback
      {action : Action}
      {service : Service}
      {subject : Expression}
      {change : Change}
      {scope : Scope}
      {value : Value}
      {changed : Context}
      (isAt : scope.IsAt node context)
      (calls : action.callback? = some (service, subject, change))
      (evaluated : subject.eval scope = .ok value)
      (applied : change.apply scope = .ok changed) :
      Makes settings node context action
        [.changed scope change]
        { service := service, node := value.asNode, context := changed }
  | child
      {place index : Number}
      {change : Change}
      {scope : Scope}
      {above below : Context}
      (isAt : scope.IsAt node context)
      (applied : change.apply scope = .ok above)
      (descended : above.descend settings node index = .ok below) :
      Makes settings node context (.child place index change)
        [.changed scope change, .descended node index]
        { service := .visitNode
          node := (node.childValue place).asNode
          context := below }
  | visitUnder
      {subject parent : Expression}
      {index : Number}
      {change : Change}
      {scope : Scope}
      {value upper : Value}
      {above below : Context}
      (isAt : scope.IsAt node context)
      (evaluated : subject.eval scope = .ok value)
      (upperEvaluated : parent.eval scope = .ok upper)
      (applied : change.apply scope = .ok above)
      (descended : above.descend settings upper.asNode index = .ok below) :
      Makes settings node context (.visitUnder subject parent index change)
        [.changed scope change, .descended upper.asNode index]
        { service := .visitNode, node := value.asNode, context := below }
  | restart
      {tree : Expression}
      {start : Start}
      {scope : Scope}
      {value : Value}
      {keys : Fields Value}
      (isAt : scope.IsAt node context)
      (evaluated : tree.eval scope = .ok value)
      (given : start.keys scope = .ok keys) :
      Makes settings node context (.restart tree start)
        [.restarted keys]
        (.traversal settings value.asNode keys)
  | consequence
      {condition : Condition}
      {consequence alternative : List Action}
      {action : Action}
      {moves : List Move}
      {call : Call}
      {scope : Scope}
      (isAt : scope.IsAt node context)
      (holds : condition.eval scope = .ok true)
      (member : action ∈ consequence)
      (makes : Makes settings node context action moves call) :
      Makes settings node context
        (.choose condition consequence alternative) moves call
  | alternative
      {condition : Condition}
      {consequence alternative : List Action}
      {action : Action}
      {moves : List Move}
      {call : Call}
      {scope : Scope}
      (isAt : scope.IsAt node context)
      (fails : condition.eval scope = .ok false)
      (member : action ∈ alternative)
      (makes : Makes settings node context action moves call) :
      Makes settings node context
        (.choose condition consequence alternative) moves call
  | body
      {body handling : List Action}
      {action : Action}
      {moves : List Move}
      {call : Call}
      (member : action ∈ body)
      (makes : Makes settings node context action moves call) :
      Makes settings node context (.rescue body handling) moves call
  | handling
      {body handling : List Action}
      {action : Action}
      {moves : List Move}
      {call : Call}
      (member : action ∈ handling)
      (makes : Makes settings node context action moves call) :
      Makes settings node context (.rescue body handling) moves call

/-- One action of a handler called for a node in a context may run within another. -/
inductive Within (node : Node) (context : Context) : Action → Action → Prop where
  | itself
      {action : Action} :
      Within node context action action
  | consequence
      {condition : Condition}
      {consequence alternative : List Action}
      {inner action : Action}
      {scope : Scope}
      (isAt : scope.IsAt node context)
      (holds : condition.eval scope = .ok true)
      (member : action ∈ consequence)
      (within : Within node context inner action) :
      Within node context inner
        (.choose condition consequence alternative)
  | alternative
      {condition : Condition}
      {consequence alternative : List Action}
      {inner action : Action}
      {scope : Scope}
      (isAt : scope.IsAt node context)
      (fails : condition.eval scope = .ok false)
      (member : action ∈ alternative)
      (within : Within node context inner action) :
      Within node context inner
        (.choose condition consequence alternative)
  | body
      {body handling : List Action}
      {inner action : Action}
      (member : action ∈ body)
      (within : Within node context inner action) :
      Within node context inner (.rescue body handling)
  | handling
      {body handling : List Action}
      {inner action : Action}
      (member : action ∈ handling)
      (within : Within node context inner action) :
      Within node context inner (.rescue body handling)

/-- What an action within another can call the other can call. -/
theorem Within.makes
    {settings : Settings}
    {node : Node}
    {context : Context}
    {inner action : Action}
    {moves : List Move}
    {call : Call}
    (within : inner.Within node context action)
    (makes : inner.Makes settings node context moves call) :
    action.Makes settings node context moves call := by
  induction within with
  | itself =>
      exact makes
  | consequence isAt holds member _ inductionHypothesis =>
      exact .consequence isAt holds member (inductionHypothesis makes)
  | alternative isAt fails member _ inductionHypothesis =>
      exact .alternative isAt fails member (inductionHypothesis makes)
  | body member _ inductionHypothesis =>
      exact .body member (inductionHypothesis makes)
  | handling member _ inductionHypothesis =>
      exact .handling member (inductionHypothesis makes)

/-- An action within one that is within another is within the other. -/
theorem Within.trans
    {node : Node}
    {context : Context}
    {innermost inner action : Action}
    (first : innermost.Within node context inner)
    (second : inner.Within node context action) :
    innermost.Within node context action := by
  induction second with
  | itself =>
      exact first
  | consequence isAt holds member _ inductionHypothesis =>
      exact .consequence isAt holds member (inductionHypothesis first)
  | alternative isAt fails member _ inductionHypothesis =>
      exact .alternative isAt fails member (inductionHypothesis first)
  | body member _ inductionHypothesis =>
      exact .body member (inductionHypothesis first)
  | handling member _ inductionHypothesis =>
      exact .handling member (inductionHypothesis first)

/-- The parent, index and change with which an action asks for a child's context. -/
def derivation? : Action → Option (Expression × Number × Change)
  | .child _ index change => some (.node, index, change)
  | .visitUnder _ parent index change => some (parent, index, change)
  | _ => none

/--
An action of a handler called for a node in a context can ask for the context of the
child of a parent at an index, below a context that it has changed.
-/
inductive Derives
    (node : Node)
    (context : Context)
    (action : Action) :
    Context → Node → Number → Prop where
  | asks
      {inner : Action}
      {upper : Expression}
      {index : Number}
      {change : Change}
      {scope : Scope}
      {value : Value}
      {above : Context}
      (within : inner.Within node context action)
      (isAt : scope.IsAt node context)
      (derivation : inner.derivation? = some (upper, index, change))
      (evaluated : upper.eval scope = .ok value)
      (applied : change.apply scope = .ok above) :
      Derives node context action above value.asNode index

/-- What an action within another can ask for the other can ask for. -/
theorem Within.derives
    {node parent : Node}
    {context above : Context}
    {inner action : Action}
    {index : Number}
    (within : inner.Within node context action)
    (derives : inner.Derives node context above parent index) :
    action.Derives node context above parent index := by
  cases derives with
  | asks innermost isAt derivation evaluated applied =>
      exact .asks (innermost.trans within) isAt derivation evaluated
        applied

/-- What an action fails with in a scope before it calls back. -/
def Misses (scope : Scope) (failure : Failure) : Action → Prop
  | .deliver value | .deliverAll value | .log value =>
      value.eval scope = .error failure
  | .fail wording => failure = .handler wording
  | .generic subject change | .structural subject change
  | .visit subject change | .rebuild subject change =>
      subject.eval scope = .error failure ∨
        change.apply scope = .error failure
  | .child _ _ change => change.apply scope = .error failure
  | .visitUnder subject parent _ change =>
      subject.eval scope = .error failure ∨
        parent.eval scope = .error failure ∨
        change.apply scope = .error failure
  | .restart tree start =>
      tree.eval scope = .error failure ∨
        start.keys scope = .error failure
  | .choose condition _ _ => condition.eval scope = .error failure
  | .rescue .. => False

/--
An action of a handler called for a node in a context can fail by itself: with what some
action within it fails with before it calls back.
-/
inductive Raises
    (node : Node)
    (context : Context)
    (action : Action) :
    Failure → Prop where
  | misses
      {inner : Action}
      {scope : Scope}
      {failure : Failure}
      (within : inner.Within node context action)
      (isAt : scope.IsAt node context)
      (misses : inner.Misses scope failure) :
      Raises node context action failure

/-- What an action within another can fail with the other can fail with. -/
theorem Within.raises
    {node : Node}
    {context : Context}
    {inner action : Action}
    {failure : Failure}
    (within : inner.Within node context action)
    (raises : inner.Raises node context failure) :
    action.Raises node context failure := by
  cases raises with
  | misses innermost isAt misses =>
      exact .misses (innermost.trans within) isAt misses

end Action

namespace Handler

/-- A handler called for a node in a context can make a call. -/
def Makes
    (settings : Settings)
    (node : Node)
    (context : Context)
    (handler : Handler)
    (moves : List Move)
    (call : Call) :
    Prop :=
  ∃ action ∈ handler.actions,
    action.Makes settings node context moves call

/-- A handler called for a node in a context can ask for the context of a child. -/
def Derives
    (node : Node)
    (context : Context)
    (handler : Handler)
    (above : Context)
    (parent : Node)
    (index : Number) :
    Prop :=
  ∃ action ∈ handler.actions,
    action.Derives node context above parent index

/-- A handler called for a node in a context can fail by itself. -/
def Raises
    (node : Node)
    (context : Context)
    (handler : Handler)
    (failure : Failure) :
    Prop :=
  ∃ action ∈ handler.actions, action.Raises node context failure

end Handler

namespace Walker

/-- A call makes the walk call a handler, under the type it is found for. -/
inductive Invokes
    (walker : Walker)
    (handlers : HandlerMap Handler) :
    Call → Option NodeType → Handler → Prop where
  | resolved
      {node : Node}
      {context : Context}
      {registration : Registration Handler}
      (found : handlers.resolve? node.kind = some registration) :
      Invokes walker handlers
        { service := .visitNode, node := node, context := context }
        (some registration.type)
        registration.handler
  | replaced
      {node : Node}
      {context : Context}
      {handler : Handler}
      (given : walker.fallback = some handler) :
      Invokes walker handlers
        { service := .generic, node := node, context := context }
        none
        handler

/-- One call leads to another, after moves of the context. -/
inductive Leads
    (walker : Walker)
    (handlers : HandlerMap Handler) :
    Call → List Move → Call → Prop where
  /-- The handler called makes a call of its own. -/
  | byHandler
      {call next : Call}
      {type : Option NodeType}
      {handler : Handler}
      {moves : List Move}
      (invokes : walker.Invokes handlers call type handler)
      (makes :
        handler.Makes walker.settings call.node call.context moves next) :
      Leads walker handlers call moves next
  /-- A node without a handler goes to the fallback. -/
  | toFallback
      {node : Node}
      {context : Context}
      (missed : handlers.resolve? node.kind = none) :
      Leads walker handlers
        { service := .visitNode, node := node, context := context }
        []
        { service := .generic, node := node, context := context }
  /-- The fallback that is not replaced is the built-in one. -/
  | toStructural
      {node : Node}
      {context : Context}
      (original : walker.fallback = none) :
      Leads walker handlers
        { service := .generic, node := node, context := context }
        []
        { service := .structural, node := node, context := context }
  /-- The built-in fallback, like a rebuild, visits the children. -/
  | toChild
      {service : Service}
      {node child : Node}
      {context below : Context}
      {index : Nat}
      (visits : service.VisitsChildren walker.mode)
      (isChild : node.children[index]? = some child)
      (descended :
        context.descend walker.settings node (.ofNat index) = .ok below) :
      Leads walker handlers
        { service := service, node := node, context := context }
        [.descended node (.ofNat index)]
        { service := .visitNode, node := child, context := below }
  /-- A traversal visits its root. -/
  | toRoot
      {tree : Node}
      {keys : Fields Value} :
      Leads walker handlers
        (.traversal walker.settings tree keys)
        []
        { service := .visitNode
          node := tree
          context := .root walker.settings keys }

/-- At a call the context of a child is asked for, below a context. -/
inductive Derives
    (walker : Walker)
    (handlers : HandlerMap Handler) :
    Call → Context → Node → Number → Prop where
  | byHandler
      {call : Call}
      {type : Option NodeType}
      {handler : Handler}
      {above : Context}
      {parent : Node}
      {index : Number}
      (invokes : walker.Invokes handlers call type handler)
      (derives :
        handler.Derives call.node call.context above parent index) :
      Derives walker handlers call above parent index
  /-- The built-in fallback, like a rebuild, asks for those of all children. -/
  | byEngine
      {service : Service}
      {node child : Node}
      {context : Context}
      {index : Nat}
      (visits : service.VisitsChildren walker.mode)
      (isChild : node.children[index]? = some child) :
      Derives walker handlers
        { service := service, node := node, context := context }
        context node (.ofNat index)

/-- A chain of calls from a first one to another, with the moves between. -/
inductive Route
    (walker : Walker)
    (handlers : HandlerMap Handler)
    (first : Call) :
    List Move → Call → Prop where
  | here : Route walker handlers first [] first
  | onward
      {moves further : List Move}
      {call next : Call}
      (route : Route walker handlers first moves call)
      (leads : walker.Leads handlers call further next) :
      Route walker handlers first (moves ++ further) next

/-- A route goes on where another ends. -/
theorem Route.trans
    {walker : Walker}
    {handlers : HandlerMap Handler}
    {first call next : Call}
    {moves further : List Move}
    (route : walker.Route handlers first moves call)
    (onward : walker.Route handlers call further next) :
    walker.Route handlers first (moves ++ further) next := by
  induction onward with
  | here =>
      rw [List.append_nil]
      exact route
  | onward _ leads inductionHypothesis =>
      rw [← List.append_assoc]
      exact inductionHypothesis.onward leads

end Walker

end QueryWalk
