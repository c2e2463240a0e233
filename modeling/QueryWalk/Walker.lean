import QueryWalk.Handler.Activation

namespace QueryWalk

/-!
# Walkers

A walker visits a tree depth first. At every node the handler that the node's
kind resolves to is called; a node without one goes to a fallback. In a visitor
the fallback visits the children, in order. In a transformer every node gives
its replacements, and the fallback gives the node rebuilt from the replacements
of its children. The fallback may be replaced by a handler.
-/

/-- What a walker makes of a tree. -/
inductive Mode where
  /-- Report results, one by one. -/
  | visitor
  /-- Rebuild the tree from replacements. -/
  | transformer
  deriving DecidableEq

/-- A walker, without the handlers that it is used with. -/
structure Walker where
  mode : Mode
  settings : Settings
  /-- The handler that replaces the fallback, if there is one. -/
  fallback : Option Handler

namespace Walker

/-- Tell the listener which handler was chosen for a node. -/
def notify
    (settings : Settings)
    (node : Node)
    (type : Option NodeType) :
    Run Unit :=
  match settings.listener with
  | .silent => .done ()
  | .debugging => .noting (.entry (.traced node.kind type))
  | .logging rejected => do
      Run.noting (.entry (.dispatched node.kind type node.attributes))
      if rejected = some node.kind then
        .failed (.handler ("listener rejects " ++ node.kind.name))
      else
        .done ()

/-- What the children of a node give, each in its own context. -/
def visitChildren
    (services : Services)
    (node : Node)
    (context : Context) :
    Nat → List Node → Run Unit
  | _, [] => .done ()
  | index, child :: rest => do
      let below ← Run.ofExcept
        (context.descend services.settings node (.ofNat index))
      services.visitNode child below
      visitChildren services node context (index + 1) rest

/-- A node rebuilt from what its children give. -/
def rebuild
    (services : Services)
    (node : Node)
    (context : Context) :
    Run Node :=
  if node.children.isEmpty then
    .done node
  else do
    let replacements ←
      (visitChildren services node context 0 node.children).gather
    Run.ofExcept (node.withChildren (replacements.map Value.asNode))

/--
Call the built-in fallback. In a visitor the call leaves the visit of the
children to be run, in a transformer it rebuilds the node.
-/
def callStructural
    (walker : Walker)
    (services : Services)
    (node : Node)
    (context : Context) :
    Run (Run Unit) :=
  match walker.mode with
  | .visitor =>
      .done (visitChildren services node context 0 node.children)
  | .transformer =>
      (rebuild services node context).bind fun rebuilt =>
        .done (.delivering (.node rebuilt))

/-- Call a handler and note that it is called. -/
def callHandler
    (services : Services)
    (type : Option NodeType)
    (handler : Handler)
    (node : Node)
    (context : Context) :
    Run (Run Unit) := do
  Run.noting (.entered type node context)
  handler.call services node context

/-- Call the fallback, the replaced one if it is. -/
def callGeneric
    (walker : Walker)
    (services : Services)
    (node : Node)
    (context : Context) :
    Run (Run Unit) :=
  match walker.fallback with
  | some handler => callHandler services none handler node context
  | none => walker.callStructural services node context

/-- Resolve the handler of a node, tell the listener and make the call. -/
def callNode
    (walker : Walker)
    (services : Services)
    (node : Node)
    (context : Context) :
    Run (Run Unit) := do
  let resolved ← Run.asking node.kind
  notify walker.settings node (resolved.map Registration.type)
  match resolved with
  | none => walker.callGeneric services node context
  | some registration =>
      let handler ← Run.ofExcept (registration.handlerFor node)
      callHandler services (some registration.type) handler node context

/--
What a node gives in a context. A transformer gives all of it or fails with
nothing given.
-/
def visitNode
    (walker : Walker)
    (services : Services)
    (node : Node)
    (context : Context) :
    Run Unit :=
  let results := (walker.callNode services node context).bind id
  match walker.mode with
  | .visitor => results
  | .transformer => results.gather.bind Run.deliverAll

/--
Ask a walker for what a node gives. A visitor leaves what it gives to be run, and a
transformer has all of it when the call returns.
-/
def openNode
    (walker : Walker)
    (services : Services)
    (node : Node)
    (context : Context) :
    Run (Run Unit) :=
  let call := walker.callNode services node context
  match walker.mode with
  | .visitor => call
  | .transformer =>
      (call.bind id).gather.bind fun results =>
        .done (.deliverAll results)

/-- To run what has been asked for is to visit the node. -/
theorem openNode_bind_id
    (walker : Walker)
    (services : Services)
    (node : Node)
    (context : Context) :
    (walker.openNode services node context).bind id =
      walker.visitNode services node context := by
  unfold openNode visitNode
  cases walker.mode with
  | visitor =>
      rfl
  | transformer =>
      exact Run.bind_bind _ _ _

/-- Ask a walker to rebuild a node, which only a transformer has a function for. -/
def callRebuild
    (walker : Walker)
    (services : Services)
    (node : Node)
    (context : Context) :
    Run Node :=
  match walker.mode with
  | .visitor => .failed .noRebuild
  | .transformer => rebuild services node context

theorem callRebuild_of_transformer
    {walker : Walker}
    (transformer : walker.mode = .transformer)
    (services : Services)
    (node : Node)
    (context : Context) :
    walker.callRebuild services node context =
      rebuild services node context := by
  rw [callRebuild, transformer]

/--
The outcome of a traversal. A visitor's is the list of its results, and a
transformer's is its only result.
-/
def traverse
    (walker : Walker)
    (services : Services)
    (tree : Node)
    (keys : Fields Value) :
    Run Value := do
  let results ←
    (walker.visitNode services tree (.root walker.settings keys)).gather
  match walker.mode, results with
  | .visitor, results => .done (.list results)
  | .transformer, [root] => .done root
  | .transformer, results =>
      .failed (.transformArity (.ofNat results.length) none)

/--
What a walker does for its handlers, with recursion to a bound. Every service
calls back with one less.
-/
def services (walker : Walker) : Nat → Services
  | 0 => .exhausted walker.settings
  | bound + 1 =>
      { settings := walker.settings
        visitNode := fun node context =>
          walker.visitNode (walker.services bound) node context
        generic := fun node context =>
          (walker.callGeneric (walker.services bound) node context).bind id
        structural := fun node context =>
          (walker.callStructural (walker.services bound)
            node context).bind id
        rebuild := fun node context =>
          walker.callRebuild (walker.services bound) node context
        restart := fun tree keys =>
          walker.traverse (walker.services bound) tree keys }

/-- The services of a walker are given its own settings. -/
@[simp] theorem settings_services
    (walker : Walker)
    (bound : Nat) :
    (walker.services bound).settings = walker.settings := by
  cases bound <;> rfl

end Walker

end QueryWalk
