import QueryWalk.Context

namespace QueryWalk

/-!
# Handlers

A handler is a short program that runs at one node. Its expressions look at the
node, its context and two registers; its actions deliver results, make log
entries, and call back into the walk. A lazy handler runs as far as its results
are asked for, an eager one runs to its end when it is called.
-/

/-- What a handler can compute. -/
inductive Expression where
  | node
  /-- The node rebuilt last, null before. -/
  | rebuilt
  /-- The failure caught last, null before. -/
  | error
  | kind
  | attributes
  | children
  | depth
  | path
  /-- All keys of the context. -/
  | context
  | chain (chain : Chain)
  | chainKinds (chain : Chain)
  | constant (data : Data)
  /-- One key of the context. -/
  | key (name : String)
  | list (items : List Expression)
  | child (index : Number) (parent : Expression)
  | childrenOf (parent : Expression)
  | append (suffix : String) (term : Expression)
  | update (properties : Fields Data) (base : Expression)
  | build (kind : NodeKind) (arguments : List Expression)
  | withChildren (base children : Expression)

instance : Inhabited Expression := ⟨.node⟩

/-- What a handler can decide by. -/
inductive Condition where
  | not (condition : Condition)
  /-- Equality as answers show it. -/
  | same (left right : Expression)
  /-- Equality of trees. -/
  | equivalent (left right : Expression)
  | isType (subject : Expression) (type : NodeType)
  | childCount (subject : Expression) (count : Number)
  | hasKey (name : String)
  | someAncestor (chain : Chain) (type : NodeType)

instance : Inhabited Condition := ⟨.hasKey ""⟩

/-- A change of the context for one call. -/
structure Change where
  assigned : List (String × Expression)
  removed : List String
  position : Option Position

/-- The context a new traversal starts from. -/
inductive Start where
  | fresh (keys : Fields Data)
  /-- The keys of the handler's own context, changed. -/
  | inherited (change : Change)

/-- What a handler can do. -/
inductive Action where
  | deliver (value : Expression)
  | deliverAll (values : Expression)
  | log (value : Expression)
  | fail (wording : String)
  /-- Deliver what the fallback delivers for a node. -/
  | generic (subject : Expression) (change : Change)
  /-- Deliver what the built-in fallback delivers for a node. -/
  | structural (subject : Expression) (change : Change)
  /-- Deliver what a child of the node gives, in the context of an index. -/
  | child (place index : Number) (change : Change)
  /-- Deliver what a node gives in a context as it is. -/
  | visit (subject : Expression) (change : Change)
  /-- Deliver what a node gives as a child of another. -/
  | visitUnder
      (subject parent : Expression)
      (index : Number)
      (change : Change)
  /-- Rebuild a node and keep the outcome in a register. -/
  | rebuild (subject : Expression) (change : Change)
  /-- Deliver the outcome of a new traversal. -/
  | restart (tree : Expression) (start : Start)
  | choose (condition : Condition) (consequence alternative : List Action)
  | rescue (body handling : List Action)

instance : Inhabited Action := ⟨.deliver .node⟩

/-- A list of actions, run lazily or all at once. -/
structure Handler where
  eager : Bool
  actions : List Action

end QueryWalk
