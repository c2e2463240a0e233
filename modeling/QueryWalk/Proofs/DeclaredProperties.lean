import QueryWalk.Session

namespace QueryWalk

/-!
# Declared properties

Stripping a node removes its undeclared properties, at every level. It commutes with
every way of looking at a node, giving it children or building one, and so with making
contexts. Values are stripped with the nodes in them; plain data stays as it is.
-/

namespace Node

mutual

/-- A node with its declared properties only, at every level. -/
def strip : Node → Node
  | .term kind value _ => .term kind value []
  | .noneItem _ => .noneItem []
  | .group kind expr _ => .group kind expr.strip []
  | .searchField name expr _ => .searchField name expr.strip []
  | .approximation kind subject degree _ =>
      .approximation kind subject.strip degree []
  | .boost expr force _ => .boost expr.strip force []
  | .range low high includeLow includeHigh _ =>
      .range low.strip high.strip includeLow includeHigh []
  | .unary kind expr _ => .unary kind expr.strip []
  | .operation kind operands _ => .operation kind (stripAll operands) []

/-- Several nodes with their declared properties only. -/
def stripAll : List Node → List Node
  | [] => []
  | node :: rest => node.strip :: stripAll rest

end

/-- Several nodes are stripped one by one. -/
@[simp] theorem stripAll_eq_map
    (nodes : List Node) :
    stripAll nodes = nodes.map strip := by
  induction nodes with
  | nil =>
      rfl
  | cons node rest inductionHypothesis =>
      simp only [stripAll, inductionHypothesis, List.map_cons]

@[simp] theorem kind_strip
    (node : Node) :
    node.strip.kind = node.kind := by
  cases node <;> simp only [strip, kind]

@[simp] theorem attributes_strip
    (node : Node) :
    node.strip.attributes = node.attributes := by
  cases node <;> simp only [strip, attributes]

@[simp] theorem children_strip
    (node : Node) :
    node.strip.children = node.children.map strip := by
  cases node <;>
    simp only [strip, children, stripAll_eq_map, List.map_cons,
      List.map_nil]

/-- A stripped node has no undeclared properties. -/
@[simp] theorem extra_strip
    (node : Node) :
    node.strip.extra = [] := by
  cases node <;> simp only [strip, extra]

@[simp] theorem isOfType_strip
    (node : Node)
    (type : NodeType) :
    node.strip.isOfType type = node.isOfType type := by
  rw [isOfType, isOfType, kind_strip]

/-- Nodes are equal with their declared properties if they are without the others. -/
theorem equivalent_strip
    (left right : Node) :
    left.strip.equivalent right.strip = left.equivalent right := by
  induction left using Node.induction_on_children generalizing right with
  | step left inductionHypothesis =>
      rw [equivalent_eq, equivalent_eq left]
      simp only [kind_strip, attributes_strip, children_strip,
        List.length_map, List.zip_map, List.all_map]
      congr 1
      rw [Bool.eq_iff_iff, List.all_eq_true, List.all_eq_true]
      apply forall₂_congr
      rintro ⟨child, other⟩ member
      have isChild := (List.of_mem_zip member).1
      simp only [Function.comp_apply, Prod.map_apply]
      rw [inductionHypothesis child isChild other]

/-- Giving a stripped node stripped children is stripping what the node becomes. -/
theorem withChildren_strip
    (node : Node)
    (given : List Node) :
    node.strip.withChildren (given.map strip) =
      (node.withChildren given).map strip := by
  cases node with
  | term kind value extra
  | noneItem extra =>
      cases given <;>
        simp [strip, withChildren, Except.map, arityFailure, Node.kind]
  | operation kind operands extra =>
      simp [strip, withChildren, Except.map]
  | range low high includeLow includeHigh extra =>
      rcases given with _ | ⟨newLow, _ | ⟨newHigh, _ | ⟨third, rest⟩⟩⟩ <;>
        simp [strip, withChildren, Except.map, arityFailure, Node.kind]
  | group kind expr extra
  | searchField name expr extra
  | approximation kind expr degree extra
  | boost expr force extra
  | unary kind expr extra =>
      rcases given with _ | ⟨only, _ | ⟨second, rest⟩⟩ <;>
        simp [strip, withChildren, onlyChild, Except.map, arityFailure,
          Node.kind]

@[simp] theorem appendText_strip
    (suffix : String)
    (node : Node) :
    node.strip.appendText suffix = (node.appendText suffix).strip := by
  cases node <;> simp only [strip, appendText]

end Node

namespace Value

mutual

/-- A value whose nodes have their declared properties only. -/
def strip : Value → Value
  | .data content => .data content
  | .node root => .node root.strip
  | .list items => .list (stripItems items)
  | .record fields => .record (stripFields fields)

/-- Several values whose nodes have their declared properties only. -/
def stripItems : List Value → List Value
  | [] => []
  | item :: rest => item.strip :: stripItems rest

/-- Named values whose nodes have their declared properties only. -/
def stripFields : List (String × Value) → List (String × Value)
  | [] => []
  | (key, value) :: rest => (key, value.strip) :: stripFields rest

end

@[simp] theorem stripItems_eq_map
    (items : List Value) :
    stripItems items = items.map strip := by
  induction items with
  | nil =>
      rfl
  | cons item rest inductionHypothesis =>
      simp only [stripItems, inductionHypothesis, List.map_cons]

@[simp] theorem strip_data
    (content : Data) :
    (Value.data content).strip = .data content := by
  rw [strip]

@[simp] theorem strip_node
    (root : Node) :
    (Value.node root).strip = .node root.strip := by
  rw [strip]

@[simp] theorem strip_list
    (items : List Value) :
    (Value.list items).strip = .list (items.map strip) := by
  rw [strip, stripItems_eq_map]

/-- The items of a stripped value are its items, stripped. -/
theorem items_strip
    (value : Value) :
    value.strip.items = value.items.map strip := by
  cases value with
  | data content =>
      cases content <;> simp [items]
  | node root =>
      simp [items]
  | list items =>
      simp [Value.items]
  | record fields =>
      simp [strip, items]

@[simp] theorem isNull_strip
    (value : Value) :
    value.strip.isNull = value.isNull := by
  cases value <;> simp [strip, isNull]

/-- A stripped value is spread into what the value is spread into, stripped. -/
theorem spread?_strip
    (value : Value) :
    value.strip.spread? = value.spread?.map (List.map strip) := by
  cases value with
  | data content =>
      cases content <;> simp [spread?, Value.text]
  | node root =>
      simp [spread?]
  | list items =>
      simp [spread?]
  | record fields =>
      simp [strip, spread?]

end Value

namespace Fields

variable {α β : Type}

/-- Fields with every value changed. -/
def mapValues (change : α → β) (fields : Fields α) : Fields β :=
  fields.map fun field => (field.1, change field.2)

theorem get?_mapValues
    (change : α → β)
    (fields : Fields α)
    (key : String) :
    (fields.mapValues change).get? key = (fields.get? key).map change := by
  induction fields with
  | nil =>
      rfl
  | cons field rest inductionHypothesis =>
      rcases field with ⟨present, value⟩
      unfold mapValues at inductionHypothesis ⊢
      by_cases same : present = key
      · simp [get?, same]
      · simp [get?, same, inductionHypothesis]

theorem insert_mapValues
    (change : α → β)
    (fields : Fields α)
    (key : String)
    (value : α) :
    (fields.mapValues change).insert key (change value) =
      (fields.insert key value).mapValues change := by
  induction fields with
  | nil =>
      rfl
  | cons field rest inductionHypothesis =>
      rcases field with ⟨present, former⟩
      unfold mapValues at inductionHypothesis ⊢
      simp only [List.map_cons, insert]
      split
      · rfl
      · split
        · rfl
        · rw [inductionHypothesis, List.map_cons]

theorem insertAll_mapValues
    (change : α → β)
    (fields added : Fields α) :
    (fields.mapValues change).insertAll (added.mapValues change) =
      (fields.insertAll added).mapValues change := by
  induction added generalizing fields with
  | nil =>
      rfl
  | cons field rest inductionHypothesis =>
      have further := inductionHypothesis (fields.insert field.1 field.2)
      rw [← insert_mapValues] at further
      exact further

theorem eraseAll_mapValues
    (change : α → β)
    (fields : Fields α)
    (keys : List String) :
    (fields.mapValues change).eraseAll keys =
      (fields.eraseAll keys).mapValues change := by
  have eraseOne :
      ∀ (fields : Fields α) (key : String),
        (fields.mapValues change).erase key =
          (fields.erase key).mapValues change := by
    intro fields key
    simp only [mapValues, erase, List.filter_map]
    rfl
  induction keys generalizing fields with
  | nil =>
      rfl
  | cons key rest inductionHypothesis =>
      have further := inductionHypothesis (fields.erase key)
      rw [← eraseOne] at further
      exact further

end Fields

namespace Context

/-- A context whose nodes have their declared properties only. -/
def strip (context : Context) : Context where
  keys := context.keys.mapValues Value.strip
  position := context.position

/-- The root context of stripped keys is that of the keys, stripped. -/
theorem root_strip
    (settings : Settings)
    (keys : Fields Value) :
    root settings (keys.mapValues Value.strip) =
      (root settings keys).strip :=
  rfl

/-- What a stripped chain holds is what the chain holds, stripped. -/
theorem former?_strip
    (keys : Fields Value)
    (chain : Chain) :
    chain.former? (keys.mapValues Value.strip) =
      (chain.former? keys).map (List.map Value.strip) := by
  unfold Chain.former?
  rw [Fields.get?_mapValues]
  cases keys.get? chain.key with
  | none =>
      rfl
  | some value =>
      simp only [Option.map_some, Option.getD_some, Value.isNull_strip,
        Value.spread?_strip]
      split <;> rfl

/-- Stripped chains are extended by stripped nodes. -/
theorem extend_strip
    (settings : Settings)
    (parent : Node)
    (keys : Fields Value)
    (chain : Chain) :
    Chain.extend settings parent.strip (keys.mapValues Value.strip) chain =
      (Chain.extend settings parent keys chain).map
        (Fields.mapValues Value.strip) := by
  unfold Chain.extend
  split
  · rw [former?_strip]
    cases chain.former? keys with
    | none =>
        rfl
    | some former =>
        simp only [Option.map_some, Except.map, ← Fields.insert_mapValues,
          Value.strip_list, List.map_append, List.map_singleton,
          Value.strip_node]
  · rfl

/-- All stripped chains are. -/
theorem extendAll_strip
    (settings : Settings)
    (parent : Node)
    (keys : Fields Value) :
    Chain.extendAll settings parent.strip (keys.mapValues Value.strip) =
      (Chain.extendAll settings parent keys).map
        (Fields.mapValues Value.strip) := by
  unfold Chain.extendAll
  rw [extend_strip]
  cases Chain.extend settings parent keys .parents with
  | error failure =>
      rfl
  | ok extended =>
      exact extend_strip settings parent extended .newParents

/-- The child of a stripped context is that of the context, stripped. -/
theorem descend_strip
    (settings : Settings)
    (parent : Node)
    (index : Number)
    (context : Context) :
    context.strip.descend settings parent.strip index =
      (context.descend settings parent index).map strip := by
  unfold descend
  by_cases tooDeep :
      context.position.depth.plusOne.exceeds settings.maxDepth
  · have strippedTooDeep :
        context.strip.position.depth.plusOne.exceeds settings.maxDepth :=
      tooDeep
    rw [if_pos tooDeep, if_pos strippedTooDeep]
    rfl
  · have strippedWithin :
        ¬ context.strip.position.depth.plusOne.exceeds
          settings.maxDepth :=
      tooDeep
    rw [if_neg tooDeep, if_neg strippedWithin, strip, extendAll_strip]
    cases Chain.extendAll settings parent context.keys <;> rfl

end Context

namespace Step

/-- A step about stripped nodes in stripped contexts. -/
def strip : Step → Step
  | .childContext parent index context =>
      .childContext parent.strip index context.strip
  | .setHandler type handler => .setHandler type handler
  | .deleteHandler type => .deleteHandler type
  | .traverse tree keys =>
      .traverse tree.strip (keys.mapValues Value.strip)
  | .visitNode node context => .visitNode node.strip context.strip
  | .generic node context => .generic node.strip context.strip
  | .rebuild node context => .rebuild node.strip context.strip
  | .start name tree keys =>
      .start name tree.strip (keys.mapValues Value.strip)
  | .startNode name node context =>
      .startNode name node.strip context.strip
  | .startGeneric name node context =>
      .startGeneric name node.strip context.strip
  | .next name => .next name
  | .rest name => .rest name

end Step

namespace Reply

/-- A reply whose nodes have their declared properties only. -/
def strip : Reply → Reply
  | .context shown => .context shown.strip
  | .result shown => .result shown.strip
  | .value shown => .value shown.strip
  | .nothing => .nothing
  | .ended => .ended
  | .unknown => .unknown
  | .refused failure => .refused failure
  | .exhausted => .exhausted

end Reply

namespace Answer

/-- An answer with the same log, whose nodes have their declared properties only. -/
def strip (answer : Answer) : Answer where
  log := answer.log
  reply := answer.reply.strip

end Answer

end QueryWalk
