import QueryWalk.Proofs.CarriedProperties
import QueryWalk.Proofs.DeclaredProperties
import QueryWalk.Proofs.SessionSimulation

namespace QueryWalk

/-!
# Blindness to undeclared properties

A handler is blind if it makes its values of nodes and of what nodes declare, logs
nothing that holds a node, and decides by types, numbers of children and equality of
trees. A walk with blind handlers does the same for a tree and for the tree stripped of
its undeclared properties: the log and the failures are the same, and the results are
the results stripped.
-/

namespace Data

/-- Whether data is neither a list nor a record. -/
def isScalar : Data → Bool
  | .list _ | .record _ => false
  | _ => true

end Data

namespace Value

mutual

/-- Whether all lists and nodes in a value are there as such, not written as data. -/
def isExplicit : Value → Bool
  | .data content => content.isScalar
  | .node _ => true
  | .list items => areExplicit items
  | .record _ => false

/-- Whether several values are explicit. -/
def areExplicit : List Value → Bool
  | [] => true
  | item :: rest => item.isExplicit && areExplicit rest

end

/-- One value is another, explicit one stripped. -/
structure IsStripped (value other : Value) : Prop where
  explicit : value.isExplicit = true
  eq_strip : other = value.strip

namespace IsStripped

/-- Scalar data is itself stripped. -/
theorem scalar
    {content : Data}
    (isScalar : content.isScalar = true) :
    IsStripped (.data content) (.data content) where
  explicit := by
    unfold isExplicit
    exact isScalar
  eq_strip := (strip_data content).symm

/-- A stripped node is the node, stripped. -/
theorem node
    (root : Node) :
    IsStripped (.node root) (.node root.strip) where
  explicit := by
    unfold isExplicit
    rfl
  eq_strip := (strip_node root).symm

/-- Several values are others, explicit ones stripped, one by one. -/
theorem forall₂_iff
    {items others : List Value} :
    List.Forall₂ IsStripped items others ↔
      areExplicit items = true ∧ others = items.map strip := by
  induction items generalizing others with
  | nil =>
      rw [List.forall₂_nil_left_iff]
      exact ⟨fun same => ⟨rfl, same⟩, And.right⟩
  | cons item rest inductionHypothesis =>
      simp only [areExplicit, Bool.and_eq_true, List.map_cons]
      rw [List.forall₂_cons_left_iff]
      constructor
      · rintro ⟨other, further, ⟨explicit, rfl⟩, rests, rfl⟩
        obtain ⟨restExplicit, rfl⟩ := inductionHypothesis.mp rests
        exact ⟨⟨explicit, restExplicit⟩, rfl⟩
      · rintro ⟨⟨explicit, restExplicit⟩, rfl⟩
        exact
          ⟨_, _, ⟨explicit, rfl⟩,
            inductionHypothesis.mpr ⟨restExplicit, rfl⟩, rfl⟩

/-- A list of stripped values is the list stripped. -/
theorem list
    {items others : List Value}
    (each : List.Forall₂ IsStripped items others) :
    IsStripped (.list items) (.list others) := by
  obtain ⟨explicit, rfl⟩ := forall₂_iff.mp each
  refine ⟨?_, (strip_list items).symm⟩
  unfold isExplicit
  exact explicit

/-- Several stripped nodes are the nodes, stripped. -/
theorem nodes
    (given : List Node) :
    IsStripped (.nodes given) (.nodes (given.map Node.strip)) := by
  apply list
  rw [List.forall₂_map_right_iff, List.forall₂_map_right_iff,
    List.forall₂_map_left_iff, List.forall₂_same]
  exact fun root _ => node root

/-- Attributes hold no node. -/
theorem attributesOf
    (node : Node) :
    IsStripped (.attributesOf node) (.attributesOf node) := by
  apply list
  rw [List.forall₂_map_right_iff, List.forall₂_map_left_iff,
    List.forall₂_same]
  rintro (_ | _ | _) _ <;> exact scalar rfl

/-- A path holds no node. -/
theorem pathValue
    (position : Position) :
    IsStripped position.pathValue position.pathValue := by
  unfold Position.pathValue
  split
  · apply list
    rw [List.forall₂_map_right_iff, List.forall₂_map_left_iff,
      List.forall₂_same]
    exact fun _ _ => scalar rfl
  · exact scalar rfl

variable
  {value other : Value}
  (isStripped : value.IsStripped other)

include isStripped

/-- The node of a stripped value is its node, stripped. -/
theorem asNode_eq :
    other.asNode = value.asNode.strip := by
  obtain ⟨explicit, rfl⟩ := isStripped
  cases value with
  | data content =>
      cases content with
      | list | record =>
          unfold isExplicit at explicit
          cases explicit
      | _ =>
          rw [strip_data]
          rfl
  | node root =>
      rw [strip_node]
      rfl
  | list items =>
      rw [strip_list]
      rfl
  | record fields =>
      unfold isExplicit at explicit
      cases explicit

/-- The items of a stripped value are its items, stripped. -/
theorem items :
    List.Forall₂ IsStripped value.items other.items := by
  obtain ⟨explicit, rfl⟩ := isStripped
  rw [forall₂_iff, items_strip]
  refine ⟨?_, rfl⟩
  cases value with
  | data content =>
      cases content with
      | list | record =>
          unfold isExplicit at explicit
          cases explicit
      | _ =>
          rfl
  | node root =>
      rfl
  | list items =>
      unfold isExplicit at explicit
      exact explicit
  | record fields =>
      rfl

/-- A stripped value is the same text, number and truth value. -/
theorem sameScalars :
    other.asText = value.asText ∧
      other.number? = value.number? ∧
      other.flag? = value.flag? := by
  obtain ⟨_, rfl⟩ := isStripped
  cases value with
  | data content =>
      rw [strip_data]
      exact ⟨rfl, rfl, rfl⟩
  | node root =>
      rw [strip_node]
      exact ⟨rfl, rfl, rfl⟩
  | list items =>
      rw [strip_list]
      exact ⟨rfl, rfl, rfl⟩
  | record fields =>
      unfold strip
      exact ⟨rfl, rfl, rfl⟩

end IsStripped

end Value

namespace Query

/-- The argument at a place of stripped ones is the argument, stripped. -/
theorem argument_isStripped
    {arguments others : List Value}
    (each : List.Forall₂ Value.IsStripped arguments others)
    (place : Nat) :
    (argument arguments place).IsStripped (argument others place) := by
  unfold argument
  induction each generalizing place with
  | nil =>
      exact .scalar rfl
  | cons first _ inductionHypothesis =>
      cases place with
      | zero =>
          exact first
      | succ place =>
          exact inductionHypothesis place

/-- What is built from stripped arguments is what is built from them, stripped. -/
theorem build_strip
    {arguments others : List Value}
    (each : List.Forall₂ Value.IsStripped arguments others)
    (kind : NodeKind) :
    build kind others = (build kind arguments).strip := by
  have nodes :
      others.map Value.asNode =
        (arguments.map Value.asNode).map Node.strip := by
    induction each with
    | nil =>
        rfl
    | cons first _ inductionHypothesis =>
        rw [List.map_cons, inductionHypothesis, first.asNode_eq]
        rfl
  have atPlace := argument_isStripped each
  have texts (place : Nat) := (atPlace place).sameScalars.1
  have numbers (place : Nat) := (atPlace place).sameScalars.2.1
  have flags (place : Nat) := (atPlace place).sameScalars.2.2
  have nodeAt (place : Nat) := (atPlace place).asNode_eq
  rcases kind with
    (_ | _ | _) | _ | (_ | _) | _ | (_ | _) | _ | _ |
      (_ | _ | _) | (_ | _ | _) <;>
    simp only [build, build.text, build.node, build.number, build.flag,
      texts, numbers, flags, nodeAt, nodes, word, phrase, regex, noneItem,
      group, fieldGroup, searchField, proximity, fuzzy, boost, range,
      Query.not, prohibit, plus, Query.and, Query.or, unknownOperation,
      Node.strip, Node.stripAll_eq_map]

end Query

namespace Expression

mutual

/--
Whether an expression is made of the node, the node rebuilt last and scalars, of what
nodes declare, and of children, builders and text appended.
-/
def isBlind : Expression → Bool
  | .node | .rebuilt | .kind | .attributes | .children | .depth | .path =>
      true
  -- Other data may be taken for a node with undeclared properties.
  | .constant data => data.isScalar
  | .list items => areBlind items
  | .child _ parent | .childrenOf parent => parent.isBlind
  | .append _ term => term.isBlind
  | .build _ arguments => areBlind arguments
  | .withChildren base given => base.isBlind && given.isBlind
  | _ => false

/-- Whether several expressions are blind. -/
def areBlind : List Expression → Bool
  | [] => true
  | item :: rest => item.isBlind && areBlind rest

end

mutual

/-- Whether an expression holds no node: it is made of kind, attributes and position. -/
def holdsNoNode : Expression → Bool
  | .kind | .attributes | .depth | .path | .constant _ => true
  | .list items => holdNoNode items
  | _ => false

/-- Whether several expressions hold no node. -/
def holdNoNode : List Expression → Bool
  | [] => true
  | item :: rest => item.holdsNoNode && holdNoNode rest

end

end Expression

namespace Condition

/-- Whether a condition is about types, numbers of children and equality of trees. -/
def isBlind : Condition → Bool
  | .not condition => condition.isBlind
  | .equivalent left right => left.isBlind && right.isBlind
  | .isType subject _ | .childCount subject _ => subject.isBlind
  | _ => false

end Condition

namespace Change

/-- Whether a change assigns values of blind expressions only. -/
def isBlind (change : Change) : Bool :=
  change.assigned.all fun assigned => assigned.2.isBlind

end Change

namespace Start

/-- Whether a start hands on nothing but blind changes. -/
def isBlind : Start → Bool
  | .fresh _ => true
  | .inherited change => change.isBlind

end Start

namespace Action

/-- Whether an action, by itself, is made of blind parts and logs no node. -/
def isBlind : Action → Bool
  | .deliver value | .deliverAll value => value.isBlind
  | .log value => value.holdsNoNode
  | .fail _ | .rescue .. => true
  | .generic subject change | .structural subject change
  | .visit subject change | .rebuild subject change =>
      subject.isBlind && change.isBlind
  | .child _ _ change => change.isBlind
  | .visitUnder subject parent _ change =>
      subject.isBlind && parent.isBlind && change.isBlind
  | .restart tree start => tree.isBlind && start.isBlind
  | .choose condition _ _ => condition.isBlind

end Action

/-- What are some values changed, one by one, are all of them changed. -/
theorem eq_map_of_forall₂
    {First Second : Type}
    {change : First → Second}
    {values : List First}
    {others : List Second}
    (each :
      List.Forall₂ (fun value other => other = change value) values
        others) :
    others = values.map change := by
  induction each with
  | nil =>
      rfl
  | cons first _ inductionHypothesis =>
      rw [first, inductionHypothesis]
      rfl

/-- An outcome goes together with the outcome changed, where all failures may be. -/
theorem Comparison.Outcomes.changed
    {comparison : Comparison}
    {Outcome Changed : Type}
    (may : ∀ failure, comparison.fails failure)
    (change : Outcome → Changed)
    (outcome : Except Failure Outcome) :
    comparison.Outcomes (fun value other => other = change value) outcome
      (outcome.map change) := by
  cases outcome with
  | ok value =>
      exact .ok rfl
  | error failure =>
      exact .error (may failure)

/-- What a walk may differ in from a walk of the stripped tree. -/
def Likeness.stripped (handlers : HandlerMap Handler) : Likeness where
  handlers := handlers
  note first second :=
    Event.entry? (.noted first) = Event.entry? (.noted second)
  value := Value.IsStripped
  fails _ := True
  exhausts := True
  stops _ := False
  spends := False
  node first second := second = first.strip
  context first second := second = first.strip
  keys first second := second = first.mapValues Value.strip
  kind_eq := by
    rintro node _ rfl
    exact node.kind_strip.symm
  attributes_eq := by
    rintro node _ rfl
    exact node.attributes_strip.symm
  children := by
    rintro node _ rfl
    rw [Node.children_strip, List.forall₂_map_right_iff,
      List.forall₂_same]
    exact fun _ _ => rfl
  withChildren := by
    rintro node _ given others rfl alike
    rw [eq_map_of_forall₂ alike, Node.withChildren_strip]
    exact .changed (fun _ => trivial) Node.strip _
  null := .scalar rfl
  ofNode := by
    rintro node _ rfl
    exact .node node
  ofList := .list
  asNode isStripped := isStripped.asNode_eq
  items isStripped := isStripped.items
  entry _ := rfl
  entered _ _ _ := rfl
  handlerFails _ := trivial
  arityFails _ := trivial
  rebuildFails := trivial

section Respects

variable
  {handlers : HandlerMap Handler}
  {first second : Scope}

/-- In stripped scopes the node declares the same, and the position is the same. -/
theorem Scope.Alike.sameDeclared
    (scopes : first.Alike (.stripped handlers) second) :
    second.node.kind = first.node.kind ∧
      Value.attributesOf second.node = Value.attributesOf first.node ∧
      second.context.position = first.context.position := by
  have nodes : second.node = first.node.strip := scopes.node
  have contexts : second.context = first.context.strip := scopes.context
  rw [nodes, contexts]
  unfold Value.attributesOf
  rw [Node.kind_strip, Node.attributes_strip]
  exact ⟨rfl, rfl, rfl⟩

mutual

/-- A blind expression has stripped values in stripped scopes. -/
theorem Expression.respects_of_isBlind
    (scopes : first.Alike (.stripped handlers) second) :
    ∀ expression : Expression,
      expression.isBlind = true →
      (Likeness.stripped handlers).Outcomes Value.IsStripped
        (expression.eval first) (expression.eval second)
  | .node, _ => by
      unfold Expression.eval
      exact .ok ((Likeness.stripped handlers).ofNode scopes.node)
  | .rebuilt, _ => by
      unfold Expression.eval
      exact .ok scopes.rebuilt
  | .kind, _ => by
      unfold Expression.eval
      rw [scopes.sameDeclared.1]
      exact .ok (.scalar rfl)
  | .attributes, _ => by
      unfold Expression.eval
      rw [scopes.sameDeclared.2.1]
      exact .ok (.attributesOf _)
  | .children, _ => by
      have nodes : second.node = first.node.strip := scopes.node
      unfold Expression.eval
      rw [nodes, Node.children_strip]
      exact .ok (.nodes _)
  | .depth, _ => by
      unfold Expression.eval
      rw [scopes.sameDeclared.2.2]
      exact .ok (.scalar rfl)
  | .path, _ => by
      unfold Expression.eval
      rw [scopes.sameDeclared.2.2]
      exact .ok (.pathValue _)
  | .constant data, isScalar => by
      unfold Expression.eval
      exact .ok (.scalar isScalar)
  | .list items, blind => by
      unfold Expression.eval
      apply (Expression.allRespect_of_areBlind scopes items blind).bind
      intro values others alike
      exact .ok (.list alike)
  | .child index parent, blind => by
      unfold Expression.eval
      apply (Expression.respects_of_isBlind scopes parent blind).bind
      intro value other alike
      exact .ok
        ((Likeness.stripped handlers).childValue alike.asNode_eq index)
  | .childrenOf parent, blind => by
      unfold Expression.eval
      apply (Expression.respects_of_isBlind scopes parent blind).bind
      intro value other alike
      rw [alike.asNode_eq, Node.children_strip]
      exact .ok (.nodes _)
  | .append suffix term, blind => by
      unfold Expression.eval
      apply (Expression.respects_of_isBlind scopes term blind).bind
      intro value other alike
      rw [alike.asNode_eq, Node.appendText_strip]
      exact .ok (.node _)
  | .build builder arguments, blind => by
      unfold Expression.eval
      apply (Expression.allRespect_of_areBlind scopes arguments blind).bind
      intro values others alike
      rw [Query.build_strip alike]
      exact .ok (.node _)
  | .withChildren base given, blind => by
      obtain ⟨baseBlind, givenBlind⟩ := Bool.and_eq_true_iff.mp blind
      unfold Expression.eval
      apply (Expression.respects_of_isBlind scopes base baseBlind).bind
      intro former otherFormer bases
      apply (Expression.respects_of_isBlind scopes given givenBlind).bind
      intro latter otherLatter givens
      have rebuilt :=
        (Likeness.stripped handlers).withChildren bases.asNode_eq
          ((Likeness.stripped handlers).asNodes givens.items)
      apply rebuilt.bind
      intro result otherResult results
      exact .ok ((Likeness.stripped handlers).ofNode results)

/-- The same, of several expressions. -/
theorem Expression.allRespect_of_areBlind
    (scopes : first.Alike (.stripped handlers) second) :
    ∀ expressions : List Expression,
      Expression.areBlind expressions = true →
      (Likeness.stripped handlers).Outcomes
        (List.Forall₂ Value.IsStripped)
        (Expression.evalAll first expressions)
        (Expression.evalAll second expressions)
  | [], _ => by
      unfold Expression.evalAll
      exact .ok .nil
  | item :: rest, blind => by
      obtain ⟨itemBlind, restBlind⟩ := Bool.and_eq_true_iff.mp blind
      unfold Expression.evalAll
      apply (Expression.respects_of_isBlind scopes item itemBlind).bind
      intro value other alike
      apply (Expression.allRespect_of_areBlind scopes rest restBlind).bind
      intro values others restAlike
      exact .ok (.cons alike restAlike)

end

mutual

/-- An expression that holds no node has the same value in stripped scopes. -/
theorem Expression.eval_eq_of_holdsNoNode
    (scopes : first.Alike (.stripped handlers) second) :
    ∀ expression : Expression,
      expression.holdsNoNode = true →
      expression.eval second = expression.eval first
  | .kind, _ => by
      unfold Expression.eval
      rw [scopes.sameDeclared.1]
  | .attributes, _ => by
      unfold Expression.eval
      rw [scopes.sameDeclared.2.1]
  | .depth, _ | .path, _ => by
      unfold Expression.eval
      rw [scopes.sameDeclared.2.2]
  | .constant data, _ => by
      unfold Expression.eval
      rfl
  | .list items, holdNone => by
      unfold Expression.eval
      rw [Expression.evalAll_eq_of_holdNoNode scopes items holdNone]

/-- The same, of several expressions. -/
theorem Expression.evalAll_eq_of_holdNoNode
    (scopes : first.Alike (.stripped handlers) second) :
    ∀ expressions : List Expression,
      Expression.holdNoNode expressions = true →
      Expression.evalAll second expressions =
        Expression.evalAll first expressions
  | [], _ => by
      unfold Expression.evalAll
      rfl
  | item :: rest, holdNone => by
      obtain ⟨itemHolds, restHold⟩ := Bool.and_eq_true_iff.mp holdNone
      unfold Expression.evalAll
      rw [Expression.eval_eq_of_holdsNoNode scopes item itemHolds,
        Expression.evalAll_eq_of_holdNoNode scopes rest restHold]

end

/-- A blind condition is decided in the same way in stripped scopes. -/
theorem Condition.respects_of_isBlind
    {condition : Condition}
    (blind : condition.isBlind = true) :
    condition.Respects (.stripped handlers) := by
  intro first second scopes
  have evaluates :
      ∀ expression : Expression,
        expression.isBlind = true →
        (Likeness.stripped handlers).Outcomes Value.IsStripped
          (expression.eval first) (expression.eval second) :=
    Expression.respects_of_isBlind scopes
  induction condition with
  | not condition inductionHypothesis =>
      unfold Condition.eval
      apply (inductionHypothesis blind).bind
      rintro holds _ rfl
      exact .ok rfl
  | equivalent left right =>
      obtain ⟨leftBlind, rightBlind⟩ := Bool.and_eq_true_iff.mp blind
      unfold Condition.eval
      apply (evaluates left leftBlind).bind
      intro value other alike
      apply (evaluates right rightBlind).bind
      intro further otherFurther alikeFurther
      apply Comparison.Outcomes.ok
      rw [alike.asNode_eq, alikeFurther.asNode_eq, Node.equivalent_strip]
  | isType subject type =>
      unfold Condition.eval
      apply (evaluates subject blind).bind
      intro value other alike
      apply Comparison.Outcomes.ok
      rw [alike.asNode_eq, Node.isOfType_strip]
  | childCount subject count =>
      unfold Condition.eval
      apply (evaluates subject blind).bind
      intro value other alike
      apply Comparison.Outcomes.ok
      rw [alike.asNode_eq, Node.children_strip, List.length_map]
  | same | hasKey | someAncestor =>
      cases blind

/-- Blind expressions assign stripped values in stripped scopes. -/
theorem Change.values_of_isBlind
    (scopes : first.Alike (.stripped handlers) second)
    {assigned : List (String × Expression)}
    (blind : (assigned.all fun each => each.2.isBlind) = true) :
    (Likeness.stripped handlers).Outcomes
      (fun values others => others = values.mapValues Value.strip)
      (Change.values first assigned) (Change.values second assigned) := by
  induction assigned with
  | nil =>
      exact .ok rfl
  | cons each rest inductionHypothesis =>
      obtain ⟨isBlind, restBlind⟩ := Bool.and_eq_true_iff.mp blind
      unfold Change.values
      apply (Expression.respects_of_isBlind scopes each.2 isBlind).bind
      intro value other alike
      apply (inductionHypothesis restBlind).bind
      rintro values _ rfl
      rw [alike.eq_strip]
      exact .ok rfl

/-- A blind change leads to stripped contexts in stripped scopes. -/
theorem Change.respects_of_isBlind
    {change : Change}
    (blind : change.isBlind = true) :
    change.Respects (.stripped handlers) := by
  intro first second scopes
  have contexts : second.context = first.context.strip := scopes.context
  unfold Change.apply
  apply (Change.values_of_isBlind scopes blind).bind
  rintro values _ rfl
  apply Comparison.Outcomes.ok
  change _ = Context.strip _
  rw [contexts]
  simp only [Context.strip, Fields.insertAll_mapValues,
    Fields.eraseAll_mapValues]

/-- A blind start gives stripped keys in stripped scopes. -/
theorem Start.respects_of_isBlind
    {start : Start}
    (blind : start.isBlind = true) :
    start.Respects (.stripped handlers) := by
  intro first second scopes
  cases start with
  | fresh keys =>
      apply Comparison.Outcomes.ok
      change _ = Fields.mapValues Value.strip _
      simp [Fields.mapValues]
  | inherited change =>
      apply (Change.respects_of_isBlind blind first second scopes).map
      rintro changed _ rfl
      rfl

/-- A blind expression respects stripping. -/
theorem Expression.respects_stripped
    {expression : Expression}
    (blind : expression.isBlind = true) :
    expression.Respects (.stripped handlers) :=
  fun _ _ scopes => Expression.respects_of_isBlind scopes expression blind

/-- A blind action respects stripping, and may call all services. -/
theorem Action.respects_of_isBlind
    (action : Action)
    (blind : action.isBlind = true) :
    action.Respects (.stripped handlers) fun _ => True := by
  cases action with
  | deliver value | deliverAll value =>
      exact Expression.respects_stripped blind
  | log value =>
      intro first second scopes
      rw [Expression.eval_eq_of_holdsNoNode scopes value blind]
      exact .refl (fun _ _ => trivial) (fun _ _ => rfl)
  | fail wording =>
      trivial
  | generic subject change | structural subject change
  | visit subject change | rebuild subject change =>
      obtain ⟨subjectBlind, changeBlind⟩ := Bool.and_eq_true_iff.mp blind
      exact
        ⟨trivial, Expression.respects_stripped subjectBlind,
          Change.respects_of_isBlind changeBlind⟩
  | child place index change =>
      exact Change.respects_of_isBlind blind
  | visitUnder subject parent index change =>
      obtain ⟨bothBlind, changeBlind⟩ := Bool.and_eq_true_iff.mp blind
      obtain ⟨subjectBlind, parentBlind⟩ :=
        Bool.and_eq_true_iff.mp bothBlind
      exact
        ⟨Expression.respects_stripped subjectBlind,
          Expression.respects_stripped parentBlind,
          Change.respects_of_isBlind changeBlind⟩
  | restart tree start =>
      obtain ⟨treeBlind, startBlind⟩ := Bool.and_eq_true_iff.mp blind
      exact
        ⟨trivial, Expression.respects_stripped treeBlind,
          Start.respects_of_isBlind startBlind⟩
  | choose condition consequence alternative =>
      exact Condition.respects_of_isBlind blind
  | rescue body handling =>
      exact fun _ never => never

end Respects

/-- A walker accompanies itself through trees and the trees stripped. -/
theorem Walker.accompanies_stripped
    {walker : Walker}
    {handlers : HandlerMap Handler}
    (blind :
      ∀ handler,
        walker.Employs handlers handler →
        handler.Throughout fun action => action.isBlind = true)
    (bound : Nat) :
    walker.Accompanies (.stripped handlers) walker bound bound := by
  have alike :
      walker.Alike (.stripped handlers) (fun _ => True) walker :=
    alike_of_employs Action.respects_of_isBlind blind rfl rfl rfl
  have starts : walker.StartsAlike (.stripped handlers) walker := by
    rintro keys _ rfl
    exact (Context.root_strip walker.settings keys).symm
  have descends : walker.DescendsAlike (.stripped handlers) walker := by
    rintro parent _ context _ index rfl rfl
    rw [Context.descend_strip]
    exact .changed (fun _ => trivial) Context.strip _
  exact alike.accompanies starts descends
    (services_match alike starts descends (.inr ⟨trivial, rfl⟩) bound)

/-- A step goes together with the step stripped. -/
theorem Step.alike_strip
    (handlers : HandlerMap Handler)
    (step : Step) :
    step.Alike (.stripped handlers) step.strip := by
  cases step with
  | childContext parent index context =>
      exact .childContext index rfl rfl
  | setHandler type handler =>
      exact .setHandler type type handler handler
  | deleteHandler type =>
      exact .deleteHandler type type
  | traverse tree keys =>
      exact .traverse rfl rfl
  | visitNode node context =>
      exact .visitNode rfl rfl
  | generic node context =>
      exact .generic rfl rfl
  | rebuild node context =>
      exact .rebuild rfl rfl
  | start name tree keys =>
      exact .start name rfl rfl
  | startNode name node context =>
      exact .startNode name rfl rfl
  | startGeneric name node context =>
      exact .startGeneric name rfl rfl
  | next name =>
      exact .next name
  | rest name =>
      exact .rest name

/-- What goes together with an answer is the answer stripped. -/
theorem Answer.eq_strip_of_alike
    {handlers : HandlerMap Handler}
    {answer other : Answer}
    (alike : answer.Alike (.stripped handlers) other) :
    other = answer.strip := by
  rcases answer with ⟨log, reply⟩
  rcases other with ⟨otherLog, otherReply⟩
  obtain ⟨sameLog, replies⟩ := alike
  cases sameLog
  cases replies with
  | nothing | ended | unknown | refused | exhausted =>
      rfl
  | context contexts =>
      cases contexts
      rfl
  | result values | value values =>
      cases values.eq_strip
      rfl

namespace Session

/-- Walks with blind handlers answer stripped steps as the steps, stripped. -/
theorem answers_strip
    {walker : Walker}
    {handlers : HandlerMap Handler}
    (blind :
      ∀ handler,
        walker.Employs handlers handler →
        handler.Throughout fun action => action.isBlind = true)
    (bound : Nat)
    (steps : List Step) :
    (Session.create walker handlers).answers bound
        (steps.map Step.strip) =
      ((Session.create walker handlers).answers bound steps).map
        Answer.strip := by
  have strict : (Likeness.stripped handlers).IsStrict :=
    { neverStops := fun _ never => never
      neverSpends := id
      sameEntries := id }
  have alikeSteps :
      List.Forall₂ (Step.Alike (.stripped handlers)) steps
        (steps.map Step.strip) := by
    rw [List.forall₂_map_right_iff, List.forall₂_same]
    exact fun step _ => step.alike_strip handlers
  have start :=
    Session.Alike.create (Likeness.stripped handlers).toComparison walker
      walker
  have alike :=
    start.answers strict (walker.accompanies_stripped blind bound)
      alikeSteps
  exact eq_map_of_forall₂ (alike.imp fun _ _ => Answer.eq_strip_of_alike)

/--
Undeclared properties never matter, and are never lost on the way. With blind handlers,
whatever a caller asks about trees stripped of them is answered with the same log and
the same failures, and with the results stripped. In what a transformer makes of a tree,
all nodes above the handled ones still have the properties they had. So it is wherever a
handler calls back: in what a visit gives, and for the node that it has rebuilt or given
by the built-in fallback.
-/
theorem undeclared_properties_never_matter
    {walker : Walker}
    {handlers : HandlerMap Handler}
    (blind :
      ∀ handler,
        walker.Employs handlers handler →
        handler.Throughout fun action => action.isBlind = true)
    (bound : Nat) :
    let services := walker.services bound
    (∀ steps,
      (Session.create walker handlers).answers bound
          (steps.map Step.strip) =
        ((Session.create walker handlers).answers bound steps).map
          Answer.strip) ∧
      (walker.mode = .transformer →
        (∀ earlier tree keys value,
          (((Session.create walker handlers).after bound earlier).step bound
              (.traverse tree keys)).1.reply =
            .result value →
          walker.Carries handlers tree [value]) ∧
        (∀ node context values,
          (services.visitNode node context).Yields handlers values
            (.finished ()) →
          walker.Carries handlers node values) ∧
        (∀ node context result values,
          (services.rebuild node context).Yields handlers values
            (.finished result) →
          result.RebuiltFrom (walker.Carries handlers) node) ∧
        (∀ node context values,
          (services.structural node context).Yields handlers values
            (.finished ()) →
          ∃ result,
            values = [.node result] ∧
              result.RebuiltFrom (walker.Carries handlers) node) ∧
        (walker.fallback = none →
          services.generic = services.structural)) := by
  intro services
  refine ⟨answers_strip blind bound, fun transformer => ?_⟩
  refine ⟨?traversed, ?visited, ?rebuilt, ?given, ?original⟩
  case traversed =>
    intro earlier tree keys value
    exact carries_of_reply transformer earlier
  case visited =>
    intro node context values
    exact Walker.visitNode_carries transformer
  case rebuilt =>
    intro node context result values
    exact (Walker.rebuiltFrom_of_services transformer).1 result
  case given =>
    intro node context values
    exact (Walker.rebuiltFrom_of_services transformer).2
  case original =>
    intro original
    exact Walker.generic_eq_structural original bound

/-- A transformer that keeps track of paths. -/
def trackingPaths : Walker where
  mode := .transformer
  settings :=
    { trackParents := false
      trackNewParents := false
      trackPaths := true
      maxDepth := 2
      maxDepth_pos := Nat.two_pos
      listener := .logging none }
  fallback := none

/-- Words are marked, and groups rebuilt around them. -/
def markWords : HandlerMap Handler :=
  [(.exactly (.term .word),
      { eager := true
        actions :=
          [.log (.list [.kind, .attributes, .depth, .path]),
            .deliver (.append "!" .node)] }),
    (.anyOf .group,
      { eager := true
        actions :=
          [.rebuild .node
              { assigned := [], removed := [], position := none },
            .choose (.childCount .rebuilt (.ofNat 1))
              [.deliver .rebuilt]
              [.deliver .node]] })]

/-- A word in a group in a field, all with properties that other kinds declare. -/
def decoyed (value : String) : Node :=
  .searchField "title"
    (.group .plain
      (.term .word value [("degree", .text "many"), ("expr", .list [])])
      [("operands", .record [("type", .text "phrase")])])
    [("high", .null), ("low", .text "b")]

/-- Marking the word is the same without the decoys, and leaves all of them in place. -/
theorem undeclared_properties_never_matter_decoyed :
    (∀ handler,
      trackingPaths.Employs markWords handler →
        handler.Throughout fun action => action.isBlind = true) ∧
      (create trackingPaths markWords).answers 9
          [(Step.traverse (decoyed "a") []).strip] =
        ((create trackingPaths markWords).answers 9
            [.traverse (decoyed "a") []]).map
          Answer.strip ∧
      ((create trackingPaths markWords).step 9
            (.traverse (decoyed "a") [])).1.reply =
        .result (.node (decoyed "a!")) ∧
      trackingPaths.Carries markWords (decoyed "a")
        [.node (decoyed "a!")] := by
  have blind :
      ∀ handler,
        trackingPaths.Employs markWords handler →
        handler.Throughout fun action => action.isBlind = true := by
    rintro handler (⟨type, member⟩ | replaced)
    · rcases List.mem_pair.mp member with isWord | isGroup
      · cases isWord
        exact ⟨rfl, rfl, trivial⟩
      · cases isGroup
        exact ⟨rfl, ⟨rfl, ⟨rfl, trivial⟩, ⟨rfl, trivial⟩⟩, trivial⟩
    · cases replaced
  have told :
      ((create trackingPaths markWords).step 9
            (.traverse (decoyed "a") [])).1.reply =
        .result (.node (decoyed "a!")) :=
    rfl
  obtain ⟨same, inTransformers⟩ :=
    undeclared_properties_never_matter blind 9
  have carries := (inTransformers rfl).1
  exact ⟨blind, same [.traverse (decoyed "a") []], told,
    carries [] _ _ _ told⟩

end Session

end QueryWalk
