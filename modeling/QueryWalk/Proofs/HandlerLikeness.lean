import QueryWalk.Proofs.CallRoutes
import QueryWalk.Proofs.CollectedResults
import QueryWalk.Proofs.MatchingRuns

namespace QueryWalk

/-!
# Alike handlers

A likeness says which nodes, contexts and values of one walk stand for which of
another, so that every way of taking a node apart or putting it together respects
it. A handler whose expressions respect it too takes matching runs in alike scopes,
as long as the services it calls match.
-/

/-- What two walks may differ in. -/
structure Likeness extends Comparison where
  node : Node → Node → Prop
  context : Context → Context → Prop
  /-- What the contexts of new traversals may differ in. -/
  keys : Fields Value → Fields Value → Prop
  kind_eq :
    ∀ {first second},
      node first second →
      first.kind = second.kind
  attributes_eq :
    ∀ {first second},
      node first second →
      first.attributes = second.attributes
  children :
    ∀ {first second},
      node first second →
      List.Forall₂ node first.children second.children
  withChildren :
    ∀ {first second given others},
      node first second →
      List.Forall₂ node given others →
      toComparison.Outcomes node
        (first.withChildren given) (second.withChildren others)
  null : value .null .null
  ofNode :
    ∀ {first second},
      node first second →
      value (.node first) (.node second)
  ofList :
    ∀ {items others},
      List.Forall₂ value items others →
      value (.list items) (.list others)
  asNode :
    ∀ {first second : Value},
      value first second →
      node first.asNode second.asNode
  items :
    ∀ {first second : Value},
      value first second →
      List.Forall₂ value first.items second.items
  /-- What a listener is told about alike nodes is the same. -/
  entry : ∀ told, note (.entry told) (.entry told)
  entered :
    ∀ {first second above other} type,
      node first second →
      context above other →
      note (.entered type first above) (.entered type second other)
  handlerFails : ∀ wording, fails (.handler wording)
  arityFails : ∀ count, fails (.transformArity count none)
  rebuildFails : fails .noRebuild

/-- Scopes in which everything is alike, and the caught failures are the same. -/
structure Scope.Alike (like : Likeness) (first second : Scope) : Prop where
  node : like.node first.node second.node
  context : like.context first.context second.context
  rebuilt : like.value first.rebuilt second.rebuilt
  error : first.error = second.error

/-- An expression respects a likeness: in alike scopes its values are alike. -/
def Expression.Respects
    (expression : Expression)
    (like : Likeness) :
    Prop :=
  ∀ first second : Scope,
    first.Alike like second →
    like.Outcomes like.value (expression.eval first)
      (expression.eval second)

/-- An expression whose values in alike scopes may be logged for each other. -/
def Expression.RespectsLog
    (expression : Expression)
    (like : Likeness) :
    Prop :=
  ∀ first second : Scope,
    first.Alike like second →
    like.Outcomes
      (fun value other =>
        like.note (.entry (.logged value)) (.entry (.logged other)))
      (expression.eval first) (expression.eval second)

/-- A condition respects a likeness: alike scopes decide it in the same way. -/
def Condition.Respects
    (condition : Condition)
    (like : Likeness) :
    Prop :=
  ∀ first second : Scope,
    first.Alike like second →
    like.Outcomes (· = ·) (condition.eval first) (condition.eval second)

/-- A change respects a likeness: alike contexts are changed to alike ones. -/
def Change.Respects (change : Change) (like : Likeness) : Prop :=
  ∀ first second : Scope,
    first.Alike like second →
    like.Outcomes like.context (change.apply first) (change.apply second)

/-- A start respects a likeness: in alike scopes it gives alike keys. -/
def Start.Respects (start : Start) (like : Likeness) : Prop :=
  ∀ first second : Scope,
    first.Alike like second →
    like.Outcomes like.keys (start.keys first) (start.keys second)

namespace Services

/-- What a node gives as the child of another in a context. -/
def visitBelow
    (services : Services)
    (parent : Node)
    (index : Number)
    (child : Node)
    (context : Context) :
    Run Unit :=
  (Run.ofExcept (context.descend services.settings parent index)).bind
    (services.visitNode child)

/-- Alike calls of those services that are allowed take matching runs. -/
structure Match
    (like : Likeness)
    (allowed : Service → Prop)
    (left right : Services) : Prop where
  visitNode :
    ∀ {node other context otherContext},
      allowed .visitNode →
      like.node node other →
      like.context context otherContext →
      (left.visitNode node context).Matches like.toComparison .finished
        (right.visitNode other otherContext)
  generic :
    ∀ {node other context otherContext},
      allowed .generic →
      like.node node other →
      like.context context otherContext →
      (left.generic node context).Matches like.toComparison .finished
        (right.generic other otherContext)
  structural :
    ∀ {node other context otherContext},
      allowed .structural →
      like.node node other →
      like.context context otherContext →
      (left.structural node context).Matches like.toComparison .finished
        (right.structural other otherContext)
  rebuild :
    ∀ {node other context otherContext},
      allowed .rebuild →
      like.node node other →
      like.context context otherContext →
      (left.rebuild node context).Matches like.toComparison
        (.only like.node)
        (right.rebuild other otherContext)
  restart :
    ∀ {tree other keys otherKeys},
      allowed .restart →
      like.node tree other →
      like.keys keys otherKeys →
      (left.restart tree keys).Matches like.toComparison
        (.only like.value)
        (right.restart other otherKeys)
  /-- Visits one level down are always allowed. -/
  below :
    ∀ {parent otherParent child other context otherContext} index,
      like.node parent otherParent →
      like.node child other →
      like.context context otherContext →
      (left.visitBelow parent index child context).Matches
        like.toComparison .finished
        (right.visitBelow otherParent index other otherContext)

end Services

namespace Action

mutual

/-- An action and all actions within it have a property. -/
def Throughout (property : Action → Prop) : Action → Prop
  | .choose condition consequence alternative =>
      property (.choose condition consequence alternative) ∧
        AllThroughout property consequence ∧
        AllThroughout property alternative
  | .rescue body handling =>
      property (.rescue body handling) ∧
        AllThroughout property body ∧
        AllThroughout property handling
  | action => property action

/-- Some actions and all actions within them have a property. -/
def AllThroughout (property : Action → Prop) : List Action → Prop
  | [] => True
  | action :: rest =>
      action.Throughout property ∧ AllThroughout property rest

end

/--
What an action does by itself respects a likeness, and it only calls services that
are allowed.
-/
def Respects (like : Likeness) (allowed : Service → Prop) : Action → Prop
  | .deliver value | .deliverAll value => value.Respects like
  | .log value => value.RespectsLog like
  | .fail _ => True
  | .generic subject change =>
      allowed .generic ∧ subject.Respects like ∧ change.Respects like
  | .structural subject change =>
      allowed .structural ∧ subject.Respects like ∧ change.Respects like
  | .child _ _ change => change.Respects like
  | .visit subject change =>
      allowed .visitNode ∧ subject.Respects like ∧ change.Respects like
  | .visitUnder subject parent _ change =>
      subject.Respects like ∧ parent.Respects like ∧ change.Respects like
  | .rebuild subject change =>
      allowed .rebuild ∧ subject.Respects like ∧ change.Respects like
  | .restart tree start =>
      allowed .restart ∧ tree.Respects like ∧ start.Respects like
  | .choose condition _ _ => condition.Respects like
  -- A rescue would go on where the first run is to end early.
  | .rescue _ _ => ∀ failure, ¬ like.stops failure

end Action

/-- All actions of a handler have a property, those within others included. -/
def Handler.Throughout
    (handler : Handler)
    (property : Action → Prop) :
    Prop :=
  Action.AllThroughout property handler.actions

section Throughout

variable {property other weaker : Action → Prop}

mutual

/-- What follows from a property holds wherever the property does. -/
theorem Action.Throughout.mono
    (implied : ∀ action, property action → weaker action) :
    ∀ {action : Action},
      action.Throughout property →
      action.Throughout weaker
  | .choose _ _ _, throughout | .rescue _ _, throughout =>
      ⟨implied _ throughout.1, allMono implied throughout.2.1,
        allMono implied throughout.2.2⟩
  | .deliver _, throughout | .deliverAll _, throughout
  | .log _, throughout | .fail _, throughout
  | .generic _ _, throughout | .structural _ _, throughout
  | .child _ _ _, throughout | .visit _ _, throughout
  | .visitUnder _ _ _ _, throughout | .rebuild _ _, throughout
  | .restart _ _, throughout =>
      implied _ throughout

/-- The same, of some actions. -/
theorem Action.Throughout.allMono
    (implied : ∀ action, property action → weaker action) :
    ∀ {actions : List Action},
      AllThroughout property actions →
      AllThroughout weaker actions
  | [], _ => trivial
  | _ :: _, throughout =>
      ⟨throughout.1.mono implied, allMono implied throughout.2⟩

end

mutual

/-- Two properties that hold throughout an action hold together throughout it. -/
theorem Action.Throughout.and :
    ∀ {action : Action},
      action.Throughout property →
      action.Throughout other →
      action.Throughout fun action => property action ∧ other action
  | .choose _ _ _, first, second | .rescue _ _, first, second =>
      ⟨⟨first.1, second.1⟩, allAnd first.2.1 second.2.1,
        allAnd first.2.2 second.2.2⟩
  | .deliver _, first, second | .deliverAll _, first, second
  | .log _, first, second | .fail _, first, second
  | .generic _ _, first, second | .structural _ _, first, second
  | .child _ _ _, first, second | .visit _ _, first, second
  | .visitUnder _ _ _ _, first, second | .rebuild _ _, first, second
  | .restart _ _, first, second =>
      ⟨first, second⟩

/-- The same, of some actions. -/
theorem Action.Throughout.allAnd :
    ∀ {actions : List Action},
      AllThroughout property actions →
      AllThroughout other actions →
      AllThroughout (fun action => property action ∧ other action) actions
  | [], _, _ => trivial
  | _ :: _, first, second =>
      ⟨first.1.and second.1, allAnd first.2 second.2⟩

end

/-- Two properties that hold throughout a handler hold together throughout it. -/
theorem Handler.Throughout.and
    {handler : Handler}
    (first : handler.Throughout property)
    (second : handler.Throughout other) :
    handler.Throughout fun action => property action ∧ other action :=
  Action.Throughout.allAnd first second

/-- What follows from a property holds throughout a handler if the property does. -/
theorem Handler.Throughout.mono
    {handler : Handler}
    (throughout : handler.Throughout property)
    (implied : ∀ action, property action → weaker action) :
    handler.Throughout weaker :=
  Action.Throughout.allMono implied throughout

mutual

/-- What always holds holds throughout every action. -/
theorem Action.throughout_of_forall
    (always : ∀ action, property action) :
    ∀ action : Action, action.Throughout property
  | .choose _ consequence alternative =>
      ⟨always _, allThroughout_of_forall always consequence,
        allThroughout_of_forall always alternative⟩
  | .rescue body handling =>
      ⟨always _, allThroughout_of_forall always body,
        allThroughout_of_forall always handling⟩
  | .deliver _ | .deliverAll _ | .log _ | .fail _ | .generic _ _
  | .structural _ _ | .child _ _ _ | .visit _ _ | .visitUnder _ _ _ _
  | .rebuild _ _ | .restart _ _ =>
      always _

/-- The same, of some actions. -/
theorem Action.allThroughout_of_forall
    (always : ∀ action, property action) :
    ∀ actions : List Action, AllThroughout property actions
  | [] => trivial
  | action :: rest =>
      ⟨action.throughout_of_forall always,
        allThroughout_of_forall always rest⟩

end

end Throughout

section Matches

variable
  {like : Likeness}
  {allowed : Service → Prop}
  {left right : Services}
  {first second : Scope}

/-- A handler called for alike nodes in alike contexts starts in alike scopes. -/
theorem Scope.Alike.start
    {node other : Node}
    {context otherContext : Context}
    (nodes : like.node node other)
    (contexts : like.context context otherContext) :
    (Scope.start node context).Alike like (.start other otherContext) where
  node := nodes
  context := contexts
  rebuilt := like.null
  error := rfl

/-- The children of alike nodes at an index are alike. -/
theorem Likeness.childValue
    {node other : Node}
    (nodes : like.node node other)
    (index : Number) :
    like.value (node.childValue index) (other.childValue index) := by
  unfold Node.childValue
  cases index.toIndex? with
  | none =>
      exact like.null
  | some place =>
      simp only [Option.bind_some]
      have children := like.children nodes
      generalize node.children = given at children ⊢
      generalize other.children = others at children ⊢
      induction children generalizing place with
      | nil =>
          exact like.null
      | cons child _ inductionHypothesis =>
          cases place with
          | zero =>
              exact like.ofNode child
          | succ place =>
              exact inductionHypothesis place

/-- The nodes of alike lists are alike. -/
theorem Likeness.asNodes
    {values others : List Value}
    (alike : List.Forall₂ like.value values others) :
    List.Forall₂ like.node (values.map Value.asNode)
      (others.map Value.asNode) := by
  rw [List.forall₂_map_left_iff, List.forall₂_map_right_iff]
  exact alike.imp fun _ _ => like.asNode

/-- Calls leave matching runs to be run. -/
def Likeness.leaving (like : Likeness) : Pairing (Run Unit) (Run Unit) :=
  .only fun run other => run.Matches like.toComparison .finished other

/-- How the actions of handlers in two walks finish. -/
def Likeness.finish (like : Likeness) : Pairing Finish Finish where
  agree finish other :=
    finish.scope.Alike like other.scope ∧
      finish.failure = other.failure ∧
      ∀ failure, finish.failure = some failure → like.fails failure
  early finish :=
    ∃ failure, finish.failure = some failure ∧ like.stops failure

namespace Finish

/-- Actions that come to their end in alike scopes finish alike. -/
theorem agree_of_none
    (scopes : first.Alike like second) :
    like.finish.agree
      { scope := first, failure := none }
      { scope := second, failure := none } := by
  refine ⟨scopes, rfl, ?_⟩
  intro failure isSome
  cases isSome

/-- Actions that end in one failure, in alike scopes, finish alike. -/
theorem agree_of_some
    (scopes : first.Alike like second)
    {failure : Failure}
    (may : like.fails failure) :
    like.finish.agree
      { scope := first, failure := some failure }
      { scope := second, failure := some failure } := by
  refine ⟨scopes, rfl, ?_⟩
  rintro caught ⟨⟩
  exact may

/-- Actions that end in a failure that stops the first walk end early. -/
theorem early_of_some
    {failure : Failure}
    (may : like.stops failure) :
    like.finish.early { scope := first, failure := some failure } :=
  ⟨failure, rfl, may⟩

/-- What follows matching actions matches, after their end or after their failure. -/
theorem bind_matches
    {Left Right : Type}
    {run other : Run Finish}
    {nextLeft : Finish → Run Left}
    {nextRight : Finish → Run Right}
    {further : Pairing Left Right}
    (matched : run.Matches like.toComparison like.finish other)
    (onward :
      ∀ first second,
        first.Alike like second →
        (nextLeft { scope := first, failure := none }).Matches
          like.toComparison further
          (nextRight { scope := second, failure := none }))
    (onFailure :
      ∀ first second failure,
        first.Alike like second →
        like.fails failure →
        (nextLeft { scope := first, failure := some failure }).Matches
          like.toComparison further
          (nextRight { scope := second, failure := some failure }))
    (onStop :
      ∀ scope failure,
        like.stops failure →
        ∀ run,
          (nextLeft { scope := scope, failure := some failure }).Matches
            like.toComparison further run) :
    (run.bind nextLeft).Matches like.toComparison further
      (other.bind nextRight) := by
  apply matched.bindThrough
  · rintro ⟨first, failure⟩ ⟨second, otherFailure⟩ ⟨scopes, same, may⟩
    change failure = otherFailure at same
    subst same
    cases failure with
    | none =>
        exact onward first second scopes
    | some failure =>
        exact onFailure first second failure scopes (may failure rfl)
  · rintro ⟨scope, failure⟩ ⟨stopping, same, stops⟩
    change failure = some stopping at same
    subst same
    exact onStop scope stopping stops

/-- What changes the registers in matching runs finishes alike. -/
theorem perform_matches
    (scopes : first.Alike like second)
    {work other : Run Scope}
    (matched :
      work.Matches like.toComparison (.only (Scope.Alike like)) other) :
    (perform first work).Matches like.toComparison like.finish
      (perform second other) := by
  apply matched.attempt.bindThrough
  · rintro (failure | changed) (otherFailure | otherChanged) agrees
    · obtain ⟨may, same⟩ := agrees
      subst same
      exact .done (agree_of_some scopes may)
    · exact agrees.elim
    · exact agrees.elim
    · exact .done (agree_of_none agrees)
  · rintro (failure | changed) ends run
    · exact .early (early_of_some ends) run
    · exact ends.elim

/-- What leaves the registers alone in matching runs finishes alike. -/
theorem effect_matches
    (scopes : first.Alike like second)
    {work other : Run Unit}
    (matched : work.Matches like.toComparison .finished other) :
    (effect first work).Matches like.toComparison like.finish
      (effect second other) :=
  perform_matches scopes (matched.andThen (.done scopes))

end Finish

namespace Action

/-- A handler delivers what a child of its node gives by visiting it below its context. -/
theorem run_child
    (services : Services)
    (scope : Scope)
    (place index : Number)
    (change : Change) :
    (Action.child place index change).run services scope =
      Finish.effect scope
        ((Run.ofExcept (change.apply scope)).bind
          (services.visitBelow scope.node index
            (scope.node.childValue place).asNode)) := by
  rw [Action.run]
  rfl

/-- A handler delivers what any node gives as a child of another in the same way. -/
theorem run_visitUnder
    (services : Services)
    (scope : Scope)
    (subject upper : Expression)
    (index : Number)
    (change : Change) :
    (Action.visitUnder subject upper index change).run services scope =
      Finish.effect scope
        ((Run.ofExcept (subject.eval scope)).bind fun value =>
          callback scope
            (fun parent =>
              services.visitBelow parent index value.asNode)
            upper change) := by
  simp only [Action.run, callback, Run.bind_eq, Run.bind_bind]
  rfl

/-- Matching services are called back in matching runs. -/
theorem callback_matches
    {Left Right : Type}
    {service : Node → Context → Run Left}
    {otherService : Node → Context → Run Right}
    {agree : Left → Right → Prop}
    (services :
      ∀ {node other context otherContext},
        like.node node other →
        like.context context otherContext →
        (service node context).Matches like.toComparison (.only agree)
          (otherService other otherContext))
    (scopes : first.Alike like second)
    {subject : Expression}
    {change : Change}
    (subjectRespects : subject.Respects like)
    (changeRespects : change.Respects like) :
    (callback first service subject change).Matches like.toComparison
      (.only agree) (callback second otherService subject change) := by
  apply Run.Matches.bind (subjectRespects first second scopes)
  intro value other values
  apply Run.Matches.bind (changeRespects first second scopes)
  intro context otherContext contexts
  exact services (like.asNode values) contexts

mutual

/-- An action that respects a likeness takes matching runs in alike scopes. -/
theorem run_matches
    (services : left.Match like allowed right) :
    ∀ {action : Action} {first second : Scope},
      first.Alike like second →
      action.Throughout (Respects like allowed) →
      (action.run left first).Matches like.toComparison like.finish
        (action.run right second)
  | .deliver value, first, second, scopes, respects => by
      apply Finish.effect_matches scopes
      apply Run.Matches.bind (respects first second scopes)
      intro value other values
      exact .deliver values (.done trivial)
  | .deliverAll values, first, second, scopes, respects => by
      apply Finish.effect_matches scopes
      apply Run.Matches.bind (respects first second scopes)
      intro value other values
      exact .deliverAll (like.items values)
  | .log value, first, second, scopes, respects => by
      apply Finish.effect_matches scopes
      apply Run.Matches.bind (respects first second scopes)
      intro value other notes
      exact .note notes (.done trivial)
  | .fail wording, first, second, scopes, _ => by
      apply Finish.effect_matches scopes
      exact .failed (like.handlerFails wording)
  | .generic subject change, first, second, scopes, respects => by
      obtain ⟨isAllowed, subjectRespects, changeRespects⟩ := respects
      apply Finish.effect_matches scopes
      exact callback_matches (services.generic isAllowed) scopes
        subjectRespects changeRespects
  | .structural subject change, first, second, scopes, respects => by
      obtain ⟨isAllowed, subjectRespects, changeRespects⟩ := respects
      apply Finish.effect_matches scopes
      exact callback_matches (services.structural isAllowed) scopes
        subjectRespects changeRespects
  | .child place index change, first, second, scopes, respects => by
      apply Finish.effect_matches scopes
      apply Run.Matches.bind (respects first second scopes)
      intro above otherAbove contexts
      exact services.below index scopes.node
        (like.asNode (like.childValue scopes.node place)) contexts
  | .visit subject change, first, second, scopes, respects => by
      obtain ⟨isAllowed, subjectRespects, changeRespects⟩ := respects
      apply Finish.effect_matches scopes
      exact callback_matches (services.visitNode isAllowed) scopes
        subjectRespects changeRespects
  | .visitUnder subject parent index change, first, second, scopes,
      respects => by
      obtain ⟨subjectRespects, parentRespects, changeRespects⟩ := respects
      rw [run_visitUnder, run_visitUnder]
      apply Finish.effect_matches scopes
      apply Run.Matches.bind (subjectRespects first second scopes)
      intro value other values
      exact callback_matches
        (fun uppers contexts =>
          services.below index uppers (like.asNode values) contexts)
        scopes parentRespects changeRespects
  | .rebuild subject change, first, second, scopes, respects => by
      obtain ⟨isAllowed, subjectRespects, changeRespects⟩ := respects
      apply Finish.perform_matches scopes
      apply Run.Matches.bind
        (callback_matches (services.rebuild isAllowed) scopes
          subjectRespects changeRespects)
      intro result otherResult results
      exact .done { scopes with rebuilt := like.ofNode results }
  | .restart tree start, first, second, scopes, respects => by
      obtain ⟨isAllowed, treeRespects, startRespects⟩ := respects
      apply Finish.effect_matches scopes
      apply Run.Matches.bind (treeRespects first second scopes)
      intro root otherRoot roots
      apply Run.Matches.bind (startRespects first second scopes)
      intro keys otherKeys alikeKeys
      apply Run.Matches.bind
        (services.restart isAllowed (like.asNode roots) alikeKeys)
      intro outcome otherOutcome outcomes
      exact .deliver outcomes (.done trivial)
  | .choose condition consequence alternative, first, second, scopes,
      respects => by
      obtain ⟨conditionRespects, ifSo, ifNot⟩ := respects
      unfold Action.run
      rcases (conditionRespects first second scopes).cases with
        ⟨holds, other, isFirst, isSecond, same⟩ |
          ⟨failure, isFirst, isSecond, may⟩ | ⟨failure, isFirst, may⟩
      · subst same
        rw [isFirst, isSecond]
        cases holds with
        | true =>
            exact runAll_matches services scopes ifSo
        | false =>
            exact runAll_matches services scopes ifNot
      · rw [isFirst, isSecond]
        exact .done (Finish.agree_of_some scopes may)
      · rw [isFirst]
        exact .early (Finish.early_of_some may) _
  | .rescue body handling, first, second, scopes, respects => by
      obtain ⟨neverStops, bodyRespects, handlingRespects⟩ := respects
      unfold Action.run
      apply Finish.bind_matches
        (runAll_matches services scopes bodyRespects)
      · intro scope other after
        exact .done (Finish.agree_of_none after)
      · intro scope other failure after _
        exact runAll_matches services { after with error := rfl }
          handlingRespects
      · intro scope failure stops
        exact (neverStops failure stops).elim

/-- Actions that respect a likeness take matching runs in alike scopes. -/
theorem runAll_matches
    (services : left.Match like allowed right) :
    ∀ {actions : List Action} {first second : Scope},
      first.Alike like second →
      AllThroughout (Respects like allowed) actions →
      (runAll left first actions).Matches like.toComparison like.finish
        (runAll right second actions)
  | [], first, second, scopes, _ => by
      unfold runAll
      exact .done (Finish.agree_of_none scopes)
  | action :: rest, first, second, scopes, respects => by
      unfold runAll
      apply Finish.bind_matches (run_matches services scopes respects.1)
      · intro scope other after
        exact runAll_matches services after respects.2
      · intro scope other failure after may
        exact .done (Finish.agree_of_some after may)
      · intro scope failure stops
        exact .early (Finish.early_of_some stops)

end

end Action

namespace Handler

/-- A handler that respects a likeness takes matching runs for alike nodes. -/
theorem body_matches
    (services : left.Match like allowed right)
    {handler : Handler}
    (respects : handler.Throughout (Action.Respects like allowed))
    {node other : Node}
    {context otherContext : Context}
    (nodes : like.node node other)
    (contexts : like.context context otherContext) :
    (handler.body left node context).Matches like.toComparison .finished
      (handler.body right other otherContext) := by
  apply Finish.bind_matches
    (Action.runAll_matches services (.start nodes contexts) respects)
  · intro scope otherScope _
    exact .done trivial
  · intro scope otherScope failure _ may
    exact .failed may
  · intro scope failure stops
    exact .stopped stops

/-- Calls that leave matching runs to be run. -/
theorem call_matches
    (services : left.Match like allowed right)
    {handler : Handler}
    (respects : handler.Throughout (Action.Respects like allowed))
    {node other : Node}
    {context otherContext : Context}
    (nodes : like.node node other)
    (contexts : like.context context otherContext) :
    (handler.call left node context).Matches like.toComparison
      like.leaving (handler.call right other otherContext) := by
  have body := body_matches services respects nodes contexts
  unfold call
  by_cases eager : handler.eager
  · rw [if_pos eager, if_pos eager]
    apply body.gather.bind
    intro values others alike
    exact .done (.deliverAll alike)
  · rw [if_neg eager, if_neg eager]
    exact .done body

end Handler

end Matches

end QueryWalk
