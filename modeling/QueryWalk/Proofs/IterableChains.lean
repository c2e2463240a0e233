import QueryWalk.Proofs.CallerRefusals
import QueryWalk.Proofs.WalkLevels

namespace QueryWalk

/-!
# Chains that can be spread

The keys under which a walk keeps ancestors belong to callers and handlers too. From a
context that has something else there than a list, a text or nothing, a walk cannot go
down. What it makes of a context by itself it can always go down from; so as long as
neither callers nor handlers put anything else there, it can go down from every context
in circulation, as far as the limit allows.
-/

/-- Whether a chain can go on from a value. -/
def Value.isSpreadable (value : Value) : Bool :=
  value.isNull || value.spread?.isSome

/-- All chains that are kept can be extended if what their keys hold can be spread. -/
theorem Chain.areIterable_iff_isSpreadable
    {settings : Settings}
    {keys : Fields Value} :
    AreIterable settings keys ↔
      ∀ chain : Chain,
        chain.isTracked settings = true →
        ∀ value,
          keys.get? chain.key = some value →
          value.isSpreadable = true := by
  simp only [areIterable_iff, exists_former_iff, Value.isSpreadable,
    Bool.or_eq_true, Option.isSome_iff_exists]

/-- A change leaves chains that can be spread if what it assigns to them can be. -/
theorem Change.keeps_isIterable
    {settings : Settings}
    {change : Change}
    (spreadable :
      ∀ chain : Chain,
        chain.isTracked settings = true →
        ∀ expression,
          (chain.key, expression) ∈ change.assigned →
          ∀ scope value,
            expression.eval scope = .ok value →
            value.isSpreadable = true) :
    change.Keeps (Context.IsIterable settings) := by
  intro scope changed applied iterable
  simp only [Context.IsIterable, Chain.areIterable_iff_isSpreadable]
    at iterable ⊢
  intro chain tracked value found
  rw [Change.get?_apply applied] at found
  rcases Change.effect_cases found with
    isFormer | ⟨expression, member, evaluated⟩
  · exact iterable chain tracked value isFormer
  · exact spreadable chain tracked expression member scope value evaluated

/-- A start gives chains that can be spread, if those of the handler's context can be. -/
def Start.KeepsIterable (settings : Settings) (start : Start) : Prop :=
  ∀ scope keys,
    start.keys scope = .ok keys →
    scope.context.IsIterable settings →
    Chain.AreIterable settings keys

namespace Action

/-- The start from which an action begins a new traversal. -/
def start? : Action → Option Start
  | .restart _ start => some start
  | _ => none

/-- Below a context from which a walk can go down, an action hands on such contexts. -/
structure KeepsIterable (settings : Settings) (action : Action) : Prop where
  change :
    ∀ change,
      action.change? = some change →
      change.Keeps (Context.IsIterable settings)
  start :
    ∀ start,
      action.start? = some start →
      start.KeepsIterable settings

variable
  {settings : Settings}
  {node : Node}
  {context : Context}
  {action : Action}

/-- What an action calls is called with chains that can be spread. -/
theorem Makes.isIterable
    {moves : List Move}
    {call : Call}
    (makes : action.Makes settings node context moves call)
    (keeps : action.Throughout (KeepsIterable settings))
    (iterable : context.IsIterable settings) :
    call.context.IsIterable settings := by
  induction makes with
  | callback isAt calls _ applied =>
      rw [← isAt.context_eq] at iterable
      exact keeps.self.change _ (change?_of_callback? calls) _ _ applied
        iterable
  | child _ _ descended | visitUnder _ _ _ _ descended =>
      exact Context.areIterable_of_descend descended
  | restart isAt _ given =>
      rw [← isAt.context_eq] at iterable
      exact keeps.self.start _ rfl _ _ given iterable
  | consequence _ _ member _ inductionHypothesis =>
      exact inductionHypothesis (keeps.2.1.of_mem member)
  | alternative _ _ member _ inductionHypothesis =>
      exact inductionHypothesis (keeps.2.2.of_mem member)
  | body member _ inductionHypothesis =>
      exact inductionHypothesis (keeps.2.1.of_mem member)
  | handling member _ inductionHypothesis =>
      exact inductionHypothesis (keeps.2.2.of_mem member)

/-- An action asks for the context of a child below chains that can be spread. -/
theorem Derives.isIterable
    {above : Context}
    {parent : Node}
    {index : Number}
    (derives : action.Derives node context above parent index)
    (keeps : action.Throughout (KeepsIterable settings))
    (iterable : context.IsIterable settings) :
    above.IsIterable settings := by
  cases derives with
  | asks within isAt derivation _ applied =>
      rw [← isAt.context_eq] at iterable
      have change :=
        (within.throughout keeps).self.change _
          (change?_of_derivation? derivation)
      exact change _ _ applied iterable

end Action

namespace Walker

/-- All handlers of a walk hand on contexts from which it can go down. -/
def KeepsIterable
    (walker : Walker)
    (handlers : HandlerMap Handler) :
    Prop :=
  ∀ handler,
    walker.Employs handlers handler →
    handler.Throughout (Action.KeepsIterable walker.settings)

variable
  {walker : Walker}
  {handlers : HandlerMap Handler}

section Keeps

variable (keeps : walker.KeepsIterable handlers)

include keeps

/-- From chains that can be spread, a call leads to a call with such chains. -/
theorem Leads.isIterable
    {call next : Call}
    {moves : List Move}
    (leads : walker.Leads handlers call moves next)
    (iterable : call.context.IsIterable walker.settings) :
    next.context.IsIterable walker.settings := by
  cases leads with
  | byHandler invokes makes =>
      obtain ⟨action, member, byAction⟩ := makes
      have throughout := keeps _ invokes.employs
      exact byAction.isIterable (throughout.of_mem member) iterable
  | toFallback | toStructural | toRoot =>
      exact iterable
  | toChild _ _ descended =>
      exact Context.areIterable_of_descend descended

/-- The context of a child is asked for below chains that can be spread. -/
theorem Derives.isIterable
    {call : Call}
    {above : Context}
    {parent : Node}
    {index : Number}
    (derives : walker.Derives handlers call above parent index)
    (iterable : call.context.IsIterable walker.settings) :
    above.IsIterable walker.settings := by
  cases derives with
  | byHandler invokes derives =>
      obtain ⟨action, member, byAction⟩ := derives
      have throughout := keeps _ invokes.employs
      exact byAction.isIterable (throughout.of_mem member) iterable
  | byEngine =>
      exact iterable

/-- On every route from chains that can be spread, chains can be. -/
theorem Route.isIterable
    {first call : Call}
    {moves : List Move}
    (route : walker.Route handlers first moves call)
    (iterable : first.context.IsIterable walker.settings) :
    call.context.IsIterable walker.settings := by
  induction route with
  | here =>
      exact iterable
  | onward _ leads inductionHypothesis =>
      exact leads.isIterable keeps inductionHypothesis

end Keeps

end Walker

/-- Where chains can be spread, a child's context is refused for the limit only. -/
theorem Context.IsIterable.eq_of_refused
    {settings : Settings}
    {context : Context}
    {parent : Node}
    {index : Number}
    {failure : Failure}
    (iterable : context.IsIterable settings)
    (refused : context.descend settings parent index = .error failure) :
    failure = .traversalDepth (.ofNat settings.maxDepth) := by
  obtain ⟨-, isDepth⟩ | ⟨chain, stuck, -⟩ :=
    Context.failure_of_descend refused
  · exact isDepth
  · rw [IsIterable, Chain.AreIterable, stuck] at iterable
    cases iterable

/-- A caller gives a walk nothing from which it cannot go down. -/
structure Step.IsIterable (settings : Settings) (step : Step) : Prop where
  context :
    ∀ context,
      step.context? = some context →
      context.IsIterable settings
  keys :
    ∀ keys,
      step.keys? = some keys →
      Chain.AreIterable settings keys

/-- What such a step asks for is asked for with chains that can be spread. -/
theorem Step.IsIterable.call
    {settings : Settings}
    {step : Step}
    {call : Call}
    (iterable : step.IsIterable settings)
    (asks : step.call? settings = some call) :
    call.context.IsIterable settings := by
  cases step with
  | traverse | start =>
      cases asks
      exact iterable.keys _ rfl
  | visitNode | startNode | generic | startGeneric | rebuild =>
      cases asks
      exact iterable.context _ rfl
  | childContext | setHandler | deleteHandler | next | rest =>
      cases asks

/-- A visitor of at most two levels that keeps track of ancestors. -/
def keepingParents : Walker where
  mode := .visitor
  settings :=
    { trackParents := true
      trackNewParents := false
      trackPaths := false
      maxDepth := 2
      maxDepth_pos := Nat.two_pos
      listener := .silent }
  fallback := none

/--
Groups put their depth where ancestors are kept, and have a text ready for where that is in
the way. Words give themselves.
-/
def numberingGroups : HandlerMap Handler :=
  [(.exactly (.group .plain),
      { eager := false
        actions :=
          [.rescue
            [.generic .node
              { assigned := [("parents", .depth)]
                removed := []
                position := none }]
            [.deliver (.constant (.text "caught"))]] }),
    (.exactly (.term .word),
      { eager := false
        actions := [.deliver .node] })]

/-- Such groups keep no chains that can be spread. -/
theorem not_keepsIterable_numberingGroups :
    ¬ keepingParents.KeepsIterable numberingGroups := by
  intro keeps
  obtain ⟨⟨-, ⟨generic, -⟩, -⟩, -⟩ :=
    keeps _ (.inl ⟨_, List.mem_cons_self⟩)
  have changed :=
    generic.change _ rfl
      (.start (Query.group (Query.word "a"))
        (.root keepingParents.settings []))
      _ rfl rfl
  cases changed

end QueryWalk
