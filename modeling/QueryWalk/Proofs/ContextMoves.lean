import QueryWalk.Proofs.CallRoutes

namespace QueryWalk

/-!
# What moves make of a context

A move takes one context to another, and has an effect on every key that no
chain is kept under. The moves of a route take the context of its first call to
that of its last, so such a key holds what the moves have made of the value it
began with.
-/

namespace Change

/--
What a change makes of the value under a key, in the scope of its handler. A
removal comes last.
-/
def effect
    (change : Change)
    (scope : Scope)
    (key : String)
    (former : Option Value) :
    Option Value :=
  if key ∈ change.removed then
    none
  else
    change.assigned.foldl
      (fun value entry =>
        if entry.1 = key then (entry.2.eval scope).toOption else value)
      former

/-- What a change makes of a value is the value, or something that it assigns. -/
theorem effect_cases
    {change : Change}
    {scope : Scope}
    {key : String}
    {former : Option Value}
    {value : Value}
    (isEffect : change.effect scope key former = some value) :
    former = some value ∨
      ∃ expression,
        (key, expression) ∈ change.assigned ∧
          expression.eval scope = .ok value := by
  unfold effect at isEffect
  split at isEffect
  · cases isEffect
  · generalize change.assigned = assigned at isEffect ⊢
    induction assigned generalizing former with
    | nil =>
        exact .inl isEffect
    | cons entry rest inductionHypothesis =>
        rcases inductionHypothesis isEffect with
          isEntry | ⟨expression, member, evaluated⟩
        · by_cases isKey : entry.1 = key
          · simp only [if_pos isKey] at isEntry
            subst isKey
            refine .inr ⟨entry.2, List.mem_cons_self, ?_⟩
            cases evaluated : entry.2.eval scope with
            | error failure =>
                rw [evaluated] at isEntry
                cases isEntry
            | ok result =>
                rw [evaluated] at isEntry
                exact congrArg Except.ok (Option.some.inj isEntry)
          · simp only [if_neg isKey] at isEntry
            exact .inl isEntry
        · exact .inr
            ⟨expression, List.mem_cons_of_mem entry member, evaluated⟩

/-- Assigned values are found under their keys, the last one first. -/
theorem get?_insertAll_values
    {scope : Scope}
    {assigned : List (String × Expression)}
    {given : Fields Value}
    (evaluated : values scope assigned = .ok given)
    (fields : Fields Value)
    (key : String) :
    (fields.insertAll given).get? key =
      assigned.foldl
        (fun value entry =>
          if entry.1 = key then (entry.2.eval scope).toOption else value)
        (fields.get? key) := by
  induction assigned generalizing given fields with
  | nil =>
      cases evaluated
      rfl
  | cons entry rest inductionHypothesis =>
      rcases entry with ⟨name, expression⟩
      simp only [values] at evaluated
      cases valueIs : expression.eval scope with
      | error failure =>
          rw [valueIs] at evaluated
          cases evaluated
      | ok value =>
          cases laterAre : values scope rest with
          | error failure =>
              rw [valueIs, laterAre] at evaluated
              cases evaluated
          | ok later =>
              rw [valueIs, laterAre] at evaluated
              cases evaluated
              have further :=
                inductionHypothesis laterAre (fields.insert name value)
              simp only [Fields.insertAll, List.foldl_cons] at further ⊢
              rw [further]
              by_cases same : name = key
              · subst same
                simp [valueIs, Except.toOption]
              · simp [same, Fields.get?_insert_of_ne fields same]

/-- An applied change has its effect on every key. -/
theorem get?_apply
    {change : Change}
    {scope : Scope}
    {changed : Context}
    (applied : change.apply scope = .ok changed)
    (key : String) :
    changed.keys.get? key =
      change.effect scope key (scope.context.keys.get? key) := by
  simp only [apply] at applied
  cases givenIs : values scope change.assigned with
  | error failure =>
      rw [givenIs] at applied
      cases applied
  | ok given =>
      rw [givenIs] at applied
      cases applied
      rw [Fields.get?_eraseAll, get?_insertAll_values givenIs]
      rfl

/-- An applied change has the position it gives, or else the former one. -/
theorem position_apply
    {change : Change}
    {scope : Scope}
    {changed : Context}
    (applied : change.apply scope = .ok changed) :
    changed.position = change.position.getD scope.context.position := by
  simp only [apply] at applied
  cases givenIs : values scope change.assigned with
  | error failure =>
      rw [givenIs] at applied
      cases applied
  | ok given =>
      rw [givenIs] at applied
      cases applied
      rfl

end Change

namespace Move

/-- What a move makes of the value under a key that no chain is kept under. -/
def effect (key : String) (former : Option Value) : Move → Option Value
  | .changed scope change => change.effect scope key former
  | .descended .. => former
  | .restarted keys => keys.get? key

/-- What some moves, one after the other, make of the value under a key. -/
def effects
    (key : String)
    (former : Option Value)
    (moves : List Move) :
    Option Value :=
  moves.foldl (effect key) former

/-- A move takes one context to another. -/
inductive Takes (settings : Settings) : Context → Move → Context → Prop where
  | changed
      {scope : Scope}
      {change : Change}
      {after : Context}
      (applied : change.apply scope = .ok after) :
      Takes settings scope.context (.changed scope change) after
  | descended
      {parent : Node}
      {index : Number}
      {before after : Context}
      (made : before.descend settings parent index = .ok after) :
      Takes settings before (.descended parent index) after
  | restarted
      {keys : Fields Value}
      {before : Context} :
      Takes settings before (.restarted keys) (.root settings keys)

/-- Some moves, one after the other, take one context to another. -/
def TakeAll
    (settings : Settings) :
    Context → List Move → Context → Prop
  | before, [], after => after = before
  | before, move :: rest, after =>
      ∃ middle,
        move.Takes settings before middle ∧
          TakeAll settings middle rest after

variable
  {settings : Settings}
  {before middle after : Context}

/-- A move has its effect on every key that no chain is kept under. -/
theorem Takes.get?
    {move : Move}
    (takes : move.Takes settings before after)
    {key : String}
    (other :
      ∀ chain : Chain,
        chain.isTracked settings = true →
        chain.key ≠ key) :
    after.keys.get? key = move.effect key (before.keys.get? key) := by
  cases takes with
  | changed applied =>
      exact Change.get?_apply applied key
  | descended made =>
      exact Context.get?_of_descend made other
  | restarted =>
      rfl

namespace TakeAll

/-- One move by itself. -/
theorem single
    {move : Move}
    (takes : move.Takes settings before after) :
    TakeAll settings before [move] after :=
  ⟨after, takes, rfl⟩

/-- Two moves by themselves. -/
theorem pair
    {first second : Move}
    (takesFirst : first.Takes settings before middle)
    (takesSecond : second.Takes settings middle after) :
    TakeAll settings before [first, second] after :=
  ⟨middle, takesFirst, single takesSecond⟩

/-- Moves after other moves. -/
theorem append
    {earlier later : List Move}
    (first : TakeAll settings before earlier middle)
    (second : TakeAll settings middle later after) :
    TakeAll settings before (earlier ++ later) after := by
  induction earlier generalizing before with
  | nil =>
      cases first
      exact second
  | cons move rest inductionHypothesis =>
      obtain ⟨between, takes, onward⟩ := first
      exact ⟨between, takes, inductionHypothesis onward⟩

/-- Moves have their effects on every key that no chain is kept under. -/
theorem get?
    {moves : List Move}
    (take : TakeAll settings before moves after)
    {key : String}
    (other :
      ∀ chain : Chain,
        chain.isTracked settings = true →
        chain.key ≠ key) :
    after.keys.get? key =
      effects key (before.keys.get? key) moves := by
  induction moves generalizing before with
  | nil =>
      cases take
      rfl
  | cons move rest inductionHypothesis =>
      obtain ⟨between, takes, onward⟩ := take
      rw [inductionHypothesis onward, takes.get? other]
      rfl

end TakeAll

end Move

/-- The context of a call that an action makes comes from its handler's. -/
theorem Action.Makes.takeAll
    {settings : Settings}
    {node : Node}
    {context : Context}
    {action : Action}
    {moves : List Move}
    {call : Call}
    (makes : action.Makes settings node context moves call) :
    Move.TakeAll settings context moves call.context := by
  induction makes with
  | callback isAt _ _ applied =>
      rw [← isAt.context_eq]
      exact .single (.changed applied)
  | child isAt applied descended
  | visitUnder isAt _ _ applied descended =>
      rw [← isAt.context_eq]
      exact .pair (.changed applied) (.descended descended)
  | restart =>
      exact .single .restarted
  | consequence _ _ _ _ inductionHypothesis
  | alternative _ _ _ _ inductionHypothesis
  | body _ _ inductionHypothesis
  | handling _ _ inductionHypothesis =>
      exact inductionHypothesis

namespace Walker

variable
  {walker : Walker}
  {handlers : HandlerMap Handler}

/-- The context of a call that another leads to comes from the other's. -/
theorem Leads.takeAll
    {call next : Call}
    {moves : List Move}
    (leads : walker.Leads handlers call moves next) :
    Move.TakeAll walker.settings call.context moves next.context := by
  cases leads with
  | byHandler _ makes =>
      obtain ⟨action, _, byAction⟩ := makes
      exact byAction.takeAll
  | toFallback | toStructural | toRoot =>
      rfl
  | toChild _ _ descended =>
      exact .single (.descended descended)

/-- The context at the end of a route comes from the one at its start. -/
theorem Route.takeAll
    {first call : Call}
    {moves : List Move}
    (route : walker.Route handlers first moves call) :
    Move.TakeAll walker.settings first.context moves call.context := by
  induction route with
  | here =>
      rfl
  | onward _ leads inductionHypothesis =>
      exact inductionHypothesis.append leads.takeAll

end Walker

end QueryWalk
