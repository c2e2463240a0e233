import QueryWalk.Proofs.IterableChains

namespace QueryWalk

/-!
# What a walk keeps track of

A walk may keep track of ancestors and of paths. What it keeps is part of its contexts,
among the caller's own keys, and nothing else depends on it: as long as handlers do not
look at the path, at the chains or at a context as a whole, walks that differ only in
what they keep track of cannot be told apart, except by contexts given out as such. They
can be told apart, though, where a caller or a handler puts under the key of a chain what
cannot be spread: a walk that keeps the chain cannot go down from there, and one that does
not keep it can.
-/

/-- What a walk may keep track of. -/
structure Tracking where
  parents : Bool
  newParents : Bool
  paths : Bool

/-- The walker with other settings of what it keeps track of. -/
def Walker.withTracking (walker : Walker) (tracking : Tracking) : Walker :=
  { walker with
    settings :=
      { walker.settings with
        trackParents := tracking.parents
        trackNewParents := tracking.newParents
        trackPaths := tracking.paths } }

/-- Whether some chain is kept under a key, in walks that track it. -/
def Chain.isKey (key : String) : Bool :=
  [Chain.parents, Chain.newParents].any fun chain => chain.key = key

/-- A key under which no chain is kept is the key of none. -/
theorem Chain.key_ne
    {key : String}
    (other : Chain.isKey key = false)
    (chain : Chain) :
    chain.key ≠ key := by
  rintro rfl
  cases chain <;> cases other

namespace Expression

mutual

/-- Whether an expression does not look at the path, a chain or the whole context. -/
def ignoresTracking : Expression → Bool
  | .node | .rebuilt | .error | .kind | .attributes | .children | .depth
  | .constant _ =>
      true
  | .path | .context | .chain _ | .chainKinds _ => false
  | .key name => !Chain.isKey name
  | .list items | .build _ items => allIgnoreTracking items
  | .child _ base | .childrenOf base | .append _ base | .update _ base =>
      base.ignoresTracking
  | .withChildren base given =>
      base.ignoresTracking && given.ignoresTracking

/-- The same, of several expressions. -/
def allIgnoreTracking : List Expression → Bool
  | [] => true
  | item :: rest => item.ignoresTracking && allIgnoreTracking rest

end

end Expression

namespace Condition

/-- Whether a condition does not depend on a chain or on what else is tracked. -/
def ignoresTracking : Condition → Bool
  | .not condition => condition.ignoresTracking
  | .same left right | .equivalent left right =>
      left.ignoresTracking && right.ignoresTracking
  | .isType subject _ | .childCount subject _ => subject.ignoresTracking
  | .hasKey name => !Chain.isKey name
  | .someAncestor .. => false

end Condition

namespace Change

/-- Whether the values assigned do not depend on what is tracked. -/
def ignoresTracking (change : Change) : Bool :=
  change.assigned.all fun assigned => assigned.2.ignoresTracking

end Change

namespace Start

/-- Whether what is changed for a new traversal does not depend on what is tracked. -/
def ignoresTracking : Start → Bool
  | .fresh _ => true
  | .inherited change => change.ignoresTracking

end Start

namespace Action

/-- Whether an action, by itself, does not depend on what is tracked. -/
def ignoresTracking : Action → Bool
  | .deliver value | .deliverAll value | .log value =>
      value.ignoresTracking
  | .fail _ | .rescue .. => true
  | .generic subject change | .structural subject change
  | .visit subject change | .rebuild subject change =>
      subject.ignoresTracking && change.ignoresTracking
  | .child _ _ change => change.ignoresTracking
  | .visitUnder subject parent _ change =>
      (subject.ignoresTracking && parent.ignoresTracking) &&
        change.ignoresTracking
  | .restart tree start => tree.ignoresTracking && start.ignoresTracking
  | .choose condition _ _ => condition.ignoresTracking

end Action

/-- The same values, except under the keys of chains. -/
def Fields.SameUntracked (first second : Fields Value) : Prop :=
  ∀ key, Chain.isKey key = false → first.get? key = second.get? key

namespace Fields.SameUntracked

variable {first second : Fields Value}

/-- They stay the same when a value is put under a key of both. -/
theorem insert
    (same : first.SameUntracked second)
    (key : String)
    (value : Value) :
    (first.insert key value).SameUntracked (second.insert key value) := by
  intro asked other
  by_cases isAsked : key = asked
  · subst isAsked
    rw [get?_insert_self, get?_insert_self]
  · rw [get?_insert_of_ne first isAsked, get?_insert_of_ne second isAsked]
    exact same asked other

/-- They stay the same when the same values are put in. -/
theorem insertAll
    (same : first.SameUntracked second)
    (added : List (String × Value)) :
    (first.insertAll added).SameUntracked (second.insertAll added) := by
  induction added generalizing first second with
  | nil =>
      exact same
  | cons field rest inductionHypothesis =>
      exact inductionHypothesis (same.insert field.1 field.2)

/-- They stay the same when the same keys are removed. -/
theorem eraseAll
    (same : first.SameUntracked second)
    (removed : List String) :
    (first.eraseAll removed).SameUntracked (second.eraseAll removed) := by
  intro key other
  rw [get?_eraseAll, get?_eraseAll, same key other]

end Fields.SameUntracked

/--
Keys of two walks that differ at most in what is tracked, and from which each of the walks
can go down.
-/
structure Fields.GoWith
    (settings other : Settings)
    (first second : Fields Value) : Prop where
  same : first.SameUntracked second
  iterable : Chain.AreIterable settings first
  otherIterable : Chain.AreIterable other second

/-- Contexts of two walks that differ at most in what is tracked, with such keys. -/
structure Context.GoesWith
    (settings other : Settings)
    (first second : Context) : Prop where
  depth : first.position.depth = second.position.depth
  keys : first.keys.GoWith settings other second.keys

/-- Keys from which two walks can go down go with themselves. -/
theorem Fields.GoWith.refl
    {settings other : Settings}
    {keys : Fields Value}
    (iterable : Chain.AreIterable settings keys)
    (otherIterable : Chain.AreIterable other keys) :
    keys.GoWith settings other keys where
  same _ _ := rfl
  iterable := iterable
  otherIterable := otherIterable

/-- Contexts from which two walks can go down go with themselves. -/
theorem Context.GoesWith.refl
    {settings other : Settings}
    {context : Context}
    (iterable : context.IsIterable settings)
    (otherIterable : context.IsIterable other) :
    context.GoesWith settings other context where
  depth := rfl
  keys := .refl iterable otherIterable

/-- Two walks that do the same, with contexts of which nothing is asked. -/
def Sameness.anyContext (handlers : HandlerMap Handler) : Sameness where
  handlers := handlers
  holds _ := True
  exhausts := True
  stops _ := False
  spends := False

/--
A walk may differ from another in what it keeps track of, and so in its contexts, but not
in nodes and values.
-/
def Likeness.untracked
    (settings other : Settings)
    (handlers : HandlerMap Handler) :
    Likeness :=
  { (Sameness.anyContext handlers).likeness with
    note := fun first second => first.entry? = second.entry?
    fails := fun _ => True
    context := Context.GoesWith settings other
    keys := Fields.GoWith settings other
    withChildren := by
      rintro node _ given others rfl alike
      change List.Forall₂ (· = ·) given others at alike
      rw [List.forall₂_eq_eq_eq] at alike
      subst alike
      exact .refl (fun _ _ => trivial) fun _ _ => rfl
    entry := fun _ => rfl
    entered := fun _ _ _ => rfl
    handlerFails := fun _ => trivial
    arityFails := fun _ => trivial
    rebuildFails := trivial }

section Ignores

variable
  {settings other : Settings}
  {handlers : HandlerMap Handler}
  {first second : Scope}

/-- An outcome that is the same twice goes together with itself. -/
theorem Likeness.outcomes_untracked
    {Outcome : Type}
    {outcome another : Except Failure Outcome}
    (same : outcome = another) :
    (Likeness.untracked settings other handlers).Outcomes (· = ·) outcome
      another := by
  subst same
  exact .refl (fun _ _ => trivial) fun _ _ => rfl

mutual

/-- What does not look at what is tracked has one value whatever is tracked. -/
theorem Expression.eval_eq_of_ignoresTracking
    (scopes : first.Alike (.untracked settings other handlers) second) :
    ∀ expression : Expression,
      expression.ignoresTracking = true →
      expression.eval first = expression.eval second
  | .node, _ | .kind, _ | .attributes, _ | .children, _ => by
      have sameNode : first.node = second.node := scopes.node
      simp only [Expression.eval, sameNode]
  | .rebuilt, _ => by
      have sameRegister : first.rebuilt = second.rebuilt := scopes.rebuilt
      simp only [Expression.eval, sameRegister]
  | .error, _ => by
      simp only [Expression.eval, scopes.error]
  | .depth, _ => by
      simp only [Expression.eval, scopes.context.depth]
  | .constant data, _ => by
      simp only [Expression.eval]
  | .key name, ignores => by
      have notKey : Chain.isKey name = false :=
        Bool.not_eq_true' _ ▸ ignores
      simp only [Expression.eval, scopes.context.keys.same name notKey]
  | .list items, ignores | .build _ items, ignores => by
      simp only [Expression.eval,
        Expression.evalAll_eq_of_ignoreTracking scopes items ignores]
  | .child _ base, ignores | .childrenOf base, ignores
  | .append _ base, ignores | .update _ base, ignores => by
      simp only [Expression.eval,
        Expression.eval_eq_of_ignoresTracking scopes base ignores]
  | .withChildren base given, ignores => by
      obtain ⟨baseIgnores, givenIgnores⟩ := Bool.and_eq_true_iff.mp ignores
      simp only [Expression.eval,
        Expression.eval_eq_of_ignoresTracking scopes base baseIgnores,
        Expression.eval_eq_of_ignoresTracking scopes given givenIgnores]

/-- The same, of several expressions. -/
theorem Expression.evalAll_eq_of_ignoreTracking
    (scopes : first.Alike (.untracked settings other handlers) second) :
    ∀ expressions : List Expression,
      Expression.allIgnoreTracking expressions = true →
      Expression.evalAll first expressions =
        Expression.evalAll second expressions
  | [], _ => by
      simp only [Expression.evalAll]
  | item :: rest, ignore => by
      obtain ⟨itemIgnores, restIgnore⟩ := Bool.and_eq_true_iff.mp ignore
      simp only [Expression.evalAll,
        Expression.eval_eq_of_ignoresTracking scopes item itemIgnores,
        Expression.evalAll_eq_of_ignoreTracking scopes rest restIgnore]

end

/-- A condition that ignores what is tracked is decided the same whatever is. -/
theorem Condition.eval_eq_of_ignoresTracking
    (scopes : first.Alike (.untracked settings other handlers) second)
    {condition : Condition}
    (ignores : condition.ignoresTracking = true) :
    condition.eval first = condition.eval second := by
  have evaluates :
      ∀ expression : Expression,
        expression.ignoresTracking = true →
        expression.eval first = expression.eval second :=
    Expression.eval_eq_of_ignoresTracking scopes
  induction condition with
  | not condition inductionHypothesis =>
      simp only [Condition.eval, inductionHypothesis ignores]
  | same left right | equivalent left right =>
      obtain ⟨leftIgnores, rightIgnores⟩ := Bool.and_eq_true_iff.mp ignores
      simp only [Condition.eval, evaluates left leftIgnores,
        evaluates right rightIgnores]
  | isType subject | childCount subject =>
      simp only [Condition.eval, evaluates subject ignores]
  | hasKey name =>
      have notKey : Chain.isKey name = false :=
        Bool.not_eq_true' _ ▸ ignores
      simp only [Condition.eval, Fields.contains,
        scopes.context.keys.same name notKey]
  | someAncestor =>
      cases ignores

/-- What a change assigns does not depend on what is tracked if it ignores it. -/
theorem Change.values_eq_of_ignoresTracking
    (scopes : first.Alike (.untracked settings other handlers) second)
    {assigned : List (String × Expression)}
    (ignore :
      (assigned.all fun each => each.2.ignoresTracking) = true) :
    Change.values first assigned = Change.values second assigned := by
  induction assigned with
  | nil =>
      rfl
  | cons each rest inductionHypothesis =>
      obtain ⟨ignores, restIgnore⟩ := Bool.and_eq_true_iff.mp ignore
      simp only [Change.values, inductionHypothesis restIgnore,
        Expression.eval_eq_of_ignoresTracking scopes each.2 ignores]

/-- By the same assignments contexts are changed to differ no more than they did. -/
theorem Change.apply_cases_of_ignoresTracking
    {change : Change}
    (scopes : first.Alike (.untracked settings other handlers) second)
    (ignores : change.ignoresTracking = true) :
    (∃ failure,
      change.apply first = .error failure ∧
        change.apply second = .error failure) ∨
      ∃ changed another,
        change.apply first = .ok changed ∧
          change.apply second = .ok another ∧
          changed.position.depth = another.position.depth ∧
          changed.keys.SameUntracked another.keys := by
  have sameValues := Change.values_eq_of_ignoresTracking scopes ignores
  unfold Change.apply
  rw [sameValues]
  cases Change.values second change.assigned with
  | error failure =>
      exact .inl ⟨failure, rfl, rfl⟩
  | ok values =>
      refine .inr ⟨_, _, rfl, rfl, ?_, ?_⟩
      · cases change.position with
        | none =>
            exact scopes.context.depth
        | some position =>
            rfl
      · exact
          (scopes.context.keys.same.insertAll values).eraseAll
            change.removed

/-- A change that keeps chains fit for both walks respects the difference. -/
theorem Change.respects_of_ignoresTracking
    {change : Change}
    (ignores : change.ignoresTracking = true)
    (keeps : change.Keeps (Context.IsIterable settings))
    (otherKeeps : change.Keeps (Context.IsIterable other)) :
    change.Respects (.untracked settings other handlers) := by
  intro first second scopes
  rcases Change.apply_cases_of_ignoresTracking scopes ignores with
    ⟨failure, applied, otherApplied⟩ |
      ⟨changed, another, applied, otherApplied, sameDepth, same⟩
  · rw [applied, otherApplied]
    exact .error trivial
  · rw [applied, otherApplied]
    have keys := scopes.context.keys
    exact .ok
      { depth := sameDepth
        keys :=
          { same := same
            iterable := keeps _ _ applied keys.iterable
            otherIterable :=
              otherKeeps _ _ otherApplied keys.otherIterable } }

/-- So does a start that gives chains fit for both walks. -/
theorem Start.respects_of_ignoresTracking
    {start : Start}
    (ignores : start.ignoresTracking = true)
    (keeps : start.KeepsIterable settings)
    (otherKeeps : start.KeepsIterable other) :
    start.Respects (.untracked settings other handlers) := by
  intro first second scopes
  have keys := scopes.context.keys
  cases start with
  | fresh given =>
      exact .ok
        (.refl (keeps first _ rfl keys.iterable)
          (otherKeeps second _ rfl keys.otherIterable))
  | inherited change =>
      rcases Change.apply_cases_of_ignoresTracking scopes ignores with
        ⟨failure, applied, otherApplied⟩ |
          ⟨changed, another, applied, otherApplied, _, same⟩
      · simp only [Start.keys, applied, otherApplied]
        exact .error trivial
      · have given :
            (Start.inherited change).keys first = .ok changed.keys := by
          rw [Start.keys, applied]
          rfl
        have otherGiven :
            (Start.inherited change).keys second = .ok another.keys := by
          rw [Start.keys, otherApplied]
          rfl
        rw [given, otherGiven]
        exact .ok
          { same := same
            iterable := keeps _ _ given keys.iterable
            otherIterable :=
              otherKeeps _ _ otherGiven keys.otherIterable }

/-- An expression that ignores what is tracked respects the difference. -/
theorem Expression.respects_of_ignoresTracking
    {expression : Expression}
    (ignores : expression.ignoresTracking = true) :
    expression.Respects (.untracked settings other handlers) :=
  fun _ _ scopes =>
    Likeness.outcomes_untracked
      (Expression.eval_eq_of_ignoresTracking scopes expression ignores)

/-- So does an action that keeps chains fit for both walks, and it may call all services. -/
theorem Action.respects_of_ignoresTracking
    (action : Action)
    (suits :
      action.ignoresTracking = true ∧
        action.KeepsIterable settings ∧ action.KeepsIterable other) :
    action.Respects (.untracked settings other handlers)
      fun _ => True := by
  obtain ⟨ignores, keeps, otherKeeps⟩ := suits
  have respects :
      ∀ change,
        action.change? = some change →
        change.ignoresTracking = true →
        change.Respects (.untracked settings other handlers) :=
    fun change isChange changeIgnores =>
      Change.respects_of_ignoresTracking changeIgnores
        (keeps.change change isChange) (otherKeeps.change change isChange)
  cases action with
  | deliver value | deliverAll value =>
      exact Expression.respects_of_ignoresTracking ignores
  | log value =>
      intro first second scopes
      apply (Expression.respects_of_ignoresTracking ignores first second
        scopes).mono
      rintro logged _ rfl
      rfl
  | fail wording =>
      trivial
  | generic subject change | structural subject change
  | visit subject change | rebuild subject change =>
      obtain ⟨subjectIgnores, changeIgnores⟩ :=
        Bool.and_eq_true_iff.mp ignores
      exact
        ⟨trivial, Expression.respects_of_ignoresTracking subjectIgnores,
          respects change rfl changeIgnores⟩
  | child place index change =>
      exact respects change rfl ignores
  | visitUnder subject parent index change =>
      obtain ⟨bothIgnore, changeIgnores⟩ := Bool.and_eq_true_iff.mp ignores
      obtain ⟨subjectIgnores, parentIgnores⟩ :=
        Bool.and_eq_true_iff.mp bothIgnore
      exact
        ⟨Expression.respects_of_ignoresTracking subjectIgnores,
          Expression.respects_of_ignoresTracking parentIgnores,
          respects change rfl changeIgnores⟩
  | restart tree start =>
      obtain ⟨treeIgnores, startIgnores⟩ := Bool.and_eq_true_iff.mp ignores
      exact
        ⟨trivial, Expression.respects_of_ignoresTracking treeIgnores,
          Start.respects_of_ignoresTracking startIgnores
            (keeps.start start rfl) (otherKeeps.start start rfl)⟩
  | choose condition consequence alternative =>
      exact fun _ _ scopes =>
        Likeness.outcomes_untracked
          (Condition.eval_eq_of_ignoresTracking scopes ignores)
  | rescue body handling =>
      exact fun _ never => never

end Ignores

/-- What is kept under the keys of chains when going down is no difference. -/
theorem Fields.GoWith.extendAll
    {settings other : Settings}
    {keys others : Fields Value}
    (alike : keys.GoWith settings other others)
    (parent : Node) :
    ∃ extended otherExtended,
      Chain.extendAll settings parent keys = .ok extended ∧
        Chain.extendAll other parent others = .ok otherExtended ∧
        extended.GoWith settings other otherExtended := by
  obtain ⟨extended, made⟩ := alike.iterable.exists_extendAll parent
  obtain ⟨otherExtended, otherMade⟩ :=
    alike.otherIterable.exists_extendAll parent
  refine ⟨extended, otherExtended, made, otherMade, ?_⟩
  exact
    { same := by
        intro key notKey
        rw [Chain.get?_extendAll_of_ne made fun _ _ =>
            Chain.key_ne notKey _,
          Chain.get?_extendAll_of_ne otherMade fun _ _ =>
            Chain.key_ne notKey _]
        exact alike.same key notKey
      iterable := Chain.areIterable_of_extendAll made
      otherIterable := Chain.areIterable_of_extendAll otherMade }

/-- The contexts of a child differ in what is tracked only, as those above it do. -/
theorem Context.GoesWith.descend
    {handlers : HandlerMap Handler}
    {settings other : Settings}
    {context another : Context}
    (contexts : context.GoesWith settings other another)
    (sameLimit : settings.maxDepth = other.maxDepth)
    (parent : Node)
    (index : Number) :
    (Likeness.untracked settings other handlers).Outcomes
      (Context.GoesWith settings other)
      (context.descend settings parent index)
      (another.descend other parent index) := by
  obtain ⟨extended, otherExtended, made, otherMade, alike⟩ :=
    contexts.keys.extendAll parent
  unfold Context.descend
  rw [contexts.depth, sameLimit, made, otherMade]
  by_cases tooDeep :
      another.position.depth.plusOne.exceeds other.maxDepth = true
  · rw [if_pos tooDeep, if_pos tooDeep]
    exact .error trivial
  · rw [if_neg tooDeep, if_neg tooDeep]
    have sameDepth := congrArg Number.plusOne contexts.depth
    exact .ok { depth := sameDepth, keys := alike }

namespace Walker

/-- The likeness of walks of a walker that keep track of different things. -/
def untracked
    (walker : Walker)
    (handlers : HandlerMap Handler)
    (tracking other : Tracking) :
    Likeness :=
  .untracked (walker.withTracking tracking).settings
    (walker.withTracking other).settings handlers

section Tracking

variable
  {walker : Walker}
  {handlers : HandlerMap Handler}
  (tracking other : Tracking)

/-- Going down keeps contexts that differ in what is tracked only. -/
theorem descendsAlike_untracked :
    (walker.withTracking tracking).DescendsAlike
      (walker.untracked handlers tracking other)
      (walker.withTracking other) := by
  rintro parent _ context otherContext index rfl contexts
  have sameLimit :
      (walker.withTracking tracking).settings.maxDepth =
        (walker.withTracking other).settings.maxDepth :=
    rfl
  exact Context.GoesWith.descend contexts sameLimit parent index

/-- New traversals start in contexts that differ in what is tracked only. -/
theorem startsAlike_untracked :
    (walker.withTracking tracking).StartsAlike
      (walker.untracked handlers tracking other)
      (walker.withTracking other) := by
  intro keys others alikeKeys
  exact { depth := rfl, keys := alikeKeys }

/-- Walkers that differ in what they keep track of accompany each other. -/
theorem accompanies_untracked
    (ignore :
      ∀ handler,
        walker.Employs handlers handler →
        handler.Throughout fun action => action.ignoresTracking = true)
    (keeps : (walker.withTracking tracking).KeepsIterable handlers)
    (otherKeeps : (walker.withTracking other).KeepsIterable handlers)
    (bound : Nat) :
    (walker.withTracking tracking).Accompanies
      (walker.untracked handlers tracking other)
      (walker.withTracking other) bound bound := by
  have alike :
      (walker.withTracking tracking).Alike
        (walker.untracked handlers tracking other)
        (fun _ => True) (walker.withTracking other) :=
    alike_of_employs Action.respects_of_ignoresTracking
      (fun handler employs =>
        (ignore handler employs).and
          ((keeps handler employs).and (otherKeeps handler employs)))
      rfl rfl rfl
  have services :=
    services_match alike (startsAlike_untracked tracking other)
      (descendsAlike_untracked tracking other) (.inr ⟨trivial, rfl⟩) bound
  exact alike.accompanies (startsAlike_untracked tracking other)
    (descendsAlike_untracked tracking other) services

end Tracking

end Walker

/-- An ending is told by a context only if an outcome is. -/
theorem Reply.ofEnding_ne_context
    {Outcome : Type}
    {reply : Outcome → Reply}
    {ending : Ending Outcome}
    {context : Context}
    (never : ∀ outcome, reply outcome ≠ .context context) :
    Reply.ofEnding reply ending ≠ .context context := by
  cases ending with
  | finished outcome =>
      exact never outcome
  | failed failure | exhausted =>
      intro isContext
      cases isContext

namespace Session

/-- A caller is given no context but by asking for one. -/
theorem reply_ne_context
    {bound : Nat}
    {session : Session}
    {step : Step}
    {context : Context}
    (asksNot :
      ∀ parent index above, step ≠ .childContext parent index above) :
    (session.step bound step).1.reply ≠ .context context := by
  cases step with
  | childContext parent index above =>
      exact (asksNot parent index above rfl).elim
  | setHandler | deleteHandler =>
      intro isContext
      cases isContext
  | start name tree keys =>
      simp only [Session.step, openTraversal]
      cases session.walker.mode with
      | visitor | transformer =>
          intro isContext
          cases isContext
  | traverse | visitNode | generic | rebuild | startNode
  | startGeneric =>
      apply Reply.ofEnding_ne_context
      intro outcome isContext
      cases isContext
  | next name =>
      simp only [Session.step]
      cases session.iterator? name with
      | none =>
          intro isContext
          cases isContext
      | some run =>
          simp only [pull]
          cases (run.advance session.table).halt with
          | atResult value rest =>
              intro isContext
              cases isContext
          | atEnd ending =>
              apply Reply.ofEnding_ne_context
              intro outcome isContext
              cases isContext
  | rest name =>
      simp only [Session.step]
      cases session.iterator? name with
      | none =>
          intro isContext
          cases isContext
      | some run =>
          apply Reply.ofEnding_ne_context
          intro outcome isContext
          cases isContext

section Answers

variable
  {settings other : Settings}
  {handlers : HandlerMap Handler}

/-- Nothing ends early on account of what is tracked, and logs do not show it. -/
theorem isStrict_untracked :
    (Likeness.untracked settings other handlers).IsStrict where
  neverStops _ never := never
  neverSpends := id
  sameEntries {first second} same := by
    rw [Event.noted_entry, Event.noted_entry]
    exact same

/-- A step from which two walks can go down is like itself, whatever they track. -/
theorem step_alike_untracked
    {step : Step}
    (iterable : step.IsIterable settings)
    (otherIterable : step.IsIterable other) :
    step.Alike (.untracked settings other handlers) step :=
  step.alike_self (fun _ => rfl)
    (fun keys given =>
      .refl (iterable.keys keys given) (otherIterable.keys keys given))
    fun context given =>
      .refl (iterable.context context given)
        (otherIterable.context context given)

/-- Answers that are no contexts are the same whatever is tracked. -/
theorem answer_eq_of_alike
    {answer another : Answer}
    (alike : answer.Alike (.untracked settings other handlers) another)
    (noContext : ∀ context, answer.reply ≠ .context context) :
    answer = another := by
  rcases answer with ⟨log, reply⟩
  rcases another with ⟨otherLog, otherReply⟩
  obtain ⟨sameLog, replies⟩ := alike
  cases sameLog
  cases replies with
  | nothing | ended | unknown | refused | exhausted =>
      rfl
  | context =>
      exact (noContext _ rfl).elim
  | result values | value values =>
      cases values
      rfl

/-- Steps that ask for no context are answered the same whatever is tracked. -/
theorem answers_eq_of_alike
    {leftWalker rightWalker : Walker}
    {bound : Nat}
    (accompanies :
      leftWalker.Accompanies (.untracked settings other handlers)
        rightWalker bound bound)
    {left right : Session}
    (alike :
      Session.Alike
        (Likeness.untracked settings other handlers).toComparison
        leftWalker rightWalker left right)
    {steps : List Step}
    (iterable :
      ∀ step ∈ steps, step.IsIterable settings ∧ step.IsIterable other)
    (askNot :
      ∀ parent index above, .childContext parent index above ∉ steps) :
    left.answers bound steps = right.answers bound steps := by
  induction steps generalizing left right with
  | nil =>
      rfl
  | cons first later inductionHypothesis =>
      obtain ⟨isIterable, isOtherIterable⟩ :=
        iterable first List.mem_cons_self
      obtain ⟨answers, afterFirst⟩ :=
        alike.step isStrict_untracked accompanies
          (step_alike_untracked isIterable isOtherIterable)
      have noContext :
          ∀ context, (left.step bound first).1.reply ≠ .context context := by
        intro context
        apply reply_ne_context
        rintro parent index above rfl
        exact askNot parent index above List.mem_cons_self
      rw [answers_cons, answers_cons, answer_eq_of_alike answers noContext,
        inductionHypothesis afterFirst]
      · exact fun step member =>
          iterable step (List.mem_cons_of_mem first member)
      · intro parent index above member
        exact askNot parent index above (List.mem_cons_of_mem first member)

end Answers

/-- A visitor of at most two levels that tells of every choice of a handler. -/
def twoDeep : Walker where
  mode := .visitor
  settings :=
    { trackParents := false
      trackNewParents := false
      trackPaths := false
      maxDepth := 2
      maxDepth_pos := Nat.two_pos
      listener := .logging none }
  fallback := none

/--
Words are logged, and groups hand a mark on, give up on what is too deep and put other
nodes where a chain is kept.
-/
def markedWords : HandlerMap Handler :=
  [(.exactly (.term .word),
      { eager := false
        actions :=
          [.log (.list [.kind, .depth, .key "mark"]), .deliver .node] }),
    (.anyOf .group,
      { eager := true
        actions :=
          [.rescue
            [.generic .node
              { assigned := [("mark", .kind), ("parents", .children)]
                removed := ["newParents"]
                position := none }]
            [.deliver .error]] })]

/-- Whatever is tracked, walks can go down from what such groups hand on. -/
theorem keepsIterable_markedWords
    (tracking : Tracking) :
    (twoDeep.withTracking tracking).KeepsIterable markedWords := by
  rintro handler (⟨type, member⟩ | replaced)
  · rcases List.mem_pair.mp member with isWord | isGroup
    · cases isWord
      exact ⟨⟨nofun, nofun⟩, ⟨nofun, nofun⟩, trivial⟩
    · cases isGroup
      refine
        ⟨⟨⟨nofun, nofun⟩, ⟨⟨?_, nofun⟩, trivial⟩, ⟨nofun, nofun⟩, trivial⟩,
          trivial⟩
      rintro _ ⟨⟩
      apply Change.keeps_isIterable
      intro chain _ expression assigned scope value evaluated
      rcases List.mem_pair.mp assigned with isMark | isParents
      · have isKey : chain.key = "mark" := congrArg Prod.fst isMark
        exact (Chain.key_ne (by decide) chain isKey).elim
      · have isChildren : expression = .children :=
          congrArg Prod.snd isParents
        subst isChildren
        cases evaluated
        rfl
  · cases replaced

/-- Steps of an iterator and a traversal, with a text where a chain is kept. -/
def pullAndTraverse : List Step :=
  [.start "words" (Query.group (Query.word "a"))
      [("newParents", .text "mine")],
    .next "words",
    .next "words",
    .traverse
      (Query.group (Query.group (Query.group (Query.group (Query.word "a")))))
      []]

end Session

end QueryWalk
