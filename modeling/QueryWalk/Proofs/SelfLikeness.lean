import QueryWalk.Proofs.EvaluationFailures
import QueryWalk.Proofs.SessionSimulation

namespace QueryWalk

/-!
# One walk beside itself

Every node and every value is like itself, and so is a context that has what is
asked of it. Handlers respect this likeness as long as their changes keep what is
asked. Matching runs then do exactly the same, and they fail for every reason but
one: no handler is handed a node it is not meant for.
-/

/-- A handler was handed a node outside the type it is registered under. -/
def Failure.IsMismatch (failure : Failure) : Prop :=
  ∃ registered kind, failure = .handlerMismatch registered kind

/-- A child's context is missing for its depth or for a chain, not for a mismatch. -/
theorem Context.not_isMismatch_of_descend
    {settings : Settings}
    {parent : Node}
    {index : Number}
    {context : Context}
    {failure : Failure}
    (missing : context.descend settings parent index = .error failure) :
    ¬ failure.IsMismatch := by
  rintro ⟨registered, kind, rfl⟩
  obtain ⟨-, ⟨⟩⟩ | ⟨chain, -, ⟨⟩⟩ := Context.failure_of_descend missing

namespace Comparison

variable {comparison : Comparison}

/-- Both runs may fail when a node is given a number of children it does not take. -/
def FailsByArity (comparison : Comparison) : Prop :=
  ∀ kind expected actual,
    comparison.fails (.nodeArity kind expected actual)

/-- What is missing for a misfit only goes together with itself. -/
theorem Outcomes.self
    {Outcome : Type}
    {outcome : Except Failure Outcome}
    (may : comparison.FailsByArity)
    (misses : MissesByMisfit outcome) :
    comparison.Outcomes (· = ·) outcome outcome := by
  apply Outcomes.refl
  · intro failure failed
    obtain ⟨kind, arity, actual, _, _, rfl⟩ :=
      (misses failure failed).exists_arity
    exact may kind (.ofNat arity) (.ofNat actual)
  · intro _ _
    rfl

end Comparison

/-- The context that a step gives, if it gives one. -/
def Step.context? : Step → Option Context
  | .childContext _ _ context | .visitNode _ context | .generic _ context
  | .rebuild _ context | .startNode _ _ context
  | .startGeneric _ _ context =>
      some context
  | .setHandler .. | .deleteHandler .. | .traverse .. | .start ..
  | .next _ | .rest _ => none

/-- The keys that a step begins a traversal with. -/
def Step.keys? : Step → Option (Fields Value)
  | .traverse _ keys | .start _ _ keys => some keys
  | _ => none

/-- A step is like itself if its node, its keys and its context are like themselves. -/
theorem Step.alike_self
    {like : Likeness}
    {step : Step}
    (nodes : ∀ node, like.node node node)
    (keys : ∀ keys, step.keys? = some keys → like.keys keys keys)
    (contexts :
      ∀ context,
        step.context? = some context →
        like.context context context) :
    step.Alike like step := by
  cases step with
  | childContext parent index context =>
      exact .childContext index (nodes parent) (contexts context rfl)
  | setHandler type handler =>
      exact .setHandler type type handler handler
  | deleteHandler type =>
      exact .deleteHandler type type
  | traverse tree given =>
      exact .traverse (nodes tree) (keys given rfl)
  | visitNode node context =>
      exact .visitNode (nodes node) (contexts context rfl)
  | generic node context =>
      exact .generic (nodes node) (contexts context rfl)
  | rebuild node context =>
      exact .rebuild (nodes node) (contexts context rfl)
  | start name tree given =>
      exact .start name (nodes tree) (keys given rfl)
  | startNode name node context =>
      exact .startNode name (nodes node) (contexts context rfl)
  | startGeneric name node context =>
      exact .startGeneric name (nodes node) (contexts context rfl)
  | next name =>
      exact .next name
  | rest name =>
      exact .rest name

namespace Action

/-- The service that an action calls at the depth of its own context. -/
def service? : Action → Option Service
  | .generic .. => some .generic
  | .structural .. => some .structural
  | .visit .. => some .visitNode
  | .rebuild .. => some .rebuild
  | .restart .. => some .restart
  | _ => none

/-- The change of the context that an action makes for its call. -/
def change? : Action → Option Change
  | .generic _ change | .structural _ change | .child _ _ change
  | .visit _ change | .visitUnder _ _ _ change | .rebuild _ change =>
      some change
  | _ => none

/-- Whether an action catches failures. -/
def isRescue : Action → Bool
  | .rescue .. => true
  | _ => false

end Action

/-- A change of the context of any scope keeps what is asked of contexts. -/
def Change.Keeps (change : Change) (holds : Context → Prop) : Prop :=
  ∀ (scope : Scope) (changed : Context),
    change.apply scope = .ok changed →
    holds scope.context →
    holds changed

/-- In what one of two walks that do the same may differ from the other. -/
structure Sameness where
  /-- The map that answers the questions of both. -/
  handlers : HandlerMap Handler
  /-- What is asked of contexts. -/
  holds : Context → Prop
  /-- Whether both may use up their recursion. -/
  exhausts : Prop
  /-- The failures at which the first may stop, whatever the second does. -/
  stops : Failure → Prop
  /-- Whether the first may use up its recursion, whatever the second does. -/
  spends : Prop

namespace Sameness

/-- Everything is like itself, contexts only if they have what is asked of them. -/
def likeness (sameness : Sameness) : Likeness where
  handlers := sameness.handlers
  note := (· = ·)
  value := (· = ·)
  fails failure := ¬ failure.IsMismatch
  exhausts := sameness.exhausts
  stops := sameness.stops
  spends := sameness.spends
  node := (· = ·)
  context first second := first = second ∧ sameness.holds first
  keys := (· = ·)
  kind_eq := by
    rintro node _ rfl
    rfl
  attributes_eq := by
    rintro node _ rfl
    rfl
  children := by
    rintro node _ rfl
    exact List.forall₂_same.mpr fun _ _ => rfl
  withChildren := by
    rintro node _ given others rfl alike
    rw [List.forall₂_eq_eq_eq] at alike
    subst alike
    apply Comparison.Outcomes.self
    · rintro kind expected actual ⟨registered, other, ⟨⟩⟩
    · exact fun _ failed => ⟨node, given, failed⟩
  null := rfl
  ofNode := by
    rintro node _ rfl
    rfl
  ofList := by
    intro items others alike
    rw [List.forall₂_eq_eq_eq] at alike
    rw [alike]
  asNode := by
    rintro value _ rfl
    rfl
  items := by
    rintro value _ rfl
    exact List.forall₂_same.mpr fun _ _ => rfl
  entry _ := rfl
  entered := by
    rintro node _ context _ type rfl ⟨rfl, _⟩
    rfl
  handlerFails := by
    rintro wording ⟨registered, kind, ⟨⟩⟩
  arityFails := by
    rintro count ⟨registered, kind, ⟨⟩⟩
  rebuildFails := by
    rintro ⟨registered, kind, ⟨⟩⟩

variable {sameness : Sameness}

/-- A number of children that a node does not take may always make both fail. -/
theorem failsByArity
    (sameness : Sameness) :
    sameness.likeness.FailsByArity := by
  rintro kind expected actual ⟨registered, other, ⟨⟩⟩

/-- Alike scopes are one scope. -/
theorem eq_of_alike
    {first second : Scope}
    (scopes : first.Alike sameness.likeness second) :
    first = second ∧ sameness.holds first.context := by
  rcases first with ⟨node, context, rebuilt, error⟩
  rcases second with ⟨other, otherContext, otherRebuilt, otherError⟩
  obtain ⟨rfl, ⟨rfl, holds⟩, rfl, rfl⟩ := scopes
  exact ⟨rfl, holds⟩

/-- Every expression has the same values in one scope. -/
theorem expression_respects
    (expression : Expression) :
    expression.Respects sameness.likeness := by
  intro first second scopes
  obtain ⟨rfl, _⟩ := eq_of_alike scopes
  exact .self sameness.failsByArity (expression.missesByMisfit first)

/-- A change respects sameness if it keeps what is asked of contexts. -/
theorem change_respects
    {change : Change}
    (keeps : change.Keeps sameness.holds) :
    change.Respects sameness.likeness := by
  intro first second scopes
  obtain ⟨rfl, holds⟩ := eq_of_alike scopes
  have same :=
    Comparison.Outcomes.self sameness.failsByArity
      (change.missesByMisfit first)
  rcases same.cases with
    ⟨changed, _, applied, _, _⟩ | ⟨failure, applied, _, may⟩ |
      ⟨failure, applied, may⟩
  · rw [applied]
    exact .ok ⟨rfl, keeps first changed applied holds⟩
  · rw [applied]
    exact .error may
  · rw [applied]
    exact .stopped may _

/-- Every start gives the same keys in one scope. -/
theorem start_respects
    (start : Start) :
    start.Respects sameness.likeness := by
  intro first second scopes
  obtain ⟨rfl, _⟩ := eq_of_alike scopes
  exact .self sameness.failsByArity (start.missesByMisfit first)

/--
An action respects sameness if its change keeps what is asked of contexts, the
service it calls is allowed, and it does not catch what is to stop the first walk.
-/
theorem action_respects
    {allowed : Service → Prop}
    {action : Action}
    (keeps :
      ∀ change,
        action.change? = some change →
        change.Keeps sameness.holds)
    (calls :
      ∀ service,
        action.service? = some service →
        allowed service)
    (catches :
      action.isRescue = true →
      ∀ failure, ¬ sameness.stops failure) :
    action.Respects sameness.likeness allowed := by
  cases action with
  | deliver value | deliverAll value =>
      exact expression_respects value
  | log value =>
      intro first second scopes
      apply (expression_respects value first second scopes).mono
      rintro logged _ rfl
      rfl
  | fail wording =>
      trivial
  | generic subject change | structural subject change
  | visit subject change | rebuild subject change =>
      exact
        ⟨calls _ rfl, expression_respects subject,
          change_respects (keeps change rfl)⟩
  | child place index change =>
      exact change_respects (keeps change rfl)
  | visitUnder subject parent index change =>
      exact
        ⟨expression_respects subject, expression_respects parent,
          change_respects (keeps change rfl)⟩
  | restart tree start =>
      exact
        ⟨calls _ rfl, expression_respects tree, start_respects start⟩
  | choose condition consequence alternative =>
      intro first second scopes
      obtain ⟨rfl, _⟩ := eq_of_alike scopes
      exact .self sameness.failsByArity (condition.missesByMisfit first)
  | rescue body handling =>
      exact catches rfl

/-- Contexts of children are the same, as long as they keep what is asked. -/
theorem descendsAlike
    {walker : Walker}
    (keeps :
      ∀ {parent index context below},
        context.descend walker.settings parent index = .ok below →
        sameness.holds context →
        sameness.holds below) :
    walker.DescendsAlike sameness.likeness walker := by
  rintro parent _ context _ index rfl ⟨rfl, holds⟩
  apply Comparison.Outcomes.refl
  · exact fun _ => Context.not_isMismatch_of_descend
  · intro below descended
    exact ⟨rfl, keeps descended holds⟩

/-- New traversals start in the same contexts, if roots have what is asked. -/
theorem startsAlike
    {walker : Walker}
    (root : ∀ keys, sameness.holds (.root walker.settings keys)) :
    walker.StartsAlike sameness.likeness walker := by
  rintro keys _ rfl
  exact ⟨rfl, root keys⟩

/--
Two matching runs have the same trace, which ends in nothing that may not be. Or the
first ends early, and what happened in it until then happens in the second.
-/
theorem trace_cases
    {Outcome : Type}
    {agree : Outcome → Outcome → Prop}
    (isEqual : ∀ outcome other, agree outcome other → outcome = other)
    {left right : Run Outcome}
    (matched :
      left.Matches sameness.likeness.toComparison (.only agree) right) :
    let leftTrace := left.trace sameness.handlers
    let rightTrace := right.trace sameness.handlers
    (leftTrace = rightTrace ∧
        (∀ failure,
          leftTrace.ending = .failed failure →
          ¬ failure.IsMismatch) ∧
        (leftTrace.ending = .exhausted → sameness.exhausts)) ∨
      (((∃ failure,
            leftTrace.ending = .failed failure ∧
              sameness.stops failure) ∨
          (leftTrace.ending = .exhausted ∧ sameness.spends)) ∧
        leftTrace.events <+: rightTrace.events) := by
  intro leftTrace rightTrace
  have sameEvents :
      ∀ {events others : List Event},
        List.Forall₂ (Event.Alike sameness.likeness.toComparison) events
          others →
        events = others := by
    intro events others alike
    rw [← List.forall₂_eq_eq_eq]
    apply alike.imp
    rintro _ _ (⟨⟨⟩⟩ | ⟨⟨⟩⟩) <;> rfl
  have trace := matched.trace
  change
    (List.Forall₂ _ leftTrace.events rightTrace.events ∧
        Ending.Alike _ _ leftTrace.ending rightTrace.ending) ∨
      (Ending.Early _ _ leftTrace.ending ∧
        ∃ before, before <+: rightTrace.events ∧
          List.Forall₂ _ leftTrace.events before) at trace
  rcases leftTrace with ⟨events, ending⟩
  rcases rightTrace with ⟨others, otherEnding⟩
  rcases trace with ⟨alike, endings⟩ | ⟨early, before, isPrefix, alike⟩
  · cases sameEvents alike
    refine .inl ?_
    cases endings with
    | finished agrees =>
        cases isEqual _ _ agrees
        exact ⟨rfl, fun _ failed => (nomatch failed), nofun⟩
    | failed may =>
        refine ⟨rfl, ?_, nofun⟩
        rintro failure ⟨⟩
        exact may
    | exhausted may =>
        exact
          ⟨rfl, fun _ failed => (nomatch failed), fun _ => may⟩
  · cases sameEvents alike
    refine .inr ⟨?_, isPrefix⟩
    cases early with
    | finished never =>
        exact never.elim
    | failed may =>
        exact .inl ⟨_, rfl, may⟩
    | exhausted may =>
        exact .inr ⟨rfl, may⟩

/-- An answer is no refusal for a mismatch, and tells the end of recursion if it may. -/
def Permits (sameness : Sameness) (answer : Answer) : Prop :=
  (∀ failure,
    answer.reply = .refused failure →
    ¬ failure.IsMismatch) ∧
  (answer.reply = .exhausted → sameness.exhausts)

/-- Alike answers are one answer, which is permitted. -/
theorem eq_of_answer_alike
    {answer other : Answer}
    (alike : answer.Alike sameness.likeness other) :
    answer = other ∧ sameness.Permits answer := by
  rcases answer with ⟨log, reply⟩
  rcases other with ⟨otherLog, otherReply⟩
  obtain ⟨sameLog, replies⟩ := alike
  cases sameLog
  cases replies with
  | nothing | ended | unknown =>
      exact ⟨rfl, fun _ refused => (nomatch refused), nofun⟩
  | result values | value values =>
      cases values
      exact ⟨rfl, fun _ refused => (nomatch refused), nofun⟩
  | context contexts =>
      cases contexts.1
      exact ⟨rfl, fun _ refused => (nomatch refused), nofun⟩
  | refused may =>
      refine ⟨rfl, ?_, nofun⟩
      rintro failure ⟨⟩
      exact may
  | exhausted may =>
      exact ⟨rfl, fun _ refused => (nomatch refused), fun _ => may⟩

/-- The same, of several answers. -/
theorem eq_of_answers_alike
    {answers others : List Answer}
    (alike : List.Forall₂ (Answer.Alike sameness.likeness) answers others) :
    answers = others ∧ ∀ answer ∈ answers, sameness.Permits answer := by
  induction alike with
  | nil =>
      exact ⟨rfl, List.forall_mem_nil _⟩
  | cons first _ inductionHypothesis =>
      obtain ⟨rfl, isFirst⟩ := eq_of_answer_alike first
      obtain ⟨rfl, isRest⟩ := inductionHypothesis
      exact ⟨rfl, List.forall_mem_cons.mpr ⟨isFirst, isRest⟩⟩

/--
Walkers that accompany each other give the same permitted answers to steps whose
contexts have what is asked.
-/
theorem answers_eq
    {left right : Walker}
    {bound otherBound : Nat}
    (accompanies :
      left.Accompanies sameness.likeness right bound otherBound)
    (neverStops : ∀ failure, ¬ sameness.stops failure)
    (neverSpends : ¬ sameness.spends)
    {steps : List Step}
    (given :
      ∀ step ∈ steps,
        ∀ context,
          step.context? = some context →
          sameness.holds context) :
    let answers :=
      (Session.create left sameness.handlers).answers bound steps
    answers =
        (Session.create right sameness.handlers).answers otherBound
          steps ∧
      ∀ answer ∈ answers, sameness.Permits answer := by
  have strict : sameness.likeness.IsStrict :=
    { neverStops := neverStops
      neverSpends := neverSpends
      sameEntries := by
        rintro note _ rfl
        rfl }
  have alikeSteps : List.Forall₂ (Step.Alike sameness.likeness) steps steps :=
    List.forall₂_same.mpr fun step member =>
      step.alike_self (fun _ => rfl) (fun _ _ => rfl)
        fun context isGiven => ⟨rfl, given step member context isGiven⟩
  have start := Session.Alike.create sameness.likeness.toComparison left right
  exact eq_of_answers_alike (start.answers strict accompanies alikeSteps)

end Sameness

section Anywhere

/-- What two walks that do the same may do where nothing is asked of contexts. -/
def Sameness.anywhere
    (handlers : HandlerMap Handler)
    (stops : Failure → Prop)
    (spends : Prop) :
    Sameness where
  handlers := handlers
  holds _ := True
  exhausts := True
  stops := stops
  spends := spends

variable
  {handlers : HandlerMap Handler}
  {stops : Failure → Prop}
  {spends : Prop}

/-- An action respects sameness anywhere unless it catches what stops the first walk. -/
theorem Action.respects_anywhere
    {action : Action}
    (catches :
      action.isRescue = true →
      ∀ failure, ¬ stops failure) :
    action.Respects (Sameness.anywhere handlers stops spends).likeness
      fun _ => True := by
  apply Sameness.action_respects
  · intro _ _ _ _ _ _
    trivial
  · intro _ _
    trivial
  · exact catches

namespace Walker

variable (walker : Walker) (handlers)

variable (spends) in
/-- A walker whose failures may be caught anywhere is alike to itself. -/
theorem alike_self :
    walker.Alike
      (Sameness.anywhere handlers (fun _ => False) spends).likeness
      (fun _ => True) walker where
  mode_eq := rfl
  fallback_eq := rfl
  fallback _ :=
    Action.allThroughout_of_forall
      (fun _ => Action.respects_anywhere fun _ _ never => never) _
  listener_eq := rfl
  handlers _ :=
    Action.allThroughout_of_forall
      (fun _ => Action.respects_anywhere fun _ _ never => never) _

/-- A walker accompanies itself, even with less recursion if that may be used up. -/
theorem accompanies_self
    {extra : Nat}
    (ends : spends ∨ extra = 0)
    (bound : Nat) :
    walker.Accompanies
      (Sameness.anywhere handlers (fun _ => False) spends).likeness
      walker bound (bound + extra) := by
  have alike := walker.alike_self handlers spends
  have starts :
      walker.StartsAlike
        (Sameness.anywhere handlers (fun _ => False) spends).likeness
        walker :=
    Sameness.startsAlike fun _ => trivial
  have descends :
      walker.DescendsAlike
        (Sameness.anywhere handlers (fun _ => False) spends).likeness
        walker :=
    Sameness.descendsAlike fun _ _ => trivial
  have mayEnd : spends ∨ (True ∧ extra = 0) :=
    ends.imp_right fun none => ⟨trivial, none⟩
  exact alike.accompanies starts descends
    (services_match alike starts descends mayEnd bound)

end Walker

end Anywhere

end QueryWalk
