import QueryWalk.Proofs.SelfLikeness

namespace QueryWalk

/-!
# The depth limit as a cut-off

Two walkers that differ in nothing but their depth limits do the same until the lower
limit stops the one that has it. Where no handler catches failures, nothing but that
failure comes after.
-/

namespace Number

/-- What exceeds a limit exceeds all lower ones. -/
theorem exceeds_of_le
    {limit higher : Nat}
    (lower : limit ≤ higher)
    {number : Number}
    (beyond : number.exceeds higher = true) :
    number.exceeds limit = true := by
  cases number with
  | whole value =>
      simp only [exceeds, decide_eq_true_eq] at beyond ⊢
      omega
  | fraction numerator places odd proper =>
      simp only [exceeds, decide_eq_true_eq] at beyond ⊢
      have unit : 0 ≤ Int.pow 2 places := Int.pow_nonneg (by decide)
      have scaled :
          (limit : Int) * Int.pow 2 places ≤
            higher * Int.pow 2 places :=
        Int.mul_le_mul_of_nonneg_right (Int.ofNat_le.mpr lower) unit
      exact Int.lt_of_le_of_lt scaled beyond
  | negativeZero | notANumber =>
      cases beyond
  | infinity negative =>
      exact beyond

end Number

namespace Settings

/-- Settings with another depth limit. -/
def withLimit
    (settings : Settings) :
    { limit : Nat // 0 < limit } → Settings
  | ⟨limit, positive⟩ =>
      { settings with
        maxDepth := limit
        maxDepth_pos := positive }

end Settings

namespace Walker

/-- A walker with another depth limit. -/
def withLimit
    (walker : Walker)
    (limit : { limit : Nat // 0 < limit }) :
    Walker :=
  { walker with settings := walker.settings.withLimit limit }

end Walker

namespace Services

/-- Do what a call says, with nothing as the outcome of a visit. -/
def perform (services : Services) (call : Call) : Run Value :=
  match call.service with
  | .visitNode =>
      (services.visitNode call.node call.context).bind fun _ =>
        .done .null
  | .generic =>
      (services.generic call.node call.context).bind fun _ =>
        .done .null
  | .structural =>
      (services.structural call.node call.context).bind fun _ =>
        .done .null
  | .rebuild =>
      (services.rebuild call.node call.context).bind fun rebuilt =>
        .done (.node rebuilt)
  | .restart =>
      services.restart call.node call.context.keys

end Services

/--
One trace is another, or it ends in a failure for being too deep and what happened in it
happens first in the other.
-/
def Trace.IsCutOff
    {Outcome : Type}
    (limit : Nat)
    (cut whole : Trace Outcome) :
    Prop :=
  cut = whole ∨
    (cut.ending = .failed (.traversalDepth (.ofNat limit)) ∧
      cut.events <+: whole.events)

namespace Sameness

variable
  {handlers : HandlerMap Handler}
  {stops : Failure → Prop}
  {spends : Prop}
  {left right : Services}

/-- Where all services match, every call does the same. -/
theorem perform_matches
    (services :
      left.Match (anywhere handlers stops spends).likeness
        (fun _ => True) right)
    (call : Call) :
    (left.perform call).Matches
      (anywhere handlers stops spends).likeness.toComparison
      (.only (· = ·)) (right.perform call) := by
  rcases call with ⟨service, node, context⟩
  have nodes : node = node := rfl
  have contexts :
      (anywhere handlers stops spends).likeness.context context context :=
    ⟨rfl, trivial⟩
  cases service with
  | visitNode =>
      exact (services.visitNode trivial nodes contexts).andThen (.done rfl)
  | generic =>
      exact (services.generic trivial nodes contexts).andThen (.done rfl)
  | structural =>
      exact (services.structural trivial nodes contexts).andThen (.done rfl)
  | rebuild =>
      apply (services.rebuild trivial nodes contexts).bind
      rintro rebuilt _ rfl
      exact .done rfl
  | restart =>
      exact services.restart trivial nodes rfl

end Sameness

namespace Walker

variable
  {walker : Walker}
  {handlers : HandlerMap Handler}
  {limit higher : { limit : Nat // 0 < limit }}

/-- A call that does not run out of recursion does the same with more of it. -/
theorem trace_perform_of_le
    {bound otherBound : Nat}
    (more : bound ≤ otherBound)
    (call : Call)
    (ends :
      (((walker.services bound).perform call).trace handlers).ending ≠
        .exhausted) :
    ((walker.services bound).perform call).trace handlers =
      ((walker.services otherBound).perform call).trace handlers := by
  obtain ⟨extra, rfl⟩ := Nat.exists_eq_add_of_le more
  have accompanies :
      walker.Accompanies
        (Sameness.anywhere handlers (fun _ => False) True).likeness
        walker bound (bound + extra) :=
    walker.accompanies_self handlers (.inl trivial) bound
  rcases Sameness.trace_cases (fun _ _ same => same)
      (Sameness.perform_matches accompanies.services call) with
    ⟨same, _⟩ | ⟨⟨_, _, never⟩ | ⟨exhausted, _⟩, _⟩
  · exact same
  · exact never.elim
  · exact (ends exhausted).elim

/-- Walks with two limits whose lower one stops the first. -/
def limited
    (handlers : HandlerMap Handler)
    (limit : Nat) :
    Sameness :=
  .anywhere handlers
    (fun failure => failure = .traversalDepth (.ofNat limit)) False

/-- Descents in two walks are the same until the lower limit stops the first. -/
theorem descendsAlike_limited
    (lower : limit.1 ≤ higher.1) :
    (walker.withLimit limit).DescendsAlike
      (limited handlers limit.1).likeness (walker.withLimit higher) := by
  rintro parent _ context _ index rfl ⟨rfl, _⟩
  unfold Context.descend
  by_cases tooDeep :
      context.position.depth.plusOne.exceeds
        (walker.withLimit limit).settings.maxDepth
  · rw [if_pos tooDeep]
    exact .stopped rfl _
  · have within :
        ¬ context.position.depth.plusOne.exceeds
          (walker.withLimit higher).settings.maxDepth :=
      mt (Number.exceeds_of_le lower) tooDeep
    have sameChains :
        Chain.extendAll (walker.withLimit higher).settings parent
            context.keys =
          Chain.extendAll (walker.withLimit limit).settings parent
            context.keys :=
      rfl
    rw [if_neg tooDeep, if_neg within, sameChains]
    cases made :
        Chain.extendAll (walker.withLimit limit).settings parent
          context.keys with
    | ok extended =>
        exact .ok ⟨rfl, trivial⟩
    | error failure =>
        obtain ⟨chain, -, rfl⟩ := Chain.exists_stuck_of_extendAll made
        apply Comparison.Outcomes.error
        rintro ⟨registered, kind, ⟨⟩⟩

/-- With the same recursion all services do the same until the lower limit stops one. -/
theorem services_match_limited
    (lower : limit.1 ≤ higher.1)
    (uncaught :
      ∀ handler,
        walker.Employs handlers handler →
        handler.Throughout fun action => action.isRescue = false)
    (bound : Nat) :
    ((walker.withLimit limit).services bound).Match
      (limited handlers limit.1).likeness (fun _ => True)
      ((walker.withLimit higher).services bound) := by
  have respects :
      ∀ action : Action,
        action.isRescue = false →
        action.Respects (limited handlers limit.1).likeness
          fun _ => True := by
    intro action isNoRescue
    apply Action.respects_anywhere
    intro isRescue
    rw [isNoRescue] at isRescue
    cases isRescue
  have alike :
      (walker.withLimit limit).Alike (limited handlers limit.1).likeness
        (fun _ => True) (walker.withLimit higher) :=
    alike_of_employs respects uncaught rfl rfl rfl
  have starts :
      (walker.withLimit limit).StartsAlike
        (limited handlers limit.1).likeness (walker.withLimit higher) := by
    rintro keys _ rfl
    exact ⟨rfl, trivial⟩
  exact services_match alike starts (descendsAlike_limited lower)
    (.inr ⟨trivial, rfl⟩) bound

/-- With the same recursion the lower limit only cuts off what a call does. -/
theorem isCutOff_of_sameBound
    (lower : limit.1 ≤ higher.1)
    (uncaught :
      ∀ handler,
        walker.Employs handlers handler →
        handler.Throughout fun action => action.isRescue = false)
    (bound : Nat)
    (call : Call) :
    ((((walker.withLimit limit).services bound).perform call).trace
        handlers).IsCutOff
      limit.1
      ((((walker.withLimit higher).services bound).perform call).trace
        handlers) := by
  have matched :=
    Sameness.perform_matches (services_match_limited lower uncaught bound)
      call
  rcases Sameness.trace_cases (fun _ _ same => same) matched with
    ⟨same, _⟩ | ⟨⟨failure, failed, rfl⟩ | ⟨_, never⟩, isPrefix⟩
  · exact .inl same
  · exact .inr ⟨failed, isPrefix⟩
  · exact never.elim

/--
The depth limit is only a cut-off. Under two limits, whatever a walk without rescues
is asked to do takes the same course, with the same events in the same order and the
same ending. Or it fails under the lower limit, for being too deep, and all that
happened until then happens first under the higher limit too. What succeeds under a
limit is the same under every higher one. Both walks are compared as they end; the
second need not be known to end if it is given no less recursion.
-/
theorem limit_only_cuts_off
    (lower : limit.1 ≤ higher.1)
    (uncaught :
      ∀ handler,
        walker.Employs handlers handler →
        handler.Throughout fun action => action.isRescue = false)
    {bound otherBound : Nat}
    (call : Call) :
    let trace (limit : { limit : Nat // 0 < limit }) (bound : Nat) :=
      (((walker.withLimit limit).services bound).perform call).trace
        handlers
    (trace limit bound).ending ≠ .exhausted →
    bound ≤ otherBound ∨ (trace higher otherBound).ending ≠ .exhausted →
    (trace limit bound).IsCutOff limit.1 (trace higher otherBound) ∧
      ∀ outcome,
        (trace limit bound).ending = .finished outcome →
        trace limit bound = trace higher otherBound := by
  intro trace ends otherEnds
  have compared :
      (trace limit bound).IsCutOff limit.1 (trace higher otherBound) := by
    -- What ends does not depend on the recursion, so one bound will do for both.
    by_cases more : bound ≤ otherBound
    · have same : trace limit bound = trace limit otherBound :=
        trace_perform_of_le more call ends
      rw [same]
      exact isCutOff_of_sameBound lower uncaught otherBound call
    · have same : trace higher otherBound = trace higher bound :=
        trace_perform_of_le (Nat.le_of_not_le more) call
          (otherEnds.resolve_left more)
      rw [same]
      exact isCutOff_of_sameBound lower uncaught bound call
  refine ⟨compared, ?_⟩
  intro outcome finished
  rcases compared with same | ⟨failed, _⟩
  · exact same
  · rw [finished] at failed
    cases failed

/-- A visitor that tells of every choice of a handler. -/
def telling : Walker where
  mode := .visitor
  settings :=
    { trackParents := true
      trackNewParents := false
      trackPaths := true
      maxDepth := 1
      maxDepth_pos := Nat.one_pos
      listener := .logging none }
  fallback := none

/-- Words are results, and so are those found by a new traversal of a field. -/
def wordsInFields : HandlerMap Handler :=
  [(.exactly (.term .word),
      { eager := false
        actions := [.log .path, .deliver .node] }),
    (.exactly .searchField,
      { eager := true
        actions :=
          [.restart (.child (.ofNat 0) .node) (.fresh []), .log .kind] })]

/-- A visit of a word, and of another word two groups down in a field. -/
def visitShallowAndDeep : Call where
  service := .visitNode
  node :=
    Query.and
      [Query.word "a",
        Query.searchField "title"
          (Query.group (Query.group (Query.word "b")))]
  context := .root telling.settings []

/-- The trace of that visit under a limit. -/
def traceUnder (limit : { limit : Nat // 0 < limit }) : Trace Value :=
  (((telling.withLimit limit).services 9).perform
      visitShallowAndDeep).trace
    wordsInFields

/--
Under a limit of one only the first word is found before the walk in the field is too
deep, and all that happened until then happens first under a limit of two.
-/
theorem limit_only_cuts_off_shallowAndDeep :
    (∀ handler,
      telling.Employs wordsInFields handler →
        handler.Throughout fun action => action.isRescue = false) ∧
      (traceUnder ⟨1, Nat.one_pos⟩).ending =
        .failed (.traversalDepth (.ofNat 1)) ∧
      (traceUnder ⟨2, Nat.two_pos⟩).ending = .finished .null ∧
      Event.results (traceUnder ⟨1, Nat.one_pos⟩).events =
        [.node (Query.word "a")] ∧
      (traceUnder ⟨1, Nat.one_pos⟩).events <+:
        (traceUnder ⟨2, Nat.two_pos⟩).events := by
  have uncaught :
      ∀ handler,
        telling.Employs wordsInFields handler →
        handler.Throughout fun action => action.isRescue = false := by
    rintro handler (⟨type, member⟩ | replaced)
    · rcases List.mem_pair.mp member with isWord | isField
      · cases isWord
        exact ⟨rfl, rfl, trivial⟩
      · cases isField
        exact ⟨rfl, rfl, trivial⟩
    · cases replaced
  have tooDeep :
      (traceUnder ⟨1, Nat.one_pos⟩).ending =
        .failed (.traversalDepth (.ofNat 1)) :=
    rfl
  have succeeds :
      (traceUnder ⟨2, Nat.two_pos⟩).ending = .finished .null :=
    rfl
  have ends : (traceUnder ⟨1, Nat.one_pos⟩).ending ≠ .exhausted := by
    rw [tooDeep]
    nofun
  have compared :
      (traceUnder ⟨1, Nat.one_pos⟩).IsCutOff 1
        (traceUnder ⟨2, Nat.two_pos⟩) :=
    (limit_only_cuts_off (Nat.le_succ 1) uncaught visitShallowAndDeep ends
      (.inl (Nat.le_refl 9))).1
  refine ⟨uncaught, tooDeep, succeeds, rfl, ?_⟩
  rcases compared with same | ⟨-, isPrefix⟩
  · rw [same, succeeds] at tooDeep
    cases tooDeep
  · exact isPrefix

end Walker

end QueryWalk
