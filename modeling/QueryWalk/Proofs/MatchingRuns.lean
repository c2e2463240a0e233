import Mathlib.Data.List.Forall2
import QueryWalk.Proofs.RunTraces

namespace QueryWalk

/-!
# Runs side by side

Two runs match if they take the same steps, one after the other, up to what a
comparison lets their notes and values differ in. The comparison also says how both
may break off, and how the first may do so while the second goes on. Runs that are
made of matching runs match, and their traces show it.
-/

/-- What two runs may differ in, and how they may break off. -/
structure Comparison where
  /-- The map that answers the questions of both. -/
  handlers : HandlerMap Handler
  /-- A note of the first run stands for one of the second. -/
  note : Note → Note → Prop
  /-- A value of the first run stands for one of the second. -/
  value : Value → Value → Prop
  /-- The failures in which both may end. -/
  fails : Failure → Prop
  /-- Whether both may use up their recursion. -/
  exhausts : Prop
  /-- The failures at which the first may stop, whatever the second does. -/
  stops : Failure → Prop
  /-- Whether the first may use up its recursion, whatever the second does. -/
  spends : Prop

/-- Which outcomes of two runs go together. -/
structure Pairing (Left Right : Type) where
  agree : Left → Right → Prop
  /-- Outcomes with which the first run ends early, whatever the second does. -/
  early : Left → Prop

namespace Pairing

variable {Left Right : Type}

/-- Outcomes go together if they agree, and neither run ends early. -/
def only (agree : Left → Right → Prop) : Pairing Left Right where
  agree := agree
  early _ := False

/-- Both runs finish. -/
def finished : Pairing Unit Unit :=
  only fun _ _ => True

/-- Outcomes that may be missing go together, or the failures they miss for. -/
def attempted
    (comparison : Comparison)
    (pairing : Pairing Left Right) :
    Pairing (Except Failure Left) (Except Failure Right) where
  agree
    | .ok left, .ok right => pairing.agree left right
    | .error failure, .error other =>
        comparison.fails failure ∧ other = failure
    | _, _ => False
  early
    | .ok left => pairing.early left
    | .error failure => comparison.stops failure

end Pairing

namespace Run

/--
The runs take matching steps, questions answered from a map, until their outcomes go
together or they break off as the comparison lets them.
-/
inductive Matches
    (comparison : Comparison)
    {Left Right : Type}
    (pairing : Pairing Left Right) :
    Run Left → Run Right → Prop where
  | done
      {left : Left}
      {right : Right}
      (agrees : pairing.agree left right) :
      Matches comparison pairing (.done left) (.done right)
  | early
      {left : Left}
      (ends : pairing.early left)
      (run : Run Right) :
      Matches comparison pairing (.done left) run
  | failed
      {failure : Failure}
      (may : comparison.fails failure) :
      Matches comparison pairing (.failed failure) (.failed failure)
  | stopped
      {failure : Failure}
      (may : comparison.stops failure)
      (run : Run Right) :
      Matches comparison pairing (.failed failure) run
  | exhausted
      (may : comparison.exhausts) :
      Matches comparison pairing .exhausted .exhausted
  | spent
      (may : comparison.spends)
      (run : Run Right) :
      Matches comparison pairing .exhausted run
  | note
      {first second : Note}
      {left : Unit → Run Left}
      {right : Unit → Run Right}
      (alike : comparison.note first second)
      (onward : Matches comparison pairing (left ()) (right ())) :
      Matches comparison pairing (.note first left) (.note second right)
  | deliver
      {first second : Value}
      {left : Unit → Run Left}
      {right : Unit → Run Right}
      (alike : comparison.value first second)
      (onward : Matches comparison pairing (left ()) (right ())) :
      Matches comparison pairing
        (.deliver first left) (.deliver second right)
  | resolve
      (kind : NodeKind)
      {left : Option (Registration Handler) → Run Left}
      {right : Option (Registration Handler) → Run Right}
      (onward :
        Matches comparison pairing
          (left (comparison.handlers.resolve? kind))
          (right (comparison.handlers.resolve? kind))) :
      Matches comparison pairing
        (.resolve kind left) (.resolve kind right)

namespace Matches

variable
  {comparison : Comparison}
  {Left Right LeftNext RightNext : Type}
  {left : Run Left}
  {right : Run Right}
  {pairing : Pairing Left Right}

/-- Matching runs go on as matching runs, also where the first ends early. -/
theorem bindThrough
    {nextLeft : Left → Run LeftNext}
    {nextRight : Right → Run RightNext}
    {further : Pairing LeftNext RightNext}
    (matched : left.Matches comparison pairing right)
    (onward :
      ∀ leftOutcome rightOutcome,
        pairing.agree leftOutcome rightOutcome →
        (nextLeft leftOutcome).Matches comparison further
          (nextRight rightOutcome))
    (onEarly :
      ∀ leftOutcome,
        pairing.early leftOutcome →
        ∀ run, (nextLeft leftOutcome).Matches comparison further run) :
    (left.bind nextLeft).Matches comparison further
      (right.bind nextRight) := by
  induction matched with
  | done agrees =>
      exact onward _ _ agrees
  | early ends run =>
      exact onEarly _ ends _
  | failed may =>
      exact .failed may
  | stopped may run =>
      exact .stopped may _
  | exhausted may =>
      exact .exhausted may
  | spent may run =>
      exact .spent may _
  | note alike _ inductionHypothesis =>
      exact .note alike inductionHypothesis
  | deliver alike _ inductionHypothesis =>
      exact .deliver alike inductionHypothesis
  | resolve kind _ inductionHypothesis =>
      exact .resolve kind inductionHypothesis

/-- Matching runs go on as matching runs. -/
theorem bind
    {agree : Left → Right → Prop}
    {nextLeft : Left → Run LeftNext}
    {nextRight : Right → Run RightNext}
    {further : Pairing LeftNext RightNext}
    (matched : left.Matches comparison (.only agree) right)
    (onward :
      ∀ leftOutcome rightOutcome,
        agree leftOutcome rightOutcome →
        (nextLeft leftOutcome).Matches comparison further
          (nextRight rightOutcome)) :
    (left.bind nextLeft).Matches comparison further
      (right.bind nextRight) :=
  matched.bindThrough onward fun _ never => never.elim

/-- After runs without an outcome matching runs follow. -/
theorem andThen
    {left right : Run Unit}
    {nextLeft : Run LeftNext}
    {nextRight : Run RightNext}
    {further : Pairing LeftNext RightNext}
    (matched : left.Matches comparison .finished right)
    (onward : nextLeft.Matches comparison further nextRight) :
    (left.bind fun _ => nextLeft).Matches comparison further
      (right.bind fun _ => nextRight) :=
  matched.bind fun _ _ _ => onward

/-- Failures of matching runs are caught in the same places. -/
theorem attempt
    (matched : left.Matches comparison pairing right) :
    left.attempt.Matches comparison (pairing.attempted comparison)
      right.attempt := by
  induction matched with
  | done agrees =>
      exact .done agrees
  | early ends run =>
      apply Matches.early
      exact ends
  | failed may =>
      exact .done ⟨may, rfl⟩
  | stopped may run =>
      apply Matches.early
      exact may
  | exhausted may =>
      exact .exhausted may
  | spent may run =>
      exact .spent may _
  | note alike _ inductionHypothesis =>
      exact .note alike inductionHypothesis
  | deliver alike _ inductionHypothesis =>
      exact .deliver alike inductionHypothesis
  | resolve kind _ inductionHypothesis =>
      exact .resolve kind inductionHypothesis

/-- Matching runs collect matching values. -/
theorem gather
    {left right : Run Unit}
    (matched : left.Matches comparison .finished right) :
    left.gather.Matches comparison
      (.only (List.Forall₂ comparison.value)) right.gather := by
  -- What was collected before a step is carried along, the last value first.
  suffices collecting :
      ∀ collected others : List Value,
        List.Forall₂ comparison.value collected others →
        (left.gatherOnto collected).Matches comparison
          (.only (List.Forall₂ comparison.value))
          (right.gatherOnto others) by
    exact collecting [] [] .nil
  induction matched with
  | done _ =>
      intro collected others alike
      exact .done (List.forall₂_reverse_iff.mpr alike)
  | early never _ =>
      exact never.elim
  | failed may =>
      intro _ _ _
      exact .failed may
  | stopped may run =>
      intro _ _ _
      exact .stopped may _
  | exhausted may =>
      intro _ _ _
      exact .exhausted may
  | spent may run =>
      intro _ _ _
      exact .spent may _
  | note alike _ inductionHypothesis =>
      intro collected others collectedAlike
      exact .note alike
        (inductionHypothesis collected others collectedAlike)
  | deliver alike _ inductionHypothesis =>
      intro collected others collectedAlike
      exact inductionHypothesis _ _ (.cons alike collectedAlike)
  | resolve kind _ inductionHypothesis =>
      intro collected others collectedAlike
      exact .resolve kind
        (inductionHypothesis collected others collectedAlike)

/-- Matching values are delivered in matching runs. -/
theorem deliverAll
    {values others : List Value}
    (alike : List.Forall₂ comparison.value values others) :
    (Run.deliverAll values).Matches comparison .finished
      (Run.deliverAll others) := by
  induction alike with
  | nil =>
      exact .done trivial
  | cons first _ inductionHypothesis =>
      exact .deliver first inductionHypothesis

/-- Collecting results and delivering them at the end matches. -/
theorem regather
    {left right : Run Unit}
    (matched : left.Matches comparison .finished right) :
    (left.gather.bind Run.deliverAll).Matches comparison .finished
      (right.gather.bind Run.deliverAll) :=
  matched.gather.bind fun _ _ alike => .deliverAll alike

end Matches

end Run

namespace Comparison

variable
  {comparison : Comparison}
  {Left Right LeftNext RightNext : Type}

/-- Two outcomes that may be missing go together. -/
def Outcomes
    (comparison : Comparison)
    (agree : Left → Right → Prop)
    (left : Except Failure Left)
    (right : Except Failure Right) :
    Prop :=
  (Run.ofExcept left).Matches comparison (.only agree)
    (Run.ofExcept right)

namespace Outcomes

variable
  {agree : Left → Right → Prop}
  {left : Except Failure Left}
  {right : Except Failure Right}

/-- Outcomes that are there go together if they agree. -/
theorem ok
    {left : Left}
    {right : Right}
    (agrees : agree left right) :
    comparison.Outcomes agree (.ok left) (.ok right) :=
  .done agrees

/-- Outcomes may miss for the same failure. -/
theorem error
    {failure : Failure}
    (may : comparison.fails failure) :
    comparison.Outcomes agree (.error failure) (.error failure) :=
  .failed may

/-- An outcome goes together with itself, where its failure is one for both. -/
theorem refl
    {agree : Left → Left → Prop}
    (may : ∀ failure, left = .error failure → comparison.fails failure)
    (agrees : ∀ outcome, left = .ok outcome → agree outcome outcome) :
    comparison.Outcomes agree left left := by
  cases left with
  | ok outcome =>
      exact .ok (agrees outcome rfl)
  | error failure =>
      exact .error (may failure rfl)

/-- Outcomes that go together are both there or both missing, or the first stops. -/
theorem cases
    (outcomes : comparison.Outcomes agree left right) :
    (∃ outcome other,
        left = .ok outcome ∧ right = .ok other ∧ agree outcome other) ∨
      (∃ failure,
        left = .error failure ∧ right = .error failure ∧
          comparison.fails failure) ∨
      ∃ failure, left = .error failure ∧ comparison.stops failure := by
  rcases left with failure | outcome <;>
    rcases right with otherFailure | other <;>
    cases outcomes
  case error.error.failed may =>
    exact .inr (.inl ⟨failure, rfl, rfl, may⟩)
  case error.error.stopped may | error.ok.stopped may =>
    exact .inr (.inr ⟨failure, rfl, may⟩)
  case ok.error.early never | ok.ok.early never =>
    exact never.elim
  case ok.ok.done agrees =>
    exact .inl ⟨outcome, other, rfl, rfl, agrees⟩

/-- What is computed from outcomes that go together goes together. -/
theorem bind
    {nextLeft : Left → Except Failure LeftNext}
    {nextRight : Right → Except Failure RightNext}
    {further : LeftNext → RightNext → Prop}
    (outcomes : comparison.Outcomes agree left right)
    (onward :
      ∀ leftOutcome rightOutcome,
        agree leftOutcome rightOutcome →
        comparison.Outcomes further (nextLeft leftOutcome)
          (nextRight rightOutcome)) :
    comparison.Outcomes further (left.bind nextLeft)
      (right.bind nextRight) := by
  have sameBind :
      ∀ {First Second : Type}
        (outcome : Except Failure First)
        (next : First → Except Failure Second),
        Run.ofExcept (outcome.bind next) =
          (Run.ofExcept outcome).bind fun value =>
            Run.ofExcept (next value) := by
    intro First Second outcome next
    cases outcome <;> rfl
  rw [Outcomes, sameBind, sameBind]
  exact Run.Matches.bind outcomes onward

/-- What outcomes that go together are changed to goes together. -/
theorem map
    {first : Left → LeftNext}
    {second : Right → RightNext}
    {further : LeftNext → RightNext → Prop}
    (outcomes : comparison.Outcomes agree left right)
    (changed :
      ∀ leftOutcome rightOutcome,
        agree leftOutcome rightOutcome →
        further (first leftOutcome) (second rightOutcome)) :
    comparison.Outcomes further (left.map first) (right.map second) := by
  have sameMap :
      ∀ {First Second : Type}
        (outcome : Except Failure First)
        (change : First → Second),
        outcome.map change =
          outcome.bind fun value => .ok (change value) := by
    intro First Second outcome change
    cases outcome <;> rfl
  rw [sameMap, sameMap]
  exact outcomes.bind fun _ _ agrees => .ok (changed _ _ agrees)

/-- Outcomes that go together in one way also do in a weaker one. -/
theorem mono
    {weaker : Left → Right → Prop}
    (outcomes : comparison.Outcomes agree left right)
    (implied : ∀ left right, agree left right → weaker left right) :
    comparison.Outcomes weaker left right := by
  have mapped :
      comparison.Outcomes weaker (left.map id) (right.map id) :=
    outcomes.map implied
  rw [Except.map_id, Except.map_id] at mapped
  exact mapped

end Outcomes

end Comparison

namespace Event

/-- Two events that a comparison lets stand for each other. -/
inductive Alike (comparison : Comparison) : Event → Event → Prop where
  | noted
      {first second : Note}
      (alike : comparison.note first second) :
      Alike comparison (.noted first) (.noted second)
  | delivered
      {first second : Value}
      (alike : comparison.value first second) :
      Alike comparison (.delivered first) (.delivered second)

end Event

namespace Ending

variable {Left Right : Type}

/-- Two endings that a comparison lets go together. -/
inductive Alike
    (comparison : Comparison)
    (pairing : Pairing Left Right) :
    Ending Left → Ending Right → Prop where
  | finished
      {left : Left}
      {right : Right}
      (agrees : pairing.agree left right) :
      Alike comparison pairing (.finished left) (.finished right)
  | failed
      {failure : Failure}
      (may : comparison.fails failure) :
      Alike comparison pairing (.failed failure) (.failed failure)
  | exhausted
      (may : comparison.exhausts) :
      Alike comparison pairing .exhausted .exhausted

/-- With a run that finishes go runs that finish. -/
theorem Alike.exists_of_finished
    {comparison : Comparison}
    {pairing : Pairing Left Right}
    {left : Left}
    {ending : Ending Right}
    (alike : Alike comparison pairing (.finished left) ending) :
    ∃ right, ending = .finished right ∧ pairing.agree left right := by
  cases alike with
  | finished agrees =>
      exact ⟨_, rfl, agrees⟩

/-- The endings of a first run that a comparison lets come early. -/
inductive Early
    (comparison : Comparison)
    (pairing : Pairing Left Right) :
    Ending Left → Prop where
  | finished
      {left : Left}
      (ends : pairing.early left) :
      Early comparison pairing (.finished left)
  | failed
      {failure : Failure}
      (may : comparison.stops failure) :
      Early comparison pairing (.failed failure)
  | exhausted
      (may : comparison.spends) :
      Early comparison pairing .exhausted

end Ending

namespace Run

variable
  {comparison : Comparison}
  {Left Right : Type}
  {left : Run Left}
  {right : Run Right}
  {pairing : Pairing Left Right}

/--
The traces of matching runs have matching events and endings that go together, or
the first ends early and its events match the first ones of the second.
-/
theorem Matches.trace
    (matched : left.Matches comparison pairing right) :
    let leftTrace := left.trace comparison.handlers
    let rightTrace := right.trace comparison.handlers
    (List.Forall₂ (Event.Alike comparison) leftTrace.events
          rightTrace.events ∧
        Ending.Alike comparison pairing leftTrace.ending
          rightTrace.ending) ∨
      (Ending.Early comparison pairing leftTrace.ending ∧
        ∃ before,
          before <+: rightTrace.events ∧
            List.Forall₂ (Event.Alike comparison) leftTrace.events
              before) := by
  induction matched with
  | done agrees =>
      exact .inl ⟨.nil, .finished agrees⟩
  | early ends run =>
      exact .inr ⟨.finished ends, [], List.nil_prefix, .nil⟩
  | failed may =>
      exact .inl ⟨.nil, .failed may⟩
  | stopped may run =>
      exact .inr ⟨.failed may, [], List.nil_prefix, .nil⟩
  | exhausted may =>
      exact .inl ⟨.nil, .exhausted may⟩
  | spent may run =>
      exact .inr ⟨.exhausted may, [], List.nil_prefix, .nil⟩
  | resolve kind _ inductionHypothesis =>
      exact inductionHypothesis
  | note alike _ inductionHypothesis =>
      rcases inductionHypothesis with
        ⟨events, endings⟩ | ⟨early, before, isPrefix, events⟩
      · exact .inl ⟨.cons (.noted alike) events, endings⟩
      · exact .inr
          ⟨early, _ :: before, List.cons_prefix_cons.mpr ⟨rfl, isPrefix⟩,
            .cons (.noted alike) events⟩
  | deliver alike _ inductionHypothesis =>
      rcases inductionHypothesis with
        ⟨events, endings⟩ | ⟨early, before, isPrefix, events⟩
      · exact .inl ⟨.cons (.delivered alike) events, endings⟩
      · exact .inr
          ⟨early, _ :: before, List.cons_prefix_cons.mpr ⟨rfl, isPrefix⟩,
            .cons (.delivered alike) events⟩

end Run

end QueryWalk
