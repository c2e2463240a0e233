import QueryWalk.Proofs.RunTraces

namespace QueryWalk

/-!
# Runs in step

Two runs are in step if they make the same notes and ask the same questions, one
after the other, and either both fail in the same way or both finish. The first of
them delivers nothing on the way. Runs that are made of runs in step are in step.
-/

namespace Run

/--
The runs take the same steps, questions answered from a map, except that the second
delivers values. What it delivers and the outcomes of both agree in a certain way
if they finish.
-/
inductive InStep
    (handlers : HandlerMap Handler)
    {Left Right : Type} :
    Run Left → Run Right → (List Value → Left → Right → Prop) → Prop where
  | done
      {left : Left}
      {right : Right}
      {agree : List Value → Left → Right → Prop}
      (agrees : agree [] left right) :
      InStep handlers (.done left) (.done right) agree
  | failed
      (failure : Failure)
      {agree : List Value → Left → Right → Prop} :
      InStep handlers (.failed failure) (.failed failure) agree
  | note
      (noted : Note)
      {left : Unit → Run Left}
      {right : Unit → Run Right}
      {agree : List Value → Left → Right → Prop}
      (onward : InStep handlers (left ()) (right ()) agree) :
      InStep handlers (.note noted left) (.note noted right) agree
  | resolve
      (kind : NodeKind)
      {left : Option (Registration Handler) → Run Left}
      {right : Option (Registration Handler) → Run Right}
      {agree : List Value → Left → Right → Prop}
      (onward :
        InStep handlers (left (handlers.resolve? kind))
          (right (handlers.resolve? kind)) agree) :
      InStep handlers (.resolve kind left) (.resolve kind right) agree
  | deliver
      (value : Value)
      {left : Run Left}
      {right : Unit → Run Right}
      {agree : List Value → Left → Right → Prop}
      (onward :
        InStep handlers left (right ()) fun values =>
          agree (value :: values)) :
      InStep handlers left (.deliver value right) agree

namespace InStep

variable
  {handlers : HandlerMap Handler}
  {Left Right LeftNext RightNext : Type}
  {left : Run Left}
  {right : Run Right}
  {agree : List Value → Left → Right → Prop}

/-- Runs in step may be said to agree in less. -/
theorem mono
    {weaker : List Value → Left → Right → Prop}
    (inStep : left.InStep handlers right agree)
    (onAgree :
      ∀ values leftOutcome rightOutcome,
        agree values leftOutcome rightOutcome →
        weaker values leftOutcome rightOutcome) :
    left.InStep handlers right weaker := by
  induction inStep generalizing weaker with
  | done agrees =>
      exact .done (onAgree [] _ _ agrees)
  | failed failure =>
      exact .failed failure
  | note noted _ inductionHypothesis =>
      exact .note noted (inductionHypothesis onAgree)
  | resolve kind _ inductionHypothesis =>
      exact .resolve kind (inductionHypothesis onAgree)
  | deliver value _ inductionHypothesis =>
      exact .deliver value
        (inductionHypothesis fun values => onAgree (value :: values))

/-- Runs in step go on in step. -/
theorem bind
    {nextLeft : Left → Run LeftNext}
    {nextRight : Right → Run RightNext}
    {further : List Value → LeftNext → RightNext → Prop}
    (inStep : left.InStep handlers right agree)
    (onward :
      ∀ values leftOutcome rightOutcome,
        agree values leftOutcome rightOutcome →
        (nextLeft leftOutcome).InStep handlers (nextRight rightOutcome)
          fun later => further (values ++ later)) :
    (left.bind nextLeft).InStep handlers (right.bind nextRight) further := by
  induction inStep generalizing further with
  | done agrees =>
      exact onward [] _ _ agrees
  | failed failure =>
      exact .failed failure
  | note noted _ inductionHypothesis =>
      exact .note noted (inductionHypothesis onward)
  | resolve kind _ inductionHypothesis =>
      exact .resolve kind (inductionHypothesis onward)
  | deliver value _ inductionHypothesis =>
      exact .deliver value
        (inductionHypothesis fun values => onward (value :: values))

/-- The second run may go on alone. -/
theorem bindRight
    {nextRight : Right → Run RightNext}
    {further : List Value → Left → RightNext → Prop}
    (inStep : left.InStep handlers right agree)
    (onward :
      ∀ values leftOutcome rightOutcome,
        agree values leftOutcome rightOutcome →
        (Run.done leftOutcome).InStep handlers (nextRight rightOutcome)
          fun later => further (values ++ later)) :
    left.InStep handlers (right.bind nextRight) further := by
  rw [← bind_done left]
  exact inStep.bind onward

/-- The same outcome that may be missing leads to runs in step. -/
theorem ofExcept_bind
    {Outcome : Type}
    {outcome : Except Failure Outcome}
    {nextLeft : Outcome → Run LeftNext}
    {nextRight : Outcome → Run RightNext}
    {further : List Value → LeftNext → RightNext → Prop}
    (onward :
      ∀ value,
        outcome = .ok value →
        (nextLeft value).InStep handlers (nextRight value) further) :
    ((ofExcept outcome).bind nextLeft).InStep handlers
      ((ofExcept outcome).bind nextRight) further := by
  cases outcome with
  | ok value =>
      exact onward value rfl
  | error failure =>
      exact .failed failure

/-- Delivering values to the end takes no steps otherwise. -/
theorem deliverAll
    {leftOutcome : Left}
    {values : List Value}
    {agree : List Value → Left → Unit → Prop}
    (agrees : agree values leftOutcome ()) :
    (Run.done leftOutcome).InStep handlers (deliverAll values) agree := by
  induction values generalizing agree with
  | nil =>
      exact .done agrees
  | cons value rest inductionHypothesis =>
      exact .deliver value (inductionHypothesis agrees)

/-- Failures of runs in step are caught in step. -/
theorem attempt
    {further :
      List Value → Except Failure Left → Except Failure Right → Prop}
    (inStep : left.InStep handlers right agree)
    (onOutcome :
      ∀ values leftOutcome rightOutcome,
        agree values leftOutcome rightOutcome →
        further values (.ok leftOutcome) (.ok rightOutcome))
    (onFailure :
      ∀ values failure, further values (.error failure) (.error failure)) :
    left.attempt.InStep handlers right.attempt further := by
  induction inStep generalizing further with
  | done agrees =>
      exact .done (onOutcome [] _ _ agrees)
  | failed failure =>
      exact .done (onFailure [] failure)
  | note noted _ inductionHypothesis =>
      exact .note noted (inductionHypothesis onOutcome onFailure)
  | resolve kind _ inductionHypothesis =>
      exact .resolve kind (inductionHypothesis onOutcome onFailure)
  | deliver value _ inductionHypothesis =>
      exact .deliver value
        (inductionHypothesis
          (fun values => onOutcome (value :: values))
          (fun values => onFailure (value :: values)))

/-- The second run may collect what it delivers. -/
theorem gatherRight
    {right : Run Unit}
    {agree : List Value → Left → Unit → Prop}
    (inStep : left.InStep handlers right agree) :
    left.InStep handlers right.gather fun values leftOutcome results =>
      values = [] ∧ agree results leftOutcome () := by
  -- The values collected before a step are carried along, the last one first.
  suffices collecting :
      ∀ (collected : List Value)
        (further : List Value → Left → List Value → Prop),
        (∀ values leftOutcome,
          agree values leftOutcome () →
          further [] leftOutcome (collected.reverse ++ values)) →
        left.InStep handlers (right.gatherOnto collected) further by
    exact collecting [] _ fun values leftOutcome agrees => ⟨rfl, agrees⟩
  induction inStep with
  | done agrees =>
      intro collected further onward
      apply InStep.done
      have delivered := onward [] _ agrees
      rw [List.append_nil] at delivered
      exact delivered
  | failed failure =>
      intro collected further _
      exact .failed failure
  | note noted _ inductionHypothesis =>
      intro collected further onward
      exact .note noted (inductionHypothesis collected further onward)
  | resolve kind _ inductionHypothesis =>
      intro collected further onward
      exact .resolve kind (inductionHypothesis collected further onward)
  | deliver value _ inductionHypothesis =>
      intro collected further onward
      apply inductionHypothesis (value :: collected)
      intro values leftOutcome agrees
      rw [List.reverse_cons, List.append_assoc]
      exact onward (value :: values) leftOutcome agrees

/-- The first run has nothing to collect. -/
theorem gatherLeft
    {left : Run Unit}
    {agree : List Value → Unit → Right → Prop}
    (inStep : left.InStep handlers right agree) :
    left.gather.InStep handlers right fun values results rightOutcome =>
      results = [] ∧ agree values () rightOutcome := by
  unfold gather
  induction inStep with
  | done agrees =>
      exact .done ⟨rfl, agrees⟩
  | failed failure =>
      exact .failed failure
  | note noted _ inductionHypothesis =>
      exact .note noted inductionHypothesis
  | resolve kind _ inductionHypothesis =>
      exact .resolve kind inductionHypothesis
  | deliver value _ inductionHypothesis =>
      exact .deliver value inductionHypothesis

/-- The second run may collect what it delivers and deliver it at its end. -/
theorem regatherRight
    {right : Run Unit}
    {agree : List Value → Left → Unit → Prop}
    (inStep : left.InStep handlers right agree) :
    left.InStep handlers (right.gather.bind Run.deliverAll) agree := by
  apply inStep.gatherRight.bindRight
  rintro values leftOutcome results ⟨rfl, agrees⟩
  exact deliverAll agrees

/-- The first run has nothing to deliver at its end. -/
theorem regatherLeft
    {left : Run Unit}
    {agree : List Value → Unit → Right → Prop}
    (inStep : left.InStep handlers right agree) :
    (left.gather.bind Run.deliverAll).InStep handlers right agree := by
  rw [← bind_done right]
  apply inStep.gatherLeft.bind
  rintro values results rightOutcome ⟨rfl, agrees⟩
  apply InStep.done
  rw [List.append_nil]
  exact agrees

/--
Runs in step have traces with the same notes. They end in the same failure, or both
finish and agree.
-/
theorem trace
    (inStep : left.InStep handlers right agree) :
    let leftTrace := left.trace handlers
    let rightTrace := right.trace handlers
    Event.notes leftTrace.events = Event.notes rightTrace.events ∧
      ((∃ failure,
          leftTrace.ending = .failed failure ∧
            rightTrace.ending = .failed failure) ∨
        ∃ leftOutcome rightOutcome,
          leftTrace.ending = .finished leftOutcome ∧
            rightTrace.ending = .finished rightOutcome ∧
            agree (Event.results rightTrace.events) leftOutcome
              rightOutcome) := by
  induction inStep with
  | done agrees =>
      exact ⟨rfl, .inr ⟨_, _, rfl, rfl, agrees⟩⟩
  | failed failure =>
      exact ⟨rfl, .inl ⟨failure, rfl, rfl⟩⟩
  | note noted _ inductionHypothesis =>
      obtain ⟨sameNotes, endings⟩ := inductionHypothesis
      exact ⟨congrArg (List.cons noted) sameNotes, endings⟩
  | resolve kind _ inductionHypothesis =>
      exact inductionHypothesis
  | deliver value _ inductionHypothesis =>
      exact inductionHypothesis

end InStep

end Run

end QueryWalk
