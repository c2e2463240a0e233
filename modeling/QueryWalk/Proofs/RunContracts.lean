import QueryWalk.Proofs.RunTraces

namespace QueryWalk

/-!
# Contracts of runs

A run keeps a contract when every note it makes, every failure it meets and every
outcome it can have are as promised. Contracts are checked step by step along a run,
its questions answered from a handler map, and they carry over to whatever the run
is part of.
-/

/-- What is promised of the notes that a run makes and of the failures it meets. -/
structure Promise where
  note : Note → Prop
  failure : Failure → Prop

namespace Run

variable {Outcome Next : Type}

/-- Every note, every failure and every outcome of a run is as promised. -/
def Ensures
    (handlers : HandlerMap Handler)
    (promise : Promise)
    (onOutcome : Outcome → Prop) :
    Run Outcome → Prop
  | .done outcome => onOutcome outcome
  | .failed failure => promise.failure failure
  | .exhausted => True
  | .note noted rest =>
      promise.note noted ∧ Ensures handlers promise onOutcome (rest ())
  | .deliver _ rest => Ensures handlers promise onOutcome (rest ())
  | .resolve kind rest =>
      Ensures handlers promise onOutcome (rest (handlers.resolve? kind))

namespace Ensures

variable
  {handlers : HandlerMap Handler}
  {promise : Promise}
  {onOutcome : Outcome → Prop}

/-- What a run promises of its outcome is known to what follows it. -/
theorem bind
    {onNext : Next → Prop}
    {run : Run Outcome}
    {next : Outcome → Run Next}
    (ensures : run.Ensures handlers promise onOutcome)
    (further :
      ∀ outcome,
        onOutcome outcome →
        (next outcome).Ensures handlers promise onNext) :
    (run.bind next).Ensures handlers promise onNext := by
  induction run with
  | done outcome =>
      exact further outcome ensures
  | failed failure =>
      exact ensures
  | exhausted =>
      trivial
  | note noted rest inductionHypothesis =>
      exact ⟨ensures.1, inductionHypothesis () ensures.2⟩
  | deliver value rest inductionHypothesis =>
      exact inductionHypothesis () ensures
  | resolve kind rest inductionHypothesis =>
      exact inductionHypothesis _ ensures

/-- The outcome that is promised is the one that the run finishes with. -/
theorem finished
    {run : Run Outcome}
    (ensures : run.Ensures handlers promise onOutcome) :
    run.Ensures handlers promise fun outcome =>
      onOutcome outcome ∧
        (run.trace handlers).ending = .finished outcome := by
  induction run with
  | done outcome =>
      exact ⟨ensures, rfl⟩
  | failed failure =>
      exact ensures
  | exhausted =>
      trivial
  | note noted rest inductionHypothesis =>
      exact ⟨ensures.1, inductionHypothesis () ensures.2⟩
  | deliver value rest inductionHypothesis =>
      exact inductionHypothesis () ensures
  | resolve kind rest inductionHypothesis =>
      exact inductionHypothesis _ ensures

/-- An outcome that may be missing is as promised, and so is what it misses for. -/
theorem ofExcept
    {outcome : Except Failure Outcome}
    (missed :
      ∀ failure, outcome = .error failure → promise.failure failure)
    (promised : ∀ value, outcome = .ok value → onOutcome value) :
    (Run.ofExcept outcome).Ensures handlers promise onOutcome := by
  cases outcome with
  | ok value =>
      exact promised value rfl
  | error failure =>
      exact missed failure rfl

/-- What follows an outcome that may be missing knows what the outcome is. -/
theorem ofExcept_bind
    {onNext : Next → Prop}
    {outcome : Except Failure Outcome}
    {next : Outcome → Run Next}
    (missed :
      ∀ failure, outcome = .error failure → promise.failure failure)
    (further :
      ∀ value,
        outcome = .ok value →
        (next value).Ensures handlers promise onNext) :
    ((Run.ofExcept outcome).bind next).Ensures handlers promise onNext := by
  have evaluates :
      (Run.ofExcept outcome).Ensures handlers promise fun value =>
        outcome = .ok value :=
    ofExcept missed fun _ same => same
  exact evaluates.bind further

/-- A run whose failure is an outcome has that outcome as it was promised. -/
theorem attempt
    {run : Run Outcome}
    (ensures : run.Ensures handlers promise onOutcome) :
    run.attempt.Ensures handlers promise fun
      | .ok outcome => onOutcome outcome
      | .error failure => promise.failure failure := by
  induction run with
  | done outcome | failed failure =>
      exact ensures
  | exhausted =>
      trivial
  | note noted rest inductionHypothesis =>
      exact ⟨ensures.1, inductionHypothesis () ensures.2⟩
  | deliver value rest inductionHypothesis =>
      exact inductionHypothesis () ensures
  | resolve kind rest inductionHypothesis =>
      exact inductionHypothesis _ ensures

/-- Collecting the results of a run keeps what is promised of its notes. -/
theorem gather
    {onOutcome : Unit → Prop}
    {run : Run Unit}
    (ensures : run.Ensures handlers promise onOutcome) :
    run.gather.Ensures handlers promise fun _ => True := by
  unfold Run.gather
  generalize [] = collected
  induction run generalizing collected with
  | failed failure =>
      exact ensures
  | done outcome | exhausted =>
      trivial
  | note noted rest inductionHypothesis =>
      exact ⟨ensures.1, inductionHypothesis () ensures.2 collected⟩
  | deliver value rest inductionHypothesis =>
      exact inductionHypothesis () ensures (value :: collected)
  | resolve kind rest inductionHypothesis =>
      exact inductionHypothesis _ ensures collected

/-- Delivering results makes no note. -/
theorem deliverAll
    (values : List Value) :
    (Run.deliverAll values).Ensures handlers promise fun _ => True := by
  induction values with
  | nil =>
      trivial
  | cons value rest inductionHypothesis =>
      exact inductionHypothesis

/-- Every note among the events of a trace is as promised. -/
theorem of_mem_trace
    {run : Run Outcome}
    (ensures : run.Ensures handlers promise onOutcome)
    {noted : Note}
    (member : .noted noted ∈ (run.trace handlers).events) :
    promise.note noted := by
  induction run with
  | done outcome | failed failure | exhausted =>
      cases member
  | note first rest inductionHypothesis =>
      rcases List.mem_cons.mp member with isFirst | inRest
      · cases isFirst
        exact ensures.1
      · exact inductionHypothesis () ensures.2 inRest
  | deliver value rest inductionHypothesis =>
      rcases List.mem_cons.mp member with isFirst | inRest
      · cases isFirst
      · exact inductionHypothesis () ensures inRest
  | resolve kind rest inductionHypothesis =>
      exact inductionHypothesis _ ensures member

/-- The ending of a trace is as promised. -/
theorem of_ending
    {run : Run Outcome}
    (ensures : run.Ensures handlers promise onOutcome) :
    match (run.trace handlers).ending with
    | .finished outcome => onOutcome outcome
    | .failed failure => promise.failure failure
    | .exhausted => True := by
  induction run with
  | done outcome | failed failure =>
      exact ensures
  | exhausted =>
      trivial
  | note noted rest inductionHypothesis =>
      exact inductionHypothesis () ensures.2
  | deliver value rest inductionHypothesis =>
      exact inductionHypothesis () ensures
  | resolve kind rest inductionHypothesis =>
      exact inductionHypothesis _ ensures

end Ensures

end Run

end QueryWalk
