import QueryWalk.Proofs.RunTraces

namespace QueryWalk

/-!
# What runs yield

A run yields its results and its ending. What a run is made of yields parts of
what the whole does, so the yield of a walk is computed along its definition.
Notes do not matter here.
-/

namespace Ending

variable {Outcome : Type}

/-- The ending of a run whose failure is an outcome. -/
def attempted : Ending Outcome → Ending (Except Failure Outcome)
  | .finished outcome => .finished (.ok outcome)
  | .failed failure => .finished (.error failure)
  | .exhausted => .exhausted

end Ending

namespace Run

variable {Outcome Next : Type}

/-- Catching the failure of a run changes nothing but its ending. -/
theorem trace_attempt
    (handlers : HandlerMap Handler)
    (run : Run Outcome) :
    run.attempt.trace handlers =
      { events := (run.trace handlers).events
        ending := (run.trace handlers).ending.attempted } := by
  induction run with
  | done outcome | failed failure | exhausted =>
      rfl
  | note noted rest inductionHypothesis
  | deliver value rest inductionHypothesis =>
      simp only [attempt, trace, inductionHypothesis, Trace.after]
  | resolve kind rest inductionHypothesis =>
      exact inductionHypothesis _

/-- A run delivers some values, its questions answered from a map, and ends. -/
structure Yields
    (handlers : HandlerMap Handler)
    (run : Run Outcome)
    (values : List Value)
    (ending : Ending Outcome) : Prop where
  results : Event.results (run.trace handlers).events = values
  ending : (run.trace handlers).ending = ending

namespace Yields

variable
  {handlers : HandlerMap Handler}
  {run : Run Outcome}
  {next : Outcome → Run Next}
  {values : List Value}

theorem done
    (outcome : Outcome) :
    (Run.done outcome).Yields handlers [] (.finished outcome) :=
  ⟨rfl, rfl⟩

theorem failed
    (failure : Failure) :
    (Run.failed failure : Run Outcome).Yields handlers []
      (.failed failure) :=
  ⟨rfl, rfl⟩

theorem note
    {noted : Note}
    {rest : Unit → Run Outcome}
    {ending : Ending Outcome}
    (yields : (rest ()).Yields handlers values ending) :
    (Run.note noted rest).Yields handlers values ending :=
  ⟨yields.results, yields.ending⟩

theorem deliver
    (value : Value)
    {rest : Unit → Run Outcome}
    {ending : Ending Outcome}
    (yields : (rest ()).Yields handlers values ending) :
    (Run.deliver value rest).Yields handlers (value :: values) ending :=
  ⟨congrArg (List.cons value) yields.results, yields.ending⟩

theorem resolve
    {kind : NodeKind}
    {rest : Option (Registration Handler) → Run Outcome}
    {ending : Ending Outcome}
    (yields :
      (rest (handlers.resolve? kind)).Yields handlers values ending) :
    (Run.resolve kind rest).Yields handlers values ending :=
  ⟨yields.results, yields.ending⟩

theorem delivering
    (value : Value) :
    (Run.delivering value).Yields handlers [value] (.finished ()) :=
  ⟨rfl, rfl⟩

/-- After a run that finishes comes what follows its outcome. -/
theorem bind
    {outcome : Outcome}
    {further : List Value}
    {ending : Ending Next}
    (first : run.Yields handlers values (.finished outcome))
    (second : (next outcome).Yields handlers further ending) :
    (run.bind next).Yields handlers (values ++ further) ending := by
  refine ⟨?_, ?_⟩
  · rw [trace_bind, Trace.andThen, first.ending, Event.results_append,
      first.results, second.results]
  · rw [trace_bind, Trace.andThen, first.ending]
    exact second.ending

/-- After a run that fails comes nothing. -/
theorem bind_failed
    {failure : Failure}
    (first : run.Yields handlers values (.failed failure)) :
    (run.bind next).Yields handlers values (.failed failure) := by
  refine ⟨?_, ?_⟩
  · rw [trace_bind, Trace.andThen, first.ending]
    exact first.results
  · rw [trace_bind, Trace.andThen, first.ending]

theorem bind_exhausted
    (first : run.Yields handlers values .exhausted) :
    (run.bind next).Yields handlers values .exhausted := by
  refine ⟨?_, ?_⟩
  · rw [trace_bind, Trace.andThen, first.ending]
    exact first.results
  · rw [trace_bind, Trace.andThen, first.ending]

/-- Taking a run to its end with a table shows what it yields. -/
theorem complete
    {ending : Ending Outcome}
    {table : HandlerTable Handler}
    (yields : run.Yields handlers values ending)
    (standsFor : table.StandsFor handlers) :
    (run.complete table).results = values ∧
      (run.complete table).halt = ending := by
  obtain ⟨sameEvents, sameEnding, -⟩ :=
    Run.complete_eq_trace standsFor run
  refine ⟨?_, sameEnding.trans yields.ending⟩
  rw [History.results, sameEvents]
  exact yields.results

end Yields

end Run

end QueryWalk
