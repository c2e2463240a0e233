import QueryWalk.Run

namespace QueryWalk

/-!
# Histories of runs

Running a run answers its questions from a handler table and writes down what
happens. A run can be taken to its end, or only as far as its next result, and
then the rest of it is kept to be run later.
-/

/-- Something that happened in a run. -/
inductive Event where
  | noted (note : Note)
  | delivered (value : Value)

namespace Event

/-- The log entry of an event, if it has one. -/
def entry? : Event → Option LogEntry
  | .noted (.entry entry) => some entry
  | .noted (.entered ..) | .delivered _ => none

/-- The result that an event delivers, if it does. -/
def result? : Event → Option Value
  | .delivered value => some value
  | .noted _ => none

/-- The log entries among some events. -/
def log (events : List Event) : List LogEntry :=
  events.filterMap entry?

/-- The results among some events. -/
def results (events : List Event) : List Value :=
  events.filterMap result?

@[simp] theorem log_append
    (first second : List Event) :
    log (first ++ second) = log first ++ log second :=
  List.filterMap_append

@[simp] theorem results_append
    (first second : List Event) :
    results (first ++ second) = results first ++ results second :=
  List.filterMap_append

end Event

/-- How a run ended. -/
inductive Ending (Outcome : Type) where
  | finished (outcome : Outcome)
  | failed (failure : Failure)
  | exhausted

/-- Where running a run stopped. -/
inductive Stop where
  | atResult (value : Value) (rest : Run Unit)
  | atEnd (ending : Ending Unit)

/-- What happened until a run stopped, and the handler table after it. -/
structure History (Halt : Type) where
  events : List Event
  halt : Halt
  table : HandlerTable Handler

namespace History

variable {Halt : Type}

/-- The log entries of a history. -/
def log (history : History Halt) : List LogEntry :=
  Event.log history.events

/-- The results of a history. -/
def results (history : History Halt) : List Value :=
  Event.results history.events

end History

namespace Run

variable {Outcome : Type}

/-- Take a run to its end, after some events, the last of them first. -/
def completeAfter
    (table : HandlerTable Handler)
    (events : List Event) :
    Run Outcome → History (Ending Outcome)
  | .done outcome =>
      { events := events.reverse
        halt := .finished outcome
        table := table }
  | .failed failure =>
      { events := events.reverse
        halt := .failed failure
        table := table }
  | .exhausted =>
      { events := events.reverse
        halt := .exhausted
        table := table }
  | .note noted rest =>
      completeAfter table (.noted noted :: events) (rest ())
  | .deliver value rest =>
      completeAfter table (.delivered value :: events) (rest ())
  | .resolve kind rest =>
      completeAfter (table.resolve kind).2 events
        (rest (table.resolve kind).1)

/-- Take a run to its end. -/
def complete
    (table : HandlerTable Handler)
    (run : Run Outcome) :
    History (Ending Outcome) :=
  run.completeAfter table []

/-- Earlier events stay before those of a run and change nothing else. -/
theorem completeAfter_eq
    (table : HandlerTable Handler)
    (events : List Event)
    (run : Run Outcome) :
    run.completeAfter table events =
      { run.complete table with
        events := events.reverse ++ (run.complete table).events } := by
  induction run generalizing table events with
  | done outcome | failed failure | exhausted =>
      simp [complete, completeAfter]
  | note noted rest inductionHypothesis =>
      simp only [complete, completeAfter]
      rw [inductionHypothesis () table (.noted noted :: events),
        inductionHypothesis () table [.noted noted]]
      simp
  | deliver value rest inductionHypothesis =>
      simp only [complete, completeAfter]
      rw [inductionHypothesis () table (.delivered value :: events),
        inductionHypothesis () table [.delivered value]]
      simp
  | resolve kind rest inductionHypothesis =>
      simp only [complete, completeAfter]
      rw [inductionHypothesis _ (table.resolve kind).2 events]
      rfl

/-- A run that finishes hands its outcome and table on to what follows. -/
theorem complete_bind
    {Next : Type}
    (table : HandlerTable Handler)
    (run : Run Outcome)
    (next : Outcome → Run Next) :
    (run.bind next).complete table =
      match (run.complete table).halt with
      | .finished outcome =>
          (next outcome).completeAfter
            (run.complete table).table
            (run.complete table).events.reverse
      | .failed failure =>
          { run.complete table with halt := .failed failure }
      | .exhausted =>
          { run.complete table with halt := .exhausted } := by
  induction run generalizing table with
  | done outcome =>
      rfl
  | failed failure | exhausted =>
      rfl
  | note noted rest inductionHypothesis =>
      simp only [bind, complete, completeAfter]
      rw [completeAfter_eq, completeAfter_eq table _ (rest ()),
        inductionHypothesis () table]
      generalize (rest ()).complete table = history
      rcases history with ⟨events, halt, after⟩
      cases halt with
      | finished outcome =>
          simp only [completeAfter_eq after events.reverse]
          rw [completeAfter_eq]
          simp
      | failed failure | exhausted =>
          rfl
  | deliver value rest inductionHypothesis =>
      simp only [bind, complete, completeAfter]
      rw [completeAfter_eq, completeAfter_eq table _ (rest ()),
        inductionHypothesis () table]
      generalize (rest ()).complete table = history
      rcases history with ⟨events, halt, after⟩
      cases halt with
      | finished outcome =>
          simp only [completeAfter_eq after events.reverse]
          rw [completeAfter_eq]
          simp
      | failed failure | exhausted =>
          rfl
  | resolve kind rest inductionHypothesis =>
      exact inductionHypothesis _ (table.resolve kind).2

/-- Take a run to its next result, after some events, the last of them first. -/
def advanceAfter
    (table : HandlerTable Handler)
    (events : List Event) :
    Run Unit → History Stop
  | .done _ =>
      { events := events.reverse
        halt := .atEnd (.finished ())
        table := table }
  | .failed failure =>
      { events := events.reverse
        halt := .atEnd (.failed failure)
        table := table }
  | .exhausted =>
      { events := events.reverse
        halt := .atEnd .exhausted
        table := table }
  | .note noted rest =>
      advanceAfter table (.noted noted :: events) (rest ())
  | .deliver value rest =>
      { events := events.reverse
        halt := .atResult value (rest ())
        table := table }
  | .resolve kind rest =>
      advanceAfter (table.resolve kind).2 events
        (rest (table.resolve kind).1)

/-- Take a run to its next result. -/
def advance
    (table : HandlerTable Handler)
    (run : Run Unit) :
    History Stop :=
  run.advanceAfter table []

end Run

end QueryWalk
