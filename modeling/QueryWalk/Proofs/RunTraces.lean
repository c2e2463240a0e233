import QueryWalk.Run.History

namespace QueryWalk

/-!
# Traces of runs

A handler table remembers its answers, and it is handed on from step to step.
None of that can be seen: a table that stands for a map answers every question
as the map itself would. So a run has one trace for each map, its events and its
ending, and taking the run to its end with any table that stands for the map
shows that trace.
-/

namespace HandlerTable

variable {Handler : Type}

/-- A table stands for a map when it holds a copy of it and is sound. -/
structure StandsFor
    (table : HandlerTable Handler)
    (handlers : HandlerMap Handler) : Prop where
  copied : table.handlers = handlers
  sound : table.Sound

namespace StandsFor

/-- A fresh table stands for the map it was made from. -/
theorem ofMap
    (handlers : HandlerMap Handler) :
    (HandlerTable.ofMap handlers).StandsFor handlers where
  copied := rfl
  sound := sound_ofMap handlers

/-- A table that stands for a map answers what the map says. -/
theorem resolve_fst
    {table : HandlerTable Handler}
    {handlers : HandlerMap Handler}
    (standsFor : table.StandsFor handlers)
    (kind : NodeKind) :
    (table.resolve kind).1 = handlers.resolve? kind := by
  rw [standsFor.sound.resolve_fst, standsFor.copied]

/-- Answering does not change what a table stands for. -/
theorem resolve_snd
    {table : HandlerTable Handler}
    {handlers : HandlerMap Handler}
    (standsFor : table.StandsFor handlers)
    (kind : NodeKind) :
    (table.resolve kind).2.StandsFor handlers where
  copied := (handlers_resolve table kind).trans standsFor.copied
  sound := standsFor.sound.resolve_snd kind

end StandsFor

end HandlerTable

/-- The log entry of a note, if it is one. -/
def Note.entry? : Note → Option LogEntry
  | .entry told => some told
  | .entered .. => none

namespace Event

/-- The note of an event, if it is one. -/
def note? : Event → Option Note
  | .noted note => some note
  | .delivered _ => none

/-- The notes among some events. -/
def notes (events : List Event) : List Note :=
  events.filterMap note?

/-- An event that is a note has the entry of the note. -/
theorem noted_entry
    (note : Note) :
    entry? (noted note) = note.entry? := by
  cases note <;> rfl

/-- The log is what is told in the notes. -/
theorem log_eq_notes
    (events : List Event) :
    log events = (notes events).filterMap Note.entry? := by
  unfold log notes
  rw [List.filterMap_filterMap]
  congr 1
  funext event
  cases event with
  | noted note =>
      exact noted_entry note
  | delivered value =>
      rfl

/-- The same notes make the same log. -/
theorem log_eq_of_notes_eq
    {events others : List Event}
    (sameNotes : notes events = notes others) :
    log events = log others := by
  rw [log_eq_notes, log_eq_notes, sameNotes]

end Event

/-- What happens in a run, and how it ends. -/
structure Trace (Outcome : Type) where
  events : List Event
  ending : Ending Outcome

namespace Trace

variable {Outcome Next : Type}

/-- A trace with one event before it. -/
def after (event : Event) (trace : Trace Outcome) : Trace Outcome where
  events := event :: trace.events
  ending := trace.ending

/-- Go on with the outcome of a trace, if it has one. -/
def andThen
    (trace : Trace Outcome)
    (next : Outcome → Trace Next) :
    Trace Next :=
  match trace.ending with
  | .finished outcome =>
      { events := trace.events ++ (next outcome).events
        ending := (next outcome).ending }
  | .failed failure =>
      { events := trace.events, ending := .failed failure }
  | .exhausted =>
      { events := trace.events, ending := .exhausted }

/-- An event before a trace stays before all that follows it. -/
@[simp] theorem after_andThen
    (event : Event)
    (trace : Trace Outcome)
    (next : Outcome → Trace Next) :
    (trace.after event).andThen next =
      (trace.andThen next).after event := by
  rcases trace with ⟨events, _ | _ | _⟩ <;> rfl

end Trace

namespace Run

variable {Outcome Next : Type}

/-- The trace of a run whose questions a handler map answers. -/
def trace
    (handlers : HandlerMap Handler) :
    Run Outcome → Trace Outcome
  | .done outcome => { events := [], ending := .finished outcome }
  | .failed failure => { events := [], ending := .failed failure }
  | .exhausted => { events := [], ending := .exhausted }
  | .note noted rest => (trace handlers (rest ())).after (.noted noted)
  | .deliver value rest =>
      (trace handlers (rest ())).after (.delivered value)
  | .resolve kind rest => trace handlers (rest (handlers.resolve? kind))

/-- A run that goes on has the trace of what it goes on with at its end. -/
theorem trace_bind
    (handlers : HandlerMap Handler)
    (run : Run Outcome)
    (next : Outcome → Run Next) :
    (run.bind next).trace handlers =
      (run.trace handlers).andThen fun outcome =>
        (next outcome).trace handlers := by
  induction run with
  | done outcome =>
      simp [bind, trace, Trace.andThen]
  | failed failure | exhausted =>
      rfl
  | note noted rest inductionHypothesis
  | deliver value rest inductionHypothesis =>
      simp only [bind, trace, inductionHypothesis, Trace.after_andThen]
  | resolve kind rest inductionHypothesis =>
      simp only [bind, trace, inductionHypothesis]

/-- What taking a run to its end with a table shows is its trace. -/
theorem complete_eq_trace
    {table : HandlerTable Handler}
    {handlers : HandlerMap Handler}
    (standsFor : table.StandsFor handlers)
    (run : Run Outcome) :
    (run.complete table).events = (run.trace handlers).events ∧
      (run.complete table).halt = (run.trace handlers).ending ∧
      (run.complete table).table.StandsFor handlers := by
  induction run generalizing table with
  | done outcome | failed failure | exhausted =>
      exact ⟨rfl, rfl, standsFor⟩
  | note noted rest inductionHypothesis
  | deliver value rest inductionHypothesis =>
      obtain ⟨sameEvents, sameEnding, after⟩ :=
        inductionHypothesis () standsFor
      simp only [complete, completeAfter] at sameEvents sameEnding after ⊢
      rw [completeAfter_eq]
      refine ⟨?_, sameEnding, after⟩
      simpa [complete, trace, Trace.after] using sameEvents
  | resolve kind rest inductionHypothesis =>
      simp only [complete, completeAfter, trace]
      rw [standsFor.resolve_fst kind]
      exact inductionHypothesis _ (standsFor.resolve_snd kind)

/--
Tables that stand for one map take a run to the same result, through the same
events.
-/
theorem advance_eq_of_standsFor
    {first second : HandlerTable Handler}
    {handlers : HandlerMap Handler}
    (firstStands : first.StandsFor handlers)
    (secondStands : second.StandsFor handlers)
    (run : Run Unit) :
    (run.advance first).events = (run.advance second).events ∧
      (run.advance first).halt = (run.advance second).halt ∧
      (run.advance first).table.StandsFor handlers ∧
      (run.advance second).table.StandsFor handlers := by
  unfold advance
  generalize [] = events
  induction run generalizing first second events with
  | done outcome | failed failure | exhausted | deliver value rest =>
      exact ⟨rfl, rfl, firstStands, secondStands⟩
  | note noted rest inductionHypothesis =>
      exact inductionHypothesis () firstStands secondStands
        (.noted noted :: events)
  | resolve kind rest inductionHypothesis =>
      simp only [advanceAfter]
      rw [firstStands.resolve_fst kind, secondStands.resolve_fst kind]
      exact inductionHypothesis _
        (firstStands.resolve_snd kind)
        (secondStands.resolve_snd kind)
        events

end Run

end QueryWalk
