import QueryWalk.Session

namespace QueryWalk

/-!
# Lazy and complete traversals

A visitor's traversal can be taken to its end at once, or its results can be
asked for one by one. Both run the same walk: the requests cut the events of the
complete walk into slices, each of which ends with the next result. What is left
after some requests is the last slice of all.
-/

namespace Event

/-- The events up to a number of results, the last of these included. -/
def upToResult : Nat → List Event → List Event
  | 0, _ => []
  | _ + 1, [] => []
  | count + 1, .noted note :: rest =>
      .noted note :: upToResult (count + 1) rest
  | count + 1, .delivered value :: rest =>
      .delivered value :: upToResult count rest

/-- The events after a number of results. -/
def afterResult : Nat → List Event → List Event
  | 0, events => events
  | _ + 1, [] => []
  | count + 1, .noted _ :: rest => afterResult (count + 1) rest
  | count + 1, .delivered _ :: rest => afterResult count rest

@[simp] theorem upToResult_zero
    (events : List Event) :
    upToResult 0 events = [] := by
  cases events <;> rfl

@[simp] theorem afterResult_zero
    (events : List Event) :
    afterResult 0 events = events := by
  cases events <;> rfl

/-- Cutting events at a result loses none and repeats none. -/
theorem upToResult_append_afterResult
    (count : Nat)
    (events : List Event) :
    upToResult count events ++ afterResult count events = events := by
  induction events generalizing count with
  | nil =>
      cases count <;> rfl
  | cons event rest inductionHypothesis =>
      cases count with
      | zero =>
          rfl
      | succ count =>
          cases event with
          | noted note =>
              exact congrArg (List.cons _)
                (inductionHypothesis (count + 1))
          | delivered value =>
              exact congrArg (List.cons _) (inductionHypothesis count)

/-- The events up to a number of results deliver just these results. -/
theorem results_upToResult
    (count : Nat)
    (events : List Event) :
    results (upToResult count events) = (results events).take count := by
  induction events generalizing count with
  | nil =>
      cases count <;> rfl
  | cons event rest inductionHypothesis =>
      cases count with
      | zero =>
          rfl
      | succ count =>
          cases event with
          | noted note =>
              exact inductionHypothesis (count + 1)
          | delivered value =>
              exact congrArg (List.cons value) (inductionHypothesis count)

/-- Events without a result belong to the slice of the next result. -/
theorem upToResult_append_of_silent
    {silent : List Event}
    (noResult : results silent = [])
    (count : Nat)
    (later : List Event) :
    upToResult (count + 1) (silent ++ later) =
      silent ++ upToResult (count + 1) later := by
  induction silent with
  | nil =>
      rfl
  | cons event rest inductionHypothesis =>
      cases event with
      | noted note =>
          exact congrArg (List.cons _) (inductionHypothesis noResult)
      | delivered value =>
          cases noResult

/-- Events without a result are passed over on the way to the next result. -/
theorem afterResult_append_of_silent
    {silent : List Event}
    (noResult : results silent = [])
    (count : Nat)
    (later : List Event) :
    afterResult (count + 1) (silent ++ later) =
      afterResult (count + 1) later := by
  induction silent with
  | nil =>
      rfl
  | cons event rest inductionHypothesis =>
      cases event with
      | noted note =>
          exact inductionHypothesis noResult
      | delivered value =>
          cases noResult

/-- No event comes after more results than there are. -/
theorem afterResult_eq_nil
    {count : Nat}
    {events : List Event}
    (tooFew : (results events).length < count) :
    afterResult count events = [] := by
  induction events generalizing count with
  | nil =>
      cases count <;> rfl
  | cons event rest inductionHypothesis =>
      cases count with
      | zero =>
          cases tooFew
      | succ count =>
          cases event with
          | noted note =>
              exact inductionHypothesis tooFew
          | delivered value =>
              exact inductionHypothesis (Nat.lt_of_succ_lt_succ tooFew)

end Event

namespace Ending

variable {Outcome Next : Type}

/-- The ending of something whose outcome is computed from another. -/
def map (change : Outcome → Next) : Ending Outcome → Ending Next
  | .finished outcome => .finished (change outcome)
  | .failed failure => .failed failure
  | .exhausted => .exhausted

end Ending

namespace Run

/-- Collecting the results of a run keeps its log, its ending and its table. -/
theorem complete_gather
    (table : HandlerTable Handler)
    (run : Run Unit) :
    (run.gather.complete table).log = (run.complete table).log ∧
      (run.gather.complete table).halt =
        (run.complete table).halt.map
          (fun _ => (run.complete table).results) ∧
      (run.gather.complete table).table = (run.complete table).table := by
  suffices collecting :
      ∀ collected,
        ((run.gatherOnto collected).complete table).log =
            (run.complete table).log ∧
          ((run.gatherOnto collected).complete table).halt =
            (run.complete table).halt.map
              (fun _ => collected.reverse ++
                (run.complete table).results) ∧
          ((run.gatherOnto collected).complete table).table =
            (run.complete table).table by
    exact collecting []
  induction run generalizing table with
  | done outcome | failed failure | exhausted =>
      intro collected
      simp [gatherOnto, complete, completeAfter, Ending.map,
        History.results, History.log, Event.results, Event.log]
  | note noted rest inductionHypothesis =>
      intro collected
      obtain ⟨sameLog, sameHalt, sameTable⟩ :=
        inductionHypothesis () table collected
      simp only [gatherOnto, complete, completeAfter]
        at sameLog sameHalt sameTable ⊢
      rw [completeAfter_eq table [.noted noted] (rest ()),
        completeAfter_eq table [.noted noted]
          (gatherOnto collected (rest ()))]
      refine ⟨?_, sameHalt, sameTable⟩
      simp only [History.log, Event.log_append] at sameLog ⊢
      exact congrArg _ sameLog
  | deliver value rest inductionHypothesis =>
      intro collected
      obtain ⟨sameLog, sameHalt, sameTable⟩ :=
        inductionHypothesis () table (value :: collected)
      simp only [gatherOnto, complete, completeAfter]
        at sameLog sameHalt sameTable ⊢
      rw [completeAfter_eq table [.delivered value] (rest ())]
      refine ⟨sameLog, ?_, sameTable⟩
      simpa [History.results, complete, Event.results,
        Event.result?] using sameHalt
  | resolve kind rest inductionHypothesis =>
      intro collected
      exact inductionHypothesis _ (table.resolve kind).2 collected

/-- Before its next result a run delivers nothing. -/
theorem results_advance
    (table : HandlerTable Handler)
    (run : Run Unit) :
    Event.results (run.advance table).events = [] := by
  suffices silent :
      ∀ events, Event.results events = [] →
        Event.results (run.advanceAfter table events).events = [] by
    exact silent [] rfl
  induction run generalizing table with
  | done outcome | failed failure | exhausted | deliver value rest =>
      intro events noResult
      simpa [advanceAfter, Event.results] using noResult
  | note noted rest inductionHypothesis =>
      intro events noResult
      exact inductionHypothesis () table (.noted noted :: events) noResult
  | resolve kind rest inductionHypothesis =>
      intro events noResult
      exact inductionHypothesis _ (table.resolve kind).2 events noResult

/-- A run that stops at a result has the events of the rest after it. -/
theorem complete_of_advance_atResult
    {table : HandlerTable Handler}
    {run rest : Run Unit}
    {value : Value}
    (stopped : (run.advance table).halt = .atResult value rest) :
    run.complete table =
      let later := rest.complete (run.advance table).table
      { events :=
          (run.advance table).events ++ .delivered value :: later.events
        halt := later.halt
        table := later.table } := by
  suffices continued :
      ∀ events,
        (run.advanceAfter table events).halt = .atResult value rest →
        run.completeAfter table events =
          rest.completeAfter
            (run.advanceAfter table events).table
            (.delivered value ::
              (run.advanceAfter table events).events.reverse) by
    have whole := continued [] stopped
    rw [completeAfter_eq _ (.delivered value :: _)] at whole
    simpa [complete, advance] using whole
  clear stopped
  induction run generalizing table with
  | done outcome | failed failure | exhausted =>
      intro events stopped
      cases stopped
  | deliver delivered further =>
      intro events stopped
      cases stopped
      simp only [completeAfter, advanceAfter, List.reverse_reverse]
  | note noted further inductionHypothesis =>
      intro events stopped
      exact inductionHypothesis () (.noted noted :: events) stopped
  | resolve kind further inductionHypothesis =>
      intro events stopped
      exact inductionHypothesis _ events stopped

/-- A run that stops at its end was complete. -/
theorem complete_of_advance_atEnd
    {table : HandlerTable Handler}
    {run : Run Unit}
    {ending : Ending Unit}
    (stopped : (run.advance table).halt = .atEnd ending) :
    run.complete table =
      { events := (run.advance table).events
        halt := ending
        table := (run.advance table).table } := by
  unfold complete advance at *
  generalize [] = events at *
  induction run generalizing table events with
  | done outcome | failed failure | exhausted =>
      cases stopped
      rfl
  | deliver value rest =>
      cases stopped
  | note noted rest inductionHypothesis =>
      exact inductionHypothesis () (.noted noted :: events) stopped
  | resolve kind rest inductionHypothesis =>
      exact inductionHypothesis _ events stopped

end Run

namespace Reply

/-- The replies to a number of requests for a next result. -/
def pulled (ending : Ending Unit) : Nat → List Value → List Reply
  | 0, _ => []
  | count + 1, [] =>
      .ofEnding (fun _ => .ended) ending :: List.replicate count .ended
  | count + 1, first :: rest => .value first :: pulled ending count rest

/-- Requests are answered with the results, as long as there are any. -/
theorem pulled_of_le
    (ending : Ending Unit)
    {count : Nat}
    {results : List Value}
    (enough : count ≤ results.length) :
    pulled ending count results = (results.take count).map .value := by
  induction count generalizing results with
  | zero =>
      rfl
  | succ count inductionHypothesis =>
      cases results with
      | nil =>
          cases enough
      | cons first rest =>
          exact congrArg (List.cons _)
            (inductionHypothesis (Nat.le_of_succ_le_succ enough))

/-- The first request after the last result is told the ending. -/
theorem pulled_of_lt
    (ending : Ending Unit)
    {count : Nat}
    {results : List Value}
    (tooMany : results.length < count) :
    pulled ending count results =
      results.map .value ++
        .ofEnding (fun _ => .ended) ending ::
          List.replicate (count - results.length - 1) .ended := by
  induction count generalizing results with
  | zero =>
      cases tooMany
  | succ count inductionHypothesis =>
      cases results with
      | nil =>
          rfl
      | cons first rest =>
          rw [pulled, inductionHypothesis (Nat.lt_of_succ_lt_succ tooMany)]
          simp

end Reply

namespace History

/-- The answer to a request for the rest after a number of requests. -/
def restAnswer
    (history : History (Ending Unit))
    (count : Nat) :
    Answer :=
  if count ≤ history.results.length then
    { log := Event.log (Event.afterResult count history.events)
      reply :=
        .ofEnding
          (fun _ => .result (.list (history.results.drop count)))
          history.halt }
  else
    { log := [], reply := .result (.list []) }

/-- What is left after a result is what its own history leaves. -/
theorem restAnswer_succ
    {silent : List Event}
    (noResult : Event.results silent = [])
    (value : Value)
    (later : History (Ending Unit))
    (count : Nat) :
    restAnswer
        { events := silent ++ .delivered value :: later.events
          halt := later.halt
          table := later.table }
        (count + 1) =
      later.restAnswer count := by
  have oneMore :
      Event.results (silent ++ .delivered value :: later.events) =
        value :: Event.results later.events := by
    rw [Event.results_append, noResult]
    rfl
  by_cases enough : count ≤ (Event.results later.events).length <;>
    simp [restAnswer, results, oneMore, enough, Event.afterResult,
      Event.afterResult_append_of_silent noResult]

/-- Nothing is left when more was asked for than there is. -/
theorem restAnswer_of_lt
    {history : History (Ending Unit)}
    {count : Nat}
    (tooMany : history.results.length < count) :
    history.restAnswer count =
      { log := [], reply := .result (.list []) } := by
  rw [restAnswer, if_neg (Nat.not_le.mpr tooMany)]

end History

namespace Session

/-- The walk that an iterator over a traversal is opened on. -/
def walk
    (bound : Nat)
    (session : Session)
    (tree : Node)
    (keys : Fields Value) :
    Run Unit :=
  (session.walker.services bound).visitNode tree
    (.root session.walker.settings keys)

/-- Opening an iterator, a visitor runs nothing and keeps its walk for later. -/
theorem step_start_of_visitor
    (bound : Nat)
    {session : Session}
    (visitor : session.walker.mode = .visitor)
    (name : String)
    (tree : Node)
    (keys : Fields Value) :
    session.step bound (.start name tree keys) =
      ({ log := [], reply := .nothing },
        session.withIterator name (session.walk bound tree keys)) := by
  simp only [step, openTraversal, visitor]
  rfl

/-- A visitor's complete traversal answers what its walk comes to. -/
theorem step_traverse_of_visitor
    (bound : Nat)
    {session : Session}
    (visitor : session.walker.mode = .visitor)
    (tree : Node)
    (keys : Fields Value) :
    (session.step bound (.traverse tree keys)).1 =
      { log := ((session.walk bound tree keys).complete session.table).log
        reply :=
          .ofEnding
            (fun _ =>
              .result
                (.list
                  ((session.walk bound tree keys).complete
                    session.table).results))
            ((session.walk bound tree keys).complete
              session.table).halt } := by
  have gathered :
      (session.walker.services bound).restart tree keys =
        (session.walk bound tree keys).gather.bind
          fun results => .done (.list results) := by
    cases bound with
    | zero =>
        rfl
    | succ bound =>
        simp only [walk, Walker.services, Walker.traverse, visitor,
          Run.bind_eq]
  obtain ⟨sameLog, sameHalt, -⟩ :=
    Run.complete_gather session.table (session.walk bound tree keys)
  simp only [step, step.services, complete, gathered, History.log,
    Run.complete_bind] at sameLog ⊢
  rw [sameHalt]
  cases ((session.walk bound tree keys).complete session.table).halt with
  | finished outcome =>
      simpa [Ending.map, Run.completeAfter, Reply.ofEnding] using sameLog
  | failed failure | exhausted =>
      simpa [Ending.map, Reply.ofEnding] using sameLog

/-- A request for the rest answers what is left of the run of an iterator. -/
theorem step_rest
    (bound : Nat)
    {session : Session}
    {name : String}
    {run : Run Unit}
    (isOpen : session.iterator? name = some run) :
    (session.step bound (.rest name)).1 =
      (run.complete session.table).restAnswer 0 := by
  obtain ⟨sameLog, sameHalt, -⟩ := Run.complete_gather session.table run
  simp only [step, isOpen, drain, complete, History.restAnswer,
    Nat.zero_le, if_true, Event.afterResult, List.drop_zero]
  rw [sameLog, sameHalt]
  cases (run.complete session.table).halt <;> rfl

/-- An iterator that has come to its end answers that it has no more. -/
theorem answers_pulls_of_ended
    (bound count : Nat)
    {session : Session}
    {name : String}
    (ended : session.iterator? name = some (.done ())) :
    session.answers bound
        (List.replicate count (.next name) ++ [.rest name]) =
      List.replicate count { log := [], reply := .ended } ++
        [{ log := [], reply := .result (.list []) }] := by
  induction count generalizing session with
  | zero =>
      simp [step_rest bound ended, History.restAnswer, History.results,
        Run.complete, Run.completeAfter, Event.results, Event.log,
        Reply.ofEnding]
  | succ count inductionHypothesis =>
      have pulled :
          session.step bound (.next name) =
            ({ log := [], reply := .ended },
              session.withIterator name (.done ())) := by
        simp only [step, ended]
        rfl
      rw [List.replicate_succ, List.cons_append, answers_cons, pulled,
        inductionHypothesis
          (iterator?_withIterator_self session name (.done ()))]
      rfl

/--
Requests for a next result cut the events of an iterator's run into slices, and
a request for the rest answers what they leave.
-/
theorem answers_pulls
    (bound count : Nat)
    {session : Session}
    {name : String}
    {run : Run Unit}
    (isOpen : session.iterator? name = some run) :
    ∃ nexts,
      session.answers bound
          (List.replicate count (.next name) ++ [.rest name]) =
        nexts ++ [(run.complete session.table).restAnswer count] ∧
      nexts.flatMap Answer.log =
        Event.log
          (Event.upToResult count (run.complete session.table).events) ∧
      nexts.map Answer.reply =
        Reply.pulled
          (run.complete session.table).halt
          count
          (run.complete session.table).results := by
  induction count generalizing session run with
  | zero =>
      refine ⟨[], ?_, ?_, ?_⟩
      · simp [step_rest bound isOpen]
      · simp [Event.log]
      · cases (run.complete session.table).results <;> rfl
  | succ count inductionHypothesis =>
      have silent := Run.results_advance session.table run
      cases stopped : (run.advance session.table).halt with
      | atResult value rest =>
          let next :=
            ({ session with table := (run.advance session.table).table }
              : Session).withIterator name rest
          have pulled :
              session.step bound (.next name) =
                ({ log := (run.advance session.table).log
                   reply := .value value },
                  next) := by
            simp only [step, isOpen, pull, stopped, next]
          have isOpenNext : next.iterator? name = some rest :=
            iterator?_withIterator_self _ name rest
          obtain ⟨nexts, answered, logs, replies⟩ :=
            inductionHypothesis isOpenNext
          rw [Run.complete_of_advance_atResult stopped]
          refine
            ⟨{ log := (run.advance session.table).log
               reply := .value value } :: nexts, ?_, ?_, ?_⟩
          · rw [List.replicate_succ, List.cons_append, answers_cons,
              pulled, answered, History.restAnswer_succ silent]
            rfl
          · rw [List.flatMap_cons, logs,
              Event.upToResult_append_of_silent silent, Event.log_append]
            rfl
          · simp only [List.map_cons, replies, History.results,
              Event.results_append, silent, List.nil_append]
            rfl
      | atEnd ending =>
          let next :=
            ({ session with table := (run.advance session.table).table }
              : Session).withIterator name (.done ())
          have pulled :
              session.step bound (.next name) =
                ({ log := (run.advance session.table).log
                   reply := .ofEnding (fun _ => .ended) ending },
                  next) := by
            simp only [step, isOpen, pull, stopped, next]
          have isOpenNext : next.iterator? name = some (.done ()) :=
            iterator?_withIterator_self _ name (.done ())
          have answered := answers_pulls_of_ended bound count isOpenNext
          rw [Run.complete_of_advance_atEnd stopped]
          refine
            ⟨{ log := (run.advance session.table).log
               reply := .ofEnding (fun _ => .ended) ending } ::
                List.replicate count { log := [], reply := .ended },
              ?_, ?_, ?_⟩
          · rw [List.replicate_succ, List.cons_append, answers_cons,
              pulled, answered, History.restAnswer_of_lt (by
                simp [History.results, silent])]
            rfl
          · have all :=
              Event.upToResult_append_of_silent silent count []
            rw [List.append_nil] at all
            simp [all, Event.upToResult, History.log]
          · simp only [List.map_cons, List.map_replicate,
              History.results, silent]
            rfl

/-- Requests for a next result are answered with the results, then the ending. -/
theorem replies_nexts
    (bound count : Nat)
    {session : Session}
    {name : String}
    {run : Run Unit}
    (isOpen : session.iterator? name = some run) :
    (session.answers bound
        (List.replicate count (.next name))).map Answer.reply =
      Reply.pulled
        (run.complete session.table).halt
        count
        (run.complete session.table).results := by
  obtain ⟨nexts, answered, -, replies⟩ := answers_pulls bound count isOpen
  rw [answers_append] at answered
  have sameNexts :
      session.answers bound (List.replicate count (.next name)) = nexts :=
    List.append_inj_left' answered (by simp)
  rw [sameNexts]
  exact replies

/--
Asking a visitor for results one by one shows the same walk as its complete
traversal. Opening an iterator runs nothing; the requests get the results in
order, each after just the log that lies before it; what is left, and after the
results the failure, goes to the request for the rest or to the next request.
-/
theorem pulling_agrees_with_collecting
    {session : Session}
    (visitor : session.walker.mode = .visitor)
    (bound count : Nat)
    (name : String)
    (tree : Node)
    (keys : Fields Value) :
    let whole := (session.walk bound tree keys).complete session.table
    ∃ nexts last,
      session.answers bound
          (.start name tree keys ::
            (List.replicate count (.next name) ++ [.rest name])) =
        { log := [], reply := .nothing } :: (nexts ++ [last]) ∧
      nexts.length = count ∧
      nexts.flatMap Answer.log =
        Event.log (Event.upToResult count whole.events) ∧
      (whole.halt = .finished () →
        session.answers bound [.traverse tree keys] =
            [{ log := whole.log
               reply := .result (.list whole.results) }] ∧
          nexts.map Answer.reply =
            (whole.results.take count).map .value ++
              List.replicate (count - whole.results.length) .ended ∧
          last =
            { log := Event.log (Event.afterResult count whole.events)
              reply := .result (.list (whole.results.drop count)) }) ∧
      (∀ failure,
        whole.halt = .failed failure →
        session.answers bound [.traverse tree keys] =
            [{ log := whole.log, reply := .refused failure }] ∧
          (count ≤ whole.results.length →
            nexts.map Answer.reply =
                (whole.results.take count).map .value ∧
              last =
                { log := Event.log (Event.afterResult count whole.events)
                  reply := .refused failure }) ∧
          (whole.results.length < count →
            nexts.map Answer.reply =
                whole.results.map .value ++
                  .refused failure ::
                    List.replicate
                      (count - whole.results.length - 1) .ended ∧
              last = { log := [], reply := .result (.list []) })) := by
  intro whole
  have isOpen :
      (session.withIterator name
          (session.walk bound tree keys)).iterator? name =
        some (session.walk bound tree keys) :=
    iterator?_withIterator_self session name _
  obtain ⟨nexts, answered, logs, replies⟩ :=
    answers_pulls bound count isOpen
  simp only [table_withIterator] at answered logs replies
  have collected :
      (session.step bound (.traverse tree keys)).1 =
        { log := whole.log
          reply :=
            .ofEnding (fun _ => .result (.list whole.results)) whole.halt } :=
    step_traverse_of_visitor bound visitor tree keys
  have opened := step_start_of_visitor bound visitor name tree keys
  refine ⟨nexts, whole.restAnswer count, ?_, ?_, logs, ?_, ?_⟩
  · rw [answers_cons, opened]
    exact congrArg (List.cons _) answered
  · have total := congrArg List.length answered
    simpa using total.symm
  · intro finished
    refine ⟨?_, ?_, ?_⟩
    · rw [answers_cons, collected, finished]
      rfl
    · rw [replies, finished]
      rcases Nat.lt_or_ge whole.results.length count with
        tooMany | enough
      · obtain ⟨further, sum⟩ := Nat.exists_eq_add_of_lt tooMany
        rw [Reply.pulled_of_lt _ tooMany,
          List.take_of_length_le (Nat.le_of_lt tooMany), sum,
          show whole.results.length + further + 1 -
            whole.results.length = further + 1 by omega]
        rfl
      · rw [Reply.pulled_of_le _ enough, Nat.sub_eq_zero_of_le enough]
        simp
    · rcases Nat.lt_or_ge whole.results.length count with
        tooMany | enough
      · rw [History.restAnswer_of_lt tooMany,
          Event.afterResult_eq_nil tooMany,
          List.drop_of_length_le (Nat.le_of_lt tooMany)]
        rfl
      · rw [History.restAnswer, if_pos enough, finished]
        rfl
  · intro failure failed
    refine ⟨?_, ?_, ?_⟩
    · rw [answers_cons, collected, failed]
      rfl
    · intro enough
      rw [replies, Reply.pulled_of_le _ enough, History.restAnswer,
        if_pos enough, failed]
      exact ⟨rfl, rfl⟩
    · intro tooMany
      rw [replies, Reply.pulled_of_lt _ tooMany,
        History.restAnswer_of_lt tooMany, failed]
      exact ⟨rfl, rfl⟩

/-- A visitor that reports words and gives up at the first phrase. -/
def untilPhrase : Session :=
  .create
    { mode := .visitor
      settings :=
        { trackParents := false
          trackNewParents := false
          trackPaths := false
          maxDepth := 1
          maxDepth_pos := Nat.one_pos
          listener := .silent }
      fallback := none }
    [(.exactly (.term .word),
        { eager := false
          actions := [.log .depth, .deliver .kind, .log .attributes] }),
      (.exactly (.term .phrase),
        { eager := false, actions := [.fail "no phrases"] })]

/--
The second request to a visitor that gives up after one result gets the failure,
after all of the log, and nothing is left.
-/
theorem pulling_agrees_with_collecting_untilPhrase :
    untilPhrase.walker.mode = .visitor ∧
      ∃ nexts,
        untilPhrase.answers 9
            (.start "it" (Query.or [Query.word "a", Query.phrase "b"]) [] ::
              (List.replicate 2 (.next "it") ++ [.rest "it"])) =
          { log := [], reply := .nothing } ::
            (nexts ++ [{ log := [], reply := .result (.list []) }]) ∧
        nexts.flatMap Answer.log =
          [.logged (.number (.ofNat 1)), .logged (.list [.text "a"])] ∧
        nexts.map Answer.reply =
          [.value (.text "word"), .refused (.handler "no phrases")] := by
  have visitor : untilPhrase.walker.mode = .visitor := rfl
  refine ⟨visitor, ?_⟩
  obtain ⟨nexts, last, answered, -, logs, -, whenFailed⟩ :=
    pulling_agrees_with_collecting visitor 9 2 "it"
      (Query.or [Query.word "a", Query.phrase "b"]) []
  obtain ⟨-, -, afterAll⟩ := whenFailed (.handler "no phrases") rfl
  obtain ⟨replies, left⟩ := afterAll (by decide)
  exact ⟨nexts, left ▸ answered, logs, replies⟩

end Session

end QueryWalk
