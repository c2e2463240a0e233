import QueryWalk.Proofs.RunCongruence
import QueryWalk.Proofs.StepIsolation

namespace QueryWalk

/-!
# Who is told

Telling a listener which handler was chosen is the only thing that a walk does for its
listener. So with another listener a walk is the same run retold: every entry that was
made for the listener is made in the other's way, or not at all, and all other notes,
results, questions and endings stay where they are.
-/

namespace Listener

/-- A listener that never gives up. -/
def NeverGivesUp : Listener → Prop
  | .silent | .debugging | .logging none => True
  | .logging (some _) => False

/-- An entry, made for somebody who logs what he is told, as another makes it. -/
def retell (listener : Listener) : LogEntry → Option LogEntry
  | .dispatched kind type attributes =>
      match listener with
      | .silent => none
      | .debugging => some (.traced kind type)
      | .logging _ => some (.dispatched kind type attributes)
  | .traced kind type => some (.traced kind type)
  | .logged value => some (.logged value)

end Listener

/-- Options only name a listener who gives up if the caller's own does. -/
theorem Options.listener_neverGivesUp
    {options : Options}
    (neverGivesUp : options.onDispatch.NeverGivesUp) :
    options.listener.NeverGivesUp := by
  unfold listener
  split
  · exact neverGivesUp
  · split
    · trivial
    · trivial

/-- The walker with another listener. -/
def Walker.withListener (walker : Walker) (listener : Listener) : Walker :=
  { walker with settings := { walker.settings with listener := listener } }

variable (tell : LogEntry → Option LogEntry)

/-- A note as it is retold, if it is. Only log entries are changed. -/
def Note.retell : Note → Option Note
  | .entry told => (tell told).map .entry
  | .entered type node context => some (.entered type node context)

/-- An event as it is retold, if it is. -/
def Event.retell : Event → Option Event
  | .noted note => (note.retell tell).map .noted
  | .delivered value => some (.delivered value)

/-- The log of retold events is the log retold. -/
theorem Event.log_retell
    (events : List Event) :
    log (events.filterMap (Event.retell tell)) =
      (log events).filterMap tell := by
  unfold log
  rw [List.filterMap_filterMap, List.filterMap_filterMap]
  congr 1
  funext event
  rcases event with (entry | ⟨type, node, context⟩) | value
  · simp only [Event.retell, Note.retell, entry?, Option.bind_some]
    cases tell entry <;> rfl
  · rfl
  · rfl

namespace Run

variable {Outcome Next : Type}

/-- A run with its notes retold. -/
def retell : Run Outcome → Run Outcome
  | .done outcome => .done outcome
  | .failed failure => .failed failure
  | .exhausted => .exhausted
  | .note noted rest =>
      match noted.retell tell with
      | some told => .note told fun _ => retell (rest ())
      | none => retell (rest ())
  | .deliver value rest => .deliver value fun _ => retell (rest ())
  | .resolve kind rest =>
      .resolve kind fun registration => retell (rest registration)

/-- What goes on with an outcome is retold in turn. -/
theorem retell_bind
    (run : Run Outcome)
    (next : Outcome → Run Next) :
    (run.bind next).retell tell =
      (run.retell tell).bind fun outcome => (next outcome).retell tell := by
  induction run with
  | done outcome | failed failure | exhausted =>
      rfl
  | note noted rest inductionHypothesis =>
      simp only [bind, retell]
      cases noted.retell tell with
      | none =>
          exact inductionHypothesis ()
      | some told =>
          simp only [bind, inductionHypothesis]
  | deliver value rest inductionHypothesis =>
      simp only [bind, retell, inductionHypothesis]
  | resolve kind rest inductionHypothesis =>
      simp only [bind, retell, inductionHypothesis]

/-- Retold runs give the same results. -/
theorem retell_gather
    (run : Run Unit) :
    run.gather.retell tell = (run.retell tell).gather := by
  unfold gather
  generalize [] = collected
  induction run generalizing collected with
  | done outcome | failed failure | exhausted =>
      rfl
  | note noted rest inductionHypothesis =>
      simp only [gatherOnto, retell]
      cases noted.retell tell with
      | none =>
          exact inductionHypothesis () collected
      | some told =>
          simp only [gatherOnto, inductionHypothesis]
  | deliver value rest inductionHypothesis =>
      exact inductionHypothesis () (value :: collected)
  | resolve kind rest inductionHypothesis =>
      simp only [gatherOnto, retell, inductionHypothesis]

/-- Retold runs fail in the same way. -/
theorem retell_attempt
    (run : Run Outcome) :
    run.attempt.retell tell = (run.retell tell).attempt := by
  induction run with
  | done outcome | failed failure | exhausted =>
      rfl
  | note noted rest inductionHypothesis =>
      simp only [attempt, retell]
      cases noted.retell tell with
      | none =>
          exact inductionHypothesis ()
      | some told =>
          simp only [attempt, inductionHypothesis]
  | deliver value rest inductionHypothesis =>
      simp only [attempt, retell, inductionHypothesis]
  | resolve kind rest inductionHypothesis =>
      simp only [attempt, retell, inductionHypothesis]

/-- A call with its notes retold, and those of what it leaves. -/
def retellCall (call : Run (Run Unit)) : Run (Run Unit) :=
  (call.retell tell).bind fun run => .done (run.retell tell)

/-- A call is retold with what it leaves. -/
theorem retellCall_bind_id
    (call : Run (Run Unit)) :
    (call.retellCall tell).bind id = (call.bind id).retell tell := by
  rw [retellCall, bind_bind, retell_bind]
  rfl

/-- What goes before a call is retold before it. -/
theorem retellCall_bind
    (run : Run Outcome)
    (call : Outcome → Run (Run Unit)) :
    (run.bind call).retellCall tell =
      (run.retell tell).bind fun outcome =>
        (call outcome).retellCall tell := by
  simp only [retellCall, retell_bind, bind_bind]

end Run

/-- The second of two runs is the first retold. -/
def Congruence.retelling : Congruence where
  relates run other := other = run.retell tell
  logs value := tell (.logged value) = some (.logged value)
  catches := True
  done _ := rfl
  failed _ := rfl
  exhausted := rfl
  log {value} same := by
    simp only [Run.noting, Run.retell, Note.retell, same, Option.map_some]
  entered _ _ := rfl
  delivering _ := rfl
  bind := by
    rintro _ _ run _ next _ rfl same
    rw [Run.retell_bind]
    congr 1
    funext outcome
    exact same outcome
  gather := by
    rintro run _ rfl
    exact (Run.retell_gather tell run).symm
  attempt := by
    rintro _ run _ _ rfl
    exact (Run.retell_attempt tell run).symm

/-- Giving results makes no notes. -/
theorem Run.deliverAll_retell
    (values : List Value) :
    (deliverAll values).retell tell = deliverAll values :=
  ((Congruence.retelling tell).deliverAll values).symm

/-- A listener that never gives up is told in his own way. -/
theorem Walker.notify_withListener
    (walker : Walker)
    {listener : Listener}
    (neverGivesUp : listener.NeverGivesUp)
    (node : Node)
    (type : Option NodeType) :
    notify (walker.withListener listener).settings node type =
      (notify (walker.withListener (.logging none)).settings node
        type).retell listener.retell := by
  cases listener with
  | silent | debugging =>
      rfl
  | logging rejected =>
      cases rejected with
      | none =>
          rfl
      | some kind =>
          cases neverGivesUp

/-- Every action may be retold by a listener. -/
theorem Handler.suits_retelling
    (listener : Listener)
    (handler : Handler) :
    handler.Throughout (Action.SuitsTo (.retelling listener.retell)) :=
  handler.suits (fun _ => rfl) trivial

section Walks

variable
  {listener : Listener}
  {services others : Services}
  (related : services.Related (.retelling listener.retell) others)

include related

/-- The call of a handler with retold services is its call retold. -/
theorem Handler.call_retell
    (handler : Handler)
    (node : Node)
    (context : Context) :
    handler.call others node context =
      (handler.call services node context).retellCall listener.retell := by
  have body :
      handler.body others node context =
        (handler.body services node context).retell listener.retell :=
    Handler.body_relates related (handler.suits_retelling listener) node
      context
  unfold call
  rw [body]
  by_cases eager : handler.eager = true
  · rw [if_pos eager, if_pos eager, Run.retellCall_bind,
      Run.retell_gather]
    congr 1
    funext values
    exact congrArg Run.done (Run.deliverAll_retell _ values).symm
  · rw [if_neg eager, if_neg eager]
    rfl

namespace Walker

/-- So is the call that is noted. -/
theorem callHandler_retell
    (type : Option NodeType)
    (handler : Handler)
    (node : Node)
    (context : Context) :
    callHandler others type handler node context =
      (callHandler services type handler node context).retellCall
        listener.retell := by
  simp only [callHandler, Run.bind_eq]
  rw [Run.retellCall_bind, handler.call_retell related]
  rfl

variable (walker : Walker)

/-- So is the call of the built-in fallback. -/
theorem callStructural_retell
    (node : Node)
    (context : Context) :
    (walker.withListener listener).callStructural others node context =
      ((walker.withListener (.logging none)).callStructural services node
        context).retellCall listener.retell := by
  have children :
      visitChildren others node context 0 node.children =
        (visitChildren services node context 0 node.children).retell
          listener.retell :=
    visitChildren_relates related node context 0 node.children
  have rebuilds :
      rebuild others node context =
        (rebuild services node context).retell listener.retell :=
    rebuild_relates related node context
  simp only [callStructural, withListener]
  cases walker.mode with
  | visitor =>
      exact congrArg Run.done children
  | transformer =>
      simp only [rebuilds, Run.retellCall_bind]
      rfl

/-- So is the call of the fallback. -/
theorem callGeneric_retell
    (node : Node)
    (context : Context) :
    (walker.withListener listener).callGeneric others node context =
      ((walker.withListener (.logging none)).callGeneric services node
        context).retellCall listener.retell := by
  have structural :=
    callStructural_retell related walker node context
  simp only [callGeneric, withListener] at structural ⊢
  cases walker.fallback with
  | none =>
      exact structural
  | some handler =>
      exact callHandler_retell related none handler node context

/-- So is the call for a node, once the listener has been told in his own way. -/
theorem callNode_retell
    (neverGivesUp : listener.NeverGivesUp)
    (node : Node)
    (context : Context) :
    (walker.withListener listener).callNode others node context =
      ((walker.withListener (.logging none)).callNode services node
        context).retellCall listener.retell := by
  simp only [callNode, Run.asking, Run.bind_eq]
  rw [Run.retellCall_bind]
  change Run.resolve node.kind _ = Run.resolve node.kind _
  congr 1
  funext resolved
  change Run.bind _ (notify _ node _) =
    (Run.bind _ (notify _ node _)).retellCall listener.retell
  rw [Run.retellCall_bind, ← walker.notify_withListener neverGivesUp]
  congr 1
  funext _
  cases resolved with
  | none =>
      exact callGeneric_retell related walker node context
  | some registration =>
      change (Run.ofExcept (registration.handlerFor node)).bind _ =
        ((Run.ofExcept (registration.handlerFor node)).bind _).retellCall
          listener.retell
      cases registration.handlerFor node with
      | error failure =>
          rfl
      | ok handler =>
          exact callHandler_retell related (some registration.type) handler
            node context

/-- So is the call by which a walker is asked for what a node gives. -/
theorem openNode_retell
    (neverGivesUp : listener.NeverGivesUp)
    (node : Node)
    (context : Context) :
    (walker.withListener listener).openNode others node context =
      ((walker.withListener (.logging none)).openNode services node
        context).retellCall listener.retell := by
  have calls := callNode_retell related walker neverGivesUp node context
  have sameMode (told : Listener) :
      (walker.withListener told).mode = walker.mode :=
    rfl
  unfold openNode
  rw [calls, sameMode, sameMode]
  cases walker.mode with
  | visitor =>
      rfl
  | transformer =>
      simp only [Run.retellCall_bind_id, ← Run.retell_gather]
      rw [Run.retellCall_bind]
      congr 1
      funext values
      exact congrArg Run.done (Run.deliverAll_retell _ values).symm

end Walker

end Walks

/-- With another listener a walker does what it did, retold. -/
theorem Walker.couples_retelling
    (walker : Walker)
    {listener : Listener}
    (neverGivesUp : listener.NeverGivesUp) :
    (walker.withListener (.logging none)).Couples
      (.retelling listener.retell) (walker.withListener listener) where
  mode_eq := rfl
  root _ := rfl
  descend _ _ _ := rfl
  generic related :=
    callGeneric_relates related rfl rfl fun handler _ =>
      handler.suits_retelling listener
  visitNode related node context := by
    have call := walker.callNode_retell related neverGivesUp node context
    have sameMode :
        (walker.withListener (.logging none)).mode =
          (walker.withListener listener).mode :=
      rfl
    apply visitNode_relates sameMode
    exact (congrArg (Run.bind id) call).trans
      (Run.retellCall_bind_id listener.retell _)

section Histories

variable {Outcome Next : Type}

/-- A stop with the rest of the run retold. -/
def Stop.retell : Stop → Stop
  | .atResult value rest => .atResult value (rest.retell tell)
  | .atEnd ending => .atEnd ending

namespace Run

/-- A retold run is taken to the same end, through the events retold. -/
theorem completeAfter_retell
    (table : HandlerTable Handler)
    (events : List Event)
    (run : Run Outcome) :
    (run.retell tell).completeAfter table
        (events.filterMap (Event.retell tell)) =
      { run.completeAfter table events with
        events :=
          (run.completeAfter table events).events.filterMap
            (Event.retell tell) } := by
  induction run generalizing table events with
  | done outcome | failed failure | exhausted =>
      simp only [retell, completeAfter, List.filterMap_reverse]
  | note noted rest inductionHypothesis =>
      have onward := inductionHypothesis () table (.noted noted :: events)
      simp only [retell, completeAfter] at onward ⊢
      rw [← onward]
      cases isTold : noted.retell tell with
      | none =>
          simp only [List.filterMap_cons, Event.retell, isTold,
            Option.map_none]
      | some told =>
          simp only [List.filterMap_cons, Event.retell, isTold,
            Option.map_some, completeAfter]
  | deliver value rest inductionHypothesis =>
      exact inductionHypothesis () table (.delivered value :: events)
  | resolve kind rest inductionHypothesis =>
      exact inductionHypothesis _ (table.resolve kind).2 events

/-- A retold run is taken to the same end, through the events retold. -/
theorem complete_retell
    (table : HandlerTable Handler)
    (run : Run Outcome) :
    (run.retell tell).complete table =
      { run.complete table with
        events :=
          (run.complete table).events.filterMap (Event.retell tell) } :=
  completeAfter_retell tell table [] run

/-- What is computed from an outcome at the end leaves the events as they are. -/
theorem complete_bind_done
    (table : HandlerTable Handler)
    (run : Run Outcome)
    (change : Outcome → Next) :
    (run.bind fun outcome => .done (change outcome)).complete table =
      { events := (run.complete table).events
        halt := (run.complete table).halt.map change
        table := (run.complete table).table } := by
  rw [complete_bind]
  rcases run.complete table with ⟨events, _ | _ | _, after⟩
  · simp only [completeAfter, List.reverse_reverse]
    rfl
  · rfl
  · rfl

/-- A retold run is taken to the same result, through the events retold. -/
theorem advanceAfter_retell
    (table : HandlerTable Handler)
    (events : List Event)
    (run : Run Unit) :
    (run.retell tell).advanceAfter table
        (events.filterMap (Event.retell tell)) =
      { events :=
          (run.advanceAfter table events).events.filterMap
            (Event.retell tell)
        halt := (run.advanceAfter table events).halt.retell tell
        table := (run.advanceAfter table events).table } := by
  induction run generalizing table events with
  | done outcome | failed failure | exhausted | deliver value rest =>
      simp only [retell, advanceAfter, Stop.retell,
        List.filterMap_reverse]
  | note noted rest inductionHypothesis =>
      have onward := inductionHypothesis () table (.noted noted :: events)
      simp only [retell, advanceAfter] at onward ⊢
      rw [← onward]
      cases isTold : noted.retell tell with
      | none =>
          simp only [List.filterMap_cons, Event.retell, isTold,
            Option.map_none]
      | some told =>
          simp only [List.filterMap_cons, Event.retell, isTold,
            Option.map_some, advanceAfter]
  | resolve kind rest inductionHypothesis =>
      exact inductionHypothesis _ (table.resolve kind).2 events

end Run

end Histories

/-- An answer whose log is retold. -/
def Answer.retell (answer : Answer) : Answer :=
  { answer with log := answer.log.filterMap tell }

namespace Session

/-- A session with another listener, in which what is still to be run is retold. -/
def retell (session : Session) (listener : Listener) : Session :=
  { session with
    walker := session.walker.withListener listener
    iterators :=
      session.iterators.map
        fun entry => (entry.1, entry.2.retell listener.retell) }

variable (session : Session) (listener : Listener)

/-- What is still to be run for an iterator is retold. -/
theorem iterator?_retell
    (name : String) :
    (session.retell listener).iterator? name =
      (session.iterator? name).map (Run.retell listener.retell) := by
  simp only [iterator?, retell, List.find?_map, Option.map_map]
  rfl

/-- What is put under a name is retold with the session. -/
theorem withIterator_retell
    (name : String)
    (run : Run Unit) :
    (session.retell listener).withIterator name
        (run.retell listener.retell) =
      (session.withIterator name run).retell listener := by
  simp only [withIterator, retell, List.map_cons, List.filter_map]
  rfl

/-- A retold run is answered with the same reply and the log retold. -/
theorem complete_retell
    {Outcome : Type}
    (reply : Outcome → Reply)
    (run : Run Outcome) :
    (session.retell listener).complete reply
        (run.retell listener.retell) =
      ((session.complete reply run).1.retell listener.retell,
        (session.complete reply run).2.retell listener) := by
  have sameTable : (session.retell listener).table = session.table := rfl
  simp only [complete, Run.complete_retell, History.log,
    Event.log_retell, sameTable]
  rfl

/-- So is the opening of an iterator on a traversal. -/
theorem openTraversal_retell
    (name : String)
    (run : Run Unit) :
    (session.retell listener).openTraversal name
        (run.retell listener.retell) =
      ((session.openTraversal name run).1.retell listener.retell,
        (session.openTraversal name run).2.retell listener) := by
  have sameMode :
      (session.retell listener).walker.mode = session.walker.mode :=
    rfl
  unfold openTraversal
  rw [sameMode]
  cases session.walker.mode with
  | visitor =>
      exact Prod.ext rfl (withIterator_retell ..)
  | transformer =>
      rfl

/-- So is the call that opens an iterator. -/
theorem openIterator_retell
    (name : String)
    (call : Run (Run Unit)) :
    (session.retell listener).openIterator name
        (call.retellCall listener.retell) =
      ((session.openIterator name call).1.retell listener.retell,
        (session.openIterator name call).2.retell listener) := by
  have sameTable : (session.retell listener).table = session.table := rfl
  simp only [openIterator, Run.retellCall, Run.complete_bind_done,
    Run.complete_retell, History.log, Event.log_retell, sameTable]
  generalize call.complete session.table = history
  rcases history with ⟨events, halt, table⟩
  cases halt with
  | finished run =>
      exact Prod.ext rfl
        (withIterator_retell { session with table := table } listener name
          run)
  | failed failure | exhausted =>
      rfl

/-- So is the search for the next result. -/
theorem pull_retell
    (name : String)
    (run : Run Unit) :
    (session.retell listener).pull name (run.retell listener.retell) =
      ((session.pull name run).1.retell listener.retell,
        (session.pull name run).2.retell listener) := by
  have sameTable : (session.retell listener).table = session.table := rfl
  have advances :=
    Run.advanceAfter_retell listener.retell session.table [] run
  simp only [List.filterMap_nil] at advances
  simp only [pull, Run.advance, advances, History.log, Event.log_retell,
    sameTable]
  generalize run.advanceAfter session.table [] = history
  rcases history with ⟨events, halt, table⟩
  have putBack :=
    withIterator_retell { session with table := table } listener name
  cases halt with
  | atResult value rest =>
      exact Prod.ext rfl (putBack rest)
  | atEnd ending =>
      exact Prod.ext rfl (putBack (.done ()))

/-- So is the search for all results. -/
theorem drain_retell
    (name : String)
    (run : Run Unit) :
    (session.retell listener).drain name (run.retell listener.retell) =
      ((session.drain name run).1.retell listener.retell,
        (session.drain name run).2.retell listener) := by
  simp only [drain, ← Run.retell_gather, complete_retell]
  exact Prod.ext rfl (withIterator_retell _ listener name (.done ()))

variable {session listener}

/-- A step is answered with the same reply, and with the log retold. -/
theorem step_retell
    {walker : Walker}
    (telling : session.walker = walker.withListener (.logging none))
    (neverGivesUp : listener.NeverGivesUp)
    (bound : Nat)
    (step : Step) :
    (session.retell listener).step bound step =
      ((session.step bound step).1.retell listener.retell,
        (session.step bound step).2.retell listener) := by
  have told :
      (session.retell listener).walker = walker.withListener listener := by
    rw [retell, telling]
    rfl
  have related :=
    (walker.couples_retelling neverGivesUp).related_services bound
  cases step with
  | childContext parent index context =>
      rfl
  | setHandler | deleteHandler =>
      rfl
  | traverse tree keys =>
      simp only [Session.step, step.services, told, telling]
      rw [related.restart tree keys]
      exact complete_retell ..
  | visitNode node context =>
      simp only [Session.step, step.services, told, telling]
      rw [related.visitNode node context, ← Run.retell_gather]
      exact complete_retell ..
  | generic node context =>
      simp only [Session.step, step.services, told, telling]
      rw [related.generic node context, ← Run.retell_gather]
      exact complete_retell ..
  | rebuild node context =>
      simp only [Session.step, step.services, told, telling]
      rw [related.rebuild node context]
      exact complete_retell ..
  | start name tree keys =>
      simp only [Session.step, step.services, told, telling]
      rw [related.visitNode tree]
      exact openTraversal_retell ..
  | startNode name node context =>
      simp only [Session.step, step.services, told, telling]
      rw [walker.openNode_retell related neverGivesUp]
      exact openIterator_retell ..
  | startGeneric name node context =>
      simp only [Session.step, step.services, told, telling]
      rw [walker.callGeneric_retell related]
      exact openIterator_retell ..
  | next name =>
      simp only [Session.step, iterator?_retell]
      cases session.iterator? name with
      | none =>
          rfl
      | some run =>
          exact pull_retell ..
  | rest name =>
      simp only [Session.step, iterator?_retell]
      cases session.iterator? name with
      | none =>
          rfl
      | some run =>
          exact drain_retell ..

/-- So are all steps. -/
theorem answers_retell
    {walker : Walker}
    (telling : session.walker = walker.withListener (.logging none))
    (neverGivesUp : listener.NeverGivesUp)
    (bound : Nat)
    (steps : List Step) :
    (session.retell listener).answers bound steps =
      (session.answers bound steps).map (Answer.retell listener.retell) := by
  induction steps generalizing session with
  | nil =>
      rfl
  | cons first later inductionHypothesis =>
      rw [answers_cons, answers_cons, List.map_cons,
        step_retell telling neverGivesUp,
        inductionHypothesis
          ((walker_step bound session first).trans telling)]

/-- With a listener a walker answers what it would answer with another, retold. -/
theorem answers_withListener
    (walker : Walker)
    (handlers : HandlerMap Handler)
    (neverGivesUp : listener.NeverGivesUp)
    (bound : Nat)
    (steps : List Step) :
    (create (walker.withListener listener) handlers).answers bound steps =
      ((create (walker.withListener (.logging none)) handlers).answers
        bound steps).map (Answer.retell listener.retell) := by
  have telling :
      (create (walker.withListener (.logging none)) handlers).walker =
        walker.withListener (.logging none) :=
    rfl
  exact answers_retell telling neverGivesUp bound steps

end Session

/-- Whether an entry was made for a listener, or by the debugging aid. -/
def LogEntry.isReport : LogEntry → Bool
  | .dispatched .. | .traced .. => true
  | .logged _ => false

/-- An answer without what was made for a listener. -/
def Answer.withoutReports (answer : Answer) : Answer :=
  { answer with log := answer.log.filter fun entry => !entry.isReport }

/-- Retelling only changes what was made for a listener. -/
theorem Answer.withoutReports_retell
    (listener : Listener)
    (answer : Answer) :
    (answer.retell listener.retell).withoutReports =
      answer.withoutReports := by
  simp only [withoutReports, retell, List.filter_filterMap]
  congr 1
  rw [← List.filterMap_eq_filter]
  congr 1
  funext entry
  cases entry with
  | dispatched kind type attributes =>
      cases listener <;> rfl
  | traced | logged =>
      rfl

end QueryWalk
