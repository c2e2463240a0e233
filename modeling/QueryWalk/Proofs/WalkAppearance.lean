import QueryWalk.Proofs.ListenerRetelling

namespace QueryWalk

/-!
# What walks show

Handlers answer the questions of a run, and whoever looks at the run from outside sees
neither the questions nor which handler is called: he sees the results, the log and the
ending. Two walks with different handlers can show the same, up to how the entries of the
log are told. Then callers are answered the same by both, step by step, with the log
retold.
-/

namespace Run

variable
  {Outcome Next : Type}
  (handlers : HandlerMap Handler)

/-- What a run shows whose questions a handler map answers. It has no questions left. -/
def shown : Run Outcome → Run Outcome
  | .done outcome => .done outcome
  | .failed failure => .failed failure
  | .exhausted => .exhausted
  | .note (.entry told) rest => .note (.entry told) fun _ => shown (rest ())
  | .note (.entered ..) rest => shown (rest ())
  | .deliver value rest => .deliver value fun _ => shown (rest ())
  | .resolve kind rest => shown (rest (handlers.resolve? kind))

/-- What goes on with an outcome shows what follows in turn. -/
theorem shown_bind
    (run : Run Outcome)
    (next : Outcome → Run Next) :
    (run.bind next).shown handlers =
      (run.shown handlers).bind fun outcome =>
        (next outcome).shown handlers := by
  induction run with
  | done outcome | failed failure | exhausted =>
      rfl
  | note noted rest inductionHypothesis =>
      cases noted with
      | entry told =>
          simp only [bind, shown, inductionHypothesis]
      | entered type node context =>
          exact inductionHypothesis ()
  | deliver value rest inductionHypothesis =>
      simp only [bind, shown, inductionHypothesis]
  | resolve kind rest inductionHypothesis =>
      exact inductionHypothesis _

/-- The results of a run are those that it shows. -/
theorem shown_gather
    (run : Run Unit) :
    run.gather.shown handlers = (run.shown handlers).gather := by
  unfold gather
  generalize [] = collected
  induction run generalizing collected with
  | done outcome | failed failure | exhausted =>
      rfl
  | note noted rest inductionHypothesis =>
      cases noted with
      | entry told =>
          simp only [gatherOnto, shown, inductionHypothesis]
      | entered type node context =>
          exact inductionHypothesis () collected
  | deliver value rest inductionHypothesis =>
      exact inductionHypothesis () (value :: collected)
  | resolve kind rest inductionHypothesis =>
      exact inductionHypothesis _ collected

/-- The failure of a run is the one that it shows. -/
theorem shown_attempt
    (run : Run Outcome) :
    run.attempt.shown handlers = (run.shown handlers).attempt := by
  induction run with
  | done outcome | failed failure | exhausted =>
      rfl
  | note noted rest inductionHypothesis =>
      cases noted with
      | entry told =>
          simp only [attempt, shown, inductionHypothesis]
      | entered type node context =>
          exact inductionHypothesis ()
  | deliver value rest inductionHypothesis =>
      simp only [attempt, shown, inductionHypothesis]
  | resolve kind rest inductionHypothesis =>
      exact inductionHypothesis _

/-- What a call shows, with what the run that it leaves shows. -/
def shownCall (call : Run (Run Unit)) : Run (Run Unit) :=
  (call.shown handlers).bind fun run => .done (run.shown handlers)

/-- A call and what it leaves show what the call shows. -/
theorem shownCall_bind_id
    (call : Run (Run Unit)) :
    (call.shownCall handlers).bind id =
      (call.bind id).shown handlers := by
  rw [shownCall, bind_bind, shown_bind]
  rfl

/-- What goes before a call is shown before it. -/
theorem shownCall_bind
    (run : Run Outcome)
    (call : Outcome → Run (Run Unit)) :
    (run.bind call).shownCall handlers =
      (run.shown handlers).bind fun outcome =>
        (call outcome).shownCall handlers := by
  simp only [shownCall, shown_bind, bind_bind]

end Run

section Showing

variable
  (handlers others : HandlerMap Handler)
  (tell : LogEntry → Option LogEntry)

/-- The second of two runs, each with its own handlers, shows what the first does, retold. -/
def Congruence.showing : Congruence where
  relates run other :=
    other.shown others = (run.shown handlers).retell tell
  logs value := tell (.logged value) = some (.logged value)
  catches := True
  done _ := rfl
  failed _ := rfl
  exhausted := rfl
  log {value} same := by
    simp only [Run.noting, Run.shown, Run.retell, Note.retell, same,
      Option.map_some]
  entered _ _ := rfl
  delivering _ := rfl
  bind := by
    intro _ _ run other next further same onward
    rw [Run.shown_bind, Run.shown_bind, Run.retell_bind, same]
    congr 1
    funext outcome
    exact onward outcome
  gather := by
    intro run other same
    rw [Run.shown_gather, Run.shown_gather, Run.retell_gather, same]
  attempt := by
    intro _ run other _ same
    rw [Run.shown_attempt, Run.shown_attempt, Run.retell_attempt, same]

/-- The second of two calls shows what the first does, and so does what it leaves. -/
def Run.ShowsCall (call other : Run (Run Unit)) : Prop :=
  other.shownCall others = (call.shownCall handlers).retellCall tell

end Showing

section Calls

variable
  {handlers others : HandlerMap Handler}
  {tell : LogEntry → Option LogEntry}

namespace Run.ShowsCall

variable {call other : Run (Run Unit)}

/-- Runs that show the same may be left to be run. -/
theorem done
    {run further : Run Unit}
    (shows : (Congruence.showing handlers others tell).relates run further) :
    ShowsCall handlers others tell (.done run) (.done further) :=
  congrArg Run.done shows

/-- Calls that show the same may come after runs that do. -/
theorem bind
    {Outcome : Type}
    {run further : Run Outcome}
    {calls otherCalls : Outcome → Run (Run Unit)}
    (shows : (Congruence.showing handlers others tell).relates run further)
    (onward :
      ∀ outcome,
        ShowsCall handlers others tell (calls outcome)
          (otherCalls outcome)) :
    ShowsCall handlers others tell (run.bind calls)
      (further.bind otherCalls) := by
  have sameRun : further.shown others = (run.shown handlers).retell tell :=
    shows
  unfold ShowsCall
  rw [Run.shownCall_bind, Run.shownCall_bind, Run.retellCall_bind, sameRun]
  congr 1
  funext outcome
  exact onward outcome

/-- Calls that show the same give the same when they are run. -/
theorem bind_id
    (shows : ShowsCall handlers others tell call other) :
    (Congruence.showing handlers others tell).relates (call.bind id)
      (other.bind id) := by
  change (other.bind id).shown others =
    ((call.bind id).shown handlers).retell tell
  rw [← Run.shownCall_bind_id, ← Run.shownCall_bind_id,
    ← Run.retellCall_bind_id, shows]

end Run.ShowsCall

variable {services otherServices : Services}

/-- A handler with services that show the same is called to show the same. -/
theorem Handler.call_shows
    (related :
      services.Related (.showing handlers others tell) otherServices)
    {handler : Handler}
    (suits :
      handler.Throughout
        (Action.SuitsTo (.showing handlers others tell)))
    (node : Node)
    (context : Context) :
    Run.ShowsCall handlers others tell
      (handler.call services node context)
      (handler.call otherServices node context) := by
  have body := Handler.body_relates related suits node context
  unfold call
  by_cases eager : handler.eager = true
  · rw [if_pos eager, if_pos eager]
    apply Run.ShowsCall.bind (Congruence.gather _ body)
    intro values
    exact .done (Congruence.deliverAll _ values)
  · rw [if_neg eager, if_neg eager]
    exact .done body

namespace Walker

/-- Under which type a handler is called is not shown. -/
theorem callHandler_shows
    (type otherType : Option NodeType)
    {handler otherHandler : Handler}
    {node : Node}
    {context : Context}
    (shows :
      Run.ShowsCall handlers others tell
        (handler.call services node context)
        (otherHandler.call otherServices node context)) :
    Run.ShowsCall handlers others tell
      (callHandler services type handler node context)
      (callHandler otherServices otherType otherHandler node context) := by
  have notShown :
      (Congruence.showing handlers others tell).relates
        (Run.noting (.entered type node context))
        (Run.noting (.entered otherType node context)) :=
    rfl
  exact Run.ShowsCall.bind notShown fun _ => shows

variable {left right : Walker}

/-- The built-in fallbacks of walkers of one mode are called to show the same. -/
theorem callStructural_shows
    (sameMode : left.mode = right.mode)
    (related :
      services.Related (.showing handlers others tell) otherServices)
    (node : Node)
    (context : Context) :
    Run.ShowsCall handlers others tell
      (left.callStructural services node context)
      (right.callStructural otherServices node context) := by
  unfold callStructural
  rw [← sameMode]
  cases left.mode with
  | visitor =>
      exact .done
        (visitChildren_relates related node context 0 node.children)
  | transformer =>
      apply Run.ShowsCall.bind (rebuild_relates related node context)
      intro rebuilt
      exact .done (Congruence.delivering _ (.node rebuilt))

/-- Fallbacks that are not replaced, or by the same handler, are called to show the same. -/
theorem callGeneric_shows
    (sameMode : left.mode = right.mode)
    (sameFallback : left.fallback = right.fallback)
    (related :
      services.Related (.showing handlers others tell) otherServices)
    (suits :
      ∀ handler,
        left.fallback = some handler →
        handler.Throughout
          (Action.SuitsTo (.showing handlers others tell)))
    (node : Node)
    (context : Context) :
    Run.ShowsCall handlers others tell
      (left.callGeneric services node context)
      (right.callGeneric otherServices node context) := by
  unfold callGeneric
  rw [← sameFallback]
  cases given : left.fallback with
  | none =>
      exact callStructural_shows sameMode related node context
  | some handler =>
      exact callHandler_shows none none
        (Handler.call_shows related (suits handler given) node context)

/-- The call that is made once the handler of a node has been chosen. -/
def callChosen
    (walker : Walker)
    (services : Services)
    (node : Node)
    (context : Context) :
    Option (Registration Handler) → Run (Run Unit)
  | none => walker.callGeneric services node context
  | some registration =>
      (Run.ofExcept (registration.handlerFor node)).bind fun handler =>
        callHandler services (some registration.type) handler node context

/-- A node's handler is chosen, its listener told, and then the call is made. -/
theorem callNode_eq_resolve
    (walker : Walker)
    (services : Services)
    (node : Node)
    (context : Context) :
    walker.callNode services node context =
      .resolve node.kind fun resolved =>
        (notify walker.settings node
            (resolved.map Registration.type)).bind
          fun _ => walker.callChosen services node context resolved := by
  simp only [callNode, Run.asking, Run.bind_eq, Run.bind]
  congr 1

/-- A resolved handler takes the node that it was resolved for. -/
theorem callChosen_of_resolved
    {walker : Walker}
    {node : Node}
    {registration : Registration Handler}
    (found : handlers.resolve? node.kind = some registration)
    (context : Context) :
    walker.callChosen services node context (some registration) =
      callHandler services (some registration.type) registration.handler
        node context := by
  have isBound :
      registration.handlerFor node = .ok registration.handler :=
    if_pos (HandlerMap.includes_of_resolve? found)
  rw [callChosen, isBound]
  rfl

/-- A listener is told of two types in entries that are retold as each other. -/
theorem notify_shows
    (sameListener : left.settings.listener = right.settings.listener)
    (node : Node)
    {type otherType : Option NodeType}
    (dispatched :
      tell (.dispatched node.kind type node.attributes) =
        some (.dispatched node.kind otherType node.attributes))
    (traced :
      tell (.traced node.kind type) =
        some (.traced node.kind otherType)) :
    (Congruence.showing handlers others tell).relates
      (notify left.settings node type)
      (notify right.settings node otherType) := by
  change (notify right.settings node otherType).shown others =
    ((notify left.settings node type).shown handlers).retell tell
  unfold notify
  rw [← sameListener]
  cases left.settings.listener with
  | silent =>
      rfl
  | debugging =>
      simp only [Run.noting, Run.shown, Run.retell, Note.retell, traced,
        Option.map_some]
  | logging rejected =>
      simp only [Run.noting, Run.bind_eq, Run.bind, Run.shown, Run.retell,
        Note.retell, dispatched, Option.map_some]
      by_cases rejects : rejected = some node.kind
      · rw [if_pos rejects]
        rfl
      · rw [if_neg rejects]
        rfl

/-- A node is called to show the same if the choice of its handler does. -/
theorem callNode_shows
    (sameListener : left.settings.listener = right.settings.listener)
    {node : Node}
    {context : Context}
    (dispatched :
      tell
          (.dispatched node.kind
            ((handlers.resolve? node.kind).map Registration.type)
            node.attributes) =
        some
          (.dispatched node.kind
            ((others.resolve? node.kind).map Registration.type)
            node.attributes))
    (traced :
      tell
          (.traced node.kind
            ((handlers.resolve? node.kind).map Registration.type)) =
        some
          (.traced node.kind
            ((others.resolve? node.kind).map Registration.type)))
    (chosen :
      Run.ShowsCall handlers others tell
        (left.callChosen services node context
          (handlers.resolve? node.kind))
        (right.callChosen otherServices node context
          (others.resolve? node.kind))) :
    Run.ShowsCall handlers others tell
      (left.callNode services node context)
      (right.callNode otherServices node context) := by
  have told :
      (Congruence.showing handlers others tell).relates
        (notify left.settings node
          ((handlers.resolve? node.kind).map Registration.type))
        (notify right.settings node
          ((others.resolve? node.kind).map Registration.type)) :=
    notify_shows sameListener node dispatched traced
  rw [callNode_eq_resolve, callNode_eq_resolve]
  exact Run.ShowsCall.bind told fun _ => chosen

/-- What a node gives shows the same if its call does. -/
theorem visitNode_shows
    (sameMode : left.mode = right.mode)
    {node : Node}
    {context : Context}
    (shows :
      Run.ShowsCall handlers others tell
        (left.callNode services node context)
        (right.callNode otherServices node context)) :
    (Congruence.showing handlers others tell).relates
      (left.visitNode services node context)
      (right.visitNode otherServices node context) :=
  visitNode_relates sameMode shows.bind_id

/-- Walkers that are asked for what a node gives show the same if their calls do. -/
theorem openNode_shows
    (sameMode : left.mode = right.mode)
    {node : Node}
    {context : Context}
    (shows :
      Run.ShowsCall handlers others tell
        (left.callNode services node context)
        (right.callNode otherServices node context)) :
    Run.ShowsCall handlers others tell
      (left.openNode services node context)
      (right.openNode otherServices node context) := by
  unfold openNode
  rw [← sameMode]
  cases left.mode with
  | visitor =>
      exact shows
  | transformer =>
      apply Run.ShowsCall.bind (Congruence.gather _ shows.bind_id)
      intro values
      exact .done (Congruence.deliverAll _ values)

end Walker

end Calls

section Histories

variable
  {Outcome Next : Type}
  (handlers others : HandlerMap Handler)
  (tell : LogEntry → Option LogEntry)

/-- A stop with what is shown by the rest of the run. -/
def Stop.shown : Stop → Stop
  | .atResult value rest => .atResult value (rest.shown handlers)
  | .atEnd ending => .atEnd ending

namespace Run

/-- What a run shows has its log and its ending, whatever handlers there are. -/
theorem trace_shown
    (run : Run Outcome) :
    Event.log ((run.shown handlers).trace others).events =
        Event.log (run.trace handlers).events ∧
      ((run.shown handlers).trace others).ending =
        (run.trace handlers).ending := by
  induction run with
  | done outcome | failed failure | exhausted =>
      exact ⟨rfl, rfl⟩
  | note noted rest inductionHypothesis =>
      obtain ⟨sameLog, sameEnding⟩ := inductionHypothesis ()
      cases noted with
      | entry told =>
          exact ⟨congrArg (told :: ·) sameLog, sameEnding⟩
      | entered type node context =>
          exact ⟨sameLog, sameEnding⟩
  | deliver value rest inductionHypothesis =>
      exact inductionHypothesis ()
  | resolve kind rest inductionHypothesis =>
      exact inductionHypothesis _

/-- A retold run has the ending of the run, and its events retold. -/
theorem trace_retell
    (run : Run Outcome) :
    (run.retell tell).trace handlers =
      { run.trace handlers with
        events :=
          (run.trace handlers).events.filterMap (Event.retell tell) } := by
  induction run with
  | done outcome | failed failure | exhausted =>
      rfl
  | note noted rest inductionHypothesis =>
      have onward := inductionHypothesis ()
      simp only [retell, trace, Trace.after]
      cases isTold : noted.retell tell with
      | none =>
          simp only [onward, List.filterMap_cons, Event.retell, isTold,
            Option.map_none]
      | some told =>
          simp only [trace, Trace.after, onward, List.filterMap_cons,
            Event.retell, isTold, Option.map_some]
  | deliver value rest inductionHypothesis =>
      have onward := inductionHypothesis ()
      simp only [retell, trace, Trace.after, onward, List.filterMap_cons,
        Event.retell]
  | resolve kind rest inductionHypothesis =>
      exact inductionHypothesis _

/-- What is computed from an outcome at the end changes the ending only. -/
theorem trace_bind_done
    (run : Run Outcome)
    (change : Outcome → Next) :
    (run.bind fun outcome => .done (change outcome)).trace handlers =
      { events := (run.trace handlers).events
        ending := (run.trace handlers).ending.map change } := by
  rw [trace_bind]
  rcases run.trace handlers with ⟨events, _ | _ | _⟩
  · simp only [Trace.andThen, trace, Ending.map, List.append_nil]
  · rfl
  · rfl

/-- What a run shows comes to the result of the run, with its log. -/
theorem advanceAfter_shown
    {table : HandlerTable Handler}
    (standsFor : table.StandsFor handlers)
    (other : HandlerTable Handler)
    (events otherEvents : List Event)
    (sameLog : Event.log otherEvents.reverse = Event.log events.reverse)
    (run : Run Unit) :
    Event.log ((run.shown handlers).advanceAfter other otherEvents).events =
        Event.log (run.advanceAfter table events).events ∧
      ((run.shown handlers).advanceAfter other otherEvents).halt =
        (run.advanceAfter table events).halt.shown handlers := by
  induction run generalizing table events otherEvents with
  | done outcome | failed failure | exhausted | deliver value rest =>
      exact ⟨sameLog, rfl⟩
  | note noted rest inductionHypothesis =>
      cases noted with
      | entry told =>
          apply inductionHypothesis () standsFor
          simp only [List.reverse_cons, Event.log_append, sameLog]
      | entered type node context =>
          apply inductionHypothesis () standsFor
          simp only [List.reverse_cons, Event.log_append, sameLog]
          exact (List.append_nil _).symm
  | resolve kind rest inductionHypothesis =>
      simp only [shown, advanceAfter, standsFor.resolve_fst kind]
      exact inductionHypothesis _ (standsFor.resolve_snd kind) _ _ sameLog

end Run

end Histories

section Audience

variable
  {handlers others : HandlerMap Handler}
  {tell : LogEntry → Option LogEntry}

/-- Runs that show the same end in the same way, with the log retold. -/
theorem Congruence.trace_of_showing
    {Outcome : Type}
    {run other : Run Outcome}
    (shows : (Congruence.showing handlers others tell).relates run other) :
    Event.log (other.trace others).events =
        (Event.log (run.trace handlers).events).filterMap tell ∧
      (other.trace others).ending = (run.trace handlers).ending := by
  have isRetold : other.shown others = (run.shown handlers).retell tell :=
    shows
  obtain ⟨log, ending⟩ := run.trace_shown handlers others
  obtain ⟨otherLog, otherEnding⟩ := other.trace_shown others others
  rw [isRetold, Run.trace_retell] at otherLog otherEnding
  rw [Event.log_retell, log] at otherLog
  exact ⟨otherLog.symm, otherEnding.symm.trans ending⟩

/-- What calls that show the same leave shows the same, and their logs are retold. -/
theorem Run.ShowsCall.trace
    {call other : Run (Run Unit)}
    (shows : ShowsCall handlers others tell call other) :
    Event.log (other.trace others).events =
        (Event.log (call.trace handlers).events).filterMap tell ∧
      (other.trace others).ending.map (Run.shown others) =
        (call.trace handlers).ending.map fun run =>
          (run.shown handlers).retell tell := by
  obtain ⟨log, ending⟩ := call.trace_shown handlers others
  obtain ⟨otherLog, otherEnding⟩ := other.trace_shown others others
  have traces := congrArg (Run.trace others) shows
  simp only [Run.shownCall, Run.retellCall, Run.trace_bind_done,
    Run.trace_retell, Trace.mk.injEq, otherEnding, ending] at traces
  obtain ⟨sameEvents, sameEnding⟩ := traces
  rw [← otherLog, sameEvents, Event.log_retell, log]
  refine ⟨rfl, sameEnding.trans ?_⟩
  cases (call.trace handlers).ending <;> rfl

/-- Runs that show the same come to the same result, with the log retold. -/
theorem Congruence.advance_of_showing
    {run other : Run Unit}
    (shows : (Congruence.showing handlers others tell).relates run other)
    {table otherTable : HandlerTable Handler}
    (standsFor : table.StandsFor handlers)
    (otherStandsFor : otherTable.StandsFor others) :
    Event.log (other.advance otherTable).events =
        (Event.log (run.advance table).events).filterMap tell ∧
      (other.advance otherTable).halt.shown others =
        ((run.advance table).halt.shown handlers).retell tell := by
  have isRetold : other.shown others = (run.shown handlers).retell tell :=
    shows
  obtain ⟨log, halt⟩ :=
    run.advanceAfter_shown handlers standsFor otherTable [] [] rfl
  obtain ⟨otherLog, otherHalt⟩ :=
    other.advanceAfter_shown others otherStandsFor otherTable [] [] rfl
  have retold :=
    (run.shown handlers).advanceAfter_retell tell otherTable []
  rw [List.filterMap_nil, ← isRetold] at retold
  rw [retold] at otherLog otherHalt
  unfold Run.advance
  rw [← otherLog, ← otherHalt, ← halt, ← log, Event.log_retell]
  exact ⟨rfl, rfl⟩

/-- Whether a caller asks for the fallback by a step. -/
def Step.asksFallback : Step → Bool
  | .generic .. | .startGeneric .. => true
  | .childContext .. | .setHandler .. | .deleteHandler .. | .traverse ..
  | .visitNode .. | .rebuild .. | .start .. | .startNode .. | .next _
  | .rest _ => false

/--
All that callers can ask of one walker, with recursion to a bound, is shown by another,
retold. The fallback is only meant where it may be asked for.
-/
structure Walker.ShownBy
    (handlers others : HandlerMap Handler)
    (tell : LogEntry → Option LogEntry)
    (fallbackAsked : Prop)
    (bound : Nat)
    (left right : Walker) : Prop where
  mode_eq : left.mode = right.mode
  root :
    ∀ keys,
      Context.root left.settings keys = Context.root right.settings keys
  descend :
    ∀ (parent : Node) (index : Number) (context : Context),
      context.descend left.settings parent index =
        context.descend right.settings parent index
  visitNode :
    ∀ node context,
      (Congruence.showing handlers others tell).relates
        ((left.services bound).visitNode node context)
        ((right.services bound).visitNode node context)
  rebuild :
    ∀ node context,
      (Congruence.showing handlers others tell).relates
        ((left.services bound).rebuild node context)
        ((right.services bound).rebuild node context)
  restart :
    ∀ tree keys,
      (Congruence.showing handlers others tell).relates
        ((left.services bound).restart tree keys)
        ((right.services bound).restart tree keys)
  openNode :
    ∀ node context,
      Run.ShowsCall handlers others tell
        (left.openNode (left.services bound) node context)
        (right.openNode (right.services bound) node context)
  generic :
    fallbackAsked →
    ∀ node context,
      (Congruence.showing handlers others tell).relates
        ((left.services bound).generic node context)
        ((right.services bound).generic node context)
  callGeneric :
    fallbackAsked →
    ∀ node context,
      Run.ShowsCall handlers others tell
        (left.callGeneric (left.services bound) node context)
        (right.callGeneric (right.services bound) node context)

namespace Session

/-- Sessions of two walkers, of which the second shows what the first does, retold. -/
structure ShownBy
    (handlers others : HandlerMap Handler)
    (tell : LogEntry → Option LogEntry)
    (leftWalker rightWalker : Walker)
    (left right : Session) : Prop where
  leftWalker_eq : left.walker = leftWalker
  rightWalker_eq : right.walker = rightWalker
  leftTable : left.table.StandsFor handlers
  rightTable : right.table.StandsFor others
  iterators :
    ∀ name,
      Option.Rel (Congruence.showing handlers others tell).relates
        (left.iterator? name) (right.iterator? name)

namespace ShownBy

variable
  {leftWalker rightWalker : Walker}
  {left right : Session}

/-- Walkers that have not been used yet show nothing. -/
theorem create
    (leftWalker rightWalker : Walker) :
    ShownBy handlers others tell leftWalker rightWalker
      (.create leftWalker handlers) (.create rightWalker others) where
  leftWalker_eq := rfl
  rightWalker_eq := rfl
  leftTable := .ofMap _
  rightTable := .ofMap _
  iterators _ := .none

section Same

variable
  (shown :
    ShownBy handlers others tell leftWalker rightWalker left right)

include shown

/-- Tables that stand for the maps may be exchanged. -/
theorem withTables
    {leftTable rightTable : HandlerTable Handler}
    (leftStands : leftTable.StandsFor handlers)
    (rightStands : rightTable.StandsFor others) :
    ShownBy handlers others tell leftWalker rightWalker
      { left with table := leftTable }
      { right with table := rightTable } where
  leftWalker_eq := shown.leftWalker_eq
  rightWalker_eq := shown.rightWalker_eq
  leftTable := leftStands
  rightTable := rightStands
  iterators := shown.iterators

/-- Runs that show the same may be put under one name. -/
theorem withIterator
    (name : String)
    {run other : Run Unit}
    (shows : (Congruence.showing handlers others tell).relates run other) :
    ShownBy handlers others tell leftWalker rightWalker
      (left.withIterator name run) (right.withIterator name other) where
  leftWalker_eq := shown.leftWalker_eq
  rightWalker_eq := shown.rightWalker_eq
  leftTable := shown.leftTable
  rightTable := shown.rightTable
  iterators asked := by
    by_cases same : name = asked
    · subst same
      rw [iterator?_withIterator_self, iterator?_withIterator_self]
      exact .some shows
    · rw [iterator?_withIterator_of_ne _ same,
        iterator?_withIterator_of_ne _ same]
      exact shown.iterators asked

/-- Runs that show the same are answered the same, with the log retold. -/
theorem complete
    {Outcome : Type}
    (reply : Outcome → Reply)
    {run other : Run Outcome}
    (shows : (Congruence.showing handlers others tell).relates run other) :
    (right.complete reply other).1 =
        (left.complete reply run).1.retell tell ∧
      ShownBy handlers others tell leftWalker rightWalker
        (left.complete reply run).2 (right.complete reply other).2 := by
  obtain ⟨leftEvents, leftEnding, leftAfter⟩ :=
    run.complete_eq_trace shown.leftTable
  obtain ⟨rightEvents, rightEnding, rightAfter⟩ :=
    other.complete_eq_trace shown.rightTable
  obtain ⟨log, ending⟩ := Congruence.trace_of_showing shows
  refine ⟨?_, shown.withTables leftAfter rightAfter⟩
  simp only [Session.complete, Answer.retell, History.log, leftEvents,
    leftEnding, rightEvents, rightEnding, log, ending]

/-- Iterators are opened on traversals that show the same, or there are none. -/
theorem openTraversal
    (sameMode : leftWalker.mode = rightWalker.mode)
    (name : String)
    {run other : Run Unit}
    (shows : (Congruence.showing handlers others tell).relates run other) :
    (right.openTraversal name other).1 =
        (left.openTraversal name run).1.retell tell ∧
      ShownBy handlers others tell leftWalker rightWalker
        (left.openTraversal name run).2
        (right.openTraversal name other).2 := by
  unfold Session.openTraversal
  rw [shown.leftWalker_eq, shown.rightWalker_eq, ← sameMode]
  cases leftWalker.mode with
  | visitor =>
      exact ⟨rfl, shown.withIterator name shows⟩
  | transformer =>
      exact ⟨rfl, shown⟩

/-- Iterators are opened on what calls leave that show the same. -/
theorem openIterator
    (name : String)
    {call other : Run (Run Unit)}
    (shows : Run.ShowsCall handlers others tell call other) :
    (right.openIterator name other).1 =
        (left.openIterator name call).1.retell tell ∧
      ShownBy handlers others tell leftWalker rightWalker
        (left.openIterator name call).2
        (right.openIterator name other).2 := by
  obtain ⟨leftEvents, leftEnding, leftAfter⟩ :=
    call.complete_eq_trace shown.leftTable
  obtain ⟨rightEvents, rightEnding, rightAfter⟩ :=
    other.complete_eq_trace shown.rightTable
  obtain ⟨log, endings⟩ := shows.trace
  have afterCall := shown.withTables leftAfter rightAfter
  simp only [Session.openIterator, Answer.retell, History.log, leftEvents,
    leftEnding, rightEvents, rightEnding, log]
  generalize (call.trace handlers).ending = ending at endings ⊢
  generalize (other.trace others).ending = otherEnding at endings ⊢
  cases ending <;> cases otherEnding <;> injection endings
  case finished.finished same =>
    exact ⟨rfl, afterCall.withIterator name same⟩
  case failed.failed same =>
    rw [same]
    exact ⟨rfl, afterCall⟩
  case exhausted.exhausted =>
    exact ⟨rfl, afterCall⟩

/-- The same result is pulled from runs that show the same. -/
theorem pull
    (name : String)
    {run other : Run Unit}
    (shows : (Congruence.showing handlers others tell).relates run other) :
    (right.pull name other).1 = (left.pull name run).1.retell tell ∧
      ShownBy handlers others tell leftWalker rightWalker
        (left.pull name run).2 (right.pull name other).2 := by
  obtain ⟨log, stops⟩ :=
    Congruence.advance_of_showing shows shown.leftTable shown.rightTable
  obtain ⟨_, _, leftAfter, _⟩ :=
    run.advance_eq_of_standsFor shown.leftTable shown.leftTable
  obtain ⟨_, _, rightAfter, _⟩ :=
    other.advance_eq_of_standsFor shown.rightTable shown.rightTable
  have afterPull := shown.withTables leftAfter rightAfter
  simp only [Session.pull, History.log, log]
  generalize (run.advance left.table).halt = halt at stops ⊢
  generalize (other.advance right.table).halt = otherHalt at stops ⊢
  cases halt <;> cases otherHalt <;> injection stops
  case atResult.atResult sameValue same =>
    rw [sameValue]
    exact ⟨rfl, afterPull.withIterator name same⟩
  case atEnd.atEnd sameEnding =>
    have ended :
        (Congruence.showing handlers others tell).relates (.done ())
          (.done ()) :=
      rfl
    rw [sameEnding]
    exact ⟨rfl, afterPull.withIterator name ended⟩

/-- The same results are drained from runs that show the same. -/
theorem drain
    (name : String)
    {run other : Run Unit}
    (shows : (Congruence.showing handlers others tell).relates run other) :
    (right.drain name other).1 = (left.drain name run).1.retell tell ∧
      ShownBy handlers others tell leftWalker rightWalker
        (left.drain name run).2 (right.drain name other).2 := by
  have gathered := (Congruence.showing handlers others tell).gather shows
  have ended :
      (Congruence.showing handlers others tell).relates (.done ())
        (.done ()) :=
    rfl
  obtain ⟨sameAnswer, afterDrain⟩ :=
    shown.complete (fun results => .result (.list results)) gathered
  exact ⟨sameAnswer, afterDrain.withIterator name ended⟩

/-- A step is answered the same, with the log retold. -/
theorem step
    {fallbackAsked : Prop}
    {bound : Nat}
    (walkers :
      leftWalker.ShownBy handlers others tell fallbackAsked bound
        rightWalker)
    {step : Step}
    (asks : step.asksFallback = true → fallbackAsked) :
    (right.step bound step).1 = (left.step bound step).1.retell tell ∧
      ShownBy handlers others tell leftWalker rightWalker
        (left.step bound step).2 (right.step bound step).2 := by
  have leftIs := shown.leftWalker_eq
  have rightIs := shown.rightWalker_eq
  cases step with
  | childContext parent index context =>
      simp only [Session.step, leftIs, rightIs, walkers.descend]
      exact ⟨rfl, shown⟩
  | setHandler | deleteHandler =>
      exact
        ⟨rfl, leftIs, rightIs, shown.leftTable, shown.rightTable,
          shown.iterators⟩
  | traverse tree keys =>
      simp only [Session.step, step.services, leftIs, rightIs]
      exact shown.complete _ (walkers.restart tree keys)
  | visitNode node context =>
      simp only [Session.step, step.services, leftIs, rightIs]
      exact shown.complete _
        (Congruence.gather _ (walkers.visitNode node context))
  | generic node context =>
      simp only [Session.step, step.services, leftIs, rightIs]
      exact shown.complete _
        (Congruence.gather _ (walkers.generic (asks rfl) node context))
  | rebuild node context =>
      simp only [Session.step, step.services, leftIs, rightIs]
      exact shown.complete _ (walkers.rebuild node context)
  | start name tree keys =>
      simp only [Session.step, step.services, leftIs, rightIs,
        ← walkers.root]
      exact shown.openTraversal walkers.mode_eq name
        (walkers.visitNode tree _)
  | startNode name node context =>
      simp only [Session.step, step.services, leftIs, rightIs]
      exact shown.openIterator name (walkers.openNode node context)
  | startGeneric name node context =>
      simp only [Session.step, step.services, leftIs, rightIs]
      exact shown.openIterator name
        (walkers.callGeneric (asks rfl) node context)
  | next name =>
      have runs := shown.iterators name
      simp only [Session.step]
      generalize left.iterator? name = run at runs ⊢
      generalize right.iterator? name = other at runs ⊢
      cases runs with
      | none =>
          exact ⟨rfl, shown⟩
      | some shows =>
          exact shown.pull name shows
  | rest name =>
      have runs := shown.iterators name
      simp only [Session.step]
      generalize left.iterator? name = run at runs ⊢
      generalize right.iterator? name = other at runs ⊢
      cases runs with
      | none =>
          exact ⟨rfl, shown⟩
      | some shows =>
          exact shown.drain name shows

/-- All steps are answered the same, with the logs retold. -/
theorem answers
    {fallbackAsked : Prop}
    {bound : Nat}
    (walkers :
      leftWalker.ShownBy handlers others tell fallbackAsked bound
        rightWalker)
    {steps : List Step}
    (ask :
      ∀ step ∈ steps, step.asksFallback = true → fallbackAsked) :
    right.answers bound steps =
      (left.answers bound steps).map (Answer.retell tell) := by
  induction steps generalizing left right with
  | nil =>
      rfl
  | cons first later inductionHypothesis =>
      obtain ⟨sameAnswer, onward⟩ :=
        shown.step walkers (ask first List.mem_cons_self)
      have further := fun step member =>
        ask step (List.mem_cons_of_mem first member)
      rw [answers_cons, answers_cons, List.map_cons, sameAnswer,
        inductionHypothesis onward further]

end Same

end ShownBy

end Session

end Audience

end QueryWalk
