import QueryWalk.Run.History
import QueryWalk.Walker

namespace QueryWalk

/-!
# Sessions

A caller uses one walker for any number of steps: complete traversals, visits
and rebuilds of single nodes, and iterators that are opened under a name and
then asked for results, in any order. All steps share one handler table.
-/

/-- What a caller can do with a walker. -/
inductive Step where
  | childContext (parent : Node) (index : Number) (context : Context)
  /-- Change the caller's own handler map. -/
  | setHandler (type : NodeType) (handler : Handler)
  /-- Delete an entry of the caller's own handler map. -/
  | deleteHandler (type : NodeType)
  | traverse (tree : Node) (keys : Fields Value)
  | visitNode (node : Node) (context : Context)
  | generic (node : Node) (context : Context)
  | rebuild (node : Node) (context : Context)
  /-- Open an iterator over a traversal, as only a visitor can. -/
  | start (name : String) (tree : Node) (keys : Fields Value)
  /-- Open an iterator over what a node gives. -/
  | startNode (name : String) (node : Node) (context : Context)
  /-- Open an iterator over what the fallback gives. -/
  | startGeneric (name : String) (node : Node) (context : Context)
  /-- Ask an iterator for a result. -/
  | next (name : String)
  /-- Ask an iterator for all results it still has; one not open has none. -/
  | rest (name : String)

/-- What a caller is told by a step. -/
inductive Reply where
  | nothing
  | context (context : Context)
  | result (value : Value)
  /-- The next result of an iterator. -/
  | value (value : Value)
  /-- An iterator has no more results. -/
  | ended
  /-- There is no such iterator. -/
  | unknown
  | refused (failure : Failure)
  | exhausted

/-- The reply to a step, with the log entries made meanwhile. -/
structure Answer where
  log : List LogEntry
  reply : Reply

/-- A walker in use. -/
structure Session where
  walker : Walker
  callerHandlers : HandlerMap Handler
  table : HandlerTable Handler
  /-- The open iterators, the one opened last first. -/
  iterators : List (String × Run Unit)

namespace Reply

/-- The reply that an ending amounts to. -/
def ofEnding
    {Outcome : Type}
    (reply : Outcome → Reply) :
    Ending Outcome → Reply
  | .finished outcome => reply outcome
  | .failed failure => .refused failure
  | .exhausted => .exhausted

end Reply

namespace Session

/-- A walker that has not been used yet, with the caller's handlers. -/
def create
    (walker : Walker)
    (handlers : HandlerMap Handler) :
    Session where
  walker := walker
  callerHandlers := handlers
  table := .ofMap handlers
  iterators := []

/-- The run that an iterator has left. -/
def iterator? (session : Session) (name : String) : Option (Run Unit) :=
  (session.iterators.find? fun entry => entry.1 = name).map Prod.snd

/-- The session with a run under the name of an iterator. -/
def withIterator
    (session : Session)
    (name : String)
    (run : Run Unit) :
    Session :=
  { session with
    iterators :=
      (name, run) :: session.iterators.filter fun entry => entry.1 ≠ name }

@[simp] theorem walker_withIterator
    (session : Session)
    (name : String)
    (run : Run Unit) :
    (session.withIterator name run).walker = session.walker :=
  rfl

@[simp] theorem table_withIterator
    (session : Session)
    (name : String)
    (run : Run Unit) :
    (session.withIterator name run).table = session.table :=
  rfl

/-- The run put under a name is found under it. -/
@[simp] theorem iterator?_withIterator_self
    (session : Session)
    (name : String)
    (run : Run Unit) :
    (session.withIterator name run).iterator? name = some run := by
  simp [iterator?, withIterator]

/-- Putting a run under a name leaves the iterators of other names alone. -/
theorem iterator?_withIterator_of_ne
    (session : Session)
    {name other : String}
    (different : name ≠ other)
    (run : Run Unit) :
    (session.withIterator name run).iterator? other =
      session.iterator? other := by
  simp only [iterator?, withIterator, List.find?_cons, different,
    decide_false, List.find?_filter]
  congr 2
  funext entry
  by_cases same : entry.1 = other
  · simp [same, different.symm]
  · simp [same]

/-- Take a run to its end within a step. -/
def complete
    {Outcome : Type}
    (session : Session)
    (reply : Outcome → Reply)
    (run : Run Outcome) :
    Answer × Session :=
  let history := run.complete session.table
  ({ log := history.log, reply := .ofEnding reply history.halt },
    { session with table := history.table })

/-- Open an iterator on a traversal that is to be run, as only a visitor can. -/
def openTraversal
    (session : Session)
    (name : String)
    (run : Run Unit) :
    Answer × Session :=
  match session.walker.mode with
  | .visitor =>
      ({ log := [], reply := .nothing }, session.withIterator name run)
  | .transformer => ({ log := [], reply := .unknown }, session)

/-- Open an iterator on what a call leaves to be run; a failed call opens none. -/
def openIterator
    (session : Session)
    (name : String)
    (call : Run (Run Unit)) :
    Answer × Session :=
  let history := call.complete session.table
  let session := { session with table := history.table }
  ({ log := history.log
     reply := .ofEnding (fun _ => .nothing) history.halt },
    match history.halt with
    | .finished run => session.withIterator name run
    | .failed _ | .exhausted => session)

/-- Ask a run for its next result; after its end it has no more. -/
def pull
    (session : Session)
    (name : String)
    (run : Run Unit) :
    Answer × Session :=
  let history := run.advance session.table
  let session := { session with table := history.table }
  match history.halt with
  | .atResult value rest =>
      ({ log := history.log, reply := .value value },
        session.withIterator name rest)
  | .atEnd ending =>
      ({ log := history.log
         reply := .ofEnding (fun _ => .ended) ending },
        session.withIterator name (.done ()))

/-- Ask a run for all its results; after that it has no more. -/
def drain
    (session : Session)
    (name : String)
    (run : Run Unit) :
    Answer × Session :=
  let (answer, next) :=
    session.complete (fun results => .result (.list results)) run.gather
  (answer, next.withIterator name (.done ()))

/-- Take one step, with recursion to a bound. -/
def step
    (bound : Nat)
    (session : Session) :
    Step → Answer × Session
  | .childContext parent index context =>
      ({ log := []
         reply :=
          match context.descend session.walker.settings parent index with
          | .ok below => .context below
          | .error failure => .refused failure },
        session)
  | .setHandler type handler =>
      ({ log := [], reply := .nothing },
        { session with
          callerHandlers := session.callerHandlers.set type handler })
  | .deleteHandler type =>
      ({ log := [], reply := .nothing },
        { session with
          callerHandlers := session.callerHandlers.remove type })
  | .traverse tree keys =>
      session.complete .result (services.restart tree keys)
  | .visitNode node context =>
      session.complete (fun results => .result (.list results))
        (services.visitNode node context).gather
  | .generic node context =>
      session.complete (fun results => .result (.list results))
        (services.generic node context).gather
  | .rebuild node context =>
      session.complete (fun rebuilt => .result (.node rebuilt))
        (services.rebuild node context)
  | .start name tree keys =>
      session.openTraversal name
        (services.visitNode tree (.root session.walker.settings keys))
  | .startNode name node context =>
      session.openIterator name
        (session.walker.openNode services node context)
  | .startGeneric name node context =>
      session.openIterator name
        (session.walker.callGeneric services node context)
  | .next name =>
      match session.iterator? name with
      | some run => session.pull name run
      | none => ({ log := [], reply := .unknown }, session)
  | .rest name =>
      match session.iterator? name with
      | some run => session.drain name run
      | none => ({ log := [], reply := .result (.list []) }, session)
where
  services : Services := session.walker.services bound

/-- The answers to a sequence of steps. -/
def answers (bound : Nat) (session : Session) : List Step → List Answer
  | [] => []
  | first :: later =>
      let (answer, next) := session.step bound first
      answer :: next.answers bound later

/-- The session after a sequence of steps. -/
def after (bound : Nat) (session : Session) : List Step → Session
  | [] => session
  | first :: later => (session.step bound first).2.after bound later

@[simp] theorem answers_nil
    (bound : Nat)
    (session : Session) :
    session.answers bound [] = [] :=
  rfl

@[simp] theorem answers_cons
    (bound : Nat)
    (session : Session)
    (first : Step)
    (later : List Step) :
    session.answers bound (first :: later) =
      (session.step bound first).1 ::
        (session.step bound first).2.answers bound later :=
  rfl

/-- Every step is answered. -/
@[simp] theorem length_answers
    (bound : Nat)
    (session : Session)
    (steps : List Step) :
    (session.answers bound steps).length = steps.length := by
  induction steps generalizing session with
  | nil =>
      rfl
  | cons first later inductionHypothesis =>
      simp only [answers_cons, List.length_cons, inductionHypothesis]

/-- Later steps are answered by the session that earlier ones leave. -/
theorem answers_append
    (bound : Nat)
    (session : Session)
    (earlier later : List Step) :
    session.answers bound (earlier ++ later) =
      session.answers bound earlier ++
        (session.after bound earlier).answers bound later := by
  induction earlier generalizing session with
  | nil =>
      rfl
  | cons first rest inductionHypothesis =>
      simp only [List.cons_append, answers_cons, after,
        inductionHypothesis]

end Session

end QueryWalk
