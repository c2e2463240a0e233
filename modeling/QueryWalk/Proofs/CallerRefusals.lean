import QueryWalk.Proofs.HandlerInvocation
import QueryWalk.Proofs.StepIsolation

namespace QueryWalk

/-!
# What callers are refused

What an invariant of calls promises of all failures that a walk meets is promised of what
callers are told. A step that is refused at once is refused for such a failure, and so is
one that takes an iterator to its end, since what an iterator has left to be run goes on
keeping the promise.
-/

namespace Run

variable
  {handlers : HandlerMap Handler}
  {promise : Promise}

/-- A run that is taken to its next result has the promise kept by its rest. -/
theorem Ensures.of_advance
    {run : Run Unit}
    (ensures : run.Ensures handlers promise fun _ => True)
    {table : HandlerTable Handler}
    (standsFor : table.StandsFor handlers) :
    match (run.advance table).halt with
    | .atResult _ rest => rest.Ensures handlers promise fun _ => True
    | .atEnd (.failed failure) => promise.failure failure
    | .atEnd (.finished _) | .atEnd .exhausted => True := by
  unfold advance
  generalize [] = events
  induction run generalizing table events with
  | done outcome | exhausted =>
      trivial
  | failed failure | deliver value rest =>
      exact ensures
  | note noted rest inductionHypothesis =>
      exact inductionHypothesis () ensures.2 standsFor _
  | resolve kind rest inductionHypothesis =>
      simp only [advanceAfter, standsFor.resolve_fst kind]
      exact inductionHypothesis _ ensures (standsFor.resolve_snd kind) _

end Run

/-- What a caller is refused for is as promised. -/
def Reply.Promised (promise : Promise) : Reply → Prop
  | .refused failure => promise.failure failure
  | .nothing | .context _ | .result _ | .value _ | .ended | .unknown
  | .exhausted => True

/-- The call that a walker is asked for by a step, if it is asked for one. -/
def Step.call? (settings : Settings) : Step → Option Call
  | .traverse tree keys => some (.traversal settings tree keys)
  | .visitNode node context | .startNode _ node context =>
      some { service := .visitNode, node := node, context := context }
  | .generic node context | .startGeneric _ node context =>
      some { service := .generic, node := node, context := context }
  | .rebuild node context =>
      some { service := .rebuild, node := node, context := context }
  | .start _ tree keys =>
      some
        { service := .visitNode
          node := tree
          context := .root settings keys }
  | .childContext .. | .setHandler .. | .deleteHandler .. | .next _
  | .rest _ => none

/-- The call that a step asks for is permitted, and so is what it is refused for at once. -/
structure Step.IsCovered
    (settings : Settings)
    (permitted : Call → Prop)
    (promise : Promise)
    (step : Step) : Prop where
  permits : ∀ call, step.call? settings = some call → permitted call
  refused :
    ∀ parent index context failure,
      step = .childContext parent index context →
      context.descend settings parent index = .error failure →
      promise.failure failure

namespace Session

/-- A session whose iterators have kept promises left to be run. -/
structure Keeps
    (walker : Walker)
    (handlers : HandlerMap Handler)
    (promise : Promise)
    (session : Session) : Prop where
  walker_eq : session.walker = walker
  table : session.table.StandsFor handlers
  iterators :
    ∀ name run,
      session.iterator? name = some run →
      run.Ensures handlers promise fun _ => True

namespace Keeps

variable
  {walker : Walker}
  {handlers : HandlerMap Handler}
  {promise : Promise}
  {session : Session}

/-- A walker that has not been used yet has nothing left to be run. -/
theorem create
    (walker : Walker)
    (handlers : HandlerMap Handler)
    (promise : Promise) :
    (Session.create walker handlers).Keeps walker handlers promise where
  walker_eq := rfl
  table := .ofMap handlers
  iterators _ _ := nofun

section Same

variable (keeps : session.Keeps walker handlers promise)

include keeps

/-- Another table that stands for the map may be used. -/
theorem withTable
    {table : HandlerTable Handler}
    (standsFor : table.StandsFor handlers) :
    ({ session with table := table } : Session).Keeps walker handlers
      promise where
  walker_eq := keeps.walker_eq
  table := standsFor
  iterators := keeps.iterators

/-- A run that keeps the promise may be put under a name. -/
theorem withIterator
    (name : String)
    (run : Run Unit)
    (ensures : run.Ensures handlers promise fun _ => True) :
    (session.withIterator name run).Keeps walker handlers promise where
  walker_eq := keeps.walker_eq
  table := keeps.table
  iterators asked left found := by
    by_cases same : name = asked
    · subst same
      rw [iterator?_withIterator_self] at found
      cases found
      exact ensures
    · rw [iterator?_withIterator_of_ne _ same] at found
      exact keeps.iterators asked left found

/-- A run that keeps the promise is answered by it. -/
theorem complete
    {Outcome : Type}
    {onOutcome : Outcome → Prop}
    (reply : Outcome → Reply)
    (replies : ∀ outcome, (reply outcome).Promised promise)
    {run : Run Outcome}
    (ensures : run.Ensures handlers promise onOutcome) :
    (session.complete reply run).1.reply.Promised promise ∧
      (session.complete reply run).2.Keeps walker handlers promise := by
  obtain ⟨_, sameEnding, after⟩ := run.complete_eq_trace keeps.table
  have ends := ensures.of_ending
  refine ⟨?_, keeps.withTable after⟩
  simp only [Session.complete, sameEnding]
  generalize (run.trace handlers).ending = ending at ends ⊢
  cases ending with
  | finished outcome =>
      exact replies outcome
  | failed failure =>
      exact ends
  | exhausted =>
      trivial

/-- An iterator is opened on a traversal, or there is none. -/
theorem openTraversal
    (name : String)
    {run : Run Unit}
    (ensures : run.Ensures handlers promise fun _ => True) :
    (session.openTraversal name run).1.reply.Promised promise ∧
      (session.openTraversal name run).2.Keeps walker handlers promise := by
  unfold Session.openTraversal
  split
  · exact ⟨trivial, keeps.withIterator name run ensures⟩
  · exact ⟨trivial, keeps⟩

/-- An iterator is opened on what a call leaves, or its failure is answered. -/
theorem openIterator
    (name : String)
    {call : Run (Run Unit)}
    (ensures :
      call.Ensures handlers promise fun run =>
        run.Ensures handlers promise fun _ => True) :
    (session.openIterator name call).1.reply.Promised promise ∧
      (session.openIterator name call).2.Keeps walker handlers promise := by
  obtain ⟨_, sameEnding, after⟩ := call.complete_eq_trace keeps.table
  have ends := ensures.of_ending
  have afterCall := keeps.withTable after
  simp only [Session.openIterator, sameEnding]
  generalize (call.trace handlers).ending = ending at ends ⊢
  cases ending with
  | finished run =>
      exact ⟨trivial, afterCall.withIterator name run ends⟩
  | failed failure =>
      exact ⟨ends, afterCall⟩
  | exhausted =>
      exact ⟨trivial, afterCall⟩

/-- A result is pulled, or the failure that the run ends in is answered. -/
theorem pull
    (name : String)
    {run : Run Unit}
    (ensures : run.Ensures handlers promise fun _ => True) :
    (session.pull name run).1.reply.Promised promise ∧
      (session.pull name run).2.Keeps walker handlers promise := by
  obtain ⟨_, _, after, _⟩ :=
    run.advance_eq_of_standsFor keeps.table keeps.table
  have stops := ensures.of_advance keeps.table
  have afterPull := keeps.withTable after
  simp only [Session.pull]
  generalize (run.advance session.table).halt = halt at stops ⊢
  cases halt with
  | atResult value rest =>
      exact ⟨trivial, afterPull.withIterator name rest stops⟩
  | atEnd ending =>
      have atEnd := afterPull.withIterator name (.done ()) trivial
      cases ending with
      | finished | exhausted =>
          exact ⟨trivial, atEnd⟩
      | failed failure =>
          exact ⟨stops, atEnd⟩

/-- All results are drained, or the failure that the run ends in is answered. -/
theorem drain
    (name : String)
    {run : Run Unit}
    (ensures : run.Ensures handlers promise fun _ => True) :
    (session.drain name run).1.reply.Promised promise ∧
      (session.drain name run).2.Keeps walker handlers promise := by
  obtain ⟨promised, afterDrain⟩ :=
    keeps.complete (fun results => .result (.list results))
      (fun _ => trivial) ensures.gather
  exact ⟨promised, afterDrain.withIterator name (.done ()) trivial⟩

variable
  {permitted : Call → Prop}
  (invariant : CallInvariant walker handlers permitted promise)

include invariant

/-- A step that is covered is answered as promised. -/
theorem step
    (bound : Nat)
    {step : Step}
    (covered : step.IsCovered walker.settings permitted promise) :
    (session.step bound step).1.reply.Promised promise ∧
      (session.step bound step).2.Keeps walker handlers promise := by
  have isWalker := keeps.walker_eq
  have follow := Walker.services_follow invariant bound
  obtain ⟨permits, refused⟩ := covered
  cases step with
  | childContext parent index context =>
      simp only [Session.step, isWalker]
      refine ⟨?_, keeps⟩
      cases made : context.descend walker.settings parent index with
      | ok below =>
          trivial
      | error failure =>
          exact refused _ _ _ _ rfl made
  | setHandler | deleteHandler =>
      exact ⟨trivial, isWalker, keeps.table, keeps.iterators⟩
  | traverse tree keys =>
      simp only [Session.step, step.services, isWalker]
      apply keeps.complete .result fun _ => trivial
      apply follow.restart
      rw [Walker.settings_services]
      exact permits _ rfl
  | visitNode node context =>
      simp only [Session.step, step.services, isWalker]
      exact keeps.complete (fun results => .result (.list results))
        (fun _ => trivial) (follow.visitNode (permits _ rfl)).gather
  | generic node context =>
      simp only [Session.step, step.services, isWalker]
      exact keeps.complete (fun results => .result (.list results))
        (fun _ => trivial) (follow.generic (permits _ rfl)).gather
  | rebuild node context =>
      simp only [Session.step, step.services, isWalker]
      exact keeps.complete (fun rebuilt => .result (.node rebuilt))
        (fun _ => trivial) (follow.rebuild (permits _ rfl))
  | start name tree keys =>
      simp only [Session.step, step.services, isWalker]
      exact keeps.openTraversal name (follow.visitNode (permits _ rfl))
  | startNode name node context =>
      simp only [Session.step, step.services, isWalker]
      exact keeps.openIterator name
        (Walker.openNode_ensures invariant follow (permits _ rfl))
  | startGeneric name node context =>
      simp only [Session.step, step.services, isWalker]
      exact keeps.openIterator name
        (Walker.callGeneric_ensures invariant follow (permits _ rfl))
  | next name =>
      simp only [Session.step]
      cases found : session.iterator? name with
      | none =>
          exact ⟨trivial, keeps⟩
      | some run =>
          exact keeps.pull name (keeps.iterators name run found)
  | rest name =>
      simp only [Session.step]
      cases found : session.iterator? name with
      | none =>
          exact ⟨trivial, keeps⟩
      | some run =>
          exact keeps.drain name (keeps.iterators name run found)

/-- Steps that are covered are answered as promised. -/
theorem answers
    (bound : Nat)
    {steps : List Step}
    (covered :
      ∀ step ∈ steps,
        step.IsCovered walker.settings permitted promise) :
    ∀ answer ∈ session.answers bound steps,
      answer.reply.Promised promise := by
  induction steps generalizing session with
  | nil =>
      exact fun _ member => nomatch member
  | cons first later inductionHypothesis =>
      obtain ⟨promised, onward⟩ :=
        keeps.step invariant bound (covered first List.mem_cons_self)
      intro answer member
      rcases List.mem_cons.mp member with isFirst | isLater
      · rw [isFirst]
        exact promised
      · exact inductionHypothesis onward
          (fun step isStep =>
            covered step (List.mem_cons_of_mem first isStep))
          answer isLater

end Same

end Keeps

end Session

end QueryWalk
