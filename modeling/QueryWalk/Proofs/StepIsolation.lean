import QueryWalk.Proofs.RunTraces
import QueryWalk.Session

namespace QueryWalk

/-!
# Isolation of the uses of one walker

All steps of a session share a handler table, and its memory fills in an order
that depends on all of them. Nobody can see that. What a step is answered
depends on the walker, on the handlers it was made with, and on the earlier
steps of the same iterator; whatever else was done with the walker might as well
not have happened.
-/

namespace Step

/-- The name of the iterator that a step is about, if it is about one. -/
def iterator? : Step → Option String
  | .start name .. | .startNode name .. | .startGeneric name .. => some name
  | .next name | .rest name => some name
  | .childContext .. | .setHandler .. | .deleteHandler .. | .traverse ..
  | .visitNode .. | .generic .. | .rebuild .. => none

/-- Whether another step is about the iterator that a step is about. -/
def sharesIterator (step other : Step) : Bool :=
  other.iterator?.isSome && decide (other.iterator? = step.iterator?)

end Step

namespace Session

/--
Two sessions in which the same walker, made with the same handlers, has the same
run left under the name of one iterator, if one is given.
-/
structure AgreeOn
    (handlers : HandlerMap Handler)
    (iterator? : Option String)
    (first second : Session) : Prop where
  walker : first.walker = second.walker
  firstTable : first.table.StandsFor handlers
  secondTable : second.table.StandsFor handlers
  iterator :
    ∀ name,
      iterator? = some name →
      first.iterator? name = second.iterator? name

namespace AgreeOn

variable
  {handlers : HandlerMap Handler}
  {iterator? : Option String}
  {first second : Session}

/-- A session agrees with itself while its table stands for the handlers. -/
theorem refl
    {session : Session}
    (standsFor : session.table.StandsFor handlers)
    (iterator? : Option String) :
    AgreeOn handlers iterator? session session where
  walker := rfl
  firstTable := standsFor
  secondTable := standsFor
  iterator _ _ := rfl

/-- Tables that stand for the handlers may be exchanged. -/
theorem withTables
    (agree : AgreeOn handlers iterator? first second)
    {firstTable secondTable : HandlerTable Handler}
    (firstStands : firstTable.StandsFor handlers)
    (secondStands : secondTable.StandsFor handlers) :
    AgreeOn handlers iterator?
      { first with table := firstTable }
      { second with table := secondTable } where
  walker := agree.walker
  firstTable := firstStands
  secondTable := secondStands
  iterator := agree.iterator

/-- Putting one run under one name keeps sessions in agreement. -/
theorem withIterator
    (agree : AgreeOn handlers iterator? first second)
    (name : String)
    (run : Run Unit) :
    AgreeOn handlers iterator?
      (first.withIterator name run)
      (second.withIterator name run) where
  walker := agree.walker
  firstTable := agree.firstTable
  secondTable := agree.secondTable
  iterator other concerned := by
    by_cases same : name = other
    · subst same
      rw [iterator?_withIterator_self, iterator?_withIterator_self]
    · rw [iterator?_withIterator_of_ne _ same,
        iterator?_withIterator_of_ne _ same]
      exact agree.iterator other concerned

/-- Sessions in agreement take a run to the same end. -/
theorem complete
    {Outcome : Type}
    (agree : AgreeOn handlers iterator? first second)
    (reply : Outcome → Reply)
    (run : Run Outcome) :
    (first.complete reply run).1 = (second.complete reply run).1 ∧
      AgreeOn handlers iterator?
        (first.complete reply run).2
        (second.complete reply run).2 := by
  obtain ⟨firstEvents, firstEnding, firstStands⟩ :=
    run.complete_eq_trace agree.firstTable
  obtain ⟨secondEvents, secondEnding, secondStands⟩ :=
    run.complete_eq_trace agree.secondTable
  refine ⟨?_, agree.withTables firstStands secondStands⟩
  simp only [Session.complete, History.log, firstEvents, secondEvents,
    firstEnding, secondEnding]

/-- Sessions in agreement both open an iterator on a traversal, or neither does. -/
theorem openTraversal
    (agree : AgreeOn handlers iterator? first second)
    (name : String)
    (run : Run Unit) :
    (first.openTraversal name run).1 = (second.openTraversal name run).1 ∧
      AgreeOn handlers iterator?
        (first.openTraversal name run).2
        (second.openTraversal name run).2 := by
  unfold Session.openTraversal
  rw [agree.walker]
  cases second.walker.mode with
  | visitor =>
      exact ⟨rfl, agree.withIterator name run⟩
  | transformer =>
      exact ⟨rfl, agree⟩

/-- Sessions in agreement open an iterator on the same run. -/
theorem openIterator
    (agree : AgreeOn handlers iterator? first second)
    (name : String)
    (call : Run (Run Unit)) :
    (first.openIterator name call).1 =
        (second.openIterator name call).1 ∧
      AgreeOn handlers iterator?
        (first.openIterator name call).2
        (second.openIterator name call).2 := by
  obtain ⟨firstEvents, firstEnding, firstStands⟩ :=
    call.complete_eq_trace agree.firstTable
  obtain ⟨secondEvents, secondEnding, secondStands⟩ :=
    call.complete_eq_trace agree.secondTable
  have afterCall := agree.withTables firstStands secondStands
  simp only [Session.openIterator, History.log, firstEvents,
    secondEvents, firstEnding, secondEnding, true_and]
  cases (call.trace handlers).ending with
  | finished run =>
      exact afterCall.withIterator name run
  | failed failure | exhausted =>
      exact afterCall

/-- Sessions in agreement pull the same result from a run. -/
theorem pull
    (agree : AgreeOn handlers iterator? first second)
    (name : String)
    (run : Run Unit) :
    (first.pull name run).1 = (second.pull name run).1 ∧
      AgreeOn handlers iterator?
        (first.pull name run).2
        (second.pull name run).2 := by
  obtain ⟨sameEvents, sameHalt, firstStands, secondStands⟩ :=
    run.advance_eq_of_standsFor agree.firstTable agree.secondTable
  have afterPull := agree.withTables firstStands secondStands
  simp only [Session.pull, History.log, sameEvents, sameHalt]
  cases (run.advance second.table).halt with
  | atResult value rest =>
      exact ⟨rfl, afterPull.withIterator name rest⟩
  | atEnd ending =>
      exact ⟨rfl, afterPull.withIterator name (.done ())⟩

/-- Sessions in agreement drain a run of the same results. -/
theorem drain
    (agree : AgreeOn handlers iterator? first second)
    (name : String)
    (run : Run Unit) :
    (first.drain name run).1 = (second.drain name run).1 ∧
      AgreeOn handlers iterator?
        (first.drain name run).2
        (second.drain name run).2 := by
  obtain ⟨sameAnswer, afterDrain⟩ :=
    agree.complete (fun results => .result (.list results)) run.gather
  exact ⟨sameAnswer, afterDrain.withIterator name (.done ())⟩

/--
Sessions in agreement answer a step alike and stay in agreement, if the step is
about their iterator or about none.
-/
theorem step
    (agree : AgreeOn handlers iterator? first second)
    (bound : Nat)
    (step : Step)
    (concerned :
      ∀ name,
        step.iterator? = some name →
        iterator? = some name) :
    (first.step bound step).1 = (second.step bound step).1 ∧
      AgreeOn handlers iterator?
        (first.step bound step).2
        (second.step bound step).2 := by
  have sameWalker := agree.walker
  cases step with
  | childContext parent index context =>
      simp only [Session.step, sameWalker]
      exact ⟨trivial, agree⟩
  | setHandler | deleteHandler =>
      exact ⟨rfl, agree.walker, agree.firstTable, agree.secondTable,
        agree.iterator⟩
  | traverse tree keys =>
      simp only [Session.step, step.services, sameWalker]
      exact agree.complete _ _
  | visitNode node context =>
      simp only [Session.step, step.services, sameWalker]
      exact agree.complete _ _
  | generic node context =>
      simp only [Session.step, step.services, sameWalker]
      exact agree.complete _ _
  | rebuild node context =>
      simp only [Session.step, step.services, sameWalker]
      exact agree.complete _ _
  | start name tree keys =>
      simp only [Session.step, step.services, sameWalker]
      exact agree.openTraversal name _
  | startNode name node context =>
      simp only [Session.step, step.services, sameWalker]
      exact agree.openIterator name _
  | startGeneric name node context =>
      simp only [Session.step, step.services, sameWalker]
      exact agree.openIterator name _
  | next name =>
      have sameRun := agree.iterator name (concerned name rfl)
      simp only [Session.step, sameRun]
      cases second.iterator? name with
      | none =>
          exact ⟨rfl, agree⟩
      | some run =>
          exact agree.pull name run
  | rest name =>
      have sameRun := agree.iterator name (concerned name rfl)
      simp only [Session.step, sameRun]
      cases second.iterator? name with
      | none =>
          exact ⟨rfl, agree⟩
      | some run =>
          exact agree.drain name run

end AgreeOn

/-- A step leaves alone the iterators that it is not about. -/
theorem iterator?_step
    (bound : Nat)
    (session : Session)
    (step : Step)
    {name : String}
    (unconcerned : step.iterator? ≠ some name) :
    (session.step bound step).2.iterator? name =
      session.iterator? name := by
  have leftAlone :
      ∀ (other : String) (run : Run Unit) (table : HandlerTable Handler),
        step.iterator? = some other →
        (({ session with table := table } : Session).withIterator
            other run).iterator? name =
          session.iterator? name := by
    intro other run table concerned
    have different : other ≠ name := by
      intro same
      exact unconcerned (same ▸ concerned)
    rw [iterator?_withIterator_of_ne _ different]
    rfl
  cases step with
  | childContext | setHandler | deleteHandler | traverse | visitNode
  | generic | rebuild =>
      rfl
  | start other tree keys =>
      simp only [Session.step, openTraversal]
      split
      · exact leftAlone other _ session.table rfl
      · rfl
  | startNode other node context
  | startGeneric other node context =>
      simp only [Session.step, openIterator]
      split
      · exact leftAlone other _ _ rfl
      · rfl
      · rfl
  | next other =>
      simp only [Session.step]
      split
      · simp only [pull]
        split
        · exact leftAlone other _ _ rfl
        · exact leftAlone other _ _ rfl
      · rfl
  | rest other =>
      simp only [Session.step]
      split
      · exact leftAlone other _ _ rfl
      · rfl

/-- A session keeps its walker. -/
theorem walker_step
    (bound : Nat)
    (session : Session)
    (step : Step) :
    (session.step bound step).2.walker = session.walker := by
  cases step with
  | childContext | setHandler | deleteHandler | traverse | visitNode
  | generic | rebuild =>
      rfl
  | start name tree keys =>
      simp only [Session.step, openTraversal]
      split <;> rfl
  | startNode name node context | startGeneric name node context =>
      simp only [Session.step, openIterator]
      split <;> rfl
  | next name =>
      simp only [Session.step]
      split
      · simp only [pull]
        split <;> rfl
      · rfl
  | rest name =>
      simp only [Session.step]
      split <;> rfl

/-- The table of a session goes on standing for the same handlers. -/
theorem table_step
    {handlers : HandlerMap Handler}
    (bound : Nat)
    {session : Session}
    (standsFor : session.table.StandsFor handlers)
    (step : Step) :
    (session.step bound step).2.table.StandsFor handlers :=
  ((AgreeOn.refl standsFor step.iterator?).step bound step
    (fun _ concerned => concerned)).2.firstTable

namespace AgreeOn

variable
  {handlers : HandlerMap Handler}
  {first second : Session}

/-- A step about another iterator keeps sessions in agreement. -/
theorem step_left
    {iterator? : Option String}
    (agree : AgreeOn handlers iterator? first second)
    (bound : Nat)
    {step : Step}
    (unconcerned :
      ∀ name,
        iterator? = some name →
        step.iterator? ≠ some name) :
    AgreeOn handlers iterator? (first.step bound step).2 second where
  walker := (walker_step bound first step).trans agree.walker
  firstTable := table_step bound agree.firstTable step
  secondTable := agree.secondTable
  iterator name concerned :=
    (iterator?_step bound first step (unconcerned name concerned)).trans
      (agree.iterator name concerned)

/--
Sessions stay in agreement on the iterator of a step when the second takes only
those steps that are about it.
-/
theorem after_filter
    (bound : Nat)
    (step : Step)
    (earlier : List Step)
    (agree : AgreeOn handlers step.iterator? first second) :
    AgreeOn handlers step.iterator?
      (first.after bound earlier)
      (second.after bound (earlier.filter step.sharesIterator)) := by
  induction earlier generalizing first second with
  | nil =>
      exact agree
  | cons other rest inductionHypothesis =>
      cases shared : step.sharesIterator other with
      | true =>
          obtain ⟨-, same⟩ := Bool.and_eq_true_iff.mp shared
          rw [List.filter_cons_of_pos shared]
          apply inductionHypothesis
          exact (agree.step bound other fun name concerned =>
            (of_decide_eq_true same).symm.trans concerned).2
      | false =>
          rw [List.filter_cons_of_neg (by simp [shared])]
          apply inductionHypothesis
          apply agree.step_left bound
          intro name concerned about
          simp [Step.sharesIterator, concerned, about] at shared

end AgreeOn

/--
The uses of one walker do not influence each other. Whatever steps come before
and after it, a step gets the answer, log and reply, that it gets from a fresh
walker with the same handlers which has taken only those earlier steps that are
about the same iterator.
-/
theorem answer_depends_on_own_steps
    (walker : Walker)
    (handlers : HandlerMap Handler)
    (bound : Nat)
    (earlier : List Step)
    (step : Step)
    (later : List Step) :
    ∃ answer,
      ((create walker handlers).answers bound
          (earlier ++ step :: later))[earlier.length]? =
        some answer ∧
      ((create walker handlers).answers bound
          (earlier.filter step.sharesIterator ++ [step])).getLast? =
        some answer := by
  have fresh :
      AgreeOn handlers step.iterator?
        (create walker handlers)
        (create walker handlers) :=
    .refl (.ofMap handlers) _
  have agree := fresh.after_filter bound step earlier
  obtain ⟨sameAnswer, -⟩ :=
    agree.step bound step fun _ concerned => concerned
  refine
    ⟨(((create walker handlers).after bound earlier).step bound step).1,
      ?_, ?_⟩
  · rw [answers_append, answers_cons,
      List.getElem?_append_right (by simp)]
    simp
  · rw [answers_append, answers_cons, sameAnswer]
    simp

end Session

end QueryWalk
