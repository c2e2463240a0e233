import QueryWalk.Dispatch
import QueryWalk.Handler

namespace QueryWalk

/-!
# Runs

A run is a walk that has not been run yet, one step of it visible at a time. It
may make a note, deliver a result, or ask which handler a kind resolves to; what
comes after a step is only computed when the step has been taken. A run ends
with an outcome or a failure, or when the recursion allowed to it is used up.
-/

/-- An entry of a log. -/
inductive LogEntry where
  /-- A listener was told the choice made for a node. -/
  | dispatched
      (kind : NodeKind)
      (type : Option NodeType)
      (attributes : List Attribute)
  /-- The debugging aid wrote out a choice. -/
  | traced (kind : NodeKind) (type : Option NodeType)
  /-- A handler made an entry of its own. -/
  | logged (value : Value)

namespace LogEntry

/-- The line that the debugging aid writes. -/
def traceText (kind : NodeKind) (type : Option NodeType) : String :=
  "[query-tree] " ++ kind.name ++ " -> " ++
    type.elim "generic" NodeType.name

end LogEntry

/-- What a run notes down besides its results. -/
inductive Note where
  | entry (entry : LogEntry)
  /--
  A handler is called, under the type it is registered for; the replaced
  fallback is called under none. Logs do not show this.
  -/
  | entered (type : Option NodeType) (node : Node) (context : Context)

/-- A suspended walk with an outcome of type `Outcome`. -/
inductive Run (Outcome : Type) where
  | done (outcome : Outcome)
  | failed (failure : Failure)
  /-- The recursion allowed to the run is used up. -/
  | exhausted
  | note (note : Note) (rest : Unit → Run Outcome)
  | deliver (value : Value) (rest : Unit → Run Outcome)
  | resolve
      (kind : NodeKind)
      (rest : Option (Registration Handler) → Run Outcome)

namespace Run

variable {Outcome Next : Type}

instance : Inhabited (Run Outcome) := ⟨.exhausted⟩

/-- Go on with the outcome of a run. -/
def bind (next : Outcome → Run Next) : Run Outcome → Run Next
  | .done outcome => next outcome
  | .failed failure => .failed failure
  | .exhausted => .exhausted
  | .note noted rest => .note noted fun _ => bind next (rest ())
  | .deliver value rest => .deliver value fun _ => bind next (rest ())
  | .resolve kind rest =>
      .resolve kind fun registration => bind next (rest registration)

instance : Monad Run where
  pure := .done
  bind run next := run.bind next

/-- An outcome that may be missing for a known reason. -/
def ofExcept : Except Failure Outcome → Run Outcome
  | .ok outcome => .done outcome
  | .error failure => .failed failure

/-- Turn a failure of a run into an outcome. What came before it stays. -/
def attempt : Run Outcome → Run (Except Failure Outcome)
  | .done outcome => .done (.ok outcome)
  | .failed failure => .done (.error failure)
  | .exhausted => .exhausted
  | .note noted rest => .note noted fun _ => attempt (rest ())
  | .deliver value rest => .deliver value fun _ => attempt (rest ())
  | .resolve kind rest =>
      .resolve kind fun registration => attempt (rest registration)

/-- Collect the results of a run, after some collected before, last first. -/
def gatherOnto (collected : List Value) : Run Unit → Run (List Value)
  | .done _ => .done collected.reverse
  | .failed failure => .failed failure
  | .exhausted => .exhausted
  | .note noted rest => .note noted fun _ => gatherOnto collected (rest ())
  | .deliver value rest => gatherOnto (value :: collected) (rest ())
  | .resolve kind rest =>
      .resolve kind fun registration =>
        gatherOnto collected (rest registration)

/-- Collect all results of a run instead of delivering them. -/
def gather (run : Run Unit) : Run (List Value) :=
  run.gatherOnto []

/-- Make one note. -/
def noting (noted : Note) : Run Unit :=
  .note noted fun _ => .done ()

/-- Deliver one result. -/
def delivering (value : Value) : Run Unit :=
  .deliver value fun _ => .done ()

/-- Deliver some results, one by one. -/
def deliverAll : List Value → Run Unit
  | [] => .done ()
  | value :: rest => .deliver value fun _ => deliverAll rest

/-- Ask which handler a kind resolves to. -/
def asking (kind : NodeKind) : Run (Option (Registration Handler)) :=
  .resolve kind .done

/-- The monad's way of going on is `Run.bind`. -/
@[simp] theorem bind_eq
    (run : Run Outcome)
    (next : Outcome → Run Next) :
    run >>= next = run.bind next :=
  rfl

/-- The monad's bare outcome is a run that is done. -/
@[simp] theorem pure_eq
    (outcome : Outcome) :
    (pure outcome : Run Outcome) = .done outcome :=
  rfl

/-- Nothing is added by going on with the outcome itself. -/
@[simp] theorem bind_done
    (run : Run Outcome) :
    run.bind .done = run := by
  induction run with
  | done outcome | failed failure | exhausted =>
      rfl
  | note noted rest inductionHypothesis
  | deliver value rest inductionHypothesis =>
      simp only [bind, inductionHypothesis]
  | resolve kind rest inductionHypothesis =>
      simp only [bind, inductionHypothesis]

/-- Going on twice is going on with both steps at once. -/
theorem bind_bind
    {Last : Type}
    (run : Run Outcome)
    (next : Outcome → Run Next)
    (last : Next → Run Last) :
    (run.bind next).bind last =
      run.bind fun outcome => (next outcome).bind last := by
  induction run with
  | done outcome | failed failure | exhausted =>
      rfl
  | note noted rest inductionHypothesis
  | deliver value rest inductionHypothesis =>
      simp only [bind, inductionHypothesis]
  | resolve kind rest inductionHypothesis =>
      simp only [bind, inductionHypothesis]

instance : LawfulMonad Run :=
  LawfulMonad.mk' Run
    (fun run => bind_done run)
    (fun _ _ => rfl)
    (fun run next last => bind_bind run next last)

/-- What was collected before comes before all results of a run. -/
theorem gatherOnto_eq
    (collected : List Value)
    (run : Run Unit) :
    run.gatherOnto collected =
      run.gather.bind fun results =>
        .done (collected.reverse ++ results) := by
  induction run generalizing collected with
  | done outcome =>
      simp [gather, gatherOnto, bind]
  | failed failure | exhausted =>
      rfl
  | note noted rest inductionHypothesis =>
      have further := inductionHypothesis () collected
      simp only [gather] at further
      simp only [gather, gatherOnto, bind, further]
  | resolve kind rest inductionHypothesis =>
      have further := fun answer =>
        inductionHypothesis answer collected
      simp only [gather] at further
      simp only [gather, gatherOnto, bind, further]
  | deliver value rest inductionHypothesis =>
      simp only [gather, gatherOnto]
      rw [inductionHypothesis () (value :: collected),
        inductionHypothesis () [value], bind_bind]
      simp [bind]

/-- Results delivered from a list are collected into that list. -/
@[simp] theorem gather_deliverAll
    (values : List Value) :
    (deliverAll values).gather = .done values := by
  induction values with
  | nil =>
      rfl
  | cons value rest inductionHypothesis =>
      simp only [deliverAll, gather, gatherOnto]
      rw [gatherOnto_eq, inductionHypothesis]
      simp [bind]

end Run

end QueryWalk
