import QueryWalk.Proofs.RunCongruence

namespace QueryWalk

/-!
# Runs with less recursion

A run approximates another if it does the same, step by step, until its recursion
is used up. What a run is made of may be replaced by approximations, and then the
whole approximates the former whole. So a handler that comes to its end without
the services of a walk does the same with them.
-/

namespace Run

variable {Outcome Next : Type}

/-- One run does the same as another, as far as its recursion goes. -/
inductive Approximates : Run Outcome → Run Outcome → Prop where
  | exhausted (run : Run Outcome) :
      Approximates .exhausted run
  | done (outcome : Outcome) :
      Approximates (.done outcome) (.done outcome)
  | failed (failure : Failure) :
      Approximates (.failed failure) (.failed failure)
  | note
      (noted : Note)
      {rest further : Unit → Run Outcome}
      (onward : Approximates (rest ()) (further ())) :
      Approximates (.note noted rest) (.note noted further)
  | deliver
      (value : Value)
      {rest further : Unit → Run Outcome}
      (onward : Approximates (rest ()) (further ())) :
      Approximates (.deliver value rest) (.deliver value further)
  | resolve
      (kind : NodeKind)
      {rest further : Option (Registration Handler) → Run Outcome}
      (onward : ∀ answer, Approximates (rest answer) (further answer)) :
      Approximates (.resolve kind rest) (.resolve kind further)

namespace Approximates

variable {run exact : Run Outcome}

/-- A run approximates itself. -/
theorem refl
    (run : Run Outcome) :
    run.Approximates run := by
  induction run with
  | done outcome =>
      exact .done outcome
  | failed failure =>
      exact .failed failure
  | exhausted =>
      exact .exhausted _
  | note noted rest inductionHypothesis =>
      exact .note noted (inductionHypothesis ())
  | deliver value rest inductionHypothesis =>
      exact .deliver value (inductionHypothesis ())
  | resolve kind rest inductionHypothesis =>
      exact .resolve kind inductionHypothesis

/-- Going on from an approximation with approximations. -/
theorem bind
    {next exactNext : Outcome → Run Next}
    (approximates : run.Approximates exact)
    (onward :
      ∀ outcome, (next outcome).Approximates (exactNext outcome)) :
    (run.bind next).Approximates (exact.bind exactNext) := by
  induction approximates with
  | exhausted =>
      exact .exhausted _
  | done outcome =>
      exact onward outcome
  | failed failure =>
      exact .failed failure
  | note noted _ inductionHypothesis =>
      exact .note noted inductionHypothesis
  | deliver value _ inductionHypothesis =>
      exact .deliver value inductionHypothesis
  | resolve kind _ inductionHypothesis =>
      exact .resolve kind inductionHypothesis

/-- Failures are caught in the same places. -/
theorem attempt
    (approximates : run.Approximates exact) :
    run.attempt.Approximates exact.attempt := by
  induction approximates with
  | exhausted =>
      exact .exhausted _
  | done outcome =>
      exact .done _
  | failed failure =>
      exact .done _
  | note noted _ inductionHypothesis =>
      exact .note noted inductionHypothesis
  | deliver value _ inductionHypothesis =>
      exact .deliver value inductionHypothesis
  | resolve kind _ inductionHypothesis =>
      exact .resolve kind inductionHypothesis

/-- Results are collected in the same places. -/
theorem gather
    {run exact : Run Unit}
    (approximates : run.Approximates exact) :
    run.gather.Approximates exact.gather := by
  unfold Run.gather
  generalize [] = collected
  induction approximates generalizing collected with
  | exhausted =>
      exact .exhausted _
  | done outcome =>
      exact .done _
  | failed failure =>
      exact .failed failure
  | note noted _ inductionHypothesis =>
      exact .note noted (inductionHypothesis collected)
  | deliver value _ inductionHypothesis =>
      exact inductionHypothesis (value :: collected)
  | resolve kind _ inductionHypothesis =>
      exact .resolve kind fun answer => inductionHypothesis answer collected

/-- A run that comes to its end shows what every run shows that it approximates. -/
theorem trace_eq
    {handlers : HandlerMap Handler}
    {outcome : Outcome}
    (approximates : run.Approximates exact)
    (ended : (run.trace handlers).ending = .finished outcome) :
    exact.trace handlers = run.trace handlers := by
  induction approximates with
  | exhausted =>
      cases ended
  | done | failed =>
      rfl
  | note noted _ inductionHypothesis =>
      exact congrArg (Trace.after (.noted noted)) (inductionHypothesis ended)
  | deliver value _ inductionHypothesis =>
      exact
        congrArg (Trace.after (.delivered value)) (inductionHypothesis ended)
  | resolve kind _ inductionHypothesis =>
      exact inductionHypothesis _ ended

/-- What a run yields to its end, every run that it approximates yields. -/
theorem yields
    {handlers : HandlerMap Handler}
    {values : List Value}
    {outcome : Outcome}
    (approximates : run.Approximates exact)
    (yielded : run.Yields handlers values (.finished outcome)) :
    exact.Yields handlers values (.finished outcome) := by
  have sameTrace := approximates.trace_eq yielded.ending
  constructor <;> rw [sameTrace]
  · exact yielded.results
  · exact yielded.ending

end Approximates

end Run

namespace Services

/-- Every service approximates the same service of others. -/
structure Approximate (services exact : Services) : Prop where
  settings : services.settings = exact.settings
  visitNode :
    ∀ node context,
      (services.visitNode node context).Approximates
        (exact.visitNode node context)
  generic :
    ∀ node context,
      (services.generic node context).Approximates
        (exact.generic node context)
  structural :
    ∀ node context,
      (services.structural node context).Approximates
        (exact.structural node context)
  rebuild :
    ∀ node context,
      (services.rebuild node context).Approximates
        (exact.rebuild node context)
  restart :
    ∀ tree keys,
      (services.restart tree keys).Approximates
        (exact.restart tree keys)

/-- No services at all approximate all services of the same settings. -/
theorem exhausted_approximate
    (services : Services) :
    (Services.exhausted services.settings).Approximate services where
  settings := rfl
  visitNode _ _ := .exhausted _
  generic _ _ := .exhausted _
  structural _ _ := .exhausted _
  rebuild _ _ := .exhausted _
  restart _ _ := .exhausted _

end Services

/-- Runs of which the first approximates the second. -/
def Congruence.approximating : Congruence where
  relates := Run.Approximates
  logs _ := True
  catches := True
  done := .done
  failed := .failed
  exhausted := .exhausted _
  log _ := .refl _
  entered _ _ := .refl _
  delivering _ := .refl _
  bind := .bind
  gather := .gather
  attempt _ := .attempt

/-- Approximate services are related. -/
theorem Services.Approximate.related
    {services exact : Services}
    (approximate : services.Approximate exact) :
    services.Related .approximating exact where
  descend parent index context := by
    rw [approximate.settings]
  visitNode := approximate.visitNode
  generic := approximate.generic
  structural := approximate.structural
  rebuild := approximate.rebuild
  restart := approximate.restart

namespace Handler

/-- A handler with approximate services approximates the handler. -/
theorem body_approximates
    {services exact : Services}
    (approximate : services.Approximate exact)
    (handler : Handler)
    (node : Node)
    (context : Context) :
    (handler.body services node context).Approximates
      (handler.body exact node context) :=
  Handler.body_relates approximate.related
    (handler.suits (fun _ => trivial) trivial) node context

/--
A handler gives some values for a node in a context by itself: run without the
services of a walk, it delivers them and ends. So it neither fails nor calls back
into the walk.
-/
def Gives
    (handler : Handler)
    (handlers : HandlerMap Handler)
    (settings : Settings)
    (node : Node)
    (context : Context)
    (values : List Value) :
    Prop :=
  (handler.body (.exhausted settings) node context).Yields handlers values
    (.finished ())

/-- What a handler gives by itself it gives in every walk. -/
theorem Gives.yields
    {handler : Handler}
    {handlers : HandlerMap Handler}
    {services : Services}
    {node : Node}
    {context : Context}
    {values : List Value}
    (gives :
      handler.Gives handlers services.settings node context values) :
    (handler.body services node context).Yields handlers values
      (.finished ()) :=
  (handler.body_approximates services.exhausted_approximate node
    context).yields gives

end Handler

end QueryWalk
