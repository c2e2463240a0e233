import QueryWalk.Proofs.RunCongruence
import QueryWalk.Proofs.RunYields

namespace QueryWalk

/-!
# The machine that runs a handler

The actions of a handler are run by a machine. It stands before some actions, in a
scope, with what is to be done after them around it, and a step enters an action, does
one, or leaves some that are done. An action that fails brings it to the nearest rescue.
What the machine does on the way to a point comes before all that the handler gives from
there on.
-/

namespace Trace

variable {Outcome : Type}

/-- A trace with some events before it. -/
def afterAll
    (events : List Event)
    (trace : Trace Outcome) :
    Trace Outcome where
  events := events ++ trace.events
  ending := trace.ending

/-- Events before events before a trace are events before it. -/
theorem afterAll_afterAll
    (earlier events : List Event)
    (trace : Trace Outcome) :
    (trace.afterAll events).afterAll earlier =
      trace.afterAll (earlier ++ events) := by
  simp only [afterAll, List.append_assoc]

end Trace

namespace Ending

/-- How some actions ended whose work started in a scope. -/
def performed (scope : Scope) : Ending Scope → Ending Finish
  | .finished after => .finished { scope := after, failure := none }
  | .failed failure =>
      .finished { scope := scope, failure := some failure }
  | .exhausted => .exhausted

end Ending

namespace Finish

/-- Doing some work shows the work, and a failure leaves the scope alone. -/
theorem trace_perform
    (handlers : HandlerMap Handler)
    (scope : Scope)
    (work : Run Scope) :
    (perform scope work).trace handlers =
      { events := (work.trace handlers).events
        ending := (work.trace handlers).ending.performed scope } := by
  rw [perform, Run.trace_bind, Run.trace_attempt]
  rcases work.trace handlers with ⟨events, after | failure | _⟩ <;>
    simp [Ending.attempted, Trace.andThen, Run.trace, Ending.performed]

theorem perform_yields
    {handlers : HandlerMap Handler}
    (scope : Scope)
    {work : Run Scope}
    {values : List Value}
    {ending : Ending Scope}
    (yields : work.Yields handlers values ending) :
    (perform scope work).Yields handlers values
      (ending.performed scope) := by
  obtain ⟨rfl, rfl⟩ := yields
  constructor <;> rw [trace_perform]

/-- Start the handling, if there is one, for the failure that ended some actions. -/
def rescue
    (services : Services)
    (handling : Option (List Action))
    (finish : Finish) :
    Run Finish :=
  match finish.failure, handling with
  | some failure, some actions =>
      Action.runAll services
        { finish.scope with error := .data failure.toData }
        actions
  | _, _ => .done finish

end Finish

/-- What stands around some actions of a handler. -/
structure Frame where
  /-- The actions that come after them. -/
  later : List Action
  /-- What is done when they fail, if they are rescued. -/
  handling : Option (List Action)

namespace Frame

/-- Go on around some actions that ended. -/
def leave
    (services : Services)
    (frame : Frame)
    (finish : Finish) :
    Run Finish :=
  (finish.rescue services frame.handling).bind fun rescued =>
    rescued.andThen fun after => Action.runAll services after frame.later

/-- What a handler goes on to give when the innermost of its actions ended. -/
def resume (services : Services) : List Frame → Finish → Run Unit
  | [], finish => finish.settle.bind fun _ => .done ()
  | frame :: outer, finish =>
      (frame.leave services finish).bind (resume services outer)

/-- Going on around some actions is to rescue them and do what comes after them. -/
theorem resume_cons
    (services : Services)
    (frame : Frame)
    (outer : List Frame) :
    resume services (frame :: outer) =
      fun finish =>
        (finish.rescue services frame.handling).bind fun rescued =>
          (rescued.andThen fun after =>
            Action.runAll services after frame.later).bind
              (resume services outer) := by
  funext finish
  rw [resume, leave, Run.bind_bind]

/--
The nearest handling around some actions, the actions that come after it and what
stands around those.
-/
def rescuer? :
    List Frame →
    Option (List Action × List Action × List Frame)
  | [] => none
  | frame :: outer =>
      match frame.handling with
      | some handling => some (handling, frame.later, outer)
      | none => rescuer? outer

end Frame

namespace Action

/-- The actions that an action consists of in a scope, and how they are rescued. -/
def parts?
    (scope : Scope) :
    Action → Option (List Action × Option (List Action))
  | .choose condition consequence alternative =>
      match condition.eval scope with
      | .ok true => some (consequence, none)
      | .ok false => some (alternative, none)
      | .error _ => none
  | .rescue body handling => some (body, some handling)
  | _ => none

/-- An action is run by running what it consists of. -/
theorem run_of_parts?
    (services : Services)
    {scope : Scope}
    {action : Action}
    {parts : List Action}
    {handling : Option (List Action)}
    (consists : action.parts? scope = some (parts, handling)) :
    action.run services scope =
      (runAll services scope parts).bind
        (Finish.rescue services handling) := by
  cases action with
  | choose condition consequence alternative =>
      have unrescued :
          Finish.rescue services none = Run.done := by
        funext finish
        rcases finish with ⟨after, _ | failure⟩ <;> rfl
      simp only [parts?] at consists
      rw [run]
      split at consists <;> cases consists
      · simp only [*, Run.bind_done]
      · simp only [*, Run.bind_done]
  | rescue body handled =>
      cases consists
      rw [run]
      congr 1
      funext finish
      rcases finish with ⟨after, _ | failure⟩ <;> rfl
  | _ =>
      cases consists

/-- Any other action does some work. -/
theorem performs_of_simple
    (services : Services)
    {scope : Scope}
    {action : Action}
    (simple : action.parts? scope = none) :
    ∃ work, action.run services scope = Finish.perform scope work := by
  cases action with
  | choose condition consequence alternative =>
      simp only [parts?] at simple
      split at simple
      · cases simple
      · cases simple
      · next failure fails =>
          refine ⟨.failed failure, ?_⟩
          rw [run, fails]
          rfl
  | rescue body handling =>
      cases simple
  | _ =>
      rw [run]
      exact ⟨_, rfl⟩

end Action

/-- A point in the run of a handler: it stands before some actions in a scope. -/
structure Point where
  scope : Scope
  actions : List Action
  /-- What stands around the actions, innermost first. -/
  frames : List Frame

namespace Point

/-- Where a handler starts that is called for a node in a context. -/
def start (handler : Handler) (node : Node) (context : Context) : Point where
  scope := .start node context
  actions := handler.actions
  frames := []

/-- Where a handling starts for the failure of an action run in a scope. -/
def handling
    (scope : Scope)
    (failure : Failure)
    (actions later : List Action)
    (outer : List Frame) :
    Point where
  scope := { scope with error := .data failure.toData }
  actions := actions
  frames := { later := later, handling := none } :: outer

/-- What a handler gives from a point on. -/
def gives (services : Services) (point : Point) : Run Unit :=
  (Action.runAll services point.scope point.actions).bind
    (Frame.resume services point.frames)

/-- A handler gives what it gives from its start on. -/
theorem gives_start
    (services : Services)
    (handler : Handler)
    (node : Node)
    (context : Context) :
    (start handler node context).gives services =
      handler.body services node context := by
  rw [Handler.body_eq_settled, Run.bind_bind]
  rfl

/-- What a handler gives from a point on starts with its first action. -/
theorem gives_cons
    (services : Services)
    (scope : Scope)
    (action : Action)
    (rest : List Action)
    (frames : List Frame) :
    gives services
        { scope := scope, actions := action :: rest, frames := frames } =
      (action.run services scope).bind fun finish =>
        (finish.andThen fun after =>
          Action.runAll services after rest).bind
            (Frame.resume services frames) := by
  rw [gives, Action.runAll, Run.bind_bind]

/-- One step of the machine that runs a handler, with what happens in it. -/
inductive Step
    (services : Services)
    (handlers : HandlerMap Handler) :
    Point → List Event → Point → Prop where
  /-- An action that consists of others is entered. -/
  | entered
      {scope : Scope}
      {action : Action}
      {rest parts : List Action}
      {handling : Option (List Action)}
      {frames : List Frame}
      (consists : action.parts? scope = some (parts, handling)) :
      Step services handlers
        { scope := scope, actions := action :: rest, frames := frames }
        []
        { scope := scope
          actions := parts
          frames := { later := rest, handling := handling } :: frames }
  /-- Another action is done. -/
  | done
      {scope after : Scope}
      {action : Action}
      {rest : List Action}
      {frames : List Frame}
      {events : List Event}
      (simple : action.parts? scope = none)
      (finishes :
        (action.run services scope).trace handlers =
          { events := events
            ending := .finished { scope := after, failure := none } }) :
      Step services handlers
        { scope := scope, actions := action :: rest, frames := frames }
        events
        { scope := after, actions := rest, frames := frames }
  /-- All actions are done, and those after them come next. -/
  | left
      {scope : Scope}
      {frame : Frame}
      {frames : List Frame} :
      Step services handlers
        { scope := scope, actions := [], frames := frame :: frames }
        []
        { scope := scope, actions := frame.later, frames := frames }
  /-- An action fails inside a rescue. -/
  | rescued
      {scope last : Scope}
      {action : Action}
      {rest handling later : List Action}
      {frames outer : List Frame}
      {events : List Event}
      {failure : Failure}
      (simple : action.parts? scope = none)
      (fails :
        (action.run services scope).trace handlers =
          { events := events
            ending :=
              .finished { scope := last, failure := some failure } })
      (inside : Frame.rescuer? frames = some (handling, later, outer)) :
      Step services handlers
        { scope := scope, actions := action :: rest, frames := frames }
        events
        (.handling last failure handling later outer)

/-- A point that the machine comes to from another, with what happens on the way. -/
inductive Reaches
    (services : Services)
    (handlers : HandlerMap Handler) :
    Point → List Event → Point → Prop where
  | here
      {point : Point} :
      Reaches services handlers point [] point
  | onward
      {point next last : Point}
      {events further : List Event}
      (step : point.Step services handlers events next)
      (reaches : Reaches services handlers next further last) :
      Reaches services handlers point (events ++ further) last

/-- The machine is at its end, runs out of recursion, or fails outside every rescue. -/
inductive Stops
    (services : Services)
    (handlers : HandlerMap Handler) :
    Point → Prop where
  | ended
      {scope : Scope} :
      Stops services handlers
        { scope := scope, actions := [], frames := [] }
  | exhausted
      {scope : Scope}
      {action : Action}
      {rest : List Action}
      {frames : List Frame}
      (exhausts :
        ((action.run services scope).trace handlers).ending =
          .exhausted) :
      Stops services handlers
        { scope := scope, actions := action :: rest, frames := frames }
  | failed
      {scope last : Scope}
      {action : Action}
      {rest : List Action}
      {frames : List Frame}
      {failure : Failure}
      (fails :
        ((action.run services scope).trace handlers).ending =
          .finished { scope := last, failure := some failure })
      (outside : Frame.rescuer? frames = none) :
      Stops services handlers
        { scope := scope, actions := action :: rest, frames := frames }

variable
  {services : Services}
  {handlers : HandlerMap Handler}

/-- A failure inside a rescue is given to the nearest handling. -/
theorem resume_of_rescuer?
    (services : Services)
    (scope : Scope)
    (failure : Failure)
    {frames outer : List Frame}
    {actions later : List Action}
    (inside : Frame.rescuer? frames = some (actions, later, outer)) :
    Frame.resume services frames
        { scope := scope, failure := some failure } =
      (handling scope failure actions later outer).gives services := by
  induction frames with
  | nil =>
      cases inside
  | cons frame frames inductionHypothesis =>
      rcases frame with ⟨after, _ | rescuing⟩
      · exact inductionHypothesis inside
      · cases inside
        rw [gives, handling, Frame.resume_cons, Frame.resume_cons]
        simp only [Finish.rescue]
        congr 1
        funext rescued
        rcases rescued with ⟨_, _ | _⟩ <;> rfl

/-- What happens in a step comes before all that is given from the next point on. -/
theorem Step.trace_gives
    {point next : Point}
    {events : List Event}
    (step : point.Step services handlers events next) :
    (point.gives services).trace handlers =
      ((next.gives services).trace handlers).afterAll events := by
  cases step with
  | entered consists =>
      rw [gives_cons, Action.run_of_parts? services consists,
        Run.bind_bind, gives, Frame.resume_cons]
      rfl
  | done simple finishes =>
      rw [gives_cons, Run.trace_bind, finishes]
      rfl
  | left =>
      rfl
  | rescued simple fails inside =>
      rw [gives_cons, Run.trace_bind, fails,
        ← resume_of_rescuer? services _ _ inside]
      rfl

/-- What happens on the way to a point comes before all that is given from there on. -/
theorem Reaches.trace_gives
    {point last : Point}
    {events : List Event}
    (reaches : point.Reaches services handlers events last) :
    (point.gives services).trace handlers =
      ((last.gives services).trace handlers).afterAll events := by
  induction reaches with
  | here =>
      rfl
  | onward step _ inductionHypothesis =>
      rw [step.trace_gives, inductionHypothesis, Trace.afterAll_afterAll]

/-- From every point the machine takes a step unless it stops there. -/
theorem steps_or_stops
    (services : Services)
    (handlers : HandlerMap Handler)
    (point : Point) :
    (∃ events next, point.Step services handlers events next) ∨
      point.Stops services handlers := by
  rcases point with ⟨scope, _ | ⟨action, rest⟩, frames⟩
  · cases frames with
    | nil =>
        exact .inr .ended
    | cons frame outer =>
        exact .inl ⟨_, _, .left⟩
  cases consists : action.parts? scope with
  | some parts =>
      exact .inl ⟨_, _, .entered consists⟩
  | none =>
      obtain ⟨work, isWork⟩ :=
        Action.performs_of_simple services consists
      have shown := Finish.trace_perform handlers scope work
      rw [← isWork] at shown
      cases worked : (work.trace handlers).ending with
      | finished after =>
          rw [worked] at shown
          exact .inl ⟨_, _, .done consists shown⟩
      | failed failure =>
          rw [worked] at shown
          cases inside : Frame.rescuer? frames with
          | some rescuer =>
              exact .inl ⟨_, _, .rescued consists shown inside⟩
          | none =>
              exact .inr (.failed (congrArg Trace.ending shown) inside)
      | exhausted =>
          rw [worked] at shown
          exact .inr (.exhausted (congrArg Trace.ending shown))

/-- From every point the machine takes one step at most. -/
theorem Step.unique
    {point next other : Point}
    {events further : List Event}
    (step : point.Step services handlers events next)
    (another : point.Step services handlers further other) :
    events = further ∧ next = other := by
  cases step with
  | entered consists =>
      cases another with
      | entered consistsToo =>
          rw [consists] at consistsToo
          cases consistsToo
          exact ⟨rfl, rfl⟩
      | done simple | rescued simple =>
          rw [consists] at simple
          cases simple
  | done simple finishes =>
      cases another with
      | entered consists =>
          rw [simple] at consists
          cases consists
      | done _ finishesToo =>
          rw [finishes] at finishesToo
          cases finishesToo
          exact ⟨rfl, rfl⟩
      | rescued _ fails =>
          rw [finishes] at fails
          cases fails
  | left =>
      cases another
      exact ⟨rfl, rfl⟩
  | rescued simple fails inside =>
      cases another with
      | entered consists =>
          rw [simple] at consists
          cases consists
      | done _ finishes =>
          rw [fails] at finishes
          cases finishes
      | rescued _ failsToo insideToo =>
          rw [fails] at failsToo
          rw [inside] at insideToo
          cases failsToo
          cases insideToo
          exact ⟨rfl, rfl⟩

/-- When a handling is done, the actions after the rescue come next. -/
theorem trace_gives_handling
    {scope after : Scope}
    {failure : Failure}
    {actions later : List Action}
    {outer : List Frame}
    {events : List Event}
    (finishes :
      (Action.runAll services
          { scope with error := .data failure.toData }
          actions).trace handlers =
        { events := events
          ending := .finished { scope := after, failure := none } }) :
    ((handling scope failure actions later outer).gives services).trace
        handlers =
      ((gives services
          { scope := after, actions := later, frames := outer }).trace
        handlers).afterAll events := by
  rw [gives, handling, Run.trace_bind, finishes]
  rfl

end Point

end QueryWalk
