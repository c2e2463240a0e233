import QueryWalk.Proofs.NoteOrigins
import QueryWalk.Proofs.RescuedCalls
import QueryWalk.Proofs.WalkLevels

namespace QueryWalk

/-!
# The course of a handler

The machine that runs a handler comes to a point where it takes no further step. It
stands at the node of its handler all the way, and before actions that the handler
consists of. So everything that a handler notes is noted by one of its actions, in the
context that the handler was called in. An action that makes no call notes what it logs
and nothing else.
-/

/-- What is where a scope is, is where that scope belongs. -/
theorem Scope.IsAt.trans
    {scope after : Scope}
    {node : Node}
    {context : Context}
    (stays : after.IsAt scope.node scope.context)
    (isAt : scope.IsAt node context) :
    after.IsAt node context where
  node_eq := stays.node_eq.trans isAt.node_eq
  context_eq := stays.context_eq.trans isAt.context_eq

namespace Finish

variable
  {handlers : HandlerMap Handler}
  {scope : Scope}
  {finish : Finish}

/-- Doing some work makes the notes of the work. -/
theorem notes_perform
    (work : Run Scope) :
    (perform scope work).notes handlers = work.notes handlers := by
  rw [Run.notes, trace_perform, Run.notes]

/-- Doing some work without an outcome makes the notes of the work. -/
theorem notes_effect
    (work : Run Unit) :
    (effect scope work).notes handlers = work.notes handlers := by
  rw [effect, notes_perform, Run.notes, Run.trace_bind_done, Run.notes]

/-- Work that stays at the node and the context of a scope makes actions stay there. -/
theorem isAt_of_perform
    {work : Run Scope}
    (stays :
      ∀ after,
        (work.trace handlers).ending = .finished after →
        after.IsAt scope.node scope.context)
    (finishes :
      ((perform scope work).trace handlers).ending = .finished finish) :
    finish.scope.IsAt scope.node scope.context := by
  rw [trace_perform] at finishes
  cases ends : (work.trace handlers).ending with
  | finished after =>
      rw [ends] at finishes
      cases finishes
      exact stays after ends
  | failed failure =>
      rw [ends] at finishes
      cases finishes
      exact ⟨rfl, rfl⟩
  | exhausted =>
      rw [ends] at finishes
      cases finishes

/-- Work without an outcome makes actions stay where they are. -/
theorem isAt_of_effect
    {work : Run Unit}
    (finishes :
      ((effect scope work).trace handlers).ending = .finished finish) :
    finish.scope.IsAt scope.node scope.context := by
  apply isAt_of_perform _ finishes
  intro after ends
  rw [Run.trace_bind_done] at ends
  cases worked : (work.trace handlers).ending with
  | finished outcome =>
      rw [worked] at ends
      cases ends
      exact ⟨rfl, rfl⟩
  | failed failure | exhausted =>
      rw [worked] at ends
      cases ends

end Finish

namespace Action

variable
  {handlers : HandlerMap Handler}
  {services : Services}
  {scope : Scope}
  {action : Action}

/-- An action that is done leaves the node and the context as they are. -/
theorem isAt_of_finished
    {finish : Finish}
    (simple : action.parts? scope = none)
    (finishes :
      ((action.run services scope).trace handlers).ending =
        .finished finish) :
    finish.scope.IsAt scope.node scope.context := by
  cases action with
  | rebuild subject change =>
      rw [run] at finishes
      apply Finish.isAt_of_perform _ finishes
      intro after ends
      simp only [Run.bind_eq, Run.pure_eq, Run.trace_bind_done] at ends
      generalize
        (callback scope services.rebuild subject change).trace handlers =
          worked at ends
      rcases worked with ⟨events, result | failure | _⟩
      · cases ends
        exact ⟨rfl, rfl⟩
      · cases ends
      · cases ends
  | choose condition consequence alternative =>
      rw [run] at finishes
      cases decided : condition.eval scope with
      | ok holds =>
          cases holds <;> simp [parts?, decided] at simple
      | error failure =>
          rw [decided] at finishes
          cases finishes
          exact ⟨rfl, rfl⟩
  | rescue body handling =>
      cases simple
  | _ =>
      rw [run] at finishes
      exact Finish.isAt_of_effect finishes

/-- An action that makes a call makes the notes of the call. -/
theorem notes_of_call?
    {asked : Except Failure Call}
    (calls : action.call? services.settings scope = some asked) :
    (action.run services scope).notes handlers =
      ((Run.ofExcept asked).bind services.take).notes handlers := by
  obtain ⟨work, isWork, alone⟩ := run_of_call? calls
  rw [isWork, Finish.notes_perform, ← alone, Run.notes, Run.notes,
    Run.trace_bind_done]

/-- An action that makes no call, and consists of no others, notes what it logs. -/
theorem logged_of_not_call
    {settings : Settings}
    (simple : action.parts? scope = none)
    (callsNothing : action.call? settings scope = none)
    {note : Note}
    (noted : note ∈ (action.run services scope).notes handlers) :
    ∃ value, note = .entry (.logged value) := by
  cases action with
  | deliver value =>
      rw [run, Finish.notes_effect] at noted
      cases evaluated : value.eval scope with
      | ok result =>
          rw [evaluated] at noted
          cases noted
      | error failure =>
          rw [evaluated] at noted
          cases noted
  | deliverAll values =>
      rw [run, Finish.notes_effect] at noted
      cases evaluated : values.eval scope with
      | ok results =>
          rw [evaluated] at noted
          change note ∈ (Run.deliverAll results.items).notes handlers at noted
          rw [Run.notes_deliverAll] at noted
          cases noted
      | error failure =>
          rw [evaluated] at noted
          cases noted
  | log value =>
      rw [run, Finish.notes_effect] at noted
      cases evaluated : value.eval scope with
      | ok logged =>
          rw [evaluated] at noted
          exact ⟨logged, List.mem_singleton.mp noted⟩
      | error failure =>
          rw [evaluated] at noted
          cases noted
  | fail wording =>
      cases noted
  | choose condition consequence alternative =>
      rw [run] at noted
      cases decided : condition.eval scope with
      | ok holds =>
          cases holds <;> simp [parts?, decided] at simple
      | error failure =>
          rw [decided] at noted
          cases noted
  | rescue body handling =>
      cases simple
  | _ =>
      cases callsNothing

end Action

namespace Action

mutual

/-- How many steps an action takes at most, with those into it and out of it. -/
def size : Action → Nat
  | .choose _ consequence alternative =>
      2 + sizeAll consequence + sizeAll alternative
  | .rescue body handling => 2 + sizeAll body + sizeAll handling
  | _ => 1

/-- How many steps some actions take at most. -/
def sizeAll : List Action → Nat
  | [] => 0
  | action :: rest => action.size + sizeAll rest

end

/-- Every action takes a step. -/
theorem size_pos
    (action : Action) :
    0 < action.size := by
  cases action <;> simp only [size] <;> omega

/-- What an action consists of takes fewer steps, with the one out of it. -/
theorem size_of_parts?
    {scope : Scope}
    {action : Action}
    {parts : List Action}
    {handling : Option (List Action)}
    (consists : action.parts? scope = some (parts, handling)) :
    1 + sizeAll parts + handling.elim 0 sizeAll < action.size := by
  cases action with
  | choose condition consequence alternative =>
      simp only [parts?] at consists
      split at consists <;> cases consists
      · simp only [size, Option.elim]
        omega
      · simp only [size, Option.elim]
        omega
  | rescue body rescuing =>
      cases consists
      simp only [size, Option.elim]
      omega
  | _ =>
      cases consists

/-- What an action with a property throughout consists of has it throughout. -/
theorem throughout_of_parts?
    {property : Action → Prop}
    {scope : Scope}
    {action : Action}
    {parts : List Action}
    {handling : Option (List Action)}
    (throughout : action.Throughout property)
    (consists : action.parts? scope = some (parts, handling)) :
    AllThroughout property parts ∧
      ∀ actions,
        handling = some actions →
        AllThroughout property actions := by
  cases action with
  | choose condition consequence alternative =>
      obtain ⟨-, first, second⟩ := throughout
      simp only [parts?] at consists
      split at consists <;> cases consists
      · refine ⟨first, ?_⟩
        intro actions isHandling
        cases isHandling
      · refine ⟨second, ?_⟩
        intro actions isHandling
        cases isHandling
  | rescue body rescuing =>
      obtain ⟨-, first, second⟩ := throughout
      cases consists
      refine ⟨first, ?_⟩
      intro actions isHandling
      cases isHandling
      exact second
  | _ =>
      cases consists

end Action

namespace Frame

/-- How many steps are taken at most around some actions, with the one to get there. -/
def size (frame : Frame) : Nat :=
  1 + Action.sizeAll frame.later + frame.handling.elim 0 Action.sizeAll

/-- How many steps are taken at most in some frames, one around the other. -/
def sizeAll : List Frame → Nat
  | [] => 0
  | frame :: outer => frame.size + sizeAll outer

/-- What is done in some frames and in those around them adds up. -/
theorem sizeAll_append
    (inner outer : List Frame) :
    sizeAll (inner ++ outer) = sizeAll inner + sizeAll outer := by
  induction inner with
  | nil =>
      exact (Nat.zero_add _).symm
  | cons frame rest inductionHypothesis =>
      rw [List.cons_append, sizeAll, inductionHypothesis, sizeAll,
        Nat.add_assoc]

/-- All that may be done around some actions has a property. -/
structure Throughout (property : Action → Prop) (frame : Frame) : Prop where
  later : Action.AllThroughout property frame.later
  handling :
    ∀ actions,
      frame.handling = some actions →
      Action.AllThroughout property actions

/-- The nearest handling and what comes after it belong to one of the frames. -/
theorem of_rescuer?
    {frames outer : List Frame}
    {handling later : List Action}
    (inside : rescuer? frames = some (handling, later, outer)) :
    ∃ inner,
      frames =
        inner ++ { later := later, handling := some handling } :: outer := by
  induction frames with
  | nil =>
      cases inside
  | cons frame frames inductionHypothesis =>
      rcases frame with ⟨after, _ | rescuing⟩
      · obtain ⟨inner, rfl⟩ := inductionHypothesis inside
        exact ⟨{ later := after, handling := none } :: inner, rfl⟩
      · cases inside
        exact ⟨[], rfl⟩

end Frame

namespace Point

/-- How many steps the machine takes from a point on at most. -/
def size (point : Point) : Nat :=
  Action.sizeAll point.actions + Frame.sizeAll point.frames

/-- The machine stands at a node in a context, before actions that have a property. -/
structure StandsAt
    (property : Action → Prop)
    (node : Node)
    (context : Context)
    (point : Point) : Prop where
  isAt : point.scope.IsAt node context
  actions : Action.AllThroughout property point.actions
  frames : ∀ frame ∈ point.frames, frame.Throughout property

variable
  {services : Services}
  {handlers : HandlerMap Handler}
  {property : Action → Prop}
  {node : Node}
  {context : Context}
  {point next last : Point}
  {events : List Event}

/-- The machine starts at the node and in the context that its handler is called with. -/
theorem standsAt_start
    {handler : Handler}
    (throughout : handler.Throughout property)
    (node : Node)
    (context : Context) :
    (start handler node context).StandsAt property node context where
  isAt := ⟨rfl, rfl⟩
  actions := throughout
  frames := nofun

/-- A step leads away neither from the node nor from the context. -/
theorem Step.standsAt
    (step : point.Step services handlers events next)
    (stands : point.StandsAt property node context) :
    next.StandsAt property node context := by
  obtain ⟨isAt, actions, frames⟩ := stands
  cases step with
  | entered consists =>
      obtain ⟨parts, handling⟩ :=
        Action.throughout_of_parts? actions.1 consists
      exact
        ⟨isAt, parts,
          List.forall_mem_cons.mpr ⟨⟨actions.2, handling⟩, frames⟩⟩
  | done simple finishes =>
      have stays :=
        Action.isAt_of_finished simple (congrArg Trace.ending finishes)
      exact ⟨stays.trans isAt, actions.2, frames⟩
  | left =>
      obtain ⟨first, others⟩ := List.forall_mem_cons.mp frames
      exact ⟨isAt, first.later, others⟩
  | rescued simple fails inside =>
      have stays :=
        (Action.isAt_of_finished simple
          (congrArg Trace.ending fails)).trans isAt
      obtain ⟨inner, rfl⟩ := Frame.of_rescuer? inside
      obtain ⟨-, ownAndOuter⟩ := List.forall_mem_append.mp frames
      obtain ⟨own, outer⟩ := List.forall_mem_cons.mp ownAndOuter
      exact
        ⟨⟨stays.node_eq, stays.context_eq⟩, own.handling _ rfl,
          List.forall_mem_cons.mpr ⟨⟨own.later, nofun⟩, outer⟩⟩

/-- On its way through a handler the machine stays at the handler's node. -/
theorem Reaches.standsAt
    (reaches : point.Reaches services handlers events last)
    (stands : point.StandsAt property node context) :
    last.StandsAt property node context := by
  induction reaches with
  | here =>
      exact stands
  | onward step _ inductionHypothesis =>
      exact inductionHypothesis (step.standsAt stands)

/-- Wherever the machine is in a handler it is at the handler's node, in its context. -/
theorem Reaches.isAt
    {handler : Handler}
    (reaches :
      (start handler node context).Reaches services handlers events last) :
    last.scope.IsAt node context := by
  have always : handler.Throughout fun _ => True :=
    Action.allThroughout_of_forall (fun _ => trivial) handler.actions
  exact (reaches.standsAt (standsAt_start always node context)).isAt

/-- With every step there is less to be done. -/
theorem Step.size_lt
    (step : point.Step services handlers events next) :
    next.size < point.size := by
  cases step with
  | entered consists =>
      have fewer := Action.size_of_parts? consists
      simp only [size, Action.sizeAll, Frame.sizeAll, Frame.size]
      omega
  | @done scope after action rest frames _ simple finishes =>
      have positive := action.size_pos
      simp only [size, Action.sizeAll]
      omega
  | left =>
      simp only [size, Action.sizeAll, Frame.sizeAll, Frame.size]
      omega
  | @rescued _ _ action _ _ _ _ _ _ _ simple fails inside =>
      have positive := action.size_pos
      obtain ⟨inner, rfl⟩ := Frame.of_rescuer? inside
      simp only [size, handling, Action.sizeAll, Frame.sizeAll_append,
        Frame.sizeAll, Frame.size, Option.elim]
      omega

/-- From every point the machine comes to one where it takes no further step. -/
theorem reaches_end
    (services : Services)
    (handlers : HandlerMap Handler)
    (point : Point) :
    ∃ events last,
      point.Reaches services handlers events last ∧
        ∀ further next, ¬ last.Step services handlers further next := by
  -- A rescue may lead back to the same actions, but never without having left some.
  induction sizeIs : point.size using Nat.strongRecOn
    generalizing point with
  | ind size inductionHypothesis =>
    by_cases goesOn :
      ∃ events next, point.Step services handlers events next
    · obtain ⟨events, next, step⟩ := goesOn
      obtain ⟨further, last, reaches, ends⟩ :=
        inductionHypothesis next.size (sizeIs ▸ step.size_lt) next rfl
      exact ⟨events ++ further, last, .onward step reaches, ends⟩
    · exact
        ⟨[], point, .here, fun further next step =>
          goesOn ⟨further, next, step⟩⟩

/-- A failure that nothing rescues is the failure of the handler. -/
theorem resume_of_outside
    (services : Services)
    {frames : List Frame}
    (outside : Frame.rescuer? frames = none)
    (scope : Scope)
    (failure : Failure) :
    Frame.resume services frames
        { scope := scope, failure := some failure } =
      .failed failure := by
  induction frames with
  | nil =>
      rfl
  | cons frame frames inductionHypothesis =>
      rcases frame with ⟨after, _ | rescuing⟩
      · exact inductionHypothesis outside
      · cases outside

/-- What is noted on the way to a point comes before all notes from there on. -/
theorem Reaches.notes_gives
    (reaches : point.Reaches services handlers events last) :
    (point.gives services).notes handlers =
      Event.notes events ++ (last.gives services).notes handlers := by
  rw [Run.notes, reaches.trace_gives, Trace.afterAll, Event.notes_append,
    Run.notes]

/-- What is noted in a step is noted by the action that is done in it. -/
theorem Step.notes_eq
    (step : point.Step services handlers events next) :
    Event.notes events = [] ∨
      ∃ scope action rest frames,
        point = { scope := scope, actions := action :: rest, frames := frames } ∧
          action.parts? scope = none ∧
          (action.run services scope).notes handlers =
            Event.notes events := by
  cases step with
  | entered | left =>
      exact .inl rfl
  | done simple finishes =>
      exact .inr ⟨_, _, _, _, rfl, simple, by rw [Run.notes, finishes]⟩
  | rescued simple fails inside =>
      exact .inr ⟨_, _, _, _, rfl, simple, by rw [Run.notes, fails]⟩

/-- Where the machine takes no step only the action before it may note something. -/
theorem noted_of_stops
    (ends : ∀ further next, ¬ point.Step services handlers further next)
    {earlier later : List Note}
    {note : Note}
    (split :
      (point.gives services).notes handlers = earlier ++ note :: later) :
    ∃ scope action rest frames further,
      point = { scope := scope, actions := action :: rest, frames := frames } ∧
        action.parts? scope = none ∧
        (action.run services scope).notes handlers =
          earlier ++ note :: further := by
  have stops : point.Stops services handlers := by
    rcases steps_or_stops services handlers point with
      ⟨further, next, step⟩ | stops
    · exact (ends further next step).elim
    · exact stops
  have isSimple :
      ∀ {scope action rest frames},
        point =
          { scope := scope, actions := action :: rest, frames := frames } →
        action.parts? scope = none := by
    rintro scope action rest frames rfl
    cases consists : action.parts? scope with
    | none =>
        rfl
    | some parts =>
        exact (ends [] _ (.entered consists)).elim
  cases stops with
  | ended =>
      exact (not_split_of_nil split).elim
  | exhausted exhausts =>
      rw [gives_cons] at split
      rcases Run.noted_of_bind split with
        ⟨further, noted⟩ | ⟨events, finish, inner, finishes, -, -⟩
      · exact ⟨_, _, _, _, further, rfl, isSimple rfl, noted⟩
      · rw [finishes] at exhausts
        cases exhausts
  | failed fails outside =>
      rw [gives_cons] at split
      rcases Run.noted_of_bind split with
        ⟨further, noted⟩ | ⟨events, finish, inner, finishes, -, after⟩
      · exact ⟨_, _, _, _, further, rfl, isSimple rfl, noted⟩
      · rw [finishes] at fails
        cases fails
        simp only [Finish.andThen, Run.bind,
          resume_of_outside services outside] at after
        exact (not_split_of_nil after).elim

/-- All that is noted from a point on is noted by an action the machine comes to. -/
theorem noted_of_gives
    {earlier later : List Note}
    {note : Note}
    (split :
      (point.gives services).notes handlers = earlier ++ note :: later) :
    ∃ events scope action rest frames inner further,
      point.Reaches services handlers events
          { scope := scope, actions := action :: rest, frames := frames } ∧
        action.parts? scope = none ∧
        earlier = Event.notes events ++ inner ∧
        (action.run services scope).notes handlers =
          inner ++ note :: further := by
  obtain ⟨events, last, reaches, ends⟩ :=
    reaches_end services handlers point
  induction reaches generalizing earlier with
  | here =>
      obtain ⟨scope, action, rest, frames, further, rfl, simple, noted⟩ :=
        noted_of_stops ends split
      exact
        ⟨[], scope, action, rest, frames, earlier, further, .here, simple,
          rfl, noted⟩
  | @onward point next last events others step reaches
      inductionHypothesis =>
      have oneStep := Reaches.onward step .here
      rw [oneStep.notes_gives, List.append_nil] at split
      rcases first_or_second_of_append split with
        ⟨further, isEvents⟩ | ⟨inner, rfl, isNext⟩
      · rcases step.notes_eq with
          silent | ⟨scope, action, rest, frames, rfl, simple, noted⟩
        · rw [silent] at isEvents
          exact (not_split_of_nil isEvents).elim
        · exact
            ⟨[], scope, action, rest, frames, earlier, further, .here,
              simple, rfl, noted.trans isEvents⟩
      · obtain ⟨onward, scope, action, rest, frames, last, further,
          reachesAction, simple, rfl, noted⟩ :=
          inductionHypothesis isNext ends
        refine
          ⟨events ++ onward, scope, action, rest, frames, last, further,
            .onward step reachesAction, simple, ?_, noted⟩
        rw [Event.notes_append, List.append_assoc]

end Point

end QueryWalk
