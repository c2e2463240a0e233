import QueryWalk.Proofs.HandlerCourse
import QueryWalk.Proofs.TreeAddresses

namespace QueryWalk

/-!
# Passages into a walk

A walk that takes a call takes others within it: a node without a handler goes to the
fallback, a handler goes on from its node, and the children of a node are visited. A
passage leads from a call into one that is taken within it, and tells all that is noted
before. So a passage leads to every call of a handler in a walk, and to just that one. What
the handler knows is made of what was known at first by the moves on this passage, and no
other call has a part in it.
-/

namespace Service

/-- A service that goes on from a node, without its handler. -/
def GoesOn (service : Service) : Prop :=
  service = .generic ∨ service = .rebuild

/-- Such a service that a walker has. There is no rebuilding in a visitor. -/
def GoesDown (mode : Mode) (service : Service) : Prop :=
  service = .generic ∨ service = .rebuild ∧ mode = .transformer

/-- A visit is for the handler of its node. -/
theorem not_goesDown_visitNode
    {mode : Mode} :
    ¬ visitNode.GoesDown mode := by
  rintro (impossible | ⟨impossible, -⟩) <;> cases impossible

/-- A service that takes a node, and below it only its children. -/
def Descends (service : Service) : Prop :=
  service = .visitNode ∨ service.GoesOn

end Service

/-- An action that goes on from the node of its handler, and from no other node. -/
def Action.GoesOnItself : Action → Prop
  | .generic subject _ | .rebuild subject _ => subject = .node
  | .structural .. | .child .. | .visit .. | .visitUnder .. | .restart .. =>
      False
  | _ => True

namespace Action

/-- An action that goes on from its own node makes a call for it if it makes any. -/
theorem GoesOnItself.callback?_eq
    {settings : Settings}
    {scope : Scope}
    {action : Action}
    {asked : Except Failure Call}
    (goesOn : action.GoesOnItself)
    (calls : action.call? settings scope = some asked) :
    ∃ service change,
      service.GoesOn ∧
        action.callback? = some (service, .node, change) ∧
        asked = Call.back scope service .node change := by
  cases action with
  | generic subject change =>
      cases goesOn
      exact ⟨.generic, change, .inl rfl, rfl, (Option.some.inj calls).symm⟩
  | rebuild subject change =>
      cases goesOn
      exact ⟨.rebuild, change, .inr rfl, rfl, (Option.some.inj calls).symm⟩
  | structural | child | visit | visitUnder | restart =>
      cases goesOn
  | _ =>
      cases calls

/-- An action that calls back makes the call of its service in the scope it is run in. -/
theorem call?_of_callback?
    {settings : Settings}
    {scope : Scope}
    {action : Action}
    {service : Service}
    {subject : Expression}
    {change : Change}
    (calls : action.callback? = some (service, subject, change)) :
    action.call? settings scope =
      some (Call.back scope service subject change) := by
  cases action with
  | generic | structural | visit | rebuild =>
      cases calls
      rfl
  | _ =>
      cases calls

/-- An action that calls back does not consist of others. -/
theorem simple_of_callback?
    {scope : Scope}
    {action : Action}
    {back : Service × Expression × Change}
    (calls : action.callback? = some back) :
    action.parts? scope = none := by
  cases action with
  | generic | structural | visit | rebuild =>
      rfl
  | _ =>
      cases calls

end Action

/-- A call of a handler's own node can be made if the context can be changed. -/
theorem Call.applies_of_back
    {scope : Scope}
    {service : Service}
    {change : Change}
    {call : Call}
    (made : Call.back scope service .node change = .ok call) :
    ∃ changed, change.apply scope = .ok changed := by
  simp only [Call.back, Expression.eval] at made
  cases applied : change.apply scope with
  | ok changed =>
      exact ⟨changed, rfl⟩
  | error failure =>
      rw [applied] at made
      cases made

namespace Handler

variable
  {handlers : HandlerMap Handler}
  {services : Services}
  {handler : Handler}
  {node : Node}
  {context : Context}

/-- What is noted of a handler is noted by its actions, from the start on. -/
theorem notes_given
    (handler : Handler)
    (services : Services)
    (node : Node)
    (context : Context) :
    (handler.given services node context).notes handlers =
      ((Point.start handler node context).gives services).notes
        handlers := by
  rw [Point.gives_start]
  exact Run.notes_eq_of_collect handlers
    (handler.collect_given services node context)

/-- A call of a handler for its own node makes the notes of the call. -/
theorem notes_of_callback?
    {events : List Event}
    {scope : Scope}
    {action : Action}
    {rest : List Action}
    {frames : List Frame}
    {service : Service}
    {change : Change}
    {changed : Context}
    (reaches :
      (Point.start handler node context).Reaches services handlers events
        { scope := scope, actions := action :: rest, frames := frames })
    (calls : action.callback? = some (service, .node, change))
    (applied : change.apply scope = .ok changed) :
    (action.run services scope).notes handlers =
      (services.take
        { service := service
          node := node
          context := changed }).notes handlers := by
  have isNode : scope.node = node := reaches.isAt.node_eq
  have made :
      Call.back scope service .node change =
        .ok { service := service, node := node, context := changed } := by
    rw [← isNode]
    simp only [Call.back, Expression.eval, applied]
    rfl
  rw [Action.notes_of_call? (Action.call?_of_callback? calls), made]
  rfl

/-- The notes of a call of a handler follow those made before the call. -/
theorem notes_given_at
    {events : List Event}
    {scope : Scope}
    {action : Action}
    {rest : List Action}
    {frames : List Frame}
    (reaches :
      (Point.start handler node context).Reaches services handlers events
        { scope := scope, actions := action :: rest, frames := frames }) :
    ∃ after,
      (handler.given services node context).notes handlers =
        Event.notes events ++ (action.run services scope).notes handlers ++
          after := by
  obtain ⟨after, more⟩ :=
    (action.run services scope).exists_notes_bind fun finish =>
      (finish.andThen fun scope =>
        Action.runAll services scope rest).bind
          (Frame.resume services frames)
  refine ⟨after, ?_⟩
  rw [notes_given, reaches.notes_gives, Point.gives_cons, more,
    List.append_assoc]

/-- Where a handler goes on by itself, all other handlers are called within its calls. -/
theorem entered_of_given
    (goesOn : handler.Throughout Action.GoesOnItself)
    {earlier later : List Note}
    {type : Option NodeType}
    {inner : Node}
    {below : Context}
    (split :
      (handler.given services node context).notes handlers =
        earlier ++ .entered type inner below :: later) :
    ∃ events scope action rest frames service change changed before after,
      (Point.start handler node context).Reaches services handlers events
          { scope := scope, actions := action :: rest, frames := frames } ∧
        service.GoesOn ∧
        action.callback? = some (service, .node, change) ∧
        change.apply scope = .ok changed ∧
        earlier = Event.notes events ++ before ∧
        (services.take
            { service := service
              node := node
              context := changed }).notes handlers =
          before ++ .entered type inner below :: after := by
  rw [notes_given] at split
  obtain ⟨events, scope, action, rest, frames, before, after, reaches,
    simple, isEarlier, noted⟩ := Point.noted_of_gives split
  have stands :=
    reaches.standsAt (Point.standsAt_start goesOn node context)
  cases calls : action.call? services.settings scope with
  | none =>
      obtain ⟨value, isEntry⟩ :=
        Action.logged_of_not_call simple calls
          (noted ▸ List.mem_append_right before List.mem_cons_self)
      cases isEntry
  | some asked =>
      obtain ⟨service, change, isService, isCallback, rfl⟩ :=
        stands.actions.1.self.callback?_eq calls
      have taken := noted
      rw [Action.notes_of_call? calls] at taken
      obtain ⟨call, made, -⟩ := Run.noted_of_ofExcept_bind taken
      obtain ⟨changed, applied⟩ := Call.applies_of_back made
      rw [notes_of_callback? reaches isCallback applied] at noted
      exact
        ⟨events, scope, action, rest, frames, service, change, changed,
          before, after, reaches, isService, isCallback, applied, isEarlier,
          noted⟩

end Handler

namespace Move

/-- The index of the child that a move goes down to, if it does. -/
def place? : Move → Option Nat
  | .descended _ index => index.toIndex?
  | .changed .. | .restarted _ => none

/-- The address that moves lead to from the node of their first call. -/
def address (moves : List Move) : List Nat :=
  moves.filterMap place?

/-- The address of moves is that of the first ones with that of the others below. -/
theorem address_append
    (moves others : List Move) :
    address (moves ++ others) = address moves ++ address others :=
  List.filterMap_append

end Move

/-- A call that a walk is to take, with the recursion that is left for it. -/
structure Stage where
  bound : Nat
  call : Call

namespace Stage

/-- What is noted while a walk takes a call. -/
def notes
    (walker : Walker)
    (handlers : HandlerMap Handler)
    (stage : Stage) :
    List Note :=
  ((walker.services stage.bound).take stage.call).notes handlers

/-- The visit of a node calls the node's handler, once the listener has been told. -/
inductive Calls
    (walker : Walker)
    (handlers : HandlerMap Handler) :
    Stage → List Note → NodeType → Prop where
  | handler
      {bound : Nat}
      {node : Node}
      {context : Context}
      {registration : Registration Handler}
      {told : List Event}
      (handled : handlers.resolve? node.kind = some registration)
      (accepted :
        (Walker.notify walker.settings node
            (some registration.type)).trace handlers =
          { events := told, ending := .finished () }) :
      Calls walker handlers
        { bound := bound + 1
          call :=
            { service := .visitNode, node := node, context := context } }
        (Event.notes told)
        registration.type

/--
A call leads directly into one that is taken within it, after some notes and with moves
of the context.
-/
inductive Enters
    (walker : Walker)
    (handlers : HandlerMap Handler) :
    Stage → List Note → List Move → Stage → Prop where
  /-- A node without a handler goes to the fallback. -/
  | fallback
      {bound : Nat}
      {node : Node}
      {context : Context}
      {told : List Event}
      (unhandled : handlers.resolve? node.kind = none)
      (accepted :
        (Walker.notify walker.settings node none).trace handlers =
          { events := told, ending := .finished () }) :
      Enters walker handlers
        { bound := bound + 1
          call :=
            { service := .visitNode, node := node, context := context } }
        (Event.notes told)
        []
        { bound := bound + 1
          call := { service := .generic, node := node, context := context } }
  /-- The handler of a node comes to an action that goes on from the node. -/
  | handler
      {bound : Nat}
      {node : Node}
      {context changed : Context}
      {registration : Registration Handler}
      {told events : List Event}
      {scope : Scope}
      {action : Action}
      {rest : List Action}
      {frames : List Frame}
      {service : Service}
      {change : Change}
      (handled : handlers.resolve? node.kind = some registration)
      (accepted :
        (Walker.notify walker.settings node
            (some registration.type)).trace handlers =
          { events := told, ending := .finished () })
      (reaches :
        (Point.start registration.handler node context).Reaches
          (walker.services bound) handlers events
          { scope := scope, actions := action :: rest, frames := frames })
      (calls : action.callback? = some (service, .node, change))
      (applied : change.apply scope = .ok changed) :
      Enters walker handlers
        { bound := bound + 1
          call :=
            { service := .visitNode, node := node, context := context } }
        (Event.notes told ++
          .entered (some registration.type) node context ::
            Event.notes events)
        [.changed scope change]
        { bound := bound
          call :=
            { service := service, node := node, context := changed } }
  /-- A child is visited, after those before it. -/
  | child
      {bound : Nat}
      {service : Service}
      {node child : Node}
      {context below : Context}
      {place : Nat}
      {events : List Event}
      (goesDown : service.GoesDown walker.mode)
      (visited :
        (Walker.visitChildren (walker.services bound) node context 0
            (node.children.take place)).trace handlers =
          { events := events, ending := .finished () })
      (isChild : node.children[place]? = some child)
      (descended :
        context.descend walker.settings node (.ofNat place) = .ok below) :
      Enters walker handlers
        { bound := bound + 1
          call :=
            { service := service, node := node, context := context } }
        (Event.notes events)
        [.descended node (.ofNat place)]
        { bound := bound
          call :=
            { service := .visitNode, node := child, context := below } }

/-- A call leads, directly or through others, into one that is taken within it. -/
inductive Passage
    (walker : Walker)
    (handlers : HandlerMap Handler) :
    Stage → List Note → List Move → Stage → Prop where
  | here
      {stage : Stage} :
      Passage walker handlers stage [] [] stage
  | onward
      {first next last : Stage}
      {before further : List Note}
      {moves others : List Move}
      (enters : first.Enters walker handlers before moves next)
      (passage : Passage walker handlers next further others last) :
      Passage walker handlers first (before ++ further) (moves ++ others)
        last

/-- How often a call can lead to others before the recursion is used up. -/
def weight (stage : Stage) : Nat :=
  if stage.call.service = .visitNode then
    2 * stage.bound + 1
  else
    2 * stage.bound

variable
  {walker : Walker}
  {handlers : HandlerMap Handler}
  {first next last stage : Stage}
  {before earlier later : List Note}
  {moves : List Move}

/-- A call leads only to those with less recursion left, or to the fallback. -/
theorem Enters.weight_lt
    (enters : first.Enters walker handlers before moves next) :
    next.weight < first.weight := by
  cases enters with
  | fallback =>
      simp [weight]
  | @handler bound _ _ _ _ _ _ _ _ _ _ service =>
      simp only [weight, if_pos]
      split <;> omega
  | child goesDown =>
      rcases goesDown with rfl | ⟨rfl, -⟩
      · simp [weight]
        omega
      · simp [weight]
        omega

/-- Nothing is noted of a call without recursion. -/
theorem bound_ne_zero
    {note : Note}
    (split : stage.notes walker handlers = earlier ++ note :: later) :
    stage.bound ≠ 0 := by
  intro isZero
  rcases stage with ⟨bound, service, node, context⟩
  cases isZero
  have silent :
      notes walker handlers
          { bound := 0
            call :=
              { service := service, node := node, context := context } } =
        [] := by
    cases service <;> rfl
  rw [silent] at split
  exact not_split_of_nil split

/-- To go down from a node notes what is noted in the visits of its children. -/
theorem notes_of_goesDown
    (original : walker.fallback = none)
    {service : Service}
    (goesDown : service.GoesDown walker.mode)
    (bound : Nat)
    (node : Node)
    (context : Context) :
    notes walker handlers
        { bound := bound + 1
          call :=
            { service := service, node := node, context := context } } =
      (Walker.visitChildren (walker.services bound) node context 0
        node.children).notes handlers := by
  rcases goesDown with rfl | ⟨rfl, transformer⟩
  · exact Walker.notes_callGeneric original _ node context
  · simp only [notes, Services.take, Walker.services]
    rw [Run.notes_bind_of_silent _ fun _ => rfl,
      Walker.callRebuild_of_transformer transformer, Walker.notes_rebuild]

/-- Where something is noted of going on from a node, the walker has the service. -/
theorem goesDown_of_noted
    {note : Note}
    (goesOn : stage.call.service.GoesOn)
    (split : stage.notes walker handlers = earlier ++ note :: later) :
    stage.call.service.GoesDown walker.mode := by
  have recursive := bound_ne_zero split
  rcases stage with ⟨_ | bound, service, node, context⟩
  · exact (recursive rfl).elim
  rcases goesOn with rfl | rfl
  · exact .inl rfl
  cases mode : walker.mode with
  | transformer =>
      exact .inr ⟨rfl, rfl⟩
  | visitor =>
      simp only [notes, Services.take, Walker.services,
        Walker.callRebuild, mode] at split
      exact (not_split_of_nil split).elim

/--
A handler is called within a call. Either the call is the visit of its node, or it leads
to another call within which the handler is called.
-/
inductive Approaches
    (walker : Walker)
    (handlers : HandlerMap Handler)
    (stage : Stage)
    (earlier : List Note)
    (type : Option NodeType)
    (node : Node)
    (context : Context) : Prop where
  | itself
      {handlerType : NodeType}
      (calls : stage.Calls walker handlers earlier handlerType)
      (isType : type = some handlerType)
      (isNode : node = stage.call.node)
      (isContext : context = stage.call.context)
  | within
      {before inside after : List Note}
      {moves : List Move}
      {next : Stage}
      (enters : stage.Enters walker handlers before moves next)
      (descends : next.call.service.Descends)
      (isEarlier : earlier = before ++ inside)
      (split :
        next.notes walker handlers =
          inside ++ .entered type node context :: after)

/-- Where handlers go on by themselves the visit of a node approaches all that it calls. -/
theorem visit_approaches
    (goOn : ∀ entry ∈ handlers, entry.2.Throughout Action.GoesOnItself)
    {bound : Nat}
    {tree node : Node}
    {top context : Context}
    {type : Option NodeType}
    (split :
      (walker.visitNode (walker.services bound) tree top).notes handlers =
        earlier ++ .entered type node context :: later) :
    Approaches walker handlers
      { bound := bound + 1
        call := { service := .visitNode, node := tree, context := top } }
      earlier type node context := by
  rw [Walker.notes_visitNode_resolved] at split
  unfold Walker.visitResolved at split
  rcases Run.noted_of_bind split with
    ⟨further, noted⟩ | ⟨told, _, inside, accepted, rfl, noted⟩
  · -- The listener is told, which calls nothing.
    obtain ⟨entry, isEntry⟩ :=
      Walker.entry_of_notify
        (noted ▸ List.mem_append_right earlier List.mem_cons_self)
    cases isEntry
  cases handled : handlers.resolve? tree.kind with
  | none =>
      rw [handled] at accepted noted
      exact
        .within (.fallback handled accepted) (.inr (.inl rfl)) rfl noted
  | some registration =>
      rw [handled] at accepted noted
      have isBound :
          registration.handlerFor tree = .ok registration.handler :=
        if_pos (HandlerMap.includes_of_resolve? handled)
      simp only [isBound] at noted
      change
        .entered (some registration.type) tree top ::
            (registration.handler.given (walker.services bound) tree
              top).notes handlers =
          inside ++ .entered type node context :: later at noted
      cases inside with
      | nil =>
          obtain ⟨isSame, -⟩ := List.cons.inj noted
          cases isSame
          rw [List.append_nil]
          exact .itself (.handler handled accepted) rfl rfl rfl
      | cons head inside =>
          obtain ⟨rfl, given⟩ := List.cons.inj noted
          obtain ⟨events, scope, action, rest, frames, service, change,
            changed, within, after, reaches, goesOn, calls, applied, rfl,
            taken⟩ :=
            Handler.entered_of_given
              (goOn _ (HandlerMap.mem_of_resolve? handled)) given
          refine
            .within (.handler handled accepted reaches calls applied)
              (.inr goesOn) ?_ taken
          rw [List.append_assoc, List.cons_append]

/-- Where handlers go on by themselves a call approaches all that is called within it. -/
theorem approaches
    (original : walker.fallback = none)
    (goOn : ∀ entry ∈ handlers, entry.2.Throughout Action.GoesOnItself)
    (descends : stage.call.service.Descends)
    {type : Option NodeType}
    {node : Node}
    {context : Context}
    (split :
      stage.notes walker handlers =
        earlier ++ .entered type node context :: later) :
    stage.Approaches walker handlers earlier type node context := by
  have recursive := bound_ne_zero split
  rcases stage with ⟨_ | bound, service, tree, top⟩
  · exact (recursive rfl).elim
  rcases descends with rfl | goesOn
  · exact visit_approaches goOn split
  · have goesDown := goesDown_of_noted goesOn split
    rw [notes_of_goesDown original goesDown] at split
    obtain ⟨place, child, below, events, inside, after, isChild, descended,
      visited, isEarlier, noted⟩ := Walker.noted_of_visitChildren split
    rw [Nat.zero_add, Walker.settings_services] at descended
    exact
      .within (.child goesDown visited isChild descended) (.inl rfl)
        isEarlier noted

/--
A passage with some moves leads from a call to the visit of a node, which calls its
handler after all that was noted before.
-/
def Leads
    (walker : Walker)
    (handlers : HandlerMap Handler)
    (first : Stage)
    (earlier : List Note)
    (moves : List Move)
    (type : Option NodeType)
    (node : Node)
    (context : Context) :
    Prop :=
  ∃ before told last handlerType,
    first.Passage walker handlers before moves last ∧
      last.Calls walker handlers told handlerType ∧
      type = some handlerType ∧
      last.call.node = node ∧
      last.call.context = context ∧
      earlier = before ++ told

/-- Where handlers go on by themselves a passage leads to every one that is called. -/
theorem exists_leads
    (original : walker.fallback = none)
    (goOn : ∀ entry ∈ handlers, entry.2.Throughout Action.GoesOnItself)
    (descends : first.call.service.Descends)
    {type : Option NodeType}
    {node : Node}
    {context : Context}
    (split :
      first.notes walker handlers =
        earlier ++ .entered type node context :: later) :
    ∃ moves,
      first.Leads walker handlers earlier moves type node context := by
  induction weightIs : first.weight using Nat.strongRecOn
    generalizing first earlier later with
  | ind weight inductionHypothesis =>
    cases approaches original goOn descends split with
    | itself calls isType isNode isContext =>
        exact
          ⟨[], [], earlier, first, _, .here, calls, isType, isNode.symm,
            isContext.symm, rfl⟩
    | @within before inside after moves next enters nextDescends isEarlier
        nextSplit =>
        obtain ⟨others, further, told, last, handlerType, passage, calls,
          isType, isNode, isContext, rfl⟩ :=
          inductionHypothesis next.weight (weightIs ▸ enters.weight_lt)
            nextDescends nextSplit rfl
        refine
          ⟨moves ++ others, before ++ further, told, last, handlerType,
            .onward enters passage, calls, isType, isNode, isContext, ?_⟩
        rw [isEarlier, List.append_assoc]

/-- What is noted of a call that another leads to is noted within the other. -/
theorem Enters.notes_eq
    (original : walker.fallback = none)
    (enters : first.Enters walker handlers before moves next) :
    ∃ after,
      first.notes walker handlers =
        before ++ next.notes walker handlers ++ after := by
  cases enters with
  | @fallback bound node context told unhandled accepted =>
      refine ⟨[], ?_⟩
      rw [List.append_nil]
      exact
        Walker.notes_visitNode_of_unhandled unhandled accepted
          (walker.services bound) context
  | @handler bound node context changed registration told events scope
      action rest frames service change handled accepted reaches calls
      applied =>
      obtain ⟨after, more⟩ := Handler.notes_given_at reaches
      refine ⟨after, ?_⟩
      refine
        (Walker.notes_visitNode_of_handled handled accepted
          (walker.services bound) context).trans ?_
      rw [more, Handler.notes_of_callback? reaches calls applied]
      simp only [List.append_assoc, List.cons_append, notes]
  | child goesDown visited isChild descended =>
      rw [notes_of_goesDown original goesDown]
      rw [← Walker.settings_services] at descended
      exact Walker.notes_visitChildren_at isChild descended visited

/-- A call leads to one of the same node, or of the child that the moves tell. -/
theorem Enters.at?
    (enters : first.Enters walker handlers before moves next) :
    first.call.node.at? (Move.address moves) = some next.call.node := by
  cases enters with
  | fallback | handler =>
      rfl
  | child _ _ isChild =>
      simp only [Move.address, List.filterMap_cons, Move.place?,
        Number.toIndex?_ofNat, List.filterMap_nil]
      rw [Node.at?_cons isChild, Node.at?_nil]

/-- The context of a call that another leads to comes from the other's by the moves. -/
theorem Enters.takeAll
    (enters : first.Enters walker handlers before moves next) :
    Move.TakeAll walker.settings first.call.context moves
      next.call.context := by
  cases enters with
  | fallback =>
      rfl
  | handler _ _ reaches _ applied =>
      rw [← reaches.isAt.context_eq]
      exact .single (.changed applied)
  | child _ _ _ descended =>
      exact .single (.descended descended)

/-- A change on the way to the next call is made by the handler of the node left. -/
theorem Enters.isAt_of_changed
    (enters : first.Enters walker handlers before moves next)
    {sooner rest : List Move}
    {scope : Scope}
    {change : Change}
    (split : moves = sooner ++ .changed scope change :: rest) :
    sooner = [] ∧ scope.IsAt first.call.node first.call.context := by
  cases enters with
  | fallback =>
      simp at split
  | handler _ _ reaches =>
      obtain ⟨isNil, isSame⟩ | ⟨_, impossible⟩ :=
        List.append_eq_singleton_iff.mp split.symm
      · cases isSame
        exact ⟨isNil, reaches.isAt⟩
      · cases impossible
  | child =>
      obtain ⟨_, isSame⟩ | ⟨_, impossible⟩ :=
        List.append_eq_singleton_iff.mp split.symm
      · cases isSame
      · cases impossible

namespace Passage

/-- What is noted of a call that a passage leads to is noted within the first call. -/
theorem notes_eq
    (original : walker.fallback = none)
    (passage : first.Passage walker handlers before moves last) :
    ∃ after,
      first.notes walker handlers =
        before ++ last.notes walker handlers ++ after := by
  induction passage with
  | @here stage =>
      exact ⟨[], (List.append_nil _).symm⟩
  | onward enters _ inductionHypothesis =>
      obtain ⟨within, isNext⟩ := inductionHypothesis
      obtain ⟨after, isFirst⟩ := enters.notes_eq original
      refine ⟨within ++ after, ?_⟩
      rw [isFirst, isNext]
      simp only [List.append_assoc]

/-- The node at the end of a passage is where the moves lead to in the first node. -/
theorem at?
    (passage : first.Passage walker handlers before moves last) :
    first.call.node.at? (Move.address moves) = some last.call.node := by
  induction passage with
  | here =>
      rfl
  | onward enters _ inductionHypothesis =>
      rw [Move.address_append, Node.at?_append, enters.at?]
      exact inductionHypothesis

/-- The context at the end of a passage comes from the first one by the moves. -/
theorem takeAll
    (passage : first.Passage walker handlers before moves last) :
    Move.TakeAll walker.settings first.call.context moves
      last.call.context := by
  induction passage with
  | here =>
      rfl
  | onward enters _ inductionHypothesis =>
      exact enters.takeAll.append inductionHypothesis

/-- A change on a passage is made by the handler that the moves before it lead to. -/
theorem isAt_of_changed
    (passage : first.Passage walker handlers before moves last)
    {sooner rest : List Move}
    {scope : Scope}
    {change : Change}
    (split : moves = sooner ++ .changed scope change :: rest) :
    first.call.node.at? (Move.address sooner) = some scope.node ∧
      Move.TakeAll walker.settings first.call.context sooner
        scope.context := by
  induction passage generalizing sooner with
  | here =>
      simp at split
  | onward enters _ inductionHypothesis =>
      rcases first_or_second_of_append split with
        ⟨_, isOwn⟩ | ⟨inner, rfl, isLater⟩
      · obtain ⟨rfl, isAt⟩ := enters.isAt_of_changed isOwn
        exact ⟨congrArg some isAt.node_eq.symm, isAt.context_eq⟩
      · obtain ⟨isThere, takes⟩ := inductionHypothesis isLater
        refine ⟨?_, enters.takeAll.append takes⟩
        rw [Move.address_append, Node.at?_append, enters.at?]
        exact isThere

end Passage

end Stage

end QueryWalk
