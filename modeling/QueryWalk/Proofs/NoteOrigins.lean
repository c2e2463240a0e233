import QueryWalk.Proofs.CollectedResults
import QueryWalk.Proofs.ListenerNotification

namespace QueryWalk

/-!
# Where in a walk a note is made

A walk is put together from runs, and so are its notes. A note is made in one of the
runs, after all notes of the runs before it. So what is noted in the visits of some
children is noted in the visit of one of them, and what is noted in the visit of a node
comes from the listener, from the node's handler or from the fallback.
-/

/-- The notes of events are those of the first, and then those of the others. -/
theorem Event.notes_append
    (first second : List Event) :
    notes (first ++ second) = notes first ++ notes second :=
  List.filterMap_append

/-- An item among some items and others after them is one of the ones or of the others. -/
theorem first_or_second_of_append
    {Item : Type}
    {first second earlier later : List Item}
    {item : Item}
    (split : first ++ second = earlier ++ item :: later) :
    (∃ further, first = earlier ++ item :: further) ∨
      ∃ inner,
        earlier = first ++ inner ∧ second = inner ++ item :: later := by
  rcases List.append_eq_append_iff.mp split with
    ⟨inner, isEarlier, isSecond⟩ | ⟨inner, isFirst, isLater⟩
  · exact .inr ⟨inner, isEarlier, isSecond⟩
  · cases inner with
    | nil =>
        refine .inr ⟨[], ?_, isLater.symm⟩
        rw [isFirst, List.append_nil, List.append_nil]
    | cons head further =>
        obtain ⟨rfl, -⟩ := List.cons.inj isLater
        exact .inl ⟨further, isFirst⟩

/-- There is no item among none. -/
theorem not_split_of_nil
    {Item : Type}
    {earlier later : List Item}
    {item : Item} :
    [] ≠ earlier ++ item :: later := by
  simp

namespace Run

variable
  {handlers : HandlerMap Handler}
  {Outcome Next : Type}
  {run : Run Outcome}

/-- What goes on with an outcome adds all its notes. -/
theorem notes_bind_of_finished
    {events : List Event}
    {outcome : Outcome}
    (finishes :
      run.trace handlers =
        { events := events, ending := .finished outcome })
    (next : Outcome → Run Next) :
    (run.bind next).notes handlers =
      Event.notes events ++ (next outcome).notes handlers := by
  simp only [notes, trace_bind, finishes, Trace.andThen,
    Event.notes_append]

/-- What goes on with an outcome leaves the notes made before. -/
theorem exists_notes_bind
    (run : Run Outcome)
    (next : Outcome → Run Next) :
    ∃ further,
      (run.bind next).notes handlers =
        run.notes handlers ++ further := by
  rcases run.notes_bind handlers next with same | ⟨outcome, more⟩
  · exact ⟨[], by rw [same, List.append_nil]⟩
  · exact ⟨_, more⟩

/-- What is noted is noted before there is an outcome, or with the outcome. -/
theorem noted_of_bind
    {next : Outcome → Run Next}
    {earlier later : List Note}
    {note : Note}
    (split :
      (run.bind next).notes handlers = earlier ++ note :: later) :
    (∃ further, run.notes handlers = earlier ++ note :: further) ∨
      ∃ events outcome inner,
        run.trace handlers =
            { events := events, ending := .finished outcome } ∧
          earlier = Event.notes events ++ inner ∧
          (next outcome).notes handlers = inner ++ note :: later := by
  cases traced : run.trace handlers with
  | mk events ending =>
    cases ending with
    | finished outcome =>
        rw [notes_bind_of_finished traced] at split
        rcases first_or_second_of_append split with
          ⟨further, isEvents⟩ | ⟨inner, isEarlier, isNext⟩
        · exact .inl ⟨further, by rw [notes, traced, isEvents]⟩
        · exact .inr ⟨events, outcome, inner, rfl, isEarlier, isNext⟩
    | failed failure | exhausted =>
        refine .inl ⟨later, ?_⟩
        rw [← split, notes, notes, trace_bind, traced]
        rfl

/-- An outcome that may be missing is noted nowhere. -/
theorem noted_of_ofExcept_bind
    {outcome : Except Failure Outcome}
    {next : Outcome → Run Next}
    {earlier later : List Note}
    {note : Note}
    (split :
      ((ofExcept outcome).bind next).notes handlers =
        earlier ++ note :: later) :
    ∃ value,
      outcome = .ok value ∧
        (next value).notes handlers = earlier ++ note :: later := by
  cases outcome with
  | ok value =>
      exact ⟨value, rfl, split⟩
  | error failure =>
      exact (not_split_of_nil split).elim

/-- Going on in a way that notes nothing leaves the notes as they are. -/
theorem notes_bind_of_silent
    (run : Run Outcome)
    {next : Outcome → Run Next}
    (silent : ∀ outcome, (next outcome).notes handlers = []) :
    (run.bind next).notes handlers = run.notes handlers := by
  rcases run.notes_bind handlers next with same | ⟨outcome, more⟩
  · exact same
  · rw [more, silent, List.append_nil]

/-- To deliver results notes nothing. -/
theorem notes_deliverAll
    (values : List Value) :
    (deliverAll values).notes handlers = [] := by
  rw [← notes_gather, gather_deliverAll]
  rfl

end Run

namespace Walker

variable
  {handlers : HandlerMap Handler}
  {services : Services}
  {node : Node}
  {context : Context}

/-- Some children are visited, and then the others, whose indices go on from there. -/
theorem visitChildren_append
    (services : Services)
    (node : Node)
    (context : Context)
    (first : Nat)
    (children others : List Node) :
    visitChildren services node context first (children ++ others) =
      (visitChildren services node context first children).bind fun _ =>
        visitChildren services node context (first + children.length)
          others := by
  induction children generalizing first with
  | nil =>
      rfl
  | cons child rest inductionHypothesis =>
      rw [List.cons_append, visitChildren_cons, visitChildren_cons,
        inductionHypothesis, Run.bind_bind, List.length_cons,
        Nat.add_assoc, Nat.add_comm 1]

/-- What is noted in the visits of children is noted in one, after those before it. -/
theorem noted_of_visitChildren
    {first : Nat}
    {children : List Node}
    {earlier later : List Note}
    {note : Note}
    (split :
      (visitChildren services node context first children).notes handlers =
        earlier ++ note :: later) :
    ∃ place child below events before after,
      children[place]? = some child ∧
        context.descend services.settings node (.ofNat (first + place)) =
          .ok below ∧
        (visitChildren services node context first
            (children.take place)).trace handlers =
          { events := events, ending := .finished () } ∧
        earlier = Event.notes events ++ before ∧
        (services.visitNode child below).notes handlers =
          before ++ note :: after := by
  induction children generalizing first earlier with
  | nil =>
      exact (not_split_of_nil split).elim
  | cons child rest inductionHypothesis =>
      rw [visitChildren_cons] at split
      rcases Run.noted_of_bind split with
        ⟨further, noted⟩ | ⟨events, _, inner, finishes, rfl, noted⟩
      · obtain ⟨below, descended, visited⟩ :=
          Run.noted_of_ofExcept_bind noted
        exact
          ⟨0, child, below, [], earlier, further, rfl, descended, rfl, rfl,
            visited⟩
      · obtain ⟨place, next, below, others, before, after, isChild,
          descended, visited, rfl, isNoted⟩ := inductionHypothesis noted
        refine
          ⟨place + 1, next, below, events ++ others, before, after, isChild,
            ?_, ?_, ?_, isNoted⟩
        · rw [← descended, Nat.add_assoc, Nat.add_comm 1]
        · rw [List.take_succ_cons, visitChildren_cons, Run.trace_bind,
            finishes]
          simp only [Trace.andThen, visited]
        · rw [Event.notes_append, List.append_assoc]

/-- The notes of a child's visit follow those made in the visits before it. -/
theorem notes_visitChildren_at
    {children : List Node}
    {place : Nat}
    {child : Node}
    {below : Context}
    {events : List Event}
    (isChild : children[place]? = some child)
    (descended :
      context.descend services.settings node (.ofNat place) = .ok below)
    (visited :
      (visitChildren services node context 0
          (children.take place)).trace handlers =
        { events := events, ending := .finished () }) :
    ∃ after,
      (visitChildren services node context 0 children).notes handlers =
        Event.notes events ++
          (services.visitNode child below).notes handlers ++ after := by
  obtain ⟨within, isThere⟩ := List.getElem?_eq_some_iff.mp isChild
  have parts :
      children = children.take place ++ child :: children.drop (place + 1) := by
    rw [← isThere, List.getElem_cons_drop, List.take_append_drop]
  have sameLength : (children.take place).length = place :=
    List.length_take_of_le (Nat.le_of_lt within)
  obtain ⟨after, more⟩ :=
    (visitChild services node context place child).exists_notes_bind
      (fun _ =>
        visitChildren services node context (place + 1)
          (children.drop (place + 1)))
  refine ⟨after, ?_⟩
  conv =>
    lhs
    rw [parts, visitChildren_append, sameLength, Nat.zero_add,
      visitChildren_cons]
  rw [Run.notes_bind_of_finished visited, more, visitChild, descended,
    List.append_assoc]
  rfl

/-- To rebuild a node notes what is noted in the visits of its children. -/
theorem notes_rebuild
    (services : Services)
    (node : Node)
    (context : Context) :
    (rebuild services node context).notes handlers =
      (visitChildren services node context 0 node.children).notes
        handlers := by
  unfold rebuild
  split
  · next isEmpty =>
      rw [List.isEmpty_iff.mp isEmpty]
      rfl
  · rw [Run.bind_eq, Run.notes_bind_of_silent, Run.notes_gather]
    intro replacements
    cases node.withChildren (replacements.map Value.asNode) <;> rfl

/-- The fallback notes what is noted in the visits of the children. -/
theorem notes_callGeneric
    {walker : Walker}
    (original : walker.fallback = none)
    (services : Services)
    (node : Node)
    (context : Context) :
    ((walker.callGeneric services node context).bind id).notes handlers =
      (visitChildren services node context 0 node.children).notes
        handlers := by
  simp only [callGeneric, original, callStructural]
  cases walker.mode with
  | visitor =>
      rfl
  | transformer =>
      rw [Run.bind_bind, Run.notes_bind_of_silent, notes_rebuild]
      intro rebuilt
      rfl

/-- To visit a node notes what is noted in its call, and then what the call leaves. -/
theorem notes_visitNode
    (walker : Walker)
    (services : Services)
    (node : Node)
    (context : Context) :
    (walker.visitNode services node context).notes handlers =
      ((walker.callNode services node context).bind id).notes handlers := by
  simp only [visitNode]
  cases walker.mode with
  | visitor =>
      rfl
  | transformer =>
      exact Run.notes_eq_of_collect handlers (Run.collect_regather _)

/-- To visit a node notes all that is noted once its handler has been chosen. -/
theorem notes_visitNode_resolved
    (walker : Walker)
    (services : Services)
    (node : Node)
    (context : Context) :
    (walker.visitNode services node context).notes handlers =
      (walker.visitResolved services node context
        (handlers.resolve? node.kind)).notes handlers := by
  rw [notes_visitNode, callNode_bind_id]
  rfl

/-- A node without a handler goes to the fallback when the listener has been told. -/
theorem notes_visitNode_of_unhandled
    {walker : Walker}
    {told : List Event}
    (unhandled : handlers.resolve? node.kind = none)
    (accepted :
      (notify walker.settings node none).trace handlers =
        { events := told, ending := .finished () })
    (services : Services)
    (context : Context) :
    (walker.visitNode services node context).notes handlers =
      Event.notes told ++
        ((walker.callGeneric services node context).bind id).notes
          handlers := by
  rw [notes_visitNode_resolved, unhandled]
  exact Run.notes_bind_of_finished accepted _

/-- A handler is called when the listener has been told, and then notes what it gives. -/
theorem notes_visitNode_of_handled
    {walker : Walker}
    {registration : Registration Handler}
    {told : List Event}
    (handled : handlers.resolve? node.kind = some registration)
    (accepted :
      (notify walker.settings node
          (some registration.type)).trace handlers =
        { events := told, ending := .finished () })
    (services : Services)
    (context : Context) :
    (walker.visitNode services node context).notes handlers =
      Event.notes told ++
        .entered (some registration.type) node context ::
          (registration.handler.given services node context).notes
            handlers := by
  have isBound :
      registration.handlerFor node = .ok registration.handler :=
    if_pos (HandlerMap.includes_of_resolve? handled)
  rw [notes_visitNode_resolved, handled]
  refine (Run.notes_bind_of_finished accepted _).trans ?_
  simp only [isBound]
  rfl

/-- What the listener is told is all that is noted in telling him. -/
theorem entry_of_notify
    {settings : Settings}
    {type : Option NodeType}
    {note : Note}
    (noted : note ∈ (notify settings node type).notes handlers) :
    ∃ entry, note = .entry entry := by
  cases listening : settings.listener with
  | silent =>
      simp only [notify, listening] at noted
      cases noted
  | debugging =>
      simp only [notify, listening] at noted
      exact ⟨_, List.mem_singleton.mp noted⟩
  | logging rejected =>
      simp only [notify, listening, Run.bind_eq] at noted
      by_cases rejects : rejected = some node.kind
      · simp only [if_pos rejects] at noted
        exact ⟨_, List.mem_singleton.mp noted⟩
      · simp only [if_neg rejects] at noted
        exact ⟨_, List.mem_singleton.mp noted⟩

end Walker

end QueryWalk
