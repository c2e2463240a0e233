import QueryWalk.Proofs.CallPassage

namespace QueryWalk

/-!
# One passage to every call

What a call leads to is run one after the other. So of two calls that it leads to
directly, one is over, with all that is noted in it, before the other begins. Hence only
one passage leads to a handler that is called after some notes, and the moves on it
account for what the handler is told.
-/

namespace Point

variable
  {services : Services}
  {handlers : HandlerMap Handler}
  {point first second : Point}
  {events others : List Event}

/-- Of two points that the machine comes to it comes to one from the other. -/
theorem Reaches.before_or_after
    (reaches : point.Reaches services handlers events first)
    (another : point.Reaches services handlers others second) :
    (∃ between,
        first.Reaches services handlers between second ∧
          others = events ++ between) ∨
      ∃ between,
        second.Reaches services handlers between first ∧
          events = others ++ between := by
  induction reaches generalizing others with
  | here =>
      exact .inl ⟨others, another, rfl⟩
  | onward step reaches inductionHypothesis =>
      cases another with
      | here =>
          exact .inr ⟨_, .onward step reaches, rfl⟩
      | onward anotherStep anotherReaches =>
          obtain ⟨rfl, rfl⟩ := step.unique anotherStep
          rcases inductionHypothesis anotherReaches with
            ⟨between, onward, rfl⟩ | ⟨between, onward, rfl⟩
          · exact .inl ⟨between, onward, (List.append_assoc ..).symm⟩
          · exact .inr ⟨between, onward, (List.append_assoc ..).symm⟩

/-- The machine stays before an action, or leaves it with all that the action notes. -/
theorem Reaches.here_or_past
    {scope : Scope}
    {action : Action}
    {rest : List Action}
    {frames : List Frame}
    (simple : action.parts? scope = none)
    (reaches :
      Reaches services handlers
        { scope := scope, actions := action :: rest, frames := frames }
        events second) :
    (events = [] ∧
        second =
          { scope := scope, actions := action :: rest, frames := frames }) ∨
      ∃ after,
        Event.notes events =
          (action.run services scope).notes handlers ++ after := by
  cases reaches with
  | here =>
      exact .inl ⟨rfl, rfl⟩
  | @onward _ _ _ own further step _ =>
      refine .inr ⟨Event.notes further, ?_⟩
      rw [Event.notes_append]
      congr 1
      cases step with
      | entered consists =>
          rw [simple] at consists
          cases consists
      | done _ finishes =>
          rw [Run.notes, finishes]
      | rescued _ fails =>
          rw [Run.notes, fails]

end Point

namespace Handler

variable
  {services : Services}
  {handlers : HandlerMap Handler}
  {handler : Handler}
  {node : Node}
  {context changed changedToo : Context}
  {events others : List Event}
  {scope scopeToo : Scope}
  {action actionToo : Action}
  {rest restToo : List Action}
  {frames framesToo : List Frame}
  {service serviceToo : Service}
  {change changeToo : Change}

/-- A call of a handler for its node is over when the machine comes to another one. -/
theorem same_or_past
    {between : List Event}
    (reaches :
      (Point.start handler node context).Reaches services handlers events
        { scope := scope, actions := action :: rest, frames := frames })
    (calls : action.callback? = some (service, .node, change))
    (applied : change.apply scope = .ok changed)
    (onward :
      Point.Reaches services handlers
        { scope := scope, actions := action :: rest, frames := frames }
        between
        { scope := scopeToo
          actions := actionToo :: restToo
          frames := framesToo })
    (callsToo : actionToo.callback? = some (serviceToo, .node, changeToo))
    (appliedToo : changeToo.apply scopeToo = .ok changedToo) :
    (between = [] ∧
        scope = scopeToo ∧
        service = serviceToo ∧
        change = changeToo ∧
        changed = changedToo) ∨
      ∃ after,
        Event.notes between =
          (services.take
              { service := service
                node := node
                context := changed }).notes handlers ++
            after := by
  rw [← notes_of_callback? reaches calls applied]
  rcases onward.here_or_past (Action.simple_of_callback? calls) with
    ⟨isNil, isSame⟩ | isPast
  · cases isSame
    rw [calls] at callsToo
    cases callsToo
    rw [applied] at appliedToo
    cases appliedToo
    exact .inl ⟨isNil, rfl, rfl, rfl, rfl⟩
  · exact .inr isPast

/-- Of two calls of a handler for its node, one is over before the other begins. -/
theorem same_or_over
    (reaches :
      (Point.start handler node context).Reaches services handlers events
        { scope := scope, actions := action :: rest, frames := frames })
    (calls : action.callback? = some (service, .node, change))
    (applied : change.apply scope = .ok changed)
    (reachesToo :
      (Point.start handler node context).Reaches services handlers others
        { scope := scopeToo
          actions := actionToo :: restToo
          frames := framesToo })
    (callsToo : actionToo.callback? = some (serviceToo, .node, changeToo))
    (appliedToo : changeToo.apply scopeToo = .ok changedToo) :
    (events = others ∧
        scope = scopeToo ∧
        service = serviceToo ∧
        change = changeToo ∧
        changed = changedToo) ∨
      (∃ after,
        Event.notes others =
          Event.notes events ++
            (services.take
                { service := service
                  node := node
                  context := changed }).notes handlers ++
            after) ∨
      ∃ after,
        Event.notes events =
          Event.notes others ++
            (services.take
                { service := serviceToo
                  node := node
                  context := changedToo }).notes handlers ++
            after := by
  rcases reaches.before_or_after reachesToo with
    ⟨between, onward, rfl⟩ | ⟨between, onward, rfl⟩
  · rcases same_or_past reaches calls applied onward callsToo appliedToo with
      ⟨rfl, same⟩ | ⟨after, isPast⟩
    · exact .inl ⟨(List.append_nil _).symm, same⟩
    · refine .inr (.inl ⟨after, ?_⟩)
      rw [Event.notes_append, isPast, List.append_assoc]
  · rcases same_or_past reachesToo callsToo appliedToo onward calls
        applied with
      ⟨rfl, rfl, rfl, rfl, rfl⟩ | ⟨after, isPast⟩
    · exact .inl ⟨List.append_nil _, rfl, rfl, rfl, rfl⟩
    · refine .inr (.inr ⟨after, ?_⟩)
      rw [Event.notes_append, isPast, List.append_assoc]

end Handler

namespace Walker

variable
  {handlers : HandlerMap Handler}
  {services : Services}
  {node : Node}
  {context : Context}

/-- The visit of a child is over, with all its notes, when a later one is visited. -/
theorem notes_visited_past
    {children : List Node}
    {place later : Nat}
    {child : Node}
    {below : Context}
    {events others : List Event}
    (isLater : place < later)
    (isChild : children[place]? = some child)
    (descended :
      context.descend services.settings node (.ofNat place) = .ok below)
    (visited :
      (visitChildren services node context 0
          (children.take place)).trace handlers =
        { events := events, ending := .finished () })
    (visitedLater :
      (visitChildren services node context 0
          (children.take later)).trace handlers =
        { events := others, ending := .finished () }) :
    ∃ after,
      Event.notes others =
        Event.notes events ++
          (services.visitNode child below).notes handlers ++ after := by
  have isThere : (children.take later)[place]? = some child := by
    rw [List.getElem?_take_of_lt isLater, isChild]
  have sameBefore : (children.take later).take place = children.take place := by
    rw [List.take_take, Nat.min_eq_left (Nat.le_of_lt isLater)]
  rw [← sameBefore] at visited
  obtain ⟨after, more⟩ :=
    notes_visitChildren_at isThere descended visited
  rw [Run.notes, visitedLater] at more
  exact ⟨after, more⟩

end Walker

namespace Stage

variable
  {walker : Walker}
  {handlers : HandlerMap Handler}
  {first next other last stage : Stage}
  {before sooner earlier : List Note}
  {moves others : List Move}

/-- A call that another leads to is over, with all its notes, after some notes. -/
def IsOver
    (walker : Walker)
    (handlers : HandlerMap Handler)
    (stage : Stage)
    (before after : List Note) :
    Prop :=
  ∃ more, after = before ++ stage.notes walker handlers ++ more

/-- Of two calls that a call leads to, one is over before the other begins. -/
theorem Enters.same_or_over
    (enters : first.Enters walker handlers before moves next)
    (another : first.Enters walker handlers sooner others other) :
    (before = sooner ∧ moves = others ∧ next = other) ∨
      next.IsOver walker handlers before sooner ∨
      other.IsOver walker handlers sooner before := by
  cases enters with
  | fallback unhandled accepted =>
      cases another with
      | fallback _ acceptedToo =>
          rw [accepted] at acceptedToo
          cases acceptedToo
          exact .inl ⟨rfl, rfl, rfl⟩
      | handler handled =>
          rw [unhandled] at handled
          cases handled
      | child goesDown =>
          exact (Service.not_goesDown_visitNode goesDown).elim
  | handler handled accepted reaches calls applied =>
      cases another with
      | fallback unhandled =>
          rw [handled] at unhandled
          cases unhandled
      | handler handledToo acceptedToo reachesToo callsToo appliedToo =>
          rw [handled] at handledToo
          cases handledToo
          rw [accepted] at acceptedToo
          cases acceptedToo
          rcases Handler.same_or_over reaches calls applied reachesToo
              callsToo appliedToo with
            ⟨rfl, rfl, rfl, rfl, rfl⟩ | ⟨after, isOver⟩ | ⟨after, isOver⟩
          · exact .inl ⟨rfl, rfl, rfl⟩
          · refine .inr (.inl ⟨after, ?_⟩)
            rw [isOver]
            simp only [List.append_assoc, List.cons_append, notes]
          · refine .inr (.inr ⟨after, ?_⟩)
            rw [isOver]
            simp only [List.append_assoc, List.cons_append, notes]
      | child goesDown =>
          exact (Service.not_goesDown_visitNode goesDown).elim
  | @child _ _ _ _ _ _ place _ goesDown visited isChild descended =>
      cases another with
      | fallback | handler =>
          exact (Service.not_goesDown_visitNode goesDown).elim
      | @child _ _ _ _ _ _ placeToo _ _ visitedToo isChildToo
          descendedToo =>
          rcases Nat.lt_trichotomy place placeToo with
            isSooner | rfl | isLater
          · rw [← Walker.settings_services] at descended
            exact .inr (.inl
              (Walker.notes_visited_past isSooner isChild descended visited
                visitedToo))
          · rw [visited] at visitedToo
            cases visitedToo
            rw [isChild] at isChildToo
            cases isChildToo
            rw [descended] at descendedToo
            cases descendedToo
            exact .inl ⟨rfl, rfl, rfl⟩
          · rw [← Walker.settings_services] at descendedToo
            exact .inr (.inr
              (Walker.notes_visited_past isLater isChildToo descendedToo
                visitedToo visited))

/-- A node with a handler leads to other calls only after the call of its handler. -/
theorem Calls.before_enters
    {told : List Note}
    {type : NodeType}
    (calls : first.Calls walker handlers told type)
    (enters : first.Enters walker handlers before moves next) :
    ∃ after,
      before =
        told ++
          .entered (some type) first.call.node first.call.context ::
            after := by
  cases calls with
  | handler handled accepted =>
      cases enters with
      | fallback unhandled =>
          rw [handled] at unhandled
          cases unhandled
      | handler handledToo acceptedToo =>
          rw [handled] at handledToo
          cases handledToo
          rw [accepted] at acceptedToo
          cases acceptedToo
          exact ⟨_, rfl⟩
      | child goesDown =>
          exact (Service.not_goesDown_visitNode goesDown).elim

/-- The call of a node's handler is noted once the listener has been told. -/
theorem Calls.notes_eq
    {told : List Note}
    {type : NodeType}
    (calls : first.Calls walker handlers told type) :
    ∃ after,
      first.notes walker handlers =
        told ++
          .entered (some type) first.call.node first.call.context ::
            after := by
  cases calls with
  | @handler bound node context registration told handled accepted =>
      exact
        ⟨_, Walker.notes_visitNode_of_handled handled accepted
          (walker.services bound) context⟩

/-- The notes of a call that is over are among those made before another. -/
theorem IsOver.length_le
    (isOver : stage.IsOver walker handlers before sooner) :
    before.length + (stage.notes walker handlers).length ≤
      sooner.length := by
  obtain ⟨more, rfl⟩ := isOver
  simp only [List.length_append]
  omega

/-- A handler that a passage leads to is called before its first call is over. -/
theorem Passage.length_lt
    (original : walker.fallback = none)
    {told : List Note}
    {type : NodeType}
    (passage : first.Passage walker handlers before moves last)
    (calls : last.Calls walker handlers told type) :
    before.length + told.length < (first.notes walker handlers).length := by
  obtain ⟨after, isNoted⟩ := passage.notes_eq original
  obtain ⟨further, isCalled⟩ := calls.notes_eq
  rw [isNoted, isCalled]
  simp only [List.length_append, List.length_cons]
  omega

/-- Passages that lead to handlers called after the same notes have the same moves. -/
theorem Passage.moves_unique
    (original : walker.fallback = none)
    {told toldToo : List Note}
    {type typeToo : NodeType}
    (passage : first.Passage walker handlers before moves last)
    (calls : last.Calls walker handlers told type)
    (another : first.Passage walker handlers sooner others other)
    (callsToo : other.Calls walker handlers toldToo typeToo)
    (sameEarlier : before ++ told = sooner ++ toldToo) :
    moves = others := by
  induction passage generalizing sooner others with
  | here =>
      cases another with
      | here =>
          rfl
      | onward enters =>
          obtain ⟨after, rfl⟩ := calls.before_enters enters
          have tooLong := congrArg List.length sameEarlier
          simp only [List.length_append, List.length_cons,
            List.length_nil] at tooLong
          omega
  | @onward first next last before further moves rest enters passage
      inductionHypothesis =>
      cases another with
      | here =>
          obtain ⟨after, rfl⟩ := callsToo.before_enters enters
          have tooLong := congrArg List.length sameEarlier
          simp only [List.length_append, List.length_cons,
            List.length_nil] at tooLong
          omega
      | onward entersToo passageToo =>
          have sameLength := congrArg List.length sameEarlier
          simp only [List.length_append] at sameLength
          have inNext := passage.length_lt original calls
          have inOther := passageToo.length_lt original callsToo
          rcases enters.same_or_over entersToo with
            ⟨rfl, rfl, rfl⟩ | isOver | isOver
          · rw [List.append_assoc, List.append_assoc] at sameEarlier
            have sameFurther := List.append_cancel_left sameEarlier
            rw [inductionHypothesis calls passageToo sameFurther]
          · have tooLate := isOver.length_le
            omega
          · have tooLate := isOver.length_le
            omega

variable
  {type : Option NodeType}
  {node : Node}
  {context : Context}

/-- Only the moves of one passage lead to the handler that is called after some notes. -/
theorem Leads.unique
    (original : walker.fallback = none)
    (leads : first.Leads walker handlers earlier moves type node context)
    (another :
      first.Leads walker handlers earlier others type node context) :
    moves = others := by
  obtain ⟨before, told, last, _, passage, calls, -, -, -, rfl⟩ := leads
  obtain ⟨sooner, toldToo, other, _, passageToo, callsToo, -, -, -,
    sameEarlier⟩ := another
  exact passage.moves_unique original calls passageToo callsToo sameEarlier

/--
All that a handler is told when it is called, after some notes, is accounted for by the
moves on the passage that leads to the call.
-/
structure Accounts
    (walker : Walker)
    (handlers : HandlerMap Handler)
    (first : Stage)
    (earlier : List Note)
    (moves : List Move)
    (type : Option NodeType)
    (node : Node)
    (context : Context) : Prop where
  leads : first.Leads walker handlers earlier moves type node context
  /-- There is no other way to this call of the handler. -/
  only :
    ∀ others,
      first.Leads walker handlers earlier others type node context →
      others = moves
  isThere : first.call.node.at? (Move.address moves) = some node
  /-- Every key of the caller holds what the changes on the passage made of it. -/
  keys :
    ∀ key,
      (∀ chain : Chain,
        chain.isTracked walker.settings = true →
        chain.key ≠ key) →
      context.keys.get? key =
        Move.effects key (first.call.context.keys.get? key) moves
  /-- Every change was made at a node above, in what the changes before made of the keys. -/
  changes :
    ∀ {sooner rest : List Move} {scope : Scope} {change : Change},
      moves = sooner ++ .changed scope change :: rest →
      first.call.node.at? (Move.address sooner) = some scope.node ∧
        ∀ key,
          (∀ chain : Chain,
            chain.isTracked walker.settings = true →
            chain.key ≠ key) →
          scope.context.keys.get? key =
            Move.effects key (first.call.context.keys.get? key) sooner
  /-- As long as the handler runs it keeps the context that it was called in. -/
  keeps :
    ∀ {handler : Handler} {services : Services} {events : List Event}
      {point : Point},
      (Point.start handler node context).Reaches services handlers events
        point →
      point.scope.IsAt node context

/-- A passage accounts for what the handler is told that it leads to. -/
theorem Leads.accounts
    (original : walker.fallback = none)
    (leads : first.Leads walker handlers earlier moves type node context) :
    first.Accounts walker handlers earlier moves type node context := by
  obtain ⟨before, told, last, handlerType, passage, calls, isType, rfl,
    rfl, rfl⟩ := id leads
  exact
    { leads := leads
      only := fun others other => other.unique original leads
      isThere := passage.at?
      keys := fun key other => passage.takeAll.get? other
      changes := by
        intro sooner rest scope change split
        obtain ⟨isThere, takes⟩ := passage.isAt_of_changed split
        exact ⟨isThere, fun key other => takes.get? other⟩
      keeps := fun reaches => reaches.isAt }

end Stage

end QueryWalk
