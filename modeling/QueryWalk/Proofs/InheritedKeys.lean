import QueryWalk.Proofs.CarriedProperties
import QueryWalk.Proofs.LazyTraversal
import QueryWalk.Proofs.UniquePassage

namespace QueryWalk

/-!
# What handlers inherit

A handler may change the keys of its context when it goes on from its node. The change
reaches the handlers called within that call and no others: not those called for siblings,
not what the handler itself does later, and not other traversals with the same walker, in
whatever order their iterators are asked for results. So the keys that a handler is told
are those that its traversal began with, changed by the calls around the handler's own.
-/

namespace Run

variable {handlers : HandlerMap Handler}

/-- Taking a run to its end with a table makes the notes of the run. -/
theorem notes_of_complete
    {Outcome : Type}
    {table : HandlerTable Handler}
    (standsFor : table.StandsFor handlers)
    (run : Run Outcome) :
    Event.notes (run.complete table).events = run.notes handlers := by
  rw [(complete_eq_trace standsFor run).1, notes]

/-- The notes of a run that stops at a result go on with those of the rest. -/
theorem notes_of_atResult
    {table : HandlerTable Handler}
    (standsFor : table.StandsFor handlers)
    {run rest : Run Unit}
    {value : Value}
    (stopped : (run.advance table).halt = .atResult value rest) :
    run.notes handlers =
      Event.notes (run.advance table).events ++ rest.notes handlers := by
  obtain ⟨-, -, after, -⟩ := run.advance_eq_of_standsFor standsFor standsFor
  rw [← notes_of_complete standsFor, complete_of_advance_atResult stopped,
    Event.notes_append, ← notes_of_complete after]
  rfl

/-- A run that stops at its end has made all its notes. -/
theorem notes_of_atEnd
    {table : HandlerTable Handler}
    (standsFor : table.StandsFor handlers)
    {run : Run Unit}
    {ending : Ending Unit}
    (stopped : (run.advance table).halt = .atEnd ending) :
    run.notes handlers = Event.notes (run.advance table).events := by
  rw [← notes_of_complete standsFor, complete_of_advance_atEnd stopped]

end Run

namespace Walker

/-- A traversal notes what is noted in the visit of its root. -/
theorem notes_traverse
    {handlers : HandlerMap Handler}
    (walker : Walker)
    (services : Services)
    (tree : Node)
    (keys : Fields Value) :
    (walker.traverse services tree keys).notes handlers =
      (walker.visitNode services tree
        (.root walker.settings keys)).notes handlers := by
  rw [traverse, Run.bind_eq, Run.notes_bind_of_silent, Run.notes_gather]
  intro results
  cases walker.mode with
  | visitor =>
      rfl
  | transformer =>
      rcases results with _ | ⟨first, _ | ⟨second, rest⟩⟩ <;> rfl

end Walker

namespace Step

/-- The call that a step takes to its end, if it does, with the recursion left for it. -/
def taken? (settings : Settings) (bound : Nat) : Step → Option Stage
  | .traverse tree keys =>
      some
        { bound := bound
          call :=
            { service := .visitNode
              node := tree
              context := .root settings keys } }
  | .visitNode node context =>
      some
        { bound := bound
          call := { service := .visitNode, node := node, context := context } }
  | .generic node context =>
      some
        { bound := bound
          call := { service := .generic, node := node, context := context } }
  | .rebuild node context =>
      some
        { bound := bound
          call := { service := .rebuild, node := node, context := context } }
  | .childContext .. | .setHandler .. | .deleteHandler .. | .start ..
  | .startNode .. | .startGeneric .. | .next _ | .rest _ => none

/-- The iterator that a step opens, if it does, with the call that it is opened on. -/
def opened?
    (settings : Settings)
    (bound : Nat) :
    Step → Option (String × Stage)
  | .start name tree keys =>
      some (name,
        { bound := bound
          call :=
            { service := .visitNode
              node := tree
              context := .root settings keys } })
  | .startNode name node context =>
      some (name,
        { bound := bound + 1
          call :=
            { service := .visitNode, node := node, context := context } })
  | .startGeneric name node context =>
      some (name,
        { bound := bound + 1
          call := { service := .generic, node := node, context := context } })
  | .childContext .. | .setHandler .. | .deleteHandler .. | .traverse ..
  | .visitNode .. | .generic .. | .rebuild .. | .next _ | .rest _ => none

/-- A step takes a call of a service that goes down from its node. -/
theorem descends_of_taken?
    {settings : Settings}
    {bound : Nat}
    {step : Step}
    {stage : Stage}
    (takes : step.taken? settings bound = some stage) :
    stage.call.service.Descends := by
  cases step with
  | traverse | visitNode =>
      cases takes
      exact .inl rfl
  | generic =>
      cases takes
      exact .inr (.inl rfl)
  | rebuild =>
      cases takes
      exact .inr (.inr rfl)
  | _ =>
      cases takes

/-- A step opens an iterator on a call of a service that goes down from its node. -/
theorem descends_of_opened?
    {settings : Settings}
    {bound : Nat}
    {step : Step}
    {name : String}
    {stage : Stage}
    (opens : step.opened? settings bound = some (name, stage)) :
    stage.call.service.Descends := by
  cases step with
  | start | startNode =>
      cases opens
      exact .inl rfl
  | startGeneric =>
      cases opens
      exact .inr (.inl rfl)
  | _ =>
      cases opens

end Step

namespace Session

/-- What is noted when a run is taken to its end within a step. -/
def noted
    {Outcome : Type}
    (session : Session)
    (run : Run Outcome) :
    List Note :=
  Event.notes (run.complete session.table).events

/-- What is noted while a step is taken. -/
def notes (bound : Nat) (session : Session) : Step → List Note
  | .traverse tree keys => session.noted (services.restart tree keys)
  | .visitNode node context =>
      session.noted (services.visitNode node context).gather
  | .generic node context =>
      session.noted (services.generic node context).gather
  | .rebuild node context => session.noted (services.rebuild node context)
  | .startNode _ node context =>
      session.noted (session.walker.openNode services node context)
  | .startGeneric _ node context =>
      session.noted (session.walker.callGeneric services node context)
  | .next name =>
      (session.iterator? name).elim [] fun run =>
        Event.notes (run.advance session.table).events
  | .rest name =>
      (session.iterator? name).elim [] fun run => session.noted run.gather
  | .childContext .. | .setHandler .. | .deleteHandler ..
  | .start .. => []
where
  services : Services := session.walker.services bound

/-- The log of a step is what is told in its notes. -/
theorem log_step
    (bound : Nat)
    (session : Session)
    (step : Step) :
    (session.step bound step).1.log =
      (session.notes bound step).filterMap Note.entry? := by
  cases step with
  | childContext | setHandler | deleteHandler =>
      rfl
  | start name tree keys =>
      simp only [Session.step, openTraversal]
      cases session.walker.mode <;> rfl
  | traverse | visitNode | generic | rebuild | startNode | startGeneric =>
      exact Event.log_eq_notes _
  | next name =>
      simp only [Session.step, notes]
      cases session.iterator? name with
      | none =>
          rfl
      | some run =>
          simp only [pull, Option.elim]
          cases (run.advance session.table).halt <;>
            exact Event.log_eq_notes _
  | rest name =>
      simp only [Session.step, notes]
      cases session.iterator? name with
      | none =>
          rfl
      | some run =>
          exact Event.log_eq_notes _

variable
  {handlers : HandlerMap Handler}
  {session : Session}

/-- A step that takes a call to its end makes the notes of the call. -/
theorem notes_of_taken?
    (standsFor : session.table.StandsFor handlers)
    {bound : Nat}
    {step : Step}
    {stage : Stage}
    (takes : step.taken? session.walker.settings bound = some stage) :
    session.notes bound step = stage.notes session.walker handlers := by
  cases step with
  | traverse tree keys =>
      cases takes
      rw [notes, noted, Run.notes_of_complete standsFor]
      cases bound with
      | zero =>
          rfl
      | succ bound =>
          exact session.walker.notes_traverse (session.walker.services bound)
            tree keys
  | visitNode node context | generic node context =>
      cases takes
      rw [notes, noted, Run.notes_of_complete standsFor, Run.notes_gather]
      rfl
  | rebuild node context =>
      cases takes
      rw [notes, noted, Run.notes_of_complete standsFor]
      exact (Run.notes_bind_of_silent _ fun _ => rfl).symm
  | _ =>
      cases takes

/-- An iterator that a call opened on has the notes left that the call has not made. -/
theorem notes_of_openIterator
    (standsFor : session.table.StandsFor handlers)
    {name : String}
    {call : Run (Run Unit)}
    (opens : (session.openIterator name call).1.reply = .nothing) :
    ∃ run,
      (session.openIterator name call).2.iterator? name = some run ∧
        (call.bind id).notes handlers =
          session.noted call ++ run.notes handlers := by
  obtain ⟨sameEvents, sameHalt, -⟩ := call.complete_eq_trace standsFor
  simp only [openIterator, noted] at opens ⊢
  cases halted : (call.complete session.table).halt with
  | finished run =>
      refine ⟨run, ?_, ?_⟩
      · exact iterator?_withIterator_self _ name run
      · have finishes :
            call.trace handlers =
              { events := (call.complete session.table).events
                ending := .finished run } := by
          rw [sameEvents, ← halted, sameHalt]
        rw [Run.notes_bind_of_finished finishes]
        rfl
  | failed failure =>
      rw [halted] at opens
      cases opens
  | exhausted =>
      rw [halted] at opens
      cases opens

/-- An iterator that is opened on a call has the notes left that its opening did not make. -/
theorem notes_of_opened?
    (standsFor : session.table.StandsFor handlers)
    {bound : Nat}
    {step : Step}
    {name : String}
    {stage : Stage}
    (opens : step.opened? session.walker.settings bound = some (name, stage))
    (opened : (session.step bound step).1.reply = .nothing) :
    ∃ run,
      (session.step bound step).2.iterator? name = some run ∧
        stage.notes session.walker handlers =
          session.notes bound step ++ run.notes handlers := by
  cases step with
  | start other tree keys =>
      cases opens
      simp only [Session.step, openTraversal] at opened ⊢
      cases mode : session.walker.mode with
      | visitor =>
          exact ⟨_, iterator?_withIterator_self session name _, rfl⟩
      | transformer =>
          rw [mode] at opened
          cases opened
  | startNode other node context =>
      cases opens
      obtain ⟨run, isOpen, isNoted⟩ :=
        notes_of_openIterator standsFor opened
      rw [Walker.openNode_bind_id] at isNoted
      exact ⟨run, isOpen, isNoted⟩
  | startGeneric other node context =>
      cases opens
      exact notes_of_openIterator standsFor opened
  | _ =>
      cases opens

/-- What is noted in some steps while they are about one iterator. -/
def notesOf
    (bound : Nat)
    (name : String)
    (session : Session) :
    List Step → List Note
  | [] => []
  | step :: later =>
      (if step.iterator? = some name then session.notes bound step else []) ++
        (session.step bound step).2.notesOf bound name later

/-- A step about an open iterator leaves the notes that it has not made itself. -/
theorem notes_of_asked
    {bound : Nat}
    {name : String}
    {run : Run Unit}
    (standsFor : session.table.StandsFor handlers)
    (isOpen : session.iterator? name = some run)
    {step : Step}
    (concerned : step.iterator? = some name)
    (notOpened :
      ∀ stage,
        step.opened? session.walker.settings bound ≠ some (name, stage)) :
    ∃ left,
      (session.step bound step).2.iterator? name = some left ∧
        run.notes handlers =
          session.notes bound step ++ left.notes handlers := by
  cases step with
  | next =>
      cases concerned
      simp only [Session.step, notes, isOpen, pull, Option.elim]
      cases stopped : (run.advance session.table).halt with
      | atResult value rest =>
          exact
            ⟨rest, iterator?_withIterator_self _ name rest,
              Run.notes_of_atResult standsFor stopped⟩
      | atEnd ending =>
          refine ⟨.done (), iterator?_withIterator_self _ name _, ?_⟩
          rw [Run.notes_of_atEnd standsFor stopped]
          exact (List.append_nil _).symm
  | rest =>
      cases concerned
      simp only [Session.step, notes, isOpen, drain, Option.elim]
      refine ⟨.done (), iterator?_withIterator_self _ name _, ?_⟩
      rw [noted, Run.notes_of_complete standsFor, Run.notes_gather]
      exact (List.append_nil _).symm
  | start | startNode | startGeneric =>
      cases concerned
      exact (notOpened _ rfl).elim
  | _ =>
      cases concerned

/--
In an iterator that is not opened again only what is left of its run is noted, whatever
else is done with the walker.
-/
theorem notesOf_isPrefix
    {bound : Nat}
    {name : String}
    {run : Run Unit}
    (standsFor : session.table.StandsFor handlers)
    (isOpen : session.iterator? name = some run)
    {steps : List Step}
    (notReopened :
      ∀ step ∈ steps, ∀ stage,
        step.opened? session.walker.settings bound ≠ some (name, stage)) :
    session.notesOf bound name steps <+: run.notes handlers := by
  induction steps generalizing session run with
  | nil =>
      exact List.nil_prefix
  | cons step later inductionHypothesis =>
      obtain ⟨notOpened, laterNot⟩ := List.forall_mem_cons.mp notReopened
      rw [← walker_step bound session step] at laterNot
      have after := table_step bound standsFor step
      rw [notesOf]
      by_cases concerned : step.iterator? = some name
      · obtain ⟨left, leftOpen, isNoted⟩ :=
          notes_of_asked standsFor isOpen concerned notOpened
        rw [if_pos concerned, isNoted]
        exact (List.prefix_append_right_inj _).mpr
          (inductionHypothesis after leftOpen laterNot)
      · rw [if_neg concerned, List.nil_append]
        exact inductionHypothesis after
          ((iterator?_step bound session step concerned).trans isOpen)
          laterNot

/-- All that is noted in an iterator is noted in the call that it was opened on. -/
theorem notesOf_isPrefix_of_opened
    {bound : Nat}
    {name : String}
    (standsFor : session.table.StandsFor handlers)
    {step : Step}
    {stage : Stage}
    (opens : step.opened? session.walker.settings bound = some (name, stage))
    (opened : (session.step bound step).1.reply = .nothing)
    {later : List Step}
    (notReopened :
      ∀ other ∈ later, ∀ stage,
        other.opened? session.walker.settings bound ≠ some (name, stage)) :
    session.notesOf bound name (step :: later) <+:
      stage.notes session.walker handlers := by
  obtain ⟨run, isOpen, isNoted⟩ := notes_of_opened? standsFor opens opened
  rw [← walker_step bound session step] at notReopened
  have concerned : step.iterator? = some name := by
    cases step with
    | start | startNode | startGeneric =>
        cases opens
        rfl
    | _ =>
        cases opens
  rw [notesOf, if_pos concerned, isNoted]
  exact (List.prefix_append_right_inj _).mpr
    (notesOf_isPrefix (table_step bound standsFor step) isOpen notReopened)

/--
A change of the keys reaches the handlers below and no others. Let no fallback be replaced
and let handlers go on from their own nodes only. Whatever was done with a walker before,
a handler that is called in a complete step, or in an iterator that is asked for results
between any other steps, is told the keys that this call of the walker began with, changed
by the calls of handlers around its own, the outermost first, and by nothing else. It keeps
these keys as long as it runs.
-/
theorem changes_reach_only_below
    {walker : Walker}
    (original : walker.fallback = none)
    (goOn : ∀ entry ∈ handlers, entry.2.Throughout Action.GoesOnItself)
    (bound : Nat)
    (earlier : List Step) :
    let session := (create walker handlers).after bound earlier
    (∀ {step : Step} {first : Stage} {before after : List Note}
        {type : Option NodeType} {node : Node} {context : Context},
      step.taken? walker.settings bound = some first →
      session.notes bound step =
        before ++ .entered type node context :: after →
      ∃ moves,
        first.Accounts walker handlers before moves type node context) ∧
      ∀ {step : Step} {name : String} {first : Stage} {later : List Step}
        {before after : List Note} {type : Option NodeType} {node : Node}
        {context : Context},
        step.opened? walker.settings bound = some (name, first) →
        (session.step bound step).1.reply = .nothing →
        (∀ other ∈ later, ∀ stage,
          other.opened? walker.settings bound ≠ some (name, stage)) →
        session.notesOf bound name (step :: later) =
          before ++ .entered type node context :: after →
        ∃ moves,
          first.Accounts walker handlers before moves type node context := by
  intro session
  have standsFor : session.table.StandsFor handlers :=
    table_after bound (.ofMap handlers) earlier
  have isWalker : session.walker = walker :=
    walker_after bound (create walker handlers) earlier
  rw [← isWalker] at original ⊢
  refine ⟨?_, ?_⟩
  · intro step first before after type node context takes split
    rw [notes_of_taken? standsFor takes] at split
    obtain ⟨moves, leads⟩ :=
      Stage.exists_leads original goOn (Step.descends_of_taken? takes) split
    exact ⟨moves, leads.accounts original⟩
  · intro step name first later before after type node context opens
      opened notReopened split
    obtain ⟨further, isNoted⟩ :=
      notesOf_isPrefix_of_opened standsFor opens opened notReopened
    rw [split, List.append_assoc] at isNoted
    obtain ⟨moves, leads⟩ :=
      Stage.exists_leads original goOn (Step.descends_of_opened? opens)
        isNoted.symm
    exact ⟨moves, leads.accounts original⟩

/-- A visitor that does not track anything. -/
def inheriting : Walker where
  mode := .visitor
  settings :=
    { trackParents := false
      trackNewParents := false
      trackPaths := false
      maxDepth := 9
      maxDepth_pos := Nat.zero_lt_succ 8
      listener := .silent }
  fallback := none

/-- A handler of groups that goes on twice, first with a key set and then without it. -/
def twiceThroughGroups : HandlerMap Handler :=
  [(.exactly (.group .plain),
      { eager := false
        actions :=
          [.generic .node
              { assigned := [("under", .kind)]
                removed := []
                position := none },
            .generic .node
              { assigned := []
                removed := ["under"]
                position := none }] }),
    (.exactly (.term .word),
      { eager := false, actions := [.deliver (.key "under")] })]

/-- A word in a group, and a word beside it. -/
def groupBesideWord : Node :=
  Query.or [Query.group (Query.word "a"), Query.word "b"]

/-- The keys that the caller gives. -/
def underNothing : Fields Value :=
  [("under", .text "nothing")]

/-- A handler of words is called in a context of some keys at a depth. -/
def wordEntered (value : String) (depth : Nat) (keys : Fields Value) : Note :=
  .entered (some (.exactly (.term .word))) (Query.word value)
    { keys := keys, position := { depth := .ofNat depth, path := none } }

/-- What is noted of the handlers called, the group's first and then those of the words. -/
def groupThenWords : List Note :=
  [.entered (some (.exactly (.group .plain)))
      (Query.group (Query.word "a"))
      { keys := underNothing
        position := { depth := .ofNat 1, path := none } },
    wordEntered "a" 2 [("under", .text "group")],
    wordEntered "a" 2 [],
    wordEntered "b" 1 underNothing]

/-- What an iterator over the group and the word is opened on. -/
def groupBesideWordVisit : Stage where
  bound := 6
  call :=
    { service := .visitNode
      node := groupBesideWord
      context := .root inheriting.settings underNothing }

/-- The same walker, with another traversal of the same tree under way. -/
def underWay : Session :=
  (create inheriting twiceThroughGroups).after 6
    [.start "other" groupBesideWord []]

/--
A word in a group is visited twice while another traversal is under way. The second time it
is told what the second call made of the keys, and the word beside is told the caller's.
-/
theorem changes_reach_only_below_groups :
    inheriting.fallback = none ∧
      (∀ entry ∈ twiceThroughGroups,
        entry.2.Throughout Action.GoesOnItself) ∧
      underWay.notesOf 6 "it"
          [.start "it" groupBesideWord underNothing, .next "other",
            .next "it", .rest "other", .rest "it"] =
        groupThenWords ∧
      (∃ moves,
        groupBesideWordVisit.Accounts inheriting twiceThroughGroups
            (groupThenWords.take 2) moves
            (some (.exactly (.term .word))) (Query.word "a")
            { keys := []
              position := { depth := .ofNat 2, path := none } } ∧
          Move.effects "under" (some (.text "nothing")) moves = none) ∧
      ∃ moves,
        groupBesideWordVisit.Accounts inheriting twiceThroughGroups
            (groupThenWords.take 3) moves
            (some (.exactly (.term .word))) (Query.word "b")
            { keys := underNothing
              position := { depth := .ofNat 1, path := none } } ∧
          Move.effects "under" (some (.text "nothing")) moves =
            some (.text "nothing") := by
  have original : inheriting.fallback = none := rfl
  have goOn :
      ∀ entry ∈ twiceThroughGroups,
        entry.2.Throughout Action.GoesOnItself := by
    intro entry member
    rcases List.mem_pair.mp member with rfl | rfl
    · exact ⟨rfl, rfl, trivial⟩
    · exact ⟨trivial, trivial⟩
  have isNoted :
      underWay.notesOf 6 "it"
          [.start "it" groupBesideWord underNothing, .next "other",
            .next "it", .rest "other", .rest "it"] =
        groupThenWords :=
    rfl
  have second :
      groupThenWords =
        groupThenWords.take 2 ++
          wordEntered "a" 2 [] :: groupThenWords.drop 3 :=
    rfl
  have third :
      groupThenWords =
        groupThenWords.take 3 ++
          wordEntered "b" 1 underNothing :: groupThenWords.drop 4 :=
    rfl
  have notReopened :
      ∀ other ∈
          [Step.next "other", .next "it", .rest "other", .rest "it"],
        ∀ stage,
          other.opened? inheriting.settings 6 ≠ some ("it", stage) := by
    simp [Step.opened?]
  have untracked :
      ∀ chain : Chain,
        chain.isTracked inheriting.settings = true →
        chain.key ≠ "under" := by
    rintro (_ | _) isTracked <;> cases isTracked
  obtain ⟨-, inIterator⟩ :=
    changes_reach_only_below original goOn 6
      [.start "other" groupBesideWord []]
  obtain ⟨moves, accounts⟩ :=
    inIterator rfl rfl notReopened (isNoted.trans second)
  obtain ⟨others, accountsToo⟩ :=
    inIterator rfl rfl notReopened (isNoted.trans third)
  exact
    ⟨original, goOn, isNoted,
      ⟨moves, accounts, (accounts.keys "under" untracked).symm⟩,
      others, accountsToo, (accountsToo.keys "under" untracked).symm⟩

end Session

end QueryWalk
