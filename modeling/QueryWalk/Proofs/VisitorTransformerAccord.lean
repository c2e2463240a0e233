import QueryWalk.Proofs.AddressEnumeration
import QueryWalk.Proofs.CollectedResults
import QueryWalk.Proofs.HandlerInvocation
import QueryWalk.Proofs.RunLockstep

namespace QueryWalk

/-!
# Visitors and transformers in accord

A handler that passes on once asks the fallback for its own node, exactly once
unless it fails, and delivers nothing else. With such handlers a visitor and a
transformer take the same walk: they call the same handlers in the same contexts
and make the same log, up to the same failure or to the end. The visitor then has
no results, and the transformer has its tree again.
-/

namespace Action

mutual

/--
Whether an action is made of log entries, failures, conditionals and requests to
the fallback for the own node.
-/
def isPlain : Action → Bool
  | .log _ | .fail _ | .generic .node _ => true
  | .choose _ consequence alternative =>
      arePlain consequence && arePlain alternative
  | _ => false

/-- Whether all actions are made of such. -/
def arePlain : List Action → Bool
  | [] => true
  | action :: rest => action.isPlain && arePlain rest

end

mutual

/-- The numbers of requests, one for each way through an action without a failure. -/
def requests : Action → List Nat
  | .generic .. => [1]
  | .fail _ => []
  | .choose _ consequence alternative =>
      requestsOfAll consequence ++ requestsOfAll alternative
  | _ => [0]

/-- The numbers of requests on the ways through some actions. -/
def requestsOfAll : List Action → List Nat
  | [] => [0]
  | action :: rest =>
      action.requests.flatMap fun first =>
        (requestsOfAll rest).map (first + ·)

end

end Action

/--
A handler is made of log entries, failures, conditionals and requests to the
fallback for its own node, and makes one request on each way without a failure.
-/
def Handler.PassesOnOnce (handler : Handler) : Prop :=
  Action.arePlain handler.actions = true ∧
    ∀ count ∈ Action.requestsOfAll handler.actions, count = 1

instance (handler : Handler) : Decidable handler.PassesOnOnce :=
  inferInstanceAs (Decidable (_ ∧ _))

section InStep

variable
  {handlers : HandlerMap Handler}
  {left right : Services}
  {node : Node}
  {context : Context}

/-- The second of two runs delivers just some values. -/
def Run.Delivers
    {Left Right : Type}
    (values : List Value) :
    List Value → Left → Right → Prop :=
  fun delivered _ _ => delivered = values

/-- At a node the fallbacks are in step, the second delivering the node. -/
def Services.AccordAt
    (handlers : HandlerMap Handler)
    (left right : Services)
    (node : Node) :
    Prop :=
  ∀ context,
    (left.generic node context).InStep handlers
      (right.generic node context) (Run.Delivers [.node node])

namespace Finish

/--
Actions finish alike, without touching the registers. Unless they failed, the
number of times that a node was delivered is among some.
-/
structure Alike
    (scope : Scope)
    (counts : List Nat)
    (values : List Value)
    (finish other : Finish) : Prop where
  same : other = finish
  scope_eq : finish.scope = scope
  counted :
    finish.failure = none →
    ∃ count ∈ counts, values = List.replicate count (.node scope.node)

/-- More numbers may be said to be possible. -/
theorem Alike.mono
    {scope : Scope}
    {counts more : List Nat}
    {values : List Value}
    {finish other : Finish}
    (alike : Alike scope counts values finish other)
    (included : ∀ count ∈ counts, count ∈ more) :
    Alike scope more values finish other where
  same := alike.same
  scope_eq := alike.scope_eq
  counted := by
    intro finished
    obtain ⟨count, isCount, delivered⟩ := alike.counted finished
    exact ⟨count, included count isCount, delivered⟩

/-- Work in step finishes alike. -/
theorem effect_inStep
    {scope : Scope}
    {work other : Run Unit}
    {count : Nat}
    (inStep :
      work.InStep handlers other
        (Run.Delivers (List.replicate count (.node scope.node)))) :
    (effect scope work).InStep handlers (effect scope other)
      (Alike scope [count]) := by
  have worked :
      (work.bind fun _ => .done scope).InStep handlers
        (other.bind fun _ => .done scope)
        fun values changed otherChanged =>
          changed = scope ∧ otherChanged = scope ∧
            values = List.replicate count (.node scope.node) := by
    apply inStep.bind
    intro values _ _ delivered
    refine .done ⟨rfl, rfl, ?_⟩
    rw [List.append_nil]
    exact delivered
  have attempted :
      (work.bind fun _ => .done scope).attempt.InStep handlers
        (other.bind fun _ => .done scope).attempt
        fun values outcome otherOutcome =>
          otherOutcome = outcome ∧
            ∀ changed,
              outcome = .ok changed →
              changed = scope ∧
                values = List.replicate count (.node scope.node) := by
    apply worked.attempt
    · rintro values changed otherChanged ⟨rfl, rfl, delivered⟩
      exact ⟨rfl, fun _ same => ⟨(Except.ok.inj same).symm, delivered⟩⟩
    · intro values failure
      exact ⟨rfl, nofun⟩
  apply attempted.bind
  rintro values _ outcome ⟨rfl, onOutcome⟩
  cases outcome with
  | ok changed =>
      obtain ⟨rfl, delivered⟩ := onOutcome changed rfl
      refine .done ⟨rfl, rfl, fun _ => ⟨count, ?_, ?_⟩⟩
      · exact List.mem_singleton_self count
      · rw [List.append_nil]
        exact delivered
  | error failure =>
      exact .done ⟨rfl, rfl, nofun⟩

end Finish

namespace Action

/-- A plain request to the fallback is for the own node. -/
theorem eq_node_of_isPlain
    {subject : Expression}
    {change : Change}
    (plain : (generic subject change).isPlain = true) :
    subject = .node := by
  cases subject <;> first | rfl | cases plain

mutual

/-- A plain action is in step with itself, requests being in step. -/
theorem run_inStep
    (accord : left.AccordAt handlers right node)
    {scope : Scope}
    (isAt : scope.node = node) :
    ∀ action : Action,
      action.isPlain = true →
      (action.run left scope).InStep handlers (action.run right scope)
        (Finish.Alike scope action.requests)
  | .log value, _ => by
      unfold Action.run
      apply Finish.effect_inStep
      apply Run.InStep.ofExcept_bind
      intro logged _
      exact .note _ (.done rfl)
  | .fail wording, _ => by
      unfold Action.run
      exact .done ⟨rfl, rfl, nofun⟩
  | .generic subject change, plain => by
      have own : subject = .node := eq_node_of_isPlain plain
      subst own isAt
      unfold Action.run
      apply Finish.effect_inStep
      exact Run.InStep.ofExcept_bind fun changed _ => accord changed
  | .choose condition consequence alternative, plain => by
      unfold isPlain at plain
      rw [Bool.and_eq_true] at plain
      unfold Action.run requests
      split
      · exact (runAll_inStep accord isAt consequence plain.1).mono
          fun _ _ _ alike => alike.mono fun _ => List.mem_append_left _
      · exact (runAll_inStep accord isAt alternative plain.2).mono
          fun _ _ _ alike => alike.mono fun _ => List.mem_append_right _
      · exact .done ⟨rfl, rfl, nofun⟩
  | .deliver .., plain
  | .deliverAll .., plain
  | .structural .., plain
  | .child .., plain
  | .visit .., plain
  | .visitUnder .., plain
  | .rebuild .., plain
  | .restart .., plain
  | .rescue .., plain => by
      cases plain

/-- Plain actions are in step with themselves, requests being in step. -/
theorem runAll_inStep
    (accord : left.AccordAt handlers right node)
    {scope : Scope}
    (isAt : scope.node = node) :
    ∀ actions : List Action,
      arePlain actions = true →
      (runAll left scope actions).InStep handlers
        (runAll right scope actions)
        (Finish.Alike scope (requestsOfAll actions))
  | [], _ => by
      unfold runAll
      exact .done ⟨rfl, rfl, fun _ => ⟨0, List.mem_singleton_self 0, rfl⟩⟩
  | action :: rest, plain => by
      unfold arePlain at plain
      rw [Bool.and_eq_true] at plain
      unfold runAll
      apply (run_inStep accord isAt action plain.1).bind
      rintro values _ finish ⟨rfl, atScope, counted⟩
      unfold Finish.andThen
      cases failed : finish.failure with
      | some failure =>
          refine .done ⟨rfl, atScope, ?_⟩
          rw [failed]
          exact nofun
      | none =>
          obtain ⟨first, isFirst, rfl⟩ := counted failed
          rw [atScope]
          apply (runAll_inStep accord isAt rest plain.2).mono
          rintro later _ last ⟨rfl, lastScope, lastCounted⟩
          refine ⟨rfl, lastScope, ?_⟩
          intro finished
          obtain ⟨second, isSecond, rfl⟩ := lastCounted finished
          refine ⟨first + second, ?_, List.replicate_append_replicate⟩
          unfold requestsOfAll
          exact List.mem_flatMap.mpr
            ⟨first, isFirst, List.mem_map_of_mem isSecond⟩

end

end Action

namespace Handler

variable {handler : Handler}

/-- A handler that passes on once delivers its node once, or fails. -/
theorem body_inStep
    (accord : left.AccordAt handlers right node)
    (passesOn : handler.PassesOnOnce) :
    (handler.body left node context).InStep handlers
      (handler.body right node context) (Run.Delivers [.node node]) := by
  obtain ⟨plain, once⟩ := passesOn
  have ran :=
    Action.runAll_inStep accord (rfl : (Scope.start node context).node = node)
      handler.actions plain
  apply ran.bind
  rintro values _ finish ⟨rfl, atScope, counted⟩
  cases failed : finish.failure with
  | some failure =>
      exact .failed failure
  | none =>
      obtain ⟨count, isCount, rfl⟩ := counted failed
      rw [once count isCount]
      exact .done rfl

/-- Calling the handler, lazy or eager, does the same. -/
theorem call_inStep
    (accord : left.AccordAt handlers right node)
    (passesOn : handler.PassesOnOnce) :
    ((handler.call left node context).bind id).InStep handlers
      ((handler.call right node context).bind id)
      (Run.Delivers [.node node]) := by
  have inStep :
      (handler.body left node context).InStep handlers
        (handler.body right node context) (Run.Delivers [.node node]) :=
    body_inStep accord passesOn
  unfold call
  split
  · rw [Run.bind_bind, Run.bind_bind]
    exact inStep.regatherRight.regatherLeft
  · exact inStep

end Handler

namespace Walker

/-- The children of a node are passed on, one after the other. -/
theorem visitChildren_inStep
    (sameSettings : left.settings = right.settings)
    {index : Nat}
    {children : List Node}
    (each :
      ∀ child ∈ children, ∀ below,
        (left.visitNode child below).InStep handlers
          (right.visitNode child below) (Run.Delivers [.node child])) :
    (visitChildren left node context index children).InStep handlers
      (visitChildren right node context index children)
      (Run.Delivers (children.map .node)) := by
  induction children generalizing index with
  | nil =>
      exact .done rfl
  | cons child rest inductionHypothesis =>
      unfold visitChildren
      rw [sameSettings]
      apply Run.InStep.ofExcept_bind
      intro below _
      apply (each child List.mem_cons_self below).bind
      rintro values _ _ rfl
      apply (inductionHypothesis fun later member =>
        each later (List.mem_cons_of_mem child member)).mono
      rintro values _ _ rfl
      rfl

/-- A node is rebuilt as it was from children that are passed on. -/
theorem rebuild_inStep
    (visited :
      (visitChildren left node context 0 node.children).InStep handlers
        (visitChildren right node context 0 node.children)
        (Run.Delivers (node.children.map .node))) :
    (visitChildren left node context 0 node.children).InStep handlers
      (rebuild right node context)
      fun values _ rebuilt => values = [] ∧ rebuilt = node := by
  unfold rebuild
  split
  · rename_i childless
    rw [List.isEmpty_iff.mp childless]
    exact .done ⟨rfl, rfl⟩
  · apply visited.gatherRight.bindRight
    rintro values _ results ⟨rfl, rfl⟩
    have sameChildren :
        (node.children.map Value.node).map Value.asNode = node.children := by
      rw [List.map_map]
      exact List.map_id _
    rw [sameChildren, node.withChildren_children]
    exact .done ⟨rfl, rfl⟩

/-- A listener is told the same twice, and rejects the same. -/
theorem notify_inStep
    (settings : Settings)
    (node : Node)
    (type : Option NodeType) :
    (notify settings node type).InStep handlers
      (notify settings node type) (Run.Delivers []) := by
  unfold notify
  split
  · exact .done rfl
  · exact .note _ (.done rfl)
  · apply Run.InStep.note
    simp only [Run.bind]
    split
    · exact .failed _
    · exact .done rfl

variable {settings : Settings}

/-- The original fallbacks are in step at a node whose children are passed on. -/
theorem callGeneric_inStep
    (visited :
      (visitChildren left node context 0 node.children).InStep handlers
        (visitChildren right node context 0 node.children)
        (Run.Delivers (node.children.map .node))) :
    (((original .visitor settings).callGeneric left node context).bind
        id).InStep handlers
      (((original .transformer settings).callGeneric right node
        context).bind id)
      (Run.Delivers [.node node]) := by
  change (visitChildren left node context 0 node.children).InStep handlers
    (((rebuild right node context).bind fun rebuilt =>
      .done (.delivering (.node rebuilt))).bind id) _
  rw [Run.bind_bind]
  apply (rebuild_inStep visited).bindRight
  rintro values _ rebuilt ⟨rfl, rfl⟩
  exact .deliver _ (.done rfl)

/-- A node is passed on, where its handler or the fallback does so. -/
theorem visitNode_inStep
    (passOn : ∀ entry ∈ handlers, entry.2.PassesOnOnce)
    (accord : left.AccordAt handlers right node)
    (generic :
      (((original .visitor settings).callGeneric left node context).bind
          id).InStep handlers
        (((original .transformer settings).callGeneric right node
          context).bind id)
        (Run.Delivers [.node node])) :
    ((original .visitor settings).visitNode left node context).InStep
      handlers
      ((original .transformer settings).visitNode right node context)
      (Run.Delivers [.node node]) := by
  apply Run.InStep.regatherRight
  apply Run.InStep.resolve
  cases found : handlers.resolve? node.kind with
  | none =>
      simp only [Run.bind, Run.bind_eq, Run.bind_bind]
      apply (notify_inStep settings node none).bind
      rintro values _ _ rfl
      exact generic
  | some registration =>
      simp only [Run.bind, Run.bind_eq, Run.bind_bind]
      apply (notify_inStep settings node (some registration.type)).bind
      rintro values _ _ rfl
      apply Run.InStep.ofExcept_bind
      intro handler isHandler
      have registered : handler.PassesOnOnce := by
        have isRegistered : registration.handler = handler := by
          unfold Registration.handlerFor at isHandler
          split at isHandler
          · exact Except.ok.inj isHandler
          · cases isHandler
        rw [← isRegistered]
        exact passOn _ (HandlerMap.mem_of_resolve? found)
      exact .note _ (Handler.call_inStep accord registered)

section Services

variable
  (passOn : ∀ entry ∈ handlers, entry.2.PassesOnOnce)
include passOn

/-- Every node is passed on, with recursion enough for its handlers and their calls. -/
theorem visitNode_services_inStep
    {bound : Nat}
    (enough : 2 * node.height < bound) :
    ((original .visitor settings).visitNode
        ((original .visitor settings).services bound) node context).InStep
      handlers
      ((original .transformer settings).visitNode
        ((original .transformer settings).services bound) node context)
      (Run.Delivers [.node node]) := by
  induction node using Node.induction_on_children
    generalizing bound context with
  | step node inductionHypothesis =>
      -- A level takes two calls: one for the fallback, one for the child.
      have generic (less : Nat) (context : Context)
          (deepEnough : 2 * node.height ≤ less) :
          (((original .visitor settings).callGeneric
              ((original .visitor settings).services less) node
              context).bind id).InStep handlers
            (((original .transformer settings).callGeneric
              ((original .transformer settings).services less) node
              context).bind id)
            (Run.Delivers [.node node]) := by
        apply callGeneric_inStep
        apply visitChildren_inStep (by simp only [settings_services]; rfl)
        intro child member below
        have lower := Node.height_lt_of_mem_children member
        obtain ⟨less, rfl⟩ : ∃ lesser, less = lesser + 1 :=
          ⟨less - 1, by omega⟩
        exact inductionHypothesis child member (by omega)
      obtain ⟨bound, rfl⟩ : ∃ less, bound = less + 1 :=
        ⟨bound - 1, by omega⟩
      apply visitNode_inStep passOn
      · intro changed
        exact generic bound changed (by omega)
      · exact generic (bound + 1) context (by omega)

/--
A traversal of a visitor has no results where that of a transformer has its tree
for its outcome.
-/
theorem traverse_inStep
    (settings : Settings)
    (keys : Fields Value)
    {bound : Nat}
    (enough : 2 * node.height < bound) :
    ((original .visitor settings).traverse
        ((original .visitor settings).services bound) node keys).InStep
      handlers
      ((original .transformer settings).traverse
        ((original .transformer settings).services bound) node keys)
      fun _ collected transformed =>
        collected = .list [] ∧ transformed = .node node := by
  have visited :
      ((original .visitor settings).visitNode
          ((original .visitor settings).services bound) node
          (.root settings keys)).InStep handlers
        ((original .transformer settings).visitNode
          ((original .transformer settings).services bound) node
          (.root settings keys))
        (Run.Delivers [.node node]) :=
    visitNode_services_inStep passOn enough
  apply visited.gatherRight.gatherLeft.bind
  rintro _ _ _ ⟨rfl, -, rfl⟩
  exact .done ⟨rfl, rfl⟩

end Services

end Walker

end InStep

namespace Session

/--
If all handlers pass on once, a visitor and a transformer with the same settings
walk alike. They make the same notes: the same handlers are called for the same
nodes in the same contexts, and the same entries are logged, all in the same order.
Then both fail in the same way, or the visitor has no results and the transformer
has its tree unchanged.
-/
theorem visitor_and_transformer_walk_alike
    {handlers : HandlerMap Handler}
    (passOn : ∀ entry ∈ handlers, entry.2.PassesOnOnce)
    (settings : Settings)
    {tree : Node}
    (keys : Fields Value)
    {bound : Nat}
    (enough : 2 * tree.height + 1 < bound) :
    let history (mode : Mode) :=
      (((Walker.original mode settings).services bound).restart tree
        keys).complete (.ofMap handlers)
    let answers (mode : Mode) :=
      (Session.create (Walker.original mode settings) handlers).answers
        bound [.traverse tree keys]
    Event.notes (history .visitor).events =
        Event.notes (history .transformer).events ∧
      (answers .visitor).map Answer.log =
        (answers .transformer).map Answer.log ∧
      ((∃ failure, ∀ mode,
          (answers mode).map Answer.reply = [.refused failure]) ∨
        ((answers .visitor).map Answer.reply = [.result (.list [])] ∧
          (answers .transformer).map Answer.reply =
            [.result (.node tree)])) := by
  intro history answers
  obtain ⟨bound, rfl⟩ : ∃ less, bound = less + 1 :=
    ⟨bound - 1, by omega⟩
  have inStep :=
    Walker.traverse_inStep passOn settings keys
      (Nat.lt_of_succ_lt_succ enough : 2 * tree.height < bound)
  have traced (mode : Mode) :=
    Run.complete_eq_trace (.ofMap handlers)
      (((Walker.original mode settings).services (bound + 1)).restart
        tree keys)
  obtain ⟨visitorEvents, visitorHalt, -⟩ := traced .visitor
  obtain ⟨transformerEvents, transformerHalt, -⟩ := traced .transformer
  obtain ⟨sameNotes, endings⟩ := inStep.trace
  have sameHistory :
      Event.notes (history .visitor).events =
        Event.notes (history .transformer).events :=
    (congrArg Event.notes visitorEvents).trans
      (sameNotes.trans (congrArg Event.notes transformerEvents).symm)
  have answered (mode : Mode) :
      answers mode =
        [{ log := (history mode).log
           reply := .ofEnding .result (history mode).halt }] :=
    rfl
  refine ⟨sameHistory, ?_, ?_⟩
  · rw [answered, answered]
    exact congrArg ([·]) (Event.log_eq_of_notes_eq sameHistory)
  · rcases endings with
      ⟨failure, visitorFails, transformerFails⟩ |
        ⟨_, _, visitorEnds, transformerEnds, rfl, rfl⟩
    · refine .inl ⟨failure, ?_⟩
      intro mode
      rw [answered]
      cases mode with
      | visitor =>
          rw [visitorHalt.trans visitorFails]
          rfl
      | transformer =>
          rw [transformerHalt.trans transformerFails]
          rfl
    · refine .inr ⟨?_, ?_⟩
      · rw [answered, visitorHalt.trans visitorEnds]
        rfl
      · rw [answered, transformerHalt.trans transformerEnds]
        rfl

/-- Groups mark what is below them, and a phrase that is marked is refused. -/
def markedPhrases : HandlerMap Handler :=
  [(.anyOf .group,
      { eager := false
        actions :=
          [.log .path,
            .generic .node
              { assigned := [("marked", .constant (.flag true))]
                removed := []
                position := none },
            .log .kind] }),
    (.exactly (.term .phrase),
      { eager := true
        actions :=
          [.choose (.hasKey "marked")
            [.log .context, .fail "marked"]
            [.generic .node
                { assigned := [], removed := [], position := none },
              .log .kind]] })]

/-- The answers of a walker to the traversal of a phrase in a group. -/
def answersToGroup (mode : Mode) : List Answer :=
  (create
      (Walker.original mode
        { trackParents := true
          trackNewParents := true
          trackPaths := true
          maxDepth := 4
          maxDepth_pos := by decide
          listener := .debugging })
      markedPhrases).answers 4
    [.traverse (.group .plain (.term .phrase "b" []) []) []]

/-- Both walks fail at the phrase in the group, with the same log. -/
theorem visitor_and_transformer_walk_alike_markedPhrases :
    (answersToGroup .visitor).map Answer.log =
        (answersToGroup .transformer).map Answer.log ∧
      (answersToGroup .transformer).map Answer.reply =
        [.refused (.handler "marked")] := by
  have passOn : ∀ entry ∈ markedPhrases, entry.2.PassesOnOnce := by
    decide
  have enough :
      2 * (Node.group .plain (.term .phrase "b" []) []).height + 1 < 4 := by
    decide
  obtain ⟨-, sameLogs, endings⟩ :=
    visitor_and_transformer_walk_alike passOn _ [] enough
  refine ⟨sameLogs, ?_⟩
  have visitorRefused :
      (answersToGroup .visitor).map Answer.reply =
        [.refused (.handler "marked")] := by
    rfl
  rcases endings with ⟨failure, refused⟩ | ⟨visitorEnds, -⟩
  · have same := (refused .visitor).symm.trans visitorRefused
    cases same
    exact refused .transformer
  · have noEnd := visitorEnds.symm.trans visitorRefused
    cases noEnd

end Session

end QueryWalk
