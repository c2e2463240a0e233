import QueryWalk.Dispatch.History
import QueryWalk.Proofs.SelfLikeness
import QueryWalk.Proofs.SessionSimulation

namespace QueryWalk

/-!
# Cached resolution

A handler table answers from a copy of a map and remembers its answers. What it
answers is what the map itself says, whatever has been asked before and whatever
becomes of the caller's own map. A handler found for one node takes any other node
of the type it is registered under, and no walk ever hands it a node outside.
-/

namespace HandlerMap

variable {Label : Type}

/-- The first type of the ancestry of a kind that a map has a handler for. -/
def firstType?
    (handlers : HandlerMap Label)
    (kind : NodeKind) :
    Option NodeType :=
  kind.ancestry.find? fun type => (handlers.handler? type).isSome

/-- What a kind resolves to is what is registered under that type. -/
theorem resolve?_eq_bind
    (handlers : HandlerMap Label)
    (kind : NodeKind) :
    handlers.resolve? kind =
      (handlers.firstType? kind).bind handlers.registration? := by
  unfold resolve? firstType?
  induction kind.ancestry with
  | nil =>
      rfl
  | cons type rest inductionHypothesis =>
      cases found : handlers.handler? type with
      | none =>
          simp [registration?, found, inductionHypothesis]
      | some label =>
          simp [registration?, found]

/-- A kind whose ancestry has no type with a handler resolves to nothing. -/
theorem resolve?_eq_none_of_firstType?
    {handlers : HandlerMap Label}
    {kind : NodeKind}
    (missed : handlers.firstType? kind = none) :
    handlers.resolve? kind = none := by
  rw [resolve?_eq_bind, missed]
  rfl

/-- A kind resolves to the handler under the first type of its ancestry. -/
theorem resolve?_eq_some_of_firstType?
    {handlers : HandlerMap Label}
    {kind : NodeKind}
    {type : NodeType}
    (first : handlers.firstType? kind = some type) :
    ∃ label,
      handlers.handler? type = some label ∧
        handlers.resolve? kind = some { type := type, handler := label } := by
  have isSome := List.find?_some first
  obtain ⟨label, found⟩ := Option.isSome_iff_exists.mp isSome
  refine ⟨label, found, ?_⟩
  rw [resolve?_eq_bind, first, Option.bind_some, registration?, found]
  rfl

/-- A map whose types are distinct has a handler under a type if it lists both. -/
theorem handler?_eq_some_iff
    {handlers : HandlerMap Label}
    (distinct : (handlers.map Prod.fst).Nodup)
    {type : NodeType}
    {label : Label} :
    handlers.handler? type = some label ↔ (type, label) ∈ handlers := by
  unfold handler?
  induction handlers with
  | nil =>
      simp
  | cons entry rest inductionHypothesis =>
      rw [List.map_cons, List.nodup_cons] at distinct
      have further := inductionHypothesis distinct.2
      rcases entry with ⟨present, other⟩
      by_cases same : present = type
      · subst same
        have onlyHere : (present, label) ∉ rest := fun member =>
          distinct.1 (List.mem_map.mpr ⟨_, member, rfl⟩)
        simp [onlyHere, eq_comm]
      · simp [same, Ne.symm same, further]

/-- The order of a map with distinct types does not matter. -/
theorem handler?_eq_of_perm
    {handlers other : HandlerMap Label}
    (distinct : (handlers.map Prod.fst).Nodup)
    (reordered : handlers.Perm other) :
    handlers.handler? = other.handler? := by
  have otherDistinct := (reordered.map Prod.fst).nodup_iff.mp distinct
  funext type
  apply Option.ext
  intro label
  rw [handler?_eq_some_iff distinct, handler?_eq_some_iff otherDistinct]
  exact reordered.mem_iff

end HandlerMap

namespace HandlerTable

variable
  {Label : Type}
  {table : HandlerTable Label}
  {handlers : HandlerMap Label}
  {asked : List NodeKind}
  {kind : NodeKind}

/-- An answer given before is remembered with its kind. -/
theorem mem_of_answer?
    {answer : Option (Registration Label)}
    (answered : table.answer? kind = some answer) :
    (kind, answer) ∈ table.remembered := by
  obtain ⟨entry, first, rfl⟩ := Option.map_eq_some_iff.mp answered
  have isKind : entry.1 = kind := by
    simpa using List.find?_some first
  subst isKind
  exact List.mem_of_find?_eq_some first

/-- What was not answered before is not remembered. -/
theorem not_mem_of_answer?
    (unanswered : table.answer? kind = none)
    (answer : Option (Registration Label)) :
    (kind, answer) ∉ table.remembered := by
  intro member
  have missed := List.find?_eq_none.mp (Option.map_eq_none_iff.mp unanswered)
  exact missed _ member (by simp)

/-- A copy of a map that remembers what it says of some kinds, each of them once. -/
structure Recalls
    (table : HandlerTable Label)
    (handlers : HandlerMap Label)
    (asked : List NodeKind) : Prop where
  copied : table.handlers = handlers
  mem_iff :
    ∀ kind answer,
      (kind, answer) ∈ table.remembered ↔
        kind ∈ asked ∧ answer = handlers.resolve? kind
  distinct : (table.remembered.map Prod.fst).Nodup

namespace Recalls

/-- A fresh table remembers nothing. -/
theorem ofMap
    (handlers : HandlerMap Label) :
    (HandlerTable.ofMap handlers).Recalls handlers [] where
  copied := rfl
  mem_iff _ _ := by
    simp [HandlerTable.ofMap]
  distinct := .nil

/-- A table answers what its map says, and remembers it from then on. -/
theorem resolve
    (recalls : table.Recalls handlers asked)
    (kind : NodeKind) :
    (table.resolve kind).1 = handlers.resolve? kind ∧
      (table.resolve kind).2.Recalls handlers (asked ++ [kind]) := by
  unfold HandlerTable.resolve
  cases answered : table.answer? kind with
  | some answer =>
      obtain ⟨wasAsked, isAnswer⟩ :=
        (recalls.mem_iff _ _).mp (mem_of_answer? answered)
      refine ⟨isAnswer, recalls.copied, ?_, recalls.distinct⟩
      intro other otherAnswer
      rw [recalls.mem_iff, List.mem_append, List.mem_singleton]
      have known : other = kind → other ∈ asked := by
        rintro rfl
        exact wasAsked
      tauto
  | none =>
      have isNew := not_mem_of_answer? answered
      simp only [recalls.copied, true_and]
      refine ⟨rfl, ?_, ?_⟩
      · intro other otherAnswer
        rw [List.mem_cons, recalls.mem_iff, List.mem_append,
          List.mem_singleton, Prod.mk.injEq]
        constructor
        · rintro (⟨rfl, rfl⟩ | ⟨wasAsked, isAnswer⟩)
          · exact ⟨.inr rfl, rfl⟩
          · exact ⟨.inl wasAsked, isAnswer⟩
        · rintro ⟨wasAsked | rfl, isAnswer⟩
          · exact .inr ⟨wasAsked, isAnswer⟩
          · exact .inl ⟨rfl, isAnswer⟩
      · rw [List.map_cons, List.nodup_cons]
        refine ⟨?_, recalls.distinct⟩
        intro member
        obtain ⟨⟨_, answer⟩, isThere, rfl⟩ := List.mem_map.mp member
        exact isNew answer isThere

end Recalls

/-- A table only puts what it learns before what it remembers. -/
theorem remembered_suffix_resolve
    (table : HandlerTable Label)
    (kind : NodeKind) :
    table.remembered <:+ (table.resolve kind).2.remembered := by
  unfold resolve
  split
  · exact List.suffix_refl _
  · exact List.suffix_cons _ _

end HandlerTable

namespace DispatchStep

variable {Label : Type}

/-- The kind that a step resolves. -/
def kind? : DispatchStep Label → Option NodeKind
  | .set .. | .remove _ => none
  | .resolve node | .handle node _ => some node.kind

/--
The reply to a step by the map alone. The handler found for one node takes another
if this is of the type that the handler is registered under.
-/
def plainReply
    (handlers : HandlerMap Label) :
    DispatchStep Label → DispatchReply Label
  | .set .. | .remove _ => .done
  | .resolve node => .resolved (handlers.firstType? node.kind)
  | .handle node given =>
      match handlers.firstType? node.kind with
      | none => .unhandled
      | some type =>
          if type ∈ given.kind.ancestry then
            .handled type (handlers.handler? type).toList
          else
            .refused (.handlerMismatch type given.kind)

end DispatchStep

namespace DispatchState

variable
  {Label : Type}
  {handlers : HandlerMap Label}
  {asked : List NodeKind}
  {state : DispatchState Label}

/-- The state after a sequence of steps. -/
def after
    (state : DispatchState Label) :
    List (DispatchStep Label) → DispatchState Label
  | [] => state
  | first :: later => (state.step first).2.after later

/-- Later steps are taken from the state that earlier ones lead to. -/
theorem after_append
    (state : DispatchState Label)
    (earlier later : List (DispatchStep Label)) :
    state.after (earlier ++ later) = (state.after earlier).after later := by
  induction earlier generalizing state with
  | nil =>
      rfl
  | cons first rest inductionHypothesis =>
      exact inductionHypothesis _

/-- A handler takes a node of the type it is registered under, and no other. -/
theorem call_eq
    (registration : Registration Label)
    (given : Node) :
    call registration given =
      if registration.type ∈ given.kind.ancestry then
        .handled registration.type [registration.handler]
      else
        .refused (.handlerMismatch registration.type given.kind) := by
  unfold call Registration.handlerFor Node.isOfType
  by_cases belongs : registration.type ∈ given.kind.ancestry
  · rw [if_pos belongs, if_pos (NodeType.includes_iff.mpr belongs)]
  · rw [if_neg belongs, if_neg (mt NodeType.includes_iff.mp belongs)]

/-- A step is answered by the map alone, and what it resolves is remembered. -/
theorem step_of_recalls
    (recalls : state.table.Recalls handlers asked)
    (step : DispatchStep Label) :
    (state.step step).1 = step.plainReply handlers ∧
      (state.step step).2.table.Recalls handlers
        (asked ++ step.kind?.toList) := by
  cases step with
  | set type label | remove type =>
      refine ⟨rfl, ?_⟩
      simpa [DispatchState.step, DispatchStep.kind?] using recalls
  | resolve node =>
      obtain ⟨answer, remembers⟩ := recalls.resolve node.kind
      refine ⟨?_, remembers⟩
      simp only [DispatchState.step, DispatchStep.plainReply, answer]
      cases first : handlers.firstType? node.kind with
      | none =>
          rw [HandlerMap.resolve?_eq_none_of_firstType? first]
          rfl
      | some type =>
          obtain ⟨label, _, resolved⟩ :=
            HandlerMap.resolve?_eq_some_of_firstType? first
          rw [resolved]
          rfl
  | handle node given =>
      obtain ⟨answer, remembers⟩ := recalls.resolve node.kind
      refine ⟨?_, remembers⟩
      simp only [DispatchState.step, DispatchStep.plainReply, answer]
      cases first : handlers.firstType? node.kind with
      | none =>
          rw [HandlerMap.resolve?_eq_none_of_firstType? first]
          rfl
      | some type =>
          obtain ⟨label, found, resolved⟩ :=
            HandlerMap.resolve?_eq_some_of_firstType? first
          simp only [resolved, found, Option.elim_some,
            Option.toList_some]
          exact call_eq _ given

/-- What a table remembers stays at the end of what it remembers later. -/
theorem remembered_suffix_after
    (state : DispatchState Label)
    (steps : List (DispatchStep Label)) :
    state.table.remembered <:+ (state.after steps).table.remembered := by
  induction steps generalizing state with
  | nil =>
      exact List.suffix_refl _
  | cons step rest inductionHypothesis =>
      refine List.IsSuffix.trans ?_ (inductionHypothesis _)
      cases step with
      | set type label | remove type =>
          exact List.suffix_refl _
      | resolve node | handle node given =>
          exact state.table.remembered_suffix_resolve node.kind

/-- Steps are answered one by one by the map alone, and what they resolve is kept. -/
theorem history_of_recalls
    (recalls : state.table.Recalls handlers asked)
    (steps : List (DispatchStep Label)) :
    (state.history steps).map Prod.fst =
        steps.map (DispatchStep.plainReply handlers) ∧
      (state.after steps).table.Recalls handlers
        (asked ++ steps.filterMap DispatchStep.kind?) := by
  induction steps generalizing state asked with
  | nil =>
      refine ⟨rfl, ?_⟩
      simpa [after] using recalls
  | cons step rest inductionHypothesis =>
      obtain ⟨reply, remembers⟩ := step_of_recalls recalls step
      obtain ⟨replies, afterRest⟩ := inductionHypothesis remembers
      have sameKinds :
          asked ++ (step :: rest).filterMap DispatchStep.kind? =
            asked ++ step.kind?.toList ++
              rest.filterMap DispatchStep.kind? := by
        cases kind : step.kind? <;> simp [kind]
      rw [sameKinds]
      refine ⟨?_, afterRest⟩
      simp only [history, List.map_cons, reply, replies]

end DispatchState

namespace Walker

variable
  (walker : Walker)
  (handlers : HandlerMap Handler)

/-- No actions of a handler in a walk are ended by a mismatch. -/
theorem runAll_never_mismatches
    {bound : Nat}
    {scope : Scope}
    {actions : List Action}
    {finish : Finish}
    {failure : Failure}
    (finished :
      ((Action.runAll (walker.services bound) scope actions).trace
          handlers).ending =
        .finished finish)
    (failed : finish.failure = some failure) :
    ¬ failure.IsMismatch := by
  have accompanies :
      walker.Accompanies
        (Sameness.anywhere handlers (fun _ => False) False).likeness
        walker bound bound :=
    walker.accompanies_self handlers (.inr rfl) bound
  have scopes :
      scope.Alike
        (Sameness.anywhere handlers (fun _ => False) False).likeness
        scope :=
    ⟨rfl, ⟨rfl, trivial⟩, rfl, rfl⟩
  have matched :=
    Action.runAll_matches accompanies.services scopes
      (Action.allThroughout_of_forall
        (fun _ => Action.respects_anywhere fun _ _ never => never)
        actions)
  rcases matched.trace with ⟨_, endings⟩ | ⟨early, _⟩
  · change Ending.Alike _ _ (Run.trace handlers _).ending _ at endings
    rw [finished] at endings
    obtain ⟨other, _, _, _, mayFail⟩ := endings.exists_of_finished
    exact mayFail failure failed
  · change Ending.Early _ _ (Run.trace handlers _).ending at early
    rw [finished] at early
    cases early with
    | finished ends =>
        obtain ⟨_, _, never⟩ := ends
        exact never.elim

end Walker

namespace DispatchState

/--
Cached resolution is plain resolution. Whatever steps a caller takes, in any order,
each is answered by the map from which the table was made, by itself: a node
resolves to the first type of its ancestry that the map has a handler for, and the
handler found for one node takes any other of that type and refuses all others. The
order of the map does not matter. The table remembers exactly the kinds resolved so
far, each once and with that answer, and what it remembers it keeps; calling a handler
adds nothing to that. So no walk ever hands a handler a node that it refuses: no
caller is told of such a refusal, and no handler can catch one.
-/
theorem cached_resolution_is_plain
    {Label : Type}
    (handlers : HandlerMap Label) :
    let start := DispatchState.ofMap handlers
    (∀ steps,
      (start.history steps).map Prod.fst =
        steps.map (DispatchStep.plainReply handlers)) ∧
      (∀ other : HandlerMap Label,
        handlers.Perm other →
        (handlers.map Prod.fst).Nodup →
        DispatchStep.plainReply other =
          DispatchStep.plainReply handlers) ∧
      (∀ earlier later,
        let state := start.after earlier
        (∀ kind answer,
          (kind, answer) ∈ state.table.remembered ↔
            kind ∈ earlier.filterMap DispatchStep.kind? ∧
              answer =
                (handlers.firstType? kind).bind
                  handlers.registration?) ∧
          (state.table.remembered.map Prod.fst).Nodup ∧
          state.table.remembered <:+
            (start.after (earlier ++ later)).table.remembered ∧
          ∀ node given,
            (state.step (.handle node given)).2 =
              (state.step (.resolve node)).2) ∧
      ∀ (walker : Walker) (registered : HandlerMap Handler) (bound : Nat),
        (∀ steps,
          ∀ answer ∈
              (Session.create walker registered).answers bound steps,
            ∀ failure,
              answer.reply = .refused failure →
              ¬ failure.IsMismatch) ∧
          ∀ scope actions finish failure,
            ((Action.runAll (walker.services bound) scope actions).trace
                registered).ending =
              .finished finish →
            finish.failure = some failure →
            ¬ failure.IsMismatch := by
  intro start
  have recalls : start.table.Recalls handlers [] := .ofMap handlers
  refine ⟨?replies, ?order, ?cache, ?walks⟩
  case replies =>
    intro steps
    exact (DispatchState.history_of_recalls recalls steps).1
  case order =>
    intro other reordered distinct
    have sameHandlers := HandlerMap.handler?_eq_of_perm distinct reordered
    funext step
    cases step <;>
      simp only [DispatchStep.plainReply, HandlerMap.firstType?,
        sameHandlers]
  case cache =>
    intro earlier later state
    have remembers := (DispatchState.history_of_recalls recalls earlier).2
    refine ⟨?_, remembers.distinct, ?_, fun _ _ => rfl⟩
    · intro kind answer
      rw [← HandlerMap.resolve?_eq_bind]
      exact remembers.mem_iff kind answer
    · rw [DispatchState.after_append]
      exact state.remembered_suffix_after later
  case walks =>
    intro walker registered bound
    refine ⟨?_, ?_⟩
    · intro steps answer member failure refused
      have permitted :=
        (Sameness.answers_eq
          (walker.accompanies_self registered (.inr rfl) bound)
          (fun _ never => never) id (fun _ _ _ _ => trivial)).2 answer member
      exact permitted.1 failure refused
    · intro scope actions finish failure finished failed
      exact walker.runAll_never_mismatches registered finished failed

/-- A map for terms in general and for words in particular. -/
def termsAndWords : HandlerMap String :=
  [(.anyOf .term, "term"), (.exactly (.term .word), "word")]

/--
The handler for terms that a phrase resolves to takes a word, and the handler for words
that a word resolves to refuses a phrase. The caller's removal of the first changes
nothing, and neither does listing the handlers the other way round.
-/
theorem cached_resolution_is_plain_termsAndWords :
    let steps : List (DispatchStep String) :=
      [.handle (Query.phrase "a") (Query.word "b"),
        .remove (.anyOf .term),
        .handle (Query.word "a") (Query.phrase "b"),
        .resolve (Query.regex "c"),
        .resolve (Query.not (Query.regex "c"))]
    let replies (handlers : HandlerMap String) :=
      ((ofMap handlers).history steps).map Prod.fst
    let plain : List (DispatchReply String) :=
      [.handled (.anyOf .term) ["term"],
        .done,
        .refused
          (.handlerMismatch (.exactly (.term .word)) (.term .phrase)),
        .resolved (some (.anyOf .term)),
        .resolved none]
    (termsAndWords.map Prod.fst).Nodup ∧
      termsAndWords.Perm termsAndWords.reverse ∧
      replies termsAndWords = plain ∧
      replies termsAndWords.reverse = plain := by
  intro steps replies plain
  have distinct : (termsAndWords.map Prod.fst).Nodup := by
    decide
  have reordered : termsAndWords.Perm termsAndWords.reverse :=
    (List.reverse_perm _).symm
  have answered : replies termsAndWords = plain :=
    (cached_resolution_is_plain termsAndWords).1 steps
  have sameReplies :
      DispatchStep.plainReply termsAndWords.reverse =
        DispatchStep.plainReply termsAndWords :=
    (cached_resolution_is_plain termsAndWords).2.1 _ reordered distinct
  have otherAnswered :
      replies termsAndWords.reverse =
        steps.map (DispatchStep.plainReply termsAndWords.reverse) :=
    (cached_resolution_is_plain termsAndWords.reverse).1 steps
  refine ⟨distinct, reordered, answered, ?_⟩
  rw [otherAnswered, sameReplies]
  rfl

end DispatchState

end QueryWalk
