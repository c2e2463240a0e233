import QueryWalk.Proofs.WalkSimulation
import QueryWalk.Session

namespace QueryWalk

/-!
# Sessions side by side

Two sessions are alike if their tables stand for one map and every iterator of one
has a matching run left in the other. Alike steps are then given alike answers, and
leave the sessions alike: a run taken to its end, or to its next result, shows what
a matching run does.
-/

namespace Comparison

/-- No run ends early, and what is logged is the same. -/
structure IsStrict (comparison : Comparison) : Prop where
  neverStops : ∀ failure, ¬ comparison.stops failure
  neverSpends : ¬ comparison.spends
  sameEntries :
    ∀ {first second},
      comparison.note first second →
      Event.entry? (.noted first) = Event.entry? (.noted second)

variable {comparison : Comparison}

/-- Matching events make the same log. -/
theorem IsStrict.log_eq
    (strict : comparison.IsStrict)
    {events others : List Event}
    (alike : List.Forall₂ (Event.Alike comparison) events others) :
    Event.log events = Event.log others := by
  induction alike with
  | nil =>
      rfl
  | cons first _ inductionHypothesis =>
      unfold Event.log at inductionHypothesis ⊢
      cases first with
      | noted alike =>
          simp only [List.filterMap_cons, strict.sameEntries alike,
            inductionHypothesis]
      | delivered _ =>
          exact inductionHypothesis

end Comparison

/-- Where matching runs stop. -/
inductive Stop.Alike (comparison : Comparison) : Stop → Stop → Prop where
  | atResult
      {value other : Value}
      {rest further : Run Unit}
      (alike : comparison.value value other)
      (onward : rest.Matches comparison .finished further) :
      Alike comparison (.atResult value rest) (.atResult other further)
  | atEnd
      {ending other : Ending Unit}
      (alike : Ending.Alike comparison .finished ending other) :
      Alike comparison (.atEnd ending) (.atEnd other)

namespace Run

variable
  {comparison : Comparison}
  {left right : HandlerTable Handler}

/-- Matching runs taken to their ends show the same log and alike endings. -/
theorem Matches.complete
    {Left Right : Type}
    {agree : Left → Right → Prop}
    {run : Run Left}
    {other : Run Right}
    (matched : run.Matches comparison (.only agree) other)
    (strict : comparison.IsStrict)
    (leftStands : left.StandsFor comparison.handlers)
    (rightStands : right.StandsFor comparison.handlers) :
    (run.complete left).log = (other.complete right).log ∧
      Ending.Alike comparison (.only agree) (run.complete left).halt
        (other.complete right).halt := by
  obtain ⟨events, halt, _⟩ := run.complete_eq_trace leftStands
  obtain ⟨otherEvents, otherHalt, _⟩ :=
    other.complete_eq_trace rightStands
  unfold History.log
  rw [events, halt, otherEvents, otherHalt]
  rcases matched.trace with ⟨alike, endings⟩ | ⟨early, _⟩
  · exact ⟨strict.log_eq alike, endings⟩
  · generalize (run.trace comparison.handlers).ending = ending at early
    cases early with
    | finished never =>
        exact never.elim
    | failed may =>
        exact (strict.neverStops _ may).elim
    | exhausted may =>
        exact (strict.neverSpends may).elim

/-- Matching runs taken to a result show the same log and stop alike. -/
theorem Matches.advance
    {run other : Run Unit}
    (matched : run.Matches comparison .finished other)
    (strict : comparison.IsStrict)
    (leftStands : left.StandsFor comparison.handlers)
    (rightStands : right.StandsFor comparison.handlers) :
    (run.advance left).log = (other.advance right).log ∧
      Stop.Alike comparison (run.advance left).halt
        (other.advance right).halt := by
  -- The events before the next result are carried along, the last one first.
  suffices advancing :
      ∀ events others : List Event,
        List.Forall₂ (Event.Alike comparison) events others →
        List.Forall₂ (Event.Alike comparison)
            (run.advanceAfter left events).events
            (other.advanceAfter right others).events ∧
          Stop.Alike comparison (run.advanceAfter left events).halt
            (other.advanceAfter right others).halt by
    obtain ⟨alike, halts⟩ := advancing [] [] .nil
    exact ⟨strict.log_eq alike, halts⟩
  induction matched generalizing left right with
  | done agrees =>
      intro events others alike
      exact
        ⟨List.forall₂_reverse_iff.mpr alike, .atEnd (.finished agrees)⟩
  | early never _ =>
      exact never.elim
  | failed may =>
      intro events others alike
      exact ⟨List.forall₂_reverse_iff.mpr alike, .atEnd (.failed may)⟩
  | stopped may _ =>
      exact (strict.neverStops _ may).elim
  | exhausted may =>
      intro events others alike
      exact ⟨List.forall₂_reverse_iff.mpr alike, .atEnd (.exhausted may)⟩
  | spent may _ =>
      exact (strict.neverSpends may).elim
  | note first _ inductionHypothesis =>
      intro events others alike
      exact inductionHypothesis leftStands rightStands _ _
        (.cons (.noted first) alike)
  | deliver first onward =>
      intro events others alike
      exact
        ⟨List.forall₂_reverse_iff.mpr alike, .atResult first onward⟩
  | resolve kind _ inductionHypothesis =>
      intro events others alike
      simp only [advanceAfter]
      rw [leftStands.resolve_fst kind, rightStands.resolve_fst kind]
      exact inductionHypothesis (leftStands.resolve_snd kind)
        (rightStands.resolve_snd kind) events others alike

end Run

/-- Replies that a likeness lets stand for each other. -/
inductive Reply.Alike (like : Likeness) : Reply → Reply → Prop where
  | nothing : Alike like .nothing .nothing
  | context
      {context other : Context}
      (alike : like.context context other) :
      Alike like (.context context) (.context other)
  | result
      {value other : Value}
      (alike : like.value value other) :
      Alike like (.result value) (.result other)
  | value
      {value other : Value}
      (alike : like.value value other) :
      Alike like (.value value) (.value other)
  | ended : Alike like .ended .ended
  | unknown : Alike like .unknown .unknown
  | refused
      {failure : Failure}
      (may : like.fails failure) :
      Alike like (.refused failure) (.refused failure)
  | exhausted
      (may : like.exhausts) :
      Alike like .exhausted .exhausted

/-- Alike endings make alike replies. -/
theorem Reply.Alike.ofEnding
    {like : Likeness}
    {Left Right : Type}
    {agree : Left → Right → Prop}
    {reply : Left → Reply}
    {otherReply : Right → Reply}
    (replies :
      ∀ outcome other,
        agree outcome other →
        (reply outcome).Alike like (otherReply other))
    {ending : Ending Left}
    {otherEnding : Ending Right}
    (endings :
      Ending.Alike like.toComparison (.only agree) ending otherEnding) :
    (Reply.ofEnding reply ending).Alike like
      (Reply.ofEnding otherReply otherEnding) := by
  cases endings with
  | finished agrees =>
      exact replies _ _ agrees
  | failed may =>
      exact .refused may
  | exhausted may =>
      exact .exhausted may

/-- Alike answers come with the same log. -/
structure Answer.Alike (like : Likeness) (first second : Answer) : Prop where
  log_eq : first.log = second.log
  reply : first.reply.Alike like second.reply

/-- Steps that a likeness lets stand for each other. -/
inductive Step.Alike (like : Likeness) : Step → Step → Prop where
  | childContext
      {parent other : Node}
      {context otherContext : Context}
      (index : Number)
      (parents : like.node parent other)
      (contexts : like.context context otherContext) :
      Alike like (.childContext parent index context)
        (.childContext other index otherContext)
  /-- What becomes of the caller's own map does not matter. -/
  | setHandler
      (type otherType : NodeType)
      (handler otherHandler : Handler) :
      Alike like (.setHandler type handler)
        (.setHandler otherType otherHandler)
  | deleteHandler (type otherType : NodeType) :
      Alike like (.deleteHandler type) (.deleteHandler otherType)
  | traverse
      {tree other : Node}
      {keys otherKeys : Fields Value}
      (trees : like.node tree other)
      (alikeKeys : like.keys keys otherKeys) :
      Alike like (.traverse tree keys) (.traverse other otherKeys)
  | visitNode
      {node other : Node}
      {context otherContext : Context}
      (nodes : like.node node other)
      (contexts : like.context context otherContext) :
      Alike like (.visitNode node context) (.visitNode other otherContext)
  | generic
      {node other : Node}
      {context otherContext : Context}
      (nodes : like.node node other)
      (contexts : like.context context otherContext) :
      Alike like (.generic node context) (.generic other otherContext)
  | rebuild
      {node other : Node}
      {context otherContext : Context}
      (nodes : like.node node other)
      (contexts : like.context context otherContext) :
      Alike like (.rebuild node context) (.rebuild other otherContext)
  | start
      {tree other : Node}
      {keys otherKeys : Fields Value}
      (name : String)
      (trees : like.node tree other)
      (alikeKeys : like.keys keys otherKeys) :
      Alike like (.start name tree keys) (.start name other otherKeys)
  | startNode
      {node other : Node}
      {context otherContext : Context}
      (name : String)
      (nodes : like.node node other)
      (contexts : like.context context otherContext) :
      Alike like (.startNode name node context)
        (.startNode name other otherContext)
  | startGeneric
      {node other : Node}
      {context otherContext : Context}
      (name : String)
      (nodes : like.node node other)
      (contexts : like.context context otherContext) :
      Alike like (.startGeneric name node context)
        (.startGeneric name other otherContext)
  | next (name : String) : Alike like (.next name) (.next name)
  | rest (name : String) : Alike like (.rest name) (.rest name)

namespace Walker

/-- Two walkers, with recursion to a bound each, do alike whatever sessions ask. -/
structure Accompanies
    (like : Likeness)
    (left right : Walker)
    (bound otherBound : Nat) : Prop where
  mode_eq : left.mode = right.mode
  services :
    (left.services bound).Match like (fun _ => True)
      (right.services otherBound)
  openNode :
    ∀ {node other context otherContext},
      like.node node other →
      like.context context otherContext →
      (left.openNode (left.services bound) node context).Matches
        like.toComparison like.leaving
        (right.openNode (right.services otherBound) other otherContext)
  callGeneric :
    ∀ {node other context otherContext},
      like.node node other →
      like.context context otherContext →
      (left.callGeneric (left.services bound) node context).Matches
        like.toComparison like.leaving
        (right.callGeneric (right.services otherBound) other otherContext)
  starts : left.StartsAlike like right
  descends : left.DescendsAlike like right

/-- Alike walkers with alike services accompany each other. -/
theorem Alike.accompanies
    {like : Likeness}
    {left right : Walker}
    {bound otherBound : Nat}
    (alike : left.Alike like (fun _ => True) right)
    (starts : left.StartsAlike like right)
    (descends : left.DescendsAlike like right)
    (services :
      (left.services bound).Match like (fun _ => True)
        (right.services otherBound)) :
    left.Accompanies like right bound otherBound where
  mode_eq := alike.mode_eq
  services := services
  openNode nodes contexts := openNode_matches services nodes contexts alike
  callGeneric nodes contexts :=
    callGeneric_matches services nodes contexts alike.toFallbackAlike
  starts := starts
  descends := descends

end Walker

namespace Session

/-- Sessions of two walkers whose tables agree and whose iterators match. -/
structure Alike
    (comparison : Comparison)
    (leftWalker rightWalker : Walker)
    (left right : Session) : Prop where
  leftWalker_eq : left.walker = leftWalker
  rightWalker_eq : right.walker = rightWalker
  leftTable : left.table.StandsFor comparison.handlers
  rightTable : right.table.StandsFor comparison.handlers
  iterators :
    ∀ name,
      Option.Rel
        (fun run other => run.Matches comparison .finished other)
        (left.iterator? name) (right.iterator? name)

namespace Alike

variable
  {like : Likeness}
  {comparison : Comparison}
  {leftWalker rightWalker : Walker}
  {left right : Session}

/-- Walkers that have not been used yet are alike. -/
theorem create
    (comparison : Comparison)
    (leftWalker rightWalker : Walker) :
    Alike comparison leftWalker rightWalker
      (.create leftWalker comparison.handlers)
      (.create rightWalker comparison.handlers) where
  leftWalker_eq := rfl
  rightWalker_eq := rfl
  leftTable := .ofMap _
  rightTable := .ofMap _
  iterators _ := .none

/-- Tables that stand for the map may be exchanged. -/
theorem withTables
    (alike : Alike comparison leftWalker rightWalker left right)
    {leftTable rightTable : HandlerTable Handler}
    (leftStands : leftTable.StandsFor comparison.handlers)
    (rightStands : rightTable.StandsFor comparison.handlers) :
    Alike comparison leftWalker rightWalker
      { left with table := leftTable }
      { right with table := rightTable } where
  leftWalker_eq := alike.leftWalker_eq
  rightWalker_eq := alike.rightWalker_eq
  leftTable := leftStands
  rightTable := rightStands
  iterators := alike.iterators

/-- Matching runs may be put under one name. -/
theorem withIterator
    (alike : Alike comparison leftWalker rightWalker left right)
    (name : String)
    {run other : Run Unit}
    (matched : run.Matches comparison .finished other) :
    Alike comparison leftWalker rightWalker
      (left.withIterator name run) (right.withIterator name other) where
  leftWalker_eq := alike.leftWalker_eq
  rightWalker_eq := alike.rightWalker_eq
  leftTable := alike.leftTable
  rightTable := alike.rightTable
  iterators asked := by
    by_cases same : name = asked
    · subst same
      rw [iterator?_withIterator_self, iterator?_withIterator_self]
      exact .some matched
    · rw [iterator?_withIterator_of_ne _ same,
        iterator?_withIterator_of_ne _ same]
      exact alike.iterators asked

/-- Iterators are opened alike on matching traversals, or there are none. -/
theorem openTraversal
    (alike : Alike like.toComparison leftWalker rightWalker left right)
    (sameMode : leftWalker.mode = rightWalker.mode)
    (name : String)
    {run other : Run Unit}
    (matched : run.Matches like.toComparison .finished other) :
    (left.openTraversal name run).1.Alike like
        (right.openTraversal name other).1 ∧
      Alike like.toComparison leftWalker rightWalker
        (left.openTraversal name run).2
        (right.openTraversal name other).2 := by
  unfold Session.openTraversal
  rw [alike.leftWalker_eq, alike.rightWalker_eq, ← sameMode]
  cases leftWalker.mode with
  | visitor =>
      exact ⟨⟨rfl, .nothing⟩, alike.withIterator name matched⟩
  | transformer =>
      exact ⟨⟨rfl, .unknown⟩, alike⟩

section Strict

variable
  (alike : Alike like.toComparison leftWalker rightWalker left right)
  (strict : like.IsStrict)

include alike strict

/-- Matching runs taken to their ends are answered alike. -/
theorem complete
    {Left Right : Type}
    {agree : Left → Right → Prop}
    {reply : Left → Reply}
    {otherReply : Right → Reply}
    (replies :
      ∀ outcome other,
        agree outcome other →
        (reply outcome).Alike like (otherReply other))
    {run : Run Left}
    {other : Run Right}
    (matched : run.Matches like.toComparison (.only agree) other) :
    (left.complete reply run).1.Alike like
        (right.complete otherReply other).1 ∧
      Alike like.toComparison leftWalker rightWalker
        (left.complete reply run).2
        (right.complete otherReply other).2 := by
  obtain ⟨_, _, leftAfter⟩ := run.complete_eq_trace alike.leftTable
  obtain ⟨_, _, rightAfter⟩ := other.complete_eq_trace alike.rightTable
  obtain ⟨sameLog, endings⟩ :=
    matched.complete strict alike.leftTable alike.rightTable
  exact
    ⟨⟨sameLog, .ofEnding replies endings⟩,
      alike.withTables leftAfter rightAfter⟩

/-- Iterators are opened alike on what matching calls leave to be run. -/
theorem openIterator
    (name : String)
    {call otherCall : Run (Run Unit)}
    (matched : call.Matches like.toComparison like.leaving otherCall) :
    (left.openIterator name call).1.Alike like
        (right.openIterator name otherCall).1 ∧
      Alike like.toComparison leftWalker rightWalker
        (left.openIterator name call).2
        (right.openIterator name otherCall).2 := by
  obtain ⟨_, _, leftAfter⟩ := call.complete_eq_trace alike.leftTable
  obtain ⟨_, _, rightAfter⟩ :=
    otherCall.complete_eq_trace alike.rightTable
  obtain ⟨sameLog, endings⟩ :=
    matched.complete strict alike.leftTable alike.rightTable
  have afterCall := alike.withTables leftAfter rightAfter
  refine ⟨⟨sameLog, .ofEnding (fun _ _ _ => .nothing) endings⟩, ?_⟩
  simp only [Session.openIterator]
  generalize (call.complete left.table).halt = halt at endings ⊢
  generalize (otherCall.complete right.table).halt = otherHalt
    at endings ⊢
  cases endings with
  | finished remains =>
      exact afterCall.withIterator name remains
  | failed _ | exhausted _ =>
      exact afterCall

/-- Alike results are pulled from matching runs. -/
theorem pull
    (name : String)
    {run other : Run Unit}
    (matched : run.Matches like.toComparison .finished other) :
    (left.pull name run).1.Alike like (right.pull name other).1 ∧
      Alike like.toComparison leftWalker rightWalker
        (left.pull name run).2 (right.pull name other).2 := by
  obtain ⟨sameLog, stops⟩ :=
    matched.advance strict alike.leftTable alike.rightTable
  obtain ⟨_, _, leftAfter, _⟩ :=
    run.advance_eq_of_standsFor alike.leftTable alike.leftTable
  obtain ⟨_, _, rightAfter, _⟩ :=
    other.advance_eq_of_standsFor alike.rightTable alike.rightTable
  have afterPull := alike.withTables leftAfter rightAfter
  simp only [Session.pull]
  generalize (run.advance left.table).halt = halt at stops ⊢
  generalize (other.advance right.table).halt = otherHalt at stops ⊢
  cases stops with
  | atResult value onward =>
      exact
        ⟨⟨sameLog, .value value⟩, afterPull.withIterator name onward⟩
  | atEnd endings =>
      exact
        ⟨⟨sameLog, .ofEnding (fun _ _ _ => .ended) endings⟩,
          afterPull.withIterator name (.done trivial)⟩

/-- Alike results are drained from matching runs. -/
theorem drain
    (name : String)
    {run other : Run Unit}
    (matched : run.Matches like.toComparison .finished other) :
    (left.drain name run).1.Alike like (right.drain name other).1 ∧
      Alike like.toComparison leftWalker rightWalker
        (left.drain name run).2 (right.drain name other).2 := by
  obtain ⟨answers, afterDrain⟩ :=
    alike.complete strict (fun _ _ results => .result (like.ofList results))
      matched.gather
  exact ⟨answers, afterDrain.withIterator name (.done trivial)⟩

/-- Alike steps are answered alike and leave sessions alike. -/
theorem step
    {bound otherBound : Nat}
    (accompanies :
      leftWalker.Accompanies like rightWalker bound otherBound)
    {step other : Step}
    (steps : step.Alike like other) :
    (left.step bound step).1.Alike like (right.step otherBound other).1 ∧
      Alike like.toComparison leftWalker rightWalker
        (left.step bound step).2 (right.step otherBound other).2 := by
  have leftIs := alike.leftWalker_eq
  have rightIs := alike.rightWalker_eq
  have services := accompanies.services
  cases steps with
  | childContext index parents contexts =>
      simp only [Session.step, leftIs, rightIs]
      refine ⟨⟨rfl, ?_⟩, alike⟩
      rcases (accompanies.descends index parents contexts).cases with
        ⟨below, otherBelow, isFirst, isSecond, alikeBelow⟩ |
          ⟨failure, isFirst, isSecond, may⟩ | ⟨failure, _, may⟩
      · rw [isFirst, isSecond]
        exact .context alikeBelow
      · rw [isFirst, isSecond]
        exact .refused may
      · exact (strict.neverStops failure may).elim
  | setHandler | deleteHandler =>
      exact
        ⟨⟨rfl, .nothing⟩, leftIs, rightIs, alike.leftTable,
          alike.rightTable, alike.iterators⟩
  | traverse trees alikeKeys =>
      simp only [Session.step, step.services, leftIs, rightIs]
      exact alike.complete strict (fun _ _ outcomes => .result outcomes)
        (services.restart trivial trees alikeKeys)
  | visitNode nodes contexts =>
      simp only [Session.step, step.services, leftIs, rightIs]
      exact alike.complete strict
        (fun _ _ results => .result (like.ofList results))
        (services.visitNode trivial nodes contexts).gather
  | generic nodes contexts =>
      simp only [Session.step, step.services, leftIs, rightIs]
      exact alike.complete strict
        (fun _ _ results => .result (like.ofList results))
        (services.generic trivial nodes contexts).gather
  | rebuild nodes contexts =>
      simp only [Session.step, step.services, leftIs, rightIs]
      exact alike.complete strict
        (fun _ _ rebuilt => .result (like.ofNode rebuilt))
        (services.rebuild trivial nodes contexts)
  | start name trees alikeKeys =>
      simp only [Session.step, step.services, leftIs, rightIs]
      exact alike.openTraversal accompanies.mode_eq name
        (services.visitNode trivial trees (accompanies.starts alikeKeys))
  | startNode name nodes contexts =>
      simp only [Session.step, step.services, leftIs, rightIs]
      exact alike.openIterator strict name
        (accompanies.openNode nodes contexts)
  | startGeneric name nodes contexts =>
      simp only [Session.step, step.services, leftIs, rightIs]
      exact alike.openIterator strict name
        (accompanies.callGeneric nodes contexts)
  | next name =>
      have matched := alike.iterators name
      simp only [Session.step]
      generalize left.iterator? name = run at matched ⊢
      generalize right.iterator? name = other at matched ⊢
      cases matched with
      | none =>
          exact ⟨⟨rfl, .unknown⟩, alike⟩
      | some matched =>
          exact alike.pull strict name matched
  | rest name =>
      have matched := alike.iterators name
      simp only [Session.step]
      generalize left.iterator? name = run at matched ⊢
      generalize right.iterator? name = other at matched ⊢
      cases matched with
      | none =>
          exact ⟨⟨rfl, .result (like.ofList .nil)⟩, alike⟩
      | some matched =>
          exact alike.drain strict name matched

/-- Alike sequences of steps are answered alike. -/
theorem answers
    {bound otherBound : Nat}
    (accompanies :
      leftWalker.Accompanies like rightWalker bound otherBound)
    {steps others : List Step}
    (alikeSteps : List.Forall₂ (Step.Alike like) steps others) :
    List.Forall₂ (Answer.Alike like) (left.answers bound steps)
      (right.answers otherBound others) := by
  induction alikeSteps generalizing left right with
  | nil =>
      exact .nil
  | cons first _ inductionHypothesis =>
      obtain ⟨answers, afterStep⟩ := alike.step strict accompanies first
      exact .cons answers (inductionHypothesis afterStep)

end Strict

end Alike

end Session

end QueryWalk
