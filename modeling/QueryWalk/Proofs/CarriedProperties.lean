import Mathlib.Data.List.Forall2
import QueryWalk.Proofs.CollectedResults
import QueryWalk.Proofs.StepIsolation

namespace QueryWalk

/-!
# What rebuilding carries along

A node that is rebuilt from the replacements of its children keeps everything else: its
kind, its attributes and its undeclared properties. So in the outcome of a transformer
all nodes above the topmost handled ones still have theirs.
-/

namespace Node

/-- A node has the kind, the attributes and the undeclared properties of another. -/
structure KeepsPropertiesOf (result node : Node) : Prop where
  kind_eq : result.kind = node.kind
  attributes_eq : result.attributes = node.attributes
  extra_eq : result.extra = node.extra

/-- A node keeps its own properties. -/
theorem KeepsPropertiesOf.refl
    (node : Node) :
    node.KeepsPropertiesOf node :=
  ⟨rfl, rfl, rfl⟩

/-- A node that is given other children keeps its properties. -/
theorem KeepsPropertiesOf.of_withChildren
    {node result : Node}
    {given : List Node}
    (built : node.withChildren given = .ok result) :
    result.KeepsPropertiesOf node := by
  cases node with
  | term kind value extra
  | noneItem extra =>
      cases given with
      | nil =>
          cases built
          exact ⟨rfl, rfl, rfl⟩
      | cons first rest =>
          cases built
  | operation kind operands extra =>
      cases built
      exact ⟨rfl, rfl, rfl⟩
  | range low high includeLow includeHigh extra =>
      rcases given with _ | ⟨newLow, _ | ⟨newHigh, _ | ⟨third, rest⟩⟩⟩ <;>
        cases built
      exact ⟨rfl, rfl, rfl⟩
  | group kind expr extra
  | searchField name expr extra
  | approximation kind expr degree extra
  | boost expr force extra
  | unary kind expr extra =>
      rcases given with _ | ⟨only, _ | ⟨second, rest⟩⟩ <;>
        cases built
      exact ⟨rfl, rfl, rfl⟩

/-- Giving a node other children twice is giving it the last ones. -/
theorem withChildren_of_withChildren
    {node result : Node}
    {given : List Node}
    (built : node.withChildren given = .ok result)
    (later : List Node) :
    result.withChildren later = node.withChildren later := by
  cases node with
  | term kind value extra
  | noneItem extra =>
      cases given with
      | nil =>
          cases built
          rfl
      | cons first rest =>
          cases built
  | operation kind operands extra =>
      cases built
      rfl
  | range low high includeLow includeHigh extra =>
      rcases given with _ | ⟨newLow, _ | ⟨newHigh, _ | ⟨third, rest⟩⟩⟩ <;>
        cases built
      rfl
  | group kind expr extra
  | searchField name expr extra
  | approximation kind expr degree extra
  | boost expr force extra
  | unary kind expr extra =>
      rcases given with _ | ⟨only, _ | ⟨second, rest⟩⟩ <;>
        cases built
      rfl

end Node

namespace Run.Yields

variable
  {handlers : HandlerMap Handler}
  {Outcome Next : Type}
  {values others : List Value}

/-- A run delivers and ends in one way. -/
theorem unique
    {run : Run Outcome}
    {ending otherEnding : Ending Outcome}
    (yields : run.Yields handlers values ending)
    (otherwise : run.Yields handlers others otherEnding) :
    values = others ∧ ending = otherEnding :=
  ⟨yields.results.symm.trans otherwise.results,
    yields.ending.symm.trans otherwise.ending⟩

/-- What a run delivers that finishes is what its two parts deliver. -/
theorem exists_of_bind
    {run : Run Outcome}
    {next : Outcome → Run Next}
    {outcome : Next}
    (yields : (run.bind next).Yields handlers values (.finished outcome)) :
    ∃ earlier first later,
      run.Yields handlers earlier (.finished first) ∧
        (next first).Yields handlers later (.finished outcome) ∧
        values = earlier ++ later := by
  have firstYields :
      run.Yields handlers (Event.results (run.trace handlers).events)
        (run.trace handlers).ending :=
    ⟨rfl, rfl⟩
  cases ended : (run.trace handlers).ending with
  | finished first =>
      rw [ended] at firstYields
      have nextYields :
          (next first).Yields handlers
            (Event.results ((next first).trace handlers).events)
            ((next first).trace handlers).ending :=
        ⟨rfl, rfl⟩
      obtain ⟨sameValues, sameEnding⟩ :=
        yields.unique (firstYields.bind nextYields)
      rw [← sameEnding] at nextYields
      exact ⟨_, first, _, firstYields, nextYields, sameValues⟩
  | failed failure =>
      rw [ended] at firstYields
      cases (yields.unique firstYields.bind_failed).2
  | exhausted =>
      rw [ended] at firstYields
      cases (yields.unique firstYields.bind_exhausted).2

/-- What a run collects that finishes is what the run delivers. -/
theorem of_gather
    {run : Run Unit}
    {collected : List Value}
    (yields : run.gather.Yields handlers values (.finished collected)) :
    values = [] ∧ run.Yields handlers collected (.finished ()) := by
  have runYields :
      run.Yields handlers (Event.results (run.trace handlers).events)
        (run.trace handlers).ending :=
    ⟨rfl, rfl⟩
  obtain ⟨noValues, sameEnding⟩ := yields.unique runYields.gather
  refine ⟨noValues, ?_⟩
  cases ended : (run.trace handlers).ending with
  | finished outcome =>
      rw [ended] at runYields sameEnding
      cases sameEnding
      exact runYields
  | failed failure | exhausted =>
      rw [ended] at sameEnding
      cases sameEnding

/-- An outcome that may be missing is there if a run finishes with it. -/
theorem of_ofExcept
    {given : Except Failure Outcome}
    {outcome : Outcome}
    (yields :
      (Run.ofExcept given).Yields handlers values (.finished outcome)) :
    values = [] ∧ given = .ok outcome := by
  obtain ⟨noValues, sameEnding⟩ := yields.unique (.ofExcept given)
  refine ⟨noValues, ?_⟩
  cases given with
  | ok value =>
      cases sameEnding
      rfl
  | error failure =>
      cases sameEnding

end Run.Yields

/--
One node is another one rebuilt: it keeps the properties of the other, and its children
are what the former children gave, in order, where each gave what was promised of it.
-/
structure Node.RebuiltFrom
    (promise : Node → List Value → Prop)
    (result node : Node) :
    Prop where
  keeps : result.KeepsPropertiesOf node
  exists_parts :
    ∃ parts,
      List.Forall₂ promise node.children parts ∧
        result.children = parts.flatten.map Value.asNode

/--
What a transformer makes of a node. It may be anything where a handler decides, or the
handler that replaces the fallback; any other node is only rebuilt.
-/
inductive Walker.Carries
    (walker : Walker)
    (handlers : HandlerMap Handler) :
    Node → List Value → Prop where
  | handled
      {node : Node}
      {registration : Registration Handler}
      (found : handlers.resolve? node.kind = some registration)
      (values : List Value) :
      Carries walker handlers node values
  | overridden
      {node : Node}
      {fallback : Handler}
      (missed : handlers.resolve? node.kind = none)
      (replaced : walker.fallback = some fallback)
      (values : List Value) :
      Carries walker handlers node values
  | rebuilt
      {node result : Node}
      {parts : List (List Value)}
      (missed : handlers.resolve? node.kind = none)
      (original : walker.fallback = none)
      (keeps : result.KeepsPropertiesOf node)
      (each : List.Forall₂ (Carries walker handlers) node.children parts)
      (children_eq : result.children = parts.flatten.map Value.asNode) :
      Carries walker handlers node [.node result]

namespace Walker

variable
  {handlers : HandlerMap Handler}
  {services : Services}
  {node : Node}
  {context : Context}
  {values : List Value}

/-- Telling a listener delivers nothing. -/
theorem eq_nil_of_notify
    {settings : Settings}
    {type : Option NodeType}
    {ending : Ending Unit}
    (yields : (notify settings node type).Yields handlers values ending) :
    values = [] := by
  rw [← yields.results]
  unfold notify
  cases settings.listener with
  | silent | debugging =>
      rfl
  | logging rejected =>
      dsimp only
      split <;> rfl

/-- The children of a node deliver their parts one after the other. -/
theorem exists_parts_of_visitChildren
    {promise : Node → List Value → Prop}
    (each :
      ∀ (child : Node) (below : Context) (delivered : List Value),
        (services.visitNode child below).Yields handlers delivered
          (.finished ()) →
        promise child delivered)
    {children : List Node}
    {index : Nat}
    (yields :
      (visitChildren services node context index children).Yields handlers
        values (.finished ())) :
    ∃ parts,
      List.Forall₂ promise children parts ∧ values = parts.flatten := by
  induction children generalizing index values with
  | nil =>
      obtain ⟨rfl, _⟩ := yields.unique (.done ())
      exact ⟨[], .nil, rfl⟩
  | cons child rest inductionHypothesis =>
      obtain ⟨none, below, further, descends, both, rfl⟩ :=
        yields.exists_of_bind
      obtain ⟨first, _, later, visits, onward, rfl⟩ :=
        both.exists_of_bind
      obtain ⟨rfl, _⟩ := descends.of_ofExcept
      obtain ⟨parts, promised, rfl⟩ := inductionHypothesis onward
      exact
        ⟨first :: parts, .cons (each child below first visits) promised,
          rfl⟩

/-- What a rebuild comes to is the node rebuilt. -/
theorem rebuiltFrom_of_rebuild
    {promise : Node → List Value → Prop}
    (each :
      ∀ (child : Node) (below : Context) (delivered : List Value),
        (services.visitNode child below).Yields handlers delivered
          (.finished ()) →
        promise child delivered)
    {result : Node}
    (yields :
      (rebuild services node context).Yields handlers values
        (.finished result)) :
    values = [] ∧ result.RebuiltFrom promise node := by
  unfold rebuild at yields
  split at yields
  · rename_i leaf
    have noChildren : node.children = [] := List.isEmpty_iff.mp leaf
    obtain ⟨rfl, sameEnding⟩ := yields.unique (.done node)
    cases sameEnding
    have each : List.Forall₂ promise node.children [] := by
      rw [noChildren]
      exact .nil
    exact ⟨rfl, .refl node, [], each, noChildren⟩
  · obtain ⟨_, replacements, _, gathered, built, rfl⟩ :=
      yields.exists_of_bind
    obtain ⟨rfl, visited⟩ := gathered.of_gather
    obtain ⟨rfl, isResult⟩ := built.of_ofExcept
    obtain ⟨parts, promised, rfl⟩ :=
      exists_parts_of_visitChildren each visited
    exact
      ⟨rfl, .of_withChildren isResult, parts, promised,
        Node.children_of_withChildren isResult⟩

/-- The original fallback is the built-in one. -/
theorem generic_eq_structural
    {walker : Walker}
    (original : walker.fallback = none)
    (bound : Nat) :
    (walker.services bound).generic =
      (walker.services bound).structural := by
  cases bound with
  | zero =>
      rfl
  | succ bound =>
      funext node context
      change
        (walker.callGeneric (walker.services bound) node context).bind id =
          (walker.callStructural (walker.services bound) node
            context).bind id
      unfold callGeneric
      rw [original]

section Transformer

variable
  {walker : Walker}
  (transformer : walker.mode = .transformer)

include transformer

/-- The built-in fallback of a transformer delivers the node rebuilt. -/
theorem rebuiltFrom_of_callStructural
    {promise : Node → List Value → Prop}
    (each :
      ∀ (child : Node) (below : Context) (delivered : List Value),
        (services.visitNode child below).Yields handlers delivered
          (.finished ()) →
        promise child delivered)
    (yields :
      ((walker.callStructural services node context).bind id).Yields
        handlers values (.finished ())) :
    ∃ result, values = [.node result] ∧ result.RebuiltFrom promise node := by
  unfold callStructural at yields
  rw [transformer] at yields
  simp only [Run.bind_bind] at yields
  obtain ⟨_, result, delivered, rebuilds, delivers, rfl⟩ :=
    yields.exists_of_bind
  obtain ⟨rfl, isRebuilt⟩ := rebuiltFrom_of_rebuild each rebuilds
  obtain ⟨rfl, _⟩ := delivers.unique (.delivering (.node result))
  exact ⟨result, rfl, isRebuilt⟩

/-- What a transformer gives for a node without a handler of its own. -/
theorem callGeneric_carries
    (each :
      ∀ (child : Node) (below : Context) (delivered : List Value),
        (services.visitNode child below).Yields handlers delivered
          (.finished ()) →
        walker.Carries handlers child delivered)
    (missed : handlers.resolve? node.kind = none)
    (yields :
      ((walker.callGeneric services node context).bind id).Yields handlers
        values (.finished ())) :
    walker.Carries handlers node values := by
  cases original : walker.fallback with
  | some fallback =>
      exact .overridden missed original values
  | none =>
      unfold callGeneric at yields
      rw [original] at yields
      obtain ⟨result, rfl, keeps, parts, each, children⟩ :=
        rebuiltFrom_of_callStructural transformer each yields
      exact .rebuilt missed original keeps each children

/-- What a transformer gives for a node. -/
theorem visitNode_carries
    {bound : Nat}
    (yields :
      ((walker.services bound).visitNode node context).Yields handlers
        values (.finished ())) :
    walker.Carries handlers node values := by
  induction bound generalizing node context values with
  | zero =>
      cases yields.ending
  | succ bound inductionHypothesis =>
      change
        (walker.visitNode (walker.services bound) node context).Yields
          handlers values (.finished ())
        at yields
      unfold visitNode at yields
      rw [transformer] at yields
      obtain ⟨_, results, delivered, gathered, delivers, rfl⟩ :=
        yields.exists_of_bind
      obtain ⟨rfl, called⟩ := gathered.of_gather
      obtain ⟨rfl, _⟩ := delivers.unique (Run.Collects.deliverAll results)
      cases found : handlers.resolve? node.kind with
      | some registration =>
          exact .handled found _
      | none =>
          unfold callNode at called
          simp only [Run.bind_eq, Run.bind_bind] at called
          obtain ⟨_, resolved, _, asks, notifies, rfl⟩ :=
            called.exists_of_bind
          have missed :
              (Run.asking node.kind).Yields handlers [] (.finished none) :=
            ⟨rfl, congrArg Ending.finished found⟩
          obtain ⟨rfl, isNone⟩ := asks.unique missed
          cases isNone
          obtain ⟨_, _, given, tells, generic, rfl⟩ :=
            notifies.exists_of_bind
          obtain rfl := eq_nil_of_notify tells
          exact
            callGeneric_carries transformer
              (fun _ _ _ => inductionHypothesis) found generic

/-- What a traversal by a transformer comes to. -/
theorem restart_carries
    {bound : Nat}
    {tree : Node}
    {keys : Fields Value}
    {value : Value}
    (yields :
      ((walker.services bound).restart tree keys).Yields handlers values
        (.finished value)) :
    walker.Carries handlers tree [value] := by
  cases bound with
  | zero =>
      cases yields.ending
  | succ bound =>
      change
        (walker.traverse (walker.services bound) tree keys).Yields handlers
          values (.finished value)
        at yields
      unfold traverse at yields
      rw [transformer] at yields
      obtain ⟨_, results, delivered, gathered, comes, rfl⟩ :=
        yields.exists_of_bind
      have visited := gathered.of_gather.2
      have isRoot : results = [value] := by
        rcases results with _ | ⟨first, _ | ⟨second, rest⟩⟩
        · cases comes.ending
        · cases comes.ending
          rfl
        · cases comes.ending
      subst isRoot
      change
        ((walker.services (bound + 1)).visitNode tree
          (.root walker.settings keys)).Yields handlers [value] (.finished ())
        at visited
      exact visitNode_carries transformer visited

/-- Whatever a transformer rebuilds for its handlers is the node rebuilt. -/
theorem rebuiltFrom_of_services
    {bound : Nat} :
    (∀ result : Node,
      ((walker.services bound).rebuild node context).Yields handlers values
        (.finished result) →
      result.RebuiltFrom (walker.Carries handlers) node) ∧
    (((walker.services bound).structural node context).Yields handlers
        values (.finished ()) →
      ∃ result,
        values = [.node result] ∧
          result.RebuiltFrom (walker.Carries handlers) node) := by
  cases bound with
  | zero =>
      constructor
      · intro result yields
        cases yields.ending
      · intro yields
        cases yields.ending
  | succ bound =>
      constructor
      · intro result yields
        simp only [services,
          callRebuild_of_transformer transformer] at yields
        exact
          (rebuiltFrom_of_rebuild
            (fun _ _ _ => visitNode_carries transformer) yields).2
      · intro yields
        exact
          rebuiltFrom_of_callStructural transformer
            (fun _ _ _ => visitNode_carries transformer) yields

end Transformer

end Walker

namespace Session

variable
  {handlers : HandlerMap Handler}

/-- A session keeps its walker throughout. -/
theorem walker_after
    (bound : Nat)
    (session : Session)
    (steps : List Step) :
    (session.after bound steps).walker = session.walker := by
  induction steps generalizing session with
  | nil =>
      rfl
  | cons first later inductionHypothesis =>
      exact
        (inductionHypothesis (session.step bound first).2).trans
          (walker_step bound session first)

/-- The table of a session stands for the same handlers throughout. -/
theorem table_after
    (bound : Nat)
    {session : Session}
    (standsFor : session.table.StandsFor handlers)
    (steps : List Step) :
    (session.after bound steps).table.StandsFor handlers := by
  induction steps generalizing session with
  | nil =>
      exact standsFor
  | cons first later inductionHypothesis =>
      exact inductionHypothesis (table_step bound standsFor first)

/-- A result that a caller is told is the outcome of a run that finishes. -/
theorem exists_of_reply_complete
    {Outcome : Type}
    {session : Session}
    (standsFor : session.table.StandsFor handlers)
    {run : Run Outcome}
    {reply : Outcome → Reply}
    {value : Value}
    (told : (session.complete reply run).1.reply = .result value) :
    ∃ values outcome,
      run.Yields handlers values (.finished outcome) ∧
        reply outcome = .result value := by
  have yields :
      run.Yields handlers (Event.results (run.trace handlers).events)
        (run.trace handlers).ending :=
    ⟨rfl, rfl⟩
  rw [reply_complete standsFor yields] at told
  cases ended : (run.trace handlers).ending with
  | finished outcome =>
      rw [ended] at yields told
      exact ⟨_, outcome, yields, told⟩
  | failed failure | exhausted =>
      rw [ended] at told
      cases told

/-- What a transformer tells of a tree carries the properties of what was in it. -/
theorem carries_of_reply
    {walker : Walker}
    (transformer : walker.mode = .transformer)
    {bound : Nat}
    (earlier : List Step)
    {tree : Node}
    {keys : Fields Value}
    {value : Value}
    (told :
      ((((Session.create walker handlers).after bound earlier).step bound
          (.traverse tree keys)).1).reply =
        .result value) :
    walker.Carries handlers tree [value] := by
  have standsFor :
      ((Session.create walker handlers).after bound
        earlier).table.StandsFor handlers :=
    table_after bound (.ofMap handlers) earlier
  obtain ⟨values, outcome, yields, same⟩ :=
    exists_of_reply_complete standsFor told
  cases same
  rw [step.services, walker_after] at yields
  exact Walker.restart_carries transformer yields

end Session

end QueryWalk
