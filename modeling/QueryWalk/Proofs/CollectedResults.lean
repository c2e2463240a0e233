import Mathlib.Data.List.Forall2
import QueryWalk.Proofs.ContextDepth
import QueryWalk.Proofs.LazyTraversal
import QueryWalk.Proofs.RunYields

namespace QueryWalk

/-!
# What runs collect

A run taken to its end collects its results, unless it fails: then the failure is
all there is, whatever came before it. What a node gives is collected from what
its handler gives or, without one, from what its children give in turn.
-/

namespace Ending

variable {Outcome : Type}

/-- The ending of a run that has an outcome or a failure. -/
def ofExcept : Except Failure Outcome → Ending Outcome
  | .ok outcome => .finished outcome
  | .error failure => .failed failure

end Ending

namespace Run

variable
  {handlers : HandlerMap Handler}
  {Outcome Next : Type}

/-- Collecting the results of a run makes them the outcome. -/
theorem Yields.gather
    {run : Run Unit}
    {values : List Value}
    {ending : Ending Unit}
    (yields : run.Yields handlers values ending) :
    run.gather.Yields handlers [] (ending.map fun _ => values) := by
  suffices collecting :
      ∀ collected,
        (run.gatherOnto collected).Yields handlers []
          (ending.map fun _ => collected.reverse ++ values) by
    exact collecting []
  obtain ⟨rfl, rfl⟩ := yields
  induction run with
  | done outcome =>
      intro collected
      refine ⟨rfl, ?_⟩
      simp [gatherOnto, trace, Ending.map, Event.results]
  | failed failure | exhausted =>
      intro collected
      exact ⟨rfl, rfl⟩
  | note noted rest inductionHypothesis =>
      intro collected
      exact (inductionHypothesis () collected).note
  | resolve kind rest inductionHypothesis =>
      intro collected
      exact (inductionHypothesis _ collected).resolve
  | deliver value rest inductionHypothesis =>
      intro collected
      have further := inductionHypothesis () (value :: collected)
      rw [List.reverse_cons, List.append_assoc] at further
      exact further

/-- A run has an outcome or fails, and delivers nothing that counts. -/
theorem Yields.ofExcept
    (outcome : Except Failure Outcome) :
    (Run.ofExcept outcome).Yields handlers [] (.ofExcept outcome) := by
  cases outcome with
  | ok value =>
      exact .done value
  | error failure =>
      exact .failed failure

/-- A run collects values, or it fails. -/
def Collects
    (handlers : HandlerMap Handler)
    (run : Run Unit) :
    Except Failure (List Value) → Prop
  | .ok values => run.Yields handlers values (.finished ())
  | .error failure =>
      ∃ values, run.Yields handlers values (.failed failure)

namespace Collects

variable
  {run first second : Run Unit}
  {collected earlier later : Except Failure (List Value)}

theorem none :
    (Run.done ()).Collects handlers (.ok []) :=
  .done ()

theorem single
    (value : Value) :
    (Run.delivering value).Collects handlers (.ok [value]) :=
  .delivering value

theorem failed
    (failure : Failure) :
    (Run.failed failure).Collects handlers (.error failure) :=
  ⟨[], .failed failure⟩

theorem deliverAll
    (values : List Value) :
    (Run.deliverAll values).Collects handlers (.ok values) := by
  induction values with
  | nil =>
      exact none
  | cons value rest inductionHypothesis =>
      exact Yields.deliver value inductionHypothesis

theorem note
    {noted : Note}
    {rest : Unit → Run Unit}
    (collects : (rest ()).Collects handlers collected) :
    (Run.note noted rest).Collects handlers collected := by
  cases collected with
  | ok values =>
      exact Yields.note collects
  | error failure =>
      obtain ⟨values, yields⟩ := collects
      exact ⟨values, yields.note⟩

theorem resolve
    {kind : NodeKind}
    {rest : Option (Registration Handler) → Run Unit}
    (collects :
      (rest (handlers.resolve? kind)).Collects handlers collected) :
    (Run.resolve kind rest).Collects handlers collected := by
  cases collected with
  | ok values =>
      exact Yields.resolve collects
  | error failure =>
      obtain ⟨values, yields⟩ := collects
      exact ⟨values, yields.resolve⟩

/-- After a run that delivers nothing, what follows it is collected. -/
theorem follow
    {run : Run Outcome}
    {next : Outcome → Run Unit}
    {outcome : Outcome}
    (yields : run.Yields handlers [] (.finished outcome))
    (collects : (next outcome).Collects handlers collected) :
    (run.bind next).Collects handlers collected := by
  cases collected with
  | ok values =>
      exact yields.bind collects
  | error failure =>
      obtain ⟨values, yieldsNext⟩ := collects
      exact ⟨values, yields.bind yieldsNext⟩

/-- A run that delivers nothing may fail before anything follows it. -/
theorem follow?
    {run : Run Outcome}
    {next : Outcome → Run Unit}
    {outcome : Except Failure Outcome}
    {further : Outcome → Except Failure (List Value)}
    (yields : run.Yields handlers [] (.ofExcept outcome))
    (collects :
      ∀ value,
        outcome = .ok value →
        (next value).Collects handlers (further value)) :
    (run.bind next).Collects handlers (outcome.bind further) := by
  cases outcome with
  | error failure =>
      exact ⟨[], yields.bind_failed⟩
  | ok value =>
      exact follow yields (collects value rfl)

/-- Values collected first come first, and the first failure ends it all. -/
theorem andThen
    (collectsFirst : first.Collects handlers earlier)
    (collectsSecond : second.Collects handlers later) :
    (first.bind fun _ => second).Collects handlers
      (earlier.bind fun values => later.map (values ++ ·)) := by
  cases earlier with
  | error failure =>
      obtain ⟨values, yields⟩ := collectsFirst
      exact ⟨values, yields.bind_failed⟩
  | ok values =>
      cases later with
      | ok further =>
          exact Yields.bind collectsFirst collectsSecond
      | error failure =>
          obtain ⟨further, yields⟩ := collectsSecond
          exact ⟨values ++ further, Yields.bind collectsFirst yields⟩

/-- What a run collects is what collecting its results comes to. -/
theorem gather
    (collects : run.Collects handlers collected) :
    run.gather.Yields handlers [] (.ofExcept collected) := by
  cases collected with
  | ok values =>
      exact Yields.gather collects
  | error failure =>
      obtain ⟨values, yields⟩ := collects
      exact yields.gather

/-- Collecting results and delivering them again changes nothing. -/
theorem regather
    (collects : run.Collects handlers collected) :
    (run.gather.bind Run.deliverAll).Collects handlers collected := by
  have delivered :=
    follow? collects.gather fun values _ => deliverAll values
  cases collected <;> exact delivered

end Collects

end Run

/-- Outcomes one after the other, their values put together. -/
def inTurn :
    List (Except Failure (List Value)) → Except Failure (List Value)
  | [] => .ok []
  | first :: rest =>
      first.bind fun values => (inTurn rest).map (values ++ ·)

/-- Where nothing fails, all values are there, in order. -/
theorem inTurn_map_ok
    (given : List (List Value)) :
    inTurn (given.map .ok) = .ok given.flatten := by
  induction given with
  | nil =>
      rfl
  | cons values rest inductionHypothesis =>
      rw [List.map_cons, inTurn, inductionHypothesis]
      rfl

/-- Either nothing fails, or what fails first is all there is. -/
theorem inTurn_cases
    (outcomes : List (Except Failure (List Value))) :
    (∃ given : List (List Value), outcomes = given.map .ok) ∨
      ∃ (given : List (List Value)) (failure : Failure) (rest : _),
        outcomes = given.map .ok ++ .error failure :: rest ∧
          inTurn outcomes = .error failure := by
  induction outcomes with
  | nil =>
      exact .inl ⟨[], rfl⟩
  | cons outcome rest inductionHypothesis =>
      cases outcome with
      | error failure =>
          exact .inr ⟨[], failure, rest, rfl, rfl⟩
      | ok values =>
          rcases inductionHypothesis with
            ⟨given, rfl⟩ | ⟨given, failure, later, rfl, fails⟩
          · exact .inl ⟨values :: given, rfl⟩
          · refine .inr ⟨values :: given, failure, later, rfl, ?_⟩
            rw [inTurn, fails]
            rfl

/-- What comes in turn of one part is the part. -/
theorem inTurn_singleton
    (outcome : Except Failure (List Value)) :
    inTurn [outcome] = outcome := by
  cases outcome <;> simp [inTurn, Except.bind, Except.map]

/-- What comes in turn of two lists is what comes of the one and then of the other. -/
theorem inTurn_append
    (earlier later : List (Except Failure (List Value))) :
    inTurn (earlier ++ later) =
      (inTurn earlier).bind fun values =>
        (inTurn later).map (values ++ ·) := by
  induction earlier with
  | nil =>
      cases given : inTurn later <;> simp [inTurn, Except.bind, Except.map, given]
  | cons outcome rest inductionHypothesis =>
      rw [List.cons_append, inTurn, inTurn, inductionHypothesis]
      cases outcome with
      | error failure =>
          rfl
      | ok values =>
          cases inTurn rest with
          | error failure =>
              rfl
          | ok further =>
              cases inTurn later with
              | error failure =>
                  rfl
              | ok last =>
                  simp [Except.bind, Except.map]

/-- What comes in turn of several lists is what comes of all of them as one. -/
theorem inTurn_map_inTurn
    (lists : List (List (Except Failure (List Value)))) :
    inTurn (lists.map inTurn) = inTurn lists.flatten := by
  induction lists with
  | nil =>
      rfl
  | cons outcomes rest inductionHypothesis =>
      rw [List.map_cons, inTurn, inductionHypothesis, List.flatten_cons,
        inTurn_append]

/-- What fails in turn is one of the parts. -/
theorem error_mem_of_inTurn
    {outcomes : List (Except Failure (List Value))}
    {failure : Failure}
    (failed : inTurn outcomes = .error failure) :
    .error failure ∈ outcomes := by
  rcases inTurn_cases outcomes with
    ⟨given, rfl⟩ | ⟨given, first, rest, rfl, fails⟩
  · rw [inTurn_map_ok] at failed
    cases failed
  · rw [fails] at failed
    cases failed
    simp

/-- Of two lists that are related in pairs, each member of the second has a partner. -/
theorem exists_partner_of_mem
    {First Second : Type}
    {related : First → Second → Prop}
    {firsts : List First}
    {seconds : List Second}
    (pairs : List.Forall₂ related firsts seconds)
    {second : Second}
    (member : second ∈ seconds) :
    ∃ first ∈ firsts, related first second := by
  induction pairs with
  | nil =>
      cases member
  | @cons first other _ _ isPair _ inductionHypothesis =>
      rcases List.mem_cons.mp member with rfl | inRest
      · exact ⟨first, List.mem_cons_self, isPair⟩
      · obtain ⟨partner, isThere, isRelated⟩ := inductionHypothesis inRest
        exact ⟨partner, List.mem_cons_of_mem first isThere, isRelated⟩

/-- What succeeds in turn are all the parts. -/
theorem forall₂_of_inTurn
    {Item : Type}
    {outcome : Item → Except Failure (List Value)}
    {items : List Item}
    {values : List Value}
    (succeeded : inTurn (items.map outcome) = .ok values) :
    ∃ given : List (List Value),
      values = given.flatten ∧
        List.Forall₂ (fun item part => outcome item = .ok part)
          items given := by
  rcases inTurn_cases (items.map outcome) with
    ⟨given, all⟩ | ⟨given, failure, rest, -, fails⟩
  · rw [all, inTurn_map_ok] at succeeded
    cases succeeded
    refine ⟨given, rfl, ?_⟩
    have pointwise :
        List.Forall₂ (· = ·) (items.map outcome) (given.map .ok) :=
      List.forall₂_eq_eq_eq ▸ all
    simpa only [List.forall₂_map_left_iff, List.forall₂_map_right_iff]
      using pointwise
  · rw [fails] at succeeded
    cases succeeded

/-- Where only one failure can happen, it does unless nothing fails. -/
theorem inTurn_map_ite
    {Item : Type}
    (passes : Item → Prop)
    [DecidablePred passes]
    (given : Item → List Value)
    (failure : Failure)
    (items : List Item) :
    inTurn
        (items.map fun item =>
          if passes item then .ok (given item) else .error failure) =
      if ∀ item ∈ items, passes item then
        .ok (items.flatMap given)
      else
        .error failure := by
  induction items with
  | nil =>
      simp [inTurn]
  | cons item rest inductionHypothesis =>
      rw [List.map_cons, inTurn, inductionHypothesis]
      have both :
          (∀ later ∈ item :: rest, passes later) ↔
            passes item ∧ ∀ later ∈ rest, passes later :=
        List.forall_mem_cons
      by_cases itemPasses : passes item
      · by_cases restPasses : ∀ later ∈ rest, passes later
        · rw [if_pos itemPasses, if_pos restPasses,
            if_pos (both.mpr ⟨itemPasses, restPasses⟩)]
          rfl
        · rw [if_pos itemPasses, if_neg restPasses,
            if_neg fun all => restPasses (both.mp all).2]
          rfl
      · rw [if_neg itemPasses, if_neg fun all => itemPasses (both.mp all).1]
        rfl

namespace Handler

/-- Calling a handler, lazy or eager, leaves what its body collects. -/
theorem call_collects
    {handlers : HandlerMap Handler}
    {services : Services}
    {handler : Handler}
    {node : Node}
    {context : Context}
    {collected : Except Failure (List Value)}
    (collects :
      (handler.body services node context).Collects handlers collected) :
    ((handler.call services node context).bind id).Collects handlers
      collected := by
  unfold call
  split
  · rw [Run.bind_bind]
    exact collects.regather
  · exact collects

end Handler

namespace Mode

/--
What a traversal makes of the results for its root. A visitor lists them, and a
transformer wants exactly one.
-/
def outcome : Mode → List Value → Except Failure Value
  | .visitor, results => .ok (.list results)
  | .transformer, [root] => .ok root
  | .transformer, results =>
      .error (.transformArity (.ofNat results.length) none)

end Mode

/-- What comes of a node at a depth, or the failure of a walk that does not go there. -/
def Settings.downTo
    (settings : Settings)
    (depth : Nat)
    (outcome : Except Failure (List Value)) :
    Except Failure (List Value) :=
  if settings.Admits depth then
    outcome
  else
    .error (.traversalDepth (.ofNat settings.maxDepth))

namespace Walker

/-- The walker of a mode whose fallback is the original one. -/
def original (mode : Mode) (settings : Settings) : Walker where
  mode := mode
  settings := settings
  fallback := none

section Giving

variable
  {walker : Walker}
  {handlers : HandlerMap Handler}
  {services : Services}
  {node : Node}
  {context : Context}
  {collected : Except Failure (List Value)}

/-- A listener that rejects nothing is told without any result. -/
theorem notify_yields
    {settings : Settings}
    (accepts : ∀ kind, settings.listener ≠ .logging (some kind))
    (node : Node)
    (type : Option NodeType) :
    (notify settings node type).Yields handlers [] (.finished ()) := by
  unfold notify
  split
  · exact .done ()
  · exact .note (.done ())
  · rename_i rejected listens
    have rejectsNone : rejected = none := by
      cases rejected with
      | none =>
          rfl
      | some kind =>
          exact (accepts kind listens).elim
    subst rejectsNone
    exact .note (.done ())

/-- What a node gives is what its call leaves, in either mode. -/
theorem visitNode_collects
    (collects :
      ((walker.callNode services node context).bind id).Collects handlers
        collected) :
    (walker.visitNode services node context).Collects handlers
      collected := by
  unfold visitNode
  split
  · exact collects
  · exact collects.regather

/-- A node with a handler gives what the handler gives. -/
theorem visitNode_collects_of_resolved
    (accepts : ∀ kind, walker.settings.listener ≠ .logging (some kind))
    {registration : Registration Handler}
    (found : handlers.resolve? node.kind = some registration)
    (collects :
      (registration.handler.body services node context).Collects handlers
        collected) :
    (walker.visitNode services node context).Collects handlers
      collected := by
  apply visitNode_collects
  apply Run.Collects.resolve
  rw [found]
  have handlerFor :
      registration.handlerFor node = .ok registration.handler :=
    if_pos (HandlerMap.includes_of_resolve? found)
  simp only [Run.bind, Run.bind_eq, Run.bind_bind]
  apply Run.Collects.follow (notify_yields accepts node _)
  rw [handlerFor]
  exact .note (Handler.call_collects collects)

/-- A node without a handler gives what the fallback gives. -/
theorem visitNode_collects_of_missed
    (accepts : ∀ kind, walker.settings.listener ≠ .logging (some kind))
    (missed : handlers.resolve? node.kind = none)
    (collects :
      ((walker.callGeneric services node context).bind id).Collects
        handlers collected) :
    (walker.visitNode services node context).Collects handlers
      collected := by
  apply visitNode_collects
  apply Run.Collects.resolve
  rw [missed]
  simp only [Run.bind, Run.bind_eq, Run.bind_bind]
  exact Run.Collects.follow (notify_yields accepts node _) collects

/-- What a child of a node gives, in the context made for it. -/
def visitChild
    (services : Services)
    (node : Node)
    (context : Context)
    (index : Nat)
    (child : Node) :
    Run Unit :=
  (Run.ofExcept
      (context.descend services.settings node (.ofNat index))).bind
    (services.visitNode child)

/-- Children are visited one after the other. -/
theorem visitChildren_cons
    (services : Services)
    (node : Node)
    (context : Context)
    (index : Nat)
    (child : Node)
    (rest : List Node) :
    visitChildren services node context index (child :: rest) =
      (visitChild services node context index child).bind fun _ =>
        visitChildren services node context (index + 1) rest := by
  rw [visitChild, Run.bind_bind]
  rfl

/-- What children give is collected in turn, up to the first failure. -/
theorem visitChildren_collects
    {first : Nat}
    {children : List Node}
    {outcomes : List (Except Failure (List Value))}
    (sameLength : outcomes.length = children.length)
    (each :
      ∀ place child outcome,
        children[place]? = some child →
        outcomes[place]? = some outcome →
        (visitChild services node context (first + place) child).Collects
          handlers outcome) :
    (visitChildren services node context first children).Collects handlers
      (inTurn outcomes) := by
  induction children generalizing first outcomes with
  | nil =>
      have noOutcome := List.eq_nil_of_length_eq_zero sameLength
      subst noOutcome
      exact .none
  | cons child rest inductionHypothesis =>
      cases outcomes with
      | nil =>
          cases sameLength
      | cons outcome further =>
          rw [visitChildren_cons]
          apply Run.Collects.andThen (each 0 child outcome rfl rfl)
          apply inductionHypothesis (Nat.succ.inj sameLength)
          intro place later laterOutcome isLater isOutcome
          rw [show first + 1 + place = first + (place + 1) by omega]
          exact each (place + 1) later laterOutcome isLater isOutcome

/-- Where the context of the first child is refused, none is visited. -/
theorem visitChildren_of_refused
    (inner : node.children ≠ [])
    {failure : Failure}
    (refused :
      context.descend services.settings node (.ofNat 0) = .error failure) :
    visitChildren services node context 0 node.children =
      .failed failure := by
  obtain ⟨child, rest, children⟩ := List.exists_cons_of_ne_nil inner
  rw [children, visitChildren_cons, visitChild, refused]
  rfl

/-- What the children of a node at a depth give, where the walk goes down to them. -/
theorem visitChildren_downTo
    {settings : Settings}
    (sameSettings : services.settings = settings)
    {depth : Nat}
    (isAt : context.IsAtDepth depth)
    (iterable :
      node.children ≠ [] →
      settings.Admits (depth + 1) →
      context.IsIterable settings)
    {outcome : Node → Except Failure (List Value)}
    (each :
      ∀ index child,
        node.children[index]? = some child →
        settings.Admits (depth + 1) →
        (services.visitNode child
          (context.child settings node (.ofNat index))).Collects handlers
          (outcome child)) :
    (visitChildren services node context 0 node.children).Collects handlers
      (inTurn
        (node.children.map fun child =>
          settings.downTo (depth + 1) (outcome child))) := by
  apply visitChildren_collects (List.length_map _)
  intro index child collected isChild isOutcome
  rw [List.getElem?_map, isChild] at isOutcome
  cases isOutcome
  rw [Nat.zero_add, visitChild, sameSettings]
  simp only [Settings.downTo]
  split
  · rename_i admits
    have inner : node.children ≠ [] :=
      List.ne_nil_of_mem (List.mem_of_getElem? isChild)
    rw [isAt.descend admits (iterable inner admits)]
    exact each index child isChild admits
  · rename_i tooDeep
    rw [isAt.descend_error tooDeep]
    exact .failed _

/-- A node is rebuilt from what its children give, unless one fails. -/
theorem rebuild_yields
    (collects :
      (visitChildren services node context 0 node.children).Collects
        handlers collected) :
    (rebuild services node context).Yields handlers []
      (.ofExcept
        (collected.bind fun values =>
          node.withChildren (values.map Value.asNode))) := by
  unfold rebuild
  split
  · rename_i childless
    have noChildren : node.children = [] :=
      List.isEmpty_iff.mp childless
    rw [noChildren] at collects
    cases collected with
    | ok values =>
        have noValues : [] = values := collects.results
        subst noValues
        have same := node.withChildren_children
        rw [noChildren] at same
        change (Run.done node).Yields handlers []
          (.ofExcept (node.withChildren []))
        rw [same]
        exact .done node
    | error failure =>
        obtain ⟨values, yields⟩ := collects
        cases yields.ending
  · have gathered := collects.gather
    cases collected with
    | ok values =>
        exact gathered.bind (.ofExcept _)
    | error failure =>
        exact gathered.bind_failed

/-- The original fallback of a visitor gives what the children give. -/
theorem callGeneric_collects_of_visitor
    (visitor : walker.mode = .visitor)
    (original : walker.fallback = none)
    (collects :
      (visitChildren services node context 0 node.children).Collects
        handlers collected) :
    ((walker.callGeneric services node context).bind id).Collects handlers
      collected := by
  rw [callGeneric, original]
  simp only [callStructural, visitor]
  exact collects

/-- The original fallback of a transformer gives the node rebuilt. -/
theorem callGeneric_collects_of_transformer
    (transformer : walker.mode = .transformer)
    (original : walker.fallback = none)
    {outcome : Except Failure Node}
    (yields :
      (rebuild services node context).Yields handlers []
        (.ofExcept outcome)) :
    ((walker.callGeneric services node context).bind id).Collects handlers
      (outcome.bind fun rebuilt => .ok [.node rebuilt]) := by
  rw [callGeneric, original]
  simp only [callStructural, transformer, Run.bind_bind]
  exact Run.Collects.follow? yields fun rebuilt _ => .single (.node rebuilt)

/-- A node is not rebuilt where the walk cannot go down from it. -/
theorem rebuild_of_refused
    (inner : node.children ≠ [])
    {failure : Failure}
    (refused :
      context.descend services.settings node (.ofNat 0) = .error failure) :
    rebuild services node context = .failed failure := by
  rw [rebuild, if_neg (by rwa [List.isEmpty_iff]),
    visitChildren_of_refused inner refused]
  rfl

/-- The original fallback gives nothing where the walk cannot go down from a node. -/
theorem callGeneric_collects_of_refused
    (original : walker.fallback = none)
    (inner : node.children ≠ [])
    {failure : Failure}
    (refused :
      context.descend services.settings node (.ofNat 0) = .error failure) :
    ((walker.callGeneric services node context).bind id).Collects handlers
      (.error failure) := by
  rw [callGeneric, original]
  simp only [callStructural]
  cases walker.mode with
  | visitor =>
      simp only [visitChildren_of_refused inner refused]
      exact .failed failure
  | transformer =>
      simp only [rebuild_of_refused inner refused]
      exact .failed failure

/-- A traversal has the outcome that its mode makes of the results. -/
theorem traverse_yields
    {tree : Node}
    {keys : Fields Value}
    (collects :
      (walker.visitNode services tree
        (.root walker.settings keys)).Collects handlers collected) :
    (walker.traverse services tree keys).Yields handlers []
      (.ofExcept (collected.bind walker.mode.outcome)) := by
  have gathered := collects.gather
  cases collected with
  | error failure =>
      exact gathered.bind_failed
  | ok values =>
      change (walker.traverse services tree keys).Yields handlers []
        (.ofExcept (walker.mode.outcome values))
      unfold traverse
      cases walker.mode with
      | visitor =>
          exact gathered.bind (.done _)
      | transformer =>
          rcases values with _ | ⟨only, _ | ⟨second, rest⟩⟩
          · exact gathered.bind (.failed _)
          · exact gathered.bind (.done only)
          · exact gathered.bind (.failed _)

end Giving

end Walker

namespace Session

/-- The reply to a complete run tells how the run ends. -/
theorem reply_complete
    {Outcome : Type}
    {session : Session}
    {handlers : HandlerMap Handler}
    (standsFor : session.table.StandsFor handlers)
    {run : Run Outcome}
    {values : List Value}
    {ending : Ending Outcome}
    (yields : run.Yields handlers values ending)
    (reply : Outcome → Reply) :
    (session.complete reply run).1.reply = .ofEnding reply ending := by
  rw [← (yields.complete standsFor).2]
  rfl

/-- The reply to a traversal tells what its mode makes of the results for the root. -/
theorem reply_traverse
    {session : Session}
    {handlers : HandlerMap Handler}
    (standsFor : session.table.StandsFor handlers)
    {bound : Nat}
    {tree : Node}
    {keys : Fields Value}
    {collected : Except Failure (List Value)}
    (collects :
      ((session.walker.services bound).visitNode tree
        (.root session.walker.settings keys)).Collects handlers
        collected) :
    (session.step bound (.traverse tree keys)).1.reply =
      .ofEnding .result
        (.ofExcept (collected.bind session.walker.mode.outcome)) := by
  cases bound with
  | zero =>
      cases collected with
      | ok values =>
          cases collects.ending
      | error failure =>
          obtain ⟨values, yields⟩ := collects
          cases yields.ending
  | succ bound =>
      exact reply_complete standsFor (Walker.traverse_yields collects)
        .result

/--
A traversal is refused where its root has no handler and a chain that the caller has put
into the context is in the way.
-/
theorem reply_traverse_of_stuck
    (session : Session)
    {handlers : HandlerMap Handler}
    (standsFor : session.table.StandsFor handlers)
    (original : session.walker.fallback = none)
    (accepts :
      ∀ kind, session.walker.settings.listener ≠ .logging (some kind))
    {tree : Node}
    (missed : handlers.resolve? tree.kind = none)
    (inner : tree.children ≠ [])
    {keys : Fields Value}
    {chain : Chain}
    (stuck : Chain.stuck? session.walker.settings keys = some chain)
    (bound : Nat) :
    (session.step (bound + 1) (.traverse tree keys)).1.reply =
      .refused (.notIterable chain.key) := by
  have refused :
      (Context.root session.walker.settings keys).descend
          (session.walker.services bound).settings tree (.ofNat 0) =
        .error (.notIterable chain.key) := by
    rw [Walker.settings_services]
    exact Context.descend_root_of_stuck stuck tree (.ofNat 0)
  have collects :
      ((session.walker.services (bound + 1)).visitNode tree
          (.root session.walker.settings keys)).Collects handlers
        (.error (.notIterable chain.key)) :=
    Walker.visitNode_collects_of_missed accepts missed
      (Walker.callGeneric_collects_of_refused original inner refused)
  exact reply_traverse standsFor collects

end Session

end QueryWalk
