import QueryWalk.Proofs.EagerHandlers
import QueryWalk.Proofs.ListenerNotification
import QueryWalk.Proofs.ListenerRetelling
import QueryWalk.Proofs.TopmostSubstitution

namespace QueryWalk

/-!
# Reports of the topmost handled nodes

A visitor whose handlers neither fail nor call back into the walk goes down to the nodes
that have handlers, and no further. It tells its listener of the nodes it comes to, in
the order of the tree, and reports what the handlers give. So what it reports can be
read off the tree: the addresses with no handled node above them are its front, and the
walk goes along the front up to the first node whose children are too deep. Only from a
caller's keys whose chains cannot be spread there is no going down at all.
-/

/-- Whether an entry was made for a listener. -/
def LogEntry.isNotice : LogEntry → Bool
  | .dispatched .. | .traced .. => true
  | .logged _ => false

/-- What a listener was told. -/
def Event.notices (events : List Event) : List LogEntry :=
  (Event.log events).filter LogEntry.isNotice

namespace Event

/-- Entries made later come later. -/
@[simp] theorem notices_append
    (first second : List Event) :
    notices (first ++ second) = notices first ++ notices second := by
  rw [notices, log_append, List.filter_append]
  rfl

/-- What a listener was told is among the notes. -/
theorem notices_eq_of_notes_eq
    {events others : List Event}
    (sameNotes : notes events = notes others) :
    notices events = notices others := by
  rw [notices, log_eq_of_notes_eq sameNotes, notices]

end Event

namespace Run

variable
  {handlers : HandlerMap Handler}
  {Outcome Next : Type}
  {run : Run Outcome}
  {notices : List LogEntry}
  {values : List Value}

/-- A run tells its listener some things, delivers some values and ends. -/
structure Tells
    (handlers : HandlerMap Handler)
    (run : Run Outcome)
    (notices : List LogEntry)
    (values : List Value)
    (ending : Ending Outcome) : Prop extends
    run.Yields handlers values ending where
  notices : Event.notices (run.trace handlers).events = notices

namespace Tells

theorem done
    (outcome : Outcome) :
    (Run.done outcome).Tells handlers [] [] (.finished outcome) where
  toYields := .done outcome
  notices := rfl

theorem failed
    (failure : Failure) :
    (Run.failed failure : Run Outcome).Tells handlers [] []
      (.failed failure) where
  toYields := .failed failure
  notices := rfl

/-- After a run that finishes comes what follows its outcome. -/
theorem bind
    {next : Outcome → Run Next}
    {outcome : Outcome}
    {further : List LogEntry}
    {last : List Value}
    {ending : Ending Next}
    (first : run.Tells handlers notices values (.finished outcome))
    (second : (next outcome).Tells handlers further last ending) :
    (run.bind next).Tells handlers (notices ++ further) (values ++ last)
      ending where
  toYields := first.toYields.bind second.toYields
  notices := by
    rw [trace_bind, Trace.andThen, first.ending, Event.notices_append,
      first.notices, second.notices]

/-- After a run that fails comes nothing. -/
theorem bind_failed
    {next : Outcome → Run Next}
    {failure : Failure}
    (first : run.Tells handlers notices values (.failed failure)) :
    (run.bind next).Tells handlers notices values (.failed failure) where
  toYields := first.toYields.bind_failed
  notices := by
    rw [trace_bind, Trace.andThen, first.ending]
    exact first.notices

/-- A question is answered without telling anything. -/
theorem resolve
    {kind : NodeKind}
    {rest : Option (Registration Handler) → Run Outcome}
    {ending : Ending Outcome}
    (tells :
      (rest (handlers.resolve? kind)).Tells handlers notices values
        ending) :
    (Run.resolve kind rest).Tells handlers notices values ending where
  toYields := tells.toYields.resolve
  notices := tells.notices

/-- That a handler is called a listener is not told. -/
theorem entered
    {type : Option NodeType}
    {node : Node}
    {context : Context}
    {rest : Unit → Run Outcome}
    {ending : Ending Outcome}
    (tells : (rest ()).Tells handlers notices values ending) :
    (Run.note (.entered type node context) rest).Tells handlers notices
      values ending where
  toYields := tells.toYields.note
  notices := tells.notices

/-- Taking a run to its end with a table tells what the run tells. -/
theorem complete
    {ending : Ending Outcome}
    {table : HandlerTable Handler}
    (tells : run.Tells handlers notices values ending)
    (standsFor : table.StandsFor handlers) :
    (run.complete table).log.filter LogEntry.isNotice = notices := by
  rw [History.log, (run.complete_eq_trace standsFor).1]
  exact tells.notices

/-- Results that are collected before they are delivered are told the same. -/
theorem regather
    {run : Run Unit}
    (tells : run.Tells handlers notices values (.finished ())) :
    (run.gather.bind Run.deliverAll).Tells handlers notices values
      (.finished ()) where
  toYields := by
    have collects : run.Collects handlers (.ok values) := tells.toYields
    exact collects.regather
  notices := by
    have sameNotes :=
      notes_eq_of_collect handlers (collect_regather run)
    rw [Event.notices_eq_of_notes_eq sameNotes]
    exact tells.notices

end Tells

end Run

/-- Runs of which the first tells a listener nothing. The second does not matter. -/
def Congruence.quiet (handlers : HandlerMap Handler) : Congruence where
  relates run _ := Event.notices (run.trace handlers).events = []
  logs _ := True
  catches := True
  done _ := rfl
  failed _ := rfl
  exhausted := rfl
  log _ := rfl
  entered _ _ := rfl
  delivering _ := rfl
  bind {Outcome Next run other next further} quiet onward := by
    rw [Run.trace_bind]
    generalize run.trace handlers = trace at quiet
    rcases trace with ⟨events, outcome | failure | _⟩
    · exact (Event.notices_append _ _).trans
        (List.append_eq_nil_iff.mpr ⟨quiet, onward outcome⟩)
    · exact quiet
    · exact quiet
  gather {run other} quiet := by
    rw [Event.notices_eq_of_notes_eq (run.notes_gather handlers)]
    exact quiet
  attempt _ quiet := by
    rw [Run.trace_attempt]
    exact quiet

namespace Handler

variable
  {handlers : HandlerMap Handler}
  {services : Services}
  {handler : Handler}
  {node : Node}
  {context : Context}
  {values : List Value}

/-- A handler that gives some values by itself tells no listener of anything. -/
theorem Gives.tells
    (gives :
      handler.Gives handlers services.settings node context values) :
    (handler.body services node context).Tells handlers [] values
      (.finished ()) where
  toYields := gives.yields
  notices := by
    have noServices :
        (Services.exhausted services.settings).Related (.quiet handlers)
          (.exhausted services.settings) :=
      ⟨fun _ _ _ => rfl, fun _ _ => rfl, fun _ _ => rfl, fun _ _ => rfl,
        fun _ _ => rfl, fun _ _ => rfl⟩
    have alone :
        Event.notices
          ((handler.body (.exhausted services.settings) node context).trace
            handlers).events = [] :=
      Handler.body_relates noServices
        (handler.suits (fun _ => trivial) trivial) node context
    have approximates :=
      handler.body_approximates services.exhausted_approximate node context
    rw [approximates.trace_eq gives.ending]
    exact alone

/-- Calling it, lazy or eager, leaves the same to be told. -/
theorem Gives.call_tells
    (gives :
      handler.Gives handlers services.settings node context values) :
    ((handler.call services node context).bind id).Tells handlers []
      values (.finished ()) := by
  rw [call]
  split
  · rw [Run.bind_bind]
    exact gives.tells.regather
  · exact gives.tells

end Handler

/-- What a listener is told of a node, if there is one. -/
def Settings.notice
    (settings : Settings)
    (node : Node)
    (type : Option NodeType) :
    Option LogEntry :=
  settings.listener.retell (.dispatched node.kind type node.attributes)

namespace HandlerMap

variable
  {handlers : HandlerMap Handler}
  {tree : Node}

/-- The addresses of a tree with no handled node above them, in order. -/
def front (handlers : HandlerMap Handler) (tree : Node) :
    List (List Nat) :=
  tree.addresses.filter fun address =>
    (tree.above address).all fun node =>
      (handlers.resolve? node.kind).isNone

/-- The fronts of siblings, which are counted from an index on. -/
def frontFrom (handlers : HandlerMap Handler) :
    Nat → List Node → List (List Nat)
  | _, [] => []
  | index, node :: rest =>
      (handlers.front node).map (index :: ·) ++
        frontFrom handlers (index + 1) rest

/-- What is in front is valid and has no handled node above. -/
theorem mem_front
    {address : List Nat} :
    address ∈ handlers.front tree ↔
      (tree.at? address).isSome ∧
        ∀ node ∈ tree.above address,
          handlers.resolve? node.kind = none := by
  rw [front, List.mem_filter, Node.mem_addresses, List.all_eq_true]
  simp only [Option.isNone_iff_eq_none]

theorem pairwise_front
    (handlers : HandlerMap Handler)
    (tree : Node) :
    (handlers.front tree).Pairwise (· < ·) :=
  tree.pairwise_addresses.filter _

/-- Of a handled tree only the root is in front. -/
theorem front_of_resolved
    {registration : Registration Handler}
    (found : handlers.resolve? tree.kind = some registration) :
    handlers.front tree = [[]] := by
  have noneBelow :
      (Node.addressesFrom 0 tree.children).filter (fun address =>
          (tree.above address).all fun node =>
            (handlers.resolve? node.kind).isNone) = [] := by
    rw [List.filter_eq_nil_iff]
    intro address member
    obtain ⟨place, child, rest, isChild, rfl, -⟩ :=
      Node.mem_addressesFrom.mp member
    rw [Nat.zero_add, Node.above_cons isChild, List.all_cons, found]
    exact Bool.false_ne_true
  rw [front, Node.addresses_eq, List.filter_cons_of_pos (by rfl), noneBelow]

/-- Of the addresses below siblings, those in front are in front of one of them. -/
theorem filter_addressesFrom
    (missed : handlers.resolve? tree.kind = none)
    {first : Nat}
    {nodes : List Node}
    (areChildren : tree.HasFrom first nodes) :
    ((Node.addressesFrom first nodes).filter fun address =>
        (tree.above address).all fun node =>
          (handlers.resolve? node.kind).isNone) =
      handlers.frontFrom first nodes := by
  induction nodes generalizing first with
  | nil =>
      rfl
  | cons child rest inductionHypothesis =>
      have isChild := areChildren.head
      have inRest := inductionHypothesis areChildren.tail
      rw [Node.addressesFrom, List.filter_append, List.filter_map, inRest,
        frontFrom, front]
      congr 2
      apply List.filter_congr
      intro address _
      rw [Function.comp_apply, Node.above_cons isChild, List.all_cons,
        missed, Option.isNone_none, Bool.true_and]

/-- Of any other tree the root is in front, and so are the fronts of the children. -/
theorem front_of_missed
    (missed : handlers.resolve? tree.kind = none) :
    handlers.front tree = [] :: handlers.frontFrom 0 tree.children := by
  rw [front, Node.addresses_eq, List.filter_cons_of_pos (by rfl),
    filter_addressesFrom missed tree.hasFrom_zero]

end HandlerMap

/-- What a walk makes of a node that it comes to. -/
structure Sight where
  /-- What a listener is told of the node. -/
  notice : Option LogEntry
  values : List Value
  /-- Whether the walk ends at the node, its children being too deep. -/
  isLast : Bool

namespace Sight

/-- What a walk makes of some nodes up to the one where it ends. -/
def upToLast : List Sight → List Sight
  | [] => []
  | sight :: rest =>
      if sight.isLast then [sight] else sight :: upToLast rest

variable {first second : List Sight}

theorem upToLast_eq_self
    (goesOn : first.any isLast = false) :
    upToLast first = first := by
  induction first with
  | nil =>
      rfl
  | cons sight rest inductionHypothesis =>
      rw [List.any_cons, Bool.or_eq_false_iff] at goesOn
      rw [upToLast, goesOn.1, if_neg Bool.false_ne_true,
        inductionHypothesis goesOn.2]

theorem upToLast_append
    (goesOn : first.any isLast = false) :
    upToLast (first ++ second) = first ++ upToLast second := by
  induction first with
  | nil =>
      rfl
  | cons sight rest inductionHypothesis =>
      rw [List.any_cons, Bool.or_eq_false_iff] at goesOn
      rw [List.cons_append, upToLast, goesOn.1,
        if_neg Bool.false_ne_true, inductionHypothesis goesOn.2,
        List.cons_append]

/-- What comes after the end of a walk does not matter. -/
theorem upToLast_append_of_ends
    (ends : first.any isLast = true) :
    upToLast (first ++ second) = upToLast first := by
  induction first with
  | nil =>
      cases ends
  | cons sight rest inductionHypothesis =>
      rw [List.cons_append, upToLast, upToLast]
      cases last : sight.isLast with
      | true =>
          rfl
      | false =>
          rw [List.any_cons, last, Bool.false_or] at ends
          rw [if_neg Bool.false_ne_true, if_neg Bool.false_ne_true,
            inductionHypothesis ends]

/--
Of some addresses in increasing order a walk that ends comes to those before the first
where it ends, and to this one.
-/
theorem exists_upToLast
    {addresses : List (List Nat)}
    (ordered : addresses.Pairwise (· < ·))
    {sight : List Nat → Sight}
    (ends : ∃ address ∈ addresses, (sight address).isLast = true) :
    ∃ last ∈ addresses,
      (sight last).isLast = true ∧
        (∀ other ∈ addresses,
          (sight other).isLast = true →
          last ≤ other) ∧
        upToLast (addresses.map sight) =
          (addresses.filter (· < last) ++ [last]).map sight := by
  obtain ⟨last, found⟩ :=
    Option.isSome_iff_exists.mp
      ((List.find?_isSome (p := fun address => (sight address).isLast)).mpr
        ends)
  obtain ⟨endsThere, before, after, rfl, goesOn⟩ :=
    List.find?_eq_some_iff_append.mp found
  obtain ⟨-, orderedAfter, allBefore⟩ := List.pairwise_append.mp ordered
  have beforeLast : ∀ address ∈ before, address < last :=
    fun address member =>
      allBefore address member last List.mem_cons_self
  have afterLast : ∀ address ∈ after, last < address :=
    (List.pairwise_cons.mp orderedAfter).1
  have isBefore :
      (before ++ last :: after).filter (· < last) = before := by
    have noneAfter : (last :: after).filter (· < last) = [] := by
      rw [List.filter_eq_nil_iff, List.forall_mem_cons]
      simpa using fun address member => le_of_lt (afterLast address member)
    rw [List.filter_append, noneAfter, List.append_nil,
      List.filter_eq_self]
    simpa using beforeLast
  refine ⟨last, by simp, endsThere, ?_, ?_⟩
  · intro other member otherEnds
    rcases List.mem_append.mp member with inBefore | inRest
    · have goes := goesOn other inBefore
      rw [otherEnds] at goes
      cases goes
    · rcases List.mem_cons.mp inRest with rfl | inAfter
      · exact le_refl other
      · exact le_of_lt (afterLast other inAfter)
  · have noneEnds : (before.map sight).any isLast = false := by
      simpa using goesOn
    rw [isBefore, List.map_append, upToLast_append noneEnds, List.map_cons,
      upToLast, endsThere, if_pos rfl, List.map_append, List.map_singleton]

end Sight

namespace Run

variable
  {handlers : HandlerMap Handler}
  {settings : Settings}
  {first second : Run Unit}
  {earlier later : List Sight}

/-- How a walk ends that comes to some nodes. -/
def endingAfter (settings : Settings) (sights : List Sight) : Ending Unit :=
  if sights.any Sight.isLast then
    .failed (.traversalDepth (.ofNat settings.maxDepth))
  else
    .finished ()

/-- A run makes of some nodes what a walk does, up to the one where it ends. -/
def Sees
    (handlers : HandlerMap Handler)
    (settings : Settings)
    (run : Run Unit)
    (sights : List Sight) :
    Prop :=
  run.Tells handlers ((Sight.upToLast sights).filterMap Sight.notice)
    ((Sight.upToLast sights).flatMap Sight.values)
    (endingAfter settings sights)

theorem filterMap_notice_cons
    (sight : Sight)
    (rest : List Sight) :
    (sight :: rest).filterMap Sight.notice =
      sight.notice.toList ++ rest.filterMap Sight.notice := by
  rw [List.filterMap_cons]
  cases sight.notice <;> rfl

/-- A run that tells of a node and then of others sees these nodes. -/
theorem Sees.cons
    {run : Run Unit}
    {sight : Sight}
    (goesOn : sight.isLast = false)
    (tells :
      run.Tells handlers
        (sight.notice.toList ++
          (Sight.upToLast later).filterMap Sight.notice)
        (sight.values ++ (Sight.upToLast later).flatMap Sight.values)
        (endingAfter settings later)) :
    run.Sees handlers settings (sight :: later) := by
  have sameEnding :
      endingAfter settings (sight :: later) =
        endingAfter settings later := by
    rw [endingAfter, List.any_cons, goesOn, Bool.false_or, endingAfter]
  rw [Sees, sameEnding, Sight.upToLast, goesOn, if_neg Bool.false_ne_true,
    filterMap_notice_cons, List.flatMap_cons]
  exact tells

/-- A run that ends the walk at a node does not see what comes after. -/
theorem Sees.last
    {run : Run Unit}
    {sight : Sight}
    (ends : sight.isLast = true)
    (tells :
      run.Tells handlers sight.notice.toList sight.values
        (.failed (.traversalDepth (.ofNat settings.maxDepth)))) :
    run.Sees handlers settings (sight :: later) := by
  have isEnding :
      endingAfter settings (sight :: later) =
        .failed (.traversalDepth (.ofNat settings.maxDepth)) := by
    rw [endingAfter, List.any_cons, ends, Bool.true_or, if_pos rfl]
  rw [Sees, isEnding, Sight.upToLast, ends, if_pos rfl,
    filterMap_notice_cons, List.filterMap_nil, List.append_nil,
    List.flatMap_cons, List.flatMap_nil, List.append_nil]
  exact tells

/-- What a run sees that goes on after another, unless the walk ends before. -/
theorem Sees.andThen
    (sees : first.Sees handlers settings earlier)
    (seesLater : second.Sees handlers settings later) :
    (first.bind fun _ => second).Sees handlers settings
      (earlier ++ later) := by
  rw [Sees, endingAfter] at sees seesLater ⊢
  rw [List.any_append]
  cases ends : earlier.any Sight.isLast with
  | true =>
      rw [ends, if_pos rfl] at sees
      rw [Sight.upToLast_append_of_ends ends, Bool.true_or, if_pos rfl]
      exact sees.bind_failed
  | false =>
      rw [ends, if_neg Bool.false_ne_true,
        Sight.upToLast_eq_self ends] at sees
      rw [Sight.upToLast_append ends, List.filterMap_append,
        List.flatMap_append, Bool.false_or]
      exact sees.bind seesLater

end Run

namespace Walker

/-- A listener who does not give up is told of the node. -/
theorem notify_tells
    {handlers : HandlerMap Handler}
    {settings : Settings}
    (accepts : ∀ kind, settings.listener ≠ .logging (some kind))
    (node : Node)
    (type : Option NodeType) :
    (notify settings node type).Tells handlers
      (settings.notice node type).toList [] (.finished ()) where
  toYields := notify_yields accepts node type
  notices := by
    rw [notify, Settings.notice]
    cases listens : settings.listener with
    | silent | debugging =>
        rfl
    | logging rejected =>
        cases rejected with
        | none =>
            rfl
        | some kind =>
            exact absurd listens (accepts kind)

section Visitor

variable
  {walker : Walker}
  {handlers : HandlerMap Handler}
  {services : Services}
  {node : Node}
  {context : Context}
  {notices : List LogEntry}
  {values : List Value}
  (visitor : walker.mode = .visitor)
  (accepts : ∀ kind, walker.settings.listener ≠ .logging (some kind))
include visitor accepts

/-- Of a handled node the listener is told, and then comes what the handler tells. -/
theorem visitNode_tells_of_resolved
    {registration : Registration Handler}
    (found : handlers.resolve? node.kind = some registration)
    (tells :
      ((registration.handler.call services node context).bind id).Tells
        handlers notices values (.finished ())) :
    (walker.visitNode services node context).Tells handlers
      ((walker.settings.notice node (some registration.type)).toList ++
        notices)
      values (.finished ()) := by
  have handlerFor :
      registration.handlerFor node = .ok registration.handler :=
    if_pos (HandlerMap.includes_of_resolve? found)
  simp only [visitNode, visitor, callNode, Run.bind_eq]
  apply Run.Tells.resolve
  rw [found]
  simp only [Run.bind, Run.bind_bind]
  rw [← List.nil_append values]
  apply (notify_tells accepts node _).bind
  rw [handlerFor]
  exact tells.entered

/-- Of any other node the listener is told, and then comes what the fallback tells. -/
theorem visitNode_tells_of_missed
    (missed : handlers.resolve? node.kind = none)
    {ending : Ending Unit}
    (tells :
      ((walker.callGeneric services node context).bind id).Tells handlers
        notices values ending) :
    (walker.visitNode services node context).Tells handlers
      ((walker.settings.notice node none).toList ++ notices) values
      ending := by
  simp only [visitNode, visitor, callNode, Run.bind_eq]
  apply Run.Tells.resolve
  rw [missed]
  simp only [Run.bind, Run.bind_bind]
  rw [← List.nil_append values]
  exact (notify_tells accepts node _).bind tells

end Visitor

end Walker

namespace Substitution

variable
  {substitution : Substitution}
  {tree node child : Node}
  {top context : Context}
  {depth bound : Nat}

/-- The visitor that reports what the handlers give. -/
def visitor (substitution : Substitution) : Walker :=
  .original .visitor substitution.settings

/--
What a walk makes of a node at a depth. A handled node gives what its handler gives for
it in its own context. Any other gives nothing, and the walk ends there if the node has
children and is at the depth limit.
-/
def sightOf
    (substitution : Substitution)
    (depth : Nat)
    (node : Node)
    (context : Context) :
    Sight :=
  match substitution.handlers.resolve? node.kind with
  | some registration =>
      { notice := substitution.settings.notice node (some registration.type)
        values := substitution.answer node context
        isLast := false }
  | none =>
      { notice := substitution.settings.notice node none
        values := []
        isLast :=
          !node.children.isEmpty &&
            decide
              (depth = substitution.settings.maxDepth ∧
                depth < Number.exactLimit) }

/-- What a walk makes of the node at an address, below a root at a depth. -/
def sight
    (substitution : Substitution) :
    Nat → Node → Context → List Nat → Sight
  | depth, tree, top, [] => substitution.sightOf depth tree top
  | depth, tree, top, index :: rest =>
      match tree.children[index]? with
      | some child =>
          substitution.sight (depth + 1) child
            (top.child substitution.settings tree (.ofNat index)) rest
      | none => { notice := none, values := [], isLast := false }

/-- A walk that comes to a node without a handler ends if it cannot go on below. -/
theorem isLast_sightOf
    (reachable : substitution.settings.Admits depth)
    (missed : substitution.handlers.resolve? tree.kind = none) :
    (substitution.sightOf depth tree top).isLast = true ↔
      tree.children ≠ [] ∧ ¬ substitution.settings.Admits (depth + 1) := by
  rw [sightOf, missed, Bool.and_eq_true, Bool.not_eq_true',
    decide_eq_true_eq]
  rw [Settings.Admits] at reachable ⊢
  refine and_congr (by simp) ?_
  omega

/-- A node where a walk ends gives nothing. -/
theorem values_sightOf_of_isLast
    (ends : (substitution.sightOf depth tree top).isLast = true) :
    (substitution.sightOf depth tree top).values = [] := by
  rw [sightOf] at ends ⊢
  split at ends
  · cases ends
  · rfl

/-- What a walk makes of a node that it reaches, it makes of it in its own context. -/
theorem Reached.sight_eq
    {address : List Nat}
    (reached : substitution.Reached tree top address node context) :
    substitution.sight depth tree top address =
      substitution.sightOf (depth + address.length) node context := by
  induction reached generalizing depth with
  | root =>
      rfl
  | @child _ _ _ _ _ _ rest _ isChild _ inductionHypothesis =>
      rw [sight, isChild, List.length_cons, Nat.add_comm rest.length 1,
        ← Nat.add_assoc]
      exact inductionHypothesis

/-- What is in front is reached, and the walk makes of it what it makes of the node. -/
theorem exists_reached_of_mem_front
    {address : List Nat}
    (member : address ∈ substitution.handlers.front tree) :
    ∃ node context,
      tree.at? address = some node ∧
        substitution.Reached tree top address node context ∧
        substitution.sight depth tree top address =
          substitution.sightOf (depth + address.length) node context := by
  have reaches :
      ∃ node context,
        tree.at? address = some node ∧
          substitution.Reached tree top address node context := by
    induction address generalizing tree top with
    | nil =>
        exact ⟨tree, top, rfl, .root⟩
    | cons index rest inductionHypothesis =>
        obtain ⟨valid, unhandled⟩ := HandlerMap.mem_front.mp member
        cases isChild : tree.children[index]? with
        | none =>
            simp [Node.at?, isChild] at valid
        | some child =>
            rw [Node.at?_cons isChild] at valid ⊢
            rw [Node.above_cons isChild, List.forall_mem_cons] at unhandled
            obtain ⟨node, context, isThere, reached⟩ :=
              inductionHypothesis
                (HandlerMap.mem_front.mpr ⟨valid, unhandled.2⟩)
            exact
              ⟨node, context, isThere, .child unhandled.1 isChild reached⟩
  obtain ⟨node, context, isThere, reached⟩ := reaches
  exact ⟨node, context, isThere, reached, reached.sight_eq⟩

/-- What a walk makes of the nodes in front. -/
def sights
    (substitution : Substitution)
    (depth : Nat)
    (tree : Node)
    (top : Context) :
    List Sight :=
  (substitution.handlers.front tree).map
    (substitution.sight depth tree top)

/-- The sights below siblings are those of each of them in turn. -/
theorem map_sight_frontFrom_cons
    {index : Nat}
    (isChild : tree.children[index]? = some child)
    (rest : List Node) :
    (substitution.handlers.frontFrom index (child :: rest)).map
        (substitution.sight depth tree top) =
      substitution.sights (depth + 1) child
          (top.child substitution.settings tree (.ofNat index)) ++
        (substitution.handlers.frontFrom (index + 1) rest).map
          (substitution.sight depth tree top) := by
  have below :
      substitution.sight depth tree top ∘ (index :: ·) =
        substitution.sight (depth + 1) child
          (top.child substitution.settings tree (.ofNat index)) := by
    funext address
    rw [Function.comp_apply, sight, isChild]
  rw [HandlerMap.frontFrom, List.map_append, List.map_map, below, sights]

section Walk

variable
  (accepts :
    ∀ kind, substitution.settings.listener ≠ .logging (some kind))

/-- Siblings are seen one after the other. -/
theorem visitChildren_sees
    {services : Services}
    {nodes : List Node}
    (sameSettings : services.settings = substitution.settings)
    (isAt : top.IsAtDepth depth)
    (admits : substitution.settings.Admits (depth + 1))
    (iterable : nodes ≠ [] → top.IsIterable substitution.settings)
    {first : Nat}
    (areChildren : tree.HasFrom first nodes)
    (each :
      ∀ index child,
        tree.children[index]? = some child →
        (services.visitNode child
          (top.child substitution.settings tree (.ofNat index))).Sees
          substitution.handlers substitution.settings
          (substitution.sights (depth + 1) child
            (top.child substitution.settings tree (.ofNat index)))) :
    (Walker.visitChildren services tree top first nodes).Sees
      substitution.handlers substitution.settings
      ((substitution.handlers.frontFrom first nodes).map
        (substitution.sight depth tree top)) := by
  induction nodes generalizing first with
  | nil =>
      exact .done ()
  | cons child rest inductionHypothesis =>
      have isChild := areChildren.head
      rw [map_sight_frontFrom_cons isChild, Walker.visitChildren_cons]
      apply Run.Sees.andThen
      · rw [Walker.visitChild, sameSettings,
          isAt.descend admits (iterable (List.cons_ne_nil child rest))]
        exact each first child isChild
      · exact inductionHypothesis
          (fun _ => iterable (List.cons_ne_nil child rest))
          areChildren.tail

include accepts

/-- A handled node is all that is seen of its tree. -/
theorem visitNode_sees_of_resolved
    {services : Services}
    (sameSettings : services.settings = substitution.settings)
    (answered : substitution.IsAnswered tree top)
    {registration : Registration Handler}
    (found : substitution.handlers.resolve? tree.kind = some registration) :
    (substitution.visitor.visitNode services tree top).Sees
      substitution.handlers substitution.settings
      (substitution.sights depth tree top) := by
  have gives := answered [] tree top registration .root found
  rw [← sameSettings] at gives
  have isRoot :
      substitution.sights depth tree top =
        [{ notice :=
             substitution.settings.notice tree (some registration.type)
           values := substitution.answer tree top
           isLast := false }] := by
    rw [sights, HandlerMap.front_of_resolved found, List.map_singleton,
      sight, sightOf, found]
  have tells :
      (substitution.visitor.visitNode services tree top).Tells
        substitution.handlers
        ((substitution.settings.notice tree
            (some registration.type)).toList ++ [])
        (substitution.answer tree top) (.finished ()) :=
    Walker.visitNode_tells_of_resolved rfl accepts found gives.call_tells
  rw [← List.append_nil (substitution.answer tree top)] at tells
  rw [isRoot]
  exact .cons rfl tells

/-- Of a node without a handler the listener is told, even if there is no going down. -/
theorem visitNode_tells_of_refused
    {services : Services}
    (sameSettings : services.settings = substitution.settings)
    (missed : substitution.handlers.resolve? tree.kind = none)
    (inner : tree.children ≠ [])
    {failure : Failure}
    (refused :
      top.descend substitution.settings tree (.ofNat 0) = .error failure) :
    (substitution.visitor.visitNode services tree top).Tells
      substitution.handlers (substitution.settings.notice tree none).toList
      [] (.failed failure) := by
  obtain ⟨child, rest, children⟩ := List.exists_cons_of_ne_nil inner
  have fails :
      (Walker.visitChildren services tree top 0 tree.children).Tells
        substitution.handlers [] [] (.failed failure) := by
    rw [children, Walker.visitChildren_cons, Walker.visitChild,
      sameSettings, refused]
    exact .failed _
  rw [← List.append_nil (Option.toList _)]
  exact Walker.visitNode_tells_of_missed rfl accepts missed fails

/-- The tree of a node without a handler is seen as far as its children are. -/
theorem visitNode_sees_of_missed
    {services : Services}
    (sameSettings : services.settings = substitution.settings)
    (isAt : top.IsAtDepth depth)
    (reachable : substitution.settings.Admits depth)
    (iterable :
      tree.children ≠ [] → top.IsIterable substitution.settings)
    (missed : substitution.handlers.resolve? tree.kind = none)
    (each :
      ∀ index child,
        tree.children[index]? = some child →
        substitution.settings.Admits (depth + 1) →
        (services.visitNode child
          (top.child substitution.settings tree (.ofNat index))).Sees
          substitution.handlers substitution.settings
          (substitution.sights (depth + 1) child
            (top.child substitution.settings tree (.ofNat index)))) :
    (substitution.visitor.visitNode services tree top).Sees
      substitution.handlers substitution.settings
      (substitution.sights depth tree top) := by
  have sights_eq :
      substitution.sights depth tree top =
        substitution.sightOf depth tree top ::
          (substitution.handlers.frontFrom 0 tree.children).map
            (substitution.sight depth tree top) := by
    rw [sights, HandlerMap.front_of_missed missed, List.map_cons]
    rfl
  rw [sights_eq]
  cases ends : (substitution.sightOf depth tree top).isLast with
  | true =>
      obtain ⟨hasChildren, tooDeep⟩ :=
        (isLast_sightOf reachable missed).mp ends
      apply Run.Sees.last ends
      rw [sightOf, missed]
      exact visitNode_tells_of_refused accepts sameSettings missed
        hasChildren (isAt.descend_error tooDeep tree (.ofNat 0))
  | false =>
      have sees :
          (Walker.visitChildren services tree top 0 tree.children).Sees
            substitution.handlers substitution.settings
            ((substitution.handlers.frontFrom 0 tree.children).map
              (substitution.sight depth tree top)) := by
        by_cases admits : substitution.settings.Admits (depth + 1)
        · apply visitChildren_sees sameSettings isAt admits iterable
            tree.hasFrom_zero
          exact fun index child isChild => each index child isChild admits
        · have noChildren : tree.children = [] := by
            by_contra hasChildren
            rw [(isLast_sightOf reachable missed).mpr
              ⟨hasChildren, admits⟩] at ends
            cases ends
          rw [noChildren]
          exact .done ()
      apply Run.Sees.cons ends
      rw [sightOf, missed]
      exact Walker.visitNode_tells_of_missed rfl accepts missed sees

/-- A walk down from a node sees the front of its tree. -/
theorem visitNode_sees
    (isAt : top.IsAtDepth depth)
    (reachable : substitution.settings.Admits depth)
    (iterable :
      substitution.handlers.resolve? tree.kind = none →
      tree.children ≠ [] →
      top.IsIterable substitution.settings)
    (answered : substitution.IsAnswered tree top)
    (enough : tree.height < bound) :
    ((substitution.visitor.services bound).visitNode tree top).Sees
      substitution.handlers substitution.settings
      (substitution.sights depth tree top) := by
  induction tree using Node.induction_on_children
    generalizing bound depth top with
  | step tree inductionHypothesis =>
      obtain ⟨bound, rfl⟩ : ∃ less, bound = less + 1 :=
        ⟨bound - 1, by omega⟩
      have sameSettings :=
        Walker.settings_services substitution.visitor bound
      cases found : substitution.handlers.resolve? tree.kind with
      | some registration =>
          exact visitNode_sees_of_resolved accepts sameSettings answered
            found
      | none =>
          apply visitNode_sees_of_missed accepts sameSettings isAt
            reachable (iterable found) found
          intro index child isChild admits
          have isMember := List.mem_of_getElem? isChild
          have lower := Node.height_lt_of_mem_children isMember
          have inner : tree.children ≠ [] := List.ne_nil_of_mem isMember
          exact
            inductionHypothesis child isMember
              (isAt.child substitution.settings tree (.ofNat index)) admits
              (fun _ _ => (iterable found inner).child tree (.ofNat index))
              (answered.of_child found isChild) (by omega)

end Walk

end Substitution

namespace Session

variable
  {substitution : Substitution}
  {tree : Node}
  {keys : Fields Value}
  {bound : Nat}
  {notices : List LogEntry}
  {values : List Value}
  {ending : Ending Unit}

/-- A complete traversal answers what its walk tells. -/
theorem answers_traverse_of_tells
    (tells :
      ((Session.create substitution.visitor substitution.handlers).walk
        bound tree keys).Tells substitution.handlers notices values
        ending) :
    ∃ log,
      (Session.create substitution.visitor substitution.handlers).answers
            bound [.traverse tree keys] =
          [{ log := log
             reply := .ofEnding (fun _ => .result (.list values)) ending }] ∧
        log.filter LogEntry.isNotice = notices := by
  let session := Session.create substitution.visitor substitution.handlers
  have fresh : session.table.StandsFor substitution.handlers :=
    .ofMap substitution.handlers
  have visitor : session.walker.mode = .visitor := rfl
  obtain ⟨sameResults, sameHalt⟩ := tells.toYields.complete fresh
  refine ⟨_, ?_, tells.complete fresh⟩
  rw [answers_cons, step_traverse_of_visitor bound visitor tree keys,
    sameResults, sameHalt]
  rfl

/-- The requests to an iterator are answered with what its walk tells. -/
theorem replies_nexts_of_tells
    (tells :
      ((Session.create substitution.visitor substitution.handlers).walk
        bound tree keys).Tells substitution.handlers notices values
        ending)
    (name : String)
    (count : Nat) :
    ((Session.create substitution.visitor substitution.handlers).answers
        bound
        (.start name tree keys ::
          List.replicate count (.next name))).map Answer.reply =
      .nothing :: Reply.pulled ending count values := by
  let session := Session.create substitution.visitor substitution.handlers
  let walk := session.walk bound tree keys
  have isOpen :
      (session.withIterator name walk).iterator? name = some walk :=
    iterator?_withIterator_self session name walk
  have fresh :
      (session.withIterator name walk).table.StandsFor
        substitution.handlers :=
    .ofMap substitution.handlers
  obtain ⟨sameResults, sameHalt⟩ := tells.toYields.complete fresh
  have replies := replies_nexts bound count isOpen
  rw [sameResults, sameHalt] at replies
  exact congrArg (List.cons Reply.nothing) replies

/-- A walk that comes to all of some nodes answers with what they give. -/
theorem answers_of_sees
    {sights : List Sight}
    (sees :
      ((Session.create substitution.visitor substitution.handlers).walk
        bound tree keys).Sees substitution.handlers substitution.settings
        sights)
    (goesOn : sights.any Sight.isLast = false) :
    ∃ log,
      (Session.create substitution.visitor substitution.handlers).answers
            bound [.traverse tree keys] =
          [{ log := log
             reply := .result (.list (sights.flatMap Sight.values)) }] ∧
        log.filter LogEntry.isNotice =
          sights.filterMap Sight.notice := by
  rw [Run.Sees, Run.endingAfter, goesOn, if_neg Bool.false_ne_true,
    Sight.upToLast_eq_self goesOn] at sees
  exact answers_traverse_of_tells sees

/-- A walk that ends at one of some nodes fails with what those before gave. -/
theorem answers_of_sees_last
    {sights : List Sight}
    (sees :
      ((Session.create substitution.visitor substitution.handlers).walk
        bound tree keys).Sees substitution.handlers substitution.settings
        sights)
    (ends : sights.any Sight.isLast = true)
    (name : String) :
    let session :=
      Session.create substitution.visitor substitution.handlers
    let given := (Sight.upToLast sights).flatMap Sight.values
    let tooDeep :=
      Failure.traversalDepth (.ofNat substitution.settings.maxDepth)
    (∃ log,
      session.answers bound [.traverse tree keys] =
          [{ log := log, reply := .refused tooDeep }] ∧
        log.filter LogEntry.isNotice =
          (Sight.upToLast sights).filterMap Sight.notice) ∧
      (session.answers bound
          (.start name tree keys ::
            List.replicate (given.length + 1) (.next name))).map
          Answer.reply =
        .nothing :: given.map .value ++ [.refused tooDeep] := by
  intro session given tooDeep
  rw [Run.Sees, Run.endingAfter, ends, if_pos rfl] at sees
  refine ⟨answers_traverse_of_tells sees, ?_⟩
  rw [replies_nexts_of_tells sees,
    Reply.pulled_of_lt _ (Nat.lt_add_one given.length),
    Nat.add_sub_cancel_left]
  rfl

/-- Where a chain is in the way, the listener is told of the root, and the walk fails. -/
theorem answers_of_stuck
    (accepts :
      ∀ kind, substitution.settings.listener ≠ .logging (some kind))
    (missed : substitution.handlers.resolve? tree.kind = none)
    (inner : tree.children ≠ [])
    {chain : Chain}
    (stuck : Chain.stuck? substitution.settings keys = some chain)
    (bound : Nat)
    (name : String) :
    let session :=
      Session.create substitution.visitor substitution.handlers
    let noChain := Failure.notIterable chain.key
    (∃ log,
      session.answers (bound + 1) [.traverse tree keys] =
          [{ log := log, reply := .refused noChain }] ∧
        log.filter LogEntry.isNotice =
          (substitution.settings.notice tree none).toList) ∧
      (session.answers (bound + 1)
          [.start name tree keys, .next name]).map Answer.reply =
        [.nothing, .refused noChain] := by
  intro session noChain
  have tells :
      (session.walk (bound + 1) tree keys).Tells substitution.handlers
        (substitution.settings.notice tree none).toList []
        (.failed noChain) :=
    Substitution.visitNode_tells_of_refused accepts
      (Walker.settings_services substitution.visitor bound) missed inner
      (Context.descend_root_of_stuck stuck tree (.ofNat 0))
  exact ⟨answers_traverse_of_tells tells,
    replies_nexts_of_tells tells name 1⟩

/-- A phrase, a group that is one level too high for its word, and a phrase. -/
def phrasesAroundGroup : Node :=
  .operation .or
    [.term .phrase "a" [], .group .plain (.term .word "b" []) [],
      .term .phrase "c" []]
    []

end Session

end QueryWalk
