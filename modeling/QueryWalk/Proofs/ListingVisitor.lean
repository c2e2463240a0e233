import Mathlib.Data.List.TakeWhile
import QueryWalk.Proofs.AddressEnumeration
import QueryWalk.Proofs.CollectedResults
import QueryWalk.Proofs.TruthfulPositions

namespace QueryWalk

/-!
# Listing a tree

A visitor whose fallback reports where it is and then goes on as usual lists the
addresses of a tree, each with its node and the nodes above. It stops at the
first address that is too long for the depth limit.
-/

namespace Change

/-- No change at all. -/
def nothing : Change where
  assigned := []
  removed := []
  position := none

end Change

namespace Expression

/-- The node, the path and the parents. -/
def place : Expression :=
  .list [.node, .path, .chain .parents]

end Expression

namespace Handler

/-- Report the place, then do what the original fallback does. -/
def reportingPlace : Handler where
  eager := false
  actions := [.deliver .place, .structural .node .nothing]

end Handler

namespace Walker

/-- The visitor that lists trees. -/
def listing (settings : Settings) : Walker where
  mode := .visitor
  settings := settings
  fallback := some .reportingPlace

end Walker

namespace Node

/--
What is reported of an address: the node there, the indices, and the nodes
above. The root has no parents to report.
-/
def entry (tree : Node) (address : List Nat) : Value :=
  .list
    [((tree.at? address).map .node).getD .null,
      .list (address.map fun index => .number (.ofNat index)),
      if address = [] then .null else .list ((tree.above address).map .node)]

end Node

namespace Settings

/--
Whether a walk goes down to an address. Depths are counted one by one only up to
`Number.exactLimit`, so no depth exceeds that or a larger limit.
-/
def reaches (settings : Settings) (address : List Nat) : Bool :=
  decide
    (address.length ≤ settings.maxDepth ∨
      Number.exactLimit ≤ settings.maxDepth)

/-- Every walk reaches the root. -/
@[simp] theorem reaches_nil
    (settings : Settings) :
    settings.reaches [] = true := by
  simp [reaches]

end Settings

namespace Context

/-- A context made in a walk that lists a tree, for the node at an address. -/
structure ListsAt
    (settings : Settings)
    (tree : Node)
    (address : List Nat)
    (node : Node)
    (context : Context) : Prop where
  truthful : context.Truthful settings tree [] address node
  path : context.position.path = some (address.map .ofNat)

/-- A truthful context has no child's context where a walk does not go. -/
theorem Truthful.exceeds_child
    {settings : Settings}
    {tree node : Node}
    {keys : Fields Value}
    {address : List Nat}
    {context : Context}
    (truthful : context.Truthful settings tree keys address node)
    (index : Nat) :
    context.position.depth.plusOne.exceeds settings.maxDepth =
      !settings.reaches (address ++ [index]) := by
  rw [truthful.depth, Number.plusOne_ofNat_min, Number.exceeds_ofNat,
    Settings.reaches, List.length_append, List.length_singleton,
    ← decide_not, decide_eq_decide]
  omega

namespace ListsAt

variable
  {settings : Settings}
  {tree node child : Node}
  {address : List Nat}
  {context : Context}

theorem root
    (tracksPaths : settings.trackPaths = true)
    (tree : Node) :
    (Context.root settings []).ListsAt settings tree [] tree where
  truthful := .root settings tree []
  path := by
    simp [Context.root, Position.root, tracksPaths]

/-- Where a walk goes, the context of a child is made. -/
theorem descend
    (tracksPaths : settings.trackPaths = true)
    (listsAt : context.ListsAt settings tree address node)
    {index : Nat}
    (isChild : node.children[index]? = some child)
    (reached : settings.reaches (address ++ [index]) = true) :
    ∃ below,
      context.descend settings node (.ofNat index) = .ok below ∧
        below.ListsAt settings tree (address ++ [index]) child := by
  have within :
      context.position.depth.plusOne.exceeds settings.maxDepth = false := by
    rw [listsAt.truthful.exceeds_child index, reached]
    rfl
  obtain ⟨below, descended⟩ :
      ∃ below,
        context.descend settings node (.ofNat index) = .ok below := by
    obtain ⟨extended, made⟩ :=
      (listsAt.truthful.isIterable Chain.areIterable_nil).exists_extendAll node
    rw [Context.descend, within, made]
    exact ⟨_, rfl⟩
  refine ⟨below, descended, ?_, ?_⟩
  · exact listsAt.truthful.descend (Number.toIndex?_ofNat index)
      isChild descended
  · rw [Context.position_of_descend descended, Position.child,
      listsAt.path]
    simp [tracksPaths]

/-- Where a walk does not go, making the context of a child fails. -/
theorem descend_error
    (listsAt : context.ListsAt settings tree address node)
    {index : Nat}
    (unreached : settings.reaches (address ++ [index]) = false) :
    context.descend settings node (.ofNat index) =
      .error (.traversalDepth (.ofNat settings.maxDepth)) := by
  have tooDeep :
      context.position.depth.plusOne.exceeds settings.maxDepth = true := by
    rw [listsAt.truthful.exceeds_child index, unreached]
    rfl
  rw [Context.descend, tooDeep]
  rfl

/-- The report made at an address is its entry. -/
theorem eval_entry
    (tracksParents : settings.trackParents = true)
    (listsAt : context.ListsAt settings tree address node) :
    Expression.place.eval (.start node context) =
      .ok (tree.entry address) := by
  have parents :
      (context.keys.get? Chain.parents.key).getD .null =
        if address = [] then
          .null
        else
          .list ((tree.above address).map .node) := by
    by_cases atRoot : address = []
    · rw [listsAt.truthful.untouched .parents (.inr atRoot), if_pos atRoot]
      rfl
    · obtain ⟨_, holds, isExtended⟩ :=
        listsAt.truthful.tracked .parents tracksParents atRoot
      cases Option.some.inj holds
      rw [isExtended, if_neg atRoot]
      rfl
  have path :
      context.position.pathValue =
        .list (address.map fun index => .number (.ofNat index)) := by
    rw [Position.pathValue, listsAt.path]
    simp
  simp only [Expression.place, Expression.eval, Expression.evalAll,
    Scope.start, Node.entry,
    listsAt.truthful.isThere, Option.map_some, Option.getD_some]
  rw [← parents, ← path]
  rfl

end ListsAt

end Context

namespace Run

/--
A run reports the entries of some addresses, up to the first that the walk does
not reach. There it fails.
-/
def Lists
    (settings : Settings)
    (tree : Node)
    (run : Run Unit)
    (addresses : List (List Nat)) :
    Prop :=
  run.Yields []
    ((addresses.takeWhile settings.reaches).map tree.entry)
    (if addresses.all settings.reaches then
      .finished ()
    else
      .failed (.traversalDepth (.ofNat settings.maxDepth)))

namespace Lists

variable
  {settings : Settings}
  {tree : Node}
  {first second : Run Unit}
  {address : List Nat}
  {earlier later : List (List Nat)}

theorem none :
    (Run.done ()).Lists settings tree [] :=
  .done ()

/-- An address that is not reached ends the list. -/
theorem unreached
    (outside : settings.reaches address = false) :
    (Run.failed (.traversalDepth (.ofNat settings.maxDepth))).Lists
      settings tree (address :: later) := by
  rw [Lists, List.takeWhile_cons_of_neg (by simp [outside]),
    List.all_cons, outside]
  exact .failed _

/-- The addresses listed first come first. -/
theorem andThen
    (listsFirst : first.Lists settings tree earlier)
    (listsSecond : second.Lists settings tree later) :
    (first.bind fun _ => second).Lists settings tree
      (earlier ++ later) := by
  rw [Lists, List.all_append]
  rw [Lists] at listsFirst
  by_cases allReached : earlier.all settings.reaches = true
  · have reached : ∀ address ∈ earlier, settings.reaches address = true :=
      List.all_eq_true.mp allReached
    rw [allReached] at listsFirst
    rw [allReached, Bool.true_and,
      List.takeWhile_append_of_pos reached, List.map_append]
    rw [List.takeWhile_eq_self_iff.mpr reached] at listsFirst
    exact listsFirst.bind listsSecond
  · have shorter :
        (earlier.takeWhile settings.reaches).length ≠ earlier.length := by
      intro same
      have whole :=
        (List.takeWhile_prefix settings.reaches).eq_of_length same
      exact allReached
        (List.all_eq_true.mpr (List.takeWhile_eq_self_iff.mp whole))
    rw [Bool.eq_false_iff.mpr allReached] at listsFirst ⊢
    rw [Bool.false_and, List.takeWhile_append, if_neg shorter]
    exact listsFirst.bind_failed

end Lists

end Run

namespace Finish

/-- How an action that leaves the registers alone ends. -/
def ofEnding (scope : Scope) : Ending Unit → Ending Finish
  | .finished _ => .finished { scope := scope, failure := none }
  | .failed failure =>
      .finished { scope := scope, failure := some failure }
  | .exhausted => .exhausted

/-- An effect yields what its work does, its failure kept. -/
theorem effect_yields
    {handlers : HandlerMap Handler}
    (scope : Scope)
    {work : Run Unit}
    {values : List Value}
    {ending : Ending Unit}
    (yields : work.Yields handlers values ending) :
    (effect scope work).Yields handlers values (ofEnding scope ending) := by
  obtain ⟨rfl, rfl⟩ := yields
  induction work with
  | done outcome | failed failure | exhausted =>
      exact ⟨rfl, rfl⟩
  | note noted rest inductionHypothesis =>
      exact (inductionHypothesis ()).note
  | deliver value rest inductionHypothesis =>
      exact (inductionHypothesis ()).deliver value
  | resolve kind rest inductionHypothesis =>
      exact (inductionHypothesis _).resolve

end Finish

/-- Running one action is running it and nothing else. -/
theorem Action.runAll_singleton
    (services : Services)
    (scope : Scope)
    (action : Action) :
    runAll services scope [action] = action.run services scope := by
  have unchanged :
      ∀ finish : Finish,
        (finish.andThen fun changed => runAll services changed []) =
          .done finish := by
    intro finish
    rcases finish with ⟨changed, _ | failure⟩ <;> rfl
  unfold runAll
  rw [funext unchanged]
  exact Run.bind_done _

namespace Handler

/-- The report of a place comes before what the original fallback gives. -/
theorem body_reportingPlace
    {services : Services}
    {node : Node}
    {context : Context}
    {entry : Value}
    {values : List Value}
    {ending : Ending Unit}
    (evaluated :
      Expression.place.eval (.start node context) = .ok entry)
    (yields :
      (services.structural node context).Yields [] values ending) :
    (Handler.reportingPlace.body services node context).Yields []
      (entry :: values) ending := by
  let scope := Scope.start node context
  have reports :
      ((Action.deliver .place).run services scope).Yields [] [entry]
        (.finished { scope := scope, failure := none }) := by
    unfold Action.run
    rw [evaluated]
    exact Finish.effect_yields scope (.delivering entry)
  have goesOn :
      (Action.runAll services scope [.structural .node .nothing]).Yields
        [] values (Finish.ofEnding scope ending) := by
    rw [Action.runAll_singleton]
    unfold Action.run
    exact Finish.effect_yields scope yields
  have both :
      (Action.runAll services scope
          Handler.reportingPlace.actions).Yields [] (entry :: values)
        (Finish.ofEnding scope ending) := by
    unfold reportingPlace Action.runAll
    exact reports.bind goesOn
  unfold body
  cases ending with
  | finished outcome =>
      rw [← List.append_nil (entry :: values)]
      exact both.bind (.done ())
  | failed failure =>
      rw [← List.append_nil (entry :: values)]
      exact both.bind (.failed failure)
  | exhausted =>
      exact both.bind_exhausted

end Handler

namespace Walker

section Listing

variable
  {settings : Settings}
  {tree node : Node}
  {address : List Nat}
  {context : Context}
  {services : Services}

/-- A node without a handler goes to the fallback that reports its place. -/
theorem visitNode_listing
    (accepts : ∀ kind, settings.listener ≠ .logging (some kind))
    {values : List Value}
    {ending : Ending Unit}
    (yields :
      (Handler.reportingPlace.body services node context).Yields []
        values ending) :
    ((listing settings).visitNode services node context).Yields []
      values ending := by
  have called :
      ((listing settings).callNode services node context).Yields [] []
        (.finished
          (Handler.reportingPlace.body services node context)) := by
    apply Run.Yields.resolve
    rw [HandlerMap.resolve?_nil]
    exact (notify_yields accepts node none).bind (.note (.done _))
  exact called.bind yields

/-- Siblings are listed where each of them is. -/
theorem visitChildren_lists
    (tracksPaths : settings.trackPaths = true)
    (sameSettings : services.settings = settings)
    (listsAt : context.ListsAt settings tree address node)
    {first : Nat}
    {nodes : List Node}
    (areChildren : node.HasFrom first nodes)
    (each :
      ∀ child ∈ nodes, ∀ longer below,
        below.ListsAt settings tree longer child →
        settings.reaches longer = true →
        (services.visitNode child below).Lists settings tree
          (child.addresses.map (longer ++ ·))) :
    (visitChildren services node context first nodes).Lists settings tree
      ((Node.addressesFrom first nodes).map (address ++ ·)) := by
  induction nodes generalizing first with
  | nil =>
      exact .none
  | cons child rest inductionHypothesis =>
      have isChild := areChildren.head
      have sameAddresses :
          (child.addresses.map (first :: ·)).map (address ++ ·) =
            child.addresses.map ((address ++ [first]) ++ ·) := by
        simp
      rw [Node.addressesFrom, List.map_append, sameAddresses]
      unfold visitChildren
      rw [sameSettings]
      cases reached : settings.reaches (address ++ [first]) with
      | true =>
          obtain ⟨below, descended, listsBelow⟩ :=
            listsAt.descend tracksPaths isChild reached
          rw [descended]
          have listsChild :=
            each child List.mem_cons_self _ below listsBelow reached
          apply listsChild.andThen
          apply inductionHypothesis areChildren.tail
          intro later member
          exact each later (List.mem_cons_of_mem child member)
      | false =>
          rw [listsAt.descend_error reached, Node.addresses_eq,
            List.map_cons, List.append_nil, List.cons_append]
          exact .unreached reached

/-- What a node gives lists the addresses below its own, that one first. -/
theorem visitNode_lists
    (accepts : ∀ kind, settings.listener ≠ .logging (some kind))
    (tracksPaths : settings.trackPaths = true)
    (tracksParents : settings.trackParents = true)
    {bound : Nat}
    (enough : 2 * node.height + 2 ≤ bound)
    (listsAt : context.ListsAt settings tree address node)
    (reached : settings.reaches address = true) :
    (((listing settings).services bound).visitNode node context).Lists
      settings tree (node.addresses.map (address ++ ·)) := by
  induction node using Node.induction_on_children
    generalizing bound address context with
  | step node inductionHypothesis =>
      -- A level of the tree takes two of recursion, one for the fallback.
      obtain ⟨bound, rfl⟩ : ∃ less, bound = less + 2 :=
        ⟨bound - 2, by omega⟩
      have below :
          (((listing settings).services (bound + 1)).structural node
              context).Lists settings tree
            ((Node.addressesFrom 0 node.children).map (address ++ ·)) := by
        apply visitChildren_lists tracksPaths
          (settings_services (listing settings) bound) listsAt
          node.hasFrom_zero
        intro child member longer below listsBelow reachedBelow
        have lower := Node.height_lt_of_mem_children member
        exact inductionHypothesis child member (by omega) listsBelow
          reachedBelow
      have reports :=
        Handler.body_reportingPlace
          (listsAt.eval_entry tracksParents) below
      have lists := visitNode_listing accepts reports
      rw [Node.addresses_eq, List.map_cons, List.append_nil, Run.Lists,
        List.takeWhile_cons_of_pos reached, List.all_cons, reached,
        Bool.true_and, List.map_cons]
      exact lists

end Listing

end Walker

namespace Session

section Listing

variable
  {settings : Settings}
  {tree : Node}
  {bound : Nat}
  (accepts : ∀ kind, settings.listener ≠ .logging (some kind))
  (tracksPaths : settings.trackPaths = true)
  (tracksParents : settings.trackParents = true)
  (enough : 2 * tree.height + 2 ≤ bound)

include accepts tracksPaths tracksParents enough

/-- The walk of the listing visitor lists the addresses of the tree. -/
theorem walk_lists :
    let session := Session.create (.listing settings) []
    (session.walk bound tree []).Lists settings tree tree.addresses := by
  have fromRoot :=
    Walker.visitNode_lists accepts tracksPaths tracksParents enough
      (.root tracksPaths tree) settings.reaches_nil
  simp only [List.nil_append, List.map_id'] at fromRoot
  exact fromRoot

/-- A tree that is low enough is listed to the end. -/
theorem collect_listing
    (lowEnough :
      tree.height ≤ settings.maxDepth ∨
        Number.exactLimit ≤ settings.maxDepth) :
    let session := Session.create (.listing settings) []
    (session.answers bound [.traverse tree []]).map Answer.reply =
      [.result (.list (tree.addresses.map tree.entry))] := by
  intro session
  have lists := walk_lists accepts tracksPaths tracksParents enough
  have allReached :
      ∀ address ∈ tree.addresses, settings.reaches address = true := by
    intro address member
    have short := Node.length_le_height (Node.mem_addresses.mp member)
    simp only [Settings.reaches, decide_eq_true_eq]
    omega
  obtain ⟨results, halt⟩ := lists.complete (.ofMap [])
  rw [List.takeWhile_eq_self_iff.mpr allReached] at results
  rw [List.all_eq_true.mpr allReached] at halt
  have visitor : session.walker.mode = .visitor := rfl
  have freshTable : session.table = .ofMap [] := rfl
  rw [answers_cons, step_traverse_of_visitor bound visitor tree []]
  simp only [answers_nil, List.map_cons, List.map_nil]
  rw [freshTable, results, halt]
  rfl

/-- In a tree that is too high, the list ends at the first address too long. -/
theorem pull_listing
    (counted : settings.maxDepth < Number.exactLimit)
    {first : List Nat}
    (member : first ∈ tree.addresses)
    (tooLong : first.length = settings.maxDepth + 1)
    (cut :
      (tree.addresses.takeWhile fun address =>
          address.length ≤ settings.maxDepth) =
        tree.addresses.filter fun address => address < first)
    (name : String) :
    let session := Session.create (.listing settings) []
    let before := tree.addresses.filter fun address => address < first
    (session.answers bound
        (.start name tree [] ::
          List.replicate (before.length + 1) (.next name))).map
        Answer.reply =
      .nothing ::
        (before.map fun address => .value (tree.entry address)) ++
        [.refused (.traversalDepth (.ofNat settings.maxDepth))] := by
  intro session before
  have lists := walk_lists accepts tracksPaths tracksParents enough
  have sameTest :
      settings.reaches = fun address =>
        decide (address.length ≤ settings.maxDepth) := by
    funext address
    rw [Settings.reaches, decide_eq_decide]
    omega
  have firstUnreached : settings.reaches first = false := by
    rw [sameTest]
    simp [tooLong]
  have someUnreached : tree.addresses.all settings.reaches = false := by
    rw [List.all_eq_false]
    exact ⟨first, member, by simp [firstUnreached]⟩
  obtain ⟨results, halt⟩ := lists.complete (.ofMap [])
  rw [sameTest, cut] at results
  rw [someUnreached] at halt
  have isOpen :
      (session.withIterator name (session.walk bound tree [])).iterator?
          name =
        some (session.walk bound tree []) :=
    iterator?_withIterator_self session name _
  have freshTable :
      (session.withIterator name (session.walk bound tree [])).table =
        .ofMap [] :=
    rfl
  have oneMore : (before.map tree.entry).length < before.length + 1 := by
    simp
  have opened :
      session.step bound (.start name tree []) =
        ({ log := [], reply := .nothing },
          session.withIterator name (session.walk bound tree [])) :=
    step_start_of_visitor bound rfl name tree []
  have replies := replies_nexts bound (before.length + 1) isOpen
  rw [freshTable, results, halt, Reply.pulled_of_lt _ oneMore,
    List.length_map, Nat.add_sub_cancel_left, List.map_map] at replies
  rw [answers_cons, opened]
  exact congrArg (List.cons Reply.nothing) replies

end Listing

/--
The listing visitor enumerates a tree. The valid addresses, in increasing
lexicographic order, are reported once each, with the nodes that belong to them.
In a tree that is too high, those before the first address that is one too long
are reported, and then the walk fails. No tree is too high for a limit that
depths are not counted up to.
-/
theorem listing_enumerates_addresses
    {settings : Settings}
    (accepts : ∀ kind, settings.listener ≠ .logging (some kind))
    (tracksPaths : settings.trackPaths = true)
    (tracksParents : settings.trackParents = true)
    (tree : Node)
    {bound : Nat}
    (enough : 2 * tree.height + 2 ≤ bound)
    (name : String) :
    let session := Session.create (.listing settings) []
    tree.addresses.Pairwise (· < ·) ∧
      (∀ address,
        address ∈ tree.addresses ↔ (tree.at? address).isSome) ∧
      (tree.height ≤ settings.maxDepth ∨
          Number.exactLimit ≤ settings.maxDepth →
        (session.answers bound [.traverse tree []]).map Answer.reply =
          [.result (.list (tree.addresses.map tree.entry))]) ∧
      (settings.maxDepth < tree.height →
        settings.maxDepth < Number.exactLimit →
        ∃ first : List Nat,
          (tree.at? first).isSome ∧
          first.length = settings.maxDepth + 1 ∧
          (∀ other : List Nat,
            (tree.at? other).isSome →
            other.length = settings.maxDepth + 1 →
            first ≤ other) ∧
          let before :=
            tree.addresses.filter fun address => address < first
          (session.answers bound
              (.start name tree [] ::
                List.replicate (before.length + 1) (.next name))).map
              Answer.reply =
            .nothing ::
              (before.map fun address => .value (tree.entry address)) ++
              [.refused
                (.traversalDepth (.ofNat settings.maxDepth))]) := by
  intro session
  refine
    ⟨tree.pairwise_addresses, fun _ => Node.mem_addresses, ?_, ?_⟩
  · exact collect_listing accepts tracksPaths tracksParents enough
  · intro tooHigh counted
    obtain ⟨first, valid, tooLong, isFirst, cut⟩ :=
      Node.exists_first_of_lt_height tooHigh
    have pulled :=
      pull_listing accepts tracksPaths tracksParents enough counted
        (Node.mem_addresses.mpr valid) tooLong cut name
    exact ⟨first, valid, tooLong, isFirst, pulled⟩

/-- Settings for a list of a root and its children only. -/
def shallow : Settings where
  trackParents := true
  trackNewParents := false
  trackPaths := true
  maxDepth := 1
  maxDepth_pos := Nat.one_pos
  listener := .silent

/--
The word in the group is too deep, so the group is the last node listed, and
the word beside it is not.
-/
theorem listing_enumerates_addresses_shallow :
    let tree :=
      Query.and [Query.group (Query.word "a"), Query.word "b"]
    shallow.maxDepth < tree.height ∧
      ((Session.create (.listing shallow) []).answers 6
          [.start "it" tree [], .next "it", .next "it",
            .next "it"]).map Answer.reply =
        [.nothing, .value (tree.entry []), .value (tree.entry [0]),
          .refused (.traversalDepth (.ofNat 1))] := by
  intro tree
  have tooHigh : shallow.maxDepth < tree.height := by
    decide
  have addresses : tree.addresses = [[], [0], [0, 0], [1]] := rfl
  have accepts : ∀ kind, shallow.listener ≠ .logging (some kind) :=
    fun _ => nofun
  have enough : 2 * tree.height + 2 ≤ 6 := by
    decide
  obtain ⟨-, isAddress, -, whenTooHigh⟩ :=
    listing_enumerates_addresses accepts rfl rfl tree enough "it"
  obtain ⟨first, valid, tooLong, -, pulled⟩ :=
    whenTooHigh tooHigh (by decide)
  have isFirst : first = [0, 0] := by
    have member := (isAddress first).mpr valid
    rw [addresses] at member
    simp only [List.mem_cons, List.not_mem_nil, or_false] at member
    rcases member with rfl | rfl | rfl | rfl <;> cases tooLong
    rfl
  subst isFirst
  exact ⟨tooHigh, pulled⟩

end Session

end QueryWalk
