import Mathlib.Algebra.Ring.Nat
import Mathlib.Data.List.Lex
import Mathlib.Tactic.Choose
import QueryWalk.Proofs.AddressEnumeration
import QueryWalk.Proofs.CollectedResults
import QueryWalk.Proofs.ContextDepth
import QueryWalk.Proofs.HandlerInvocation
import QueryWalk.Proofs.NodeArity
import QueryWalk.Proofs.RunApproximation

namespace QueryWalk

/-!
# Substitution at the topmost handled nodes

A transformer whose handlers neither fail nor call back into the walk replaces
the topmost nodes that have handlers by what these give. The replacements of the
children of any other node take their places, one list after the other, and only
their total has to be a number of children that the kind of the node takes. Of
several nodes that the total does not fit, the walk fails at the first it has
done with.
-/

/-- Handlers with what they give for the nodes they handle. -/
structure Substitution where
  settings : Settings
  handlers : HandlerMap Handler
  /-- What a handled node gives in its context. -/
  answer : Node → Context → List Value

/--
A walk is done with one node before it is done with another, given by their
addresses, or they are the same. It is done with the nodes below a node first, and
with siblings from left to right.
-/
def DoneBy (first second : List Nat) : Prop :=
  second <+: first ∨ (¬ first <+: second ∧ first < second)

namespace DoneBy

/-- A walk is done with a tree last of all. -/
theorem nil
    (address : List Nat) :
    DoneBy address [] :=
  .inl address.nil_prefix

/-- Below a child the order is that of the addresses in the child. -/
theorem cons
    {first second : List Nat}
    (doneBy : DoneBy first second)
    (index : Nat) :
    DoneBy (index :: first) (index :: second) := by
  rcases doneBy with above | ⟨notAbove, less⟩
  · exact .inl (List.cons_prefix_cons.mpr ⟨rfl, above⟩)
  · refine .inr ⟨?_, List.cons_lt_cons_self.mpr less⟩
    intro above
    exact notAbove (List.cons_prefix_cons.mp above).2

/-- A walk is done with what is below a child before it comes to later ones. -/
theorem cons_of_lt
    {index later : Nat}
    (before : index < later)
    (first second : List Nat) :
    DoneBy (index :: first) (later :: second) := by
  refine .inr ⟨?_, List.cons_lt_cons_iff.mpr (.inl before)⟩
  intro above
  have same := (List.cons_prefix_cons.mp above).1
  omega

end DoneBy

namespace Substitution

/--
A node is reached in a context, going down from the root of a tree in another: no
node above it has a handler.
-/
inductive Reached
    (substitution : Substitution) :
    Node → Context → List Nat → Node → Context → Prop where
  | root
      {tree : Node}
      {top : Context} :
      Reached substitution tree top [] tree top
  | child
      {tree child node : Node}
      {top context : Context}
      {index : Nat}
      {rest : List Nat}
      (unhandled : substitution.handlers.resolve? tree.kind = none)
      (isChild : tree.children[index]? = some child)
      (reached :
        Reached substitution child
          (top.child substitution.settings tree (.ofNat index))
          rest node context) :
      Reached substitution tree top (index :: rest) node context

/-- The number of values that take the place of a node. -/
def width
    (substitution : Substitution)
    (node : Node)
    (context : Context) :
    Nat :=
  match substitution.handlers.resolve? node.kind with
  | some _ => (substitution.answer node context).length
  | none => 1

/-- The number of values that take the places of the children of a node. -/
def total
    (substitution : Substitution)
    (node : Node)
    (context : Context) :
    Nat :=
  (node.children.mapIdx fun index child =>
    substitution.width child
      (context.child substitution.settings node (.ofNat index))).sum

/-- What takes the places of the children of a node is as many as its kind takes. -/
def Fits
    (substitution : Substitution)
    (node : Node)
    (context : Context) :
    Prop :=
  ∀ arity,
    node.kind.arity? = some arity →
    substitution.total node context = arity

/-- All nodes reached that have no handler are given a number of children that fits. -/
def AllFit
    (substitution : Substitution)
    (tree : Node)
    (top : Context) :
    Prop :=
  ∀ address node context,
    substitution.Reached tree top address node context →
    substitution.handlers.resolve? node.kind = none →
    substitution.Fits node context

/-- A node without a handler that is the first not to be given a fitting number. -/
structure IsFirstMisfit
    (substitution : Substitution)
    (tree : Node)
    (top : Context)
    (address : List Nat)
    (node : Node)
    (context : Context) : Prop where
  reached : substitution.Reached tree top address node context
  unhandled : substitution.handlers.resolve? node.kind = none
  misfit : ¬ substitution.Fits node context
  first :
    ∀ other otherNode otherContext,
      substitution.Reached tree top other otherNode otherContext →
      substitution.handlers.resolve? otherNode.kind = none →
      ¬ substitution.Fits otherNode otherContext →
      DoneBy address other

/--
What takes the place of a node in a context. A handled node gives way to what its
handler gives; any other stays, with what takes the places of its children, one
after the other, for its children.
-/
inductive Replaces
    (substitution : Substitution) :
    Node → Context → List Value → Prop where
  | handled
      {node : Node}
      {context : Context}
      {registration : Registration Handler}
      (found : substitution.handlers.resolve? node.kind = some registration) :
      Replaces substitution node context (substitution.answer node context)
  | rebuilt
      {node result : Node}
      {context : Context}
      {given : List (List Value)}
      (unhandled : substitution.handlers.resolve? node.kind = none)
      (sameLength : given.length = node.children.length)
      (each :
        ∀ (index : Nat) (child : Node) (values : List Value),
          node.children[index]? = some child →
          given[index]? = some values →
          Replaces substitution child
            (context.child substitution.settings node (.ofNat index))
            values)
      (built :
        node.withChildren (given.flatten.map Value.asNode) = .ok result) :
      Replaces substitution node context [.node result]

/-- What a node comes to: what takes its place, or the failure of the first misfit. -/
def ComesTo
    (substitution : Substitution)
    (tree : Node)
    (top : Context) :
    Except Failure (List Value) → Prop
  | .ok values =>
      substitution.AllFit tree top ∧
        substitution.Replaces tree top values
  | .error failure =>
      ∃ address node context arity,
        substitution.IsFirstMisfit tree top address node context ∧
          node.kind.arity? = some arity ∧
          failure =
            .nodeArity node.kind (.ofNat arity)
              (.ofNat (substitution.total node context))

variable
  {substitution : Substitution}
  {tree node child : Node}
  {top context : Context}
  {address : List Nat}
  {values : List Value}

/-- As many values take the place of a node as its width says. -/
theorem Replaces.length_eq
    (replaces : substitution.Replaces node context values) :
    values.length = substitution.width node context := by
  cases replaces with
  | handled found =>
      rw [width, found]
  | rebuilt unhandled =>
      rw [width, unhandled]
      rfl

/-- What takes the places of the children is as many as the total says. -/
theorem length_flatten_eq_total
    {given : List (List Value)}
    (sameLength : given.length = node.children.length)
    (each :
      ∀ index child values,
        node.children[index]? = some child →
        given[index]? = some values →
        substitution.Replaces child
          (context.child substitution.settings node (.ofNat index))
          values) :
    given.flatten.length = substitution.total node context := by
  have widths :
      given.map List.length =
        node.children.mapIdx fun index child =>
          substitution.width child
            (context.child substitution.settings node (.ofNat index)) := by
    apply List.ext_getElem (by simp [sameLength])
    intro index inGiven inWidths
    simp only [List.length_map] at inGiven
    simp only [List.length_mapIdx] at inWidths
    simp only [List.getElem_map, List.getElem_mapIdx]
    exact (each index _ _
      (List.getElem?_eq_getElem inWidths)
      (List.getElem?_eq_getElem inGiven)).length_eq
  rw [List.length_flatten, widths, total]

/-- What is reached below a root without a handler is the root or below a child. -/
theorem Reached.cases_of_unhandled
    {other : Node}
    {otherContext : Context}
    (reached :
      substitution.Reached tree top address other otherContext) :
    (address = [] ∧ other = tree ∧ otherContext = top) ∨
      ∃ index rest child,
        address = index :: rest ∧
          tree.children[index]? = some child ∧
          substitution.Reached child
            (top.child substitution.settings tree (.ofNat index))
            rest other otherContext := by
  cases reached with
  | root =>
      exact .inl ⟨rfl, rfl, rfl⟩
  | child _ isChild reached =>
      exact .inr ⟨_, _, _, rfl, isChild, reached⟩

section Handled

variable
  {registration : Registration Handler}
  (found : substitution.handlers.resolve? tree.kind = some registration)
include found

/-- From a handled node no node without a handler is reached. -/
theorem Reached.exists_of_resolved
    (reached : substitution.Reached tree top address node context) :
    ∃ other, substitution.handlers.resolve? node.kind = some other := by
  cases reached with
  | root =>
      exact ⟨registration, found⟩
  | child unhandled =>
      rw [found] at unhandled
      cases unhandled

/-- A handled node comes to what its handler gives. -/
theorem comesTo_of_resolved :
    substitution.ComesTo tree top (.ok (substitution.answer tree top)) := by
  refine ⟨?_, .handled found⟩
  intro address node context reached unhandled
  obtain ⟨other, handled⟩ := reached.exists_of_resolved found
  rw [handled] at unhandled
  cases unhandled

/-- A handled node comes to nothing else. -/
theorem ComesTo.eq_of_resolved
    {collected : Except Failure (List Value)}
    (comesTo : substitution.ComesTo tree top collected) :
    collected = .ok (substitution.answer tree top) := by
  cases collected with
  | ok values =>
      cases comesTo.2 with
      | handled =>
          rfl
      | rebuilt unhandled =>
          rw [found] at unhandled
          cases unhandled
  | error failure =>
      obtain ⟨address, node, context, arity, isFirst, -, -⟩ := comesTo
      obtain ⟨other, handled⟩ := isFirst.reached.exists_of_resolved found
      rw [isFirst.unhandled] at handled
      cases handled

end Handled

section Unhandled

variable
  (unhandled : substitution.handlers.resolve? tree.kind = none)
include unhandled

/--
Where the children of a node come to values, the node is rebuilt from these or is
the first misfit itself.
-/
theorem comesTo_of_children
    {given : List (List Value)}
    (sameLength : given.length = tree.children.length)
    (each :
      ∀ index child values,
        tree.children[index]? = some child →
        given[index]? = some values →
        substitution.ComesTo child
          (top.child substitution.settings tree (.ofNat index))
          (.ok values)) :
    substitution.ComesTo tree top
      ((tree.withChildren (given.flatten.map Value.asNode)).bind
        fun result => .ok [.node result]) := by
  have counted :
      (given.flatten.map Value.asNode).length =
        substitution.total tree top := by
    rw [List.length_map]
    exact length_flatten_eq_total sameLength
      fun index child values isChild isGiven =>
        (each index child values isChild isGiven).2
  have fitsBelow :
      ∀ index rest child node context,
        tree.children[index]? = some child →
        substitution.Reached child
          (top.child substitution.settings tree (.ofNat index))
          rest node context →
        substitution.handlers.resolve? node.kind = none →
        substitution.Fits node context := by
    intro index rest child node context isChild reached
    have inGiven : index < given.length := by
      rw [sameLength]
      exact (List.getElem?_eq_some_iff.mp isChild).1
    exact (each index child _ isChild
      (List.getElem?_eq_getElem inGiven)).1 rest node context reached
  by_cases fits : substitution.Fits tree top
  · obtain ⟨result, built⟩ :
        ∃ result,
          tree.withChildren (given.flatten.map Value.asNode) =
            .ok result := by
      apply Node.withChildren_isOk
      intro arity fixed
      rw [counted]
      exact fits arity fixed
    rw [built]
    refine ⟨?_, .rebuilt unhandled sameLength ?_ built⟩
    · intro address node context reached nodeUnhandled
      rcases reached.cases_of_unhandled with
        ⟨-, rfl, rfl⟩ | ⟨index, rest, child, -, isChild, reachedBelow⟩
      · exact fits
      · exact fitsBelow index rest child node context isChild
          reachedBelow nodeUnhandled
    · intro index child values isChild isGiven
      exact (each index child values isChild isGiven).2
  · obtain ⟨arity, fixed, misfit⟩ :
        ∃ arity,
          tree.kind.arity? = some arity ∧
            substitution.total tree top ≠ arity := by
      simpa [Fits] using fits
    rw [Node.withChildren_error fixed (by rw [counted]; exact misfit),
      counted]
    refine ⟨[], tree, top, arity, ⟨.root, unhandled, fits, ?_⟩, fixed, rfl⟩
    intro other node context reached nodeUnhandled nodeMisfit
    rcases reached.cases_of_unhandled with
      ⟨rfl, -, -⟩ | ⟨index, rest, child, -, isChild, reachedBelow⟩
    · exact .nil []
    · exact (nodeMisfit (fitsBelow index rest child node context isChild
        reachedBelow nodeUnhandled)).elim

/--
Where one child fails and the children before it come to values, the first misfit
below that child is the first of all.
-/
theorem comesTo_of_child
    {index : Nat}
    {failure : Failure}
    (isChild : tree.children[index]? = some child)
    (fails :
      substitution.ComesTo child
        (top.child substitution.settings tree (.ofNat index))
        (.error failure))
    (before :
      ∀ earlier sibling,
        earlier < index →
        tree.children[earlier]? = some sibling →
        substitution.AllFit sibling
          (top.child substitution.settings tree (.ofNat earlier))) :
    substitution.ComesTo tree top (.error failure) := by
  obtain ⟨rest, node, context, arity, isFirst, fixed, rfl⟩ := fails
  refine ⟨index :: rest, node, context, arity, ?_, fixed, rfl⟩
  refine
    ⟨.child unhandled isChild isFirst.reached, isFirst.unhandled,
      isFirst.misfit, ?_⟩
  intro other otherNode otherContext reached otherUnhandled otherMisfit
  rcases reached.cases_of_unhandled with
    ⟨rfl, -, -⟩ | ⟨place, further, sibling, rfl, isSibling, reachedBelow⟩
  · exact .nil _
  · -- Below an earlier child there is no misfit, and the walk comes later
    -- to what is below a later one.
    rcases Nat.lt_trichotomy place index with earlier | same | later
    · exact (otherMisfit (before place sibling earlier isSibling further
        otherNode otherContext reachedBelow otherUnhandled)).elim
    · subst same
      rw [isChild] at isSibling
      cases isSibling
      exact (isFirst.first further otherNode otherContext reachedBelow
        otherUnhandled otherMisfit).cons place
    · exact .cons_of_lt later rest further

/-- What a node comes to, where its children come to what they do in turn. -/
theorem comesTo_of_inTurn
    {outcomes : List (Except Failure (List Value))}
    (sameLength : outcomes.length = tree.children.length)
    (each :
      ∀ index child outcome,
        tree.children[index]? = some child →
        outcomes[index]? = some outcome →
        substitution.ComesTo child
          (top.child substitution.settings tree (.ofNat index))
          outcome) :
    substitution.ComesTo tree top
      (((inTurn outcomes).bind fun values =>
          tree.withChildren (values.map Value.asNode)).bind
        fun result => .ok [.node result]) := by
  rcases inTurn_cases outcomes with
    ⟨given, rfl⟩ | ⟨given, failure, rest, rfl, fails⟩
  · rw [inTurn_map_ok]
    rw [List.length_map] at sameLength
    apply comesTo_of_children unhandled sameLength
    intro index child values isChild isGiven
    apply each index child (.ok values) isChild
    rw [List.getElem?_map, isGiven]
    rfl
  · rw [fails]
    have inChildren : given.length < tree.children.length := by
      rw [← sameLength]
      simp
    have isChild := List.getElem?_eq_getElem inChildren
    apply comesTo_of_child unhandled isChild
    · apply each given.length _ (.error failure) isChild
      rw [List.getElem?_append_right (by simp)]
      simp
    · intro earlier sibling before isSibling
      have isGiven := List.getElem?_eq_getElem before
      apply (each earlier sibling (.ok given[earlier]) isSibling ?_).1
      rw [List.getElem?_append_left (by simpa using before),
        List.getElem?_map, isGiven]
      rfl

end Unhandled

/-- The transformer that a substitution is carried out by. -/
def transformer (substitution : Substitution) : Walker :=
  .original .transformer substitution.settings

/-- All handlers that are reached give by themselves what is answered for them. -/
def IsAnswered
    (substitution : Substitution)
    (tree : Node)
    (top : Context) :
    Prop :=
  ∀ address node context registration,
    substitution.Reached tree top address node context →
    substitution.handlers.resolve? node.kind = some registration →
    registration.handler.Gives substitution.handlers
      substitution.settings node context
      (substitution.answer node context)

/-- No node is reached at the depth limit that has children but no handler. -/
def StaysWithin
    (substitution : Substitution)
    (tree : Node)
    (top : Context) :
    Prop :=
  ∀ address node context,
    substitution.Reached tree top address node context →
    substitution.handlers.resolve? node.kind = none →
    node.children ≠ [] →
    context.position.depth ≠ .ofNat substitution.settings.maxDepth

section Below

variable
  {index : Nat}
  (unhandled : substitution.handlers.resolve? tree.kind = none)
  (isChild : tree.children[index]? = some child)
include unhandled isChild

theorem IsAnswered.of_child
    (answered : substitution.IsAnswered tree top) :
    substitution.IsAnswered child
      (top.child substitution.settings tree (.ofNat index)) := by
  intro address node context registration reached
  exact answered (index :: address) node context registration
    (.child unhandled isChild reached)

theorem StaysWithin.of_child
    (within : substitution.StaysWithin tree top) :
    substitution.StaysWithin child
      (top.child substitution.settings tree (.ofNat index)) := by
  intro address node context reached
  exact within (index :: address) node context
    (.child unhandled isChild reached)

end Below

section Walk

variable
  {depth bound : Nat}
  (accepts :
    ∀ kind, substitution.settings.listener ≠ .logging (some kind))

/--
What the children of a node without a handler give, one after the other, where
each gives what it comes to.
-/
theorem visitChildren_comesTo
    {services : Services}
    (sameSettings : services.settings = substitution.settings)
    (isAt : top.IsAtDepth depth)
    (reachable : substitution.settings.Admits depth)
    (iterable :
      tree.children ≠ [] → top.IsIterable substitution.settings)
    (unhandled : substitution.handlers.resolve? tree.kind = none)
    (within : substitution.StaysWithin tree top)
    (each :
      ∀ index child,
        tree.children[index]? = some child →
        substitution.settings.Admits (depth + 1) →
        ∃ outcome,
          substitution.ComesTo child
              (top.child substitution.settings tree (.ofNat index))
              outcome ∧
            (services.visitNode child
              (top.child substitution.settings tree
                (.ofNat index))).Collects substitution.handlers outcome) :
    ∃ outcomes : List (Except Failure (List Value)),
      outcomes.length = tree.children.length ∧
        (∀ index child outcome,
          tree.children[index]? = some child →
          outcomes[index]? = some outcome →
          substitution.ComesTo child
            (top.child substitution.settings tree (.ofNat index))
            outcome) ∧
        (Walker.visitChildren services tree top 0 tree.children).Collects
          substitution.handlers (inTurn outcomes) := by
  have deeper :
      tree.children ≠ [] →
      substitution.settings.Admits (depth + 1) := by
    intro hasChildren
    exact isAt.admits_succ reachable
      (within [] tree top .root unhandled hasChildren)
  have eachPlace (place : Fin tree.children.length) :=
    each place tree.children[place]
      (List.getElem?_eq_getElem place.isLt)
      (deeper (List.ne_nil_of_length_pos (Nat.zero_lt_of_lt place.isLt)))
  choose outcomeOf comesTo collects using eachPlace
  have isOutcomeOf :
      ∀ (index : Nat) (outcome : Except Failure (List Value))
        (inChildren : index < tree.children.length),
        (List.ofFn outcomeOf)[index]? = some outcome →
        outcomeOf ⟨index, inChildren⟩ = outcome := by
    intro index outcome inChildren isOutcome
    rw [List.getElem?_ofFn, dif_pos inChildren] at isOutcome
    exact Option.some.inj isOutcome
  refine ⟨List.ofFn outcomeOf, List.length_ofFn, ?_, ?_⟩
  · intro index child outcome isChild isOutcome
    obtain ⟨inChildren, rfl⟩ := List.getElem?_eq_some_iff.mp isChild
    rw [← isOutcomeOf index outcome inChildren isOutcome]
    exact comesTo ⟨index, inChildren⟩
  · apply Walker.visitChildren_collects List.length_ofFn
    intro index child outcome isChild isOutcome
    obtain ⟨inChildren, rfl⟩ := List.getElem?_eq_some_iff.mp isChild
    have inner := List.ne_nil_of_mem (List.getElem_mem inChildren)
    rw [Nat.zero_add, Walker.visitChild, sameSettings,
      isAt.descend (deeper inner) (iterable inner),
      ← isOutcomeOf index outcome inChildren isOutcome]
    exact collects ⟨index, inChildren⟩

include accepts

/-- A handled node gives what is answered for it. -/
theorem visitNode_collects_answer
    {services : Services}
    (sameSettings : services.settings = substitution.settings)
    (answered : substitution.IsAnswered tree top)
    {registration : Registration Handler}
    (found : substitution.handlers.resolve? tree.kind = some registration) :
    (substitution.transformer.visitNode services tree top).Collects
      substitution.handlers (.ok (substitution.answer tree top)) := by
  have gives := answered [] tree top registration .root found
  rw [← sameSettings] at gives
  exact Walker.visitNode_collects_of_resolved accepts found gives.yields

/-- What a node gives is what it comes to. -/
theorem visitNode_comesTo
    (isAt : top.IsAtDepth depth)
    (reachable : substitution.settings.Admits depth)
    (iterable :
      substitution.handlers.resolve? tree.kind = none →
      tree.children ≠ [] →
      top.IsIterable substitution.settings)
    (answered : substitution.IsAnswered tree top)
    (within : substitution.StaysWithin tree top)
    (enough : tree.height < bound) :
    ∃ collected,
      substitution.ComesTo tree top collected ∧
        ((substitution.transformer.services bound).visitNode tree
          top).Collects substitution.handlers collected := by
  induction tree using Node.induction_on_children
    generalizing bound depth top with
  | step tree inductionHypothesis =>
      obtain ⟨bound, rfl⟩ : ∃ less, bound = less + 1 :=
        ⟨bound - 1, by omega⟩
      have sameSettings :=
        Walker.settings_services substitution.transformer bound
      cases found : substitution.handlers.resolve? tree.kind with
      | some registration =>
          exact ⟨_, comesTo_of_resolved found,
            visitNode_collects_answer accepts sameSettings answered found⟩
      | none =>
          obtain ⟨outcomes, sameLength, comesTo, visited⟩ :=
            visitChildren_comesTo sameSettings isAt reachable
              (iterable found) found within
              fun index child isChild admits =>
                have inner : tree.children ≠ [] :=
                  List.ne_nil_of_mem (List.mem_of_getElem? isChild)
                inductionHypothesis child (List.mem_of_getElem? isChild)
                  (isAt.child substitution.settings tree (.ofNat index))
                  admits
                  (fun _ _ =>
                    (iterable found inner).child tree (.ofNat index))
                  (answered.of_child found isChild)
                  (within.of_child found isChild)
                  (Nat.lt_of_lt_of_le
                    (Node.height_lt_of_mem_children
                      (List.mem_of_getElem? isChild))
                    (Nat.le_of_lt_succ enough))
          have given :=
            @Walker.callGeneric_collects_of_transformer
              substitution.transformer _ _ _ _ rfl rfl _
              (Walker.rebuild_yields visited)
          exact
            ⟨_, comesTo_of_inTurn found sameLength comesTo,
              Walker.visitNode_collects_of_missed accepts found given⟩

/-- A traversal tells what its tree comes to. -/
theorem reply_comesTo
    {keys : Fields Value}
    (iterable :
      substitution.handlers.resolve? tree.kind = none →
      tree.children ≠ [] →
      Chain.AreIterable substitution.settings keys)
    (answered :
      substitution.IsAnswered tree (.root substitution.settings keys))
    (within :
      substitution.StaysWithin tree (.root substitution.settings keys))
    (enough : tree.height < bound) :
    ∃ collected,
      substitution.ComesTo tree (.root substitution.settings keys)
          collected ∧
        ((Session.create substitution.transformer
            substitution.handlers).answers bound
            [.traverse tree keys]).map Answer.reply =
          [.ofEnding .result
            (.ofExcept
              (collected.bind (Mode.outcome .transformer)))] := by
  obtain ⟨bound, rfl⟩ : ∃ less, bound = less + 1 :=
    ⟨bound - 1, by omega⟩
  obtain ⟨collected, comesTo, collects⟩ :=
    visitNode_comesTo accepts (.root substitution.settings keys)
      (.inl (Nat.zero_le _)) iterable answered within enough
  exact ⟨collected, comesTo,
    congrArg ([·])
      (Session.reply_traverse (.ofMap substitution.handlers) collects)⟩

end Walk

end Substitution

namespace Session

/--
A transformer whose handlers neither fail nor call back substitutes what they give
for the topmost handled nodes. A handled tree is replaced by the only value given
for it, if there is only one. Any other tree is rebuilt if and only if every node
without a handler that is reached is given a number of children that its kind
takes. Otherwise the walk fails at the first node that is not, telling the number
that its kind takes and the number given. Where the caller has put something under the
key of a tracked chain that there is no going on from, no child of a tree without a
handler is visited, and the walk fails for that chain.
-/
theorem substitution_at_topmost_handled
    {substitution : Substitution}
    (accepts :
      ∀ kind, substitution.settings.listener ≠ .logging (some kind))
    {tree : Node}
    {keys : Fields Value}
    (answered :
      substitution.IsAnswered tree (.root substitution.settings keys))
    (within :
      substitution.StaysWithin tree (.root substitution.settings keys))
    {bound : Nat}
    (enough : tree.height < bound) :
    let top := Context.root substitution.settings keys
    let replies :=
      ((Session.create substitution.transformer
        substitution.handlers).answers bound [.traverse tree keys]).map
        Answer.reply
    (∀ registration,
      substitution.handlers.resolve? tree.kind = some registration →
      let given := substitution.answer tree top
      (∀ only, given = [only] → replies = [.result only]) ∧
        (given.length ≠ 1 →
          replies =
            [.refused (.transformArity (.ofNat given.length) none)])) ∧
      (substitution.handlers.resolve? tree.kind = none →
        tree.children = [] ∨ Chain.AreIterable substitution.settings keys →
        ((∃ result, replies = [.result result]) ↔
          substitution.AllFit tree top) ∧
        (substitution.AllFit tree top →
          ∃ result,
            substitution.Replaces tree top [.node result] ∧
              replies = [.result (.node result)]) ∧
        (¬ substitution.AllFit tree top →
          ∃ address node context arity,
            substitution.IsFirstMisfit tree top address node context ∧
              node.kind.arity? = some arity ∧
              replies =
                [.refused
                  (.nodeArity node.kind (.ofNat arity)
                    (.ofNat (substitution.total node context)))])) ∧
      (substitution.handlers.resolve? tree.kind = none →
        tree.children ≠ [] →
        ∀ chain,
          Chain.stuck? substitution.settings keys = some chain →
          replies = [.refused (.notIterable chain.key)]) := by
  intro top replies
  have comes
      (iterable :
        substitution.handlers.resolve? tree.kind = none →
        tree.children ≠ [] →
        Chain.AreIterable substitution.settings keys) :=
    Substitution.reply_comesTo accepts iterable answered within enough
  change _ → ∃ collected, _ ∧ replies = _ at comes
  refine ⟨?_, ?_, ?_⟩
  · intro registration found given
    obtain ⟨collected, comesTo, told⟩ :=
      comes fun unhandled => by
        rw [found] at unhandled
        cases unhandled
    rw [comesTo.eq_of_resolved found] at told
    change replies =
      [.ofEnding .result (.ofExcept (Mode.outcome .transformer given))]
      at told
    refine ⟨?_, ?_⟩
    · intro only isOnly
      rw [told, isOnly]
      rfl
    · intro notOne
      rw [told]
      rcases given with _ | ⟨first, _ | ⟨second, rest⟩⟩
      · rfl
      · exact (notOne rfl).elim
      · rfl
  · intro unhandled iterable
    obtain ⟨collected, comesTo, told⟩ :=
      comes fun _ inner => iterable.resolve_left inner
    cases collected with
    | ok values =>
        obtain ⟨allFit, replaces⟩ := comesTo
        cases replaces with
        | handled found =>
            rw [found] at unhandled
            cases unhandled
        | rebuilt _ sameLength each built =>
            refine ⟨⟨fun _ => allFit, fun _ => ⟨_, told⟩⟩, ?_, ?_⟩
            · intro _
              exact ⟨_, .rebuilt unhandled sameLength each built, told⟩
            · intro misfit
              exact (misfit allFit).elim
    | error failure =>
        obtain ⟨address, node, context, arity, isFirst, fixed, rfl⟩ :=
          comesTo
        have misfit : ¬ substitution.AllFit tree top := by
          intro allFit
          exact isFirst.misfit
            (allFit address node context isFirst.reached isFirst.unhandled)
        refine ⟨⟨?_, fun allFit => (misfit allFit).elim⟩, ?_, ?_⟩
        · rintro ⟨result, isResult⟩
          rw [told] at isResult
          cases isResult
        · intro allFit
          exact (misfit allFit).elim
        · intro _
          exact ⟨address, node, context, arity, isFirst, fixed, told⟩
  · intro unhandled inner chain stuck
    obtain ⟨bound, rfl⟩ : ∃ less, bound = less + 1 :=
      ⟨bound - 1, by omega⟩
    exact
      congrArg ([·])
        (reply_traverse_of_stuck
          (.create substitution.transformer substitution.handlers)
          (.ofMap substitution.handlers) rfl accepts unhandled inner
          stuck bound)

/-- Words are deleted, and phrases take the places of two. -/
def phrasesTwice : Substitution where
  settings :=
    { trackParents := true
      trackNewParents := false
      trackPaths := true
      maxDepth := 1
      maxDepth_pos := by decide
      listener := .logging none }
  handlers :=
    [(.exactly (.term .word), { eager := false, actions := [] }),
      (.exactly (.term .phrase),
        { eager := true, actions := [.deliver .node, .deliver .node] })]
  answer node _ :=
    match node.kind with
    | .term .phrase => [.node node, .node node]
    | _ => []

/-- A range from a word to a phrase. -/
def wordToPhrase : Node :=
  .range (.term .word "a" []) (.term .phrase "b" []) true false
    [("note", .null)]

/-- A range is reached, and its ends. -/
theorem reached_wordToPhrase
    {keys : Fields Value}
    {address : List Nat}
    {node : Node}
    {context : Context}
    (reached :
      phrasesTwice.Reached wordToPhrase (.root phrasesTwice.settings keys)
        address node context) :
    (node = wordToPhrase ∧ context = .root phrasesTwice.settings keys) ∨
      node = .term .word "a" [] ∨
      node = .term .phrase "b" [] := by
  rcases reached.cases_of_unhandled with
    ⟨-, rfl, rfl⟩ | ⟨index, rest, child, -, isChild, reachedBelow⟩
  · exact .inl ⟨rfl, rfl⟩
  · right
    have member : child ∈ wordToPhrase.children :=
      List.mem_of_getElem? isChild
    rcases List.mem_pair.mp member with rfl | rfl
    · cases reachedBelow with
      | root =>
          exact .inl rfl
      | child unhandled =>
          cases unhandled
    · cases reachedBelow with
      | root =>
          exact .inr rfl
      | child unhandled =>
          cases unhandled

/--
A range whose lower end is deleted is whole if its upper end counts twice. From a number
there is no chain of parents to go on with.
-/
theorem substitution_at_topmost_handled_wordToPhrase :
    let replies (keys : Fields Value) :=
      ((Session.create phrasesTwice.transformer
        phrasesTwice.handlers).answers 2
        [.traverse wordToPhrase keys]).map Answer.reply
    replies [] =
        [.result
          (.node
            (.range (.term .phrase "b" []) (.term .phrase "b" []) true
              false [("note", .null)]))] ∧
      replies [("parents", .number (.ofNat 5))] =
        [.refused (.notIterable "parents")] := by
  intro replies
  have answered (keys : Fields Value) :
      phrasesTwice.IsAnswered wordToPhrase
        (.root phrasesTwice.settings keys) := by
    intro address node context registration isReached found
    rcases reached_wordToPhrase isReached with
      ⟨rfl, rfl⟩ | rfl | rfl <;> cases found <;> exact ⟨rfl, rfl⟩
  have within (keys : Fields Value) :
      phrasesTwice.StaysWithin wordToPhrase
        (.root phrasesTwice.settings keys) := by
    intro address node context isReached unhandled
    rcases reached_wordToPhrase isReached with
      ⟨rfl, rfl⟩ | rfl | rfl
    · intro _
      change Number.ofNat 0 ≠ .ofNat 1
      decide
    · cases unhandled
    · cases unhandled
  have allFit :
      phrasesTwice.AllFit wordToPhrase (.root phrasesTwice.settings []) := by
    intro address node context isReached unhandled
    rcases reached_wordToPhrase isReached with
      ⟨rfl, rfl⟩ | rfl | rfl
    · intro arity fixed
      cases fixed
      rfl
    · cases unhandled
    · cases unhandled
  have accepts :
      ∀ kind, phrasesTwice.settings.listener ≠ .logging (some kind) :=
    fun _ => nofun
  have enough : wordToPhrase.height < 2 := by
    decide
  obtain ⟨-, missed, -⟩ :=
    substitution_at_topmost_handled accepts (answered []) (within [])
      enough
  obtain ⟨-, -, stuck⟩ :=
    substitution_at_topmost_handled accepts
      (answered [("parents", .number (.ofNat 5))]) (within _) enough
  obtain ⟨-, rebuilt, -⟩ := missed rfl (.inr rfl)
  obtain ⟨result, replaces, told⟩ := rebuilt allFit
  refine ⟨?_, stuck rfl (by decide) .parents rfl⟩
  change replies [] = _ at told
  rw [told]
  cases replaces with
  | @rebuilt _ _ _ given _ sameLength each built =>
      rcases given with _ | ⟨low, _ | ⟨high, _ | ⟨third, rest⟩⟩⟩
      · cases sameLength
      · cases sameLength
      · have lowGone := each 0 _ low rfl rfl
        have highTwice := each 1 _ high rfl rfl
        cases lowGone with
        | rebuilt unhandled => cases unhandled
        | handled =>
        cases highTwice with
        | rebuilt unhandled => cases unhandled
        | handled =>
        cases built
        rfl
      · cases sameLength

end Session

end QueryWalk
