import Mathlib.Data.List.Forall2
import QueryWalk.Proofs.AddressEnumeration
import QueryWalk.Proofs.CarriedProperties
import QueryWalk.Proofs.HandlerInvocation
import QueryWalk.Proofs.NodeArity
import QueryWalk.Proofs.RunApproximation

namespace QueryWalk

/-!
# Fusion of leaf rewritings

A transformer that has handlers for leaves only, and whose handlers look at nothing but
their leaf, puts what they give in the places of the leaves. All other nodes stay, and
only their numbers of children change. So two such transformers, one after the other, do
what one does that gives for a leaf what the second gives for all that the first gives
for it: they come to the same tree, or they fail at the same node for the same number of
children.
-/

/-- Whether only leaves belong to a type. -/
def NodeType.isOfLeaves : NodeType → Bool
  | .exactly kind => kind.isLeaf
  | .anyOf .term => true
  | .anyOf _ => false

/-- A kind that belongs to a type of leaves is one of leaves. -/
theorem NodeType.isLeaf_of_includes
    {type : NodeType}
    {kind : NodeKind}
    (ofLeaves : type.isOfLeaves = true)
    (includes : type.includes kind = true) :
    kind.isLeaf = true := by
  have member := includes_iff.mp includes
  cases kind with
  | term | noneItem =>
      rfl
  | searchField | boost | range =>
      rcases List.mem_singleton.mp member with rfl
      exact ofLeaves
  | group | approximation | unary | operation =>
      rcases List.mem_pair.mp member with rfl | rfl <;> exact ofLeaves

namespace Node

/-- A leaf is of no height. -/
theorem height_of_isLeaf
    {node : Node}
    (leaf : node.isLeaf = true) :
    node.height = 0 := by
  rw [height_eq, children_of_isLeaf leaf]
  rfl

/-- A node with what is given for its children in their places, as a replacement. -/
def withReplacements
    (node : Node)
    (given : Except Failure (List Value)) :
    Except Failure (List Value) :=
  (given.bind fun values => node.withChildren (values.map Value.asNode)).bind
    fun result => .ok [.node result]

/-- A node whose children are replaced is one node with the replacements below it. -/
theorem exists_of_withReplacements
    {node : Node}
    {given : Except Failure (List Value)}
    {values : List Value}
    (replaced : node.withReplacements given = .ok values) :
    ∃ replacements result,
      given = .ok replacements ∧
        node.withChildren (replacements.map Value.asNode) = .ok result ∧
        values = [.node result] := by
  cases given with
  | error failure =>
      cases replaced
  | ok replacements =>
      cases built :
          node.withChildren (replacements.map Value.asNode) with
      | error failure =>
          simp [withReplacements, Except.bind, built] at replaced
      | ok result =>
          simp only [withReplacements, Except.bind, built,
            Except.ok.injEq] at replaced
          exact ⟨replacements, result, rfl, built, replaced.symm⟩

/-- The children of a node are not replaced where one fails, or their number does not fit. -/
theorem failure_of_withReplacements
    {node : Node}
    {given : Except Failure (List Value)}
    {failure : Failure}
    (failed : node.withReplacements given = .error failure) :
    given = .error failure ∨ failure.IsMisfit := by
  cases given with
  | error first =>
      cases failed
      exact .inl rfl
  | ok replacements =>
      cases built :
          node.withChildren (replacements.map Value.asNode) with
      | error misfit =>
          simp only [withReplacements, Except.bind, built,
            Except.error.injEq] at failed
          subst failed
          exact .inr ⟨node, _, built⟩
      | ok result =>
          simp [withReplacements, Except.bind, built] at failed

/-- Replacing the children of a node twice is replacing them the last time. -/
theorem withReplacements_of_withChildren
    {node result : Node}
    {given : List Node}
    (built : node.withChildren given = .ok result)
    (later : Except Failure (List Value)) :
    result.withReplacements later = node.withReplacements later := by
  simp only [withReplacements, withChildren_of_withChildren built]

end Node

/-- What is collected is the same nodes, or the same failure. -/
inductive SameNodes :
    Except Failure (List Value) → Except Failure (List Value) → Prop where
  | values
      {given others : List Value}
      (same : given.map Value.asNode = others.map Value.asNode) :
      SameNodes (.ok given) (.ok others)
  | failure
      (failure : Failure) :
      SameNodes (.error failure) (.error failure)

namespace SameNodes

variable {given other : Except Failure (List Value)}

/-- Whatever is collected is the same as itself. -/
theorem refl
    (given : Except Failure (List Value)) :
    SameNodes given given := by
  cases given with
  | ok values =>
      exact .values rfl
  | error failure =>
      exact .failure failure

/-- Replacements count as the nodes that they are. -/
theorem withReplacements_eq
    (same : SameNodes given other)
    (node : Node) :
    node.withReplacements given = node.withReplacements other := by
  cases same with
  | failure =>
      rfl
  | values same =>
      simp only [Node.withReplacements, Except.bind, same]

/-- What comes in turn is the same where each part is. -/
theorem inTurn
    {outcomes others : List (Except Failure (List Value))}
    (each : List.Forall₂ SameNodes outcomes others) :
    SameNodes (QueryWalk.inTurn outcomes) (QueryWalk.inTurn others) := by
  induction each with
  | nil =>
      exact .values rfl
  | @cons _ _ rest others first _ inductionHypothesis =>
      cases first with
      | failure failure =>
          exact .failure failure
      | values same =>
          simp only [QueryWalk.inTurn, Except.bind]
          generalize QueryWalk.inTurn rest = given at inductionHypothesis ⊢
          generalize QueryWalk.inTurn others = other
            at inductionHypothesis ⊢
          cases inductionHypothesis with
          | failure failure =>
              exact .failure failure
          | values sameRest =>
              apply SameNodes.values
              simp only [List.map_append, same, sameRest]

end SameNodes

/--
A transformer that rewrites leaves: it has handlers for leaves only, which give by
themselves, in every context, what is answered for their leaf.
-/
structure LeafRewriting where
  settings : Settings
  accepts : ∀ kind, settings.listener ≠ .logging (some kind)
  handlers : HandlerMap Handler
  ofLeaves : ∀ entry ∈ handlers, entry.1.isOfLeaves = true
  /-- What is given for a leaf that has a handler. -/
  answer : Node → List Value
  answers :
    ∀ leaf context registration,
      handlers.resolve? leaf.kind = some registration →
      registration.handler.Gives handlers settings leaf context
        (answer leaf)

namespace LeafRewriting

/-- The transformer that a rewriting is carried out by. -/
def transformer (rewriting : LeafRewriting) : Walker :=
  .original .transformer rewriting.settings

/-- What takes the place of a leaf. Without a handler it stays. -/
def given (rewriting : LeafRewriting) (leaf : Node) : List Value :=
  match rewriting.handlers.resolve? leaf.kind with
  | some _ => rewriting.answer leaf
  | none => [.node leaf]

/--
What takes the place of a tree whose root is at a depth: what is given for a leaf, or
the node with its children replaced.
-/
def rewrite
    (rewriting : LeafRewriting)
    (depth : Nat)
    (tree : Node) :
    Except Failure (List Value) :=
  if tree.isLeaf then
    .ok (rewriting.given tree)
  else
    tree.withReplacements
      (inTurn
        (tree.children.attach.map fun child =>
          rewriting.settings.downTo (depth + 1)
            (rewriting.rewrite (depth + 1) child.1)))
termination_by tree.size
decreasing_by exact Node.size_lt_of_mem_children child.2

variable
  {rewriting : LeafRewriting}
  {tree : Node}
  {depth bound : Nat}
  {values : List Value}

theorem rewrite_of_isLeaf
    (leaf : tree.isLeaf = true) :
    rewriting.rewrite depth tree = .ok (rewriting.given tree) := by
  rw [rewrite, if_pos leaf]

theorem rewrite_of_not_isLeaf
    (inner : tree.isLeaf = false) :
    rewriting.rewrite depth tree =
      tree.withReplacements
        (inTurn
          (tree.children.map fun child =>
            rewriting.settings.downTo (depth + 1)
              (rewriting.rewrite (depth + 1) child))) := by
  rw [rewrite, if_neg (Bool.eq_false_iff.mp inner)]
  have detached :=
    List.attach_map_val (l := tree.children) (f := fun child =>
      rewriting.settings.downTo (depth + 1)
        (rewriting.rewrite (depth + 1) child))
  exact congrArg (tree.withReplacements ∘ inTurn) detached

/-- Only leaves have handlers. -/
theorem isLeaf_of_resolve?
    {registration : Registration Handler}
    (found : rewriting.handlers.resolve? tree.kind = some registration) :
    tree.isLeaf = true :=
  NodeType.isLeaf_of_includes
    (rewriting.ofLeaves _ (HandlerMap.mem_of_resolve? found))
    (HandlerMap.includes_of_resolve? found)

/-- What a node gives in the transformer takes its place. -/
theorem visitNode_collects_rewrite
    {context : Context}
    (isAt : context.IsAtDepth depth)
    (iterable :
      tree.children ≠ [] → context.IsIterable rewriting.settings)
    (enough : tree.height < bound) :
    ((rewriting.transformer.services bound).visitNode tree
        context).Collects rewriting.handlers
      (rewriting.rewrite depth tree) := by
  induction tree using Node.induction_on_children
    generalizing bound depth context with
  | step tree inductionHypothesis =>
      obtain ⟨bound, rfl⟩ : ∃ less, bound = less + 1 :=
        ⟨bound - 1, by omega⟩
      change
        (rewriting.transformer.visitNode
          (rewriting.transformer.services bound) tree context).Collects
          _ _
      have sameSettings :
          (rewriting.transformer.services bound).settings =
            rewriting.settings :=
        Walker.settings_services rewriting.transformer bound
      cases found : rewriting.handlers.resolve? tree.kind with
      | some registration =>
          rw [rewrite_of_isLeaf (isLeaf_of_resolve? found), given, found]
          have gives :=
            rewriting.answers tree context registration found
          rw [← sameSettings] at gives
          exact Walker.visitNode_collects_of_resolved rewriting.accepts
            found gives.yields
      | none =>
          have visited :=
            Walker.visitChildren_downTo sameSettings isAt
              (fun inner _ => iterable inner)
              fun index child isChild _ =>
                have inner : tree.children ≠ [] :=
                  List.ne_nil_of_mem (List.mem_of_getElem? isChild)
                inductionHypothesis child (List.mem_of_getElem? isChild)
                  (isAt.child rewriting.settings tree (.ofNat index))
                  (fun _ => (iterable inner).child tree (.ofNat index))
                  (Nat.lt_of_lt_of_le
                    (Node.height_lt_of_mem_children
                      (List.mem_of_getElem? isChild))
                    (Nat.le_of_lt_succ enough))
          have replaced :
              ((rewriting.transformer.callGeneric
                  (rewriting.transformer.services bound) tree
                  context).bind id).Collects rewriting.handlers
                (tree.withReplacements _) :=
            Walker.callGeneric_collects_of_transformer rfl rfl
              (Walker.rebuild_yields visited)
          apply Walker.visitNode_collects_of_missed rewriting.accepts found
          cases leaf : tree.isLeaf with
          | false =>
              rw [rewrite_of_not_isLeaf leaf]
              exact replaced
          | true =>
              have childless := Node.children_of_isLeaf leaf
              have unchanged := tree.withChildren_children
              rw [childless] at unchanged replaced
              rw [rewrite_of_isLeaf leaf, given, found]
              simp only [List.map_nil, inTurn, Node.withReplacements,
                Except.bind, unchanged] at replaced
              exact replaced

/-- A node that is no leaf is rewritten with what its children are rewritten to. -/
theorem exists_of_rewrite
    (inner : tree.isLeaf = false)
    (rewritten : rewriting.rewrite depth tree = .ok values) :
    ∃ (given : List (List Value)) (result : Node),
      List.Forall₂
          (fun child part =>
            rewriting.settings.Admits (depth + 1) ∧
              rewriting.rewrite (depth + 1) child = .ok part)
          tree.children given ∧
        tree.withChildren (given.flatten.map Value.asNode) = .ok result ∧
        values = [.node result] := by
  rw [rewrite_of_not_isLeaf inner] at rewritten
  obtain ⟨replacements, result, succeeded, built, rfl⟩ :=
    Node.exists_of_withReplacements rewritten
  obtain ⟨given, rfl, each⟩ := forall₂_of_inTurn succeeded
  refine ⟨given, result, each.imp ?_, built, rfl⟩
  intro child part isPart
  by_cases admits : rewriting.settings.Admits (depth + 1)
  · rw [Settings.downTo, if_pos admits] at isPart
    exact ⟨admits, isPart⟩
  · rw [Settings.downTo, if_neg admits] at isPart
    cases isPart

/-- What a node with children in place of its own is a leaf as little as it is. -/
theorem isLeaf_of_withChildren
    {result : Node}
    {given : List Node}
    (built : tree.withChildren given = .ok result) :
    result.isLeaf = tree.isLeaf :=
  congrArg NodeKind.isLeaf
    (Node.KeepsPropertiesOf.of_withChildren built).kind_eq

/-- A rewriting that gives leaves for leaves makes no tree higher. -/
theorem height_le_of_rewrite
    (givesLeaves :
      ∀ leaf : Node,
        leaf.isLeaf = true →
        ∀ value ∈ rewriting.given leaf, value.asNode.isLeaf = true)
    (rewritten : rewriting.rewrite depth tree = .ok values)
    {value : Value}
    (member : value ∈ values) :
    value.asNode.height ≤ tree.height := by
  induction tree using Node.induction_on_children
    generalizing depth values value with
  | step tree inductionHypothesis =>
      cases leaf : tree.isLeaf with
      | true =>
          rw [rewrite_of_isLeaf leaf] at rewritten
          cases rewritten
          rw [Node.height_of_isLeaf (givesLeaves tree leaf value member)]
          exact Nat.zero_le _
      | false =>
          obtain ⟨given, result, each, built, rfl⟩ :=
            exists_of_rewrite leaf rewritten
          rw [List.mem_singleton.mp member]
          change result.height ≤ tree.height
          rw [Node.height_eq, Node.children_of_withChildren built,
            Node.heightAbove_le_iff]
          intro node isReplacement
          obtain ⟨replacement, isGiven, rfl⟩ :=
            List.mem_map.mp isReplacement
          obtain ⟨part, isPart, inPart⟩ := List.mem_flatten.mp isGiven
          obtain ⟨child, isChild, -, partRewritten⟩ :=
            exists_partner_of_mem each isPart
          exact Nat.lt_of_le_of_lt
            (inductionHypothesis child isChild partRewritten inPart)
            (Node.height_lt_of_mem_children isChild)

/-- One rewriting gives at once what two others give one after the other. -/
structure Composes (first second both : LeafRewriting) : Prop where
  secondLimit : second.settings.maxDepth = first.settings.maxDepth
  bothLimit : both.settings.maxDepth = first.settings.maxDepth
  givesLeaves :
    ∀ leaf : Node,
      leaf.isLeaf = true →
      ∀ value ∈ first.given leaf, value.asNode.isLeaf = true
  given_eq :
    ∀ leaf : Node,
      leaf.isLeaf = true →
      (both.given leaf).map Value.asNode =
        ((first.given leaf).flatMap fun value =>
          second.given value.asNode).map Value.asNode

/--
A tree comes to the same at once as what the first rewriting makes of it comes to in
turn. At once it fails for a misfit only.
-/
structure ComesAlike
    (second both : LeafRewriting)
    (depth : Nat)
    (tree : Node)
    (values : List Value) : Prop where
  same :
    SameNodes (both.rewrite depth tree)
      (inTurn
        (values.map fun value => second.rewrite depth value.asNode))
  misfit :
    ∀ failure,
      both.rewrite depth tree = .error failure →
      failure.IsMisfit

namespace Composes

variable
  {first second both : LeafRewriting}
  (composes : first.Composes second both)

include composes

/-- All three transformers go equally deep. -/
theorem admits_iff
    (depth : Nat) :
    (second.settings.Admits depth ↔ first.settings.Admits depth) ∧
      (both.settings.Admits depth ↔ first.settings.Admits depth) := by
  simp only [Settings.Admits, composes.secondLimit, composes.bothLimit,
    and_self]

/-- A leaf comes to the same at once. -/
theorem comesAlike_of_isLeaf
    (leaf : tree.isLeaf = true) :
    ComesAlike second both depth tree (first.given tree) where
  same := by
    have eachGiven :
        (first.given tree).map
            (fun value => second.rewrite depth value.asNode) =
          ((first.given tree).map fun value =>
            second.given value.asNode).map .ok := by
      rw [List.map_map]
      apply List.map_congr_left
      intro value member
      exact rewrite_of_isLeaf
        (composes.givesLeaves tree leaf value member)
    rw [rewrite_of_isLeaf leaf, eachGiven, inTurn_map_ok,
      ← List.flatMap_def]
    exact .values (composes.given_eq tree leaf)
  misfit := by
    rw [rewrite_of_isLeaf leaf]
    exact nofun

/-- A child comes to the same at once where all three transformers go down to it. -/
theorem downTo_alike
    (alike : ComesAlike second both depth tree values)
    (admits : first.settings.Admits depth) :
    SameNodes
        (both.settings.downTo depth (both.rewrite depth tree))
        (inTurn
          (values.map fun value =>
            second.settings.downTo depth
              (second.rewrite depth value.asNode))) ∧
      ∀ failure,
        both.settings.downTo depth (both.rewrite depth tree) =
          .error failure →
        failure.IsMisfit := by
  obtain ⟨secondAdmits, bothAdmits⟩ :=
    composes.admits_iff depth
  simp only [Settings.downTo, if_pos (bothAdmits.mpr admits),
    if_pos (secondAdmits.mpr admits)]
  exact ⟨alike.same, alike.misfit⟩

/-- A node comes to the same at once where its children do. -/
theorem comesAlike_of_children
    (inner : tree.isLeaf = false)
    {given : List (List Value)}
    {result : Node}
    (each :
      List.Forall₂
        (fun child part =>
          first.settings.Admits (depth + 1) ∧
            ComesAlike second both (depth + 1) child part)
        tree.children given)
    (built :
      tree.withChildren (given.flatten.map Value.asNode) = .ok result) :
    ComesAlike second both depth tree [.node result] where
  same := by
    have innerResult : result.isLeaf = false :=
      (isLeaf_of_withChildren built).trans inner
    have sameBelow :
        SameNodes
          (inTurn
            (tree.children.map fun child =>
              both.settings.downTo (depth + 1)
                (both.rewrite (depth + 1) child)))
          (inTurn
            (result.children.map fun child =>
              second.settings.downTo (depth + 1)
                (second.rewrite (depth + 1) child))) := by
      -- The second rewriting finds the parts put together as one list.
      rw [Node.children_of_withChildren built, List.map_map,
        List.map_flatten, ← inTurn_map_inTurn, List.map_map]
      apply SameNodes.inTurn
      rw [List.forall₂_map_left_iff, List.forall₂_map_right_iff]
      exact each.imp fun _ _ ⟨admits, alike⟩ =>
        (composes.downTo_alike alike admits).1
    rw [List.map_singleton, inTurn_singleton]
    change SameNodes _ (second.rewrite depth result)
    rw [rewrite_of_not_isLeaf inner, rewrite_of_not_isLeaf innerResult,
      sameBelow.withReplacements_eq tree,
      Node.withReplacements_of_withChildren built]
    exact .refl _
  misfit := by
    intro failure failed
    rw [rewrite_of_not_isLeaf inner] at failed
    rcases Node.failure_of_withReplacements failed with below | misfit
    · obtain ⟨child, isChild, childFails⟩ :=
        List.mem_map.mp (error_mem_of_inTurn below)
      obtain ⟨part, _, admits, alike⟩ :=
        exists_partner_of_mem each.flip isChild
      exact (composes.downTo_alike alike admits).2 failure childFails
    · exact misfit

/-- All that the first rewriting makes something of comes to the same at once. -/
theorem comesAlike
    (rewritten : first.rewrite depth tree = .ok values) :
    ComesAlike second both depth tree values := by
  induction tree using Node.induction_on_children
    generalizing depth values with
  | step tree inductionHypothesis =>
      cases leaf : tree.isLeaf with
      | true =>
          rw [rewrite_of_isLeaf leaf] at rewritten
          cases rewritten
          exact composes.comesAlike_of_isLeaf leaf
      | false =>
          obtain ⟨given, result, each, built, rfl⟩ :=
            exists_of_rewrite leaf rewritten
          apply composes.comesAlike_of_children leaf _ built
          have eachMember :=
            (List.forall₂_and_left _ _).mpr
              ⟨fun _ member => member, each⟩
          exact eachMember.imp fun child part ⟨member, admits, isPart⟩ =>
            ⟨admits, inductionHypothesis child member isPart⟩

end Composes

/-- What a caller is told who has a tree rewritten. -/
def replies
    (rewriting : LeafRewriting)
    (bound : Nat)
    (tree : Node)
    (keys : Fields Value) :
    List Reply :=
  ((Session.create rewriting.transformer rewriting.handlers).answers bound
    [.traverse tree keys]).map Answer.reply

/-- The caller is told what takes the place of the tree, if it is one node. -/
theorem replies_eq
    {keys : Fields Value}
    (iterable :
      tree.children ≠ [] → Chain.AreIterable rewriting.settings keys)
    (enough : tree.height < bound) :
    rewriting.replies bound tree keys =
      [.ofEnding .result
        (.ofExcept
          ((rewriting.rewrite 0 tree).bind
            (Mode.outcome .transformer)))] := by
  have collects :=
    rewriting.visitNode_collects_rewrite
      (.root rewriting.settings keys) iterable enough
  exact
    congrArg ([·])
      (Session.reply_traverse (.ofMap rewriting.handlers) collects)

/-- Who is told a tree has put nothing in the way of going down from its root. -/
theorem areIterable_of_result
    (enough : tree.height < bound)
    {keys : Fields Value}
    {result : Value}
    (told : rewriting.replies bound tree keys = [.result result])
    (inner : tree.children ≠ []) :
    Chain.AreIterable rewriting.settings keys := by
  obtain ⟨bound, rfl⟩ : ∃ less, bound = less + 1 :=
    ⟨bound - 1, by omega⟩
  cases stuck : Chain.stuck? rewriting.settings keys with
  | none =>
      exact stuck
  | some chain =>
      have missed : rewriting.handlers.resolve? tree.kind = none := by
        cases found : rewriting.handlers.resolve? tree.kind with
        | none =>
            rfl
        | some registration =>
            have leaf := rewriting.isLeaf_of_resolve? found
            exact (inner (Node.children_of_isLeaf leaf)).elim
      have refused :=
        Session.reply_traverse_of_stuck
          (.create rewriting.transformer rewriting.handlers)
          (.ofMap rewriting.handlers) rfl rewriting.accepts missed inner
          stuck bound
      cases refused.symm.trans (List.singleton_inj.mp told)

/-- Who is told a tree was told the one node that takes its place. -/
theorem rewrite_of_result
    {result : Value}
    (told :
      Reply.ofEnding .result
          (.ofExcept
            ((rewriting.rewrite 0 tree).bind
              (Mode.outcome .transformer))) =
        .result result) :
    rewriting.rewrite 0 tree = .ok [result] := by
  generalize rewriting.rewrite 0 tree = outcome at told
  match outcome with
  | .error _ | .ok [] | .ok (_ :: _ :: _) =>
      cases told
  | .ok [only] =>
      cases told
      rfl

end LeafRewriting

/--
Two traversals come to the same: the same tree, the same misfit, or the same wrong
number of roots.
-/
inductive Reply.SameOutcome : Reply → Reply → Prop where
  | tree
      {one other : Value}
      (same : one.asNode = other.asNode) :
      SameOutcome (.result one) (.result other)
  | nodeArity
      (kind : NodeKind)
      (expected actual : Number) :
      SameOutcome
        (.refused (.nodeArity kind expected actual))
        (.refused (.nodeArity kind expected actual))
  | transformArity
      (count : Number) :
      SameOutcome
        (.refused (.transformArity count none))
        (.refused (.transformArity count none))

/-- The same nodes, or the same misfit, make the same outcome of a traversal. -/
theorem SameNodes.sameOutcome
    {given other : Except Failure (List Value)}
    (same : SameNodes given other)
    (misfit :
      ∀ failure, given = .error failure → failure.IsMisfit) :
    Reply.SameOutcome
      (.ofEnding .result
        (.ofExcept (given.bind (Mode.outcome .transformer))))
      (.ofEnding .result
        (.ofExcept (other.bind (Mode.outcome .transformer)))) := by
  cases same with
  | failure failure =>
      obtain ⟨kind, arity, actual, -, -, rfl⟩ :=
        (misfit failure rfl).exists_arity
      exact .nodeArity kind (.ofNat arity) (.ofNat actual)
  | @values given others same =>
      have sameLength : given.length = others.length := by
        simpa using congrArg List.length same
      match given, others with
      | [], [] =>
          exact .transformArity (.ofNat 0)
      | [only], [other] =>
          exact .tree (List.singleton_inj.mp same)
      | first :: second :: rest, other :: another :: further =>
          change
            Reply.SameOutcome
              (.refused
                (.transformArity
                  (.ofNat (first :: second :: rest).length) none))
              (.refused
                (.transformArity
                  (.ofNat (other :: another :: further).length) none))
          rw [sameLength]
          exact .transformArity _
      | [], _ :: _ | _ :: _, [] | [_], _ :: _ :: _ | _ :: _ :: _, [_] =>
          cases sameLength

namespace Session

/--
Leaf rewritings fuse. Let one transformer rewrite every leaf to what two others make of
it one after the other, the first of which gives only leaves. Wherever the first makes a
tree, the one makes of the tree that it was given what the second makes of that tree:
the same tree with all its properties, or it fails alike. What callers give to the later
two under the keys of chains that these keep track of is to be something to go on from.
-/
theorem leaf_rewritings_fuse
    {first second both : LeafRewriting}
    (composes : first.Composes second both)
    {tree : Node}
    {bound : Nat}
    (enough : tree.height < bound)
    {firstKeys : Fields Value}
    {middle : Value}
    (succeeds : first.replies bound tree firstKeys = [.result middle])
    {secondKeys bothKeys : Fields Value}
    (secondIterable : Chain.AreIterable second.settings secondKeys)
    (bothIterable : Chain.AreIterable both.settings bothKeys) :
    ∃ once twice,
      both.replies bound tree bothKeys = [once] ∧
        second.replies bound middle.asNode secondKeys = [twice] ∧
        once.SameOutcome twice := by
  have firstIterable := LeafRewriting.areIterable_of_result enough succeeds
  rw [LeafRewriting.replies_eq firstIterable enough] at succeeds
  have rewritten : first.rewrite 0 tree = .ok [middle] :=
    LeafRewriting.rewrite_of_result (List.singleton_inj.mp succeeds)
  have alike := composes.comesAlike rewritten
  have lower :=
    LeafRewriting.height_le_of_rewrite composes.givesLeaves rewritten
      List.mem_cons_self
  have same := alike.same
  rw [List.map_singleton, inTurn_singleton] at same
  exact
    ⟨_, _, LeafRewriting.replies_eq (fun _ => bothIterable) enough,
      LeafRewriting.replies_eq (fun _ => secondIterable)
        (Nat.lt_of_le_of_lt lower enough),
      same.sameOutcome alike.misfit⟩

/-- Every word becomes two, the first of which is marked. -/
def markedAndPlain : LeafRewriting where
  settings :=
    { trackParents := false
      trackNewParents := false
      trackPaths := false
      maxDepth := 1
      maxDepth_pos := Nat.one_pos
      listener := .logging none }
  accepts := fun _ => nofun
  handlers :=
    [(.exactly (.term .word),
      { eager := false
        actions := [.deliver (.append "!" .node), .deliver .node] })]
  ofLeaves := by decide
  answer leaf := [.node (leaf.appendText "!"), .node leaf]
  answers := by
    intro leaf context registration found
    rcases leaf with ⟨_ | _⟩ <;> cases found
    exact ⟨rfl, rfl⟩

/-- Every word becomes a group, and phrases are deleted. -/
def groupedWithoutPhrases : LeafRewriting where
  settings := { markedAndPlain.settings with trackPaths := true }
  accepts := fun _ => nofun
  handlers :=
    [(.exactly (.term .word),
        { eager := false
          actions := [.deliver (.build (.group .plain) [.node])] }),
      (.anyOf .term, { eager := true, actions := [] })]
  ofLeaves := by decide
  answer leaf :=
    if leaf.kind = .term .word then [.node (Query.group leaf)] else []
  answers := by
    intro leaf context registration found
    rcases leaf with ⟨_ | _⟩ <;> cases found <;> exact ⟨rfl, rfl⟩

/-- Every word becomes two groups at once, and phrases are deleted. -/
def groupedTwiceAtOnce : LeafRewriting where
  settings := { markedAndPlain.settings with trackParents := true }
  accepts := fun _ => nofun
  handlers :=
    [(.exactly (.term .word),
        { eager := true
          actions :=
            [.deliver (.build (.group .plain) [.append "!" .node]),
              .deliver (.build (.group .plain) [.node])] }),
      (.anyOf .term, { eager := false, actions := [] })]
  ofLeaves := by decide
  answer leaf :=
    if leaf.kind = .term .word then
      [.node (Query.group (leaf.appendText "!")),
        .node (Query.group leaf)]
    else
      []
  answers := by
    intro leaf context registration found
    rcases leaf with ⟨_ | _⟩ <;> cases found <;> exact ⟨rfl, rfl⟩

/-- Marking and grouping, one after the other, is grouping twice. -/
theorem markedAndPlain_composes :
    markedAndPlain.Composes groupedWithoutPhrases groupedTwiceAtOnce where
  secondLimit := rfl
  bothLimit := rfl
  givesLeaves := by
    intro leaf isLeaf value member
    have isGiven : value.asNode.isLeaf = leaf.isLeaf := by
      cases leaf with
      | term kind text extra =>
          cases kind with
          | word =>
              rcases List.mem_pair.mp member with rfl | rfl <;> rfl
          | phrase | regex =>
              rw [List.mem_singleton.mp member]
              rfl
      | noneItem =>
          rw [List.mem_singleton.mp member]
          rfl
      | _ =>
          cases isLeaf
    exact isGiven.trans isLeaf
  given_eq := by
    intro leaf isLeaf
    cases leaf with
    | term kind =>
        cases kind <;> rfl
    | noneItem =>
        rfl
    | _ =>
        cases isLeaf

/-- An operation over a word and a phrase. -/
def wordAndPhrase : Node :=
  .operation .and [.term .word "a" [("note", .null)], .term .phrase "b" []]
    [("note", .null)]

/-- The same with a word that is marked before the word. -/
def markedWordAndPhrase : Node :=
  .operation .and
    [.term .word "a!" [("note", .null)], .term .word "a" [("note", .null)],
      .term .phrase "b" []]
    [("note", .null)]

/-- An operation over both words, each in a group. -/
def twoGroupedWords : Node :=
  .operation .and
    [Query.group (.term .word "a!" [("note", .null)]),
      Query.group (.term .word "a" [("note", .null)])]
    [("note", .null)]

/-- Of a word and a phrase come, at once as in turn, two groups of words. -/
theorem leaf_rewritings_fuse_wordAndPhrase :
    let once : Reply := .result (.node twoGroupedWords)
    let twice : Reply := .result (.node twoGroupedWords)
    wordAndPhrase.height < 3 ∧
      markedAndPlain.replies 3 wordAndPhrase [] =
        [.result (.node markedWordAndPhrase)] ∧
      groupedTwiceAtOnce.replies 3 wordAndPhrase [] = [once] ∧
      groupedWithoutPhrases.replies 3 markedWordAndPhrase [] = [twice] ∧
      once.SameOutcome twice := by
  have enough : wordAndPhrase.height < 3 := by
    decide
  have succeeds :
      markedAndPlain.replies 3 wordAndPhrase [] =
        [.result (.node markedWordAndPhrase)] := by
    rfl
  have isOnce :
      groupedTwiceAtOnce.replies 3 wordAndPhrase [] =
        [.result (.node twoGroupedWords)] := by
    rfl
  have isTwice :
      groupedWithoutPhrases.replies 3 markedWordAndPhrase [] =
        [.result (.node twoGroupedWords)] := by
    rfl
  obtain ⟨once, twice, atOnce, inTurn, same⟩ :=
    leaf_rewritings_fuse markedAndPlain_composes enough succeeds
      (rfl : Chain.AreIterable groupedWithoutPhrases.settings [])
      (rfl : Chain.AreIterable groupedTwiceAtOnce.settings [])
  cases List.singleton_inj.mp (isOnce.symm.trans atOnce)
  cases List.singleton_inj.mp (isTwice.symm.trans inTurn)
  exact ⟨enough, succeeds, isOnce, isTwice, same⟩

end Session

end QueryWalk
