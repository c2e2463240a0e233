import QueryWalk.Proofs.TruthfulPositions

namespace QueryWalk

/-!
# Ancestors as they were handed on

A handler may hand the walk a copy of its node that has other attributes and the
same children. The walk then goes on below it as it would below the node itself,
but its chains show the copy: both keep every node as it was handed on when the
walk went down to its children. So `parents` shows the nodes of the tree exactly
where all of them were handed on as they are.
-/

namespace Move

/-- The node that a move goes down from, and the index it takes. -/
def descent? : Move → Option (Node × Number)
  | .descended parent index => some (parent, index)
  | .changed .. | .restarted _ => none

/-- The descents among some moves. -/
def descents (moves : List Move) : List (Node × Number) :=
  moves.filterMap descent?

@[simp] theorem descents_append
    (first second : List Move) :
    descents (first ++ second) = descents first ++ descents second :=
  List.filterMap_append

/-- A move within a traversal that leaves positions and chains to the walk. -/
def KeepsPlace : Move → Prop
  | .changed _ change => change.KeepsPlace
  | .descended .. => True
  | .restarted _ => False

end Move

namespace Context

/--
A context records some descents, in a traversal that began with the caller's keys.
Its path has their indices, and its chains go on from what the caller's can be spread
into with the nodes gone down from.
-/
structure Records
    (settings : Settings)
    (keys : Fields Value)
    (descents : List (Node × Number))
    (context : Context) : Prop where
  path :
    context.position.path =
      if settings.trackPaths then some (descents.map Prod.snd) else none
  tracked :
    ∀ chain : Chain,
      chain.isTracked settings = true →
      descents ≠ [] →
      ∃ former,
        chain.former? keys = some former ∧
          context.keys.get? chain.key =
            some (.list (former ++ (descents.map Prod.fst).map .node))
  untouched :
    ∀ chain : Chain,
      chain.isTracked settings = false ∨ descents = [] →
      context.keys.get? chain.key = keys.get? chain.key

namespace Records

variable
  {settings : Settings}
  {keys : Fields Value}
  {descents : List (Node × Number)}
  {context after : Context}

/-- The root context records no descent. -/
theorem root
    (settings : Settings)
    (keys : Fields Value) :
    (Context.root settings keys).Records settings keys [] where
  path := rfl
  tracked _ _ nonempty := (nonempty rfl).elim
  untouched _ _ := rfl

/-- What the chain of a context holds, whether or not it records a descent. -/
theorem former?_eq
    (records : context.Records settings keys descents)
    {chain : Chain}
    (isTracked : chain.isTracked settings = true) :
    chain.former? context.keys =
      (chain.former? keys).map fun former =>
        former ++ (descents.map Prod.fst).map .node := by
  by_cases atRoot : descents = []
  · rw [Chain.former?_congr (records.untouched chain (.inr atRoot)), atRoot]
    simp
  · obtain ⟨former, holds, isExtended⟩ :=
      records.tracked chain isTracked atRoot
    rw [Chain.former?_of_list isExtended, holds]
    rfl

/-- A move that keeps its place is recorded if it is a descent. -/
theorem takes
    {move : Move}
    (records : context.Records settings keys descents)
    (keeps : move.KeepsPlace)
    (takes : move.Takes settings context after) :
    after.Records settings keys (descents ++ Move.descents [move]) := by
  cases takes with
  | @changed scope change _ applied =>
      have sameChain := Change.KeepsPlace.get?_chain keeps applied
      rw [show Move.descents [.changed scope change] = [] from rfl,
        List.append_nil]
      refine ⟨?_, ?_, ?_⟩
      · rw [Change.KeepsPlace.position_apply keeps applied]
        exact records.path
      · intro chain isTracked nonempty
        rw [sameChain]
        exact records.tracked chain isTracked nonempty
      · intro chain free
        rw [sameChain]
        exact records.untouched chain free
  | @descended parent index _ _ made =>
      rw [show Move.descents [.descended parent index] =
        [(parent, index)] from rfl]
      refine ⟨?_, ?_, ?_⟩
      · rw [Context.position_of_descend made, Position.child, records.path]
        by_cases tracks : settings.trackPaths = true <;> simp [tracks]
      · intro chain isTracked _
        obtain ⟨former, holds, isExtended⟩ :=
          Context.exists_former_of_descend made isTracked
        rw [records.former?_eq isTracked, Option.map_eq_some_iff] at holds
        obtain ⟨first, holdsFirst, rfl⟩ := holds
        refine ⟨first, holdsFirst, ?_⟩
        rw [isExtended, List.map_append, List.map_append, List.append_assoc]
        rfl
      · intro chain free
        have notTracked : chain.isTracked settings = false := by
          rcases free with notTracked | atRoot
          · exact notTracked
          · simp at atRoot
        rw [Context.get?_chain_of_descend made notTracked]
        exact records.untouched chain (.inl notTracked)
  | restarted =>
      exact keeps.elim

/-- Moves that keep their place have their descents recorded. -/
theorem takeAll
    {moves : List Move}
    (records : context.Records settings keys descents)
    (keep : ∀ move ∈ moves, move.KeepsPlace)
    (take : Move.TakeAll settings context moves after) :
    after.Records settings keys (descents ++ Move.descents moves) := by
  induction moves generalizing context descents with
  | nil =>
      cases take
      rw [show Move.descents [] = [] from rfl, List.append_nil]
      exact records
  | cons move rest inductionHypothesis =>
      obtain ⟨between, takes, onward⟩ := take
      have moved := records.takes (keep move List.mem_cons_self) takes
      have further :=
        inductionHypothesis moved
          (fun later member => keep later (List.mem_cons_of_mem move member))
          onward
      rw [List.append_assoc, ← Move.descents_append] at further
      exact further

end Records

end Context

namespace Call

/--
A call that a handler makes as if its node were another one with the same
children: for that copy, or for one of the children below it.
-/
def OwnOfCopy (node : Node) (moves : List Move) (next : Call) : Prop :=
  ∃ copy : Node,
    copy.children = node.children ∧ next.OwnOf copy moves

/--
A call stands at an address of a tree, after some descents. These take the indices
of the address, each from a node with the children of the one at the address. The
call is for such a node itself; a visit is for the node of the tree.
-/
structure StandsAt
    (tree : Node)
    (address : List Nat)
    (descents : List (Node × Number))
    (call : Call) : Prop where
  indices :
    descents.map (fun descent => descent.2.toIndex?) = address.map some
  ancestors :
    descents.map (fun descent => descent.1.children) =
      (tree.above address).map Node.children
  sameChildren :
    (tree.at? address).map Node.children = some call.node.children
  isThere :
    call.service = .visitNode ∨ call.service = .restart →
    tree.at? address = some call.node

namespace StandsAt

variable
  {tree : Node}
  {address : List Nat}
  {descents : List (Node × Number)}
  {call next : Call}

/-- A traversal begins at its root. -/
theorem traversal
    (settings : Settings)
    (tree : Node)
    (keys : Fields Value) :
    (Call.traversal settings tree keys).StandsAt tree [] [] where
  indices := rfl
  ancestors := rfl
  sameChildren := rfl
  isThere _ := rfl

/-- A call for a node with the same children that visits none stands there too. -/
theorem copied
    (stands : call.StandsAt tree address descents)
    (sameChildren : next.node.children = call.node.children)
    (goesOn :
      next.service = .generic ∨ next.service = .structural ∨
        next.service = .rebuild) :
    next.StandsAt tree address descents where
  indices := stands.indices
  ancestors := stands.ancestors
  sameChildren := by
    rw [sameChildren]
    exact stands.sameChildren
  isThere visits := by
    have visitsNone :
        ¬ (next.service = .visitNode ∨ next.service = .restart) := by
      rcases goesOn with is | is | is <;> simp [is]
    exact (visitsNone visits).elim

/-- The visit of a child, from a node with the same children, stands below. -/
theorem child
    {copy child : Node}
    {context : Context}
    {index : Number}
    {place : Nat}
    (stands : call.StandsAt tree address descents)
    (sameChildren : copy.children = call.node.children)
    (denotes : index.toIndex? = some place)
    (isChild : copy.children[place]? = some child) :
    StandsAt tree (address ++ [place]) (descents ++ [(copy, index)])
      { service := .visitNode, node := child, context := context } := by
  obtain ⟨original, isThere, originalChildren⟩ :=
    Option.map_eq_some_iff.mp stands.sameChildren
  have isOriginalChild : original.children[place]? = some child := by
    rw [originalChildren, ← sameChildren]
    exact isChild
  have childIsThere := Node.at?_append_singleton isThere isOriginalChild
  refine ⟨?_, ?_, ?_, fun _ => childIsThere⟩
  · rw [List.map_append, List.map_append, stands.indices]
    exact congrArg (address.map some ++ [·]) denotes
  · rw [List.map_append, Node.above_append_singleton isThere,
      List.map_append, stands.ancestors]
    exact congrArg (_ ++ [·]) (sameChildren.trans originalChildren.symm)
  · rw [childIsThere]
    rfl

end StandsAt

/-- A handler's own call, its node copied or not, is made in place and below. -/
theorem OwnOfCopy.standsAt
    {tree : Node}
    {address : List Nat}
    {descents : List (Node × Number)}
    {call next : Call}
    {moves : List Move}
    (own : next.OwnOfCopy call.node moves)
    (stands : call.StandsAt tree address descents) :
    (∀ move ∈ moves, move.KeepsPlace) ∧
      ∃ further,
        next.StandsAt tree further (descents ++ Move.descents moves) := by
  obtain ⟨copy, sameChildren, own⟩ := own
  cases own with
  | @itself service scope change context goesOn keeps =>
      refine ⟨?_, address, ?_⟩
      · intro move member
        rw [List.mem_singleton.mp member]
        exact keeps
      · rw [show Move.descents [.changed scope change] = [] from rfl,
          List.append_nil]
        exact stands.copied sameChildren goesOn
  | @child child scope change index place context keeps denotes isChild =>
      refine ⟨?_, address ++ [place], ?_⟩
      · intro move member
        rcases List.mem_pair.mp member with rfl | rfl
        · exact keeps
        · trivial
      · exact stands.child sameChildren denotes isChild

end Call

namespace Walker

/--
The handlers called from a first call on make calls of their own only, or such as
if their nodes were others with the same children.
-/
def OnlyHandsOn
    (walker : Walker)
    (handlers : HandlerMap Handler)
    (first : Call) :
    Prop :=
  ∀ ⦃route call type handler moves next⦄,
    walker.Route handlers first route call →
    walker.Invokes handlers call type handler →
    handler.Makes walker.settings call.node call.context moves next →
    next.OwnOfCopy call.node moves

variable
  {walker : Walker}
  {handlers : HandlerMap Handler}
  {tree : Node}
  {keys : Fields Value}

/-- A call that stands at an address leads to others that stand in place or below. -/
theorem Leads.standsAt
    {address : List Nat}
    {descents : List (Node × Number)}
    {moves : List Move}
    {call next : Call}
    (leads : walker.Leads handlers call moves next)
    (own :
      ∀ {type handler},
        walker.Invokes handlers call type handler →
        handler.Makes walker.settings call.node call.context moves next →
        next.OwnOfCopy call.node moves)
    (stands : call.StandsAt tree address descents) :
    (∀ move ∈ moves, move.KeepsPlace) ∧
      ∃ further,
        next.StandsAt tree further (descents ++ Move.descents moves) := by
  cases leads with
  | byHandler invokes makes =>
      exact (own invokes makes).standsAt stands
  | toFallback | toStructural =>
      refine ⟨List.forall_mem_nil _, address, ?_⟩
      rw [show Move.descents [] = [] from rfl, List.append_nil]
      exact stands.copied rfl (by simp)
  | toRoot =>
      refine ⟨List.forall_mem_nil _, address, ?_⟩
      rw [show Move.descents [] = [] from rfl, List.append_nil]
      exact
        ⟨stands.indices, stands.ancestors, stands.sameChildren,
          fun _ => stands.isThere (.inr rfl)⟩
  | @toChild service node child context below index _ isChild descended =>
      refine ⟨?_, address ++ [index], ?_⟩
      · intro move member
        rw [List.mem_singleton.mp member]
        trivial
      · exact stands.child rfl (Number.toIndex?_ofNat index) isChild

/-- Every call on a route of such a traversal stands at an address of its tree. -/
theorem Route.standsAt
    {moves : List Move}
    {call : Call}
    (handsOn :
      walker.OnlyHandsOn handlers (.traversal walker.settings tree keys))
    (route :
      walker.Route handlers (.traversal walker.settings tree keys)
        moves call) :
    (∀ move ∈ moves, move.KeepsPlace) ∧
      ∃ address, call.StandsAt tree address (Move.descents moves) := by
  induction route with
  | here =>
      exact
        ⟨List.forall_mem_nil _, [],
          .traversal walker.settings tree keys⟩
  | onward route leads inductionHypothesis =>
      obtain ⟨keep, address, stands⟩ := inductionHypothesis
      obtain ⟨keepOn, further, standsOn⟩ :=
        leads.standsAt (handsOn route) stands
      rw [Move.descents_append]
      refine ⟨?_, further, standsOn⟩
      intro move member
      rcases List.mem_append.mp member with earlier | later
      · exact keep move earlier
      · exact keepOn move later

/--
Ancestors are shown as they were handed on. Where the handlers of a traversal go on
from their own nodes only, or from copies with the same children, every handler is
called at an address of the tree that a route leads to. Its context records the
descents of the route, and so each tracked chain, `parents` as well as `newParents`,
ends with the nodes that were handed on above: nodes with the children of those of
the tree. They are those of the tree exactly where all of these were handed on
themselves.
-/
theorem ancestors_as_handed_on
    {bound : Nat}
    {type : Option NodeType}
    {node : Node}
    {context : Context}
    (handsOn :
      walker.OnlyHandsOn handlers (.traversal walker.settings tree keys))
    (called :
      walker.CallsDuring handlers bound tree keys type node context) :
    ∃ moves service address,
      let call : Call :=
        { service := service, node := node, context := context }
      let descents := Move.descents moves
      walker.Route handlers (.traversal walker.settings tree keys) moves
          call ∧
        call.StandsAt tree address descents ∧
        (type ≠ none → tree.at? address = some node) ∧
        context.Records walker.settings keys descents ∧
        ∀ chain : Chain,
          chain.isTracked walker.settings = true →
          address ≠ [] →
          ∃ former,
            chain.former? keys = some former ∧
              (context.keys.get? chain.key =
                  some (.list
                    (former ++ (tree.above address).map .node)) ↔
                descents.map Prod.fst = tree.above address) := by
  obtain ⟨moves, service, handler, route, invokes⟩ := called.reaches
  obtain ⟨keep, address, stands⟩ := route.standsAt handsOn
  have records :
      context.Records walker.settings keys (Move.descents moves) :=
    (Context.Records.root walker.settings keys).takeAll keep route.takeAll
  refine ⟨moves, service, address, route, stands, ?_, records, ?_⟩
  · intro underType
    cases invokes with
    | resolved =>
        exact stands.isThere (.inl rfl)
    | replaced =>
        exact (underType rfl).elim
  · intro chain isTracked below
    have someDescent : Move.descents moves ≠ [] := by
      intro noDescent
      have noIndex := stands.indices
      rw [noDescent] at noIndex
      exact below (List.map_eq_nil_iff.mp noIndex.symm)
    obtain ⟨former, holds, isExtended⟩ :=
      records.tracked chain isTracked someDescent
    refine ⟨former, holds, ?_⟩
    rw [isExtended, Option.some.injEq, Value.list.injEq,
      List.append_cancel_left_eq]
    exact List.map_inj_right fun _ _ same => Value.node.inj same

/-- A transformer that keeps both chains and its path. -/
def tracking : Walker where
  mode := .transformer
  settings :=
    { trackParents := true
      trackNewParents := true
      trackPaths := true
      maxDepth := 3
      maxDepth_pos := by decide
      listener := .silent }
  fallback := none

/-- Fields are rebuilt under another name, and words log what they are under. -/
def renamingFields : HandlerMap Handler :=
  [(.exactly .searchField,
      { eager := false
        actions :=
          [.rebuild
              (.build .searchField
                [.constant (.text "new"), .child (.ofNat 0) .node])
              { assigned := [], removed := [], position := none },
            .deliver .rebuilt] }),
    (.exactly (.term .word),
      { eager := false
        actions := [.log (.chain .parents), .deliver .node] })]

/-- A field of a name. -/
def fieldNamed (name : String) : Node :=
  .searchField name (.term .word "a" []) []

/-- The context of the word in a field that is rebuilt under another name. -/
def inRenamed : Context where
  keys :=
    [("newParents", .list [.node (fieldNamed "new")]),
      ("parents", .list [.node (fieldNamed "new")])]
  position := { depth := .ofNat 1, path := some [.ofNat 0] }

/-- The handler of fields goes on from a copy, and that of words does not go on. -/
theorem onlyHandsOn_renamingFields
    (first : Call) :
    tracking.OnlyHandsOn renamingFields first := by
  intro route call type handler moves next _ invokes makes
  cases invokes with
  | replaced given =>
      cases given
  | @resolved node context registration found =>
      have includes := HandlerMap.includes_of_resolve? found
      have registered := HandlerMap.mem_of_resolve? found
      obtain ⟨action, member, byAction⟩ := makes
      rcases List.mem_pair.mp registered with isField | isWord
      · obtain ⟨isType, isHandler⟩ := Prod.mk.inj isField
        rw [isHandler] at member
        rcases List.mem_pair.mp member with rfl | rfl
        · cases byAction with
          | @callback _ _ _ _ scope _ _ isAt calls evaluated _ =>
              cases calls
              cases evaluated
              refine
                ⟨Query.searchField "new"
                  (scope.node.childValue (.ofNat 0)).asNode, ?_, ?_⟩
              · rw [isType] at includes
                rw [isAt.node_eq]
                cases node with
                | searchField =>
                    rfl
                | _ =>
                    cases includes
              · refine .itself (.inr (.inr rfl)) ⟨rfl, ?_, ?_⟩
                · exact fun _ => List.forall_mem_nil _
                · exact fun _ => List.not_mem_nil
        · cases byAction with
          | callback _ calls =>
              cases calls
      · obtain ⟨-, isHandler⟩ := Prod.mk.inj isWord
        rw [isHandler] at member
        rcases List.mem_pair.mp member with rfl | rfl <;>
          cases byAction with
          | callback _ calls =>
              cases calls

/-- The word in the field is called in that context. -/
theorem callsDuring_renamingFields :
    tracking.CallsDuring renamingFields 5 (fieldNamed "old") []
      (some (.exactly (.term .word))) (.term .word "a" []) inRenamed := by
  have second :
      (((tracking.services 5).restart (fieldNamed "old") []).complete
          (.ofMap renamingFields)).events[1]? =
        some (.noted
          (.entered (some (.exactly (.term .word)))
            (.term .word "a" []) inRenamed)) :=
    rfl
  exact .inl (List.mem_of_getElem? second)

/--
The word in a field that is rebuilt under another name is where it is in the tree,
and is told of the field that was handed on.
-/
theorem ancestors_as_handed_on_renamingFields :
    let first :=
      Call.traversal tracking.settings (fieldNamed "old") []
    tracking.OnlyHandsOn renamingFields first ∧
      tracking.CallsDuring renamingFields 5 (fieldNamed "old") []
        (some (.exactly (.term .word))) (.term .word "a" []) inRenamed ∧
      ∃ moves service address,
        tracking.Route renamingFields first moves
            { service := service
              node := .term .word "a" []
              context := inRenamed } ∧
          (fieldNamed "old").at? address = some (.term .word "a" []) ∧
          inRenamed.Records tracking.settings [] (Move.descents moves) := by
  have handsOn :=
    onlyHandsOn_renamingFields
      (.traversal tracking.settings (fieldNamed "old") [])
  obtain ⟨moves, service, address, route, -, isThere, records, -⟩ :=
    ancestors_as_handed_on handsOn callsDuring_renamingFields
  exact
    ⟨handsOn, callsDuring_renamingFields, moves, service, address, route,
      isThere nofun, records⟩

/--
So the chain of parents is not that of the nodes of the tree: the field is shown
under the name it has in the copy.
-/
theorem ancestors_not_always_of_tree :
    tracking.CallsDuring renamingFields 5 (fieldNamed "old") []
        (some (.exactly (.term .word))) (.term .word "a" []) inRenamed ∧
      (fieldNamed "old").at? [0] = some (.term .word "a" []) ∧
      inRenamed.position.path = some [.ofNat 0] ∧
      inRenamed.chain? .parents = some [fieldNamed "new"] ∧
      (fieldNamed "old").above [0] = [fieldNamed "old"] ∧
      fieldNamed "new" ≠ fieldNamed "old" := by
  refine ⟨callsDuring_renamingFields, rfl, rfl, rfl, rfl, ?_⟩
  intro same
  injection same with sameName
  exact absurd sameName (by decide)

end Walker

end QueryWalk
