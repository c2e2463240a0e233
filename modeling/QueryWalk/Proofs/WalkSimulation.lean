import QueryWalk.Proofs.HandlerInvocation
import QueryWalk.Proofs.HandlerLikeness

namespace QueryWalk

/-!
# Alike walks

Two walkers that choose the same handlers take matching runs for alike nodes in
alike contexts, if their handlers respect the likeness and the services one level
of recursion below match. So all their services match, whatever the bound.
-/

namespace Walker

/--
Two walkers with the same fallback, which respects a likeness and calls no services
but those allowed.
-/
structure FallbackAlike
    (like : Likeness)
    (allowed : Service → Prop)
    (left right : Walker) : Prop where
  mode_eq : left.mode = right.mode
  fallback_eq : left.fallback = right.fallback
  fallback :
    ∀ {handler},
      left.fallback = some handler →
      handler.Throughout (Action.Respects like allowed)

/--
Two walkers with the same handlers, which respect a likeness and call no services
but those allowed. Their settings may differ in whatever no listener is told.
-/
structure Alike
    (like : Likeness)
    (allowed : Service → Prop)
    (left right : Walker) : Prop
    extends FallbackAlike like allowed left right where
  listener_eq : left.settings.listener = right.settings.listener
  handlers :
    ∀ {kind registration},
      like.handlers.resolve? kind = some registration →
      registration.handler.Throughout (Action.Respects like allowed)

/-- A walk with a handler map may call a handler of the map or the fallback. -/
def Employs
    (walker : Walker)
    (handlers : HandlerMap Handler)
    (handler : Handler) :
    Prop :=
  (∃ type, (type, handler) ∈ handlers) ∨ walker.fallback = some handler

/-- Walkers with one fallback are alike if whatever they employ respects the likeness. -/
theorem alike_of_employs
    {like : Likeness}
    {allowed : Service → Prop}
    {property : Action → Prop}
    {left right : Walker}
    (respects :
      ∀ action, property action → action.Respects like allowed)
    (each :
      ∀ handler,
        left.Employs like.handlers handler →
        handler.Throughout property)
    (sameMode : left.mode = right.mode)
    (sameFallback : left.fallback = right.fallback)
    (sameListener : left.settings.listener = right.settings.listener) :
    left.Alike like allowed right where
  mode_eq := sameMode
  fallback_eq := sameFallback
  fallback given := (each _ (.inr given)).mono respects
  listener_eq := sameListener
  handlers found :=
    (each _ (.inl ⟨_, HandlerMap.mem_of_resolve? found⟩)).mono respects

/-- The contexts of alike children are alike, or missing for the same reason. -/
def DescendsAlike (like : Likeness) (left right : Walker) : Prop :=
  ∀ {parent other : Node} {context otherContext : Context} (index : Number),
    like.node parent other →
    like.context context otherContext →
    like.Outcomes like.context
      (context.descend left.settings parent index)
      (otherContext.descend right.settings other index)

/-- New traversals with alike keys start in alike contexts. -/
def StartsAlike (like : Likeness) (left right : Walker) : Prop :=
  ∀ {keys others : Fields Value},
    like.keys keys others →
    like.context (.root left.settings keys) (.root right.settings others)

section Engine

variable
  {like : Likeness}
  {allowed : Service → Prop}
  {left right : Services}
  (services : left.Match like allowed right)
  {node other : Node}
  {context otherContext : Context}
  (nodes : like.node node other)
  (contexts : like.context context otherContext)

section Children

include services nodes contexts

/-- Alike children of alike nodes are visited in matching runs. -/
theorem visitChildren_matches
    {children others : List Node}
    (alike : List.Forall₂ like.node children others)
    (index : Nat) :
    (visitChildren left node context index children).Matches
      like.toComparison .finished
      (visitChildren right other otherContext index others) := by
  induction alike generalizing index with
  | nil =>
      exact .done trivial
  | cons child _ inductionHypothesis =>
      rw [visitChildren_cons, visitChildren_cons]
      have visited :=
        services.below (.ofNat index) nodes child contexts
      exact Run.Matches.andThen visited (inductionHypothesis (index + 1))

/-- All children of alike nodes are visited in matching runs. -/
theorem visitAllChildren_matches :
    (visitChildren left node context 0 node.children).Matches
      like.toComparison .finished
      (visitChildren right other otherContext 0 other.children) :=
  visitChildren_matches services nodes contexts (like.children nodes) 0

/-- Alike nodes are rebuilt in matching runs. -/
theorem rebuild_matches :
    (rebuild left node context).Matches like.toComparison
      (.only like.node) (rebuild right other otherContext) := by
  have sameLeaf :
      other.children.isEmpty = node.children.isEmpty := by
    have children := like.children nodes
    generalize node.children = given at children ⊢
    generalize other.children = others at children ⊢
    cases children <;> rfl
  unfold rebuild
  rw [sameLeaf]
  by_cases leaf : node.children.isEmpty
  · rw [if_pos leaf, if_pos leaf]
    exact .done nodes
  · rw [if_neg leaf, if_neg leaf]
    apply (visitAllChildren_matches services nodes contexts).gather.bind
    intro values others alike
    exact like.withChildren nodes (like.asNodes alike)

end Children

variable {walker otherWalker : Walker}

/-- The built-in fallbacks take matching runs for alike nodes. -/
theorem callStructural_matches
    (sameMode : walker.mode = otherWalker.mode)
    (services : left.Match like allowed right)
    (nodes : like.node node other)
    (contexts : like.context context otherContext) :
    (walker.callStructural left node context).Matches like.toComparison
      like.leaving
      (otherWalker.callStructural right other otherContext) := by
  unfold callStructural
  rw [← sameMode]
  cases walker.mode with
  | visitor =>
      exact .done (visitAllChildren_matches services nodes contexts)
  | transformer =>
      apply (rebuild_matches services nodes contexts).bind
      intro rebuilt otherRebuilt alike
      exact .done (.deliver (like.ofNode alike) (.done trivial))

/-- Walkers of one mode rebuild alike nodes in matching runs, or both cannot. -/
theorem callRebuild_matches
    (sameMode : walker.mode = otherWalker.mode)
    (services : left.Match like allowed right)
    (nodes : like.node node other)
    (contexts : like.context context otherContext) :
    (walker.callRebuild left node context).Matches like.toComparison
      (.only like.node)
      (otherWalker.callRebuild right other otherContext) := by
  unfold callRebuild
  rw [← sameMode]
  cases walker.mode with
  | visitor =>
      exact .failed like.rebuildFails
  | transformer =>
      exact rebuild_matches services nodes contexts

/-- A handler that respects a likeness is called in matching runs. -/
theorem callHandler_matches
    (services : left.Match like allowed right)
    (nodes : like.node node other)
    (contexts : like.context context otherContext)
    (type : Option NodeType)
    {handler : Handler}
    (respects : handler.Throughout (Action.Respects like allowed)) :
    (callHandler left type handler node context).Matches
      like.toComparison like.leaving
      (callHandler right type handler other otherContext) :=
  .note (like.entered type nodes contexts)
    (handler.call_matches services respects nodes contexts)

/-- A listener is told the same of alike nodes. -/
theorem notify_matches
    {settings otherSettings : Settings}
    (sameListener : settings.listener = otherSettings.listener)
    (nodes : like.node node other)
    (type : Option NodeType) :
    (notify settings node type).Matches like.toComparison .finished
      (notify otherSettings other type) := by
  unfold notify
  rw [← sameListener, ← like.kind_eq nodes, ← like.attributes_eq nodes]
  cases settings.listener with
  | silent =>
      exact .done trivial
  | debugging =>
      exact .note (like.entry _) (.done trivial)
  | logging rejected =>
      apply Run.Matches.note (like.entry _)
      by_cases rejects : rejected = some node.kind
      · rw [if_pos rejects]
        exact .failed (like.handlerFails _)
      · rw [if_neg rejects]
        exact .done trivial

/-- Alike fallbacks take matching runs for alike nodes. -/
theorem callGeneric_matches
    (services : left.Match like allowed right)
    (nodes : like.node node other)
    (contexts : like.context context otherContext)
    (alike : walker.FallbackAlike like allowed otherWalker) :
    (walker.callGeneric left node context).Matches like.toComparison
      like.leaving
      (otherWalker.callGeneric right other otherContext) := by
  unfold callGeneric
  rw [← alike.fallback_eq]
  cases replaced : walker.fallback with
  | none =>
      exact callStructural_matches alike.mode_eq services nodes contexts
  | some handler =>
      exact callHandler_matches services nodes contexts none
        (alike.fallback replaced)

section Walkers

variable (alike : walker.Alike like allowed otherWalker)

include services nodes contexts alike

/-- Alike walkers make matching calls for alike nodes. -/
theorem callNode_matches :
    (walker.callNode left node context).Matches like.toComparison
      like.leaving
      (otherWalker.callNode right other otherContext) := by
  unfold callNode
  rw [← like.kind_eq nodes]
  apply Run.Matches.resolve
  apply Run.Matches.andThen
    (notify_matches alike.listener_eq nodes _)
  cases found : like.handlers.resolve? node.kind with
  | none =>
      exact callGeneric_matches services nodes contexts
        alike.toFallbackAlike
  | some registration =>
      have includes := HandlerMap.includes_of_resolve? found
      have otherIncludes := includes
      rw [like.kind_eq nodes] at otherIncludes
      simp only [Registration.handlerFor, Node.isOfType, includes,
        otherIncludes, if_true]
      exact callHandler_matches services nodes contexts _
        (alike.handlers found)

/-- The calls take matching runs with all that they leave to be run. -/
theorem callNode_bind_matches :
    ((walker.callNode left node context).bind id).Matches
      like.toComparison .finished
      ((otherWalker.callNode right other otherContext).bind id) :=
  (callNode_matches services nodes contexts alike).bind
    fun _ _ remains => remains

/-- Alike nodes give alike results in matching runs. -/
theorem visitNode_matches :
    (walker.visitNode left node context).Matches like.toComparison
      .finished (otherWalker.visitNode right other otherContext) := by
  have results := callNode_bind_matches services nodes contexts alike
  unfold visitNode
  rw [← alike.mode_eq]
  cases walker.mode with
  | visitor =>
      exact results
  | transformer =>
      exact results.regather

/-- Alike walkers that are asked for alike nodes leave matching runs. -/
theorem openNode_matches :
    (walker.openNode left node context).Matches like.toComparison
      like.leaving
      (otherWalker.openNode right other otherContext) := by
  have results := callNode_bind_matches services nodes contexts alike
  unfold openNode
  rw [← alike.mode_eq]
  cases walker.mode with
  | visitor =>
      exact callNode_matches services nodes contexts alike
  | transformer =>
      exact results.gather.bind fun _ _ alike => .done (.deliverAll alike)

end Walkers

/-- Traversals of alike trees come to alike outcomes in matching runs. -/
theorem traverse_matches
    (services : left.Match like allowed right)
    (alike : walker.Alike like allowed otherWalker)
    (starts : walker.StartsAlike like otherWalker)
    {tree otherTree : Node}
    {keys otherKeys : Fields Value}
    (trees : like.node tree otherTree)
    (alikeKeys : like.keys keys otherKeys) :
    (walker.traverse left tree keys).Matches like.toComparison
      (.only like.value)
      (otherWalker.traverse right otherTree otherKeys) := by
  unfold traverse
  apply (visitNode_matches services trees (starts alikeKeys)
    alike).gather.bind
  intro values others outcomes
  rw [← alike.mode_eq]
  cases walker.mode with
  | visitor =>
      exact .done (like.ofList outcomes)
  | transformer =>
      cases outcomes with
      | nil =>
          exact .failed (like.arityFails _)
      | cons first rest =>
          cases rest with
          | nil =>
              exact .done first
          | cons second further =>
              have sameLength := further.length_eq
              simp only [List.length_cons, sameLength]
              exact .failed (like.arityFails _)

end Engine

section Services

variable
  {like : Likeness}
  {allowed : Service → Prop}
  {left right : Walker}
  (alike : left.Alike like allowed right)
  (starts : left.StartsAlike like right)
  (descends : left.DescendsAlike like right)

section Below

include descends

/-- Visits one level down match where the visits of nodes do. -/
theorem visitBelow_matches
    {bound otherBound : Nat}
    (visits :
      ∀ {node other context otherContext},
        like.node node other →
        like.context context otherContext →
        ((left.services bound).visitNode node context).Matches
          like.toComparison .finished
          ((right.services otherBound).visitNode other otherContext))
    {parent otherParent child other : Node}
    {context otherContext : Context}
    (index : Number)
    (parents : like.node parent otherParent)
    (children : like.node child other)
    (contexts : like.context context otherContext) :
    ((left.services bound).visitBelow parent index child context).Matches
      like.toComparison .finished
      ((right.services otherBound).visitBelow otherParent index other
        otherContext) := by
  unfold Services.visitBelow
  rw [settings_services, settings_services]
  apply Run.Matches.bind (descends index parents contexts)
  intro below otherBelow alikeBelow
  exact visits children alikeBelow

/-- With no recursion left the first walk ends early, or both do. -/
theorem services_zero_match
    {extra : Nat}
    (ends : like.spends ∨ (like.exhausts ∧ extra = 0)) :
    (left.services 0).Match like (fun _ => True) (right.services extra) := by
  rcases ends with spends | ⟨exhausts, none⟩
  · exact
      { visitNode := fun _ _ _ => .spent spends _
        generic := fun _ _ _ => .spent spends _
        structural := fun _ _ _ => .spent spends _
        rebuild := fun _ _ _ => .spent spends _
        restart := fun _ _ _ => .spent spends _
        below := visitBelow_matches descends fun _ _ => .spent spends _ }
  · subst none
    have bothEnd :
        ∀ {Left Right : Type} {pairing : Pairing Left Right},
          Run.Matches like.toComparison pairing .exhausted .exhausted :=
      .exhausted exhausts
    exact
      { visitNode := fun _ _ _ => bothEnd
        generic := fun _ _ _ => bothEnd
        structural := fun _ _ _ => bothEnd
        rebuild := fun _ _ _ => bothEnd
        restart := fun _ _ _ => bothEnd
        below := visitBelow_matches descends fun _ _ => bothEnd }

end Below

include alike starts descends

/-- Services match if those that they are made of do. -/
theorem services_succ_match
    {bound otherBound : Nat}
    (services :
      (left.services bound).Match like allowed
        (right.services otherBound)) :
    (left.services (bound + 1)).Match like (fun _ => True)
      (right.services (otherBound + 1)) where
  visitNode _ nodes contexts :=
    visitNode_matches services nodes contexts alike
  generic _ nodes contexts :=
    (callGeneric_matches services nodes contexts
      alike.toFallbackAlike).bind
      fun _ _ remains => remains
  structural _ nodes contexts :=
    (callStructural_matches alike.mode_eq services nodes contexts).bind
      fun _ _ remains => remains
  rebuild _ nodes contexts :=
    callRebuild_matches alike.mode_eq services nodes contexts
  restart _ trees alikeKeys :=
    traverse_matches services alike starts trees alikeKeys
  below := by
    apply visitBelow_matches descends
    intro node other context otherContext nodes contexts
    exact visitNode_matches services nodes contexts alike

end Services

/--
All services of alike walkers match, whatever the bound, as long as their handlers
respect the likeness. The second walk may be given more recursion than the first
where the first may run out of it.
-/
theorem services_match
    {like : Likeness}
    {left right : Walker}
    (alike : left.Alike like (fun _ => True) right)
    (starts : left.StartsAlike like right)
    (descends : left.DescendsAlike like right)
    {extra : Nat}
    (ends : like.spends ∨ (like.exhausts ∧ extra = 0))
    (bound : Nat) :
    (left.services bound).Match like (fun _ => True)
      (right.services (bound + extra)) := by
  induction bound with
  | zero =>
      rw [Nat.zero_add]
      exact services_zero_match descends ends
  | succ bound inductionHypothesis =>
      rw [Nat.add_right_comm]
      exact services_succ_match alike starts descends inductionHypothesis

end Walker

end QueryWalk
