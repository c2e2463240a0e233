import QueryWalk.Proofs.WalkAppearance

namespace QueryWalk

/-!
# Registration under families

A handler that is registered under a family is one for every kind of the family that has
none of its own. So registering under families only saves writing: a walk shows the same
when every kind has its handler under itself, apart from the type that is told of a node
that has a handler.
-/

/-- Every kind is among all kinds. -/
theorem NodeKind.mem_all
    (kind : NodeKind) :
    kind ∈ all :=
  List.mem_of_find?_eq_some kind.ofName?_name

namespace HandlerMap

/-- A kind resolves to what stands under itself, or else to what its family has. -/
theorem resolve?_eq_or
    {Handler : Type}
    (handlers : HandlerMap Handler)
    (kind : NodeKind) :
    handlers.resolve? kind =
      (handlers.registration? (.exactly kind)).or
        ((kind.family?.map NodeType.anyOf).bind handlers.registration?) := by
  simp only [resolve?, NodeKind.ancestry, List.findSome?_cons]
  cases kind.family? with
  | none =>
      cases handlers.registration? (.exactly kind) <;> rfl
  | some family =>
      cases handlers.registration? (.exactly kind) with
      | none =>
          simp
      | some registration =>
          rfl

section Kinds

variable
  {Handler : Type}
  (choose : NodeKind → Option Handler)

/-- The map that has the handlers chosen for some kinds under those kinds. -/
def ofKinds : HandlerMap Handler :=
  NodeKind.all.filterMap fun kind =>
    (choose kind).map fun handler => (.exactly kind, handler)

/-- Under a kind there is the handler chosen for it. -/
@[simp] theorem handler?_ofKinds_exactly
    (kind : NodeKind) :
    (ofKinds choose).handler? (.exactly kind) = choose kind := by
  -- What stands under the kind is decided where the list comes to it.
  suffices among :
      ∀ kinds : List NodeKind,
        handler?
            (kinds.filterMap fun other =>
              (choose other).map fun handler => (.exactly other, handler))
            (.exactly kind) =
          if kind ∈ kinds then choose kind else none by
    exact (among NodeKind.all).trans (if_pos kind.mem_all)
  intro kinds
  induction kinds with
  | nil =>
      rfl
  | cons first rest inductionHypothesis =>
      by_cases same : first = kind
      · subst same
        rw [if_pos List.mem_cons_self]
        cases chosen : choose first with
        | none =>
            simp only [List.filterMap_cons, chosen, Option.map_none,
              inductionHypothesis, ite_self]
        | some handler =>
            simp [handler?, chosen]
      · have sameMembers : kind ∈ first :: rest ↔ kind ∈ rest := by
          simp [Ne.symm same]
        rw [if_congr sameMembers rfl rfl, ← inductionHypothesis]
        cases chosen : choose first with
        | none =>
            simp only [List.filterMap_cons, chosen, Option.map_none]
        | some handler =>
            simp [handler?, chosen, same]

/-- Under a family there is nothing. -/
@[simp] theorem handler?_ofKinds_anyOf
    (family : Family) :
    (ofKinds choose).handler? (.anyOf family) = none := by
  have none :
      (ofKinds choose).find? (fun entry => entry.1 = .anyOf family) =
        none := by
    rw [List.find?_eq_none]
    intro entry member
    obtain ⟨kind, _, chosen⟩ := List.mem_filterMap.mp member
    obtain ⟨handler, _, rfl⟩ := Option.map_eq_some_iff.mp chosen
    simp
  rw [handler?, none, Option.map_none]

/-- A kind resolves to the handler chosen for it, under itself. -/
theorem resolve?_ofKinds
    (kind : NodeKind) :
    (ofKinds choose).resolve? kind =
      (choose kind).map fun handler =>
        { type := .exactly kind, handler := handler } := by
  have noneUnderFamily :
      (kind.family?.map NodeType.anyOf).bind
        (ofKinds choose).registration? = none := by
    cases kind.family? <;> simp [registration?]
  rw [resolve?_eq_or, noneUnderFamily, Option.or_none, registration?,
    handler?_ofKinds_exactly]

end Kinds

variable (handlers : HandlerMap Handler)

/-- The map that has every kind's handler, the first along its ancestry, under the kind. -/
def concrete : HandlerMap Handler :=
  ofKinds fun kind => kind.ancestry.findSome? handlers.handler?

/-- A kind resolves to the first handler along its ancestry. -/
theorem map_handler_resolve?
    (kind : NodeKind) :
    (handlers.resolve? kind).map Registration.handler =
      kind.ancestry.findSome? handlers.handler? := by
  unfold resolve?
  induction kind.ancestry with
  | nil =>
      rfl
  | cons type rest inductionHypothesis =>
      simp only [List.findSome?_cons, registration?]
      cases handlers.handler? type with
      | none =>
          exact inductionHypothesis
      | some handler =>
          rfl

/-- Every kind resolves to the handler that it had, now under itself. -/
theorem resolve?_concrete
    (kind : NodeKind) :
    handlers.concrete.resolve? kind =
      (handlers.resolve? kind).map fun registration =>
        { type := .exactly kind, handler := registration.handler } := by
  rw [concrete, resolve?_ofKinds, ← map_handler_resolve?, Option.map_map]
  rfl

end HandlerMap

/-- An entry that tells of a handler as if it was registered under the node's kind. -/
def LogEntry.concretely : LogEntry → LogEntry
  | .dispatched kind type attributes =>
      .dispatched kind (type.map fun _ => .exactly kind) attributes
  | .traced kind type => .traced kind (type.map fun _ => .exactly kind)
  | .logged value => .logged value

namespace Walker

variable
  {handlers : HandlerMap Handler}
  {services others : Services}
  (related :
    services.Related
      (.showing handlers handlers.concrete (some ·.concretely)) others)

include related

/-- A node is called to show the same when its handler stands under its kind. -/
theorem callNode_concrete
    (walker : Walker)
    (node : Node)
    (context : Context) :
    Run.ShowsCall handlers handlers.concrete (some ·.concretely)
      (walker.callNode services node context)
      (walker.callNode others node context) := by
  have suits :
      ∀ handler : Handler,
        handler.Throughout
          (Action.SuitsTo
            (.showing handlers handlers.concrete (some ·.concretely))) :=
    Handler.suits (fun _ => rfl) trivial
  have sameType :
      (handlers.concrete.resolve? node.kind).map Registration.type =
        ((handlers.resolve? node.kind).map Registration.type).map
          fun _ => .exactly node.kind := by
    rw [handlers.resolve?_concrete, Option.map_map, Option.map_map]
    rfl
  apply callNode_shows rfl
  · rw [sameType]
    rfl
  · rw [sameType]
    rfl
  · have concretely := handlers.resolve?_concrete node.kind
    cases found : handlers.resolve? node.kind with
    | none =>
        rw [found] at concretely
        rw [concretely]
        exact callGeneric_shows rfl rfl related (fun handler _ =>
          suits handler) node context
    | some registration =>
        rw [found] at concretely
        rw [concretely, callChosen_of_resolved found,
          Option.map_some, callChosen_of_resolved concretely]
        exact callHandler_shows _ _
          (Handler.call_shows related (suits _) node context)

end Walker

/-- Walkers show the same when every handler stands under the kinds it is for. -/
theorem Walker.couples_concrete
    (walker : Walker)
    (handlers : HandlerMap Handler) :
    walker.Couples
      (.showing handlers handlers.concrete (some ·.concretely)) walker where
  mode_eq := rfl
  root _ := rfl
  descend _ _ _ := rfl
  generic related :=
    callGeneric_relates related rfl rfl fun handler _ =>
      handler.suits (fun _ => rfl) trivial
  visitNode related node context :=
    visitNode_shows rfl (callNode_concrete related walker node context)

/--
A registration under a family is shorthand. With every kind's handler registered under
the kind itself, and nothing under families, a walker gives the same answers to all that
a caller does; in their logs only the type differs that is told of a node that has a
handler.
-/
theorem Session.family_registration_is_shorthand
    (handlers : HandlerMap Handler) :
    (∀ kind,
      handlers.concrete.handler? (.exactly kind) =
        kind.ancestry.findSome? handlers.handler?) ∧
    (∀ family, handlers.concrete.handler? (.anyOf family) = none) ∧
    ∀ (walker : Walker) (bound : Nat) (steps : List Step),
      (create walker handlers.concrete).answers bound steps =
        ((create walker handlers).answers bound steps).map
          (Answer.retell (some ·.concretely)) := by
  refine
    ⟨HandlerMap.handler?_ofKinds_exactly _,
      HandlerMap.handler?_ofKinds_anyOf _, ?_⟩
  intro walker bound steps
  have related :=
    (walker.couples_concrete handlers).related_services bound
  have shown :
      walker.ShownBy handlers handlers.concrete (some ·.concretely) True
        bound walker :=
    { mode_eq := rfl
      root := fun _ => rfl
      descend := fun _ _ _ => rfl
      visitNode := related.visitNode
      rebuild := related.rebuild
      restart := related.restart
      openNode := fun node context =>
        Walker.openNode_shows rfl
          (Walker.callNode_concrete related walker node context)
      generic := fun _ => related.generic
      callGeneric := fun _ =>
        Walker.callGeneric_shows rfl rfl related fun handler _ =>
          handler.suits (fun _ => rfl) trivial }
  exact (ShownBy.create walker walker).answers shown fun _ _ _ => trivial

end QueryWalk
