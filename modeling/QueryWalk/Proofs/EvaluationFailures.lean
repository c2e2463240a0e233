import QueryWalk.Handler.Evaluation
import QueryWalk.Proofs.NodeArity

namespace QueryWalk

/-!
# What evaluation fails for

Handlers compute with operations that always succeed, but for one: a node may be
given children in a number that its kind does not take. So an expression fails for
nothing else, and neither does what is made of expressions.
-/

/-- A node was given children in a number that its kind does not take. -/
def Failure.IsMisfit (failure : Failure) : Prop :=
  ∃ (node : Node) (given : List Node),
    node.withChildren given = .error failure

/-- A misfit tells how many children the kind takes, and how many others were given. -/
theorem Failure.IsMisfit.exists_arity
    {failure : Failure}
    (misfit : failure.IsMisfit) :
    ∃ (kind : NodeKind) (arity actual : Nat),
      kind.arity? = some arity ∧
        actual ≠ arity ∧
        failure = .nodeArity kind (.ofNat arity) (.ofNat actual) := by
  obtain ⟨node, given, failed⟩ := misfit
  have notTaken :
      ¬ ∀ arity, node.kind.arity? = some arity → given.length = arity := by
    intro fits
    obtain ⟨result, built⟩ := Node.withChildren_isOk fits
    rw [built] at failed
    cases failed
  cases fixed : node.kind.arity? with
  | none =>
      rw [fixed] at notTaken
      exact (notTaken nofun).elim
  | some arity =>
      have misfits : given.length ≠ arity := by
        rintro rfl
        apply notTaken
        rw [fixed]
        exact fun _ same => Option.some.inj same
      rw [Node.withChildren_error fixed misfits] at failed
      cases failed
      exact ⟨node.kind, arity, given.length, fixed, misfits, rfl⟩

/-- An outcome is missing for a cause only. -/
def MissesFor
    {Outcome : Type}
    (cause : Failure → Prop)
    (outcome : Except Failure Outcome) :
    Prop :=
  ∀ failure, outcome = .error failure → cause failure

/-- An outcome is missing for a misfit only. -/
abbrev MissesByMisfit
    {Outcome : Type}
    (outcome : Except Failure Outcome) :
    Prop :=
  MissesFor Failure.IsMisfit outcome

namespace MissesFor

variable
  {Outcome Next : Type}
  {cause : Failure → Prop}

/-- An outcome that is there is not missing. -/
theorem ok
    (outcome : Outcome) :
    MissesFor cause (.ok outcome) := by
  intro failure missing
  cases missing

/-- What is computed from an outcome is missing for a cause if each step is. -/
theorem bind
    {outcome : Except Failure Outcome}
    {next : Outcome → Except Failure Next}
    (first : MissesFor cause outcome)
    (second : ∀ value, MissesFor cause (next value)) :
    MissesFor cause (outcome.bind next) := by
  cases outcome with
  | error failure =>
      rintro _ ⟨⟩
      exact first failure rfl
  | ok value =>
      exact second value

end MissesFor

namespace Expression

mutual

/-- Whether an expression may give a node other children than it was built with. -/
def refits : Expression → Bool
  | .node | .rebuilt | .error | .kind | .attributes | .children | .depth
  | .path | .context | .chain _ | .chainKinds _ | .constant _ | .key _ =>
      false
  | .list items | .build _ items => anyRefits items
  | .child _ base | .childrenOf base | .append _ base | .update _ base =>
      base.refits
  | .withChildren .. => true

/-- Whether one of several expressions may. -/
def anyRefits : List Expression → Bool
  | [] => false
  | item :: rest => item.refits || anyRefits rest

end

end Expression

namespace Condition

/-- Whether an expression of a condition may give a node other children. -/
def refits : Condition → Bool
  | .not condition => condition.refits
  | .same left right | .equivalent left right => left.refits || right.refits
  | .isType subject _ | .childCount subject _ => subject.refits
  | .hasKey _ | .someAncestor .. => false

end Condition

namespace Change

/-- Whether an expression of a change may give a node other children. -/
def refits (change : Change) : Bool :=
  change.assigned.any fun assigned => assigned.2.refits

end Change

namespace Start

/-- Whether an expression of a start may give a node other children. -/
def refits : Start → Bool
  | .fresh _ => false
  | .inherited change => change.refits

end Start

section Missing

variable
  {cause : Failure → Prop}
  (scope : Scope)

mutual

/-- The value of an expression is missing only where it gives a node other children. -/
theorem Expression.missesFor :
    ∀ expression : Expression,
      (expression.refits = true →
        ∀ {failure : Failure}, failure.IsMisfit → cause failure) →
      MissesFor cause (expression.eval scope)
  | .node, _ | .rebuilt, _ | .error, _ | .kind, _ | .attributes, _
  | .children, _ | .depth, _ | .path, _ | .context, _ | .chain _, _
  | .constant _, _ | .key _, _ => by
      unfold Expression.eval
      exact .ok _
  | .chainKinds kept, _ => by
      unfold Expression.eval
      split <;> exact .ok _
  | .list items, refit => by
      unfold Expression.eval
      exact (Expression.allMissFor items refit).bind fun _ => .ok _
  | .child index parent, refit => by
      unfold Expression.eval
      exact (Expression.missesFor parent refit).bind fun _ => .ok _
  | .childrenOf parent, refit => by
      unfold Expression.eval
      exact (Expression.missesFor parent refit).bind fun _ => .ok _
  | .append suffix term, refit => by
      unfold Expression.eval
      exact (Expression.missesFor term refit).bind fun _ => .ok _
  | .update properties base, refit => by
      unfold Expression.eval
      exact (Expression.missesFor base refit).bind fun _ => .ok _
  | .build builder arguments, refit => by
      unfold Expression.eval
      exact (Expression.allMissFor arguments refit).bind fun _ => .ok _
  | .withChildren base given, refit => by
      unfold Expression.eval
      apply (Expression.missesFor base fun _ => refit rfl).bind
      intro former
      apply (Expression.missesFor given fun _ => refit rfl).bind
      intro latter
      have refitted :
          MissesFor cause (former.asNode.withChildren latter.asNodes) :=
        fun _ failed => refit rfl ⟨_, _, failed⟩
      exact refitted.bind fun _ => .ok _

/-- The same, of several expressions. -/
theorem Expression.allMissFor :
    ∀ expressions : List Expression,
      (Expression.anyRefits expressions = true →
        ∀ {failure : Failure}, failure.IsMisfit → cause failure) →
      MissesFor cause (Expression.evalAll scope expressions)
  | [], _ => by
      unfold Expression.evalAll
      exact .ok _
  | item :: rest, refit => by
      unfold Expression.evalAll
      apply (Expression.missesFor item fun refits =>
        refit (Bool.or_eq_true_iff.mpr (.inl refits))).bind
      intro value
      apply (Expression.allMissFor rest fun refits =>
        refit (Bool.or_eq_true_iff.mpr (.inr refits))).bind
      intro values
      exact .ok _

end

/-- A condition is undecided only where it gives a node other children. -/
theorem Condition.missesFor
    (condition : Condition)
    (refit :
      condition.refits = true →
      ∀ {failure : Failure}, failure.IsMisfit → cause failure) :
    MissesFor cause (condition.eval scope) := by
  induction condition with
  | not condition inductionHypothesis =>
      unfold Condition.eval
      exact (inductionHypothesis refit).bind fun _ => .ok _
  | same left right | equivalent left right =>
      unfold Condition.eval
      apply (left.missesFor scope fun refits =>
        refit (Bool.or_eq_true_iff.mpr (.inl refits))).bind
      intro first
      apply (right.missesFor scope fun refits =>
        refit (Bool.or_eq_true_iff.mpr (.inr refits))).bind
      intro second
      exact .ok _
  | isType subject _ | childCount subject _ =>
      unfold Condition.eval
      exact (subject.missesFor scope refit).bind fun _ => .ok _
  | hasKey name | someAncestor chain type =>
      unfold Condition.eval
      exact .ok _

/-- The values that a change assigns are missing only where it gives other children. -/
theorem Change.values_missFor
    (assigned : List (String × Expression))
    (refit :
      (assigned.any fun entry => entry.2.refits) = true →
      ∀ {failure : Failure}, failure.IsMisfit → cause failure) :
    MissesFor cause (Change.values scope assigned) := by
  induction assigned with
  | nil =>
      exact .ok []
  | cons first rest inductionHypothesis =>
      rw [List.any_cons] at refit
      unfold Change.values
      apply (first.2.missesFor scope fun refits =>
        refit (Bool.or_eq_true_iff.mpr (.inl refits))).bind
      intro value
      apply (inductionHypothesis fun refits =>
        refit (Bool.or_eq_true_iff.mpr (.inr refits))).bind
      intro values
      exact .ok _

/-- The changed context is missing only where the change gives a node other children. -/
theorem Change.missesFor
    (change : Change)
    (refit :
      change.refits = true →
      ∀ {failure : Failure}, failure.IsMisfit → cause failure) :
    MissesFor cause (change.apply scope) := by
  unfold Change.apply
  exact (Change.values_missFor scope change.assigned refit).bind
    fun _ => .ok _

/-- The keys of a new traversal are missing only where a node is given other children. -/
theorem Start.missesFor
    (start : Start)
    (refit :
      start.refits = true →
      ∀ {failure : Failure}, failure.IsMisfit → cause failure) :
    MissesFor cause (start.keys scope) := by
  cases start with
  | fresh keys =>
      exact .ok _
  | inherited change =>
      have same :
          (Start.inherited change).keys scope =
            (change.apply scope).bind fun changed => .ok changed.keys := by
        simp only [Start.keys]
        cases change.apply scope <;> rfl
      rw [same]
      exact (change.missesFor scope refit).bind fun _ => .ok _

/-- The value of an expression is missing for a misfit only. -/
theorem Expression.missesByMisfit
    (expression : Expression) :
    MissesByMisfit (expression.eval scope) :=
  expression.missesFor scope fun _ _ misfit => misfit

/-- A condition is undecided for a misfit only. -/
theorem Condition.missesByMisfit
    (condition : Condition) :
    MissesByMisfit (condition.eval scope) :=
  condition.missesFor scope fun _ _ misfit => misfit

/-- The changed context is missing for a misfit only. -/
theorem Change.missesByMisfit
    (change : Change) :
    MissesByMisfit (change.apply scope) :=
  change.missesFor scope fun _ _ misfit => misfit

/-- The keys of a new traversal are missing for a misfit only. -/
theorem Start.missesByMisfit
    (start : Start) :
    MissesByMisfit (start.keys scope) :=
  start.missesFor scope fun _ _ misfit => misfit

end Missing

end QueryWalk
