import QueryWalk.Proofs.ContextMoves
import QueryWalk.Proofs.SelfLikeness

namespace QueryWalk

/-!
# Walks that only descend

A walk whose handlers call back only at their own depth, for the fallback or a
rebuild, or one level further down, comes to an end: every visit leaves less depth to
go, and between two visits there is only the fallback. So much recursion is enough as
the depth limit says, whatever nodes the handlers make up and whatever they catch.
-/

namespace Number

/-- From a quotient rounded to even at least the whole quotient is left. -/
theorem div_le_divideToEven
    (numerator denominator : Nat) :
    numerator / denominator ≤ divideToEven numerator denominator := by
  unfold divideToEven
  simp only
  split
  · exact Nat.le_succ _
  · split
    · exact Nat.le_succ _
    · exact Nat.le_refl _

/-- A number beyond those that keep all their bits is not rounded below them. -/
theorem exactLimit_le_rounded
    {value : Nat}
    (large : exactLimit < value) :
    let unit := Nat.pow 2 (value.log2 - 52)
    exactLimit ≤ divideToEven value unit * unit := by
  intro unit
  have notZero : value ≠ 0 := Nat.ne_of_gt (Nat.zero_lt_of_lt large)
  have magnitude : 53 ≤ value.log2 :=
    (Nat.le_log2 notZero).mpr (Nat.le_of_lt large)
  have leading : 2 ^ 52 * unit ≤ value := by
    calc
      2 ^ 52 * unit = 2 ^ (52 + (value.log2 - 52)) := (Nat.pow_add ..).symm
      _ = 2 ^ value.log2 := by rw [Nat.add_sub_cancel' (by omega)]
      _ ≤ value := Nat.log2_self_le notZero
  have quotient : 2 ^ 52 ≤ value / unit :=
    (Nat.le_div_iff_mul_le (Nat.pow_pos Nat.two_pos)).mpr leading
  have halved : 2 ≤ unit :=
    Nat.pow_le_pow_right Nat.two_pos
      (show 1 ≤ value.log2 - 52 by omega)
  calc
    exactLimit = 2 ^ 52 * 2 := rfl
    _ ≤ 2 ^ 52 * unit := Nat.mul_le_mul_left _ halved
    _ ≤ divideToEven value unit * unit :=
        Nat.mul_le_mul_right _
          (Nat.le_trans quotient (div_le_divideToEven value unit))

/-- The depth below one at a limit or deeper exceeds the limit. -/
theorem plusOne_exceeds
    {depth limit : Nat}
    (counted : limit < exactLimit)
    (deep : limit ≤ depth) :
    (ofNat depth).plusOne.exceeds limit = true := by
  by_cases small : depth < exactLimit
  · rw [plusOne_ofNat small, exceeds_ofNat]
    exact decide_eq_true (Nat.lt_succ_of_le deep)
  · have large : exactLimit < depth + 1 := by
      omega
    have rounded := exactLimit_le_rounded large
    have notNegative : ¬ (depth : Int) + 1 < 0 := by
      omega
    have sameMagnitude : ((depth : Int) + 1).natAbs = depth + 1 := by
      omega
    simp only [ofNat, plusOne, keepSignificant, if_neg notNegative,
      sameMagnitude, exceeds, decide_eq_true_eq]
    omega

end Number

namespace Action

/--
Whether an action, by itself, calls back at its own depth only for the fallback or a
rebuild, and leaves the position as it is.
-/
def descends : Action → Bool
  | .visit .. | .restart .. => false
  | .generic _ change | .structural _ change | .child _ _ change
  | .visitUnder _ _ _ change | .rebuild _ change =>
      change.position.isNone
  | _ => true

/-- Whether an action descends without asking for the replaced fallback. -/
def descendsBeyondFallback : Action → Bool
  | .generic .. => false
  | action => action.descends

end Action

/-- A walker whose handlers call back in no other way than descending. -/
structure Walker.Descends
    (walker : Walker)
    (handlers : HandlerMap Handler) : Prop where
  handlers :
    ∀ entry ∈ handlers,
      entry.2.Throughout fun action => action.descends = true
  /-- The fallback does not call itself. -/
  fallback :
    ∀ handler,
      walker.fallback = some handler →
      handler.Throughout fun action =>
        action.descendsBeyondFallback = true

/-- How many levels of recursion a service takes before it comes to a child. -/
def Service.levels : Service → Nat
  | .structural | .rebuild => 1
  | .generic => 2
  | .visitNode | .restart => 3

namespace Context

/-- The child of a context of natural depth has the next depth, within the limit. -/
theorem depth_of_descend
    {settings : Settings}
    (counted : settings.maxDepth < Number.exactLimit)
    {parent : Node}
    {index : Number}
    {context below : Context}
    {depth : Nat}
    (isAt : context.position.depth = .ofNat depth)
    (descended : context.descend settings parent index = .ok below) :
    depth < settings.maxDepth ∧
      below.position.depth = .ofNat (depth + 1) := by
  obtain ⟨within, -, isBelow⟩ := eq_of_descend descended
  rw [isAt] at within
  have shallow : depth < settings.maxDepth := by
    by_contra deep
    rw [Number.plusOne_exceeds counted (Nat.le_of_not_lt deep)] at within
    cases within
  refine ⟨shallow, ?_⟩
  simp only [isBelow, Position.child, isAt]
  exact Number.plusOne_ofNat (Nat.lt_trans shallow counted)

end Context

namespace Walker

/-- What is asked of the contexts at one depth where no walk runs out of recursion. -/
def atDepth (handlers : HandlerMap Handler) (depth : Nat) : Sameness where
  handlers := handlers
  holds context := context.position.depth = .ofNat depth
  exhausts := False
  stops _ := False
  spends := False

/-- The same of contexts at any natural depth. -/
def atSomeDepth (handlers : HandlerMap Handler) : Sameness :=
  { atDepth handlers 0 with
    holds := fun context =>
      ∃ depth : Nat, context.position.depth = .ofNat depth }

section Descent

variable
  {walker : Walker}
  {handlers : HandlerMap Handler}
  {depth : Nat}

/-- A change that leaves the position leaves the depth. -/
theorem keeps_atDepth
    {change : Change}
    (noPosition : change.position.isNone = true) :
    change.Keeps (atDepth handlers depth).holds := by
  intro scope changed applied isAt
  have isNone := Option.isNone_iff_eq_none.mp noPosition
  simp only [atDepth] at isAt ⊢
  rw [Change.position_apply applied, isNone]
  exact isAt

/-- The change of an action that descends leaves the depth. -/
theorem change_keeps_atDepth
    {action : Action}
    (descends : action.descends = true)
    (change : Change)
    (isChange : action.change? = some change) :
    change.Keeps (atDepth handlers depth).holds := by
  apply keeps_atDepth
  cases action with
  | generic | structural | child | visitUnder | rebuild =>
      cases isChange
      exact descends
  | visit =>
      cases descends
  | _ =>
      cases isChange

/-- An action that descends calls no service above the fallback. -/
theorem respects_of_descends
    (action : Action)
    (descends : action.descends = true) :
    action.Respects (atDepth handlers depth).likeness
      fun service => service.levels ≤ 2 := by
  apply Sameness.action_respects
  · exact change_keeps_atDepth descends
  · intro service calls
    cases action with
    | generic | structural | rebuild =>
        cases calls
        decide
    | visit | restart =>
        cases descends
    | _ =>
        cases calls
  · exact fun _ _ never => never

/-- To descend beyond the fallback is to descend. -/
theorem descends_of_beyondFallback
    (action : Action)
    (descends : action.descendsBeyondFallback = true) :
    action.descends = true := by
  cases action with
  | generic =>
      cases descends
  | _ =>
      exact descends

/-- Without the fallback it calls no service above the built-in one. -/
theorem respects_of_descendsBeyondFallback
    (action : Action)
    (descends : action.descendsBeyondFallback = true) :
    action.Respects (atDepth handlers depth).likeness
      fun service => service.levels ≤ 1 := by
  apply Sameness.action_respects
  · exact change_keeps_atDepth (descends_of_beyondFallback action descends)
  · intro service calls
    cases action with
    | structural | rebuild =>
        cases calls
        decide
    | generic | visit | restart =>
        cases descends
    | _ =>
        cases calls
  · exact fun _ _ never => never

/-- From one depth all walks descend to the next one. -/
theorem descendsAlike_atSomeDepth
    (counted : walker.settings.maxDepth < Number.exactLimit) :
    walker.DescendsAlike (atSomeDepth handlers).likeness walker := by
  apply Sameness.descendsAlike
  rintro parent index context below descended ⟨depth, isAt⟩
  exact ⟨depth + 1, (Context.depth_of_descend counted isAt descended).2⟩

/--
With some levels of depth left to go, visits of nodes do the same whatever the
recursion, if it is enough for these levels.
-/
def VisitsSettle
    (walker : Walker)
    (handlers : HandlerMap Handler)
    (remaining : Nat) :
    Prop :=
  ∀ {depth bound other : Nat} (node : Node) {context : Context},
    context.position.depth = .ofNat depth →
    walker.settings.maxDepth ≤ depth + remaining →
    3 * remaining ≤ bound →
    3 * remaining ≤ other →
    ((walker.services (bound + 3)).visitNode node context).Matches
      (atDepth handlers depth).likeness.toComparison .finished
      ((walker.services (other + 3)).visitNode node context)

variable
  {remaining bound other : Nat}
  (counted : walker.settings.maxDepth < Number.exactLimit)
  (descends : walker.Descends handlers)

section Deeper

variable
  (deeper :
    ∀ less, remaining = less + 1 → VisitsSettle walker handlers less)
  (reaches : walker.settings.maxDepth ≤ depth + remaining)
  (enough : 3 * remaining ≤ bound)
  (otherEnough : 3 * remaining ≤ other)

include counted deeper reaches enough otherEnough

/-- Visits one level down do the same where visits with less depth to go do. -/
theorem visitBelow_settles
    (parent child : Node)
    (index : Number)
    {context : Context}
    (isAt : context.position.depth = .ofNat depth) :
    ((walker.services bound).visitBelow parent index child
        context).Matches
      (atDepth handlers depth).likeness.toComparison .finished
      ((walker.services other).visitBelow parent index child context) := by
  unfold Services.visitBelow
  rw [settings_services, settings_services]
  cases descended : context.descend walker.settings parent index with
  | error failure =>
      exact .failed (Context.not_isMismatch_of_descend descended)
  | ok below =>
      obtain ⟨shallow, isBelow⟩ :=
        Context.depth_of_descend counted isAt descended
      -- There is depth to go, or the descent would have been refused.
      obtain ⟨less, rfl⟩ : ∃ less, remaining = less + 1 :=
        ⟨remaining - 1, by omega⟩
      obtain ⟨bound, rfl⟩ := Nat.exists_eq_add_of_le'
        (Nat.le_trans (Nat.le_add_left 3 (3 * less)) enough)
      obtain ⟨other, rfl⟩ := Nat.exists_eq_add_of_le'
        (Nat.le_trans (Nat.le_add_left 3 (3 * less)) otherEnough)
      have visits :=
        deeper less rfl child isBelow (by omega)
          (Nat.le_of_add_le_add_right enough)
          (Nat.le_of_add_le_add_right otherEnough)
      exact visits

/-- Where no service may be called only visits one level down matter. -/
theorem services_match_none :
    (walker.services bound).Match (atDepth handlers depth).likeness
      (fun service => service.levels ≤ 0) (walker.services other) where
  visitNode never := absurd never (by decide)
  generic never := absurd never (by decide)
  structural never := absurd never (by decide)
  rebuild never := absurd never (by decide)
  restart never := absurd never (by decide)
  below := by
    rintro parent _ child _ context _ index rfl rfl ⟨rfl, isAt⟩
    exact visitBelow_settles counted deeper reaches enough otherEnough
      parent child index isAt

/-- The built-in fallback and rebuilds only visit one level down. -/
theorem services_match_structural :
    (walker.services (bound + 1)).Match
      (atDepth handlers depth).likeness
      (fun service => service.levels ≤ 1)
      (walker.services (other + 1)) := by
  have services :=
    services_match_none counted deeper reaches enough otherEnough
  have ends :=
    services_match_none counted deeper reaches
      (Nat.le_succ_of_le enough) (Nat.le_succ_of_le otherEnough)
  exact
    { ends with
      generic := fun never => absurd never (by decide)
      visitNode := fun never => absurd never (by decide)
      restart := fun never => absurd never (by decide)
      structural := fun _ nodes contexts =>
        (callStructural_matches rfl services nodes contexts).bind
          fun _ _ remains => remains
      rebuild := fun _ nodes contexts =>
        callRebuild_matches rfl services nodes contexts }

include descends

/-- The fallback calls no service but these. -/
theorem services_match_generic :
    (walker.services (bound + 2)).Match
      (atDepth handlers depth).likeness
      (fun service => service.levels ≤ 2)
      (walker.services (other + 2)) := by
  have services :=
    services_match_structural counted deeper reaches enough otherEnough
  have ends :=
    services_match_structural counted deeper reaches
      (Nat.le_succ_of_le enough) (Nat.le_succ_of_le otherEnough)
  have alike :
      walker.FallbackAlike (atDepth handlers depth).likeness
        (fun service => service.levels ≤ 1) walker :=
    { mode_eq := rfl
      fallback_eq := rfl
      fallback := fun given =>
        (descends.fallback _ given).mono
          respects_of_descendsBeyondFallback }
  exact
    { visitNode := fun never => absurd never (by decide)
      restart := fun never => absurd never (by decide)
      generic := fun _ nodes contexts =>
        (callGeneric_matches services nodes contexts alike).bind
          fun _ _ remains => remains
      structural := fun _ nodes contexts =>
        ends.structural (by decide) nodes contexts
      rebuild := fun _ nodes contexts =>
        ends.rebuild (by decide) nodes contexts
      below := ends.below }

end Deeper

include descends

/-- The handlers call no service but these. -/
theorem alike_atDepth :
    walker.Alike (atDepth handlers depth).likeness
      (fun service => service.levels ≤ 2) walker where
  mode_eq := rfl
  fallback_eq := rfl
  fallback given := by
    apply (descends.fallback _ given).mono
    intro action beyond
    exact respects_of_descends action
      (descends_of_beyondFallback action beyond)
  listener_eq := rfl
  handlers found :=
    (descends.handlers _ (HandlerMap.mem_of_resolve? found)).mono
      respects_of_descends

include counted

/-- Visits of nodes do the same if those with less depth to go do. -/
theorem visitsSettle_of_deeper
    (deeper :
      ∀ less, remaining = less + 1 → VisitsSettle walker handlers less) :
    VisitsSettle walker handlers remaining := by
  intro depth bound other node context isAt reaches enough otherEnough
  have services :=
    services_match_generic counted descends deeper reaches enough
      otherEnough
  exact visitNode_matches services rfl ⟨rfl, isAt⟩
    (alike_atDepth descends)

/-- With any number of levels of depth left to go, visits of nodes do the same. -/
theorem visitsSettle
    (remaining : Nat) :
    VisitsSettle walker handlers remaining := by
  -- Not on the node: handlers may visit larger ones at every level.
  induction remaining with
  | zero =>
      apply visitsSettle_of_deeper counted descends
      exact fun _ impossible => nomatch impossible
  | succ remaining inductionHypothesis =>
      apply visitsSettle_of_deeper counted descends
      rintro less ⟨⟩
      exact inductionHypothesis

section Enough

variable
  (enough : 3 * walker.settings.maxDepth ≤ bound)
  (otherEnough : 3 * walker.settings.maxDepth ≤ other)

include enough otherEnough

/-- At every depth services do the same with recursion for the whole depth limit. -/
theorem services_match_of_enough
    (level : Nat) :
    (walker.services (bound + 2)).Match (atDepth handlers level).likeness
      (fun service => service.levels ≤ 2)
      (walker.services (other + 2)) :=
  services_match_generic counted descends
    (fun less _ => visitsSettle counted descends less)
    (Nat.le_add_left _ _) enough otherEnough

/-- New traversals do the same with recursion for the whole depth limit. -/
theorem restart_settles
    (tree : Node)
    (keys : Fields Value) :
    ((walker.services (bound + 3)).restart tree keys).Matches
      (atDepth handlers 0).likeness.toComparison
      (.only (atDepth handlers 0).likeness.value)
      ((walker.services (other + 3)).restart tree keys) := by
  have services :=
    services_match_of_enough counted descends enough otherEnough 0
  exact traverse_matches services (alike_atDepth descends)
    (Sameness.startsAlike fun _ => rfl) rfl rfl

/-- All services do the same with recursion for the whole depth limit. -/
theorem services_settle :
    (walker.services (bound + 3)).Match (atSomeDepth handlers).likeness
      (fun _ => True) (walker.services (other + 3)) := by
  have services :=
    services_match_of_enough counted descends
      (Nat.le_succ_of_le enough) (Nat.le_succ_of_le otherEnough)
  have visits :
      ∀ {first second : Node} {context otherContext : Context},
        first = second →
        (atSomeDepth handlers).likeness.context context otherContext →
        ((walker.services (bound + 3)).visitNode first context).Matches
          (atSomeDepth handlers).likeness.toComparison .finished
          ((walker.services (other + 3)).visitNode second
            otherContext) := by
    rintro node _ context _ rfl ⟨rfl, depth, isAt⟩
    exact visitsSettle counted descends _ node isAt
      (Nat.le_add_left _ _) enough otherEnough
  constructor
  case visitNode =>
    exact fun _ => visits
  case generic =>
    rintro node _ context _ _ rfl ⟨rfl, depth, isAt⟩
    exact (services depth).generic (by decide) rfl ⟨rfl, isAt⟩
  case structural =>
    rintro node _ context _ _ rfl ⟨rfl, depth, isAt⟩
    exact (services depth).structural (by decide) rfl ⟨rfl, isAt⟩
  case rebuild =>
    rintro node _ context _ _ rfl ⟨rfl, depth, isAt⟩
    exact (services depth).rebuild (by decide) rfl ⟨rfl, isAt⟩
  case restart =>
    rintro tree _ keys _ _ rfl rfl
    exact restart_settles counted descends enough otherEnough tree keys
  case below =>
    exact visitBelow_matches (descendsAlike_atSomeDepth counted) visits

/-- With recursion for the whole depth limit, whatever sessions ask does the same. -/
theorem accompanies_of_enough :
    walker.Accompanies (atSomeDepth handlers).likeness walker (bound + 3)
      (other + 3) := by
  have services :=
    services_match_of_enough counted descends
      (Nat.le_succ_of_le enough) (Nat.le_succ_of_le otherEnough)
  constructor
  case mode_eq =>
    rfl
  case services =>
    exact services_settle counted descends enough otherEnough
  case openNode =>
    rintro node _ context _ rfl ⟨rfl, depth, isAt⟩
    exact openNode_matches (services depth) rfl ⟨rfl, isAt⟩
      (alike_atDepth descends)
  case callGeneric =>
    rintro node _ context _ rfl ⟨rfl, depth, isAt⟩
    have called :=
      callGeneric_matches (services depth) (Eq.refl node) ⟨rfl, isAt⟩
        (alike_atDepth descends).toFallbackAlike
    exact called
  case starts =>
    apply Sameness.startsAlike
    exact fun _ => ⟨0, rfl⟩
  case descends =>
    exact descendsAlike_atSomeDepth counted

end Enough

end Descent

end Walker

namespace Session

/--
Walks that only descend come to an end. If every call that a handler makes is for the
fallback or a rebuild at its own depth, or for any node one level down, and the
fallback does not call itself, then recursion in proportion to the depth limit is
enough for whatever a caller asks in contexts of natural depth: with any more of it the
answers are the same, with the same results, logs and failures, and none tells that
recursion was used up.
-/
theorem descending_walks_end
    {walker : Walker}
    {handlers : HandlerMap Handler}
    (counted : walker.settings.maxDepth < Number.exactLimit)
    (descends : walker.Descends handlers)
    {steps : List Step}
    (natural :
      ∀ step ∈ steps,
        ∀ context,
          step.context? = some context →
          ∃ depth : Nat, context.position.depth = .ofNat depth) :
    let enough := 3 * walker.settings.maxDepth + 3
    let answers (bound : Nat) :=
      (Session.create walker handlers).answers bound steps
    ∀ bound,
      enough ≤ bound →
      answers bound = answers enough ∧
        ∀ answer ∈ answers bound, answer.reply ≠ .exhausted := by
  intro enough answers bound isEnough
  obtain ⟨bound, rfl⟩ := Nat.exists_eq_add_of_le'
    (Nat.le_trans (Nat.le_add_left 3 _) isEnough)
  obtain ⟨same, permitted⟩ :=
    Sameness.answers_eq
      (Walker.accompanies_of_enough counted descends
        (Nat.le_of_add_le_add_right isEnough) (Nat.le_refl _))
      (fun _ never => never) id natural
  exact ⟨same, fun answer member => (permitted answer member).2⟩

/-- A visitor that goes two levels down. -/
def twoLevelsDown : Walker where
  mode := .visitor
  settings :=
    { trackParents := true
      trackNewParents := false
      trackPaths := true
      maxDepth := 2
      maxDepth_pos := Nat.two_pos
      listener := .silent }
  fallback := none

/-- A visit of the node twice over, one level down. -/
def visitDoubled : Action :=
  .visitUnder
    (.build (.operation .or) [.node, .node])
    .node
    (.ofNat 0)
    { assigned := [], removed := [], position := none }

/-- Whatever is visited is visited doubled, and once more when that was too deep. -/
def doubling : Handler where
  eager := false
  actions :=
    [.rescue [visitDoubled] [.log .depth],
      .rescue [visitDoubled] [.deliver .node]]

/-- The handler for words and for what they become. -/
def doublingWords : HandlerMap Handler :=
  [(.exactly (.term .word), doubling),
    (.exactly (.operation .or), doubling)]

/-- A word visited from the root, and from one level down. -/
def visitsOfWord : List Step :=
  [.traverse (Query.word "a") [],
    .visitNode (Query.word "a")
      { keys := [], position := { depth := .ofNat 1, path := none } }]

/-- The answer that gives a node several times, after as many entries of its depth. -/
def answerAtBottom (count : Nat) (node : Node) : Answer where
  log := List.replicate count (.logged (.number (.ofNat 2)))
  reply := .result (.list (List.replicate count (.node node)))

/--
A word that is doubled over and over is so until the second level, twice at every level
on the way, however much recursion there is.
-/
theorem descending_walks_end_doubling :
    twoLevelsDown.Descends doublingWords ∧
      ∀ bound,
        9 ≤ bound →
        (Session.create twoLevelsDown doublingWords).answers bound
            visitsOfWord =
          [answerAtBottom 4
              (Query.or
                [Query.or [Query.word "a", Query.word "a"],
                  Query.or [Query.word "a", Query.word "a"]]),
            answerAtBottom 2
              (Query.or [Query.word "a", Query.word "a"])] := by
  have counted : twoLevelsDown.settings.maxDepth < Number.exactLimit := by
    decide
  have descends : twoLevelsDown.Descends doublingWords := by
    constructor
    · intro entry member
      rcases List.mem_pair.mp member with rfl | rfl <;>
        exact ⟨⟨rfl, ⟨rfl, trivial⟩, rfl, trivial⟩,
          ⟨rfl, ⟨rfl, trivial⟩, rfl, trivial⟩, trivial⟩
    · intro handler replaced
      cases replaced
  have natural :
      ∀ step ∈ visitsOfWord,
        ∀ context,
          step.context? = some context →
          ∃ depth : Nat, context.position.depth = .ofNat depth := by
    intro step member given isGiven
    rcases List.mem_pair.mp member with rfl | rfl
    · cases isGiven
    · cases isGiven
      exact ⟨1, rfl⟩
  refine ⟨descends, ?_⟩
  intro bound enough
  have same :
      (Session.create twoLevelsDown doublingWords).answers bound
          visitsOfWord =
        (Session.create twoLevelsDown doublingWords).answers 9
          visitsOfWord :=
    (descending_walks_end counted descends natural bound enough).1
  rw [same]
  rfl

end Session

end QueryWalk
