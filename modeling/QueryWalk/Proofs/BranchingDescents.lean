import Mathlib.Data.List.Infix
import QueryWalk.Context.Branches
import QueryWalk.Proofs.ContextDepth
import QueryWalk.Proofs.ContextMoves

namespace QueryWalk

/-!
# Branching descents

Descents that each start from a context made before make a tree of contexts, in which
one branch leads to each of them. What a context holds is decided by the context at the
start and by its branch alone, and no descent changes a context that is there already.
-/

namespace Descent

variable {settings : Settings} {root : Context}

/-- Descents made after others find what these have made. -/
theorem followAll_append
    (made : List (Except Failure Context))
    (first second : List Descent) :
    followAll settings root made (first ++ second) =
      followAll settings root (followAll settings root made first)
        second := by
  induction first generalizing made with
  | nil =>
      rfl
  | cons descent rest inductionHypothesis =>
      exact inductionHypothesis _

/-- Descents only add to the contexts made so far. -/
theorem isPrefix_followAll
    (made : List (Except Failure Context))
    (descents : List Descent) :
    made <+: followAll settings root made descents := by
  induction descents generalizing made with
  | nil =>
      exact List.prefix_refl made
  | cons descent rest inductionHypothesis =>
      exact
        (List.prefix_append made _).trans (inductionHypothesis _)

theorem length_followAll
    (made : List (Except Failure Context))
    (descents : List Descent) :
    (followAll settings root made descents).length =
      made.length + descents.length := by
  induction descents generalizing made with
  | nil =>
      rfl
  | cons descent rest inductionHypothesis =>
      simp only [followAll, inductionHypothesis, List.length_append,
        List.length_cons, List.length_nil]
      omega

/-- Every descent starts from a context made before. -/
def AreOrdered (descents : List Descent) : Prop :=
  ∀ (place : Nat) (descent : Descent),
    descents[place]? = some descent →
    descent.origin ≤ place

/-- A descent as a move from a context to another. -/
def move (descent : Descent) : Move :=
  .descended descent.parent descent.index

/-- The descents, in order, by which a context comes from the one at the start. -/
inductive Branch (descents : List Descent) : Nat → List Descent → Prop where
  | start :
      Branch descents 0 []
  | onward
      {place : Nat}
      {descent : Descent}
      {earlier : List Descent}
      (isThere : descents[place]? = some descent)
      (before : Branch descents descent.origin earlier) :
      Branch descents (place + 1) (earlier ++ [descent])

/-- One branch, and no other, leads to every context that is made. -/
theorem existsUnique_branch
    {descents : List Descent}
    (ordered : AreOrdered descents)
    {number : Nat}
    (within : number ≤ descents.length) :
    ∃! branch, Branch descents number branch := by
  induction number using Nat.strongRecOn with
  | ind number inductionHypothesis =>
      cases number with
      | zero =>
          refine ⟨[], .start, ?_⟩
          intro branch leads
          cases leads
          rfl
      | succ place =>
          have isThere := List.getElem?_eq_getElem within
          have earlier := ordered place _ isThere
          obtain ⟨branch, leads, unique⟩ :=
            inductionHypothesis descents[place].origin
              (Nat.lt_succ_of_le earlier)
              (Nat.le_trans earlier (Nat.le_of_lt within))
          refine ⟨branch ++ [descents[place]], .onward isThere leads, ?_⟩
          intro other leadsToo
          cases leadsToo with
          | onward isThereToo before =>
              cases Option.some.inj (isThere.symm.trans isThereToo)
              rw [unique _ before]

end Descent

namespace Context

variable
  {settings : Settings}
  {start before reached : Context}
  {descents : List Descent}

@[simp] theorem length_branches :
    (start.branches settings descents).length = descents.length + 1 := by
  rw [branches, Descent.length_followAll, List.length_singleton,
    Nat.add_comm]

/-- Later descents only add to what was made before. -/
theorem isPrefix_branches
    (settings : Settings)
    (start : Context)
    (descents later : List Descent) :
    start.branches settings descents <+:
      start.branches settings (descents ++ later) := by
  unfold branches
  rw [Descent.followAll_append]
  exact Descent.isPrefix_followAll _ later

/-- Later descents leave what was made before as it is. -/
theorem getElem?_branches_append
    {number : Nat}
    (within : number ≤ descents.length)
    (later : List Descent) :
    (start.branches settings (descents ++ later))[number]? =
      (start.branches settings descents)[number]? := by
  obtain ⟨added, same⟩ := isPrefix_branches settings start descents later
  have isMade : number < (start.branches settings descents).length := by
    rw [length_branches]
    exact Nat.lt_succ_of_le within
  rw [← same, List.getElem?_append_left isMade]

/-- The context at the start is the first one there is. -/
theorem getElem?_branches_zero :
    (start.branches settings descents)[0]? = some (.ok start) :=
  getElem?_branches_append (Nat.zero_le [].length) descents

/-- The last descent is followed from what was made before. -/
theorem branches_append_singleton
    (descents : List Descent)
    (descent : Descent) :
    start.branches settings (descents ++ [descent]) =
      start.branches settings descents ++
        [descent.follow settings start
          (start.branches settings descents)] := by
  unfold branches
  rw [Descent.followAll_append]
  rfl

/-- What a descent makes is made of the context that it starts from. -/
theorem getElem?_branches_succ
    {place : Nat}
    {descent : Descent}
    (isThere : descents[place]? = some descent)
    (earlier : descent.origin ≤ place)
    (isMade :
      (start.branches settings descents)[descent.origin]? =
        some (.ok before)) :
    (start.branches settings descents)[place + 1]? =
      some (before.descend settings descent.parent descent.index) := by
  have within := (List.getElem?_eq_some_iff.mp isThere).1
  have lengthBefore : (descents.take place).length = place :=
    List.length_take_of_le (Nat.le_of_lt within)
  have lengthWith : (descents.take (place + 1)).length = place + 1 :=
    List.length_take_of_le within
  have upToIt :
      descents.take (place + 1) = descents.take place ++ [descent] := by
    rw [List.take_add_one, isThere]
    rfl
  have follows :
      descent.follow settings start
          (start.branches settings (descents.take place)) =
        before.descend settings descent.parent descent.index := by
    rw [← List.take_append_drop place descents,
      getElem?_branches_append (by omega)] at isMade
    rw [Descent.follow, List.getD_eq_getElem?_getD, isMade]
    rfl
  have isNext :
      (start.branches settings (descents.take place)).length = place + 1 := by
    rw [length_branches, lengthBefore]
  rw [← List.take_append_drop (place + 1) descents,
    getElem?_branches_append lengthWith.ge, upToIt,
    branches_append_singleton, ← isNext, List.getElem?_concat_length,
    follows]

/--
A context that is at a depth leads along some descents to another. The other is as much
deeper as these are many. Its path goes on with their indices and its chains go on from
what they held with the nodes gone down from, each if it is tracked; an untracked path is
none, and an untracked chain is what it was. All other keys hold what they held.
-/
structure LeadsAlong
    (settings : Settings)
    (start : Context)
    (depth : Nat)
    (branch : List Descent)
    (reached : Context) : Prop where
  depth :
    reached.position.depth = .ofNat (depth + branch.length)
  path :
    reached.position.path =
      if settings.trackPaths then
        some (start.position.path.getD [] ++ branch.map Descent.index)
      else
        none
  tracked :
    ∀ chain : Chain,
      chain.isTracked settings = true →
      ∃ former,
        chain.former? start.keys = some former ∧
          reached.keys.get? chain.key =
            some (.list
              (former ++ branch.map fun descent => .node descent.parent))
  untracked :
    ∀ chain : Chain,
      chain.isTracked settings = false →
      reached.keys.get? chain.key = start.keys.get? chain.key
  other :
    ∀ key : String,
      (∀ chain : Chain,
        chain.isTracked settings = true →
        chain.key ≠ key) →
      reached.keys.get? key = start.keys.get? key

variable
  {depth : Nat}
  {earlier branch : List Descent}
  {descent : Descent}

namespace LeadsAlong

/-- One descent leads from a context to the one that it makes. -/
theorem single
    (isAt : start.position.depth = .ofNat depth)
    (counted : depth < Number.exactLimit)
    (made :
      start.descend settings descent.parent descent.index = .ok reached) :
    start.LeadsAlong settings depth [descent] reached where
  depth := by
    rw [position_of_descend made, Position.child, isAt,
      Number.plusOne_ofNat counted]
    rfl
  path := by
    rw [position_of_descend made]
    rfl
  tracked _ := exists_former_of_descend made
  untracked _ := get?_chain_of_descend made
  other _ := get?_of_descend made

/-- What leads from a context on leads from before it. -/
theorem append
    {later : List Descent}
    (first : start.LeadsAlong settings depth earlier before)
    (second :
      before.LeadsAlong settings (depth + earlier.length) later reached) :
    start.LeadsAlong settings depth (earlier ++ later) reached where
  depth := by
    rw [second.depth, List.length_append, Nat.add_assoc]
  path := by
    rw [second.path, first.path]
    by_cases tracks : settings.trackPaths = true <;> simp [tracks]
  tracked chain isTracked := by
    obtain ⟨former, holds, isExtended⟩ := first.tracked chain isTracked
    obtain ⟨between, holdsBetween, isExtendedFurther⟩ :=
      second.tracked chain isTracked
    rw [Chain.former?_of_list isExtended] at holdsBetween
    cases holdsBetween
    refine ⟨former, holds, ?_⟩
    rw [isExtendedFurther, List.map_append, List.append_assoc]
  untracked chain notTracked := by
    rw [second.untracked chain notTracked, first.untracked chain notTracked]
  other key isOther := by
    rw [second.other key isOther, first.other key isOther]

end LeadsAlong

/-- A context is at the end of a branch: it is at the start, or the start leads to it. -/
def IsEndOf
    (settings : Settings)
    (start : Context)
    (depth : Nat)
    (branch : List Descent)
    (reached : Context) : Prop :=
  branch = [] ∧ reached = start ∨
    start.LeadsAlong settings depth branch reached

namespace IsEndOf

/-- The depth at the end of a branch. -/
theorem depth_eq
    (isEnd : start.IsEndOf settings depth branch before)
    (startsAt : start.position.depth = .ofNat depth) :
    before.position.depth = .ofNat (depth + branch.length) := by
  rcases isEnd with ⟨isEmpty, atStart⟩ | leads
  · subst isEmpty atStart
    exact startsAt
  · exact leads.depth

/-- From the end of a branch the chains can be extended if from the start they can. -/
theorem isIterable
    (isEnd : start.IsEndOf settings depth branch before)
    (iterable : start.IsIterable settings) :
    before.IsIterable settings := by
  rcases isEnd with ⟨-, atStart⟩ | leads
  · rwa [atStart]
  · rw [IsIterable, Chain.areIterable_iff]
    intro chain isTracked
    obtain ⟨former, -, isExtended⟩ := leads.tracked chain isTracked
    exact ⟨_, Chain.former?_of_list isExtended⟩

/-- From the end of a branch a descent leads on. -/
theorem onward
    (isEnd : start.IsEndOf settings depth earlier before)
    (startsAt : start.position.depth = .ofNat depth)
    (counted : depth + earlier.length < Number.exactLimit)
    (made :
      before.descend settings descent.parent descent.index =
        .ok reached) :
    start.LeadsAlong settings depth (earlier ++ [descent]) reached := by
  have further :=
    LeadsAlong.single (isEnd.depth_eq startsAt) counted made
  rcases isEnd with ⟨isEmpty, atStart⟩ | leads
  · subst isEmpty atStart
    exact further
  · exact leads.append further

/--
Where a walk goes one level down and the chains at the start can be extended, a descent
from the end of a branch is made.
-/
theorem exists_descend
    (isEnd : start.IsEndOf settings depth earlier before)
    (iterable : start.IsIterable settings)
    (startsAt : start.position.depth = .ofNat depth)
    (counted : depth + earlier.length < Number.exactLimit)
    (within : depth + earlier.length < settings.maxDepth)
    (descent : Descent) :
    ∃ reached,
      before.descend settings descent.parent descent.index = .ok reached :=
  have isAt := IsAtDepth.of_le (isEnd.depth_eq startsAt) counted.le
  ⟨_, isAt.descend (.inl within) (isEnd.isIterable iterable)
    descent.parent descent.index⟩

/-- Where it does not, a descent from the end of a branch fails for the limit. -/
theorem descend_error
    (isEnd : start.IsEndOf settings depth earlier before)
    (startsAt : start.position.depth = .ofNat depth)
    (counted : depth + earlier.length < Number.exactLimit)
    (beyond : settings.maxDepth ≤ depth + earlier.length)
    (descent : Descent) :
    before.descend settings descent.parent descent.index =
      .error (.traversalDepth (.ofNat settings.maxDepth)) := by
  have isAt := IsAtDepth.of_le (isEnd.depth_eq startsAt) counted.le
  apply isAt.descend_error
  unfold Settings.Admits
  omega

end IsEndOf

/--
Where a walk goes as deep as a branch does and the chains at the start can be extended,
the context at its end is made.
-/
theorem exists_isEndOf
    {number : Nat}
    (startsAt : start.position.depth = .ofNat depth)
    (ordered : Descent.AreOrdered descents)
    (leads : Descent.Branch descents number branch)
    (counted : depth + branch.length ≤ Number.exactLimit)
    (within :
      branch = [] ∨
        start.IsIterable settings ∧
          depth + branch.length ≤ settings.maxDepth) :
    ∃ reached,
      (start.branches settings descents)[number]? = some (.ok reached) ∧
        start.IsEndOf settings depth branch reached := by
  induction leads with
  | start =>
      exact ⟨start, getElem?_branches_zero, .inl ⟨rfl, rfl⟩⟩
  | @onward place descent earlier isThere _ inductionHypothesis =>
      simp only [List.append_eq_nil_iff, List.cons_ne_self, and_false,
        false_or, List.length_append, List.length_singleton] at counted within
      obtain ⟨iterable, within⟩ := within
      obtain ⟨before, isMade, isEnd⟩ :=
        inductionHypothesis (by omega) (.inr ⟨iterable, by omega⟩)
      obtain ⟨reached, made⟩ :=
        isEnd.exists_descend iterable startsAt (by omega) within descent
      refine ⟨reached, ?_, .inr (isEnd.onward startsAt (by omega) made)⟩
      rw [getElem?_branches_succ isThere (ordered place descent isThere)
        isMade, made]

/--
Descents compose along branches, from the root context of any keys or another one at a
depth. One branch leads to every context made, and if it is not empty and no deeper than
the walk goes, the context at its end is one that the start leads to along the branch. The
first descent on a branch that goes deeper fails for the limit and makes no context.
Descents that are made later leave all contexts as they are. Where the context at the
start holds something under a tracked chain that cannot be spread into a list, there is
nothing to go on from: every descent from it within the limit fails for the first such
chain and makes no context.
-/
theorem descents_compose_along_branches
    (settings : Settings)
    (startsAt : start.position.depth = .ofNat depth)
    (ordered : Descent.AreOrdered descents) :
    let made := start.branches settings descents
    made[0]? = some (.ok start) ∧
      (∀ number,
        number ≤ descents.length →
        ∃! branch, Descent.Branch descents number branch) ∧
      (∀ number branch,
        Descent.Branch descents number branch →
        branch ≠ [] →
        start.IsIterable settings →
        depth + branch.length ≤ Number.exactLimit →
        depth + branch.length ≤ settings.maxDepth →
        ∃ reached,
          made[number]? = some (.ok reached) ∧
            start.LeadsAlong settings depth branch reached) ∧
      (∀ place descent earlier,
        descents[place]? = some descent →
        Descent.Branch descents descent.origin earlier →
        depth + earlier.length < Number.exactLimit →
        earlier = [] ∨
          start.IsIterable settings ∧
            depth + earlier.length ≤ settings.maxDepth →
        settings.maxDepth < depth + earlier.length + 1 →
        ∃ before,
          made[descent.origin]? = some (.ok before) ∧
            before.descend settings descent.parent descent.index =
              .error (.traversalDepth (.ofNat settings.maxDepth)) ∧
            made[place + 1]? =
              some
                (.error (.traversalDepth (.ofNat settings.maxDepth)))) ∧
      (∀ chain place descent,
        Chain.stuck? settings start.keys = some chain →
        descents[place]? = some descent →
        descent.origin = 0 →
        depth < Number.exactLimit →
        depth < settings.maxDepth →
        start.descend settings descent.parent descent.index =
            .error (.notIterable chain.key) ∧
          made[place + 1]? = some (.error (.notIterable chain.key))) ∧
      ∀ later, made <+: start.branches settings (descents ++ later) := by
  intro made
  refine
    ⟨getElem?_branches_zero,
      fun _ => Descent.existsUnique_branch ordered, ?_, ?_, ?_,
      isPrefix_branches settings start descents⟩
  · intro number branch leads nonempty iterable counted within
    obtain ⟨reached, isMade, isEnd⟩ :=
      exists_isEndOf startsAt ordered leads counted
        (.inr ⟨iterable, within⟩)
    exact ⟨reached, isMade, isEnd.resolve_left fun atStart =>
      nonempty atStart.1⟩
  · intro place descent earlier isThere leads counted within beyond
    obtain ⟨before, isMade, isEnd⟩ :=
      exists_isEndOf startsAt ordered leads counted.le within
    have fails :=
      isEnd.descend_error startsAt counted (Nat.le_of_lt_succ beyond)
        descent
    refine ⟨before, isMade, fails, ?_⟩
    rw [← fails]
    exact
      getElem?_branches_succ isThere (ordered place descent isThere) isMade
  · intro chain place descent stuck isThere fromStart counted within
    have isAt := IsAtDepth.of_le startsAt counted.le
    have fails :=
      isAt.descend_stuck (.inl within) stuck descent.parent descent.index
    refine ⟨fails, ?_⟩
    rw [← fails]
    apply getElem?_branches_succ isThere (ordered place descent isThere)
    rw [fromStart]
    exact getElem?_branches_zero

/-- Paths and parents are tracked, and the limit is the fourth level. -/
def toFourthLevel : Settings where
  trackParents := true
  trackNewParents := false
  trackPaths := true
  maxDepth := 4
  maxDepth_pos := Nat.zero_lt_succ 3
  listener := .silent

/-- A word that descents start from. -/
def wordNamed (name : String) : Node :=
  .term .word name []

/-- A caller's context at a depth, without a path, whose keys have names of the walk. -/
def atSecondLevel : Context where
  keys :=
    [("depth", .text "mine"),
      ("newParents", .nodes [wordNamed "n"]),
      ("parents", .nodes [wordNamed "p"]),
      ("path", .null)]
  position :=
    { depth := .ofNat 2
      path := none }

/-- The same context with a text and a number under the names of the chains. -/
def withTextAndNumber : Context :=
  { atSecondLevel with
    keys :=
      [("newParents", .number (.ofNat 5)), ("parents", .text "pq")] }

/-- Two descents from the start, one from the first of them, and one from that. -/
def fourDescents : List Descent :=
  [{ origin := 0, parent := wordNamed "a", index := .ofNat 2 },
    { origin := 0, parent := wordNamed "b", index := .ofNat 0 },
    { origin := 1, parent := wordNamed "c", index := .ofNat 5 },
    { origin := 3, parent := wordNamed "d", index := .ofNat 0 }]

/-- Each of them starts from what there is before it. -/
theorem areOrdered_fourDescents : Descent.AreOrdered fourDescents := by
  rintro (_ | _ | _ | _ | place) descent isThere <;>
    cases isThere <;> decide

/--
The third descent composes with the first and knows nothing of the second, keeps the keys
of the caller and the untracked chain, and the fourth is too deep. Parents go on from the
letters of a text, and where new ones are to go on from a number there is no descent.
-/
theorem descents_compose_along_branches_fourDescents :
    let made := atSecondLevel.branches toFourthLevel fourDescents
    let fromText := withTextAndNumber.branches toFourthLevel fourDescents
    let tracking := { toFourthLevel with trackNewParents := true }
    let fromNumber := withTextAndNumber.branches tracking fourDescents
    atSecondLevel.position.depth = .ofNat 2 ∧
      Descent.AreOrdered fourDescents ∧
      (∃ reached,
        made[3]? = some (.ok reached) ∧
          reached.position.depth = .ofNat 4 ∧
          reached.position.path = some [.ofNat 2, .ofNat 5] ∧
          reached.keys.get? "parents" =
            some (.nodes [wordNamed "p", wordNamed "a", wordNamed "c"]) ∧
          reached.keys.get? "newParents" =
            some (.nodes [wordNamed "n"]) ∧
          reached.keys.get? "depth" = some (.text "mine")) ∧
      made[4]? = some (.error (.traversalDepth (.ofNat 4))) ∧
      (∃ reached,
        fromText[2]? = some (.ok reached) ∧
          reached.keys.get? "parents" =
            some
              (.list [.text "p", .text "q", .node (wordNamed "b")])) ∧
      fromNumber[1]? = some (.error (.notIterable "newParents")) := by
  intro made fromText tracking fromNumber
  have leads :
      Descent.Branch fourDescents 3
        ([] ++ [fourDescents[0]] ++ [fourDescents[2]]) :=
    .onward rfl (.onward rfl .start)
  have leadsFirst :
      Descent.Branch fourDescents 2 ([] ++ [fourDescents[1]]) :=
    .onward rfl .start
  obtain ⟨-, -, within, beyond, -⟩ :=
    descents_compose_along_branches toFourthLevel
      (rfl : atSecondLevel.position.depth = .ofNat 2)
      areOrdered_fourDescents
  obtain ⟨-, -, withinText, -⟩ :=
    descents_compose_along_branches toFourthLevel
      (rfl : withTextAndNumber.position.depth = .ofNat 2)
      areOrdered_fourDescents
  obtain ⟨-, -, -, -, stuck, -⟩ :=
    descents_compose_along_branches tracking
      (rfl : withTextAndNumber.position.depth = .ofNat 2)
      areOrdered_fourDescents
  obtain ⟨reached, isMade, along⟩ :=
    within 3 _ leads nofun rfl (by decide) (by decide)
  obtain ⟨_, holds, parents⟩ := along.tracked .parents rfl
  cases Option.some.inj holds
  obtain ⟨_, -, -, fails⟩ :=
    beyond 3 _ _ rfl leads (by decide) (.inr ⟨rfl, by decide⟩)
      (by decide)
  obtain ⟨reachedText, isMadeText, alongText⟩ :=
    withinText 2 _ leadsFirst nofun rfl (by decide) (by decide)
  obtain ⟨_, holdsText, letters⟩ := alongText.tracked .parents rfl
  cases Option.some.inj holdsText
  exact
    ⟨rfl, areOrdered_fourDescents,
      ⟨reached, isMade, along.depth, along.path, parents,
        along.untracked .newParents rfl,
        along.other "depth" fun chain _ => by cases chain <;> decide⟩,
      fails, ⟨reachedText, isMadeText, letters⟩,
      (stuck .newParents 0 _ rfl rfl rfl (by decide) (by decide)).2⟩

end Context

end QueryWalk
