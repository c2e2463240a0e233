namespace QueryWalk

/-!
# Keyed fields

Named fields are a list of pairs, the first pair with a key being the one that
counts. `insert` and `erase` keep the keys of a list in increasing order. Lists
in this order are equal when they hold the same values under the same keys.
-/

/-- Named values. Whether they are in the order of their keys says `IsOrdered`. -/
abbrev Fields (α : Type) :=
  List (String × α)

namespace Fields

variable {α β : Type}

/-- The value under a key. -/
def get? : Fields α → String → Option α
  | [], _ => none
  | (present, value) :: rest, key =>
      if present = key then some value else get? rest key

/-- Put a value under a key, replacing the one it had. -/
def insert : Fields α → String → α → Fields α
  | [], key, value => [(key, value)]
  | (present, former) :: rest, key, value =>
      if present = key then
        (key, value) :: rest
      else if key < present then
        (key, value) :: (present, former) :: rest
      else
        (present, former) :: insert rest key value

/-- Remove the value under a key. -/
def erase (fields : Fields α) (key : String) : Fields α :=
  fields.filter fun field => field.1 ≠ key

/-- Insert several fields, the last one of equal keys winning. -/
def insertAll (fields : Fields α) (added : List (String × α)) : Fields α :=
  added.foldl (fun result field => result.insert field.1 field.2) fields

/-- Remove the values under several keys. -/
def eraseAll (fields : Fields α) (keys : List String) : Fields α :=
  keys.foldl erase fields

/-- Put pairs given in any order into key order. -/
def ofList (pairs : List (String × α)) : Fields α :=
  insertAll [] pairs

/-- The keys are in increasing order, and so no key is there twice. -/
def IsOrdered (fields : Fields α) : Prop :=
  fields.Pairwise fun earlier later => earlier.1 < later.1

/-- Whether a key is present. -/
def contains (fields : Fields α) (key : String) : Bool :=
  (fields.get? key).isSome

@[simp] theorem get?_nil
    (key : String) :
    get? ([] : Fields α) key = none :=
  rfl

/-- An inserted value is found under its key. -/
@[simp] theorem get?_insert_self
    (fields : Fields α)
    (key : String)
    (value : α) :
    (fields.insert key value).get? key = some value := by
  induction fields with
  | nil =>
      simp [insert, get?]
  | cons field rest inductionHypothesis =>
      rcases field with ⟨present, former⟩
      simp only [insert]
      split
      · simp [get?]
      · rename_i different
        split
        · simp [get?]
        · simpa [get?, different] using inductionHypothesis

/-- Insertion leaves every other key alone. -/
theorem get?_insert_of_ne
    (fields : Fields α)
    {key other : String}
    (different : key ≠ other)
    (value : α) :
    (fields.insert key value).get? other = fields.get? other := by
  induction fields with
  | nil =>
      simp [insert, get?, different]
  | cons field rest inductionHypothesis =>
      rcases field with ⟨present, former⟩
      simp only [insert]
      split
      · rename_i same
        subst same
        simp [get?, different]
      · split
        · simp [get?, different]
        · simp only [get?, inductionHypothesis]

/-- An erased key is absent. -/
@[simp] theorem get?_erase_self
    (fields : Fields α)
    (key : String) :
    (fields.erase key).get? key = none := by
  induction fields with
  | nil =>
      rfl
  | cons field rest inductionHypothesis =>
      rcases field with ⟨present, former⟩
      by_cases same : present = key
      · simpa [erase, List.filter_cons, same] using inductionHypothesis
      · simpa [erase, List.filter_cons, same, get?] using
          inductionHypothesis

/-- Erasure leaves every other key alone. -/
theorem get?_erase_of_ne
    (fields : Fields α)
    {key other : String}
    (different : key ≠ other) :
    (fields.erase key).get? other = fields.get? other := by
  induction fields with
  | nil =>
      rfl
  | cons field rest inductionHypothesis =>
      rcases field with ⟨present, former⟩
      by_cases same : present = key
      · subst same
        simpa [erase, List.filter_cons, get?, different] using
          inductionHypothesis
      · by_cases found : present = other
        · subst found
          simp [erase, get?, same]
        · simpa [erase, List.filter_cons, get?, same, found] using
            inductionHypothesis

/-- Of several erased keys, each is absent and all others are left alone. -/
theorem get?_eraseAll
    (fields : Fields α)
    (keys : List String)
    (key : String) :
    (fields.eraseAll keys).get? key =
      if key ∈ keys then none else fields.get? key := by
  induction keys generalizing fields with
  | nil =>
      simp [eraseAll]
  | cons first rest inductionHypothesis =>
      have further := inductionHypothesis (fields.erase first)
      simp only [eraseAll, List.foldl_cons] at further ⊢
      rw [further]
      by_cases same : first = key
      · subst same
        simp
      · simp [get?_erase_of_ne fields same, Ne.symm same]

/-- Nothing is found under a key that is lower than all that are there. -/
theorem get?_eq_none_of_lt
    {fields : Fields α}
    {key : String}
    (below : ∀ field ∈ fields, key < field.1) :
    fields.get? key = none := by
  induction fields with
  | nil =>
      rfl
  | cons field rest inductionHypothesis =>
      have isBelow := below field List.mem_cons_self
      have different : field.1 ≠ key := by
        intro same
        rw [same] at isBelow
        exact String.lt_irrefl key isBelow
      rw [get?, if_neg different]
      exact inductionHypothesis fun other member =>
        below other (List.mem_cons_of_mem field member)

/-- An insertion adds at most the one field. -/
theorem mem_insert
    {fields : Fields α}
    {key : String}
    {value : α}
    {field : String × α}
    (member : field ∈ fields.insert key value) :
    field = (key, value) ∨ field ∈ fields := by
  induction fields with
  | nil =>
      exact .inl (List.mem_singleton.mp member)
  | cons present rest inductionHypothesis =>
      simp only [insert] at member
      split at member
      · rcases List.mem_cons.mp member with isNew | inRest
        · exact .inl isNew
        · exact .inr (List.mem_cons_of_mem present inRest)
      · split at member
        · exact List.mem_cons.mp member
        · rcases List.mem_cons.mp member with isFirst | isLater
          · exact .inr (isFirst ▸ List.mem_cons_self)
          · exact (inductionHypothesis isLater).imp_right
              (List.mem_cons_of_mem present)

/-- Fields that are put in keep the order. -/
theorem IsOrdered.insert
    {fields : Fields α}
    (ordered : fields.IsOrdered)
    (key : String)
    (value : α) :
    (fields.insert key value).IsOrdered := by
  induction fields with
  | nil =>
      exact List.pairwise_singleton _ _
  | cons field rest inductionHypothesis =>
      obtain ⟨isFirst, inOrder⟩ := List.pairwise_cons.mp ordered
      by_cases same : field.1 = key
      · simp only [Fields.insert, if_pos same]
        subst same
        exact List.pairwise_cons.mpr ⟨isFirst, inOrder⟩
      by_cases isLower : key < field.1
      · simp only [Fields.insert, if_neg same, if_pos isLower]
        refine List.pairwise_cons.mpr ⟨?_, ordered⟩
        intro other member
        rcases List.mem_cons.mp member with rfl | inRest
        · exact isLower
        · exact String.lt_trans isLower (isFirst other inRest)
      · simp only [Fields.insert, if_neg same, if_neg isLower]
        have isHigher : field.1 < key :=
          Std.lt_of_le_of_ne (String.not_lt.mp isLower) same
        refine List.pairwise_cons.mpr ⟨?_, inductionHypothesis inOrder⟩
        intro other member
        rcases mem_insert member with rfl | inRest
        · exact isHigher
        · exact isFirst other inRest

/-- Fields that are taken out keep the order of the others. -/
theorem IsOrdered.erase
    {fields : Fields α}
    (ordered : fields.IsOrdered)
    (key : String) :
    (fields.erase key).IsOrdered :=
  List.Pairwise.filter _ ordered

/-- Several fields that are put in keep the order. -/
theorem IsOrdered.insertAll
    {fields : Fields α}
    (ordered : fields.IsOrdered)
    (added : List (String × α)) :
    (fields.insertAll added).IsOrdered := by
  induction added generalizing fields with
  | nil =>
      exact ordered
  | cons field rest inductionHypothesis =>
      exact inductionHypothesis (ordered.insert field.1 field.2)

/-- Several fields that are taken out keep the order of the others. -/
theorem IsOrdered.eraseAll
    {fields : Fields α}
    (ordered : fields.IsOrdered)
    (removed : List String) :
    (fields.eraseAll removed).IsOrdered := by
  induction removed generalizing fields with
  | nil =>
      exact ordered
  | cons key rest inductionHypothesis =>
      exact inductionHypothesis (ordered.erase key)

/-- Whatever pairs are given, they are put into the order of their keys. -/
theorem isOrdered_ofList
    (pairs : List (String × α)) :
    (ofList pairs).IsOrdered :=
  IsOrdered.insertAll List.Pairwise.nil pairs

/-- In the order of their keys, fields with the same look-ups are the same. -/
theorem IsOrdered.eq_of_get?_eq
    {fields others : Fields α}
    (ordered : fields.IsOrdered)
    (othersOrdered : others.IsOrdered)
    (same : ∀ key, fields.get? key = others.get? key) :
    fields = others := by
  induction fields generalizing others with
  | nil =>
      cases others with
      | nil =>
          rfl
      | cons other rest =>
          have impossible := same other.1
          rw [get?_nil, get?, if_pos rfl] at impossible
          cases impossible
  | cons field rest inductionHypothesis =>
      obtain ⟨isFirst, inOrder⟩ := List.pairwise_cons.mp ordered
      cases others with
      | nil =>
          have impossible := same field.1
          rw [get?_nil, get?, if_pos rfl] at impossible
          cases impossible
      | cons other otherRest =>
          obtain ⟨otherIsFirst, othersInOrder⟩ :=
            List.pairwise_cons.mp othersOrdered
          -- The lowest key of either list is found in the other.
          have sameKey : field.1 = other.1 := by
            apply String.le_antisymm
            · rw [← String.not_lt]
              intro isLower
              have found := same other.1
              rw [get?_eq_none_of_lt, get?, if_pos rfl] at found
              · cases found
              · intro present member
                rcases List.mem_cons.mp member with rfl | inRest
                · exact isLower
                · exact String.lt_trans isLower (isFirst present inRest)
            · rw [← String.not_lt]
              intro isLower
              have found := same field.1
              rw [get?, if_pos rfl, get?_eq_none_of_lt] at found
              · cases found
              · intro present member
                rcases List.mem_cons.mp member with rfl | inRest
                · exact isLower
                · exact String.lt_trans isLower
                    (otherIsFirst present inRest)
          rcases field with ⟨key, value⟩
          rcases other with ⟨otherKey, otherValue⟩
          cases sameKey
          have sameValue := same key
          rw [get?, if_pos rfl, get?, if_pos rfl] at sameValue
          cases sameValue
          have sameRest : rest = otherRest := by
            apply inductionHypothesis inOrder othersInOrder
            intro asked
            by_cases isKey : key = asked
            · subst isKey
              rw [get?_eq_none_of_lt isFirst,
                get?_eq_none_of_lt otherIsFirst]
            · have found := same asked
              rwa [get?, if_neg isKey, get?, if_neg isKey] at found
          rw [sameRest]

end Fields

end QueryWalk
