import QueryWalk.Fields
import QueryWalk.Number

namespace QueryWalk

/-!
# Plain data

Undeclared node properties, caller contexts and answers are plain data:
scalars, lists and records with named fields. Equality of data is decidable.
-/

/-- Plain data. The fields of a record are in key order. -/
inductive Data where
  | null
  | flag (value : Bool)
  | number (value : Number)
  | text (value : String)
  | list (items : List Data)
  | record (fields : List (String × Data))

namespace Data

instance : Inhabited Data := ⟨.null⟩

mutual

/-- Decide equality of two pieces of data. -/
def decideEqual : (left right : Data) → Decidable (left = right)
  | .null, .null => isTrue rfl
  | .flag left, .flag right =>
      decidable_of_iff (left = right) (by simp)
  | .number left, .number right =>
      decidable_of_iff (left = right) (by simp)
  | .text left, .text right =>
      decidable_of_iff (left = right) (by simp)
  | .list left, .list right =>
      have := decideItemsEqual left right
      decidable_of_iff (left = right) (by simp)
  | .record left, .record right =>
      have := decideFieldsEqual left right
      decidable_of_iff (left = right) (by simp)
  | .null, .flag _ | .null, .number _ | .null, .text _
  | .null, .list _ | .null, .record _
  | .flag _, .null | .flag _, .number _ | .flag _, .text _
  | .flag _, .list _ | .flag _, .record _
  | .number _, .null | .number _, .flag _ | .number _, .text _
  | .number _, .list _ | .number _, .record _
  | .text _, .null | .text _, .flag _ | .text _, .number _
  | .text _, .list _ | .text _, .record _
  | .list _, .null | .list _, .flag _ | .list _, .number _
  | .list _, .text _ | .list _, .record _
  | .record _, .null | .record _, .flag _ | .record _, .number _
  | .record _, .text _ | .record _, .list _ => isFalse nofun

/-- Decide equality of two lists of data. -/
def decideItemsEqual : (left right : List Data) → Decidable (left = right)
  | [], [] => isTrue rfl
  | [], _ :: _ => isFalse nofun
  | _ :: _, [] => isFalse nofun
  | left :: lefts, right :: rights =>
      have := decideEqual left right
      have := decideItemsEqual lefts rights
      decidable_of_iff (left = right ∧ lefts = rights) (by simp)

/-- Decide equality of the fields of two records. -/
def decideFieldsEqual :
    (left right : List (String × Data)) → Decidable (left = right)
  | [], [] => isTrue rfl
  | [], _ :: _ => isFalse nofun
  | _ :: _, [] => isFalse nofun
  | (key, left) :: lefts, (key', right) :: rights =>
      have := decideEqual left right
      have := decideFieldsEqual lefts rights
      decidable_of_iff
        (key = key' ∧ left = right ∧ lefts = rights)
        (by simp [and_assoc])

end

instance : DecidableEq Data :=
  decideEqual

/-- A count, as data. -/
def ofNat (count : Nat) : Data :=
  .number (.ofNat count)

end Data

end QueryWalk
