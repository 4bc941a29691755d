/-
# `WarpProxy.Lib.Slots` — a table of slots, the first free one given out

What a table of slots is to those who hold an index into it: a list of flags, true
for a slot in use.  A new slot is the first that is free (`firstFree`), or one more
at the end; so an index is given out again as soon as it has been released, and
the slots in use are those given out and not released (`occupied_occupy_iff`,
`occupied_release_iff`).
-/
import Mathlib.Logic.Basic

namespace Slots

def Occupied (slots : List Bool) (i : Nat) : Prop := slots[i]? = some true

instance (slots : List Bool) (i : Nat) : Decidable (Occupied slots i) :=
  inferInstanceAs (Decidable (_ = _))

/-- The index given out next. -/
def firstFree : List Bool → Nat
  | [] => 0
  | false :: _ => 0
  | true :: slots => firstFree slots + 1

/-- The table after it. -/
def occupy : List Bool → List Bool
  | [] => [true]
  | false :: slots => true :: slots
  | true :: slots => true :: occupy slots

def release (slots : List Bool) (i : Nat) : List Bool := slots.set i false

theorem not_occupied_nil (i : Nat) : ¬ Occupied [] i := by
  intro h
  rw [Occupied, List.getElem?_nil] at h
  cases h

theorem occupied_cons_zero (b : Bool) (slots : List Bool) :
    Occupied (b :: slots) 0 ↔ b = true := by
  rw [Occupied, List.getElem?_cons_zero, Option.some.injEq]

theorem occupied_cons_succ (b : Bool) (slots : List Bool) (i : Nat) :
    Occupied (b :: slots) (i + 1) ↔ Occupied slots i := by
  rw [Occupied, List.getElem?_cons_succ, Occupied]

/-- The slot given out was free. -/
theorem not_occupied_firstFree (slots : List Bool) : ¬ Occupied slots (firstFree slots) := by
  induction slots with
  | nil => exact not_occupied_nil 0
  | cons b slots ih =>
      cases b with
      | false =>
          rw [firstFree, occupied_cons_zero]
          exact Bool.false_ne_true
      | true =>
          rw [firstFree, occupied_cons_succ]
          exact ih

/-- Giving one out adds it to those in use. -/
theorem occupied_occupy_iff (slots : List Bool) (i : Nat) :
    Occupied (occupy slots) i ↔ i = firstFree slots ∨ Occupied slots i := by
  induction slots generalizing i with
  | nil =>
      rw [occupy, firstFree]
      cases i with
      | zero => simp only [occupied_cons_zero, true_or]
      | succ i => simp [occupied_cons_succ, not_occupied_nil]
  | cons b slots ih =>
      cases b with
      | false =>
          rw [occupy, firstFree]
          cases i with
          | zero => simp only [occupied_cons_zero, true_or]
          | succ i => simp [occupied_cons_succ]
      | true =>
          rw [occupy, firstFree]
          cases i with
          | zero => simp only [occupied_cons_zero, or_true]
          | succ i =>
              rw [occupied_cons_succ, occupied_cons_succ, ih, Nat.add_right_cancel_iff]

/-- Releasing one takes it from them. -/
theorem occupied_release_iff (slots : List Bool) (i j : Nat) :
    Occupied (release slots i) j ↔ j ≠ i ∧ Occupied slots j := by
  rw [Occupied, release, List.getElem?_set, Occupied]
  by_cases hij : i = j
  · subst hij
    rw [if_pos rfl]
    constructor
    · intro h
      split at h <;> cases h
    · rintro ⟨hne, -⟩
      exact absurd rfl hne
  · rw [if_neg hij]
    exact ⟨fun h => ⟨Ne.symm hij, h⟩, And.right⟩

end Slots
