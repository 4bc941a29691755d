/-
# `WarpProxy.Lib.JsonData` — what a program hands to a JSON serializer

`Data` has the kinds of data that a program serializes, and `Data.value` the JSON value of
each.  A value tells its data (`value_injective`), and a struct's fields can be found in it by
their names, in whatever order they have been written (`member_of_perm`).

`print` is a serializer that writes no white space (`print_denotes_iff`).
-/
import Mathlib.Data.List.Perm.Basic
import WarpProxy.Lib.Compact

namespace Json

inductive Data where
  /-- nothing, where there might be something -/
  | none
  | bool (b : Bool)
  | nat (n : Nat)
  | str (cs : List Char)
  | seq (items : List Data)
  | struct (fields : List (List Char × Data))

namespace Data

/-! ## Values -/

mutual

def value : Data → Value
  | none => .null
  | bool b => .bool b
  | nat n => .number (Compact.nat n)
  | str cs => .string (utf16 cs)
  | seq items => .array (values items)
  | struct fields => .object (members fields)

def values : List Data → List Value
  | [] => []
  | d :: ds => d.value :: values ds

def members : List (List Char × Data) → List (List Nat × Value)
  | [] => []
  | (name, d) :: fields => (utf16 name, d.value) :: members fields

end

mutual

/-- **A value tells its data.** -/
theorem value_injective : ∀ {d d' : Data}, d.value = d'.value → d = d'
  | none, d', h => by cases d' <;> simp [value] at h ⊢
  | bool b, d', h => by
      cases d' <;> simp [value] at h ⊢
      exact h
  | nat n, d', h => by
      cases d' <;> simp [value] at h ⊢
      exact Compact.nat_injective h
  | str cs, d', h => by
      cases d' <;> simp [value] at h ⊢
      exact utf16_injective h
  | seq items, d', h => by
      cases d' <;> simp [value] at h ⊢
      exact values_injective h
  | struct fields, d', h => by
      cases d' <;> simp [value] at h ⊢
      exact members_injective h

theorem values_injective : ∀ {ds ds' : List Data}, values ds = values ds' → ds = ds'
  | [], [], _ => rfl
  | [], _ :: _, h => by simp [values] at h
  | _ :: _, [], h => by simp [values] at h
  | d :: ds, d' :: ds', h => by
      simp only [values, List.cons.injEq] at h
      rw [value_injective h.1, values_injective h.2]

theorem members_injective : ∀ {fields fields' : List (List Char × Data)},
    members fields = members fields' → fields = fields'
  | [], [], _ => rfl
  | [], _ :: _, h => by simp [members] at h
  | _ :: _, [], h => by simp [members] at h
  | (name, d) :: fields, (name', d') :: fields', h => by
      simp only [members, List.cons.injEq, Prod.mk.injEq] at h
      rw [utf16_injective h.1.1, value_injective h.1.2, members_injective h.2]

end

theorem members_eq (fields : List (List Char × Data)) :
    members fields = fields.map fun f => (utf16 f.1, f.2.value) := by
  induction fields with
  | nil => rfl
  | cons f fields ih => exact congrArg (_ :: ·) ih

/-! ## Fields by name -/

/-- A field is found by its name. -/
theorem member_of_mem {fields : List (List Char × Data)} (hnodup : (fields.map Prod.fst).Nodup)
    {name : List Char} {d : Data} (hmem : (name, d) ∈ fields) :
    (struct fields).value.member name = some d.value := by
  rw [value, members_eq, Value.member]
  induction fields with
  | nil => cases hmem
  | cons f fields ih =>
      rw [List.map_cons, List.nodup_cons] at hnodup
      rcases List.mem_cons.mp hmem with rfl | hmem
      · rw [List.map_cons, List.find?_cons_of_pos (by simp)]
        rfl
      · have hne : f.1 ≠ name := by
          rintro rfl
          exact hnodup.1 (List.mem_map.mpr ⟨_, hmem, rfl⟩)
        have hne' : utf16 f.1 ≠ utf16 name := fun heq => hne (utf16_injective heq)
        rw [List.map_cons, List.find?_cons_of_neg (by simpa using hne')]
        exact ih hnodup.2 hmem

/-- The order in which the fields are written makes no difference. -/
theorem member_of_perm {fields fields' : List (List Char × Data)} (hperm : fields'.Perm fields)
    (hnodup : (fields.map Prod.fst).Nodup) {name : List Char} {d : Data}
    (hmem : (name, d) ∈ fields) : (struct fields').value.member name = some d.value :=
  member_of_mem ((hperm.map Prod.fst).nodup_iff.mpr hnodup) (hperm.mem_iff.mpr hmem)

/-! ## A serializer -/

mutual

def print : Data → List Char
  | none => Compact.null
  | bool b => Compact.bool b
  | nat n => Compact.nat n
  | str cs => Compact.string cs
  | seq items => Compact.array (prints items)
  | struct fields => Compact.object (printFields fields)

def prints : List Data → List (List Char)
  | [] => []
  | d :: ds => d.print :: prints ds

def printFields : List (List Char × Data) → List (List Char × List Char)
  | [] => []
  | (name, d) :: fields => (name, d.print) :: printFields fields

end

mutual

theorem writes_print : ∀ d : Data, Compact.Writes d.print d.value
  | none => Compact.writes_null
  | bool b => Compact.writes_bool b
  | nat n => Compact.writes_nat n
  | str cs => Compact.writes_string cs
  | seq items => Compact.writes_array (writes_prints items)
  | struct fields => Compact.writes_object (writes_printFields fields)

theorem writes_prints : ∀ ds : List Data, List.Forall₂ Compact.Writes (prints ds) (values ds)
  | [] => .nil
  | d :: ds => .cons (writes_print d) (writes_prints ds)

theorem writes_printFields : ∀ fields : List (List Char × Data),
    List.Forall₂ Compact.WritesMember (printFields fields) (members fields)
  | [] => .nil
  | (_, d) :: fields => .cons ⟨rfl, writes_print d⟩ (writes_printFields fields)

end

/-- **What it prints** denotes the value of the data, and nothing else. -/
theorem print_denotes_iff (d : Data) (v : Value) : Denotes d.print v ↔ v = d.value :=
  (writes_print d).denotes_iff

end Data

end Json
