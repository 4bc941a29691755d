/-
# `WarpProxy.Lib.Multimap` — a map with several values a key, in order

A map whose keys come in some order, and whose values keep theirs under their key.  Going
over it gives every pair, the pairs of a key one after the other (`toList`), the values of a
key in their order (`filter_toList`); a value that is added comes after the others of its key
(`getAll_append`).  `yielded` goes over it and gives a key with its first value only.
-/
import Mathlib.Data.List.Nodup

/-- No key is there twice, and none without a value. -/
structure Multimap (κ α : Type) where
  groups : List (κ × List α)
  nodup : (groups.map Prod.fst).Nodup
  nonempty : ∀ group ∈ groups, group.2 ≠ []

namespace Multimap

variable {κ α : Type}

def empty : Multimap κ α := ⟨[], List.nodup_nil, fun _ h => nomatch h⟩

/-- Every pair, by key. -/
def toList (m : Multimap κ α) : List (κ × α) :=
  m.groups.flatMap fun group => group.2.map fun v => (group.1, v)

/-- The values of a key, the first of them with the key. -/
def yieldedOf (group : κ × List α) : List (Option κ × α) :=
  match group.2 with
  | [] => []
  | v :: vs => (some group.1, v) :: vs.map fun v => (none, v)

/-- Every value, the first of each key with the key. -/
def yielded (m : Multimap κ α) : List (Option κ × α) := m.groups.flatMap yieldedOf

/-- The pairs of such a list: a value without a key has that of the value before it. -/
def named : Option κ → List (Option κ × α) → List (κ × α)
  | _, [] => []
  | last, (k, v) :: items =>
      match k.or last with
      | none => named none items
      | some k => (k, v) :: named (some k) items

theorem named_values (k : κ) (vs : List α) (items : List (Option κ × α)) :
    named (some k) ((vs.map fun v => (none, v)) ++ items)
      = (vs.map fun v => (k, v)) ++ named (some k) items := by
  induction vs with
  | nil => rfl
  | cons v vs ih => exact congrArg ((k, v) :: ·) ih

theorem named_groups (last : Option κ) (groups : List (κ × List α)) :
    named last (groups.flatMap yieldedOf)
      = groups.flatMap fun group => group.2.map fun v => (group.1, v) := by
  induction groups generalizing last with
  | nil => rfl
  | cons group groups ih =>
      obtain ⟨k, vs⟩ := group
      cases vs with
      | nil => exact ih last
      | cons v vs =>
          have hrest := named_values k vs (groups.flatMap yieldedOf)
          rw [ih (some k)] at hrest
          exact congrArg ((k, v) :: ·) hrest

/-- A map is told from what it yields. -/
theorem named_yielded (m : Multimap κ α) : named none m.yielded = m.toList :=
  named_groups none m.groups

section
variable [DecidableEq κ]

/-- One more value, at the end of its key. -/
def addTo (k : κ) (v : α) : List (κ × List α) → List (κ × List α)
  | [] => [(k, [v])]
  | group :: groups =>
      if group.1 = k then (k, group.2 ++ [v]) :: groups else group :: addTo k v groups

theorem keys_addTo (k : κ) (v : α) (groups : List (κ × List α)) :
    (addTo k v groups).map Prod.fst
      = if k ∈ groups.map Prod.fst then groups.map Prod.fst else groups.map Prod.fst ++ [k] := by
  induction groups with
  | nil => rfl
  | cons group groups ih =>
      unfold addTo
      by_cases hk : group.1 = k
      · simp [hk]
      · rw [if_neg hk, List.map_cons, ih]
        have hne : ¬ k = group.1 := fun h => hk h.symm
        by_cases hmem : k ∈ groups.map Prod.fst
        · rw [if_pos hmem, if_pos (by simp only [List.map_cons, List.mem_cons]; exact .inr hmem)]
          rfl
        · rw [if_neg hmem, if_neg (by
            simp only [List.map_cons, List.mem_cons, not_or]
            exact ⟨hne, hmem⟩)]
          rfl

theorem nonempty_addTo {k : κ} {v : α} {groups : List (κ × List α)}
    (h : ∀ group ∈ groups, group.2 ≠ []) : ∀ group ∈ addTo k v groups, group.2 ≠ [] := by
  induction groups with
  | nil => simp [addTo]
  | cons group groups ih =>
      have htail := ih fun g hg => h g (List.mem_cons_of_mem _ hg)
      intro g hg
      unfold addTo at hg
      split at hg
      · rcases List.mem_cons.mp hg with rfl | hg
        · simp
        · exact h g (List.mem_cons_of_mem _ hg)
      · rcases List.mem_cons.mp hg with rfl | hg
        · exact h g (List.mem_cons_self ..)
        · exact htail g hg

def append (m : Multimap κ α) (k : κ) (v : α) : Multimap κ α where
  groups := addTo k v m.groups
  nodup := by
    rw [keys_addTo]
    split
    · exact m.nodup
    · next hk =>
        refine List.nodup_append.mpr ⟨m.nodup, List.nodup_singleton k, ?_⟩
        intro a ha b hb
        rw [List.mem_singleton.mp hb]
        rintro rfl
        exact hk ha
  nonempty := nonempty_addTo m.nonempty

/-- The values of a key. -/
def getAll (m : Multimap κ α) (k : κ) : List α :=
  (m.groups.find? (·.1 = k)).elim [] Prod.snd

def ofList (pairs : List (κ × α)) : Multimap κ α :=
  pairs.foldl (fun m p => m.append p.1 p.2) empty

theorem find?_addTo (k k' : κ) (v : α) (groups : List (κ × List α)) :
    ((addTo k v groups).find? (·.1 = k')).elim [] Prod.snd
      = if k' = k then (groups.find? (·.1 = k)).elim [] Prod.snd ++ [v]
        else (groups.find? (·.1 = k')).elim [] Prod.snd := by
  induction groups with
  | nil =>
      by_cases hk : k' = k
      · simp [addTo, hk]
      · have hne : ¬ k = k' := fun h => hk h.symm
        simp [addTo, hk, hne]
  | cons group groups ih =>
      unfold addTo
      by_cases hgroup : group.1 = k
      · -- the values of this key
        by_cases hk : k' = k
        · simp [hgroup, hk]
        · have hne : ¬ k = k' := fun h => hk h.symm
          simp [hgroup, hk, hne]
      · rw [if_neg hgroup]
        by_cases hk' : group.1 = k'
        · have hne : k' ≠ k := hk' ▸ hgroup
          simp [hk', hne]
        · simpa [hk', hgroup] using ih

/-- **Adding a value** is to add it after the others of its key. -/
theorem getAll_append (m : Multimap κ α) (k k' : κ) (v : α) :
    (m.append k v).getAll k' = if k' = k then m.getAll k ++ [v] else m.getAll k' :=
  find?_addTo k k' v m.groups

/-- Going over the map gives the values of a key in their order. -/
theorem filter_toList (m : Multimap κ α) (k : κ) :
    (m.toList.filter (·.1 = k)).map Prod.snd = m.getAll k := by
  obtain ⟨groups, hnodup, hne⟩ := m
  simp only [toList, getAll]
  clear hne
  induction groups with
  | nil => rfl
  | cons group groups ih =>
      rw [List.map_cons, List.nodup_cons] at hnodup
      have hrest := ih hnodup.2
      rw [List.flatMap_cons, List.filter_append, List.map_append, hrest]
      by_cases hk : group.1 = k
      · have hnone : groups.find? (·.1 = k) = none := by
          rw [List.find?_eq_none]
          intro g hg
          have hkey : g.1 ≠ k := by
            rintro rfl
            exact hnodup.1 (hk ▸ List.mem_map_of_mem hg)
          simpa using hkey
        have hall : (group.2.map fun v => (group.1, v)).filter (·.1 = k)
            = group.2.map fun v => (group.1, v) := by
          rw [List.filter_eq_self]
          intro p hp
          obtain ⟨v, -, rfl⟩ := List.mem_map.mp hp
          simpa using hk
        have hsnd : Prod.snd ∘ (fun v : α => (group.1, v)) = id := rfl
        rw [hall, hnone, List.find?_cons_of_pos (by simpa using hk), List.map_map, hsnd,
          List.map_id]
        exact List.append_nil _
      · have hno : (group.2.map fun v => (group.1, v)).filter (·.1 = k) = [] := by
          rw [List.filter_eq_nil_iff]
          intro p hp
          obtain ⟨v, -, rfl⟩ := List.mem_map.mp hp
          simpa using hk
        simp [hno, hk]

theorem mem_getAll {m : Multimap κ α} {k : κ} {v : α} :
    v ∈ m.getAll k ↔ (k, v) ∈ m.toList := by
  rw [← filter_toList, List.mem_map]
  constructor
  · rintro ⟨p, hp, rfl⟩
    obtain ⟨hmem, hk⟩ := List.mem_filter.mp hp
    obtain rfl : p.1 = k := by simpa using hk
    exact hmem
  · intro hmem
    exact ⟨(k, v), List.mem_filter.mpr ⟨hmem, by simp⟩, rfl⟩

end

end Multimap
