/-
# `WarpProxy.Lib.RoundRobin` — a round robin that skips what is not ready

A ring of servers, `none` where one is not ready.  A request with counter value `start` goes to the
first ready server from position `start` on, around the ring.

Whoever comes after servers that are not ready also gets their requests.  A window of consecutive
counter values is therefore shared evenly if all servers are ready (`count_window_all`), and if only
one is; otherwise some server is served twice in a row (`exists_twice`).
-/
import Mathlib.Data.List.Rotate
import Mathlib.Data.List.Count
import Mathlib.Data.Nat.Order.Lemmas

namespace RoundRobin

variable {α : Type*} {xs : List (Option α)} {a : α}

/-- The server for the counter value `start`. -/
def serve (xs : List (Option α)) (start : Nat) : Option α := (xs.rotate start).findSome? id

theorem serve_mod (xs : List (Option α)) (start : Nat) :
    serve xs (start % xs.length) = serve xs start := by
  rw [serve, List.rotate_mod, serve]

/-- The scan over the offsets. -/
theorem serve_eq_findSome {start : Nat} {f : Nat → Option α}
    (h : ∀ off < xs.length, f off = xs[(start + off) % xs.length]?.join) :
    serve xs start = (List.range xs.length).findSome? f := by
  have hring : xs.rotate start = (List.range xs.length).map f := by
    refine List.ext_getElem (by simp) fun i hi hi' => ?_
    rw [List.length_rotate] at hi
    have hlt : (i + start) % xs.length < xs.length := Nat.mod_lt _ (by omega)
    rw [List.getElem_rotate, List.getElem_map, List.getElem_range, h i hi, Nat.add_comm start i,
      List.getElem?_eq_getElem hlt, Option.join_some]
  rw [serve, hring, List.findSome?_map]
  rfl

theorem serve_eq_none_iff {start : Nat} : serve xs start = none ↔ ∀ x ∈ xs, x = none := by
  rw [serve, List.findSome?_eq_none_iff]
  simp only [List.mem_rotate, id_eq]

theorem serve_mem {start : Nat} (h : serve xs start = some a) : some a ∈ xs := by
  obtain ⟨x, hx, rfl⟩ := List.exists_of_findSome?_eq_some h
  exact List.mem_rotate.mp hx

theorem exists_serve (h : some a ∈ xs) (start : Nat) : ∃ b, serve xs start = some b := by
  rw [← Option.ne_none_iff_exists']
  exact fun hnone => Option.some_ne_none a (serve_eq_none_iff.mp hnone _ h)

/-- The ring from `start` on. -/
theorem rotate_eq_cons {start : Nat} {x : Option α} (h : xs[start % xs.length]? = some x) :
    ∃ ys, xs.rotate start = x :: ys := by
  cases hring : xs.rotate start with
  | nil =>
      rw [List.rotate_eq_nil_iff.mp hring] at h
      cases h
  | cons y ys =>
      have hpos : 0 < xs.length := by
        rw [← List.length_rotate xs start, hring]
        exact Nat.succ_pos _
      have hhead := List.getElem?_rotate (n := start) hpos
      rw [hring, List.getElem?_cons_zero, Nat.zero_add, h] at hhead
      exact ⟨ys, congrArg (· :: ys) (Option.some.inj hhead)⟩

theorem serve_of_some {start : Nat} (h : xs[start % xs.length]? = some (some a)) :
    serve xs start = some a := by
  obtain ⟨ys, hring⟩ := rotate_eq_cons h
  rw [serve, hring]
  rfl

/-- **A server that is not ready hands its request on.** -/
theorem serve_succ {start : Nat} (h : xs[start % xs.length]? = some none) :
    serve xs start = serve xs (start + 1) := by
  obtain ⟨ys, hring⟩ := rotate_eq_cons h
  rw [serve, serve, ← List.rotate_rotate, hring, List.rotate_cons_succ, List.rotate_zero,
    List.findSome?_append]
  exact (Option.or_none).symm

/-! ## Windows -/

/-- The servers for `k` consecutive counter values. -/
def window (xs : List (Option α)) (start k : Nat) : List (Option α) :=
  (List.range k).map fun j => serve xs (start + j)

theorem window_succ (xs : List (Option α)) (start k : Nat) :
    window xs start (k + 1) = serve xs start :: window xs (start + 1) k := by
  rw [window, List.range_succ_eq_map, List.map_cons, List.map_map]
  refine congrArg _ (List.map_congr_left fun j _ => congrArg (serve xs) ?_)
  rw [Nat.succ_eq_add_one, Nat.add_comm j 1, Nat.add_assoc]

theorem window_add (xs : List (Option α)) (start j k : Nat) :
    window xs start (j + k) = window xs start j ++ window xs (start + j) k := by
  rw [window, window, window, List.range_add, List.map_append, List.map_map]
  exact congrArg _ (List.map_congr_left fun i _ => congrArg (serve xs) (Nat.add_assoc ..).symm)

/-- With all servers ready, once around the ring serves each position once. -/
theorem window_all (h : none ∉ xs) (start : Nat) :
    window xs start xs.length = xs.rotate start := by
  refine List.ext_getElem (by simp [window]) fun i hi hi' => ?_
  have hpos : 0 < xs.length := by
    rw [List.length_rotate] at hi'
    omega
  have hlt : (start + i) % xs.length < xs.length := Nat.mod_lt _ hpos
  rw [List.getElem_rotate]
  simp only [window, List.getElem_map, List.getElem_range, Nat.add_comm i start]
  cases hx : xs[(start + i) % xs.length] with
  | none => exact absurd (hx ▸ List.getElem_mem hlt) h
  | some b => exact serve_of_some ((List.getElem?_eq_getElem hlt).trans (congrArg some hx))

/-- **All servers ready**: `m` rounds serve each `m` times. -/
theorem count_window_all [DecidableEq α] (h : none ∉ xs) (start m : Nat) :
    (window xs start (m * xs.length)).count (some a) = m * xs.count (some a) := by
  induction m generalizing start with
  | zero => rw [Nat.zero_mul, Nat.zero_mul]; rfl
  | succ m ih =>
      rw [Nat.succ_mul, Nat.add_comm, window_add, List.count_append, ih, window_all h,
        (List.rotate_perm xs start).count_eq, Nat.succ_mul, Nat.add_comm]

/-- **One server ready**: it is always served. -/
theorem window_one (hmem : some a ∈ xs) (hone : ∀ b, some b ∈ xs → b = a) (start k : Nat) :
    window xs start k = List.replicate k (some a) := by
  refine List.eq_replicate_iff.mpr ⟨by rw [window, List.length_map, List.length_range], ?_⟩
  intro x hx
  obtain ⟨j, -, rfl⟩ := List.mem_map.mp hx
  obtain ⟨b, hb⟩ := exists_serve hmem (start + j)
  rw [hb, hone b (serve_mem hb)]

/-- **Some ready and some not**: the first ready one behind one that is not is served twice in a
row. -/
theorem exists_twice (hnone : none ∈ xs) (hsome : some a ∈ xs) :
    ∃ start < xs.length, ∃ b, serve xs start = some b ∧ serve xs (start + 1) = some b := by
  obtain ⟨d, hd, hdown⟩ := List.getElem_of_mem hnone
  obtain ⟨u, hu, hup⟩ := List.getElem_of_mem hsome
  have hpos : 0 < xs.length := by omega
  -- from one that is not ready on, the last one that is not ready before a ready one
  have hstart : ¬ xs[(d + 0) % xs.length]? ≠ some none := by
    rw [Nat.add_zero, Nat.mod_eq_of_lt hd, List.getElem?_eq_getElem hd, hdown]
    exact not_not.mpr rfl
  have hreached : ∃ off, xs[(d + off) % xs.length]? ≠ some none := by
    have hmod : (d + (u + (xs.length - d))) % xs.length = u := by
      rw [show d + (u + (xs.length - d)) = u + xs.length by omega, Nat.add_mod_right,
        Nat.mod_eq_of_lt hu]
    refine ⟨u + (xs.length - d), ?_⟩
    rw [hmod, List.getElem?_eq_getElem hu, hup]
    exact fun h => Option.some_ne_none a (Option.some.inj h)
  obtain ⟨off, hbefore, hafter⟩ := Nat.exists_not_and_succ_of_not_zero_of_exists hstart hreached
  have hlt : (d + (off + 1)) % xs.length < xs.length := Nat.mod_lt _ hpos
  rw [List.getElem?_eq_getElem hlt] at hafter
  obtain ⟨b, hb⟩ := Option.ne_none_iff_exists'.mp fun h => hafter (congrArg some h)
  have hserve : serve xs (d + off + 1) = some b :=
    serve_of_some ((List.getElem?_eq_getElem hlt).trans (congrArg some hb))
  refine ⟨(d + off) % xs.length, Nat.mod_lt _ hpos, b, ?_, ?_⟩
  · rw [serve_mod, serve_succ (not_not.mp hbefore), hserve]
  · rw [← serve_mod, Nat.mod_add_mod, serve_mod, hserve]

end RoundRobin
