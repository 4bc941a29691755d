/-
# `WarpProxy.Pool.Pick` — the load balancer

`pick` scans the list of workers as a ring, from the round-robin counter on.  Each index is
`(start + off) % workers.len()`, on `usize`: near the top of the counter the sum leaves the range.
A debug build panics there; a release build goes on at the beginning of the list, and may end its
scan before it has come to the ready workers (`pick_complete_iff`).

Below the top the scan is the round robin of `WarpProxy.Lib.RoundRobin` (`scan_serve`).  A worker
behind others that are down also gets their share, so the shares are equal only with all workers
up, or one (`balanced_iff`).
-/
import WarpProxy.Lib.RoundRobin
import WarpProxy.Pool.View

namespace WarpProxy.Pool.State

variable {s : State} {checked : Bool}

/-! ## The scan -/

/-- The netstack for a sum `start + off`. -/
def netAt (s : State) (i : Nat) : Option NetHandle :=
  s.pool.workers[i % s.pool.workers.length]?.bind s.net

/-- The netstacks in the order of the workers. -/
def nets (s : State) : List (Option NetHandle) := s.pool.workers.map s.net

/-- One turn of the loop that does not panic. -/
theorem scan_cons {start off : Nat} (h : checked = false ∨ start + off < 2 ^ 64)
    (offs : List Nat) : s.scan checked start (off :: offs) =
      match s.netAt ((start + off) % 2 ^ 64) with
      | some net => some (some net)
      | none => s.scan checked start offs := by
  have hadd : addUsize checked start off = some ((start + off) % 2 ^ 64) := by
    rw [addUsize]
    split
    · next hlt => rw [Nat.mod_eq_of_lt hlt]
    · next hlt => rw [h.resolve_right hlt, if_neg Bool.false_ne_true]
  rw [scan, hadd]
  rfl

/-- Turns that do not panic find the first ready worker they come to. -/
theorem scan_append {start : Nat} {offs : List Nat} (offs' : List Nat)
    (h : ∀ off ∈ offs, checked = false ∨ start + off < 2 ^ 64) :
    s.scan checked start (offs ++ offs') =
      match offs.findSome? fun off => s.netAt ((start + off) % 2 ^ 64) with
      | some net => some (some net)
      | none => s.scan checked start offs' := by
  induction offs with
  | nil => rfl
  | cons off offs ih =>
      rw [List.cons_append, scan_cons (h off List.mem_cons_self), List.findSome?_cons]
      cases s.netAt ((start + off) % 2 ^ 64) with
      | some net => rfl
      | none => exact ih fun o ho => h o (List.mem_cons_of_mem _ ho)

theorem scan_eq {start : Nat} {offs : List Nat}
    (h : ∀ off ∈ offs, checked = false ∨ start + off < 2 ^ 64) :
    s.scan checked start offs =
      some (offs.findSome? fun off => s.netAt ((start + off) % 2 ^ 64)) := by
  have happend := scan_append (s := s) [] h
  rw [List.append_nil] at happend
  rw [happend]
  cases offs.findSome? fun off => s.netAt ((start + off) % 2 ^ 64) <;> rfl

/-- The first overflow, in a build that checks for it. -/
theorem scan_panics {start off : Nat} (h : 2 ^ 64 ≤ start + off) (offs : List Nat) :
    s.scan true start (off :: offs) = none := by
  rw [scan, addUsize, if_neg (Nat.not_lt.mpr h), if_pos rfl]

/-- **Below the top** of the counter the scan is a round robin. -/
theorem scan_serve {start : Nat} (h : start + s.pool.workers.length ≤ 2 ^ 64) :
    s.scan checked start (List.range s.pool.workers.length) =
      some (RoundRobin.serve s.nets start) := by
  have hlt : ∀ off < s.pool.workers.length, start + off < 2 ^ 64 := fun off hoff => by omega
  have hlen : s.nets.length = s.pool.workers.length := List.length_map _
  have hserve : RoundRobin.serve s.nets start =
      (List.range s.nets.length).findSome? fun off => s.netAt ((start + off) % 2 ^ 64) := by
    refine RoundRobin.serve_eq_findSome fun off hoff => ?_
    rw [hlen] at hoff ⊢
    rw [Nat.mod_eq_of_lt (hlt off hoff), netAt, nets, List.getElem?_map]
    cases s.pool.workers[(start + off) % s.pool.workers.length]? <;> rfl
  rw [scan_eq fun off hoff => Or.inr (hlt off (List.mem_range.mp hoff)), hserve, hlen]

/-! ## The pinned worker -/

/-- The first worker with the pinned id; 0 pins none. -/
def IsPinned (s : State) (w : Ref) : Prop :=
  s.pool.pinned ≠ 0 ∧ (s.heap w).id = s.pool.pinned ∧
    ∃ before after, s.pool.workers = before ++ w :: after ∧
      ∀ v ∈ before, (s.heap v).id ≠ s.pool.pinned

theorem pinnedNet_iff {net : NetHandle} :
    s.pinnedNet = some net ↔ ∃ w, s.IsPinned w ∧ s.net w = some net := by
  rw [pinnedNet]
  split
  · next hpin =>
      rw [Option.bind_eq_some_iff]
      refine exists_congr fun w => and_congr_left fun _ => ?_
      rw [List.find?_eq_some_iff_append]
      simp only [IsPinned, hpin, ne_eq, not_false_eq_true, true_and, beq_iff_eq, Bool.not_eq_true',
        beq_eq_false_iff_ne]
  · next hpin => exact iff_of_false (Option.some_ne_none net).symm fun ⟨w, hw, _⟩ => hpin hw.1

theorem pick_pinned {net : NetHandle} (h : s.pinnedNet = some net) :
    (s.pick checked).1 = some (some net) := by
  have hne : s.pool.workers ≠ [] := by
    obtain ⟨w, ⟨-, -, before, after, hworkers, -⟩, -⟩ := pinnedNet_iff.mp h
    rw [hworkers]
    exact List.append_ne_nil_of_right_ne_nil before (List.cons_ne_nil w after)
  rw [pick, if_neg hne, h]

theorem pick_scan (h : s.pinnedNet = none) : (s.pick checked).1 =
    s.scan checked s.pool.rr.toNat (List.range s.pool.workers.length) := by
  rw [pick, h]
  split
  · next hnil =>
      rw [hnil]
      rfl
  · rfl

/-! ## When the scan is complete -/

/-- What `pick` should do. -/
structure PickComplete (s : State) (checked : Bool) : Prop where
  no_panic : (s.pick checked).1 ≠ none
  pinned : ∀ w net, s.IsPinned w → s.net w = some net → (s.pick checked).1 = some (some net)
  ready : (∃ w ∈ s.pool.workers, s.net w ≠ none) →
    ∃ w ∈ s.pool.workers, ∃ net, s.net w = some net ∧ (s.pick checked).1 = some (some net)

/-- The scan comes to a ready worker: at an offset whose sum is in range or, in a release build, at
any offset, with the sum as it wraps. -/
def ComesToReady (s : State) (checked : Bool) : Prop :=
  ∃ off < s.pool.workers.length,
    (checked = false ∨ s.pool.rr.toNat + off < 2 ^ 64) ∧
      s.netAt ((s.pool.rr.toNat + off) % 2 ^ 64) ≠ none

/-- The pinned worker is ready, or the sums stay in range, or the scan comes to a ready worker, or
there is none and nothing to panic at. -/
def Covers (s : State) (checked : Bool) : Prop :=
  s.pinnedNet ≠ none ∨ s.pool.rr.toNat + s.pool.workers.length ≤ 2 ^ 64 ∨
    s.ComesToReady checked ∨ (checked = false ∧ ∀ w ∈ s.pool.workers, s.net w = none)

theorem PickComplete.of_pick {r : Option NetHandle} (h : (s.pick checked).1 = some r)
    (hnone : r = none → ∀ w ∈ s.pool.workers, s.net w = none) : PickComplete s checked where
  no_panic := by
    rw [h]
    exact Option.some_ne_none r
  pinned w net hw hnet := pick_pinned (pinnedNet_iff.mpr ⟨w, hw, hnet⟩)
  ready := by
    rintro ⟨w, hw, hready⟩
    cases r with
    | none => exact absurd (hnone rfl w hw) hready
    | some net =>
        obtain ⟨v, hv, hnet⟩ := pick_net h
        exact ⟨v, hv, net, hnet, h⟩

/-- A scan that comes to a ready worker stops at one. -/
theorem ComesToReady.scan (h : s.ComesToReady checked) :
    ∃ net, s.scan checked s.pool.rr.toNat (List.range s.pool.workers.length) =
      some (some net) := by
  obtain ⟨off, hoff, hrange, hready⟩ := h
  have hsplit : List.range s.pool.workers.length = List.range (off + 1) ++
      (List.range (s.pool.workers.length - (off + 1))).map (off + 1 + ·) := by
    rw [← List.range_add, Nat.add_sub_cancel' hoff]
  have hbefore : ∀ o ∈ List.range (off + 1),
      checked = false ∨ s.pool.rr.toNat + o < 2 ^ 64 := fun o ho => by
    have hle := List.mem_range.mp ho
    exact hrange.imp_right fun hlt => by omega
  rw [hsplit, scan_append _ hbefore]
  cases hfound : (List.range (off + 1)).findSome? fun o =>
      s.netAt ((s.pool.rr.toNat + o) % 2 ^ 64) with
  | some net => exact ⟨net, rfl⟩
  | none =>
      exact absurd (List.findSome?_eq_none_iff.mp hfound off (List.mem_range.mpr (by omega)))
        hready

/-- A scan that comes to none ends at the first overflow in a debug build, and with nothing in a
release build. -/
theorem scan_of_not (hover : 2 ^ 64 < s.pool.rr.toNat + s.pool.workers.length)
    (h : ¬ s.ComesToReady checked) :
    s.scan checked s.pool.rr.toNat (List.range s.pool.workers.length) =
      if checked then none else some none := by
  have hnone : ∀ off < s.pool.workers.length,
      checked = false ∨ s.pool.rr.toNat + off < 2 ^ 64 →
        s.netAt ((s.pool.rr.toNat + off) % 2 ^ 64) = none :=
    fun off hoff hrange => by_contra fun hready => h ⟨off, hoff, hrange, hready⟩
  cases checked with
  | false =>
      rw [scan_eq fun _ _ => Or.inl rfl, List.findSome?_eq_none_iff.mpr fun off hoff =>
        hnone off (List.mem_range.mp hoff) (Or.inl rfl)]
      rfl
  | true =>
      have hrr := s.pool.rr.toNat_lt
      obtain ⟨k, hk⟩ : ∃ k, k = 2 ^ 64 - s.pool.rr.toNat := ⟨_, rfl⟩
      obtain ⟨more, hmore⟩ : ∃ more, s.pool.workers.length = k + (more + 1) :=
        ⟨s.pool.workers.length - k - 1, by omega⟩
      have hlt : ∀ off ∈ List.range k, s.pool.rr.toNat + off < 2 ^ 64 := fun off hoff => by
        have := List.mem_range.mp hoff
        omega
      have hfound : ((List.range k).findSome? fun off =>
          s.netAt ((s.pool.rr.toNat + off) % 2 ^ 64)) = none :=
        List.findSome?_eq_none_iff.mpr fun off hoff =>
          hnone off (by have := List.mem_range.mp hoff; omega) (Or.inr (hlt off hoff))
      rw [hmore, List.range_add, scan_append _ fun off hoff => Or.inr (hlt off hoff), hfound,
        List.range_succ_eq_map, List.map_cons]
      exact scan_panics (by omega) _

/-- Where no worker is ready, `pick` finds none, or panics on the way. -/
theorem pick_unready (hs : ∀ w ∈ s.pool.workers, s.net w = none) (checked : Bool) :
    (s.pick checked).1 = some none ∨ (s.pick checked).1 = none ∧
      checked = true ∧ 2 ^ 64 < s.pool.rr.toNat + s.pool.workers.length := by
  have hpin : s.pinnedNet = none := by
    refine Option.eq_none_iff_forall_ne_some.mpr fun net hnet => ?_
    obtain ⟨w, ⟨-, -, before, after, hworkers, -⟩, hw⟩ := pinnedNet_iff.mp hnet
    have hmem : w ∈ s.pool.workers := by
      rw [hworkers]
      exact List.mem_append_right _ List.mem_cons_self
    rw [hs w hmem] at hw
    cases hw
  have hcomes : ¬ s.ComesToReady checked := by
    rintro ⟨off, -, -, hready⟩
    exact hready (Option.bind_eq_none_iff.mpr fun w hw => hs w (List.mem_of_getElem? hw))
  rw [pick_scan hpin]
  rcases Nat.lt_or_ge (2 ^ 64) (s.pool.rr.toNat + s.pool.workers.length) with hover | hle
  · rw [scan_of_not hover hcomes]
    cases checked with
    | false => exact .inl rfl
    | true => exact .inr ⟨rfl, rfl, hover⟩
  · have hnone : ∀ net ∈ s.nets, net = none := by
      intro net hnet
      obtain ⟨w, hw, rfl⟩ := List.mem_map.mp hnet
      exact hs w hw
    rw [scan_serve hle, RoundRobin.serve_eq_none_iff.mpr hnone]
    exact .inl rfl

/-- **When `pick` is complete**: for every list of workers, pin and counter value, with or without
overflow checks. -/
theorem pick_complete_iff (s : State) (checked : Bool) :
    s.PickComplete checked ↔ s.Covers checked := by
  cases hpin : s.pinnedNet with
  | some net =>
      refine iff_of_true (.of_pick (pick_pinned hpin) nofun) (Or.inl ?_)
      rw [hpin]
      exact Option.some_ne_none net
  | none =>
      have hpick : (s.pick checked).1 = _ := pick_scan hpin
      constructor
      · intro hcomplete
        rw [Covers]
        by_contra hnot
        simp only [not_or, Nat.not_le] at hnot
        obtain ⟨-, hover, hcomes, hnone⟩ := hnot
        rw [scan_of_not hover hcomes] at hpick
        cases checked with
        | true => exact hcomplete.no_panic hpick
        | false =>
            refine hnone ⟨rfl, fun w hw => by_contra fun hready => ?_⟩
            obtain ⟨v, -, net, -, hnet⟩ := hcomplete.ready ⟨w, hw, hready⟩
            rw [hpick] at hnet
            cases hnet
      · rintro (h | hle | hcomes | ⟨rfl, hnone⟩)
        · exact absurd hpin h
        · rw [scan_serve hle] at hpick
          refine .of_pick hpick fun hserve w hw => ?_
          exact RoundRobin.serve_eq_none_iff.mp hserve _ (List.mem_map_of_mem hw)
        · obtain ⟨net, hscan⟩ := hcomes.scan
          exact .of_pick (hpick.trans hscan) nofun
        · rw [scan_eq fun _ _ => Or.inl rfl] at hpick
          exact .of_pick hpick fun _ => hnone

/-- Workers with these netstacks, and a counter value. -/
def ring (nets : List (Option NetHandle)) (rr : UInt64) : State :=
  { init [] false (.new 0 .blank) with
    pool := { empty false with workers := List.range nets.length, rr := rr }
    heap := fun w =>
      { id := w + 1, rebuild := false,
        inner := { (Worker.new (w + 1) .blank).inner with net := nets[w]?.join } } }

/-- Three workers, the last one ready, and the counter at its end: a debug build panics, a release
build finds no worker. -/
theorem pick_incomplete : ∃ net,
    ¬ (ring [none, none, some net] (UInt64.ofNat (2 ^ 64 - 1))).PickComplete true ∧
      ¬ (ring [none, none, some net] (UInt64.ofNat (2 ^ 64 - 1))).PickComplete false := by
  obtain ⟨net, hnet⟩ : ∃ net : NetHandle, net = ⟨0, 0, none⟩ := ⟨_, rfl⟩
  have hdebug : ((ring [none, none, some net] (UInt64.ofNat (2 ^ 64 - 1))).pick true).1 = none := by
    subst hnet
    decide +kernel
  have hrelease : ((ring [none, none, some net] (UInt64.ofNat (2 ^ 64 - 1))).pick false).1 =
      some none := by
    subst hnet
    decide +kernel
  refine ⟨net, fun h => h.no_panic hdebug, fun h => ?_⟩
  obtain ⟨w, -, found, -, hfound⟩ := h.ready ⟨2, by simp [ring], by simp [ring, State.net]⟩
  rw [hrelease] at hfound
  cases hfound

/-! ## The share of each worker -/

/-- The results of `k` picks in a row, nothing else happening. -/
def picks (s : State) (checked : Bool) : Nat → List (Option (Option NetHandle))
  | 0 => []
  | k + 1 => (s.pick checked).1 :: picks { s with pool := (s.pick checked).2 } checked k

/-- With another counter value. -/
def atRr (s : State) (rr : UInt64) : State := { s with pool := { s.pool with rr := rr } }

/-- The netstacks of the ready workers. -/
def readyNets (s : State) : List NetHandle := s.pool.workers.filterMap s.net

/-- Whenever no sum overflows, `m` times as many picks as there are ready workers return each of
them `m` times. -/
def Balanced (s : State) (checked : Bool) : Prop :=
  ∀ (start : UInt64) (m : Nat),
    (∀ j < m * s.readyNets.length, start.toNat + j + s.pool.workers.length ≤ 2 ^ 64) →
      ∀ net ∈ s.readyNets,
        ((s.atRr start).picks checked (m * s.readyNets.length)).count (some (some net)) = m

theorem mem_readyNets {net : NetHandle} : net ∈ s.readyNets ↔ some net ∈ s.nets := by
  rw [readyNets, List.mem_filterMap, nets, List.mem_map]

theorem count_readyNets (net : NetHandle) :
    s.readyNets.count net = s.nets.count (some net) := by
  rw [readyNets, List.count_filterMap, nets, List.count_eq_countP, List.countP_map]
  rfl

/-- Without a pin, picks are the round robin's. -/
theorem picks_window (hpin : s.pool.pinned = 0) (hne : s.pool.workers ≠ []) {k : Nat}
    (h : ∀ j < k, s.pool.rr.toNat + j + s.pool.workers.length ≤ 2 ^ 64) :
    s.picks checked k = (RoundRobin.window s.nets s.pool.rr.toNat k).map some := by
  induction k generalizing s with
  | zero => rfl
  | succ k ih =>
      have hnone : s.pinnedNet = none := by rw [pinnedNet, if_neg (not_not.mpr hpin)]
      have hpos := List.length_pos_of_ne_nil hne
      have hfirst := h 0 (Nat.succ_pos k)
      have hpick : s.pick checked =
          (some (RoundRobin.serve s.nets s.pool.rr.toNat),
            { s.pool with rr := s.pool.rr + 1 }) := by
        rw [pick, if_neg hne, hnone]
        exact congrArg (·, _) (scan_serve hfirst)
      rw [picks, hpick, RoundRobin.window_succ, List.map_cons]
      cases k with
      | zero => rfl
      | succ k =>
          have hsecond := h 1 (by omega)
          have hrr : (s.pool.rr + 1).toNat = s.pool.rr.toNat + 1 := by
            rw [UInt64.toNat_add, UInt64.toNat_one]
            exact Nat.mod_eq_of_lt (by omega)
          have hrest := @ih { s with pool := { s.pool with rr := s.pool.rr + 1 } } hpin hne
            fun j hj => by
              have hj := h (j + 1) (by omega)
              dsimp only
              omega
          rw [hrest]
          dsimp only
          rw [hrr]
          rfl

/-- **When the round robin is balanced**: without a pin, for a list of workers as long as a `Vec` of
pointers can be, of which some are ready, each with a netstack of its own. -/
theorem balanced_iff (hpin : s.pool.pinned = 0) (hlen : s.pool.workers.length < 2 ^ 60)
    (hready : s.readyNets ≠ []) (hnets : s.readyNets.Nodup) (checked : Bool) :
    s.Balanced checked ↔
      (∀ w ∈ s.pool.workers, s.net w ≠ none) ∨ s.readyNets.length = 1 := by
  have hlength : s.nets.length = s.pool.workers.length := List.length_map _
  have hne : s.pool.workers ≠ [] := by
    rintro hnil
    rw [readyNets, hnil] at hready
    exact hready rfl
  have hwindow : ∀ (start : UInt64) (k : Nat),
      (∀ j < k, start.toNat + j + s.pool.workers.length ≤ 2 ^ 64) → ∀ net,
        ((s.atRr start).picks checked k).count (some (some net)) =
          (RoundRobin.window s.nets start.toNat k).count (some net) := by
    intro start k h net
    rw [picks_window (s := s.atRr start) hpin hne h]
    exact List.count_map_of_injective _ _ (Option.some_injective _) _
  constructor
  · intro hbalanced
    by_contra hnot
    obtain ⟨hdown, htwo⟩ := not_or.mp hnot
    obtain ⟨w, hw, hnone⟩ : ∃ w ∈ s.pool.workers, s.net w = none := by
      by_contra hup
      exact hdown fun w hw hnone => hup ⟨w, hw, hnone⟩
    obtain ⟨net, hnet⟩ := List.exists_mem_of_ne_nil _ hready
    obtain ⟨start, hstart, b, hserve, hserve'⟩ := RoundRobin.exists_twice
      (hnone ▸ List.mem_map_of_mem hw : none ∈ s.nets) (mem_readyNets.mp hnet)
    -- the first two of as many picks as there are ready workers
    have hpos := List.length_pos_of_ne_nil hready
    obtain ⟨k, hk⟩ : ∃ k, s.readyNets.length = k + 2 := ⟨s.readyNets.length - 2, by omega⟩
    have hle : s.readyNets.length ≤ s.pool.workers.length := List.length_filterMap_le _ _
    have htoNat : (UInt64.ofNat start).toNat = start :=
      UInt64.toNat_ofNat_of_lt' ((by omega : start < 2 ^ 60).trans (by decide))
    have hcount := hbalanced (UInt64.ofNat start) 1 (fun j hj => by omega) b
      (mem_readyNets.mpr (RoundRobin.serve_mem hserve))
    rw [hwindow _ _ (fun j hj => by omega), htoNat, Nat.one_mul, hk, RoundRobin.window_succ,
      RoundRobin.window_succ, hserve, hserve', List.count_cons_self, List.count_cons_self] at hcount
    omega
  · intro hcond start m hrange net hnet
    rw [hwindow start _ hrange]
    rcases hcond with hall | hone
    · have hup : none ∉ s.nets := fun hmem => by
        obtain ⟨w, hw, hnone⟩ := List.mem_map.mp hmem
        exact hall w hw hnone
      have hready : s.readyNets.length = s.nets.length := by
        rw [hlength, readyNets, List.length_filterMap_eq_countP, List.countP_eq_length]
        exact fun w hw => Option.isSome_iff_ne_none.mpr (hall w hw)
      rw [hready, RoundRobin.count_window_all hup, ← count_readyNets,
        List.count_eq_one_of_mem hnets hnet, Nat.mul_one]
    · obtain ⟨b, hb⟩ := List.length_eq_one_iff.mp hone
      rw [hb, List.mem_singleton] at hnet
      subst hnet
      rw [hone, Nat.mul_one,
        RoundRobin.window_one (mem_readyNets.mp (hb ▸ List.mem_singleton_self _))
          fun c hc => List.mem_singleton.mp (hb ▸ mem_readyNets.mpr hc), List.count_replicate_self]

theorem balanced_iff_two : (ring [some ⟨0, 0, none⟩, some ⟨1, 0, none⟩] 0).Balanced false :=
  (balanced_iff (by decide) (by decide) (by decide +kernel) (by decide +kernel) false).mpr
    (Or.inl (by decide +kernel))

/-- Three workers, the first one down: two picks from the first on return the second twice. -/
theorem balanced_skewed : ∃ net net', net ≠ net' ∧
    (ring [none, some net, some net'] 0).readyNets = [net, net'] ∧
      ((ring [none, some net, some net'] 0).picks false 2) = [some (some net), some (some net)] ∧
      ¬ (ring [none, some net, some net'] 0).Balanced false := by
  refine ⟨⟨0, 0, none⟩, ⟨1, 0, none⟩, by decide, by decide +kernel, by decide +kernel, fun h => ?_⟩
  have hcount := h 0 1 (by decide +kernel) ⟨1, 0, none⟩ (by decide +kernel)
  revert hcount
  decide +kernel

end WarpProxy.Pool.State
