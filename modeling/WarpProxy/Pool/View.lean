/-
# `WarpProxy.Pool.View` — what the pool shows and hands out

`status`, the snapshot the control API answers with, and `pick`, the netstack for
a new connection.  Both read several fields that are synchronised separately.
`status` reads the pin first, so the pin it saw is an argument; everything else
is read in one state.
-/
import WarpProxy.Lib.IpText
import WarpProxy.Pool.State

namespace WarpProxy.Pool

/-! ## `status` -/

structure AccountStatus where
  id : WorkerId
  ready : Bool
  ip : String
  trace : Option TraceInfo
  deriving DecidableEq

structure PoolStatus where
  enabled : Bool
  mode : String
  pinned : WorkerId
  http2 : Bool
  rotateSeconds : Nat
  accounts : List AccountStatus
  deriving DecidableEq

/-- One row of `status`, read under the worker's lock. -/
def accountStatus (w : Worker) : AccountStatus where
  id := w.id
  ready := w.inner.net.isSome
  ip := String.ofList (IpText.showV4 w.inner.assignedV4)
  trace := w.inner.trace

namespace State

/-- `status()`, whose first line has read `pinned`. -/
def status (s : State) (pinned : WorkerId) : PoolStatus where
  enabled := s.pool.enabled
  mode := if pinned = 0 then "auto" else "pinned"
  pinned := pinned
  http2 := s.pool.http2
  rotateSeconds := s.pool.rotateSecs
  accounts := s.pool.workers.map fun w => accountStatus (s.heap w)

theorem status_mode (s : State) (pinned : WorkerId) :
    (s.status pinned).mode = "pinned" ↔ pinned ≠ 0 := by
  by_cases h : pinned = 0 <;> simp [status, h]

/-! ## `pick` -/

def net (s : State) (w : Ref) : Option NetHandle := (s.heap w).inner.net

/-- `a + b` on `usize`: on overflow it panics (`none`) where the build checks for it, and wraps
otherwise. -/
def addUsize (checked : Bool) (a b : Nat) : Option Nat :=
  if a + b < 2 ^ 64 then some (a + b)
  else if checked then none
  else some ((a + b) % 2 ^ 64)

/-- The loop of `pick` over the offsets to come, started from the counter value `start`. -/
def scan (s : State) (checked : Bool) (start : Nat) : List Nat → Option (Option NetHandle)
  | [] => some none
  | off :: offs =>
      match addUsize checked start off with
      | none => none
      | some i =>
          match s.pool.workers[i % s.pool.workers.length]?.bind s.net with
          | some net => some (some net)
          | none => scan s checked start offs

/-- The pinned worker's netstack, if there is a pin and its worker is ready. -/
def pinnedNet (s : State) : Option NetHandle :=
  if s.pool.pinned ≠ 0 then
    (s.pool.workers.find? fun w => (s.heap w).id == s.pool.pinned).bind s.net
  else none

/-- `pick()`: what it returns, `none` for a panic, and the pool after it. -/
def pick (s : State) (checked : Bool) : Option (Option NetHandle) × Pool :=
  if s.pool.workers = [] then (some none, s.pool)
  else
    match s.pinnedNet with
    | some net => (some (some net), s.pool)
    | none => (s.scan checked s.pool.rr.toNat (List.range s.pool.workers.length),
        { s.pool with rr := s.pool.rr + 1 })

/-- What `pick` hands out is the netstack of a pooled worker. -/
theorem scan_net {s : State} {checked : Bool} {start : Nat} {offs : List Nat} {n : NetHandle}
    (h : s.scan checked start offs = some (some n)) :
    ∃ w ∈ s.pool.workers, s.net w = some n := by
  induction offs with
  | nil => simp [scan] at h
  | cons off offs ih =>
      simp only [scan] at h
      split at h
      · cases h
      · next i _ =>
          split at h
          · next net hnet =>
              obtain ⟨w, hw, hn⟩ := Option.bind_eq_some_iff.mp hnet
              cases h
              exact ⟨w, List.mem_of_getElem? hw, hn⟩
          · exact ih h

theorem pick_net {s : State} {checked : Bool} {n : NetHandle}
    (h : (s.pick checked).1 = some (some n)) : ∃ w ∈ s.pool.workers, s.net w = some n := by
  unfold pick at h
  split at h
  · simp at h
  · split at h
    · next net hpin =>
        cases h
        unfold pinnedNet at hpin
        split at hpin
        · obtain ⟨w, hw, hn⟩ := Option.bind_eq_some_iff.mp hpin
          exact ⟨w, List.mem_of_find?_eq_some hw, hn⟩
        · cases hpin
    · exact scan_net h

end State

end WarpProxy.Pool
