/-
# `WarpProxy.Lib.Splice` — two byte streams, each copied to its own end

A stream on its way through a copier: what its sender has sent, what of it the copier
has not read, what it holds, what it has given on.  The copier reads, writes what it
has read, and closes its sending side when the stream has ended and all is given
(`Flow.move`).  Nothing is lost, doubled or reordered (`Flow.Sound`), and a copier
that has nothing left to do has given on everything an ended stream had
(`Flow.Stuck.complete`), which it comes to after finitely many moves
(`Flow.work_lt`).

A splice is two of them, one in each direction, that know nothing of each other; left
to itself it comes to rest (`Pair.exists_stuck`), each direction copied to its own end
(`Pair.Reachable.whole`).
-/
import Mathlib.Tactic.Common
import WarpProxy.Lib.Transition

namespace Splice

variable {α : Type}

structure Flow (α : Type) where
  sent : List α
  ended : Bool
  unread : List α
  held : List α
  given : List α
  closed : Bool
  deriving DecidableEq

def Flow.new : Flow α := ⟨[], false, [], [], [], false⟩

inductive Move (α : Type) where
  /-- the sender sends -/
  | send (xs : List α)
  /-- the sender ends its stream -/
  | finish
  /-- the copier reads so many -/
  | take (n : Nat)
  /-- the copier writes so many of those it holds -/
  | give (n : Nat)
  /-- the copier has come to the end of the stream -/
  | close

/-- The moves of the copier. -/
def Move.Own : Move α → Prop
  | .send _ | .finish => False
  | _ => True

namespace Flow
variable (f : Flow α)

def move : Move α → Option (Flow α)
  | .send xs =>
      if f.ended then none else some { f with sent := f.sent ++ xs, unread := f.unread ++ xs }
  | .finish => if f.ended then none else some { f with ended := true }
  | .take n =>
      if f.held = [] ∧ 0 < n ∧ n ≤ f.unread.length then
        some { f with unread := f.unread.drop n, held := f.unread.take n }
      else none
  | .give n =>
      if 0 < n ∧ n ≤ f.held.length then
        some { f with held := f.held.drop n, given := f.given ++ f.held.take n }
      else none
  | .close =>
      if f.ended ∧ f.held = [] ∧ f.unread = [] ∧ f.closed = false then
        some { f with closed := true }
      else none

/-- The stream has ended and everything in it has been given on. -/
structure Complete : Prop where
  ended : f.ended = true
  held : f.held = []
  unread : f.unread = []

/-- Nothing is lost, doubled or reordered, and the end comes after everything. -/
structure Sound : Prop where
  split : f.sent = f.given ++ (f.held ++ f.unread)
  closed : f.closed = true → f.Complete

/-- The copier has nothing left to do. -/
def Stuck : Prop := ∀ m : Move α, m.Own → f.move m = none

/-- How much the copier has left to do. -/
def work : Nat := 2 * f.unread.length + f.held.length + if f.closed then 0 else 1

end Flow

section
variable {f g : Flow α} {m : Move α}

/-! ### Moves that are there -/

theorem Flow.move_send (h : f.ended = false) (xs : List α) :
    f.move (.send xs) = some { f with sent := f.sent ++ xs, unread := f.unread ++ xs } :=
  if_neg (Bool.eq_false_iff.mp h)

theorem Flow.move_finish (h : f.ended = false) :
    f.move .finish = some { f with ended := true } :=
  if_neg (Bool.eq_false_iff.mp h)

/-- Reading what comes first. -/
theorem Flow.move_take {xs ys : List α} (hheld : f.held = []) (hunread : f.unread = xs ++ ys)
    (hxs : xs ≠ []) : f.move (.take xs.length) = some { f with unread := ys, held := xs } := by
  have hle : xs.length ≤ f.unread.length := by
    rw [hunread, List.length_append]
    exact Nat.le_add_right ..
  refine (if_pos ⟨hheld, List.length_pos_iff.mpr hxs, hle⟩).trans ?_
  rw [hunread, List.drop_left, List.take_left]

/-- Writing what was read first. -/
theorem Flow.move_give {xs ys : List α} (hheld : f.held = xs ++ ys) (hxs : xs ≠ []) :
    f.move (.give xs.length) = some { f with held := ys, given := f.given ++ xs } := by
  have hle : xs.length ≤ f.held.length := by
    rw [hheld, List.length_append]
    exact Nat.le_add_right ..
  refine (if_pos ⟨List.length_pos_iff.mpr hxs, hle⟩).trans ?_
  rw [hheld, List.drop_left, List.take_left]

theorem Flow.move_close (h : f.Complete) (hclosed : f.closed = false) :
    f.move .close = some { f with closed := true } :=
  if_pos ⟨h.ended, h.held, h.unread, hclosed⟩

/-! ### What holds -/

theorem Flow.new_sound : (Flow.new : Flow α).Sound := ⟨rfl, fun h => absurd h Bool.false_ne_true⟩

/-- What is missing is what the copier has or has not read. -/
theorem Flow.Sound.given_iff (hs : f.Sound) : f.given = f.sent ↔ f.held = [] ∧ f.unread = [] := by
  rw [hs.split, List.self_eq_append_right, List.append_eq_nil_iff]

theorem Flow.Complete.given (hc : f.Complete) (hs : f.Sound) : f.given = f.sent :=
  hs.given_iff.mpr ⟨hc.held, hc.unread⟩

/-- **One move** keeps it. -/
theorem Flow.Sound.move (hs : f.Sound) (h : f.move m = some g) : g.Sound := by
  cases m with
  | send xs =>
      rw [Flow.move] at h
      obtain ⟨hended, h⟩ := Option.ite_none_left_eq_some.mp h
      cases h
      refine ⟨?_, fun hc => absurd (hs.closed hc).ended hended⟩
      show f.sent ++ xs = f.given ++ (f.held ++ (f.unread ++ xs))
      rw [hs.split, List.append_assoc, List.append_assoc]
  | finish =>
      rw [Flow.move] at h
      obtain ⟨-, h⟩ := Option.ite_none_left_eq_some.mp h
      cases h
      exact ⟨hs.split, fun hc => ⟨rfl, (hs.closed hc).held, (hs.closed hc).unread⟩⟩
  | take n =>
      rw [Flow.move] at h
      obtain ⟨⟨hheld, hpos, hle⟩, rfl⟩ := Option.ite_some_none_eq_some.mp h
      refine ⟨?_, fun hc => ?_⟩
      · show f.sent = f.given ++ (f.unread.take n ++ f.unread.drop n)
        rw [List.take_append_drop, hs.split, hheld, List.nil_append]
      · rw [(hs.closed hc).unread] at hle
        exact absurd hle (Nat.not_le_of_gt hpos)
  | give n =>
      rw [Flow.move] at h
      obtain ⟨⟨hpos, hle⟩, rfl⟩ := Option.ite_some_none_eq_some.mp h
      refine ⟨?_, fun hc => ?_⟩
      · show f.sent = f.given ++ f.held.take n ++ (f.held.drop n ++ f.unread)
        rw [List.append_assoc, ← List.append_assoc (f.held.take n), List.take_append_drop,
          hs.split]
      · rw [(hs.closed hc).held] at hle
        exact absurd hle (Nat.not_le_of_gt hpos)
  | close =>
      rw [Flow.move] at h
      obtain ⟨⟨hended, hheld, hunread, -⟩, rfl⟩ := Option.ite_some_none_eq_some.mp h
      exact ⟨hs.split, fun _ => ⟨hended, hheld, hunread⟩⟩

/-- A copier with nothing left to do has come to the end of a stream that has ended. -/
theorem Flow.Stuck.complete (h : f.Stuck) (hended : f.ended = true) :
    f.Complete ∧ f.closed = true := by
  have hheld : f.held = [] := by
    by_contra hne
    have hgive := h (.give f.held.length) trivial
    rw [Flow.move_give (List.append_nil _).symm hne] at hgive
    cases hgive
  have hunread : f.unread = [] := by
    by_contra hne
    have htake := h (.take f.unread.length) trivial
    rw [Flow.move_take hheld (List.append_nil _).symm hne] at htake
    cases htake
  have hcomplete : f.Complete := ⟨hended, hheld, hunread⟩
  refine ⟨hcomplete, ?_⟩
  by_contra hclosed
  have hclose := h .close trivial
  rw [Flow.move_close hcomplete (Bool.eq_false_iff.mpr hclosed)] at hclose
  cases hclose

theorem Flow.Complete.stuck (hc : f.Complete) (hclosed : f.closed = true) : f.Stuck := by
  intro m hm
  cases m with
  | send xs => exact hm.elim
  | finish => exact hm.elim
  | take n =>
      refine if_neg fun hn => ?_
      rw [hc.unread] at hn
      exact absurd hn.2.2 (Nat.not_le_of_gt hn.2.1)
  | give n =>
      refine if_neg fun hn => ?_
      rw [hc.held] at hn
      exact absurd hn.2 (Nat.not_le_of_gt hn.1)
  | close =>
      refine if_neg fun hn => ?_
      rw [hclosed] at hn
      exact absurd hn.2.2.2.symm Bool.false_ne_true

/-- A move of the copier leaves it less to do. -/
theorem Flow.work_lt (hm : m.Own) (h : f.move m = some g) : g.work < f.work := by
  cases m with
  | send xs => exact hm.elim
  | finish => exact hm.elim
  | take n =>
      rw [Flow.move] at h
      obtain ⟨⟨hheld, hpos, hle⟩, rfl⟩ := Option.ite_some_none_eq_some.mp h
      simp only [Flow.work, hheld, List.length_drop, List.length_take, List.length_nil]
      omega
  | give n =>
      rw [Flow.move] at h
      obtain ⟨⟨hpos, hle⟩, rfl⟩ := Option.ite_some_none_eq_some.mp h
      simp only [Flow.work, List.length_drop]
      omega
  | close =>
      rw [Flow.move] at h
      obtain ⟨⟨-, -, -, hopen⟩, rfl⟩ := Option.ite_some_none_eq_some.mp h
      simp only [Flow.work, hopen, Bool.false_eq_true, if_true, if_false]
      omega

/-- The copier's moves are no matter of what is sent. -/
theorem Flow.move_own (hm : m.Own) (h : f.move m = some g) :
    g.sent = f.sent ∧ g.ended = f.ended := by
  cases m with
  | send xs => exact hm.elim
  | finish => exact hm.elim
  | take n | give n | close =>
      rw [Flow.move] at h
      obtain ⟨-, rfl⟩ := Option.ite_some_none_eq_some.mp h
      exact ⟨rfl, rfl⟩

end

/-! ## Both directions -/

structure Pair (α : Type) where
  up : Flow α
  down : Flow α
  deriving DecidableEq

inductive Dir where
  | up
  | down
  deriving DecidableEq

namespace Pair

def new : Pair α := ⟨.new, .new⟩

def flow (p : Pair α) : Dir → Flow α
  | .up => p.up
  | .down => p.down

/-- A move in one direction. -/
def move (p : Pair α) : Dir → Move α → Option (Pair α)
  | .up, m => (p.up.move m).map fun f => { p with up := f }
  | .down, m => (p.down.move m).map fun f => { p with down := f }

def Step (p : Pair α) (l : Dir × Move α) (q : Pair α) : Prop := p.move l.1 l.2 = some q

abbrev Reachable (p : Pair α) : Prop := Transition.Reachable Step (fun p => p = .new) p

/-- Neither copier has anything left to do. -/
def Stuck (p : Pair α) : Prop := ∀ d, (p.flow d).Stuck

/-- Both have the same streams, ended or not. -/
def SameStreams (p q : Pair α) : Prop :=
  ∀ d, (p.flow d).sent = (q.flow d).sent ∧ (p.flow d).ended = (q.flow d).ended

def work (p : Pair α) : Nat := p.up.work + p.down.work

end Pair

section
variable {p q : Pair α} {d : Dir} {m : Move α}

/-- The other direction is not touched. -/
theorem Pair.move_flow (h : p.move d m = some q) :
    (p.flow d).move m = some (q.flow d) ∧ ∀ d', d' ≠ d → q.flow d' = p.flow d' := by
  cases d with
  | up =>
      obtain ⟨f, hf, rfl⟩ := Option.map_eq_some_iff.mp h
      refine ⟨hf, fun d' hd => ?_⟩
      cases d' with
      | up => exact absurd rfl hd
      | down => rfl
  | down =>
      obtain ⟨f, hf, rfl⟩ := Option.map_eq_some_iff.mp h
      refine ⟨hf, fun d' hd => ?_⟩
      cases d' with
      | up => rfl
      | down => exact absurd rfl hd

theorem Pair.Reachable.sound (h : p.Reachable) (d : Dir) : (p.flow d).Sound := by
  refine Transition.Reachable.invariant (fun p : Pair α => ∀ d, (p.flow d).Sound) h ?_ ?_ d
  · rintro p rfl d
    cases d <;> exact Flow.new_sound
  · rintro p ⟨d, m⟩ q hs hstep d'
    obtain ⟨hmove, hother⟩ := Pair.move_flow hstep
    by_cases hd : d' = d
    · rw [hd]
      exact (hs d).move hmove
    · rw [hother d' hd]
      exact hs d'

/-- The moves of the copiers come to an end. -/
theorem Pair.work_lt (hm : m.Own) (h : p.move d m = some q) : q.work < p.work := by
  cases d with
  | up =>
      obtain ⟨f, hf, rfl⟩ := Option.map_eq_some_iff.mp h
      exact Nat.add_lt_add_right (Flow.work_lt hm hf) _
  | down =>
      obtain ⟨f, hf, rfl⟩ := Option.map_eq_some_iff.mp h
      exact Nat.add_lt_add_left (Flow.work_lt hm hf) _

theorem Pair.stuck_of_quiescent
    (h : Transition.Quiescent Step (fun l : Dir × Move α => l.2.Own) p) : p.Stuck := by
  intro d m hm
  rw [Option.eq_none_iff_forall_not_mem]
  intro f hf
  cases d with
  | up => exact h (.up, m) { p with up := f } hm (Option.map_eq_some_iff.mpr ⟨f, hf, rfl⟩)
  | down => exact h (.down, m) { p with down := f } hm (Option.map_eq_some_iff.mpr ⟨f, hf, rfl⟩)

/-- The copiers, left to themselves, come to rest. -/
theorem Pair.exists_stuck (p : Pair α) :
    ∃ ls q, Transition.Run Step p ls q ∧ q.Stuck ∧ q.SameStreams p := by
  obtain ⟨ls, q, hrun, hown, hquiet⟩ := Transition.Run.exists_quiescent Pair.work
    (fun _ _ _ hl h => Pair.work_lt hl h) (.refl p) (fun _ h => absurd h List.not_mem_nil)
  refine ⟨ls, q, hrun, Pair.stuck_of_quiescent hquiet, ?_⟩
  refine hrun.invariant (Pair.SameStreams · p) (fun d => ⟨rfl, rfl⟩) ?_
  rintro u ⟨d, m⟩ v hl hu hstep d'
  obtain ⟨hmove, hother⟩ := Pair.move_flow hstep
  by_cases hd : d' = d
  · obtain ⟨hsent, hended⟩ := Flow.move_own (hown _ hl) hmove
    rw [hd]
    exact ⟨hsent.trans (hu d).1, hended.trans (hu d).2⟩
  · rw [hother d' hd]
    exact hu d'

/-- **Each direction is copied to its own end.** -/
theorem Pair.Reachable.whole (h : p.Reachable) (hstuck : p.Stuck) (d : Dir)
    (hended : (p.flow d).ended = true) : (p.flow d).given = (p.flow d).sent :=
  ((hstuck d).complete hended).1.given (h.sound d)

end

end Splice
