/-
# `WarpProxy.Pool.Rotator` — the auto-rotator and the clock

The task of `spawn_rotator` beside the pool.  One step of it is one access to
shared state, one sleep that ends, or one line of its own; everything else that
happens is a step of the pool (`WarpProxy.Pool.Step`) or time going by.  Its calls
to `rotate` are control operations of the pool like any other, with whatever
outcome, and are kept in `log`.

The interval is read twice in each turn, and may be set between.  What carries the
result is that it is 0 or at least a minute wherever it is read (`clamped`), and
that a turn which gets to its second read has slept in full since the rotation
before it (`Phase.Paced`).
-/
import Mathlib.Data.List.Chain
import Mathlib.Data.List.Rotate
import WarpProxy.Pool.Settled

namespace WarpProxy.Pool

/-- The ids of the accounts, in the order of the list. -/
def State.accounts (s : State) : List WorkerId := s.pool.workers.map fun w => (s.heap w).id

namespace Rotator

/-! ## Time -/

/-- Nanoseconds. -/
def second : Nat := 10 ^ 9

def minute : Nat := minRotateSecs * second

/-- The clock counts seconds in 64 bits. -/
def clockEnd : Nat := 2 ^ 64 * second

/-- What `tokio::time::sleep` sleeps at the most, about 2.2 years. -/
def maxSleep : Nat := 68719476734 * 10 ^ 6

/-- How long a sleep of `secs` lasts at least. -/
def sleepFor (secs : Nat) : Nat := min (secs * second) maxSleep

/-! ## The task -/

/-- An auto-rotation: when `rotate` was called, for which id, what the interval was at the wake-up,
and the accounts it was chosen from. -/
structure Rotation where
  time : Nat
  id : WorkerId
  interval : Nat
  accounts : List WorkerId

inductive Phase where
  /-- before the first `weak.upgrade()` -/
  | top
  /-- before the first load of `rotate_secs` -/
  | reading
  /-- with what it has read, before it drops the `Arc<Pool>` -/
  | loaded (secs : Nat)
  /-- asleep for 30 seconds, the interval being 0 -/
  | idle (since : Nat)
  | sleeping (since secs : Nat)
  /-- before the second `weak.upgrade()` -/
  | woken
  /-- before the second load -/
  | checking
  /-- before `pool.snapshot()` -/
  | awake (interval : Nat)
  /-- with the ids of the snapshot, before the call to `rotate` -/
  | chosen (interval : Nat) (ids : List WorkerId)
  /-- awaiting the call -/
  | rotating (c : Nat)
  /-- before it drops the `Arc<Pool>` -/
  | leaving
  | exited

structure Sys where
  pool : State
  now : Nat
  phase : Phase
  idx : Nat
  log : List Rotation

/-- One step of the task. -/
inductive TaskStep (s : Sys) : Sys → Prop
  | upgrade {p : State} : s.phase = .top → Pool.Step s.pool .cloneHandle p →
      TaskStep s { s with pool := p, phase := .reading }
  | gone : s.phase = .top ∨ s.phase = .woken → ¬ s.pool.Alive →
      TaskStep s { s with phase := .exited }
  | read : s.phase = .reading →
      TaskStep s { s with phase := .loaded s.pool.pool.rotateSecs }
  | off {p : State} : s.phase = .loaded 0 → Pool.Step s.pool .dropHandle p →
      TaskStep s { s with pool := p, phase := .idle s.now }
  | on {p : State} {secs : Nat} : s.phase = .loaded secs → secs ≠ 0 →
      Pool.Step s.pool .dropHandle p →
      TaskStep s { s with pool := p, phase := .sleeping s.now secs }
  | idled {since : Nat} : s.phase = .idle since → since + sleepFor 30 ≤ s.now →
      TaskStep s { s with phase := .top }
  | slept {since secs : Nat} : s.phase = .sleeping since secs → since + sleepFor secs ≤ s.now →
      TaskStep s { s with phase := .woken }
  | upgradeAgain {p : State} : s.phase = .woken → Pool.Step s.pool .cloneHandle p →
      TaskStep s { s with pool := p, phase := .checking }
  | disabled : s.phase = .checking → s.pool.pool.rotateSecs = 0 →
      TaskStep s { s with phase := .leaving }
  | enabled : s.phase = .checking → s.pool.pool.rotateSecs ≠ 0 →
      TaskStep s { s with phase := .awake s.pool.pool.rotateSecs }
  | empty {interval : Nat} : s.phase = .awake interval → s.pool.locked = false →
      s.pool.accounts = [] → TaskStep s { s with phase := .leaving }
  | snapshot {interval : Nat} : s.phase = .awake interval → s.pool.locked = false →
      s.pool.accounts ≠ [] → TaskStep s { s with phase := .chosen interval s.pool.accounts }
  | rotate {p : State} {interval id : Nat} {ids : List WorkerId}
      {registered : Except Error WarpConfig} : s.phase = .chosen interval ids →
      ids[s.idx % ids.length]? = some id →
      Pool.Step s.pool (.start s.pool.nextCall (.rotate id registered)) p →
      TaskStep s
        { s with
          pool := p
          phase := .rotating s.pool.nextCall
          idx := (s.idx + 1) % 2 ^ 64
          log := s.log ++ [⟨s.now, id, interval, ids⟩] }
  | rotated {c : Nat} {r : Outcome} : s.phase = .rotating c → s.pool.calls c = some (.done r) →
      TaskStep s { s with phase := .leaving }
  | leave {p : State} : s.phase = .leaving → Pool.Step s.pool .dropHandle p →
      TaskStep s { s with pool := p, phase := .top }

inductive Label where
  | task
  | pool (l : Pool.Label)
  | tick (ns : Nat)

/-- The task runs once `Pool::new` has spawned it. -/
inductive Step (s : Sys) : Label → Sys → Prop
  | task {t : Sys} : s.pool.ready = true → TaskStep s t → Step s .task t
  | pool {l : Pool.Label} {p : State} : Pool.Step s.pool l p → Step s (.pool l) { s with pool := p }
  | tick (ns : Nat) : s.now + ns < clockEnd → Step s (.tick ns) { s with now := s.now + ns }

def Init (s : Sys) : Prop :=
  Pool.Init s.pool ∧ s.now < clockEnd ∧ s.phase = .top ∧ s.idx = 0 ∧ s.log = []

abbrev Reachable (s : Sys) : Prop := Transition.Reachable Step Init s

/-! ## The interval -/

/-- Off, or at least a minute. -/
def Clamped (secs : Nat) : Prop := secs = 0 ∨ minRotateSecs ≤ secs

theorem clampRotate_clamped (secs : Nat) : Clamped (clampRotate secs) := by
  rw [clampRotate]
  split
  · exact .inl rfl
  · exact .inr (Nat.le_max_right ..)

theorem CallStep.rotateSecs {c : Nat} {s t : State} {call : Call} (h : CallStep c s call t) :
    t.pool.rotateSecs = s.pool.rotateSecs ∨ ∃ secs, t.pool.rotateSecs = clampRotate secs := by
  cases h with
  | @setRotateInterval secs => exact .inr ⟨secs, rfl⟩
  | @newBuild _ _ _ _ p _ hb =>
      have hpool := hb.frame.2.2.1
      cases p <;> exact .inl (congrArg Pool.rotateSecs hpool)
  | @addBuild _ _ _ _ p _ hb =>
      have hpool := hb.frame.2.2.1
      cases p <;> exact .inl (congrArg Pool.rotateSecs hpool)
  | notify =>
      refine .inl ?_
      show (State.notifyIf ..).pool.rotateSecs = _
      rw [State.notifyIf]
      split <;> rfl
  | _ => exact .inl rfl

/-- Only `set_rotate_interval` sets the interval. -/
theorem step_clamped {s t : State} {l : Pool.Label} (h : Pool.Step s l t)
    (hs : Clamped s.pool.rotateSecs) : Clamped t.pool.rotateSecs := by
  cases h with
  | call _ h =>
      rcases CallStep.rotateSecs h with heq | ⟨secs, heq⟩
      · rwa [heq]
      · rw [heq]
        exact clampRotate_clamped secs
  | sup h => rwa [h.frame.1]
  | trace _ h => rwa [h.frame.1]
  | _ => exact hs

/-! ## The invariant -/

/-- When the last rotation started. -/
def lastStart (log : List Rotation) : Nat := (log.getLast?.map Rotation.time).getD 0

@[simp] theorem lastStart_concat (log : List Rotation) (r : Rotation) :
    lastStart (log ++ [r]) = r.time := by
  rw [lastStart, List.getLast?_concat]
  rfl

/-- How far a turn has come since the rotation that started at `last`. -/
def Phase.Paced (last now : Nat) : Phase → Prop
  | .loaded secs => Clamped secs
  | .sleeping since secs => minRotateSecs ≤ secs ∧ last ≤ since
  | .woken | .checking => last + minute ≤ now
  | .awake interval | .chosen interval _ => interval ≠ 0 ∧ last + minute ≤ now
  | _ => True

theorem Phase.Paced.later {phase : Phase} {last now now' : Nat} (h : phase.Paced last now)
    (hnow : now ≤ now') : phase.Paced last now' := by
  cases phase with
  | woken | checking => exact Nat.le_trans h hnow
  | awake | chosen => exact ⟨h.1, Nat.le_trans h.2 hnow⟩
  | _ => exact h

theorem minute_le_sleepFor {secs : Nat} (h : minRotateSecs ≤ secs) : minute ≤ sleepFor secs := by
  refine Nat.le_min.mpr ⟨Nat.mul_le_mul_right second h, ?_⟩
  decide

structure Inv (s : Sys) : Prop where
  clamped : Clamped s.pool.pool.rotateSecs
  paced : s.phase.Paced (lastStart s.log) s.now
  started : lastStart s.log ≤ s.now
  running : s.now < clockEnd
  idx : s.idx = s.log.length
  count : s.log.length * minute ≤ lastStart s.log
  spaced : s.log.IsChain fun a b => a.time + minute ≤ b.time
  enabled : ∀ r ∈ s.log, r.interval ≠ 0
  served : ∀ (j : Nat) (r : Rotation), s.log[j]? = some r →
    r.accounts[j % r.accounts.length]? = some r.id

section
variable {s t : Sys}

/-- Steps that leave the log alone. -/
theorem Inv.quiet (hi : Inv s) {p : State} {phase : Phase} (hp : Clamped p.pool.rotateSecs)
    (hphase : phase.Paced (lastStart s.log) s.now) : Inv { s with pool := p, phase := phase } :=
  ⟨hp, hphase, hi.started, hi.running, hi.idx, hi.count, hi.spaced, hi.enabled, hi.served⟩

/-- A rotation starts. -/
theorem Inv.rotate (hi : Inv s) {p : State} {interval id c : Nat} {ids : List WorkerId}
    (hp : Clamped p.pool.rotateSecs) (hphase : s.phase = .chosen interval ids)
    (hid : ids[s.idx % ids.length]? = some id) :
    Inv { s with
          pool := p
          phase := .rotating c
          idx := (s.idx + 1) % 2 ^ 64
          log := s.log ++ [⟨s.now, id, interval, ids⟩] } := by
  have hpaced := hi.paced
  rw [hphase] at hpaced
  obtain ⟨hon, hdue⟩ := hpaced
  have hcount : (s.log.length + 1) * minute ≤ s.now := by
    have hbefore := hi.count
    rw [Nat.succ_mul]
    omega
  -- the clock ends before the counter does
  have hidx : s.idx + 1 < 2 ^ 64 := by
    have hrunning := hi.running
    have hidx := hi.idx
    simp only [clockEnd, minute, minRotateSecs, second] at hrunning hcount
    omega
  refine ⟨hp, trivial, by simp, hi.running, ?_, ?_, ?_, ?_, ?_⟩
  · rw [Nat.mod_eq_of_lt hidx, hi.idx, List.length_append, List.length_singleton]
  · rw [List.length_append, List.length_singleton, lastStart_concat]
    exact hcount
  · refine hi.spaced.append (List.isChain_singleton _) fun a ha b hb => ?_
    obtain rfl : _ = b := Option.some.inj hb
    have hlast : lastStart s.log = a.time := by rw [lastStart, Option.mem_def.mp ha]; rfl
    rw [← hlast]
    exact hdue
  · intro r hr
    rcases List.mem_append.mp hr with hr | hr
    · exact hi.enabled r hr
    · rw [List.mem_singleton.mp hr]
      exact hon
  · intro j r hr
    rw [List.getElem?_append] at hr
    split at hr
    · exact hi.served j r hr
    · next hj =>
        obtain ⟨hj', rfl⟩ : j - s.log.length = 0 ∧ _ = r := by
          simpa [List.getElem?_singleton] using hr
        obtain rfl : j = s.log.length := by omega
        rw [← hi.idx]
        exact hid

theorem TaskStep.inv (h : TaskStep s t) (hi : Inv s) : Inv t := by
  cases h with
  | upgrade _ hp => exact hi.quiet (step_clamped hp hi.clamped) trivial
  | gone => exact hi.quiet hi.clamped trivial
  | read => exact hi.quiet hi.clamped hi.clamped
  | off _ hp => exact hi.quiet (step_clamped hp hi.clamped) trivial
  | on hphase hsecs hp =>
      have hpaced := hi.paced
      rw [hphase] at hpaced
      exact hi.quiet (step_clamped hp hi.clamped) ⟨hpaced.resolve_left hsecs, hi.started⟩
  | idled => exact hi.quiet hi.clamped trivial
  | slept hphase hwoken =>
      have hpaced := hi.paced
      rw [hphase] at hpaced
      have hsleep := minute_le_sleepFor hpaced.1
      have hsince := hpaced.2
      refine hi.quiet hi.clamped ?_
      show _ + minute ≤ _
      omega
  | upgradeAgain hphase hp =>
      have hpaced := hi.paced
      rw [hphase] at hpaced
      exact hi.quiet (step_clamped hp hi.clamped) hpaced
  | disabled => exact hi.quiet hi.clamped trivial
  | enabled hphase hon =>
      have hpaced := hi.paced
      rw [hphase] at hpaced
      exact hi.quiet hi.clamped ⟨hon, hpaced⟩
  | empty => exact hi.quiet hi.clamped trivial
  | snapshot hphase _ _ =>
      have hpaced := hi.paced
      rw [hphase] at hpaced
      exact hi.quiet hi.clamped hpaced
  | rotate hphase hid hp => exact hi.rotate (step_clamped hp hi.clamped) hphase hid
  | rotated => exact hi.quiet hi.clamped trivial
  | leave _ hp => exact hi.quiet (step_clamped hp hi.clamped) trivial

theorem Step.inv {l : Label} (h : Step s l t) (hi : Inv s) : Inv t := by
  cases h with
  | task _ h => exact h.inv hi
  | pool h => exact hi.quiet (step_clamped h hi.clamped) hi.paced
  | tick ns hns =>
      exact ⟨hi.clamped, hi.paced.later (Nat.le_add_right ..),
        Nat.le_trans hi.started (Nat.le_add_right ..), hns, hi.idx, hi.count, hi.spaced, hi.enabled,
        hi.served⟩

theorem init_inv (h : Init s) : Inv s := by
  obtain ⟨⟨configs, http2, blank, hpool⟩, hnow, hphase, hidx, hlog⟩ := h
  refine ⟨.inl (by rw [hpool]; rfl), by rw [hphase]; trivial, by rw [hlog]; exact Nat.zero_le _,
    hnow, by rw [hidx, hlog]; rfl, by rw [hlog]; decide, by rw [hlog]; exact .nil, ?_, ?_⟩
  · rw [hlog]
    exact fun r hr => absurd hr List.not_mem_nil
  · rw [hlog]
    exact fun j r hr => (by cases hr)

theorem reachable_inv (h : Reachable s) : Inv s :=
  h.invariant Inv (fun _ => init_inv) fun _ _ _ hi hs => hs.inv hi

/-- **To the pool the rotator is one more user**: what holds of every run of the pool holds beside
it. -/
theorem reachable_pool (h : Reachable s) : Pool.Reachable s.pool := by
  refine h.invariant (fun s => Pool.Reachable s.pool) (fun s hs => .init hs.1) fun s l t hs ht => ?_
  cases ht with
  | pool hp => exact hs.tail hp
  | tick => exact hs
  | task _ ht =>
      cases ht with
      | upgrade _ hp | off _ hp | on _ _ hp | upgradeAgain _ hp | rotate _ _ hp | leave _ hp =>
          exact hs.tail hp
      | _ => exact hs

/-! ## A turn -/

/-- Nothing stands in the way of a turn; the interval is a minute. -/
structure Clear (ids : List WorkerId) (s : Sys) : Prop where
  ready : s.pool.ready = true
  held : 0 < s.pool.handles
  unlocked : s.pool.locked = false
  accounts : s.pool.accounts = ids
  interval : s.pool.pool.rotateSecs = minRotateSecs

/-- The steps of a stretch in which the list stays. -/
abbrev Stays (ids : List WorkerId) : Sys → List Label → Sys → Prop :=
  Transition.Run (Transition.guarded Step fun u _ => u.pool.accounts = ids)

theorem Stays.task {ids : List WorkerId} {ls : List Label} {u : Sys} (h : Stays ids s ls t)
    (hids : t.pool.accounts = ids) (hready : t.pool.ready = true) (hstep : TaskStep t u) :
    Stays ids s (ls ++ [.task]) u :=
  h.tail ⟨.task hready hstep, hids⟩

theorem Stays.call {ids : List WorkerId} {ls : List Label} {c : Nat} {call : Call} {p : State}
    (h : Stays ids s ls t) (hids : t.pool.accounts = ids) (hc : t.pool.calls c = some call)
    (hstep : CallStep c t.pool call p) :
    Stays ids s (ls ++ [.pool (.call c)]) { t with pool := p } :=
  h.tail ⟨.pool (.call hc hstep), hids⟩

theorem Stays.tick {ids : List WorkerId} {ls : List Label} (h : Stays ids s ls t) (ns : Nat)
    (hids : t.pool.accounts = ids) (hns : t.now + ns < clockEnd) :
    Stays ids s (ls ++ [.tick ns]) { t with now := t.now + ns } :=
  h.tail ⟨.tick ns hns, hids⟩

/-- A call to `rotate` whose registration fails comes to its end. -/
theorem Stays.rotated {ids : List WorkerId} {ls : List Label} {c : Nat} {id : WorkerId} {e : Error}
    (h : Stays ids s ls t) (hids : t.pool.accounts = ids) (hl : t.pool.locked = false)
    (hc : t.pool.calls c = some (.rotate id (.error e))) :
    ∃ ls' p r, Stays ids s ls' { t with pool := p } ∧ p.calls c = some (.done r)
      ∧ p.pool = t.pool.pool ∧ p.heap = t.pool.heap ∧ p.ready = t.pool.ready
      ∧ p.handles = t.pool.handles ∧ p.locked = t.pool.locked := by
  have hself : ∀ (p : State) (call : Call), (p.setCall c call).calls c = some call :=
    fun p call => State.calls_setCall_self ..
  have h₁ := h.call hids hc (.rotate hl)
  cases htarget : t.pool.rotateTarget t.pool.pool.workers id with
  | none =>
      have h₂ := h₁.call hids (hself ..) (.rotateNone htarget)
      exact ⟨_, _, _, h₂, hself _ _, rfl, rfl, rfl, rfl, rfl⟩
  | some w =>
      have h₂ := h₁.call hids (hself ..) (.rotatePick htarget)
      have h₃ := h₂.call hids (hself ..) .rotateFailed
      exact ⟨_, _, _, h₃, hself _ _, rfl, rfl, rfl, rfl, rfl⟩

/-- The task sleeps for a minute, and chooses from the accounts. -/
theorem Clear.wakes {ids : List WorkerId} {ls : List Label} {s₀ : Sys} (h : Clear ids s)
    (hrun : Stays ids s₀ ls s) (htop : s.phase = .top) (hne : ids ≠ [])
    (hnow : s.now + minute < clockEnd) :
    ∃ ls' t, Stays ids s₀ ls' t ∧ Clear ids t ∧ t.phase = .chosen minRotateSecs ids
      ∧ 1 < t.pool.handles ∧ t.now = s.now + minute ∧ t.idx = s.idx ∧ t.log = s.log := by
  obtain ⟨hready, hheld, hl, hids, hsecs⟩ := h
  have hheld' : 1 < s.pool.handles + 1 := Nat.succ_lt_succ hheld
  let held : State := { s.pool with handles := s.pool.handles + 1 }
  have hdrop : Pool.Step held .dropHandle s.pool := .dropHandle (Nat.succ_pos _) (.inl hheld')
  have h₁ : Stays ids s₀ _ { s with pool := held, phase := .reading } :=
    hrun.task hids hready (.upgrade htop (.cloneHandle (.inl hheld)))
  have h₂ := h₁.task hids hready (.read rfl)
  have h₃ := h₂.task hids hready (.on (congrArg Phase.loaded hsecs) (by decide) hdrop)
  have h₄ := h₃.tick minute hids hnow
  have h₅ := h₄.task hids hready (.slept rfl (Nat.add_le_add_left (by decide) s.now))
  have h₆ : Stays ids s₀ _ { s with pool := held, now := s.now + minute, phase := .checking } :=
    h₅.task hids hready (.upgradeAgain rfl (.cloneHandle (.inl hheld)))
  have h₇ := h₆.task hids hready (.enabled rfl (fun h => absurd (hsecs.symm.trans h) (by decide)))
  have h₈ := h₇.task hids hready (.snapshot rfl hl (fun h => hne (hids.symm.trans h)))
  exact ⟨_, _, h₈, ⟨hready, Nat.succ_pos _, hl, hids, hsecs⟩,
    congrArg₂ Phase.chosen hsecs hids, hheld', rfl, rfl, rfl⟩

/-- **A turn is possible**, and goes on to the next account. -/
theorem Clear.turn {ids : List WorkerId} {id : WorkerId} {ls : List Label} {s₀ : Sys}
    (h : Clear ids s) (hrun : Stays ids s₀ ls s) (htop : s.phase = .top)
    (hid : ids[s.idx % ids.length]? = some id) (hnow : s.now + minute < clockEnd) :
    ∃ ls' t, Stays ids s₀ ls' t ∧ Clear ids t ∧ t.phase = .top ∧ t.now = s.now + minute
      ∧ t.idx = (s.idx + 1) % 2 ^ 64
      ∧ t.log = s.log ++ [⟨s.now + minute, id, minRotateSecs, ids⟩] := by
  have hne : ids ≠ [] := by
    rintro rfl
    cases hid
  obtain ⟨ls₁, u, hu, ⟨hready, -, hl, hids, hsecs⟩, hphase, hheld, hnow', hidx, hlog⟩ :=
    h.wakes hrun htop hne hnow
  rw [← hidx] at hid ⊢
  rw [← hnow', ← hlog]
  have h₁ := hu.task hids hready (.rotate hphase hid
    (.start (.rotate id (.error (.api 429 "later"))) hready (Nat.zero_lt_of_lt hheld)))
  obtain ⟨ls', p, r, h₂, hdone, hpool, hheap, hready', hhandles, hl'⟩ :=
    h₁.rotated hids hl (State.calls_setCall_self ..)
  have hids' : p.accounts = ids := by
    rw [State.accounts, hpool, hheap]
    exact hids
  have hmore : 1 < p.handles := hhandles ▸ hheld
  have h₃ := h₂.task hids' (hready'.trans hready) (.rotated rfl hdone)
  have h₄ := h₃.task hids' (hready'.trans hready)
    (.leave rfl (.dropHandle (Nat.zero_lt_of_lt hmore) (.inl hmore)))
  exact ⟨_, _, h₄, ⟨hready'.trans hready, Nat.sub_pos_of_lt hmore, hl'.trans hl, hids',
    (congrArg Pool.rotateSecs hpool).trans hsecs⟩, rfl, rfl, rfl, rfl⟩

/-! ## One round -/

/-- **As many rotations as there are accounts**, all chosen from the same list, go once around
it. -/
theorem Inv.round (hi : Inv s) {front window back : List Rotation} {ids : List WorkerId}
    (hlog : s.log = front ++ window ++ back) (hlen : window.length = ids.length)
    (hids : ∀ r ∈ window, r.accounts = ids) :
    window.map Rotation.id = ids.rotate front.length := by
  refine List.ext_getElem (by simp [hlen]) fun j hj hj' => ?_
  rw [List.length_map] at hj
  rw [List.length_rotate] at hj'
  have hplace : s.log[j + front.length]? = some window[j] := by
    rw [hlog, List.append_assoc, List.getElem?_append_right (Nat.le_add_left ..),
      Nat.add_sub_cancel, List.getElem?_append_left hj, List.getElem?_eq_getElem hj]
  have hserved := hi.served _ _ hplace
  have hmod : (j + front.length) % ids.length < ids.length := Nat.mod_lt _ (by omega)
  rw [hids _ (List.getElem_mem hj), List.getElem?_eq_getElem hmod] at hserved
  rw [List.getElem_map, List.getElem_rotate]
  exact (Option.some.inj hserved).symm

/-- What the rotations started since `s` were chosen from, and the one that is about to start. -/
structure From (ids : List WorkerId) (s t : Sys) : Prop where
  chosen : ∀ interval ids', t.phase = .chosen interval ids' → ids' = ids
  log : ∃ more, t.log = s.log ++ more ∧ ∀ r ∈ more, r.accounts = ids

theorem From.quiet {ids : List WorkerId} {t u : Sys} (h : From ids s t) (hlog : u.log = t.log)
    (hphase : ∀ interval ids', u.phase = .chosen interval ids' → ids' = ids) : From ids s u :=
  ⟨hphase, by rw [hlog]; exact h.log⟩

theorem TaskStep.from {ids : List WorkerId} {u : Sys} (h : TaskStep t u)
    (hids : t.pool.accounts = ids) (hf : From ids s t) : From ids s u := by
  cases h with
  | snapshot =>
      refine hf.quiet rfl fun interval ids' heq => ?_
      cases heq
      exact hids
  | rotate hphase _ _ =>
      obtain ⟨more, hlog, hmore⟩ := hf.log
      refine ⟨fun interval ids' heq => (by cases heq), more ++ [_], by
        rw [← List.append_assoc, ← hlog], fun r hr => ?_⟩
      rcases List.mem_append.mp hr with hr | hr
      · exact hmore r hr
      · rw [List.mem_singleton.mp hr]
        exact hf.chosen _ _ hphase
  | _ => exact hf.quiet rfl fun interval ids' heq => (by cases heq)

/-- **While the list stays, all rotations are chosen from it.** -/
theorem run_from {ids : List WorkerId} {ls : List Label}
    (h : Transition.Run (Transition.guarded Step fun u _ => u.pool.accounts = ids) s ls t)
    (hs : ∀ interval ids', s.phase = .chosen interval ids' → ids' = ids) : From ids s t := by
  refine h.invariant (From ids s) ⟨hs, [], (List.append_nil _).symm, fun r hr => ?_⟩ ?_
  · exact absurd hr List.not_mem_nil
  · rintro u l v - hf ⟨hstep, hids⟩
    cases hstep with
    | task _ h => exact h.from hids hf
    | pool => exact hf.quiet rfl hf.chosen
    | tick => exact hf.quiet rfl hf.chosen

theorem run_reachable {ids : List WorkerId} {ls : List Label} (hs : Reachable s)
    (h : Transition.Run (Transition.guarded Step fun u _ => u.pool.accounts = ids) s ls t) :
    Reachable t :=
  h.invariant Reachable hs fun _ _ _ _ hu hstep => hu.tail hstep.1

/-- **Auto-rotation is rate limited and fair.**  Rotations start a minute apart, none after a
wake-up with the interval 0; and while the list of accounts stays, as many of them as it has, one
after another, are for each account once. -/
theorem rotations_paced_fair (h : Reachable s) :
    (s.log.IsChain fun a b => a.time + minute ≤ b.time) ∧ (∀ r ∈ s.log, r.interval ≠ 0) ∧
      ∀ ids ls t,
        Transition.Run (Transition.guarded Step fun u _ => u.pool.accounts = ids) s ls t →
        (∀ interval ids', s.phase = .chosen interval ids' → ids' = ids) →
        ∀ front window back, t.log = s.log ++ front ++ window ++ back →
          window.length = ids.length → (window.map Rotation.id).Perm ids := by
  have hi := reachable_inv h
  refine ⟨hi.spaced, hi.enabled, fun ids ls t hrun hs front window back hlog hlen => ?_⟩
  obtain ⟨more, hmore, hids⟩ := (run_from hrun hs).log
  have hwindow : ∀ r ∈ window, r.accounts = ids := by
    intro r hr
    refine hids r ?_
    rw [hmore, List.append_assoc, List.append_assoc] at hlog
    rw [List.append_cancel_left hlog]
    simp [hr]
  rw [(reachable_inv (run_reachable h hrun)).round hlog hlen hwindow]
  exact List.rotate_perm ..

/-- Two accounts, and an interval of a minute: three rotations, whose registrations fail; the last
two are for each account once. -/
theorem rotations_paced_fair_failing : ∃ (s t : Sys) (ls : List Label) (r₁ r₂ r₃ : Rotation),
    Reachable s ∧ Stays [1, 2] s ls t ∧ t.log = [r₁, r₂, r₃] ∧
      (t.log.IsChain fun a b => a.time + minute ≤ b.time) ∧ (∀ r ∈ t.log, r.interval ≠ 0) ∧
      ([r₂, r₃].map Rotation.id).Perm [1, 2] := by
  let out : Except Error Connected := .error (.config "no key")
  obtain ⟨s, hs, hclear, htop, hnow, hidx, hlog⟩ : ∃ s, Reachable s ∧ Clear [1, 2] s
      ∧ s.phase = .top ∧ s.now = 0 ∧ s.idx = 0 ∧ s.log = [] := by
    have h₀ : Reachable ⟨.init [.blank, .blank] false (.new 0 .blank), 0, .top, 0, []⟩ :=
      .init ⟨⟨_, _, _, rfl⟩, by decide, rfl, rfl, rfl⟩
    -- `Pool::new`
    have h₁ := h₀.tail (.pool (.call (c := 0) rfl (.newNext rfl)))
    have h₂ := h₁.tail (.pool (.call (c := 0) rfl
      (.newBuild (show BuildStep 0 out _ _ _ _ from .config _))))
    have h₃ := h₂.tail (.pool (.call (c := 0) rfl
      (.newBuild (show BuildStep 0 out _ _ _ _ from .badKey _ _ rfl))))
    have h₄ := h₃.tail (.pool (.call (c := 0) rfl .newSpawn))
    have h₅ := h₄.tail (.pool (.call (c := 0) rfl (.newNext rfl)))
    have h₆ := h₅.tail (.pool (.call (c := 0) rfl
      (.newBuild (show BuildStep 1 out _ _ _ _ from .config _))))
    have h₇ := h₆.tail (.pool (.call (c := 0) rfl
      (.newBuild (show BuildStep 1 out _ _ _ _ from .badKey _ _ rfl))))
    have h₈ := h₇.tail (.pool (.call (c := 0) rfl .newSpawn))
    have h₉ := h₈.tail (.pool (.call (c := 0) rfl .newDone))
    have h₁₀ := h₉.tail (.pool (.start (.setRotateInterval 60) rfl Nat.one_pos))
    have h₁₁ := h₁₀.tail (.pool (.call (c := 1) rfl .setRotateInterval))
    exact ⟨_, h₁₁, ⟨rfl, Nat.one_pos, rfl, rfl, rfl⟩, rfl, rfl, rfl, rfl⟩
  obtain ⟨ls₁, t₁, hrun₁, hclear₁, htop₁, hnow₁, hidx₁, hlog₁⟩ := hclear.turn (.refl s)
    htop (show [1, 2][s.idx % 2]? = some 1 by rw [hidx]; rfl) (by rw [hnow]; decide)
  rw [hnow] at hnow₁
  rw [hidx] at hidx₁
  obtain ⟨ls₂, t₂, hrun₂, hclear₂, htop₂, hnow₂, hidx₂, hlog₂⟩ := hclear₁.turn hrun₁
    htop₁ (show [1, 2][t₁.idx % 2]? = some 2 by rw [hidx₁]; rfl) (by rw [hnow₁]; decide)
  rw [hnow₁] at hnow₂
  rw [hidx₁] at hidx₂
  obtain ⟨ls₃, t₃, hrun₃, -, -, -, -, hlog₃⟩ := hclear₂.turn hrun₂
    htop₂ (show [1, 2][t₂.idx % 2]? = some 1 by rw [hidx₂]; rfl) (by rw [hnow₂]; decide)
  rw [hlog₂, hlog₁, hlog] at hlog₃
  obtain ⟨hspaced, henabled, -⟩ := rotations_paced_fair (run_reachable hs hrun₃)
  obtain ⟨-, -, hfair⟩ := rotations_paced_fair hs
  have hround := hfair [1, 2] ls₃ t₃ hrun₃ (by rw [htop]; nofun) [_] [_, _] []
    (by rw [hlog₃, hlog]; rfl) rfl
  exact ⟨s, t₃, ls₃, _, _, _, hs, hrun₃, hlog₃, hspaced, henabled, hround⟩

end

end Rotator

end WarpProxy.Pool
