/-
# `WarpProxy.Pool.Pin` — which account is pinned

`pinned` is an atomic of its own: `select` stores any id it is given, the list of
workers is behind a lock, and only `remove_account`, holding that lock, looks at both.
`Pinless` is what every other step leaves of the relation between the two.

`select` never looks at the list, so the pin may name no account, and may come to name
one that is added later.  If each `select` is for 0 or an account then pooled
(`SelectOk`), the pin names a pooled account whenever the lock is free; inside
`remove_account` it may name the account being removed until its last store.  `PinOk` is
the exact condition of one step.
-/
import WarpProxy.Pool.Ids
import WarpProxy.Pool.View

namespace WarpProxy.Pool

open Transition (Run guarded)

/-- The id is that of a worker in the list. -/
def State.Pooled (s : State) (id : WorkerId) : Prop := ∃ w ∈ s.pool.workers, (s.heap w).id = id

/-- The pin is 0 or names a pooled account. -/
def State.PinValid (s : State) : Prop := s.pool.pinned = 0 ∨ s.Pooled s.pool.pinned

/-- A `select` that is about to store its id was given 0 or the id of an account. -/
def SelectOk (s : State) : Label → Prop
  | .call c => ∀ id, s.calls c = some (.select id) → id = 0 ∨ s.Pooled id
  | _ => True

/-- A `remove_account` that is about to take its account off the list is not for the pinned one. -/
def RemoveOk (s : State) : Label → Prop
  | .call c => ∀ id, s.calls c = some (.remove id) → 1 < s.pool.workers.length →
      s.Pooled id → s.pool.pinned = id → id = 0
  | _ => True

def PinOk (s : State) (l : Label) : Prop := SelectOk s l ∧ RemoveOk s l

/-! ## What the other steps leave -/

/-- Neither the pin nor the lock is touched, and no account leaves the list. -/
structure Pinless (s t : State) : Prop where
  pinned : t.pool.pinned = s.pool.pinned
  locked : t.locked = s.locked
  pooled : ∀ {id}, s.Pooled id → t.Pooled id

/-- The calls that touch the pin or keep the lock. -/
def Call.Pins : Call → Prop
  | .select _ | .remove _ | .removePinned _ | .removeUnpin _ => True
  | _ => False

/-- The calls that hold the lock from one step to the next. -/
def Call.Locks : Call → Prop
  | .removePinned _ | .removeUnpin _ => True
  | _ => False

section
variable {s t : State}

theorem Pinless.valid (h : Pinless s t) (hv : s.PinValid) : t.PinValid := by
  rw [State.PinValid, h.pinned]
  exact hv.imp_right h.pooled

theorem SameIds.pooled (h : SameIds s t) {id : WorkerId} (hp : s.Pooled id) : t.Pooled id := by
  obtain ⟨w, hw, hid⟩ := hp
  exact ⟨w, h.workers ▸ hw, (h.ids w).trans hid⟩

theorem Pushed.pooled {id' : WorkerId} (h : Pushed s t id')
    (hlt : ∀ w ∈ s.pool.workers, w < s.nextRef) {id : WorkerId} (hp : s.Pooled id) :
    t.Pooled id := by
  obtain ⟨w, hw, hid⟩ := hp
  refine ⟨w, ?_, (h.id_old w (Nat.ne_of_lt (hlt w hw))).trans hid⟩
  rw [h.workers]
  exact List.mem_append_left _ hw

theorem BuildStep.locked {w : Ref} {out : Except Error Connected} {b : Build} {p : Progress}
    (h : BuildStep w out s b p t) : t.locked = s.locked := by
  cases h <;> rfl

theorem SupStep.pinless {w : Ref} (h : SupStep w s t) : Pinless s t := by
  refine ⟨congrArg Pool.pinned h.frame.1, ?_, h.sameIds.pooled⟩
  cases h with
  | @build k b out p s₁ _ hb => cases p <;> exact hb.locked
  | _ => rfl

theorem TraceStep.pinless {k : Nat} {task : TraceTask} (h : TraceStep k s task t) :
    Pinless s t := by
  refine ⟨congrArg Pool.pinned h.frame.1, ?_, h.sameIds.pooled⟩
  cases h <;> rfl

theorem CallStep.pooled {c : Nat} {call : Call} (h : CallStep c s call t) (hi : Inv s)
    (hcall : ¬ call.Pins) {id : WorkerId} (hp : s.Pooled id) : t.Pooled id := by
  cases h.membership with
  | still hsame => exact hsame.pooled hp
  | made hpush | pushed hpush => exact hpush.pooled hi.pooled_lt hp
  | drew ht => rw [ht]; exact hp
  | removed => exact absurd trivial hcall

theorem CallStep.pinless {c : Nat} {call : Call} (h : CallStep c s call t) (hi : Inv s)
    (hcall : ¬ call.Pins) :
    Pinless s t ∧ ∃ call', t.calls = Function.update s.calls c (some call') ∧ ¬ call'.Locks := by
  have hpooled : ∀ id, s.Pooled id → t.Pooled id := fun _ hp => h.pooled hi hcall hp
  cases h with
  | select | removeLast | removeNone | remove | removeKeep | removePinned | removeUnpin =>
      exact absurd trivial hcall
  | @newBuild configs w b out p s₁ hb | @addBuild id w b connected p s₁ hb =>
      obtain ⟨-, hcalls, hpool, -, -⟩ := hb.frame
      have hpinned : s₁.pool.pinned = s.pool.pinned := congrArg Pool.pinned hpool
      rw [← hcalls]
      cases p <;> exact ⟨⟨hpinned, hb.locked, hpooled _⟩, _, rfl, not_false⟩
  | @notify stored id w todo =>
      refine ⟨⟨?_, ?_, hpooled _⟩, .notifying stored id todo, ?_, not_false⟩ <;>
        · rw [State.notifyIf]
          split <;> rfl
  | _ => exact ⟨⟨rfl, rfl, hpooled _⟩, _, rfl, not_false⟩

/-! ## One step -/

theorem retained_pooled {id x : WorkerId} :
    (∃ w ∈ s.retained id, (s.heap w).id = x) ↔ s.Pooled x ∧ x ≠ id := by
  constructor
  · rintro ⟨w, hw, rfl⟩
    obtain ⟨hw, hne⟩ := List.mem_filter.mp hw
    exact ⟨⟨w, hw, rfl⟩, bne_iff_ne.mp hne⟩
  · rintro ⟨⟨w, hw, rfl⟩, hne⟩
    exact ⟨w, List.mem_filter.mpr ⟨hw, bne_iff_ne.mpr hne⟩, rfl⟩

/-- A `retain` keeps everything exactly when no account has the id. -/
theorem retained_length {id : WorkerId} :
    (s.retained id).length = s.pool.workers.length ↔ ¬ s.Pooled id := by
  constructor
  · rintro hlen ⟨w, hw, hid⟩
    rw [← retained_eq hlen] at hw
    exact (retained_pooled.mp ⟨w, hw, hid⟩).2 rfl
  · intro hnone
    refine congrArg List.length (List.filter_eq_self.mpr fun w hw => ?_)
    simp only [bne_iff_ne]
    exact fun hid => hnone ⟨w, hw, hid⟩

/-- **One step** of a call: what is known of the pin is kept exactly when the condition holds. -/
theorem CallStep.valid_iff {c : Nat} {call : Call} (h : CallStep c s call t) (hi : Inv s)
    (hc : s.calls c = some call) (hv : s.PinValid) : t.PinValid ↔ PinOk s (.call c) := by
  have hok : PinOk s (.call c) ↔ (∀ id, call = .select id → id = 0 ∨ s.Pooled id) ∧
      ∀ id, call = .remove id → 1 < s.pool.workers.length → s.Pooled id →
        s.pool.pinned = id → id = 0 := by
    simp only [PinOk, SelectOk, RemoveOk, hc, Option.some.injEq]
  rw [hok]
  by_cases hcall : call.Pins
  · cases h with
    | @select id =>
        constructor
        · intro hvt
          exact ⟨fun id' heq => (Call.select.inj heq) ▸ hvt, fun _ heq => (nomatch heq)⟩
        · intro hsel
          exact hsel.1 id rfl
    | @removeLast id _ hlen =>
        refine iff_of_true hv ⟨fun _ heq => (nomatch heq), fun _ _ hlen' => ?_⟩
        exact absurd hlen' (Nat.not_lt.mpr hlen)
    | @removeNone id _ hlen heq =>
        have hnone : ¬ s.Pooled id := retained_length.mp heq
        refine iff_of_true ?_ ⟨fun _ heq => (nomatch heq), fun id' heq' _ hp => ?_⟩
        · rw [retained_eq heq]
          exact hv
        · exact absurd (Call.remove.inj heq' ▸ hp) hnone
    | @remove id _ hlen hne =>
        have hpooled : s.Pooled id := by
          by_contra hnone
          exact hne (retained_length.mpr hnone)
        constructor
        · intro hvt
          refine ⟨fun _ heq => (nomatch heq), fun id' heq _ _ hpin => ?_⟩
          obtain rfl := Call.remove.inj heq
          rcases hvt with hzero | hkept
          · exact hpin ▸ hzero
          · exact absurd hpin (retained_pooled.mp hkept).2
        · rintro ⟨-, hrem⟩
          by_cases hpin : s.pool.pinned = id
          · exact .inl (hpin.trans (hrem id rfl hlen hpooled hpin))
          · exact hv.imp_right fun hp => retained_pooled.mpr ⟨hp, hpin⟩
    | removeKeep | removePinned =>
        exact iff_of_true hv ⟨fun _ heq => (nomatch heq), fun _ heq => (nomatch heq)⟩
    | removeUnpin =>
        exact iff_of_true (.inl rfl) ⟨fun _ heq => (nomatch heq), fun _ heq => (nomatch heq)⟩
    | _ => exact hcall.elim
  · refine iff_of_true ((h.pinless hi hcall).1.valid hv) ⟨?_, ?_⟩
    · rintro id rfl
      exact absurd trivial hcall
    · rintro id rfl
      exact absurd trivial hcall

theorem Step.valid_iff {l : Label} (h : Step s l t) (hi : Inv s) (hv : s.PinValid) :
    t.PinValid ↔ PinOk s l := by
  cases h with
  | sup hs => exact iff_of_true (hs.pinless.valid hv) ⟨trivial, trivial⟩
  | trace _ hs => exact iff_of_true (hs.pinless.valid hv) ⟨trivial, trivial⟩
  | start | die | cloneHandle | dropHandle => exact iff_of_true hv ⟨trivial, trivial⟩
  | call hc hs => exact hs.valid_iff hi hc hv

/-! ## Runs in which every `select` is for a pooled account -/

/-- A `remove_account` holding the lock has taken the pinned account off the list, and is yet to
clear the pin. -/
def State.Unpinning (s : State) : Prop :=
  ∃ c, s.calls c = some (.removePinned s.pool.pinned) ∨ ∃ id, s.calls c = some (.removeUnpin id)

/-- One `remove_account` at a time holds the lock, and only inside it is the pin out of date. -/
structure PinInv (s : State) : Prop where
  lock : ∀ {c call}, s.calls c = some call → call.Locks → s.locked = true
  one : ∀ {c c' call call'}, s.calls c = some call → call.Locks → s.calls c' = some call' →
    call'.Locks → c = c'
  pin : s.PinValid ∨ s.Unpinning

theorem PinInv.free (hi : PinInv s) (hlocked : s.locked = false) : s.PinValid := by
  refine hi.pin.resolve_right ?_
  rintro ⟨c, hc | ⟨id, hc⟩⟩
  · exact absurd (hi.lock hc trivial) (Bool.eq_false_iff.mp hlocked)
  · exact absurd (hi.lock hc trivial) (Bool.eq_false_iff.mp hlocked)

/-- The calls that hold the lock are as they were. -/
theorem PinInv.same (hi : PinInv s) (hlocked : t.locked = s.locked)
    (hcalls : ∀ {c call}, t.calls c = some call → call.Locks → s.calls c = some call)
    (hpin : t.PinValid ∨ t.Unpinning) : PinInv t where
  lock hc hl := hlocked.trans (hi.lock (hcalls hc hl) hl)
  one hc hl hc' hl' := hi.one (hcalls hc hl) hl (hcalls hc' hl') hl'
  pin := hpin

theorem PinInv.pinless (hi : PinInv s) (h : Pinless s t)
    (hcalls : ∀ c call, call.Locks → (t.calls c = some call ↔ s.calls c = some call)) :
    PinInv t := by
  refine hi.same h.locked (fun hc hl => (hcalls _ _ hl).mp hc) ?_
  rcases hi.pin with hv | ⟨c, hc | ⟨id, hc⟩⟩
  · exact .inl (h.valid hv)
  · refine .inr ⟨c, .inl ?_⟩
    rw [h.pinned]
    exact (hcalls c (.removePinned _) trivial).mpr hc
  · exact .inr ⟨c, .inr ⟨id, (hcalls c (.removeUnpin id) trivial).mpr hc⟩⟩

/-- A call that does not hold the lock moves on to where it does not. -/
theorem locks_iff {c : Nat} {call : Call} (call' : Call) (hc : s.calls c = some call)
    (hl : ¬ call.Locks) (hl' : ¬ call'.Locks)
    (hcalls : t.calls = Function.update s.calls c (some call')) (c' : Nat) (x : Call)
    (hx : x.Locks) : t.calls c' = some x ↔ s.calls c' = some x := by
  constructor
  · intro h
    rcases calls_of_update hcalls h with ⟨-, rfl⟩ | ⟨-, hold⟩
    · exact absurd hx hl'
    · exact hold
  · intro h
    have hne : c' ≠ c := by
      rintro rfl
      rw [hc, Option.some.injEq] at h
      exact hl (h ▸ hx)
    rw [hcalls, Function.update_of_ne hne, h]

/-- The call that held the lock has returned, and no other holds it. -/
theorem PinInv.freed (hi : PinInv s) {c : Nat} {call : Call} (hc : s.calls c = some call)
    (hl : call.Locks) {c' : Nat} {x : Call}
    (hx : (s.setCall c (.done (.ok none))).calls c' = some x) : ¬ x.Locks := by
  intro hlx
  rcases calls_of_update rfl hx with ⟨-, rfl⟩ | ⟨hne, hold⟩
  · exact hlx
  · exact hne (hi.one hold hlx hc hl)

theorem CallStep.pinInv {c : Nat} {call : Call} (h : CallStep c s call t) (hi : Inv s)
    (hc : s.calls c = some call) (hok : SelectOk s (.call c)) (hp : PinInv s) : PinInv t := by
  by_cases hcall : call.Pins
  · cases h with
    | @select id =>
        refine hp.same rfl (fun hc' hl => ?_) (.inl (hok id hc))
        exact (locks_iff (.done (.ok none)) hc not_false not_false rfl _ _ hl).mp hc'
    | removeLast _ _ =>
        exact hp.pinless ⟨rfl, rfl, fun hq => hq⟩
          (locks_iff (.done (.error lastAccount)) hc not_false not_false rfl)
    | @removeNone id _ _ heq =>
        refine hp.pinless ⟨rfl, rfl, fun {id'} hq => ?_⟩
          (locks_iff (.done (.error (noSuchAccountId id))) hc not_false not_false rfl)
        show ∃ w ∈ s.retained id, (s.heap w).id = id'
        rw [retained_eq heq]
        exact hq
    | @remove id hlocked hlen hne =>
        have hv : s.PinValid := hp.free hlocked
        -- nothing else holds the lock
        have hself : ∀ {c' x}, (s.setCall c (.removePinned id)).calls c' = some x → x.Locks →
            c' = c := by
          intro c' x hx hl
          rcases calls_of_update rfl hx with ⟨heq, -⟩ | ⟨-, hold⟩
          · exact heq
          · exact absurd (hp.lock hold hl) (Bool.eq_false_iff.mp hlocked)
        refine ⟨fun _ _ => rfl, fun hx hl hx' hl' => (hself hx hl).trans (hself hx' hl').symm, ?_⟩
        by_cases hpin : s.pool.pinned = id
        · refine .inr ⟨c, .inl ?_⟩
          show Function.update s.calls c _ c = some (.removePinned s.pool.pinned)
          rw [Function.update_self, hpin]
        · exact .inl (hv.imp_right fun hq => retained_pooled.mpr ⟨hq, hpin⟩)
    | @removeKeep id hpin =>
        refine ⟨fun hx hl => absurd hl (hp.freed hc trivial hx),
          fun hx hl => absurd hl (hp.freed hc trivial hx), .inl ?_⟩
        rcases hp.pin with hv | ⟨c', hc' | ⟨id', hc'⟩⟩
        · exact hv
        · obtain rfl := hp.one hc' trivial hc trivial
          rw [hc, Option.some.injEq] at hc'
          exact absurd (Call.removePinned.inj hc').symm hpin
        · obtain rfl := hp.one hc' trivial hc trivial
          rw [hc, Option.some.injEq] at hc'
          cases hc'
    | @removePinned id hpin =>
        have hmoved : ∀ {c' x}, (s.setCall c (.removeUnpin id)).calls c' = some x → x.Locks →
            ∃ y, s.calls c' = some y ∧ y.Locks := by
          intro c' x hx hl
          rcases calls_of_update rfl hx with ⟨rfl, -⟩ | ⟨-, hold⟩
          · exact ⟨_, hc, trivial⟩
          · exact ⟨x, hold, hl⟩
        refine ⟨fun hx hl => ?_, fun hx hl hx' hl' => ?_,
          .inr ⟨c, .inr ⟨id, State.calls_setCall_self ..⟩⟩⟩
        · obtain ⟨y, hy, hly⟩ := hmoved hx hl
          exact hp.lock hy hly
        · obtain ⟨y, hy, hly⟩ := hmoved hx hl
          obtain ⟨y', hy', hly'⟩ := hmoved hx' hl'
          exact hp.one hy hly hy' hly'
    | @removeUnpin id =>
        exact ⟨fun hx hl => absurd hl (hp.freed hc trivial hx),
          fun hx hl => absurd hl (hp.freed hc trivial hx), .inl (.inl rfl)⟩
    | _ => exact hcall.elim
  · obtain ⟨hpinless, call', hcalls, hl'⟩ := h.pinless hi hcall
    have hl : ¬ call.Locks := by
      intro hl
      cases call
      case removePinned | removeUnpin => exact hcall trivial
      all_goals exact hl
    exact hp.pinless hpinless (locks_iff call' hc hl hl' hcalls)

theorem Step.pinInv {l : Label} (h : Step s l t) (hi : Inv s) (hok : SelectOk s l)
    (hp : PinInv s) : PinInv t := by
  cases h with
  | sup hs =>
      refine hp.pinless hs.pinless fun c call _ => ?_
      rw [hs.frame.2.1]
  | trace _ hs =>
      refine hp.pinless hs.pinless fun c call _ => ?_
      rw [hs.frame.2.1]
  | call hc hs => exact hs.pinInv hi hc hok hp
  | die | cloneHandle | dropHandle => exact hp.pinless ⟨rfl, rfl, fun h => h⟩ fun _ _ _ => .rfl
  | start op _ _ =>
      have hbegin : ¬ op.begin.Locks := by
        cases op <;> exact not_false
      refine hp.pinless ⟨rfl, rfl, fun h => h⟩ fun c call hl => ⟨fun hc => ?_, fun hc => ?_⟩
      · rcases calls_of_update (c := s.nextCall) rfl hc with ⟨-, rfl⟩ | ⟨-, hold⟩
        · exact absurd hl hbegin
        · exact hold
      · exact (State.calls_setCall_ne s _ (Nat.ne_of_lt (hi.call_lt hc))).trans hc

theorem run_pinInv {configs : List WarpConfig} {http2 : Bool} {blank : Worker} {ls : List Label}
    (h : Run (guarded Step SelectOk) (State.init configs http2 blank) ls s) :
    Inv s ∧ PinInv s := by
  refine h.invariant (fun s => Inv s ∧ PinInv s) ⟨Init.inv ⟨_, _, _, rfl⟩, ?_⟩ ?_
  · have hfree : ∀ {c x}, (State.init configs http2 blank).calls c = some x → ¬ x.Locks := by
      intro c x hx hl
      simp only [State.init, Function.update_apply] at hx
      split at hx
      · cases hx
        exact hl
      · cases hx
    exact ⟨fun hx hl => absurd hl (hfree hx), fun hx hl => absurd hl (hfree hx), .inl (.inl rfl)⟩
  · rintro u l v - ⟨hi, hp⟩ ⟨hstep, hok⟩
    exact ⟨hstep.inv hi, hstep.pinInv hi hok hp⟩

/-- An account is added while nobody holds the lock, and the pin stays. -/
theorem CallStep.added {c : Nat} {call : Call} (h : CallStep c s call t)
    (hadd : t.nextRef ≠ s.nextRef) :
    s.locked = false ∧ t.nextRef = s.nextRef + 1 ∧ t.pool.pinned = s.pool.pinned := by
  cases h.membership with
  | made hp =>
      cases h with
      | newNext hlocked => exact ⟨hlocked, hp.nextRef, rfl⟩
  | pushed hp =>
      cases h with
      | addPush hlocked => exact ⟨hlocked, hp.nextRef, rfl⟩
  | still hsame => exact absurd hsame.nextRef hadd
  | drew ht | removed _ _ ht => exact absurd (congrArg State.nextRef ht) hadd

/-- **The pin names a pooled account.**  If every `select` is for 0 or an account then pooled,
then in every state in which the workers lock is free the pin is 0 or the id of a pooled
account, and the status says "pinned" only with that account in its list; if moreover no
account is removed while pinned, this holds inside `remove_account` too.  From a state with
such a pin, these conditions on the step are exactly what keeps it.  An account that is added
is not pinned, unless `2 ^ 64` have been. -/
theorem pin_pooled {configs : List WarpConfig} {http2 : Bool} {blank : Worker} {ls : List Label}
    (h : Run (guarded Step SelectOk) (State.init configs http2 blank) ls s) :
    (s.locked = false → s.PinValid ∧ ((s.status s.pool.pinned).mode = "pinned" →
      ∃ a ∈ (s.status s.pool.pinned).accounts, a.id = s.pool.pinned)) ∧
    (Run (guarded Step PinOk) (State.init configs http2 blank) ls s → s.PinValid) ∧
    (∀ l t, Step s l t → s.PinValid → (t.PinValid ↔ PinOk s l)) ∧
    (configs.length + ls.countP Label.adds < 2 ^ 64 → ∀ l t, Step s l t →
      t.nextRef ≠ s.nextRef → (t.heap s.nextRef).id ≠ t.pool.pinned) := by
  obtain ⟨hi, hp⟩ := run_pinInv h
  refine ⟨fun hlocked => ⟨hp.free hlocked, fun hmode => ?_⟩, fun hok => ?_,
    fun l t hstep hv => hstep.valid_iff hi hv, fun hcount l t hstep hadd => ?_⟩
  · obtain ⟨w, hw, hid⟩ := (hp.free hlocked).resolve_left ((s.status_mode _).mp hmode)
    exact ⟨accountStatus (s.heap w), List.mem_map_of_mem hw, hid⟩
  · refine (hok.invariant (fun s => Inv s ∧ s.PinValid) ⟨Init.inv ⟨_, _, _, rfl⟩, .inl rfl⟩ ?_).2
    rintro u l v - ⟨hi, hv⟩ ⟨hstep, hok⟩
    exact ⟨hstep.inv hi, (hstep.valid_iff hi hv).mpr hok⟩
  · have hquiet : ∀ c op, l ≠ .start c op := by
      rintro c op rfl
      cases hstep
      exact hadd rfl
    have hcount' : configs.length + (ls ++ [l]).countP Label.adds < 2 ^ 64 := by
      have hlabel : l.adds = false := by
        cases l with
        | start c op => exact absurd rfl (hquiet c op)
        | _ => rfl
      simpa [List.countP_append, hlabel] using hcount
    obtain ⟨-, d, hd, -⟩ := run_idInv (h.unguarded.tail hstep) hcount'
    cases hstep with
    | call hc hs =>
        obtain ⟨hlocked, hnext, hpin⟩ := hs.added hadd
        have hnew : s.nextRef < t.nextRef := hnext ▸ Nat.lt_succ_self _
        intro heq
        rw [hpin] at heq
        rcases hp.free hlocked with hzero | ⟨w, hw, hid⟩
        · have hpos := (hd.made hnew).1
          rw [heq, hzero] at hpos
          exact absurd hpos (by decide)
        · -- the pinned account was there before
          have hlt := hi.pooled_lt w hw
          have hkept := (Step.call hc hs).id_kept hlt
          have hsame := hd.made_inj (Nat.lt_trans hlt hnew) hnew
            (hkept.trans (hid.trans heq.symm))
          exact Nat.ne_of_lt hlt hsame
    | sup hs => exact absurd hs.frame.2.2.1 hadd
    | trace _ hs => exact absurd hs.frame.2.2.1 hadd
    | start op _ _ => exact absurd rfl (hquiet _ op)
    | die | cloneHandle | dropHandle => exact absurd rfl hadd

theorem selectOk_of {c : Nat} {call : Call} (hc : s.calls c = some call)
    (hcall : ∀ id, call = .select id → id = 0 ∨ s.Pooled id) : SelectOk s (.call c) := by
  intro id hsel
  rw [hc, Option.some.injEq] at hsel
  exact hcall id hsel

/-- The one account of a pool is selected. -/
theorem pin_pooled_selected : ∃ s : State, s.pool.pinned = 1 ∧ s.PinValid ∧
    ∃ a ∈ (s.status 1).accounts, a.id = 1 := by
  let out : Except Error Connected := .error (.config "no key")
  have h₀ : Run (guarded Step SelectOk) (.init [.blank] false (.new 0 .blank)) _ _ := .refl _
  have h₁ := h₀.tail ⟨.call (c := 0) rfl (.newNext rfl), selectOk_of rfl (fun _ => nofun)⟩
  have h₂ := h₁.tail ⟨.call (c := 0) rfl
    (.newBuild (show BuildStep 0 out _ _ _ _ from .config _)), selectOk_of rfl (fun _ => nofun)⟩
  have h₃ := h₂.tail ⟨.call (c := 0) rfl
    (.newBuild (show BuildStep 0 out _ _ _ _ from .badKey _ _ rfl)),
    selectOk_of rfl (fun _ => nofun)⟩
  have h₄ := h₃.tail ⟨.call (c := 0) rfl .newSpawn, selectOk_of rfl (fun _ => nofun)⟩
  have h₅ := h₄.tail ⟨.call (c := 0) rfl .newDone, selectOk_of rfl (fun _ => nofun)⟩
  have h₆ := h₅.tail ⟨.start (.select 1) rfl (by decide), trivial⟩
  have h₇ := h₆.tail ⟨.call (c := 1) rfl .select, selectOk_of rfl fun id hid =>
    .inr ⟨0, List.mem_singleton_self 0, Call.select.inj hid⟩⟩
  obtain ⟨hfree, -⟩ := pin_pooled h₇
  obtain ⟨hv, hstatus⟩ := hfree rfl
  exact ⟨_, rfl, hv, hstatus rfl⟩

/-- The pool has the account 1 and `select(2)` is called: no account is pinned, though the status
says so; the next account to be added is. -/
theorem select_unpooled : ∃ s t : State,
    (Reachable s ∧ s.locked = false ∧ (s.pool.workers.map fun w => (s.heap w).id) = [1] ∧
      s.pool.pinned = 2 ∧ ¬ s.PinValid ∧ (s.status s.pool.pinned).mode = "pinned") ∧
    (Reachable t ∧ (t.pool.workers.map fun w => (t.heap w).id) = [1, 2] ∧ t.pool.pinned = 2) := by
  let out : Except Error Connected := .error (.config "no key")
  have h₀ : Reachable (.init [.blank] false (.new 0 .blank)) := .init ⟨_, _, _, rfl⟩
  have h₁ := h₀.tail (.call (c := 0) rfl (.newNext rfl))
  have h₂ := h₁.tail (.call (c := 0) rfl (.newBuild (show BuildStep 0 out _ _ _ _ from .config _)))
  have h₃ := h₂.tail
    (.call (c := 0) rfl (.newBuild (show BuildStep 0 out _ _ _ _ from .badKey _ _ rfl)))
  have h₄ := h₃.tail (.call (c := 0) rfl .newSpawn)
  have h₅ := h₄.tail (.call (c := 0) rfl .newDone)
  have h₆ := h₅.tail (.start (.select 2) rfl (by decide))
  have h₇ := h₆.tail (.call (c := 1) rfl .select)
  have h₈ := h₇.tail (.start (.addAccount (.ok .blank) out) rfl (by decide))
  have h₉ := h₈.tail (.call (c := 2) rfl .add)
  have h₁₀ := h₉.tail (.call (c := 2) rfl .addRegister)
  have h₁₁ := h₁₀.tail (.call (c := 2) rfl (.addPush rfl))
  refine ⟨_, _, ⟨h₇, rfl, rfl, rfl, ?_, rfl⟩, h₁₁, rfl, rfl⟩
  rintro (hzero | ⟨w, hw, hid⟩)
  · exact absurd hzero (by decide)
  · obtain rfl := List.mem_singleton.mp hw
    exact absurd hid (by decide)

end

end WarpProxy.Pool
