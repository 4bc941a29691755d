/-
# `WarpProxy.Pool.Ids` — account ids

An id is drawn from `next_id` at one step and given to a worker at a later one, when
the registration has come back; in between it is in the hands of a call (`Call.drawn`).
`Membership` says what a step of a call does to the list, to the ids and to the counter;
the invariant (`IdInv`) is that after `d` draws all ids, those of removed workers and those
still in the hands of a call included, are different numbers from 1 to `d`.

How many draws there can be is read off the run: each config and each call of
`add_account` stands for one (`State.toDraw` are those to come).
-/
import Mathlib.Algebra.BigOperators.Group.Finset.Basic
import Mathlib.Data.List.Nodup
import WarpProxy.Pool.Settled

namespace WarpProxy.Pool

open Finset (range)

/-! ## Ids in the hands of a call -/

/-- The id a call has drawn and not given to a worker. -/
def Call.drawn : Call → Option WorkerId
  | .addRegister id _ _ | .addPush id _ _ => some id
  | _ => none

/-- How many ids the call will still draw. -/
def Call.toDraw : Call → Nat
  | .new configs | .newBuild configs _ _ | .newSpawn configs _ => configs.length
  | .add _ _ => 1
  | _ => 0

/-- How many ids the calls in progress will still draw. -/
def State.toDraw (s : State) : Nat := ∑ c ∈ range s.nextCall, (s.calls c).elim 0 Call.toDraw

/-- The label is a call of `add_account`. -/
def Label.adds : Label → Bool
  | .start _ (.addAccount _ _) => true
  | _ => false

/-! ## What a step does to the accounts -/

/-- Nothing to the list, to the ids and to their counter. -/
structure SameIds (s t : State) : Prop where
  ids : ∀ v, (t.heap v).id = (s.heap v).id
  workers : t.pool.workers = s.pool.workers
  nextId : t.pool.nextId = s.pool.nextId
  nextRef : t.nextRef = s.nextRef

/-- A new worker with this id, at the end of the list. -/
structure Pushed (s t : State) (id : WorkerId) : Prop where
  id_new : (t.heap s.nextRef).id = id
  id_old : ∀ v, v ≠ s.nextRef → (t.heap v).id = (s.heap v).id
  workers : t.pool.workers = s.pool.workers ++ [s.nextRef]
  nextRef : t.nextRef = s.nextRef + 1
  nextCall : t.nextCall = s.nextCall

/-- What a step of the call `c`, which is at `call`, does to the accounts. -/
inductive Membership (c : Nat) (s : State) : Call → State → Prop
  | still {call call' : Call} {t : State} : SameIds s t → t.nextCall = s.nextCall →
      t.calls = Function.update s.calls c (some call') →
      (call'.drawn = call.drawn ∨ call'.drawn = none) → call'.toDraw = call.toDraw →
      Membership c s call t
  | made {config : WarpConfig} {configs : List WarpConfig} {call' : Call} {t : State} :
      Pushed s t s.pool.nextId → t.pool.nextId = (s.pool.nextId + 1) % 2 ^ 64 →
      t.calls = Function.update s.calls c (some call') → call'.drawn = none →
      call'.toDraw = configs.length → Membership c s (.new (config :: configs)) t
  | drew {registered : Except Error WarpConfig} {connected : Except Error Connected}
      {t : State} : t = { s with pool := s.pool.bumpId }.setCall c
        (.addRegister s.pool.nextId registered connected) →
      Membership c s (.add registered connected) t
  | pushed {id : WorkerId} {config : WarpConfig} {connected : Except Error Connected}
      {call' : Call} {t : State} : Pushed s t id → t.pool.nextId = s.pool.nextId →
      t.calls = Function.update s.calls c (some call') → call'.drawn = none →
      call'.toDraw = 0 → Membership c s (.addPush id config connected) t
  | removed {id : WorkerId} {t : State} : 1 < s.pool.workers.length →
      (s.retained id).length ≠ s.pool.workers.length →
      t = { s with pool := { s.pool with workers := s.retained id }, locked := true }.setCall c
        (.removePinned id) → Membership c s (.remove id) t

section
variable {s t : State}

theorem SameIds.refl (s : State) : SameIds s s := ⟨fun _ => rfl, rfl, rfl, rfl⟩

/-- A worker is written without its id. -/
theorem id_setWorker (s : State) {w : Ref} {x : Worker} (hx : x.id = (s.heap w).id) (v : Ref) :
    ((s.setWorker w x).heap v).id = (s.heap v).id :=
  State.heap_setWorker_part s v Worker.id hx

theorem BuildStep.sameIds {w : Ref} {out : Except Error Connected} {b : Build} {p : Progress}
    (h : BuildStep w out s b p t) : SameIds s t := by
  cases h with
  | connected s config tr died _ => exact ⟨id_setWorker s rfl, rfl, rfl, rfl⟩
  | _ => exact .refl _

theorem SupStep.sameIds {w : Ref} (h : SupStep w s t) : SameIds s t := by
  cases h with
  | @build k b out p s₁ _ hb =>
      have hsame := hb.sameIds
      cases p <;> exact ⟨hsame.ids, hsame.workers, hsame.nextId, hsame.nextRef⟩
  | notified _ _ | clear _ | woken _ _ => exact ⟨id_setWorker s rfl, rfl, rfl, rfl⟩
  | _ => exact ⟨fun _ => rfl, rfl, rfl, rfl⟩

theorem TraceStep.sameIds {k : Nat} {task : TraceTask} (h : TraceStep k s task t) :
    SameIds s t := by
  cases h with
  | store info => exact ⟨id_setWorker s rfl, rfl, rfl, rfl⟩
  | _ => exact ⟨fun _ => rfl, rfl, rfl, rfl⟩

/-- A failed `retain` has removed nothing. -/
theorem retained_eq {id : WorkerId} (h : (s.retained id).length = s.pool.workers.length) :
    s.retained id = s.pool.workers :=
  List.filter_sublist.eq_of_length h

theorem pushed_push (s : State) (id : WorkerId) (config : WarpConfig) :
    Pushed s (s.push id config) id where
  id_new := congrArg Worker.id (State.heap_setWorker_self ..)
  id_old _ hv := congrArg Worker.id (State.heap_setWorker_ne _ _ hv)
  workers := rfl
  nextRef := rfl
  nextCall := rfl

theorem CallStep.membership {c : Nat} {call : Call} (h : CallStep c s call t) :
    Membership c s call t := by
  cases h with
  | @newNext config configs _ =>
      have hp := pushed_push s s.pool.nextId config
      exact .made ⟨hp.id_new, hp.id_old, rfl, rfl, rfl⟩ rfl rfl rfl rfl
  | @addPush id config connected _ =>
      have hp := pushed_push s id config
      exact .pushed ⟨hp.id_new, hp.id_old, rfl, rfl, rfl⟩ rfl rfl rfl rfl
  | add => exact .drew rfl
  | remove _ hlen hne => exact .removed hlen hne rfl
  | removeNone _ _ hlen =>
      exact .still ⟨fun _ => rfl, retained_eq hlen, rfl, rfl⟩ rfl rfl (.inl rfl) rfl
  | @newBuild configs w b out p s₁ hb | @addBuild id w b connected p s₁ hb =>
      have hsame := hb.sameIds
      obtain ⟨-, hcalls, -, -, hnext⟩ := hb.frame
      have hstill : ∀ call' : Call, (s₁.setCall c call').calls =
          Function.update s.calls c (some call') := by
        intro call'
        rw [← hcalls]
        rfl
      cases p
      all_goals
        exact .still ⟨hsame.ids, hsame.workers, hsame.nextId, hsame.nextRef⟩ hnext (hstill _)
          (.inl rfl) rfl
  | @notify stored id w todo =>
      have hsame : SameIds s (s.notifyIf id w) := by
        rw [State.notifyIf]
        split
        · exact ⟨id_setWorker s rfl, rfl, rfl, rfl⟩
        · exact .refl s
      have hnext : (s.notifyIf id w).nextCall = s.nextCall := by
        rw [State.notifyIf]
        split <;> rfl
      have hstill : ((s.notifyIf id w).setCall c (.notifying stored id todo)).calls =
          Function.update s.calls c (some (.notifying stored id todo)) := by
        rw [State.notifyIf]
        split <;> rfl
      exact .still ⟨hsame.ids, hsame.workers, hsame.nextId, hsame.nextRef⟩ hnext hstill
        (.inl rfl) rfl
  | rotateStore | rotateNotify | refreshed info =>
      exact .still ⟨id_setWorker s rfl, rfl, rfl, rfl⟩ rfl rfl (.inl rfl) rfl
  | addFailed => exact .still ⟨fun _ => rfl, rfl, rfl, rfl⟩ rfl rfl (.inr rfl) rfl
  | _ => exact .still ⟨fun _ => rfl, rfl, rfl, rfl⟩ rfl rfl (.inl rfl) rfl

/-! ## Draws to come -/

/-- One call has moved on. -/
theorem toDraw_call {c : Nat} {call call' : Call} (hlt : c < s.nextCall)
    (hc : s.calls c = some call) (hcalls : t.calls = Function.update s.calls c (some call'))
    (hnext : t.nextCall = s.nextCall) :
    t.toDraw + call.toDraw = s.toDraw + call'.toDraw := by
  have hmem : c ∈ range s.nextCall := Finset.mem_range.mpr hlt
  have hrest : ∑ i ∈ (range s.nextCall).erase c, (t.calls i).elim 0 Call.toDraw =
      ∑ i ∈ (range s.nextCall).erase c, (s.calls i).elim 0 Call.toDraw := by
    refine Finset.sum_congr rfl fun i hi => ?_
    rw [hcalls, Function.update_of_ne (Finset.ne_of_mem_erase hi)]
  have hself : (t.calls c).elim 0 Call.toDraw = call'.toDraw := by
    rw [hcalls, Function.update_self]
    rfl
  have hold : (s.calls c).elim 0 Call.toDraw = call.toDraw := by
    rw [hc]
    rfl
  have ht := Finset.add_sum_erase (range s.nextCall)
    (fun i => (t.calls i).elim 0 Call.toDraw) hmem
  have hs := Finset.add_sum_erase (range s.nextCall)
    (fun i => (s.calls i).elim 0 Call.toDraw) hmem
  simp only [hself, hold, hrest] at ht hs
  rw [State.toDraw, State.toDraw, hnext, ← ht, ← hs]
  omega

/-- A call has begun. -/
theorem toDraw_start (op : Op) :
    State.toDraw { s.setCall s.nextCall op.begin with nextCall := s.nextCall + 1 } =
      s.toDraw + op.begin.toDraw := by
  rw [State.toDraw, Finset.sum_range_succ]
  refine congrArg₂ (· + ·) (Finset.sum_congr rfl fun c hc => ?_) ?_
  · have hne : c ≠ s.nextCall := Nat.ne_of_lt (Finset.mem_range.mp hc)
    exact congrArg (Option.elim · 0 Call.toDraw) (State.calls_setCall_ne s _ hne)
  · exact congrArg (Option.elim · 0 Call.toDraw) (State.calls_setCall_self ..)

/-! ## The invariant -/

/-- After `d` draws all ids are different numbers from 1 to `d`; the list names every worker at
most once, and is not empty once there has been a worker. -/
structure IdInv (d : Nat) (s : State) : Prop where
  next : s.pool.nextId = (1 + d) % 2 ^ 64
  made : ∀ {w}, w < s.nextRef → 1 ≤ (s.heap w).id ∧ (s.heap w).id ≤ d
  made_inj : ∀ {w w'}, w < s.nextRef → w' < s.nextRef → (s.heap w).id = (s.heap w').id → w = w'
  drawn : ∀ {c call id}, s.calls c = some call → call.drawn = some id → 1 ≤ id ∧ id ≤ d
  unmade : ∀ {c call id w}, s.calls c = some call → call.drawn = some id → w < s.nextRef →
    (s.heap w).id ≠ id
  drawn_inj : ∀ {c c' call call' id}, s.calls c = some call → call.drawn = some id →
    s.calls c' = some call' → call'.drawn = some id → c = c'
  nodup : s.pool.workers.Nodup
  nonempty : 0 < s.nextRef → s.pool.workers ≠ []

/-- As long as the counter has not wrapped, the next id is new. -/
theorem IdInv.nextId {d : Nat} (hd : IdInv d s) (hbound : 1 + d < 2 ^ 64) :
    s.pool.nextId = d + 1 := by
  rw [hd.next, Nat.mod_eq_of_lt hbound, Nat.add_comm]

/-- Nothing but the inside of workers and tasks that have drawn nothing. -/
theorem IdInv.same {d : Nat} (hd : IdInv d s) (h : SameIds s t)
    (hcalls : ∀ {c call id}, t.calls c = some call → call.drawn = some id →
      ∃ call', s.calls c = some call' ∧ call'.drawn = some id) : IdInv d t where
  next := h.nextId.trans hd.next
  made {w} hw := by rw [h.ids]; exact hd.made (h.nextRef ▸ hw)
  made_inj {w w'} hw hw' heq := by
    rw [h.ids, h.ids] at heq
    exact hd.made_inj (h.nextRef ▸ hw) (h.nextRef ▸ hw') heq
  drawn hc hid := by
    obtain ⟨call', hc', hid'⟩ := hcalls hc hid
    exact hd.drawn hc' hid'
  unmade hc hid hw := by
    obtain ⟨call', hc', hid'⟩ := hcalls hc hid
    rw [h.ids]
    exact hd.unmade hc' hid' (h.nextRef ▸ hw)
  drawn_inj hc hid hc₂ hid₂ := by
    obtain ⟨call', hc', hid'⟩ := hcalls hc hid
    obtain ⟨call₂', hc₂', hid₂'⟩ := hcalls hc₂ hid₂
    exact hd.drawn_inj hc' hid' hc₂' hid₂'
  nodup := h.workers ▸ hd.nodup
  nonempty hpos := h.workers ▸ hd.nonempty (h.nextRef ▸ hpos)

/-- A call is the one that has moved on, or as it was. -/
theorem calls_of_update {c : Nat} {call' : Call}
    (hcalls : t.calls = Function.update s.calls c (some call')) {c' : Nat} {call : Call}
    (hc : t.calls c' = some call) :
    (c' = c ∧ call = call') ∨ (c' ≠ c ∧ s.calls c' = some call) := by
  rw [hcalls] at hc
  by_cases hcc : c' = c
  · rw [hcc, Function.update_self, Option.some.injEq] at hc
    exact .inl ⟨hcc, hc.symm⟩
  · rw [Function.update_of_ne hcc] at hc
    exact .inr ⟨hcc, hc⟩

/-- What the other calls have drawn is as it was. -/
theorem drawn_of_update {c : Nat} {call' : Call}
    (hcalls : t.calls = Function.update s.calls c (some call')) {c' : Nat} {call : Call}
    {id : WorkerId} (hc : t.calls c' = some call) (hid : call.drawn = some id) :
    (c' = c ∧ call'.drawn = some id) ∨ (c' ≠ c ∧ s.calls c' = some call) := by
  rcases calls_of_update hcalls hc with ⟨hcc, rfl⟩ | hold
  · exact .inl ⟨hcc, hid⟩
  · exact .inr hold

/-- A worker is made with an id that is no other worker's and that no call will give away. -/
theorem IdInv.pushed {d d' : Nat} {id : WorkerId} (hd : IdInv d s)
    (hp : Pushed s t id) (hlt : ∀ w ∈ s.pool.workers, w < s.nextRef) (hle : d ≤ d')
    (hid : 1 ≤ id ∧ id ≤ d') (hnext : t.pool.nextId = (1 + d') % 2 ^ 64)
    (hfresh : ∀ w, w < s.nextRef → (s.heap w).id ≠ id)
    (hcalls : ∀ {c call id'}, t.calls c = some call → call.drawn = some id' →
      s.calls c = some call ∧ id' ≠ id) : IdInv d' t := by
  -- a worker is the new one, or an old one with the id it had
  have hcases : ∀ {w}, w < t.nextRef → (w = s.nextRef ∧ (t.heap w).id = id) ∨
      (w < s.nextRef ∧ (t.heap w).id = (s.heap w).id) := by
    intro w hw
    rw [hp.nextRef] at hw
    rcases Nat.lt_succ_iff_lt_or_eq.mp hw with hw | hw
    · exact .inr ⟨hw, hp.id_old w (Nat.ne_of_lt hw)⟩
    · exact .inl ⟨hw, hw ▸ hp.id_new⟩
  refine ⟨hnext, fun hw => ?_, fun hw hw' heq => ?_, fun hc hd' => ?_, fun hc hd' hw => ?_,
    fun hc hd' hc₂ hd₂ => ?_, ?_, fun _ => ?_⟩
  · rcases hcases hw with ⟨-, heq⟩ | ⟨hw, heq⟩
    · rw [heq]; exact hid
    · rw [heq]; exact ⟨(hd.made hw).1, Nat.le_trans (hd.made hw).2 hle⟩
  · rcases hcases hw with ⟨h₁, h₂⟩ | ⟨h₁, h₂⟩ <;> rcases hcases hw' with ⟨h₁', h₂'⟩ | ⟨h₁', h₂'⟩
    · exact h₁.trans h₁'.symm
    · exact absurd (h₂'.symm.trans (heq.symm.trans h₂)) (hfresh _ h₁')
    · exact absurd (h₂.symm.trans (heq.trans h₂')) (hfresh _ h₁)
    · exact hd.made_inj h₁ h₁' (h₂.symm.trans (heq.trans h₂'))
  · have hold := hd.drawn (hcalls hc hd').1 hd'
    exact ⟨hold.1, Nat.le_trans hold.2 hle⟩
  · obtain ⟨hc, hne⟩ := hcalls hc hd'
    rcases hcases hw with ⟨-, heq⟩ | ⟨hw, heq⟩
    · rw [heq]; exact Ne.symm hne
    · rw [heq]; exact hd.unmade hc hd' hw
  · exact hd.drawn_inj (hcalls hc hd').1 hd' (hcalls hc₂ hd₂).1 hd₂
  · rw [hp.workers]
    refine List.nodup_append.mpr ⟨hd.nodup, List.nodup_singleton _, ?_⟩
    rintro w hw _ hw' rfl
    rw [List.mem_singleton.mp hw'] at hw
    exact Nat.lt_irrefl _ (hlt _ hw)
  · rw [hp.workers]
    simp only [ne_eq, List.append_eq_nil_iff, List.cons_ne_nil, and_false, not_false_eq_true]

/-- A `retain` that removes something removes the one worker with the id. -/
theorem IdInv.retained_split {d : Nat} (hd : IdInv d s)
    (hlt : ∀ w ∈ s.pool.workers, w < s.nextRef) {id : WorkerId}
    (hne : (s.retained id).length ≠ s.pool.workers.length) :
    ∃ before w after, s.pool.workers = before ++ w :: after ∧ (s.heap w).id = id ∧
      s.retained id = before ++ after := by
  have hsome : ∃ w ∈ s.pool.workers, (s.heap w).id = id := by
    refine Classical.byContradiction fun hnone => hne ?_
    refine congrArg List.length (List.filter_eq_self.mpr fun w hw => ?_)
    simp only [bne_iff_ne]
    exact fun heq => hnone ⟨w, hw, heq⟩
  obtain ⟨w, hw, hid⟩ := hsome
  obtain ⟨before, after, hsplit⟩ := List.append_of_mem hw
  have hnodup := hd.nodup
  rw [hsplit, List.nodup_middle, List.nodup_cons] at hnodup
  -- no other worker has the id
  have hother : ∀ v ∈ before ++ after, (s.heap v).id ≠ id := by
    intro v hv heq
    have hmem : v ∈ s.pool.workers := by
      rw [hsplit]
      rcases List.mem_append.mp hv with hv | hv
      · exact List.mem_append_left _ hv
      · exact List.mem_append_right _ (List.mem_cons_of_mem _ hv)
    have hvw : v = w := hd.made_inj (hlt v hmem) (hlt w hw) (heq.trans hid.symm)
    exact hnodup.1 (hvw ▸ hv)
  refine ⟨before, w, after, hsplit, hid, ?_⟩
  rw [State.retained, hsplit, List.filter_append, List.filter_cons]
  simp only [hid, bne_self_eq_false, Bool.false_eq_true, if_false]
  rw [← List.filter_append, List.filter_eq_self]
  intro v hv
  simp only [bne_iff_ne]
  exact hother v hv

theorem IdInv.removed {d c : Nat} {id : WorkerId} (hd : IdInv d s)
    (hlt : ∀ w ∈ s.pool.workers, w < s.nextRef) (hlen : 1 < s.pool.workers.length)
    (hne : (s.retained id).length ≠ s.pool.workers.length) :
    IdInv d ({ s with pool := { s.pool with workers := s.retained id }, locked := true }.setCall c
      (.removePinned id)) := by
  have hcalls : ∀ {c' call id'}, (s.setCall c (.removePinned id)).calls c' = some call →
      call.drawn = some id' → s.calls c' = some call := by
    intro c' call id' hc hid
    rcases drawn_of_update rfl hc hid with ⟨-, hnone⟩ | ⟨-, hc⟩
    · cases hnone
    · exact hc
  refine ⟨hd.next, hd.made, hd.made_inj, fun hc hid => hd.drawn (hcalls hc hid) hid,
    fun hc hid hw => hd.unmade (hcalls hc hid) hid hw,
    fun hc hid hc₂ hid₂ => hd.drawn_inj (hcalls hc hid) hid (hcalls hc₂ hid₂) hid₂,
    hd.nodup.sublist List.filter_sublist, fun _ hnil => ?_⟩
  obtain ⟨before, w, after, hsplit, -, hretained⟩ := hd.retained_split hlt hne
  have hempty : s.retained id = [] := hnil
  rw [hempty] at hretained
  have hlength := congrArg List.length hretained
  rw [hsplit] at hlen
  simp only [List.length_append, List.length_cons, List.length_nil] at hlen hlength
  omega

/-- **One step of a call**: the draws it makes are among those to come. -/
theorem CallStep.idInv {total d c : Nat} {call : Call} (h : CallStep c s call t) (hi : Inv s)
    (hc : s.calls c = some call) (hle : d + s.toDraw ≤ total) (htotal : total < 2 ^ 64)
    (hd : IdInv d s) : ∃ d', IdInv d' t ∧ d' + t.toDraw ≤ total := by
  have hlt := hi.call_lt hc
  cases h.membership with
  | @still _ call' _ hsame hnext hcalls hdrawn hdraws =>
      have htodraw := toDraw_call hlt hc hcalls hnext
      refine ⟨d, hd.same hsame fun hc' hid => ?_, by omega⟩
      rcases drawn_of_update hcalls hc' hid with ⟨rfl, hid⟩ | ⟨-, hc'⟩
      · rcases hdrawn with heq | heq
        · exact ⟨call, hc, heq ▸ hid⟩
        · rw [heq] at hid; cases hid
      · exact ⟨_, hc', hid⟩
  | @made config configs call' _ hp hnext hcalls hdrawn hdraws =>
      have htodraw := toDraw_call hlt hc hcalls hp.nextCall
      rw [hdraws] at htodraw
      simp only [Call.toDraw, List.length_cons] at htodraw
      have hid := hd.nextId (by omega)
      rw [hid] at hp
      refine ⟨d + 1, hd.pushed hp hi.pooled_lt (Nat.le_succ d) ⟨Nat.succ_pos d, Nat.le_refl _⟩
        ?_ ?_ ?_, by omega⟩
      · rw [hnext, hid, Nat.add_comm 1 (d + 1)]
      · exact fun w hw => Nat.ne_of_lt (Nat.lt_succ_of_le (hd.made hw).2)
      · intro c' call id' hc' hid'
        rcases drawn_of_update hcalls hc' hid' with ⟨-, hnone⟩ | ⟨-, hc'⟩
        · rw [hdrawn] at hnone; cases hnone
        · exact ⟨hc', Nat.ne_of_lt (Nat.lt_succ_of_le (hd.drawn hc' hid').2)⟩
  | @drew registered connected _ ht =>
      subst ht
      have htodraw := toDraw_call (t := { s with pool := s.pool.bumpId }.setCall c
        (.addRegister s.pool.nextId registered connected)) hlt hc rfl rfl
      simp only [Call.toDraw] at htodraw
      have hid := hd.nextId (by omega)
      have hcalls : ∀ {c' call id'}, (s.setCall c (.addRegister s.pool.nextId registered
          connected)).calls c' = some call → call.drawn = some id' →
          (c' = c ∧ id' = d + 1) ∨ (c' ≠ c ∧ s.calls c' = some call) := by
        intro c' call id' hc' hid'
        rcases drawn_of_update rfl hc' hid' with ⟨heq, hnew⟩ | hold
        · exact .inl ⟨heq, (Option.some.inj hnew).symm.trans hid⟩
        · exact .inr hold
      refine ⟨d + 1, ⟨?_, fun hw => ?_, hd.made_inj, fun hc' hid' => ?_, fun hc' hid' hw => ?_,
        fun hc' hid' hc₂ hid₂ => ?_, hd.nodup, hd.nonempty⟩, by omega⟩
      · show (s.pool.nextId + 1) % 2 ^ 64 = _
        rw [hid, Nat.add_comm 1 (d + 1)]
      · exact ⟨(hd.made hw).1, Nat.le_succ_of_le (hd.made hw).2⟩
      · rcases hcalls hc' hid' with ⟨-, rfl⟩ | ⟨-, hc'⟩
        · exact ⟨Nat.succ_pos d, Nat.le_refl _⟩
        · exact ⟨(hd.drawn hc' hid').1, Nat.le_succ_of_le (hd.drawn hc' hid').2⟩
      · rcases hcalls hc' hid' with ⟨-, rfl⟩ | ⟨-, hc'⟩
        · exact Nat.ne_of_lt (Nat.lt_succ_of_le (hd.made hw).2)
        · exact hd.unmade hc' hid' hw
      · rcases hcalls hc' hid' with ⟨h₁, h₂⟩ | ⟨-, hc'⟩ <;>
          rcases hcalls hc₂ hid₂ with ⟨h₁', h₂'⟩ | ⟨-, hc₂⟩
        · exact h₁.trans h₁'.symm
        · exact absurd h₂ (Nat.ne_of_lt (Nat.lt_succ_of_le (hd.drawn hc₂ hid₂).2))
        · exact absurd h₂' (Nat.ne_of_lt (Nat.lt_succ_of_le (hd.drawn hc' hid').2))
        · exact hd.drawn_inj hc' hid' hc₂ hid₂
  | @pushed id config connected call' _ hp hnext hcalls hdrawn hdraws =>
      have htodraw := toDraw_call hlt hc hcalls hp.nextCall
      rw [hdraws] at htodraw
      simp only [Call.toDraw] at htodraw
      refine ⟨d, hd.pushed hp hi.pooled_lt (Nat.le_refl d) (hd.drawn hc rfl) ?_ ?_ ?_, by omega⟩
      · rw [hnext, hd.next]
      · exact fun w hw => hd.unmade hc rfl hw
      · intro c' call id' hc' hid'
        rcases drawn_of_update hcalls hc' hid' with ⟨-, hnone⟩ | ⟨hne, hc'⟩
        · rw [hdrawn] at hnone; cases hnone
        · refine ⟨hc', fun heq => hne ?_⟩
          exact hd.drawn_inj hc' hid' hc (heq ▸ rfl)
  | removed hlen hne ht =>
      have htodraw := toDraw_call (t := t) hlt hc (by rw [ht]; rfl) (by rw [ht]; rfl)
      simp only [Call.toDraw] at htodraw
      exact ⟨d, ht ▸ hd.removed hi.pooled_lt hlen hne, by omega⟩

/-- **One step**: the id counter and the draws to come, with one more draw for each call of
`add_account`. -/
theorem Step.idInv {total d : Nat} {l : Label} (h : Step s l t) (hi : Inv s)
    (hle : d + s.toDraw ≤ total) (htotal : total + (if l.adds then 1 else 0) < 2 ^ 64)
    (hd : IdInv d s) :
    ∃ d', IdInv d' t ∧ d' + t.toDraw ≤ total + if l.adds then 1 else 0 := by
  have hquiet : SameIds s t → t.calls = s.calls → t.nextCall = s.nextCall →
      ∃ d', IdInv d' t ∧ d' + t.toDraw ≤ total + if l.adds then 1 else 0 := by
    intro hsame hcalls hnext
    refine ⟨d, hd.same hsame fun hc hid => ⟨_, hcalls ▸ hc, hid⟩, ?_⟩
    rw [State.toDraw, hnext, hcalls]
    exact Nat.le_trans hle (Nat.le_add_right ..)
  cases h with
  | @sup w _ hs => exact hquiet hs.sameIds hs.frame.2.1 hs.frame.2.2.2
  | trace _ hs => exact hquiet hs.sameIds hs.frame.2.1 hs.frame.2.2.2.1
  | die _ | cloneHandle _ | dropHandle _ _ => exact hquiet ⟨fun _ => rfl, rfl, rfl, rfl⟩ rfl rfl
  | call hc hs => exact hs.idInv hi hc hle htotal hd
  | start op _ _ =>
      have hdraws : op.begin.toDraw = if (Label.start s.nextCall op).adds then 1 else 0 := by
        cases op <;> rfl
      have htodraw := toDraw_start (s := s) op
      rw [hdraws] at htodraw
      refine ⟨d, hd.same ⟨fun _ => rfl, rfl, rfl, rfl⟩ fun hc hid => ?_, by omega⟩
      rcases drawn_of_update (c := s.nextCall) rfl hc hid with ⟨-, hnone⟩ | ⟨-, hold⟩
      · cases op <;> cases hnone
      · exact ⟨_, hold, hid⟩

/-! ## Every run -/

theorem init_toDraw (configs : List WarpConfig) (http2 : Bool) (blank : Worker) :
    (State.init configs http2 blank).toDraw = configs.length := by
  simp only [State.toDraw, State.init, Finset.sum_range_one, Function.update_self]
  rfl

theorem init_idInv (configs : List WarpConfig) (http2 : Bool) (blank : Worker) :
    IdInv 0 (State.init configs http2 blank) := by
  have hnone : ∀ {c call id}, (State.init configs http2 blank).calls c = some call →
      call.drawn ≠ some id := by
    intro c call id hc hid
    by_cases hcc : c = 0
    · subst hcc
      cases hc
      cases hid
    · simp only [State.init, Function.update_of_ne hcc] at hc
      cases hc
  exact ⟨rfl, fun hw => absurd hw (Nat.not_lt_zero _), fun hw => absurd hw (Nat.not_lt_zero _),
    fun hc hid => absurd hid (hnone hc), fun hc hid => absurd hid (hnone hc),
    fun hc hid => absurd hid (hnone hc), List.nodup_nil, fun hpos => absurd hpos (Nat.lt_irrefl _)⟩

/-- In a run that adds fewer than `2 ^ 64` accounts no id is drawn twice. -/
theorem run_idInv {configs : List WarpConfig} {http2 : Bool} {blank : Worker} {ls : List Label}
    (h : Transition.Run Step (State.init configs http2 blank) ls s)
    (hcount : configs.length + ls.countP Label.adds < 2 ^ 64) :
    Inv s ∧ ∃ d, IdInv d s ∧ d + s.toDraw ≤ configs.length + ls.countP Label.adds := by
  generalize hs₀ : State.init configs http2 blank = s₀ at h
  induction h with
  | refl =>
      subst hs₀
      refine ⟨Init.inv ⟨_, _, _, rfl⟩, 0, init_idInv .., ?_⟩
      rw [init_toDraw]
      omega
  | @tail _ _ ls l _ hstep ih =>
      have hsplit : (ls ++ [l]).countP Label.adds =
          ls.countP Label.adds + if l.adds then 1 else 0 := by
        rw [List.countP_append, List.countP_singleton]
      rw [hsplit, ← Nat.add_assoc] at hcount ⊢
      obtain ⟨hi, d, hd, hle⟩ := ih (Nat.lt_of_le_of_lt (Nat.le_add_right ..) hcount)
      exact ⟨hstep.inv hi, hstep.idInv hi hle hcount hd⟩

/-- A worker keeps the id it was made with. -/
theorem Step.id_kept {l : Label} (h : Step s l t) {w : Ref} (hw : w < s.nextRef) :
    (t.heap w).id = (s.heap w).id := by
  have hne : w ≠ s.nextRef := Nat.ne_of_lt hw
  cases h with
  | sup hs => exact hs.sameIds.ids w
  | trace _ hs => exact hs.sameIds.ids w
  | start | die | cloneHandle | dropHandle => rfl
  | call hc hs =>
      cases hs.membership with
      | still hsame => exact hsame.ids w
      | made hp | pushed hp => exact hp.id_old w hne
      | drew ht | removed _ _ ht => rw [ht]; rfl

/-- What the critical section of `remove_account(id)` does: it fails and leaves the list, or it
deletes the worker with the id and goes on to the pin. -/
def Removes (c : Nat) (id : WorkerId) (s t : State) : Prop :=
  (∃ e, t.calls c = some (.done (.error e)) ∧ t.pool.workers = s.pool.workers) ∨
    (t.calls c = some (.removePinned id) ∧ ∃ before w after,
      s.pool.workers = before ++ w :: after ∧ (s.heap w).id = id ∧
      t.pool.workers = before ++ after)

theorem IdInv.removes {d c : Nat} {id : WorkerId} (hi : Inv s) (hd : IdInv d s)
    (h : CallStep c s (.remove id) t) : Removes c id s t := by
  cases h with
  | removeLast => exact .inl ⟨_, State.calls_setCall_self .., rfl⟩
  | removeNone _ _ hlen => exact .inl ⟨_, State.calls_setCall_self .., retained_eq hlen⟩
  | remove _ _ hne =>
      obtain ⟨before, w, after, hsplit, hid, hretained⟩ := hd.retained_split hi.pooled_lt hne
      exact .inr ⟨State.calls_setCall_self .., before, w, after, hsplit, hid, hretained⟩

/-- The rest of it leaves the list and succeeds. -/
theorem remove_returns {c : Nat} {call : Call} {id : WorkerId}
    (hcall : call = .removePinned id ∨ call = .removeUnpin id) (h : CallStep c s call t) :
    t.pool.workers = s.pool.workers ∧
      (t.calls c = some (.removeUnpin id) ∨ t.calls c = some (.done (.ok none))) := by
  rcases hcall with rfl | rfl
  · cases h with
    | removeKeep => exact ⟨rfl, .inr (State.calls_setCall_self ..)⟩
    | removePinned => exact ⟨rfl, .inl (State.calls_setCall_self ..)⟩
  · cases h with
    | removeUnpin => exact ⟨rfl, .inr (State.calls_setCall_self ..)⟩

/-- **Account identity.**  In a run that adds fewer than `2 ^ 64` accounts, however the calls
interleave: the pooled ids are different and none is 0; no two accounts ever made have had the
same id, and an account keeps its id; a pool that has had an account has one; a removal deletes
the worker with its id, and that one alone, or fails and changes nothing. -/
theorem account_identity {configs : List WarpConfig} {http2 : Bool} {blank : Worker}
    {ls : List Label} (h : Transition.Run Step (State.init configs http2 blank) ls s)
    (hcount : configs.length + ls.countP Label.adds < 2 ^ 64) :
    (s.pool.workers.map fun w => (s.heap w).id).Nodup ∧
    (∀ w ∈ s.pool.workers, w < s.nextRef ∧ (s.heap w).id ≠ 0) ∧
    (∀ w w', w < s.nextRef → w' < s.nextRef → (s.heap w).id = (s.heap w').id → w = w') ∧
    (∀ l t, Step s l t → ∀ w, w < s.nextRef → (t.heap w).id = (s.heap w).id) ∧
    (0 < s.nextRef → s.pool.workers ≠ []) ∧
    (∀ c id t, s.calls c = some (.remove id) → Step s (.call c) t → Removes c id s t) ∧
    ∀ c call id t, s.calls c = some call → (call = .removePinned id ∨ call = .removeUnpin id) →
      Step s (.call c) t → t.pool.workers = s.pool.workers ∧
        (t.calls c = some (.removeUnpin id) ∨ t.calls c = some (.done (.ok none))) := by
  obtain ⟨hi, d, hd, -⟩ := run_idInv h hcount
  refine ⟨?_, fun w hw => ⟨hi.pooled_lt w hw, ?_⟩, fun w w' => hd.made_inj,
    fun l t hstep w => hstep.id_kept, hd.nonempty, fun c id t hc hstep => ?_,
    fun c call id t hc hcall hstep => ?_⟩
  · refine (List.nodup_map_iff_inj_on hd.nodup).mpr fun w hw w' hw' heq => ?_
    exact hd.made_inj (hi.pooled_lt w hw) (hi.pooled_lt w' hw') heq
  · exact Nat.one_le_iff_ne_zero.mp (hd.made (hi.pooled_lt w hw)).1
  · cases hstep with
    | call hc' hs =>
        rw [hc, Option.some.injEq] at hc'
        subst hc'
        exact hd.removes hi hs
  · cases hstep with
    | call hc' hs =>
        rw [hc, Option.some.injEq] at hc'
        subst hc'
        exact remove_returns hcall hs

/-- Two accounts, one of them removed; its id is not the other's. -/
theorem account_identity_removed : ∃ s : State, s.pool.workers = [1] ∧ s.nextRef = 2 ∧
    (s.heap 0).id ≠ (s.heap 1).id := by
  let out : Except Error Connected := .error (.config "no key")
  have h₀ : Transition.Run Step (.init [.blank, .blank] false (.new 0 .blank)) _ _ := .refl _
  have h₁ := h₀.tail (.call (c := 0) rfl (.newNext rfl))
  have h₂ := h₁.tail (.call (c := 0) rfl (.newBuild (show BuildStep 0 out _ _ _ _ from .config _)))
  have h₃ := h₂.tail
    (.call (c := 0) rfl (.newBuild (show BuildStep 0 out _ _ _ _ from .badKey _ _ rfl)))
  have h₄ := h₃.tail (.call (c := 0) rfl .newSpawn)
  have h₅ := h₄.tail (.call (c := 0) rfl (.newNext rfl))
  have h₆ := h₅.tail (.call (c := 0) rfl (.newBuild (show BuildStep 1 out _ _ _ _ from .config _)))
  have h₇ := h₆.tail
    (.call (c := 0) rfl (.newBuild (show BuildStep 1 out _ _ _ _ from .badKey _ _ rfl)))
  have h₈ := h₇.tail (.call (c := 0) rfl .newSpawn)
  have h₉ := h₈.tail (.call (c := 0) rfl .newDone)
  have h₁₀ := h₉.tail (.start (.removeAccount 1) rfl (by decide))
  have h₁₁ := h₁₀.tail (.call (c := 1) rfl (.remove rfl (by decide) (by decide)))
  obtain ⟨-, -, hinj, -⟩ := account_identity h₁₁ (by decide)
  exact ⟨_, rfl, rfl, fun heq => absurd (hinj 0 1 (by decide) (by decide) heq) (by decide)⟩

end

end WarpProxy.Pool
