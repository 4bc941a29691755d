/-
# `WarpProxy.Pool.Orphans` — accounts that have left the pool

A supervisor owns its worker and holds the pool weakly.  It looks at the pool only
between a tunnel that died, or a rebuild it was asked for, and the next build; it never
looks at the list of workers.  So a worker that is removed keeps its supervisor and its
tunnel, and is rebuilt whenever the tunnel dies, as long as there is a pool; and when the
pool is dropped, a supervisor that waits for a live tunnel goes on waiting.

`ExitOk` is the condition under which accounts that have left do stop: what is removed
has nobody looking after it, and when the pool goes, every supervisor is already on its
way to notice (`Doomed`).
-/
import WarpProxy.Pool.Ids
import WarpProxy.Pool.Intact

namespace WarpProxy.Pool

/-- The worker is not an account of a live pool: it was removed, or the last `Arc<Pool>` was
dropped. -/
def State.Orphaned (s : State) (w : Ref) : Prop :=
  w < s.nextRef ∧ (¬ s.Alive ∨ w ∉ s.pool.workers)

/-- The steps of the program's tasks. -/
def Label.Own : Label → Prop
  | .sup _ | .call _ | .trace _ => True
  | _ => False

def State.Quiescent (s : State) : Prop := Transition.Quiescent Step Label.Own s

/-- The worker has no supervisor that runs, and no call is about to give it one. -/
structure State.Loose (s : State) (w : Ref) : Prop where
  sup : ∀ p, s.sups w = some p → p = .exited
  calls : ∀ c, s.stage w (some c) = none

/-- The supervisor of `w`, at `p`, comes to look at the pool without waiting for a live tunnel. -/
def State.Doomed (s : State) (w : Ref) : Sup → Prop
  | .waiting b => s.deadWatch b = true ∨ (s.heap w).rebuild = true
  | .top => ∀ b, (s.heap w).inner.dead = some b →
      s.deadWatch b = true ∨ (s.heap w).rebuild = true
  | .building _ _ => False
  | .clearing | .upgrading _ | .sleeping _ | .exited => True

/-- What the step removes is loose, and if it lets the last `Arc<Pool>` go then every supervisor
is doomed. -/
structure ExitOk (s t : State) : Prop where
  removed : ∀ w ∈ s.pool.workers, w ∉ t.pool.workers → s.Loose w
  dropped : s.Alive → ¬ t.Alive → ∀ w p, t.sups w = some p → t.Doomed w p

/-- What holds in a run whose steps meet the condition. -/
structure OrphanInv (s : State) : Prop where
  idle : s.handles = 0 → s.Idle
  loose : ∀ w, w < s.nextRef → w ∉ s.pool.workers → s.Loose w
  doomed : ¬ s.Alive → ∀ w p, s.sups w = some p → s.Doomed w p

section
variable {s t : State} {w : Ref}

/-! ## Nobody takes up a loose worker -/

theorem State.Loose.same (hl : s.Loose w) (h : SameHands s t w) : t.Loose w where
  sup p hp := hl.sup p (h.sup ▸ hp)
  calls c := (h.call c).trans (hl.calls c)

/-- A supervisor that makes a step has not exited. -/
theorem SupStep.running (h : SupStep w s t) : s.Running w := by
  cases h with
  | up hq _ | down hq _ | dead hq _ | notified hq _ | clear hq => exact ⟨_, hq, nofun⟩
  | upgrade hq _ | exit hq _ | build hq _ | slept hq | woken hq _ => exact ⟨_, hq, nofun⟩

theorem Step.loose {l : Label} (h : Step s l t) (hi : Inv s) (hw : w < s.nextRef)
    (hl : s.Loose w) : t.Loose w := by
  rcases h.hands hi hw with hsame | rfl | ⟨c, call, st, rfl, hc, hst⟩
  · exact hl.same hsame
  · -- the supervisor of a loose worker makes no step
    cases h with
    | sup hs =>
        obtain ⟨p, hq, hne⟩ := hs.running
        exact absurd (hl.sup p hq) hne
  · have hnone := hl.calls c
    rw [State.stage, hc, Option.bind_some, hst] at hnone
    cases hnone

/-! ## Every supervisor notices that the pool has gone -/

/-- What dooms a supervisor is not taken back by a step of something else. -/
theorem State.Doomed.mono {p : Sup} (h : s.Doomed w p)
    (hdead : ∀ b, s.deadWatch b = true → t.deadWatch b = true)
    (hbuild : (t.heap w).rebuild = (s.heap w).rebuild)
    (hinner : (t.heap w).inner.dead = (s.heap w).inner.dead) : t.Doomed w p := by
  cases p with
  | top =>
      intro b hb
      rw [hbuild]
      exact (h b (hinner ▸ hb)).imp_left (hdead b)
  | waiting b =>
      show _ ∨ (t.heap w).rebuild = true
      rw [hbuild]
      exact h.imp_left (hdead b)
  | building k b => exact h
  | clearing | upgrading | sleeping | exited => trivial

/-- Without a pool, a doomed supervisor stays doomed, and the others are not touched. -/
theorem SupStep.doomed (h : SupStep w s t) (hpool : ¬ s.Alive)
    (hd : ∀ v p, s.sups v = some p → s.Doomed v p) :
    ∀ v p, t.sups v = some p → t.Doomed v p := by
  -- the worker may be written, the watches are as they were
  have hothers : ∀ {u : State} {q : Sup}, u.sups = s.sups → u.deadWatch = s.deadWatch →
      (∀ v, v ≠ w → u.heap v = s.heap v) → (u.setSup w q).Doomed w q →
      ∀ v p, (u.setSup w q).sups v = some p → (u.setSup w q).Doomed v p := by
    intro u q hsups hwatch hheap hq v p hp
    by_cases hv : v = w
    · subst hv
      have hself : (u.setSup v q).sups v = some q := Function.update_self ..
      obtain rfl : q = p := Option.some.inj (hself.symm.trans hp)
      exact hq
    · have hold : s.sups v = some p := by
        rw [← hsups]
        exact (Function.update_of_ne hv ..).symm.trans hp
      have hsame : (u.setSup w q).heap v = s.heap v := hheap v hv
      refine (hd v p hold).mono (fun b hb => ?_) (by rw [hsame]) (by rw [hsame])
      exact (congrFun hwatch b).trans hb
  cases h with
  | up hq hdead => exact hothers rfl rfl (fun _ _ => rfl) (hd w _ hq _ hdead)
  | down hq _ | dead hq _ | slept hq => exact hothers rfl rfl (fun _ _ => rfl) trivial
  | exit hq _ => exact hothers rfl rfl (fun _ _ => rfl) trivial
  | notified | clear | woken =>
      exact hothers rfl rfl (fun v hv => State.heap_setWorker_ne _ _ hv) trivial
  | upgrade hq halive => exact absurd halive hpool
  | build hq hb => exact absurd (.inr ⟨w, _, _, hq⟩) hpool

theorem TraceStep.kept {k : Nat} {task : TraceTask} (h : TraceStep k s task t) :
    t.sups = s.sups ∧ t.deadWatch = s.deadWatch ∧ t.handles = s.handles ∧
      ∀ v, (t.heap v).rebuild = (s.heap v).rebuild ∧
        (t.heap v).inner.dead = (s.heap v).inner.dead := by
  cases h with
  | store =>
      exact ⟨rfl, rfl, rfl, fun v => ⟨State.heap_setWorker_part s v (·.rebuild) rfl,
        State.heap_setWorker_part s v (·.inner.dead) rfl⟩⟩
  | _ => exact ⟨rfl, rfl, rfl, fun _ => ⟨rfl, rfl⟩⟩

theorem SupStep.handles (h : SupStep w s t) : t.handles = s.handles := by
  cases h with
  | @build k b out p s₁ _ hb =>
      have hkept : s₁.handles = s.handles := by cases hb <;> rfl
      cases p <;> exact hkept
  | _ => rfl

/-- A call that has returned makes no step. -/
theorem State.Idle.no_call (hidle : s.Idle) {c : Nat} {call : Call}
    (hc : s.calls c = some call) : ¬ CallStep c s call t := by
  obtain ⟨r, rfl⟩ := hidle c call hc
  intro hs
  cases hs

theorem not_alive (h : ¬ s.Alive) : s.handles = 0 :=
  Nat.eq_zero_of_not_pos fun hpos => h (.inl hpos)

theorem Step.doomed {l : Label} (h : Step s l t) (hpool : ¬ s.Alive) (hidle : s.Idle)
    (hd : ∀ v p, s.sups v = some p → s.Doomed v p) :
    ∀ v p, t.sups v = some p → t.Doomed v p := by
  cases h with
  | sup hs => exact hs.doomed hpool hd
  | start _ _ hpos => exact absurd (.inl hpos) hpool
  | call hc hs => exact absurd hs (hidle.no_call hc)
  | trace _ hs =>
      obtain ⟨hsups, hwatch, -, hheap⟩ := hs.kept
      intro v p hp
      rw [hsups] at hp
      exact (hd v p hp).mono (fun b hb => hwatch ▸ hb) (hheap v).1 (hheap v).2
  | @die b _ =>
      intro v p hp
      refine (hd v p hp).mono (fun b' hb => ?_) rfl rfl
      show Function.update s.deadWatch b true b' = true
      rw [Function.update_apply]
      split
      · rfl
      · exact hb
  | cloneHandle halive => exact absurd halive hpool
  | dropHandle hpos _ => exact absurd (.inl hpos) hpool

/-- Without a handle no operation is under way. -/
theorem Step.idle {l : Label} (h : Step s l t) (hidle : s.handles = 0 → s.Idle) :
    t.handles = 0 → t.Idle := by
  intro hzero
  cases h with
  | sup hs =>
      rw [State.Idle, hs.frame.2.1]
      exact hidle (hs.handles ▸ hzero)
  | start _ _ hpos => exact absurd hzero (Nat.ne_of_gt hpos)
  | call hc hs => exact absurd hs ((hidle (hs.handles ▸ hzero)).no_call hc)
  | trace _ hs =>
      rw [State.Idle, hs.frame.2.1]
      exact hidle (hs.kept.2.2.1 ▸ hzero)
  | die => exact hidle hzero
  | cloneHandle => exact absurd hzero (Nat.succ_ne_zero _)
  | dropHandle hpos hlast =>
      rcases hlast with hlast | hlast
      · exact absurd hzero (Nat.sub_ne_zero_of_lt hlast)
      · exact hlast

/-! ## Every run -/

/-- A worker is made as an account. -/
theorem Step.made {l : Label} (h : Step s l t) (hw : ¬ w < s.nextRef) (hlt : w < t.nextRef) :
    w ∈ t.pool.workers := by
  have hsame : t.nextRef = s.nextRef → w ∈ t.pool.workers := fun heq => absurd (heq ▸ hlt) hw
  have hpushed : ∀ {id}, Pushed s t id → w ∈ t.pool.workers := by
    intro id hp
    rw [hp.nextRef] at hlt
    obtain rfl : w = s.nextRef := Nat.le_antisymm (Nat.le_of_lt_succ hlt) (Nat.le_of_not_lt hw)
    rw [hp.workers]
    exact List.mem_append_right _ (List.mem_singleton_self _)
  cases h with
  | sup hs => exact hsame hs.sameIds.nextRef
  | trace _ hs => exact hsame hs.sameIds.nextRef
  | start | die | cloneHandle | dropHandle => exact hsame rfl
  | call hc hs =>
      cases hs.membership with
      | still hkept => exact hsame hkept.nextRef
      | made hp | pushed hp => exact hpushed hp
      | drew ht | removed _ _ ht => exact hsame (by subst ht; rfl)

theorem OrphanInv.step {l : Label} (ho : OrphanInv s) (hi : Inv s) (h : Step s l t)
    (hok : ExitOk s t) : OrphanInv t where
  idle := h.idle ho.idle
  loose w hw hout := by
    by_cases hold : w < s.nextRef
    · refine h.loose hi hold ?_
      by_cases hin : w ∈ s.pool.workers
      · exact hok.removed w hin hout
      · exact ho.loose w hold hin
    · exact absurd (h.made hold hw) hout
  doomed hpool := by
    by_cases halive : s.Alive
    · exact hok.dropped halive hpool
    · exact h.doomed halive (ho.idle (not_alive halive)) (ho.doomed halive)

/-- A build is started only with the pool at hand. -/
theorem SupStep.starts {k : Nat} (h : SupStep w s t) (hb : t.sups w = some (.building k .start)) :
    s.Alive := by
  have hself : ∀ (u : State) (q : Sup), (u.setSup w q).sups w = some q :=
    fun u q => Function.update_self ..
  cases h with
  | upgrade _ halive => exact halive
  | @build k' b out p s₁ hq _ => exact .inr ⟨w, k', b, hq⟩
  | up | down | dead | notified | clear | exit | slept | woken =>
      rw [hself] at hb
      cases hb

/-- **Accounts that have left the pool stop**, in every run that removes only what nobody looks
after and lets the pool go only when every supervisor is about to notice: the supervisor of such
an account starts no build, and where the program has nothing left to do it does not wait, holding
a tunnel. -/
theorem orphans_stop
    (h : Transition.Reachable (fun s l t => Step s l t ∧ ExitOk s t) Init s) :
    (∀ w t k, s.Orphaned w → Step s (.sup w) t → t.sups w ≠ some (.building k .start)) ∧
    (s.Quiescent → ∀ w b tun, s.Orphaned w → s.sups w = some (.waiting b) →
      (s.heap w).inner.tunnel ≠ some tun) := by
  have hall : Inv s ∧ OrphanInv s := by
    refine h.invariant (fun s => Inv s ∧ OrphanInv s) ?_ ?_
    · intro s hs
      refine ⟨hs.inv, ?_⟩
      obtain ⟨configs, http2, blank, rfl⟩ := hs
      refine ⟨fun hzero => ?_, fun w hw => absurd hw (Nat.not_lt_zero _), fun hpool => ?_⟩
      · exact absurd hzero Nat.one_ne_zero
      · exact absurd (.inl Nat.one_pos) hpool
    · rintro s l t ⟨hi, ho⟩ ⟨hstep, hok⟩
      exact ⟨hstep.inv hi, ho.step hi hstep hok⟩
  obtain ⟨hi, ho⟩ := hall
  constructor
  · rintro w t k ⟨hw, hleft⟩ hstep hbuild
    cases hstep with
    | sup hs =>
        have halive := hs.starts hbuild
        obtain ⟨p, hp, hne⟩ := hs.running
        exact hne ((ho.loose w hw (hleft.resolve_left (not_not_intro halive))).sup p hp)
  · rintro hquiet w b tun ⟨hw, hleft⟩ hwait -
    by_cases hpool : s.Alive
    · have hloose := ho.loose w hw (hleft.resolve_left (not_not_intro hpool))
      cases hloose.sup _ hwait
    · rcases ho.doomed hpool w _ hwait with hdead | hpermit
      · exact hquiet (.sup w) _ trivial (.sup (.dead hwait hdead))
      · exact hquiet (.sup w) _ trivial (.sup (.notified hwait hpermit))

/-- Every call has returned, no trace is fetched, and the supervisors wait for live tunnels. -/
theorem Inv.quiescent (hi : Inv s)
    (hcalls : ∀ c, c < s.nextCall → ∃ r, s.calls c = some (.done r))
    (htraces : ∀ k, s.traces k = none)
    (hsups : ∀ w, w < s.nextRef → ∃ b, s.sups w = some (.waiting b) ∧
      s.deadWatch b = false ∧ (s.heap w).rebuild = false) : s.Quiescent := by
  intro l t hown hstep
  cases hstep with
  | @sup w _ hs =>
      obtain ⟨p, hrun, -⟩ := hs.running
      have hlt : w < s.nextRef :=
        (hi.worker w).lt (o := none) (by rw [State.stage, hrun]; rfl)
      obtain ⟨b, hp, hdead, hpermit⟩ := hsups w hlt
      cases hs with
      | dead hq hd =>
          obtain rfl := Sup.waiting.inj (Option.some.inj (hp.symm.trans hq))
          rw [hdead] at hd
          cases hd
      | notified _ hr =>
          rw [hpermit] at hr
          cases hr
      | up hq _ | down hq _ | clear hq | upgrade hq _ | exit hq _ | build hq _ | slept hq
      | woken hq _ =>
          rw [hp] at hq
          cases hq
  | @call c _ _ hc hs =>
      obtain ⟨r, hdone⟩ := hcalls c (hi.call_lt hc)
      rw [hc, Option.some.injEq] at hdone
      subst hdone
      cases hs
  | @trace k _ _ hk _ =>
      rw [htraces k] at hk
      cases hk
  | start | die | cloneHandle | dropHandle => exact hown

/-- Nothing is removed, and there is a handle. -/
theorem ExitOk.of_kept (hworkers : ∀ w ∈ s.pool.workers, w ∈ t.pool.workers)
    (hhandles : 0 < t.handles) : ExitOk s t where
  removed w hin hout := absurd (hworkers w hin) hout
  dropped _ hpool := absurd (.inl hhandles) hpool

/-- A call that has not begun has nothing in hand. -/
theorem Inv.stage_none (hi : Inv s)
    (h : ∀ c, c < s.nextCall → s.stage w (some c) = none) (c : Nat) :
    s.stage w (some c) = none := by
  cases hc : s.calls c with
  | none => rw [State.stage, hc]; rfl
  | some call => exact h c (hi.call_lt hc)

/-- An account that never connected is removed again. -/
theorem orphans_stop_unborn : ∃ s : State, s.Orphaned 1 ∧
    ∀ t k, Step s (.sup 1) t → t.sups 1 ≠ some (.building k .start) := by
  let out : Except Error Connected := .error (.config "no key")
  have hkept : ∀ {s t : State}, t.pool.workers = s.pool.workers → 0 < t.handles → ExitOk s t :=
    fun heq hpos => .of_kept (fun w hw => heq ▸ hw) hpos
  have hpushed : ∀ {s t : State} {w : Ref}, t.pool.workers = s.pool.workers ++ [w] →
      0 < t.handles → ExitOk s t :=
    fun heq hpos => .of_kept (fun w hw => heq ▸ List.mem_append_left _ hw) hpos
  have h₀ : Transition.Reachable (fun s l t => Step s l t ∧ ExitOk s t) Init
      (.init [.blank] false (.new 0 .blank)) := .init ⟨_, _, _, rfl⟩
  have h₁ := h₀.tail ⟨.call (c := 0) rfl (.newNext rfl), hpushed rfl Nat.one_pos⟩
  have h₂ := h₁.tail ⟨.call (c := 0) rfl
    (.newBuild (show BuildStep 0 out _ _ _ _ from .config _)), hkept rfl Nat.one_pos⟩
  have h₃ := h₂.tail ⟨.call (c := 0) rfl
    (.newBuild (show BuildStep 0 out _ _ _ _ from .badKey _ _ rfl)), hkept rfl Nat.one_pos⟩
  have h₄ := h₃.tail ⟨.call (c := 0) rfl .newSpawn, hkept rfl Nat.one_pos⟩
  have h₅ := h₄.tail ⟨.call (c := 0) rfl .newDone, hkept rfl Nat.one_pos⟩
  have h₆ := h₅.tail ⟨.start (.addAccount (.ok .blank) out) rfl Nat.one_pos,
    hkept rfl Nat.one_pos⟩
  have h₇ := h₆.tail ⟨.call (c := 1) rfl .add, hkept rfl Nat.one_pos⟩
  have h₈ := h₇.tail ⟨.call (c := 1) rfl .addRegister, hkept rfl Nat.one_pos⟩
  have h₉ := h₈.tail ⟨.call (c := 1) rfl (.addPush rfl), hpushed rfl Nat.one_pos⟩
  have h₁₀ := h₉.tail ⟨.call (c := 1) rfl (.addBuild (.config _)), hkept rfl Nat.one_pos⟩
  have h₁₁ := h₁₀.tail ⟨.call (c := 1) rfl (.addBuild (.badKey _ _ rfl)),
    hkept rfl Nat.one_pos⟩
  have h₁₂ := h₁₁.tail ⟨.start (.removeAccount 2) rfl Nat.one_pos, hkept rfl Nat.one_pos⟩
  have hi := Reachable.inv (h₁₂.mono fun _ _ _ h => h.1)
  have h₁₃ := h₁₂.tail ⟨.call (c := 2) rfl (.remove rfl (by decide) (by decide)), by
    refine ⟨fun w hin hout => ?_, fun _ hpool => absurd (.inl Nat.one_pos) hpool⟩
    have hin' : w ∈ [0, 1] := hin
    have hout' : w ∉ [0] := hout
    simp only [List.mem_cons, List.not_mem_nil, or_false] at hin' hout'
    obtain rfl := hin'.resolve_left hout'
    refine ⟨fun p hp => (nomatch hp), hi.stage_none fun c hc => ?_⟩
    exact match c, hc with
      | 0, _ | 1, _ | 2, _ => rfl⟩
  exact ⟨_, ⟨by decide, .inr (by decide)⟩, fun t k => (orphans_stop h₁₃).1 1 t k
    ⟨by decide, .inr (by decide)⟩⟩

/-- Two connected accounts, with nothing left to do. -/
structure Paired (s : State) : Prop where
  workers : s.pool.workers = [0, 1]
  id_0 : (s.heap 0).id = 1
  id_1 : (s.heap 1).id = 2
  pinned : s.pool.pinned = 0
  locked : s.locked = false
  ready : s.ready = true
  handles : 0 < s.handles
  built : 0 < s.nextBuild
  nextRef : s.nextRef = 2
  nextCall : s.nextCall = 1
  returned : s.calls 0 = some (.done (.ok none))
  traces : ∀ k, s.traces k = none
  wait_0 : s.sups 0 = some (.waiting 0)
  wait_1 : s.sups 1 = some (.waiting 1)
  live_0 : s.deadWatch 0 = false
  live_1 : s.deadWatch 1 = false
  rebuild_0 : (s.heap 0).rebuild = false
  rebuild_1 : (s.heap 1).rebuild = false
  tunnel : ∃ tun, (s.heap 0).inner.tunnel = some tun

theorem exists_paired : ∃ s, Reachable s ∧ Paired s := by
  let out : Except Error Connected := .ok ⟨200, 0, none⟩
  have h₀ : Reachable (.init [.blank, .blank] false (.new 0 .blank)) := .init ⟨_, _, _, rfl⟩
  have h₁ := h₀.tail (.call (c := 0) rfl (.newNext rfl))
  have h₂ := h₁.tail (.call (c := 0) rfl (.newBuild (show BuildStep 0 out _ _ _ _ from .config _)))
  have h₃ := h₂.tail
    (.call (c := 0) rfl (.newBuild (show BuildStep 0 out _ _ _ _ from .transport _ _)))
  have h₄ := h₃.tail (.call (c := 0) rfl
    (.newBuild (show BuildStep 0 out _ _ _ _ from .connected _ _ _ false rfl)))
  have h₅ := h₄.tail (.call (c := 0) rfl .newSpawn)
  have h₆ := h₅.tail (.call (c := 0) rfl (.newNext rfl))
  have h₇ := h₆.tail (.call (c := 0) rfl (.newBuild (show BuildStep 1 out _ _ _ _ from .config _)))
  have h₈ := h₇.tail
    (.call (c := 0) rfl (.newBuild (show BuildStep 1 out _ _ _ _ from .transport _ _)))
  have h₉ := h₈.tail (.call (c := 0) rfl
    (.newBuild (show BuildStep 1 out _ _ _ _ from .connected _ _ _ false rfl)))
  have h₁₀ := h₉.tail (.call (c := 0) rfl .newSpawn)
  have h₁₁ := h₁₀.tail (.call (c := 0) rfl .newDone)
  have h₁₂ := h₁₁.tail (.sup (w := 0) (.up (b := 0) rfl rfl))
  have h₁₃ := h₁₂.tail (.sup (w := 1) (.up (b := 1) rfl rfl))
  exact ⟨_, h₁₃, rfl, rfl, rfl, rfl, rfl, rfl, Nat.one_pos, Nat.two_pos, rfl, rfl, rfl,
    fun _ => rfl, rfl, rfl, rfl, rfl, rfl, rfl, _, rfl⟩

/-- Two accounts are connected and the first is removed.  With nothing left to do, its supervisor
waits, holding the tunnel; when that dies, it starts a build. -/
theorem removed_rebuilt : ∃ s t u : State,
    (Reachable s ∧ s.Orphaned 0 ∧ s.Quiescent ∧ s.sups 0 = some (.waiting 0) ∧
      ∃ tun, (s.heap 0).inner.tunnel = some tun) ∧
    (Reachable t ∧ t.Orphaned 0 ∧ Step t (.sup 0) u ∧
      u.sups 0 = some (.building 1 .start)) := by
  obtain ⟨s, h₀, hp⟩ := exists_paired
  have hretained : s.retained 1 = [1] := by
    simp [State.retained, hp.workers, hp.id_0, hp.id_1]
  have hlen : 1 < s.pool.workers.length := by rw [hp.workers]; decide
  have hne : (s.retained 1).length ≠ s.pool.workers.length := by
    rw [hretained, hp.workers]; decide
  have hpin : s.pool.pinned ≠ 1 := by rw [hp.pinned]; decide
  have hborn : 0 < s.nextRef := by rw [hp.nextRef]; decide
  have hout : 0 ∉ s.retained 1 := by rw [hretained]; decide
  have h₁ := h₀.tail (.start (.removeAccount 1) hp.ready hp.handles)
  have h₂ := h₁.tail (.call (c := s.nextCall) (State.calls_setCall_self ..)
    (.remove hp.locked hlen hne))
  have h₃ := h₂.tail (.call (c := s.nextCall) (State.calls_setCall_self ..) (.removeKeep hpin))
  have h₄ := h₃.tail (.die (b := 0) hp.built)
  have h₅ := h₄.tail (.sup (w := 0) (.dead hp.wait_0 rfl))
  have h₆ := h₅.tail (.sup (w := 0) (.clear rfl))
  refine ⟨_, _, _, ⟨h₃, ⟨hborn, .inr hout⟩, ?_, hp.wait_0, hp.tunnel⟩,
    h₆, ⟨hborn, .inr hout⟩, .sup (.upgrade rfl (.inl hp.handles)), rfl⟩
  refine (Reachable.inv h₃).quiescent (fun c hc => ?_) hp.traces fun w hw => ?_
  · rcases Nat.lt_succ_iff_lt_or_eq.mp hc with hold | rfl
    · -- the call of `Pool::new`
      have hne : 0 ≠ s.nextCall := by rw [hp.nextCall]; decide
      rw [hp.nextCall] at hold
      obtain rfl := Nat.lt_one_iff.mp hold
      exact ⟨_, (State.calls_setCall_ne _ _ hne).trans <|
        (State.calls_setCall_ne _ _ hne).trans <| (State.calls_setCall_ne s _ hne).trans
          hp.returned⟩
    · exact ⟨_, State.calls_setCall_self ..⟩
  · have hlt : w < 2 := hp.nextRef ▸ hw
    rcases Nat.lt_succ_iff_lt_or_eq.mp hlt with hold | rfl
    · obtain rfl := Nat.lt_one_iff.mp hold
      exact ⟨0, hp.wait_0, hp.live_0, hp.rebuild_0⟩
    · exact ⟨1, hp.wait_1, hp.live_1, hp.rebuild_1⟩

end

end WarpProxy.Pool
