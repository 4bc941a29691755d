/-
# `WarpProxy.Pool.Recovery` — a supervisor gets its tunnel back

From wherever a supervisor stands, at a dead tunnel, in a backoff or in the middle of a build
that is out of date, a bounded number of its own steps lead to a live tunnel that is built from
what is current, if the builds it makes meanwhile succeed (`recovers`).  The steps of the other
supervisors and the trace fetches may come between in any order.

What carries it is a variant: how many steps of its own are left (`State.work`).  A rebuild that
has been asked for makes for one more round.
-/
import WarpProxy.Pool.Orphans
import WarpProxy.Pool.Tended

namespace WarpProxy.Pool

/-! ## What is to be done -/

/-- The steps up to a live tunnel, given the dead signal in the worker and the signals. -/
def Sup.work (dead : Option BuildId) (watch : BuildId → Bool) : Sup → Nat
  | .exited => 0
  | .waiting b => if watch b then 7 else 0
  | .top => dead.elim 6 fun b => if watch b then 8 else 1
  | .clearing | .sleeping _ => 6
  | .upgrading _ => 5
  | .building _ .start => 4
  | .building _ (.haveConfig _) => 3
  | .building _ (.connecting _ _) => 2

/-- One more round if a rebuild has been asked for. -/
def State.work (s : State) (w : Ref) : Nat :=
  (s.sups w).elim 0 (Sup.work (s.heap w).inner.dead s.deadWatch) +
    if (s.heap w).rebuild then 7 else 0

/-- The supervisor waits for the end of a live tunnel, which is built from what is current. -/
def State.Up (s : State) (w : Ref) : Prop := s.Settled w ∧ s.Installed w

/-- The supervisor of `w` has not failed in the step, and the tunnel it has built is alive. -/
structure Smooth (w : Ref) (s t : State) : Prop where
  awake : ∀ k, t.sups w ≠ some (.sleeping k)
  alive : s.nextBuild < t.nextBuild → t.deadWatch s.nextBuild = false

/-- A supervisor or a trace fetch. -/
def Label.Background : Label → Prop
  | .sup _ | .trace _ => True
  | _ => False

def Label.isSup (w : Ref) : Label → Bool
  | .sup v => v == w
  | _ => false

/-- The steps while `w` recovers. -/
structure Recovering (w : Ref) (s : State) (l : Label) (t : State) : Prop where
  step : Step s l t
  background : l.Background
  smooth : l.isSup w = true → Smooth w s t

/-! ## Dead signals are of tunnels there have been -/

def State.Born (s : State) : Prop :=
  ∀ w, w < s.nextRef → ∀ b, (s.heap w).inner.dead = some b → b < s.nextBuild

section
variable {s t : State} {w v : Ref}

theorem State.Born.same (hs : s.Born) (hdead : ∀ v, (t.heap v).inner.dead = (s.heap v).inner.dead)
    (href : t.nextRef = s.nextRef) (hle : s.nextBuild ≤ t.nextBuild) : t.Born := by
  intro v hv b hb
  exact Nat.lt_of_lt_of_le (hs v (href ▸ hv) b ((hdead v).symm.trans hb)) hle

/-- One worker is written. -/
theorem State.Born.update (hs : s.Born) {x : Worker}
    (hheap : t.heap = Function.update s.heap w x)
    (hx : ∀ b, x.inner.dead = some b → b < t.nextBuild)
    (href : ∀ v, v < t.nextRef → v ≠ w → v < s.nextRef) (hle : s.nextBuild ≤ t.nextBuild) :
    t.Born := by
  intro v hv b hb
  rw [hheap] at hb
  by_cases hvw : v = w
  · subst hvw
    rw [Function.update_self] at hb
    exact hx b hb
  · rw [Function.update_of_ne hvw] at hb
    exact Nat.lt_of_lt_of_le (hs v (href v hv hvw) b hb) hle

theorem State.Born.push (hs : s.Born) {id : WorkerId} {config : WarpConfig}
    (hheap : t.heap = Function.update s.heap s.nextRef (.new id config))
    (href : t.nextRef = s.nextRef + 1) (hle : s.nextBuild ≤ t.nextBuild) : t.Born := by
  refine hs.update hheap (fun b hb => ?_) (fun v hv hne => ?_) hle
  · cases hb
  · exact Nat.lt_of_le_of_ne (Nat.le_of_lt_succ (Nat.lt_of_lt_of_eq hv href)) hne

theorem BuildStep.born {out : Except Error Connected} {b : Build} {p : Progress}
    (h : BuildStep w out s b p t) (hs : s.Born) : t.Born := by
  cases h with
  | connected _ config tr died _ =>
      refine hs.update rfl (fun b hb => ?_) (fun v hv _ => hv) (Nat.le_succ _)
      obtain rfl : s.nextBuild = b := Option.some.inj hb
      exact Nat.lt_succ_self _
  | _ => exact hs

theorem SupStep.born (h : SupStep w s t) (hs : s.Born) : t.Born := by
  cases h with
  | notified | woken =>
      exact hs.same (fun v => State.heap_setWorker_part s v (·.inner.dead) rfl) rfl (Nat.le_refl _)
  | clear =>
      refine hs.update rfl (fun b hb => ?_) (fun v hv _ => hv) (Nat.le_refl _)
      cases hb
  | @build k b out p s₁ _ hb =>
      have hborn := hb.born hs
      cases p <;> exact hborn
  | _ => exact hs

theorem CallStep.born {c : Nat} {call : Call} (h : CallStep c s call t) (hs : s.Born) :
    t.Born := by
  cases h with
  | newNext | addPush => exact hs.push rfl rfl (Nat.le_refl _)
  | @newBuild _ _ _ _ p _ hb | @addBuild _ _ _ _ p _ hb =>
      have hborn := hb.born hs
      cases p <;> exact hborn
  | @notify _ id w _ =>
      rw [State.notifyIf]
      split
      · exact hs.same (fun v => State.heap_setWorker_part s v (·.inner.dead) rfl) rfl
          (Nat.le_refl _)
      · exact hs
  | rotateStore | rotateNotify | refreshed =>
      exact hs.same (fun v => State.heap_setWorker_part s v (·.inner.dead) rfl) rfl (Nat.le_refl _)
  | _ => exact hs

theorem Step.born {l : Label} (h : Step s l t) (hs : s.Born) : t.Born := by
  cases h with
  | sup hstep => exact hstep.born hs
  | call _ hstep => exact hstep.born hs
  | trace _ hstep =>
      obtain ⟨-, -, -, hkept⟩ := hstep.kept
      exact hs.same (fun v => (hkept v).2) hstep.frame.2.2.1 (Step.nextBuild_le (.trace ‹_› hstep))
  | start | die | cloneHandle | dropHandle => exact hs

theorem Reachable.born (h : Reachable s) : s.Born := by
  refine Transition.Reachable.invariant State.Born h ?_ fun _ _ _ hs hstep => hstep.born hs
  rintro _ ⟨configs, http2, blank, rfl⟩ w hw
  exact absurd hw (Nat.not_lt_zero w)

/-! ## One step -/

/-- What the work of `w` depends on stays. -/
theorem work_eq (hsup : t.sups w = s.sups w)
    (hdead : (t.heap w).inner.dead = (s.heap w).inner.dead)
    (hpermit : (t.heap w).rebuild = (s.heap w).rebuild)
    (hwatch : ∀ b, (s.heap w).inner.dead = some b ∨ s.sups w = some (.waiting b) →
      t.deadWatch b = s.deadWatch b) : t.work w = s.work w := by
  rw [State.work, State.work, hsup, hdead, hpermit]
  cases hq : s.sups w with
  | none => rfl
  | some q =>
      cases q with
      | top =>
          cases hd : (s.heap w).inner.dead with
          | none => rfl
          | some b => simp only [Option.elim_some, Sup.work, hwatch b (.inl hd)]
      | waiting b => simp only [Option.elim_some, Sup.work, hwatch b (.inr hq)]
      | building k b => cases b <;> rfl
      | clearing | upgrading | sleeping | exited => rfl

theorem SupStep.heap_ne (h : SupStep v s t) (hw : w ≠ v) : t.heap w = s.heap w := by
  cases h with
  | notified | woken | clear => exact State.heap_setWorker_ne s _ hw
  | @build k b out p s₁ _ hb =>
      have hheap : s₁.heap w = s.heap w := by
        cases hb with
        | connected => exact State.heap_setWorker_ne s _ hw
        | _ => rfl
      cases p <;> exact hheap
  | _ => rfl

/-- The steps of others leave the work of `w`. -/
theorem Recovering.work_other {l : Label} (h : Recovering w s l t) (hb : s.Born) (hi : WInv s w)
    (hlt : w < s.nextRef) (hl : l.isSup w = false) : t.work w = s.work w := by
  have hborn : ∀ b, (s.heap w).inner.dead = some b ∨ s.sups w = some (.waiting b) →
      b < s.nextBuild := by
    rintro b (hdead | hwait)
    · exact hb w hlt b hdead
    · exact hb w hlt b (hi.waiting hwait)
  have hwatch : SameWatch s t := by
    refine h.step.watch ?_
    rintro b rfl
    exact h.background
  have hsame : ∀ b, (s.heap w).inner.dead = some b ∨ s.sups w = some (.waiting b) →
      t.deadWatch b = s.deadWatch b := fun b hd => hwatch.2 b (hborn b hd)
  cases h.step with
  | @sup v _ hs =>
      have hne : w ≠ v := by
        rintro rfl
        rw [Label.isSup, beq_self_eq_true] at hl
        cases hl
      have hheap := hs.heap_ne hne
      exact work_eq (hs.keeps hne).sup (by rw [hheap]) (by rw [hheap]) hsame
  | trace _ hs =>
      obtain ⟨hsups, -, -, hkept⟩ := hs.kept
      exact work_eq (congrFun hsups w) (hkept w).2 (hkept w).1 hsame
  | start | call | die | cloneHandle | dropHandle => exact absurd h.background id

/-- The supervisor of `w` stands at `q` and the worker is as it says. -/
theorem work_at {q : Sup} (hq : s.sups w = some q) : s.work w =
    q.work (s.heap w).inner.dead s.deadWatch + if (s.heap w).rebuild then 7 else 0 := by
  rw [State.work, hq, Option.elim_some]

/-- With a live tunnel one step is left, and a round if a rebuild has been asked for. -/
theorem work_installed {config : WarpConfig} {tr : Transport} {r : Connected} {died : Bool}
    (halive : (s.install w config tr r died).deadWatch s.nextBuild = false) :
    (((s.install w config tr r died).setSup w .top).spawnTrace w).work w
      = 1 + if (s.heap w).rebuild then 7 else 0 := by
  let u := ((s.install w config tr r died).setSup w .top).spawnTrace w
  have hheap : u.heap w = (s.heap w).install
      ⟨s.nextBuild, r.status, r.assignedV4, r.assignedV6, config, tr⟩ :=
    State.heap_setWorker_self ..
  have hdead : (u.heap w).inner.dead = some s.nextBuild := by rw [hheap]; rfl
  have hpermit : (u.heap w).rebuild = (s.heap w).rebuild := by rw [hheap]; rfl
  have hwatch : u.deadWatch s.nextBuild = false := halive
  have hwork : Sup.top.work (some s.nextBuild) u.deadWatch = 1 :=
    if_neg (by rw [hwatch]; exact Bool.false_ne_true)
  have hat : u.sups w = some .top := Function.update_self ..
  rw [work_at hat, hdead, hpermit, hwork]

/-- **Its own steps leave less.** -/
theorem SupStep.work_lt (h : SupStep w s t) (hsmooth : Smooth w s t) : t.work w < s.work w := by
  have hself : ∀ (u : State) (q : Sup), (u.setSup w q).sups w = some q :=
    fun u q => Function.update_self ..
  cases h with
  | @up b hq hdead =>
      rw [work_at hq, work_at (hself s (.waiting b)), hdead]
      show (if s.deadWatch b then 7 else 0) + _ < (if s.deadWatch b then 8 else 1) + _
      split <;> exact Nat.add_lt_add_right (by decide) _
  | down hq hdead =>
      rw [work_at hq, work_at (hself s (.upgrading 1)), hdead]
      exact Nat.add_lt_add_right (by decide : 5 < 6) _
  | @dead b hq hdead =>
      have hwork : (Sup.waiting b).work (s.heap w).inner.dead s.deadWatch = 7 := if_pos hdead
      rw [work_at hq, work_at (hself s .clearing), hwork]
      exact Nat.add_lt_add_right (by decide : 6 < 7) _
  | notified hq hpermit =>
      have hnone : (((s.setWorker w (s.heap w).takePermit).setSup w .clearing).heap w).rebuild
          = false := congrArg Worker.rebuild (State.heap_setWorker_self ..)
      rw [work_at hq, work_at (hself _ .clearing), hpermit, hnone, if_pos rfl,
        if_neg Bool.false_ne_true]
      exact Nat.lt_of_lt_of_le (by decide : 6 + 0 < 7) (Nat.le_add_left _ _)
  | clear hq =>
      have hpermit : (((s.setWorker w (s.heap w).clearNet).setSup w (.upgrading 1)).heap w).rebuild
          = (s.heap w).rebuild := State.heap_setWorker_part s w (·.rebuild) rfl
      rw [work_at hq, work_at (hself _ (.upgrading 1)), hpermit]
      exact Nat.add_lt_add_right (by decide : 5 < 6) _
  | @upgrade k hq _ =>
      rw [work_at hq, work_at (hself s (.building k .start))]
      exact Nat.add_lt_add_right (by decide : 4 < 5) _
  | exit hq _ =>
      rw [work_at hq, work_at (hself s .exited)]
      exact Nat.add_lt_add_right (by decide : 0 < 5) _
  | @build k b out p s₁ hq hb =>
      cases hb with
      | config =>
          rw [work_at hq, State.supAfter, work_at (hself s _)]
          exact Nat.add_lt_add_right (by decide : 3 < 4) _
      | transport config =>
          rw [work_at hq, State.supAfter, work_at (hself s _)]
          exact Nat.add_lt_add_right (by decide : 2 < 3) _
      | badKey | refused => exact absurd (hself s (.sleeping k)) (hsmooth.awake k)
      | @connected r _ config tr died _ =>
          have hwatch : (s.install w config tr r died).deadWatch s.nextBuild = false :=
            hsmooth.alive (Nat.lt_succ_self _)
          rw [State.supAfter, work_installed hwatch, work_at hq]
          exact Nat.add_lt_add_right (by decide : 1 < 2) _
  | @slept k hq =>
      rw [work_at hq, work_at (hself s _)]
      exact Nat.add_lt_add_right (by decide : 5 < 6) _
  | @woken k hq hpermit =>
      have hnone : (((s.setWorker w (s.heap w).takePermit).setSup w
          (.upgrading (min (k * 2) maxBackoff))).heap w).rebuild = false :=
        congrArg Worker.rebuild (State.heap_setWorker_self ..)
      rw [work_at hq, work_at (hself _ _), hpermit, hnone, if_pos rfl, if_neg Bool.false_ne_true]
      exact Nat.add_lt_add (by decide : 5 < 6) (by decide : 0 < 7)

theorem Recovering.work_own {l : Label} (h : Recovering w s l t) (hl : l.isSup w = true) :
    t.work w < s.work w := by
  have hsmooth := h.smooth hl
  cases h.step with
  | @sup v _ hs =>
      obtain rfl : v = w := beq_iff_eq.mp hl
      exact hs.work_lt hsmooth
  | start | call | trace | die | cloneHandle | dropHandle => cases hl

theorem Sup.work_le (dead : Option BuildId) (watch : BuildId → Bool) (q : Sup) :
    q.work dead watch ≤ 8 := by
  cases q with
  | top =>
      cases dead with
      | none => exact (by decide : 6 ≤ 8)
      | some b =>
          show (if watch b then 8 else 1) ≤ 8
          split <;> decide
  | waiting b =>
      show (if watch b then 7 else 0) ≤ 8
      split <;> decide
  | building k b => cases b <;> simp only [Sup.work] <;> decide
  | clearing | upgrading | sleeping | exited => simp only [Sup.work]; decide

theorem work_le (s : State) (w : Ref) : s.work w ≤ 15 := by
  have hpermit : (if (s.heap w).rebuild then 7 else 0) ≤ 7 := by split <;> decide
  refine Nat.add_le_add (?_ : _ ≤ 8) hpermit
  cases s.sups w with
  | none => exact Nat.zero_le 8
  | some q => exact q.work_le ..

/-! ## Recovery -/

/-- An account of a pool that is held and not being changed, with its supervisor. -/
structure Standing (w : Ref) (s : State) : Prop where
  reachable : Reachable s
  held : 0 < s.handles
  idle : s.Idle
  pooled : w ∈ s.pool.workers
  running : s.Running w

theorem Standing.step {l : Label} (hs : Standing w s) (h : Recovering w s l t) :
    Standing w t := by
  have hreach : Reachable t := hs.reachable.tail h.step
  cases h.step with
  | sup hsup =>
      obtain ⟨hpool, hcalls, -, -⟩ := hsup.frame
      exact ⟨hreach, hsup.handles ▸ hs.held, fun c call hc => hs.idle c call (hcalls ▸ hc),
        hpool ▸ hs.pooled, (hsup.quiet hs.held).running w hs.running⟩
  | trace _ htrace =>
      obtain ⟨hpool, hcalls, -, -, hsups⟩ := htrace.frame
      obtain ⟨-, -, hhandles, -⟩ := htrace.kept
      refine ⟨hreach, hhandles ▸ hs.held, fun c call hc => hs.idle c call (hcalls ▸ hc),
        hpool ▸ hs.pooled, ?_⟩
      obtain ⟨p, hp, hne⟩ := hs.running
      exact ⟨p, (congrFun hsups w).trans hp, hne⟩
  | start | call | die | cloneHandle | dropHandle => exact absurd h.background id

theorem Standing.work_other {l : Label} (hs : Standing w s) (h : Recovering w s l t)
    (hl : l.isSup w = false) : t.work w = s.work w :=
  h.work_other hs.reachable.born (hs.reachable.inv.worker w)
    (hs.reachable.inv.pooled_lt w hs.pooled) hl

/-- A step that does not end in a failure and makes no tunnel. -/
theorem SupStep.recovering {q : Sup} (h : SupStep w s t) (hq : t.sups w = some q)
    (hawake : ∀ k, q ≠ .sleeping k) (hnext : t.nextBuild = s.nextBuild) :
    Recovering w s (.sup w) t where
  step := .sup h
  background := trivial
  smooth _ := by
    refine ⟨fun k hk => hawake k ?_, fun hlt => absurd (hnext ▸ hlt) (Nat.lt_irrefl _)⟩
    exact Option.some.inj (hq.symm.trans hk)

/-- **Never stuck**: the tunnel is there, or the supervisor has a step to take. -/
theorem Standing.up_or_step (hs : Standing w s) :
    s.Up w ∨ ∃ t, Recovering w s (.sup w) t := by
  obtain ⟨q, hq, hne⟩ := hs.running
  have hself : ∀ (u : State) (p : Sup), (u.setSup w p).sups w = some p :=
    fun u p => Function.update_self ..
  cases q with
  | top =>
      right
      cases hdead : (s.heap w).inner.dead with
      | none => exact ⟨_, (SupStep.down hq hdead).recovering (hself ..) nofun rfl⟩
      | some b => exact ⟨_, (SupStep.up hq hdead).recovering (hself ..) nofun rfl⟩
  | waiting b =>
      cases hdead : s.deadWatch b with
      | true => exact .inr ⟨_, (SupStep.dead hq hdead).recovering (hself ..) nofun rfl⟩
      | false =>
          cases hpermit : (s.heap w).rebuild with
          | true => exact .inr ⟨_, (SupStep.notified hq hpermit).recovering (hself ..) nofun rfl⟩
          | false =>
              -- nothing owes a rebuild when no call is under way
              have hsettled : s.Settled w := by
                refine ⟨hs.pooled, ⟨b, hq, hdead⟩, hpermit, fun c call hc => ?_⟩
                obtain ⟨r, rfl⟩ := hs.idle c call hc
                exact id
              exact .inl ⟨hsettled, settled_installed hs.reachable hsettled⟩
  | clearing => exact .inr ⟨_, (SupStep.clear hq).recovering (hself ..) nofun rfl⟩
  | upgrading k =>
      exact .inr ⟨_, (SupStep.upgrade hq (.inl hs.held)).recovering (hself ..) nofun rfl⟩
  | building k b =>
      right
      let out : Except Error Connected := .ok ⟨200, 0, none⟩
      cases b with
      | start =>
          have hbuild : BuildStep w out s .start _ _ := .config s
          exact ⟨_, (SupStep.build hq hbuild).recovering (hself ..) nofun rfl⟩
      | haveConfig config =>
          have hbuild : BuildStep w out s (.haveConfig config) _ _ := .transport s config
          exact ⟨_, (SupStep.build hq hbuild).recovering (hself ..) nofun rfl⟩
      | connecting config tr =>
          have hbuild : BuildStep w out s (.connecting config tr) _ _ :=
            .connected s config tr false rfl
          refine ⟨_, .sup (.build hq hbuild), trivial, fun _ => ⟨fun k' hk' => ?_, fun _ => ?_⟩⟩
          · have htop : some Sup.top = some (.sleeping k') := (hself ..).symm.trans hk'
            cases htop
          · exact Function.update_self ..
  | sleeping k => exact .inr ⟨_, (SupStep.slept hq).recovering (hself ..) nofun rfl⟩
  | exited => exact absurd rfl hne

/-- **A supervisor gets its tunnel back**: in every reachable state of a pool that is held and not
being changed, with whatever the other supervisors and the trace fetches do, an account's supervisor
takes at most 15 steps in which its builds succeed, and does not stop before it waits for a live
tunnel that was built from the current config and transport. -/
theorem recovers {ls : List Label} (hs : Standing w s)
    (h : Transition.Run (Recovering w) s ls t) :
    ls.countP (Label.isSup w) ≤ 15 ∧ (t.Up w ∨ ∃ u, Recovering w t (.sup w) u) := by
  obtain ⟨ht, hle⟩ := h.count_le (Label.isSup w) (Standing w) (State.work · w)
    (fun _ _ _ hu hstep => hu.step hstep) (fun _ _ _ _ hstep hl => hstep.work_own hl)
    (fun _ _ _ hu hstep hl => Nat.le_of_eq (hu.work_other hstep hl)) hs
  have hbound := work_le s w
  exact ⟨by omega, ht.up_or_step⟩

end

/-- The supervisor of the only account, whose tunnel `Pool::new` has failed to build: a whole round,
up to where it waits again. -/
theorem recovers_down : ∃ s t : State, Standing 0 s ∧ s.sups 0 = some .top
    ∧ Transition.Run (Recovering 0) s (List.replicate 6 (.sup 0)) t
    ∧ t.sups 0 = some (.waiting s.nextBuild)
    ∧ (List.replicate 6 (Label.sup 0)).countP (Label.isSup 0) ≤ 15
    ∧ (t.Up 0 ∨ ∃ u, Recovering 0 t (.sup 0) u) := by
  let out : Except Error Connected := .error (.tunnel "")
  obtain ⟨s, hs, htop, hdead⟩ : ∃ s, Standing 0 s ∧ s.sups 0 = some .top
      ∧ (s.heap 0).inner.dead = none := by
    have h₀ : Reachable (.init [.blank] false (.new 0 .blank)) := .init ⟨_, _, _, rfl⟩
    have h₁ := h₀.tail (.call (c := 0) rfl (.newNext rfl))
    have h₂ := h₁.tail
      (.call (c := 0) rfl (.newBuild (show BuildStep 0 out _ _ _ _ from .config _)))
    have h₃ := h₂.tail (.call (c := 0) rfl
      (.newBuild (show BuildStep 0 out _ _ _ _ from .badKey _ _ rfl)))
    have h₄ := h₃.tail (.call (c := 0) rfl .newSpawn)
    have h₅ := h₄.tail (.call (c := 0) rfl .newDone)
    refine ⟨_, ⟨h₅, Nat.one_pos, fun c call hc => ?_, List.mem_singleton_self 0,
      ⟨.top, rfl, nofun⟩⟩, rfl, rfl⟩
    obtain rfl : c = 0 := Nat.lt_one_iff.mp ((Reachable.inv h₅).call_lt hc)
    exact ⟨_, (Option.some.inj hc).symm⟩
  let good : Except Error Connected := .ok ⟨200, 0, none⟩
  have hself : ∀ (u : State) (q : Sup), (u.setSup 0 q).sups 0 = some q :=
    fun u q => rfl
  have hbuild : ∀ {u v : State} {b b' : Build}, u.sups 0 = some (.building 1 b) →
      BuildStep 0 good u b (.more b') v → v.nextBuild = u.nextBuild →
      Recovering 0 u (.sup 0) (v.setSup 0 (.building 1 b')) :=
    fun hq hb hnext => (SupStep.build hq hb).recovering (hself ..) nofun hnext
  have hrun₁ := (Transition.Run.refl s).tail
    ((SupStep.down htop hdead).recovering (hself ..) nofun rfl)
  have hrun₂ := hrun₁.tail
    ((SupStep.upgrade (hself ..) (.inl hs.held)).recovering (hself ..) nofun rfl)
  have hrun₃ := hrun₂.tail (hbuild (hself ..) (.config _) rfl)
  have hrun₄ := hrun₃.tail (hbuild (hself ..) (.transport _ _) rfl)
  have hrun₅ := hrun₄.tail ⟨.sup (.build (hself ..)
      (show BuildStep 0 good _ _ _ _ from .connected _ _ _ false rfl)),
    trivial, fun _ => ⟨nofun, fun _ => Function.update_self ..⟩⟩
  have hrun₆ := hrun₅.tail ((SupStep.up rfl rfl).recovering (hself ..) nofun rfl)
  exact ⟨s, _, hs, htop, hrun₆, hself .., recovers hs hrun₆⟩

end WarpProxy.Pool
