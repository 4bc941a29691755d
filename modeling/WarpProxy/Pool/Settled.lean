/-
# `WarpProxy.Pool.Settled` — no rebuild request is lost

A worker is looked after by one task at a time: the call that made it, then its
supervisor.  `State.stage` is how far that task is with the worker, whichever it
is.  What the stage holds of the config and of the transport is either current or
the worker is *owed* a rebuild: its permit is there, or a call that has stored has
yet to notify.  This is `WInv`, an invariant of each worker on its own, so a step
has to be looked at for the one worker it is about; every other worker is kept
(`Keeps`).

    a step keeps the invariant of every worker                (`Step.inv`)
    a settled worker runs a tunnel built from what is current (`settled_installed`)
-/
import WarpProxy.Pool.Step

namespace WarpProxy

/-- What a rebuild is about: everything under the lock but the trace. -/
def Worker.core (x : Worker) :
    WarpConfig × Option NetHandle × Option Tunnel × Option BuildId × Ipv4Addr :=
  (x.inner.config, x.inner.net, x.inner.tunnel, x.inner.dead, x.inner.assignedV4)

theorem Worker.core_config {x y : Worker} (h : x.core = y.core) :
    x.inner.config = y.inner.config :=
  congrArg (fun c => c.1) h

theorem Worker.core_dead {x y : Worker} (h : x.core = y.core) : x.inner.dead = y.inner.dead :=
  congrArg (fun c => c.2.2.2.1) h

namespace Pool

/-! ## The task that looks after a worker -/

/-- How far the task is: `built` once a build of the worker has ended well and nothing has
been cleared since. -/
inductive Stage where
  | down
  | building (b : Build)
  | built

def Sup.stage : Sup → Stage
  | .top | .waiting _ => .built
  | .building _ b => .building b
  | .clearing | .upgrading _ | .sleeping _ | .exited => .down

/-- The stage of `w` in the hands of a call. -/
def Call.stage (w : Ref) : Call → Option Stage
  | .newBuild _ v b | .addBuild _ v b _ => if v = w then some (.building b) else none
  | .newSpawn _ v | .addSpawn _ v => if v = w then some .built else none
  | _ => none

/-- The stage of `w` in the hands of its supervisor (`none`) or of the call `c`. -/
def State.stage (s : State) (w : Ref) : Option Nat → Option Stage
  | none => (s.sups w).map Sup.stage
  | some c => (s.calls c).bind (Call.stage w)

/-- The call is between its store and its notify of `w`. -/
def Call.Owes (workers : List Ref) (w : Ref) : Call → Prop
  | .reconnect true id => id = 0 ∧ w ∈ workers
  | .notifying true id todo => id = 0 ∧ w ∈ todo
  | .rotateNotify v => v = w
  | _ => False

/-- A rebuild of `w` is still to come. -/
def State.Owed (s : State) (w : Ref) : Prop :=
  (s.heap w).rebuild = true ∨
    ∃ c call, s.calls c = some call ∧ call.Owes s.pool.workers w

/-- Tunnel, netstack handle, dead signal and address are of one build, and that build used
the worker's current config and the pool's current transport. -/
def State.Installed (s : State) (w : Ref) : Prop :=
  ∃ t : Tunnel, (s.heap w).inner.tunnel = some t ∧ (s.heap w).inner.net = some t.spawnNet ∧
    (s.heap w).inner.dead = some t.build ∧ (s.heap w).inner.assignedV4 = t.assignedV4 ∧
    t.config = (s.heap w).inner.config ∧ t.transport = s.pool.transport

/-- What a stage holds of the config and the transport is current. -/
def State.Fresh (s : State) (w : Ref) : Stage → Prop
  | .building (.haveConfig config) => config = (s.heap w).inner.config
  | .building (.connecting config tr) =>
      config = (s.heap w).inner.config ∧ tr = s.pool.transport
  | .built => (s.heap w).inner.dead = none ∨ s.Installed w
  | _ => True

/-- The invariant of one worker. -/
structure WInv (s : State) (w : Ref) : Prop where
  lt : ∀ {o st}, s.stage w o = some st → w < s.nextRef
  one : ∀ {o o' st st'}, s.stage w o = some st → s.stage w o' = some st' → o = o'
  waiting : ∀ {b}, s.sups w = some (.waiting b) → (s.heap w).inner.dead = some b
  unborn : ∀ {c b}, s.stage w (some c) = some (.building b) → (s.heap w).inner.dead = none
  fresh : w ∈ s.pool.workers → ∀ {o st}, s.stage w o = some st → s.Fresh w st ∨ s.Owed w

structure Inv (s : State) : Prop where
  pooled_lt : ∀ w ∈ s.pool.workers, w < s.nextRef
  call_lt : ∀ {c call}, s.calls c = some call → c < s.nextCall
  worker : ∀ w, WInv s w

/-! ## What each update of the state shows -/

namespace State
variable (s : State) (v w : Ref) (c : Nat) (call : Call) (x : Worker)

theorem stage_setCall_self : (s.setCall c call).stage v (some c) = call.stage v := by
  simp only [stage, setCall, Function.update_self, Option.bind_some]

theorem stage_setCall_ne {c c' : Nat} (h : c' ≠ c) :
    (s.setCall c call).stage v (some c') = s.stage v (some c') := by
  simp only [stage, setCall, Function.update_of_ne h]

/-- A call goes on, with the same hold on the worker. -/
theorem stage_setCall_kept {s : State} {v : Ref} {c : Nat} {old new : Call}
    (hc : s.calls c = some old) (hstage : new.stage v = old.stage v) (o : Option Nat) :
    (s.setCall c new).stage v o = s.stage v o := by
  cases o with
  | none => rfl
  | some c' =>
      by_cases hcc : c' = c
      · subst hcc
        rw [stage_setCall_self, hstage]
        simp only [stage, hc, Option.bind_some]
      · exact stage_setCall_ne _ _ _ hcc

/-- A call lets go of the worker, which no other call has. -/
theorem stage_setCall_none {s : State} {v : Ref} {c : Nat} {new : Call}
    (hnew : new.stage v = none) (honly : ∀ c', c' ≠ c → s.stage v (some c') = none) (c' : Nat) :
    (s.setCall c new).stage v (some c') = none := by
  by_cases hcc : c' = c
  · subst hcc
    rw [stage_setCall_self, hnew]
  · rw [stage_setCall_ne _ _ _ hcc]
    exact honly c' hcc

theorem heap_setWorker_ne {v w : Ref} (h : v ≠ w) : (s.setWorker w x).heap v = s.heap v :=
  Function.update_of_ne h ..

@[simp] theorem heap_setWorker_self : (s.setWorker w x).heap w = x := Function.update_self ..

/-- A part of the worker that is written back as it was. -/
theorem heap_setWorker_part {α : Type} (f : Worker → α) {w : Ref} {x : Worker}
    (hx : f x = f (s.heap w)) : f ((s.setWorker w x).heap v) = f (s.heap v) := by
  by_cases hv : v = w
  · rw [hv, heap_setWorker_self, hx]
  · rw [heap_setWorker_ne _ _ hv]

theorem calls_setCall_self : (s.setCall c call).calls c = some call := Function.update_self ..

theorem calls_setCall_ne {c c' : Nat} (h : c' ≠ c) : (s.setCall c call).calls c' = s.calls c' :=
  Function.update_of_ne h ..

end State

theorem Call.Owes.mono {ws ws' : List Ref} {v : Ref} (hsub : v ∈ ws → v ∈ ws') :
    ∀ {call : Call}, call.Owes ws v → call.Owes ws' v
  | .reconnect true _, h => ⟨h.1, hsub h.2⟩
  | .notifying true _ _, h => h
  | .rotateNotify _, h => h

/-- `Installed` reads the core of the worker and the transport. -/
theorem State.Installed.congr {s s' : State} {v : Ref} (h : s.Installed v)
    (hcore : (s'.heap v).core = (s.heap v).core)
    (htr : s'.pool.transport = s.pool.transport) : s'.Installed v := by
  simp only [Worker.core, Prod.mk.injEq] at hcore
  obtain ⟨hconfig, hnet, htun, hdead, hv4⟩ := hcore
  obtain ⟨t, h1, h2, h3, h4, h5, h6⟩ := h
  exact ⟨t, htun.trans h1, hnet.trans h2, hdead.trans h3, hv4.trans h4, h5.trans hconfig.symm,
    h6.trans htr.symm⟩

theorem State.Fresh.congr {s s' : State} {v : Ref}
    (hcore : (s'.heap v).core = (s.heap v).core)
    (htr : s'.pool.transport = s.pool.transport) : ∀ {st : Stage}, s.Fresh v st → s'.Fresh v st
  | .down, _ => trivial
  | .building .start, _ => trivial
  | .building (.haveConfig _), h => by
      exact h.trans (Worker.core_config hcore).symm
  | .building (.connecting _ _), h => by
      exact ⟨h.1.trans (Worker.core_config hcore).symm, h.2.trans htr.symm⟩
  | .built, h => by
      rcases h with h | h
      · exact .inl ((Worker.core_dead hcore).trans h)
      · exact .inr (h.congr hcore htr)

/-- A call that moves on forgets no rebuild, except perhaps its own. -/
theorem State.Owed.setCall {s : State} {v : Ref} {c : Nat} {old new : Call} (ho : s.Owed v)
    (hc : s.calls c = some old)
    (howes : old.Owes s.pool.workers v → (s.setCall c new).Owed v) :
    (s.setCall c new).Owed v := by
  rcases ho with ho | ⟨c', call, hc', ho⟩
  · exact .inl ho
  · by_cases hcc : c' = c
    · subst hcc
      rw [hc, Option.some.injEq] at hc'
      subst hc'
      exact howes ho
    · exact .inr ⟨c', call, (s.calls_setCall_ne new hcc).trans hc', ho⟩

/-! ## Steps that keep a worker -/

/-- A step keeps what the invariant of `v` is about, and does not forget a rebuild it is owed. -/
structure Keeps (s s' : State) (v : Ref) : Prop where
  ref_le : s.nextRef ≤ s'.nextRef
  pooled : v ∈ s'.pool.workers → v ∈ s.pool.workers
  transport : s'.pool.transport = s.pool.transport
  core : (s'.heap v).core = (s.heap v).core
  sup : s'.sups v = s.sups v
  call : ∀ c, s'.stage v (some c) = s.stage v (some c)
  owed : v ∈ s'.pool.workers → s.Owed v → s'.Owed v

theorem Keeps.stage {s s' : State} {v : Ref} (h : Keeps s s' v) :
    ∀ o, s'.stage v o = s.stage v o
  | none => congrArg (Option.map Sup.stage) h.sup
  | some c => h.call c

theorem WInv.keep {s s' : State} {v : Ref} (hi : WInv s v) (h : Keeps s s' v) : WInv s' v where
  lt hst := Nat.lt_of_lt_of_le (hi.lt ((h.stage _).symm.trans hst)) h.ref_le
  one hst hst' := hi.one ((h.stage _).symm.trans hst) ((h.stage _).symm.trans hst')
  waiting hw := (Worker.core_dead h.core).trans (hi.waiting (h.sup.symm.trans hw))
  unborn hst := (Worker.core_dead h.core).trans (hi.unborn ((h.stage _).symm.trans hst))
  fresh hv _ _ hst := by
    rcases hi.fresh (h.pooled hv) ((h.stage _).symm.trans hst) with hf | ho
    · exact .inl (hf.congr h.core h.transport)
    · exact .inr (h.owed hv ho)

namespace Keeps
variable {s s' s'' : State} {v w : Ref}

theorem trans (h : Keeps s s' v) (h' : Keeps s' s'' v) : Keeps s s'' v where
  ref_le := Nat.le_trans h.ref_le h'.ref_le
  pooled hv := h.pooled (h'.pooled hv)
  transport := h'.transport.trans h.transport
  core := h'.core.trans h.core
  sup := h'.sup.trans h.sup
  call c := (h'.call c).trans (h.call c)
  owed hv ho := h'.owed hv (h.owed (h'.pooled hv) ho)

/-- A change of anything but the tasks and the workers' insides. -/
theorem of_eq (hheap : s'.heap = s.heap) (hsups : s'.sups = s.sups) (hcalls : s'.calls = s.calls)
    (href : s'.nextRef = s.nextRef) (hhttp2 : s'.pool.http2 = s.pool.http2)
    (hpooled : v ∈ s'.pool.workers → v ∈ s.pool.workers) : Keeps s s' v where
  ref_le := Nat.le_of_eq href.symm
  pooled := hpooled
  transport := by simp only [Pool.transport, hhttp2]
  core := by rw [hheap]
  sup := by rw [hsups]
  call c := by simp only [State.stage, hcalls]
  owed hv ho := by
    rcases ho with ho | ⟨c, call, hc, ho⟩
    · exact .inl (by rw [hheap]; exact ho)
    · exact .inr ⟨c, call, by rw [hcalls]; exact hc, ho.mono fun _ => hv⟩

theorem setSup (p : Sup) (hv : v ≠ w) : Keeps s (s.setSup w p) v where
  ref_le := Nat.le_refl _
  pooled := id
  transport := rfl
  core := rfl
  sup := Function.update_of_ne hv ..
  call _ := rfl
  owed _ := id

theorem spawnTrace : Keeps s (s.spawnTrace w) v := of_eq rfl rfl rfl rfl rfl id

theorem setTrace (k : Nat) (t : TraceTask) : Keeps s (s.setTrace k t) v :=
  of_eq rfl rfl rfl rfl rfl id

/-- A change to one worker keeps the others. -/
theorem setWorker_ne (x : Worker) (hv : v ≠ w) : Keeps s (s.setWorker w x) v where
  ref_le := Nat.le_refl _
  pooled := id
  transport := rfl
  core := by rw [State.heap_setWorker_ne _ _ hv]
  sup := rfl
  call _ := rfl
  owed _ ho := by
    rcases ho with ho | ho
    · exact .inl (by rw [State.heap_setWorker_ne _ _ hv]; exact ho)
    · exact .inr ho

/-- So does a change that leaves the core and does not take the permit. -/
theorem setWorker (x : Worker) (hcore : x.core = (s.heap w).core)
    (hpermit : (s.heap w).rebuild = true → x.rebuild = true) :
    Keeps s (s.setWorker w x) v := by
  by_cases hv : v = w
  · subst hv
    refine ⟨Nat.le_refl _, id, rfl, ?_, rfl, fun _ => rfl, fun _ ho => ?_⟩
    · rw [State.heap_setWorker_self]; exact hcore
    · rcases ho with ho | ho
      · exact .inl (by rw [State.heap_setWorker_self]; exact hpermit ho)
      · exact .inr ho
  · exact setWorker_ne x hv

theorem notifyIf (id : WorkerId) : Keeps s (s.notifyIf id w) v := by
  rw [State.notifyIf]
  split
  · exact setWorker _ rfl fun _ => rfl
  · exact of_eq rfl rfl rfl rfl rfl fun h => h

theorem install (config : WarpConfig) (tr : Transport) (r : Connected) (died : Bool)
    (hv : v ≠ w) : Keeps s (s.install w config tr r died) v :=
  (setWorker_ne _ hv).trans (of_eq rfl rfl rfl rfl rfl id)

/-- A call moves on: it has `v` at the same stage, and owes `v` no less. -/
theorem setCall {c : Nat} {old new : Call} (hc : s.calls c = some old)
    (hstage : new.stage v = old.stage v)
    (howes : old.Owes s.pool.workers v → (s.setCall c new).Owed v) :
    Keeps s (s.setCall c new) v where
  ref_le := Nat.le_refl _
  pooled := id
  transport := rfl
  core := rfl
  sup := rfl
  call c' := State.stage_setCall_kept hc hstage (some c')
  owed _ ho := ho.setCall hc howes

/-- The same, after an access that keeps `v`. -/
theorem andCall {c : Nat} {old new : Call} (h : Keeps s s' v) (hc : s'.calls c = some old)
    (hstage : new.stage v = old.stage v)
    (howes : old.Owes s'.pool.workers v → (s'.setCall c new).Owed v) :
    Keeps s (s'.setCall c new) v :=
  h.trans (setCall hc hstage howes)

end Keeps

/-! ## The worker a step is about -/

section
variable {s s' : State} {w : Ref}

/-- With a supervisor, no call has the worker. -/
theorem WInv.alone_sup {p : Sup} (h : WInv s w) (hp : s.sups w = some p) (c : Nat) :
    s.stage w (some c) = none := by
  have hst : s.stage w none = some p.stage := by simp only [State.stage, hp, Option.map_some]
  cases hc : s.stage w (some c) with
  | none => rfl
  | some st => cases h.one hst hc

/-- In the hands of a call, it has no supervisor and no other call has it. -/
theorem WInv.alone_call {c : Nat} {st : Stage} (h : WInv s w)
    (hc : s.stage w (some c) = some st) :
    s.sups w = none ∧ ∀ c', c' ≠ c → s.stage w (some c') = none := by
  constructor
  · cases hp : s.sups w with
    | none => rfl
    | some p => rw [h.alone_sup hp] at hc; cases hc
  · intro c' hne
    cases hc' : s.stage w (some c') with
    | none => rfl
    | some st' =>
        have heq := h.one hc' hc
        rw [Option.some.injEq] at heq
        exact absurd heq hne

theorem WInv.of_sup {p : Sup} (hp : s.sups w = some p) (hcalls : ∀ c, s.stage w (some c) = none)
    (hlt : w < s.nextRef) (hwait : ∀ b, p = .waiting b → (s.heap w).inner.dead = some b)
    (hfresh : w ∈ s.pool.workers → s.Fresh w p.stage ∨ s.Owed w) : WInv s w := by
  have hst : ∀ {o st}, s.stage w o = some st → o = none ∧ st = p.stage := by
    intro o st h
    cases o with
    | none =>
        simp only [State.stage, hp, Option.map_some, Option.some.injEq] at h
        exact ⟨rfl, h.symm⟩
    | some c => rw [hcalls c] at h; cases h
  constructor
  · intro _ _ _; exact hlt
  · intro o o' st st' h h'; rw [(hst h).1, (hst h').1]
  · intro b hb; rw [hp, Option.some.injEq] at hb; exact hwait b hb
  · intro c b h; rw [hcalls c] at h; cases h
  · intro hw o st h; rw [(hst h).2]; exact hfresh hw

theorem WInv.of_call {c : Nat} (st : Stage) (hsup : s.sups w = none)
    (hc : s.stage w (some c) = some st) (honly : ∀ c', c' ≠ c → s.stage w (some c') = none)
    (hlt : w < s.nextRef) (hunborn : ∀ b, st = .building b → (s.heap w).inner.dead = none)
    (hfresh : w ∈ s.pool.workers → s.Fresh w st ∨ s.Owed w) : WInv s w := by
  have hst : ∀ {o st'}, s.stage w o = some st' → o = some c ∧ st' = st := by
    intro o st' h
    cases o with
    | none => simp only [State.stage, hsup, Option.map_none, reduceCtorEq] at h
    | some c' =>
        by_cases hcc : c' = c
        · subst hcc
          rw [hc, Option.some.injEq] at h
          exact ⟨rfl, h.symm⟩
        · rw [honly c' hcc] at h; cases h
  constructor
  · intro _ _ _; exact hlt
  · intro o o' st st' h h'; rw [(hst h).1, (hst h').1]
  · intro b hb; rw [hsup] at hb; cases hb
  · intro c' b h; exact hunborn b (hst h).2.symm
  · intro hw o st h; rw [(hst h).2]; exact hfresh hw

/-- Nobody looks after the worker. -/
theorem WInv.of_none (hsup : s.sups w = none) (hcalls : ∀ c, s.stage w (some c) = none) :
    WInv s w := by
  have hst : ∀ o, s.stage w o = none := by
    intro o
    cases o with
    | none => simp only [State.stage, hsup, Option.map_none]
    | some c => exact hcalls c
  constructor
  · intro o st h; rw [hst o] at h; cases h
  · intro o o' st st' h _; rw [hst o] at h; cases h
  · intro b hb; rw [hsup] at hb; cases hb
  · intro c b h; rw [hst] at h; cases h
  · intro _ o st h; rw [hst o] at h; cases h

end

/-! ### `build_tunnel` -/

def Progress.stage : Progress → Stage
  | .more b => .building b
  | .ok => .built
  | .failed _ => .down

section
variable {s s₁ : State} {v w : Ref} {out : Except Error Connected} {b : Build} {p : Progress}

theorem BuildStep.keeps (h : BuildStep w out s b p s₁) (hv : v ≠ w) : Keeps s s₁ v := by
  cases h with
  | connected _ config tr died _ => exact .install config tr _ died hv
  | _ => exact .of_eq rfl rfl rfl rfl rfl id

/-- A build writes to its worker's inside; tasks and pool stay. -/
theorem BuildStep.frame (h : BuildStep w out s b p s₁) :
    s₁.sups = s.sups ∧ s₁.calls = s.calls ∧ s₁.pool = s.pool ∧ s₁.nextRef = s.nextRef ∧
      s₁.nextCall = s.nextCall := by
  cases h <;> exact ⟨rfl, rfl, rfl, rfl, rfl⟩

theorem BuildStep.owed (h : BuildStep w out s b p s₁) (ho : s.Owed w) : s₁.Owed w := by
  cases h with
  | connected _ config tr died _ =>
      rcases ho with ho | ho
      · left
        show (Function.update s.heap w _ w).rebuild = true
        rw [Function.update_self]
        exact ho
      · exact .inr ho
  | _ => exact ho

/-- What was current before a step of the build is so after it. -/
theorem BuildStep.fresh (h : BuildStep w out s b p s₁)
    (hf : s.Fresh w (.building b) ∨ s.Owed w) : s₁.Fresh w p.stage ∨ s₁.Owed w := by
  rcases hf with hf | ho
  · left
    cases h with
    | config => exact rfl
    | badKey => trivial
    | transport => exact ⟨hf, rfl⟩
    | refused => trivial
    | @connected r _ config tr died _ =>
        have hheap : (s.install w config tr r died).heap w = (s.heap w).install
            ⟨s.nextBuild, r.status, r.assignedV4, r.assignedV6, config, tr⟩ :=
          State.heap_setWorker_self ..
        exact .inr ⟨_, congrArg (·.inner.tunnel) hheap, congrArg (·.inner.net) hheap,
          congrArg (·.inner.dead) hheap, congrArg (·.inner.assignedV4) hheap,
          hf.1.trans (congrArg (·.inner.config) hheap).symm, hf.2⟩
  · exact .inr (h.owed ho)

/-- Only a build that ends well touches the dead signal. -/
theorem BuildStep.unborn (h : BuildStep w out s b p s₁) (hp : p ≠ .ok) : s₁ = s := by
  cases h with
  | connected => exact absurd rfl hp
  | _ => rfl

end

/-! ### The supervisor -/

section
variable {s s' : State} {v w : Ref}

theorem SupStep.keeps (h : SupStep w s s') (hv : v ≠ w) : Keeps s s' v := by
  cases h with
  | notified | clear | woken => exact (Keeps.setWorker_ne _ hv).trans (.setSup _ hv)
  | @build k b out p s₁ _ hb =>
      refine (hb.keeps hv).trans ?_
      cases p with
      | more b => exact .setSup _ hv
      | ok => exact (Keeps.setSup _ hv).trans .spawnTrace
      | failed e => exact .setSup _ hv
  | _ => exact .setSup _ hv

theorem SupStep.winv (h : SupStep w s s') (hi : WInv s w) : WInv s' w := by
  -- every step of the supervisor leaves it at some `p`, alone with the worker
  have done : ∀ {t : State} {p q : Sup}, s.sups w = some q → t.sups w = some p →
      (∀ c, t.stage w (some c) = s.stage w (some c)) → t.nextRef = s.nextRef →
      (∀ b, p = .waiting b → (t.heap w).inner.dead = some b) →
      (w ∈ t.pool.workers → t.Fresh w p.stage ∨ t.Owed w) → WInv t w := by
    intro t p q hq hp hcalls href hwait hfresh
    refine .of_sup hp (fun c => (hcalls c).trans (hi.alone_sup hq c)) ?_ hwait hfresh
    rw [href]
    have hst : s.stage w none = some q.stage := by simp only [State.stage, hq, Option.map_some]
    exact hi.lt hst
  have hself : ∀ (t : State) (p : Sup), (t.setSup w p).sups w = some p :=
    fun t p => Function.update_self ..
  cases h with
  | up hq hdead =>
      refine done hq (hself ..) (fun _ => rfl) rfl ?_ ?_
      · rintro _ ⟨⟩; exact hdead
      · intro hw
        exact hi.fresh hw (o := none) (by simp only [State.stage, hq, Option.map_some]; rfl)
  | down hq _ | dead hq _ | notified hq _ | clear hq | upgrade hq _ | exit hq _ | slept hq
  | woken hq _ =>
      exact done hq (hself ..) (fun _ => rfl) rfl (fun _ h => nomatch h)
        (fun _ => .inl trivial)
  | @build k b out p s₁ hq hb =>
      obtain ⟨hsups, hcalls, hpool, href, _⟩ := hb.frame
      have hf : w ∈ s.pool.workers → s₁.Fresh w p.stage ∨ s₁.Owed w := fun hw =>
        hb.fresh (hi.fresh hw (o := none) (by simp only [State.stage, hq, Option.map_some]; rfl))
      have hstage : ∀ c, s₁.stage w (some c) = s.stage w (some c) := by
        intro c; simp only [State.stage, hcalls]
      cases p with
      | more b' =>
          refine done hq (hself ..) hstage href (fun _ h => nomatch h) ?_
          rw [← hpool] at hf; exact hf
      | ok =>
          refine done hq (hself ..) hstage href (fun _ h => nomatch h) ?_
          rw [← hpool] at hf; exact hf
      | failed e =>
          exact done hq (hself ..) hstage href (fun _ h => nomatch h) (fun _ => .inl trivial)

end

/-! ### Control operations -/

section
variable {s s' : State} {c : Nat} {call : Call}

/-- The call that made the worker has it at a new stage, having changed at most its inside. -/
theorem WInv.advance {t : State} {w : Ref} {old new : Call} {st st' : Stage} (hi : WInv s w)
    (hc : s.calls c = some old) (hold : old.stage w = some st) (hnew : new.stage w = some st')
    (hsups : t.sups = s.sups) (hcalls : t.calls = s.calls) (href : t.nextRef = s.nextRef)
    (hunborn : ∀ b, st' = .building b → (t.heap w).inner.dead = none)
    (hfresh : w ∈ t.pool.workers → t.Fresh w st' ∨ (t.setCall c new).Owed w) :
    WInv (t.setCall c new) w := by
  have hst : s.stage w (some c) = some st := by
    simp only [State.stage, hc, Option.bind_some, hold]
  obtain ⟨hsup, honly⟩ := hi.alone_call hst
  refine .of_call (c := c) st' ?_ ?_ ?_ ?_ hunborn hfresh
  · exact (congrFun hsups w).trans hsup
  · rw [State.stage_setCall_self, hnew]
  · intro c' hcc
    rw [State.stage_setCall_ne _ _ _ hcc]
    simp only [State.stage, hcalls]
    exact honly c' hcc
  · show w < t.nextRef
    rw [href]
    exact hi.lt hst

/-- The call takes a step of the build; `Pool::new` goes on as after a success when it fails. -/
theorem WInv.buildStep {w : Ref} {b : Build} {out : Except Error Connected} {p : Progress}
    {s₁ : State} {old new : Call} {st : Stage} (hi : WInv s w) (hb : BuildStep w out s b p s₁)
    (hc : s.calls c = some old) (hold : old.stage w = some (.building b))
    (hnew : new.stage w = some st) (howes : ∀ ws, ¬ old.Owes ws w)
    (hst : st = p.stage ∨ (p ≠ .ok ∧ st = .built)) : WInv (s₁.setCall c new) w := by
  obtain ⟨hsups, hcalls, hpool, href, -⟩ := hb.frame
  have hstage : s.stage w (some c) = some (.building b) := by
    simp only [State.stage, hc, Option.bind_some, hold]
  refine hi.advance hc hold hnew hsups hcalls href ?_ ?_
  · rintro b' rfl
    rcases hst with hst | ⟨-, hst⟩
    · have hp : p ≠ .ok := by rintro rfl; cases hst
      rw [hb.unborn hp]
      exact hi.unborn hstage
    · cases hst
  · intro hw
    rcases hst with rfl | ⟨hp, rfl⟩
    · rw [hpool] at hw
      rcases hb.fresh (hi.fresh hw hstage) with hf | ho
      · exact .inl hf
      · exact .inr (ho.setCall ((congrFun hcalls c).trans hc) fun h => absurd h (howes _))
    · refine .inl (.inl ?_)
      rw [hb.unborn hp]
      exact hi.unborn hstage

/-- `add_account` gives up on a worker whose build fails. -/
theorem WInv.abandon {w : Ref} {b : Build} {out : Except Error Connected} {p : Progress}
    {s₁ : State} {old new : Call} (hi : WInv s w) (hb : BuildStep w out s b p s₁)
    (hc : s.calls c = some old) (hold : old.stage w = some (.building b))
    (hnew : new.stage w = none) : WInv (s₁.setCall c new) w := by
  obtain ⟨hsups, hcalls, -, -, -⟩ := hb.frame
  have hstage : s.stage w (some c) = some (.building b) := by
    simp only [State.stage, hc, Option.bind_some, hold]
  obtain ⟨hsup, honly⟩ := hi.alone_call hstage
  refine .of_none ((congrFun hsups w).trans hsup) (State.stage_setCall_none hnew fun c' hcc => ?_)
  simp only [State.stage, hcalls]
  exact honly c' hcc

/-- The call hands the worker to a supervisor. -/
theorem WInv.handover {w : Ref} {old new : Call} (hi : WInv s w) (hc : s.calls c = some old)
    (hold : old.stage w = some .built) (hnew : new.stage w = none)
    (howes : ¬ old.Owes s.pool.workers w) : WInv ((s.setSup w .top).setCall c new) w := by
  have hst : s.stage w (some c) = some .built := by
    simp only [State.stage, hc, Option.bind_some, hold]
  obtain ⟨-, honly⟩ := hi.alone_call hst
  refine .of_sup (p := .top) (Function.update_self ..) (State.stage_setCall_none hnew honly)
    (hi.lt hst) (fun _ h => nomatch h) fun hw => ?_
  rcases hi.fresh hw hst with hf | ho
  · exact .inl hf
  · exact .inr (State.Owed.setCall (s := s.setSup w .top) ho hc fun h => absurd h howes)

/-- A worker just made and pushed is in the hands of the call that made it. -/
theorem WInv.pushed {new : Call} (hi : Inv s) (id : WorkerId) (config : WarpConfig)
    (hnew : new.stage s.nextRef = some (.building .start)) :
    WInv ((s.push id config).setCall c new) s.nextRef := by
  have hnone : ∀ o, s.stage s.nextRef o = none := by
    intro o
    cases hst : s.stage s.nextRef o with
    | none => rfl
    | some st => exact absurd ((hi.worker _).lt hst) (Nat.lt_irrefl _)
  have hsup : s.sups s.nextRef = none := by
    have hn := hnone none
    simp only [State.stage, Option.map_eq_none_iff] at hn
    exact hn
  refine .of_call (c := c) (.building .start) hsup ?_ ?_ (Nat.lt_succ_self _) ?_
    (fun _ => .inl trivial)
  · rw [State.stage_setCall_self, hnew]
  · intro c' hcc
    rw [State.stage_setCall_ne _ _ _ hcc]
    exact hnone (some c')
  · intro b _
    have hheap : (s.push id config).heap s.nextRef = .new id config :=
      State.heap_setWorker_self ..
    exact congrArg (·.inner.dead) hheap

theorem Keeps.push {v : Ref} (id : WorkerId) (config : WarpConfig) (hv : v ≠ s.nextRef) :
    Keeps s (s.push id config) v := by
  have hkeep := Keeps.setWorker_ne (s := s) (.new id config) hv
  refine { hkeep with ref_le := Nat.le_succ _, pooled := ?_, owed := ?_ }
  · intro hmem
    rcases List.mem_append.mp hmem with h | h
    · exact h
    · exact absurd (List.mem_singleton.mp h) hv
  · intro _ ho
    rcases ho with ho | ⟨c, call, hc, ho⟩
    · refine .inl ?_
      rw [State.push]
      show ((s.setWorker s.nextRef _).heap v).rebuild = true
      rw [State.heap_setWorker_ne _ _ hv]
      exact ho
    · exact .inr ⟨c, call, hc, ho.mono (List.mem_append_left _)⟩

/-- `set_http2` has stored: it owes every pooled worker. -/
theorem WInv.setHttp2 {on : Bool} (hi : Inv s) (hc : s.calls c = some (.setHttp2 on)) (v : Ref) :
    WInv ({ s with pool := { s.pool with http2 := on } }.setCall c (.reconnect true 0)) v := by
  have hstage : ∀ o, ({ s with pool := { s.pool with http2 := on } }.setCall c
      (.reconnect true 0)).stage v o = s.stage v o :=
    State.stage_setCall_kept (s := { s with pool := { s.pool with http2 := on } }) hc rfl
  have hv := hi.worker v
  refine ⟨?_, ?_, hv.waiting, ?_, ?_⟩
  · intro o st h; exact hv.lt ((hstage o).symm.trans h)
  · intro o o' st st' h h'
    exact hv.one ((hstage o).symm.trans h) ((hstage o').symm.trans h')
  · intro c' b h; exact hv.unborn ((hstage (some c')).symm.trans h)
  · intro hpool _ _ _
    exact .inr (.inr ⟨c, _, State.calls_setCall_self .., rfl, hpool⟩)

/-- `rotate` has stored: it owes the worker. -/
theorem WInv.rotateStore {w : Ref} {fresh : WarpConfig} (hi : WInv s w)
    (hc : s.calls c = some (.rotateStore w fresh)) :
    WInv ((s.setWorker w ((s.heap w).setConfig fresh)).setCall c (.rotateNotify w)) w := by
  have hstage : ∀ o, ((s.setWorker w ((s.heap w).setConfig fresh)).setCall c
      (.rotateNotify w)).stage w o = s.stage w o :=
    State.stage_setCall_kept (s := s.setWorker w ((s.heap w).setConfig fresh)) hc rfl
  have hheap : ((s.setWorker w ((s.heap w).setConfig fresh)).setCall c
      (.rotateNotify w)).heap w = (s.heap w).setConfig fresh := State.heap_setWorker_self ..
  refine ⟨?_, ?_, ?_, ?_, ?_⟩
  · intro o st h; exact hi.lt ((hstage o).symm.trans h)
  · intro o o' st st' h h'
    exact hi.one ((hstage o).symm.trans h) ((hstage o').symm.trans h')
  · intro b hb; rw [hheap]; exact hi.waiting hb
  · intro c' b h; rw [hheap]; exact hi.unborn ((hstage (some c')).symm.trans h)
  · intro _ _ _ _
    exact .inr (.inr ⟨c, _, State.calls_setCall_self .., rfl⟩)

theorem CallStep.winv (h : CallStep c s call s') (hc : s.calls c = some call) (hi : Inv s)
    (v : Ref) : WInv s' v := by
  have hv := hi.worker v
  cases h with
  | @newNext config configs _ =>
      by_cases hw : v = s.nextRef
      · subst hw
        have hpush : WInv ((s.push s.pool.nextId config).setCall c
            (.newBuild configs s.nextRef .start)) s.nextRef := .pushed hi _ _ (if_pos rfl)
        exact hpush.keep (.of_eq rfl rfl rfl rfl rfl id)
      · have hpush := Keeps.push s.pool.nextId config hw
        refine hv.keep (.andCall (hpush.trans ?_) hc (if_neg (Ne.symm hw)) False.elim)
        exact .of_eq rfl rfl rfl rfl rfl id
  | newDone | select | setEnabled | setRotateInterval | add | removeKeep | removeUnpin =>
      exact hv.keep (.andCall (.of_eq rfl rfl rfl rfl rfl id) hc rfl False.elim)
  | rotate | rotateNone | rotatePick | rotateFailed | rotateRegister | addFailed | addRegister
  | removeLast | removePinned | refreshTrace | refreshSkip | refresh | refreshDone =>
      exact hv.keep (.setCall hc rfl False.elim)
  | @newBuild configs w b out p s₁ hb =>
      have hcalls := (congrFun hb.frame.2.1 c).trans hc
      by_cases hw : v = w
      · subst hw
        cases p with
        | more b' => exact hv.buildStep hb hc (if_pos rfl) (if_pos rfl) (fun _ => id) (.inl rfl)
        | ok => exact hv.buildStep hb hc (if_pos rfl) (if_pos rfl) (fun _ => id) (.inl rfl)
        | failed e =>
            refine hv.buildStep hb hc (if_pos rfl) (if_pos rfl) (fun _ => id) (.inr ⟨?_, rfl⟩)
            intro h; cases h
      · have hold : (Call.newBuild configs w b).stage v = none := if_neg (Ne.symm hw)
        cases p with
        | _ =>
            refine hv.keep (.andCall (hb.keeps hw) hcalls (Eq.trans ?_ hold.symm) False.elim)
            exact if_neg (Ne.symm hw)
  | @newSpawn configs w =>
      by_cases hw : v = w
      · subst hw
        exact hv.handover hc (if_pos rfl) rfl id
      · exact hv.keep (.andCall (.setSup _ hw) hc (if_neg (Ne.symm hw)).symm False.elim)
  | setHttp2 => exact .setHttp2 hi hc v
  | @reconnect stored id _ =>
      refine hv.keep (.setCall hc rfl fun ho => .inr ⟨c, _, State.calls_setCall_self .., ?_⟩)
      cases stored with
      | true => exact ho
      | false => exact ho
  | @notify stored id w todo =>
      have hcalls : (s.notifyIf id w).calls c = some (.notifying stored id (w :: todo)) := by
        rw [State.notifyIf]; split <;> exact hc
      refine hv.keep (.andCall (.notifyIf id) hcalls rfl fun ho => ?_)
      cases stored with
      | false => exact ho.elim
      | true =>
          obtain ⟨rfl, hmem⟩ := ho
          rcases List.mem_cons.mp hmem with rfl | hmem
          · left
            rw [State.notifyIf, if_pos (.inl rfl)]
            exact congrArg Worker.rebuild (State.heap_setWorker_self ..)
          · exact .inr ⟨c, _, State.calls_setCall_self .., rfl, hmem⟩
  | @notified stored id =>
      refine hv.keep (.setCall hc rfl fun ho => ?_)
      cases stored with
      | false => exact ho.elim
      | true => exact absurd ho.2 List.not_mem_nil
  | @rotateStore w fresh =>
      by_cases hw : v = w
      · subst hw; exact hv.rotateStore hc
      · exact hv.keep (.andCall (.setWorker_ne _ hw) hc rfl False.elim)
  | @rotateNotify w =>
      refine hv.keep (.andCall (.setWorker _ rfl fun _ => rfl) hc rfl fun ho => .inl ?_)
      cases ho
      exact congrArg Worker.rebuild (State.heap_setWorker_self ..)
  | @addPush id config connected _ =>
      by_cases hw : v = s.nextRef
      · subst hw
        exact .pushed hi id config (if_pos rfl)
      · exact hv.keep (.andCall (.push id config hw) hc (if_neg (Ne.symm hw)) False.elim)
  | @addBuild id w b connected p s₁ hb =>
      have hcalls := (congrFun hb.frame.2.1 c).trans hc
      by_cases hw : v = w
      · subst hw
        cases p with
        | more b' => exact hv.buildStep hb hc (if_pos rfl) (if_pos rfl) (fun _ h => h) (.inl rfl)
        | ok => exact hv.buildStep hb hc (if_pos rfl) (if_pos rfl) (fun _ h => h) (.inl rfl)
        | failed e => exact hv.abandon hb hc (if_pos rfl) rfl
      · have hold : (Call.addBuild id w b connected).stage v = none := if_neg (Ne.symm hw)
        cases p with
        | failed e => exact hv.keep (.andCall (hb.keeps hw) hcalls hold.symm False.elim)
        | _ =>
            refine hv.keep (.andCall (hb.keeps hw) hcalls (Eq.trans ?_ hold.symm) False.elim)
            exact if_neg (Ne.symm hw)
  | @addSpawn id w =>
      by_cases hw : v = w
      · subst hw
        have hspawn : WInv ((s.setSup v .top).setCall c (.done (.ok (some id)))) v :=
          hv.handover hc (if_pos rfl) rfl fun h => h
        exact hspawn.keep .spawnTrace
      · have hold : (Call.addSpawn id w).stage v = none := if_neg (Ne.symm hw)
        exact hv.keep (.andCall ((Keeps.setSup _ hw).trans .spawnTrace) hc hold.symm False.elim)
  | @removeNone id _ _ _ | @remove id _ _ _ =>
      refine hv.keep (.andCall (.of_eq rfl rfl rfl rfl rfl ?_) hc rfl False.elim)
      exact fun h => (List.mem_filter.mp h).1
  | refreshed info =>
      exact hv.keep (.andCall (.setWorker _ rfl fun h => h) hc rfl False.elim)

end

/-! ## Every step -/

section
variable {s s' : State} {l : Label}

/-- What a step does to the counters and to the list, without a look at the workers. -/
theorem CallStep.bounds {c : Nat} {call : Call} (h : CallStep c s call s') (hi : Inv s)
    (hc : s.calls c = some call) :
    (∀ w ∈ s'.pool.workers, w < s'.nextRef) ∧
      ∀ {c' call'}, s'.calls c' = some call' → c' < s'.nextCall := by
  have hcall : ∀ (t : State) (new : Call), t.calls = s.calls → t.nextCall = s.nextCall →
      ∀ {c' call'}, (t.setCall c new).calls c' = some call' → c' < t.nextCall := by
    intro t new hcalls hnext c' call' h'
    rw [hnext]
    by_cases hcc : c' = c
    · subst hcc; exact hi.call_lt hc
    · rw [State.calls_setCall_ne _ _ hcc, hcalls] at h'
      exact hi.call_lt h'
  have hpush : ∀ w ∈ s.pool.workers ++ [s.nextRef], w < s.nextRef + 1 := by
    intro w hw
    rcases List.mem_append.mp hw with hw | hw
    · exact Nat.lt_succ_of_lt (hi.pooled_lt w hw)
    · rw [List.mem_singleton.mp hw]; exact Nat.lt_succ_self _
  cases h with
  | newNext _ | addPush _ => exact ⟨hpush, hcall _ _ rfl rfl⟩
  | removeNone _ _ _ | remove _ _ _ =>
      exact ⟨fun w hw => hi.pooled_lt w (List.mem_filter.mp hw).1, hcall _ _ rfl rfl⟩
  | @notify _ id w _ =>
      rw [State.notifyIf]
      split <;> exact ⟨hi.pooled_lt, hcall _ _ rfl rfl⟩
  | @newBuild _ _ _ _ p _ hb | @addBuild _ _ _ _ p _ hb =>
      obtain ⟨-, hcalls, hpool, href, hnext⟩ := hb.frame
      have hlt := hi.pooled_lt
      rw [← hpool, ← href] at hlt
      cases p <;> exact ⟨hlt, hcall _ _ hcalls hnext⟩
  | _ => exact ⟨hi.pooled_lt, hcall _ _ rfl rfl⟩

theorem SupStep.frame {w : Ref} (h : SupStep w s s') :
    s'.pool = s.pool ∧ s'.calls = s.calls ∧ s'.nextRef = s.nextRef ∧
      s'.nextCall = s.nextCall := by
  cases h with
  | @build _ _ _ p _ _ hb =>
      obtain ⟨-, hcalls, hpool, href, hnext⟩ := hb.frame
      cases p <;> exact ⟨hpool, hcalls, href, hnext⟩
  | _ => exact ⟨rfl, rfl, rfl, rfl⟩

theorem TraceStep.keeps {k : Nat} {task : TraceTask} (h : TraceStep k s task s') (v : Ref) :
    Keeps s s' v := by
  cases h with
  | @store w net info =>
      have hset := Keeps.setWorker (s := s) (v := v) (w := w)
        ((s.heap w).setTrace info net.build) rfl fun h => h
      exact hset.trans (.setTrace _ _)
  | _ => exact .setTrace _ _

theorem TraceStep.frame {k : Nat} {task : TraceTask} (h : TraceStep k s task s') :
    s'.pool = s.pool ∧ s'.calls = s.calls ∧ s'.nextRef = s.nextRef ∧
      s'.nextCall = s.nextCall ∧ s'.sups = s.sups := by
  cases h <;> exact ⟨rfl, rfl, rfl, rfl, rfl⟩

/-- A call goes on under its number, and no number is given out. -/
theorem CallStep.nextCall {c : Nat} {call : Call} (h : CallStep c s call s') :
    s'.nextCall = s.nextCall := by
  cases h with
  | @notify _ id w _ =>
      rw [State.notifyIf]
      split <;> rfl
  | @newBuild _ _ _ _ p _ hb | @addBuild _ _ _ _ p _ hb =>
      obtain ⟨-, -, -, -, hnext⟩ := hb.frame
      cases p <;> exact hnext
  | _ => rfl

theorem Step.nextCall_le (h : Step s l s') : s.nextCall ≤ s'.nextCall := by
  cases h with
  | sup hsup => exact Nat.le_of_eq hsup.frame.2.2.2.symm
  | start => exact Nat.le_succ _
  | call _ hcall => exact Nat.le_of_eq hcall.nextCall.symm
  | trace _ htrace => exact Nat.le_of_eq htrace.frame.2.2.2.1.symm
  | die | cloneHandle | dropHandle => exact Nat.le_refl _

/-- A call that begins has no worker and owes nothing. -/
theorem Keeps.start (hi : Inv s) (op : Op) (v : Ref) :
    Keeps s { s.setCall s.nextCall op.begin with nextCall := s.nextCall + 1 } v := by
  have hnone : s.calls s.nextCall = none := by
    cases hc : s.calls s.nextCall with
    | none => rfl
    | some call => exact absurd (hi.call_lt hc) (Nat.lt_irrefl _)
  refine ⟨Nat.le_refl _, fun h => h, rfl, rfl, rfl, fun c => ?_, fun _ ho => ?_⟩
  · by_cases hc : c = s.nextCall
    · subst hc
      show (s.setCall s.nextCall op.begin).stage v (some s.nextCall) = _
      rw [State.stage_setCall_self]
      simp only [State.stage, hnone, Option.bind_none]
      cases op <;> rfl
    · exact State.stage_setCall_ne _ _ _ hc
  · rcases ho with ho | ⟨c, call, hc, ho⟩
    · exact .inl ho
    · refine .inr ⟨c, call, (State.calls_setCall_ne _ _ ?_).trans hc, ho⟩
      rintro rfl
      rw [hnone] at hc
      cases hc

/-! ## Who looks after a worker -/

/-- The supervisor of `v` and what the calls have of it stay. -/
structure SameHands (s s' : State) (v : Ref) : Prop where
  sup : s'.sups v = s.sups v
  call : ∀ c, s'.stage v (some c) = s.stage v (some c)

theorem Keeps.hands {v : Ref} (h : Keeps s s' v) : SameHands s s' v := ⟨h.sup, h.call⟩

/-- A call that has not got the worker moves on without it. -/
theorem SameHands.move {v : Ref} {c : Nat} {call call' : Call} (hc : s.calls c = some call)
    (hnone : call.stage v = none) (hsups : s'.sups v = s.sups v)
    (hcalls : s'.calls = Function.update s.calls c (some call'))
    (hnone' : call'.stage v = none) : SameHands s s' v where
  sup := hsups
  call c' := by
    rw [State.stage, State.stage, hcalls]
    by_cases hcc : c' = c
    · rw [hcc, Function.update_self, hc, Option.bind_some, Option.bind_some, hnone, hnone']
    · rw [Function.update_of_ne hcc]

theorem CallStep.hands {v : Ref} {c : Nat} {call : Call} (h : CallStep c s call s')
    (hc : s.calls c = some call) (hv : v ≠ s.nextRef) (hnone : call.stage v = none) :
    SameHands s s' v := by
  have hmove : ∀ {call' : Call}, s'.sups v = s.sups v →
      s'.calls = Function.update s.calls c (some call') → call'.stage v = none →
      SameHands s s' v := fun hsups hcalls hnone' => .move hc hnone hsups hcalls hnone'
  cases h with
  | newNext | addPush => exact hmove rfl rfl (if_neg hv.symm)
  | @newBuild configs w b out p s₁ hb | @addBuild id w b connected p s₁ hb =>
      have hw : w ≠ v := by
        rintro rfl
        simp [Call.stage] at hnone
      obtain ⟨hsups, hcalls, -, -, -⟩ := hb.frame
      cases p
      all_goals
        refine hmove (congrFun hsups v) (congrArg (Function.update · c _) hcalls) ?_
        first | exact if_neg hw | rfl
  | @newSpawn configs w | @addSpawn id w =>
      have hw : w ≠ v := by
        rintro rfl
        simp [Call.stage] at hnone
      exact hmove (Function.update_of_ne hw.symm ..) rfl rfl
  | @notify stored id w todo =>
      have hsups : (s.notifyIf id w).sups = s.sups := by
        rw [State.notifyIf]
        split <;> rfl
      have hcalls : (s.notifyIf id w).calls = s.calls := by
        rw [State.notifyIf]
        split <;> rfl
      exact hmove (congrFun hsups v) (congrArg (Function.update · c _) hcalls) rfl
  | _ => exact hmove rfl rfl rfl

/-- **One step** leaves who looks after a worker, or is its supervisor's or that of the call
that has it. -/
theorem Step.hands {v : Ref} (h : Step s l s') (hi : Inv s) (hv : v < s.nextRef) :
    SameHands s s' v ∨ l = .sup v ∨
      ∃ c call st, l = .call c ∧ s.calls c = some call ∧ call.stage v = some st := by
  cases h with
  | @sup w _ hs =>
      by_cases hw : v = w
      · exact .inr (.inl (hw ▸ rfl))
      · exact .inl (hs.keeps hw).hands
  | start op _ _ => exact .inl (Keeps.start hi op v).hands
  | @call c call _ hc hs =>
      cases hst : call.stage v with
      | none => exact .inl (hs.hands hc (Nat.ne_of_lt hv) hst)
      | some st => exact .inr (.inr ⟨c, call, st, rfl, hc, hst⟩)
  | trace _ hs => exact .inl (hs.keeps v).hands
  | die | cloneHandle | dropHandle => exact .inl ⟨rfl, fun _ => rfl⟩

theorem Step.inv (h : Step s l s') (hi : Inv s) : Inv s' := by
  cases h with
  | @sup w _ hs =>
      obtain ⟨hpool, hcalls, href, hnext⟩ := hs.frame
      refine ⟨?_, ?_, fun v => ?_⟩
      · rw [hpool, href]; exact hi.pooled_lt
      · rw [hcalls, hnext]; exact hi.call_lt
      · by_cases hv : v = w
        · subst hv; exact hs.winv (hi.worker v)
        · exact (hi.worker v).keep (hs.keeps hv)
  | start op _ _ =>
      refine ⟨hi.pooled_lt, fun {c call} hc => ?_, fun v => (hi.worker v).keep (.start hi op v)⟩
      by_cases hcc : c = s.nextCall
      · rw [hcc]; exact Nat.lt_succ_self _
      · rw [show _ = s.calls c from State.calls_setCall_ne s op.begin hcc] at hc
        exact Nat.lt_succ_of_lt (hi.call_lt hc)
  | call hc hs => exact ⟨(hs.bounds hi hc).1, (hs.bounds hi hc).2, hs.winv hc hi⟩
  | trace _ hs =>
      obtain ⟨hpool, hcalls, href, hnext, -⟩ := hs.frame
      refine ⟨?_, ?_, fun v => (hi.worker v).keep (hs.keeps v)⟩
      · rw [hpool, href]; exact hi.pooled_lt
      · rw [hcalls, hnext]; exact hi.call_lt
  | die _ | cloneHandle _ | dropHandle _ _ =>
      exact ⟨hi.pooled_lt, hi.call_lt, fun v => (hi.worker v).keep
        (.of_eq rfl rfl rfl rfl rfl fun h => h)⟩

end

theorem Init.inv {s : State} (h : Init s) : Inv s := by
  obtain ⟨configs, http2, blank, rfl⟩ := h
  have hcalls : ∀ c, c ≠ 0 → (State.init configs http2 blank).calls c = none := by
    intro c hcc
    simp only [State.init, Function.update_of_ne hcc]
  refine ⟨fun w hw => absurd hw List.not_mem_nil, fun {c call} hc => ?_, fun w => ?_⟩
  · by_cases hcc : c = 0
    · subst hcc; exact Nat.one_pos
    · rw [hcalls c hcc] at hc; cases hc
  · refine .of_none rfl fun c => ?_
    by_cases hcc : c = 0
    · subst hcc; rfl
    · rw [State.stage, hcalls c hcc]; rfl

theorem Reachable.inv {s : State} (h : Reachable s) : Inv s :=
  Transition.Reachable.invariant Inv h (fun _ => Init.inv) fun _ _ _ hi hs => hs.inv hi

/-! ## Settled workers -/

/-- The worker is pooled and supervised, its supervisor waits in the first select with the
watch still false, and no rebuild is owed. -/
structure State.Settled (s : State) (w : Ref) : Prop where
  pooled : w ∈ s.pool.workers
  waiting : ∃ b, s.sups w = some (.waiting b) ∧ s.deadWatch b = false
  permit : (s.heap w).rebuild = false
  notified : ∀ c call, s.calls c = some call → ¬ call.Owes s.pool.workers w

/-- **No rebuild request is lost**: what a settled worker runs on comes from one build, and
that build used the current config and transport. -/
theorem settled_installed {s : State} (h : Reachable s) {w : Ref} (hw : s.Settled w) :
    s.Installed w := by
  obtain ⟨b, hwait, -⟩ := hw.waiting
  have hi := h.inv.worker w
  have hst : s.stage w none = some .built := by
    simp only [State.stage, hwait, Option.map_some]
    rfl
  rcases hi.fresh hw.pooled hst with (hdead | hinst) | howed
  · rw [hi.waiting hwait] at hdead; cases hdead
  · exact hinst
  · rcases howed with hpermit | ⟨c, call, hc, howes⟩
    · rw [hw.permit] at hpermit; cases hpermit
    · exact absurd howes (hw.notified c call hc)

/-- `Pool::new` has connected the first account over HTTP/3; `set_http2` asks for a rebuild, which
its supervisor makes. -/
theorem settled_installed_first :
    ∃ s : State, Reachable s ∧ s.pool.http2 = true ∧ s.Settled 0 ∧ s.Installed 0 := by
  let out : Except Error Connected := .ok ⟨200, 1, none⟩
  obtain ⟨s, h, hready, hh, hl, hworkers, hsup, hcalls⟩ : ∃ s, Reachable s ∧ s.ready = true
      ∧ 0 < s.handles ∧ s.locked = false ∧ s.pool.workers = [0] ∧ s.sups 0 = some (.waiting 0)
      ∧ ∀ c call, s.calls c = some call → ∃ r, call = .done r := by
    have h₀ : Reachable (.init [.blank] false (.new 0 .blank)) := .init ⟨_, _, _, rfl⟩
    have h₁ := h₀.tail (.call (c := 0) rfl (.newNext rfl))
    have h₂ := h₁.tail
      (.call (c := 0) rfl (.newBuild (show BuildStep 0 out _ _ _ _ from .config _)))
    have h₃ := h₂.tail
      (.call (c := 0) rfl (.newBuild (show BuildStep 0 out _ _ _ _ from .transport _ _)))
    have h₄ := h₃.tail (.call (c := 0) rfl
      (.newBuild (show BuildStep 0 out _ _ _ _ from .connected _ _ _ false rfl)))
    have h₅ := h₄.tail (.call (c := 0) rfl .newSpawn)
    have h₆ := h₅.tail (.sup (w := 0) (.up (b := 0) rfl rfl))
    have h₇ := h₆.tail (.call (c := 0) rfl .newDone)
    refine ⟨_, h₇, rfl, Nat.one_pos, rfl, rfl, rfl, fun c call hc => ?_⟩
    obtain rfl : c = 0 := Nat.lt_one_iff.mp ((Reachable.inv h₇).call_lt hc)
    exact ⟨_, (Option.some.inj hc).symm⟩
  -- the request
  obtain ⟨s, h, hhttp2, hh, hworkers, hsup, hpermit, hcalls⟩ : ∃ t, Reachable t
      ∧ t.pool.http2 = true ∧ 0 < t.handles ∧ t.pool.workers = [0]
      ∧ t.sups 0 = some (.waiting 0) ∧ (t.heap 0).rebuild = true
      ∧ ∀ c call, t.calls c = some call → ∃ r, call = .done r := by
    have hself : ∀ (u : State) (call : Call),
        (u.setCall s.nextCall call).calls s.nextCall = some call :=
      fun u call => State.calls_setCall_self ..
    have h₁ := h.tail (.start (.setHttp2 true) hready hh)
    have h₂ := h₁.tail (.call (hself s _) .setHttp2)
    have h₃ := h₂.tail (.call (hself _ _) (.reconnect hl))
    have hsnap : some (Call.notifying true 0 s.pool.workers) = some (.notifying true 0 [0]) :=
      congrArg (fun ws => some (Call.notifying true 0 ws)) hworkers
    have h₄ := h₃.tail (.call ((hself _ _).trans hsnap) .notify)
    have h₅ := h₄.tail (.call (hself _ _) .notified)
    refine ⟨_, h₅, rfl, hh, hworkers, hsup, rfl, fun c call hc => ?_⟩
    by_cases hcc : c = s.nextCall
    · subst hcc
      rw [hself, Option.some.injEq] at hc
      exact ⟨_, hc.symm⟩
    · have hnotify : ∀ u : State, (u.notifyIf 0 0).calls = u.calls := fun u => rfl
      simp only [State.calls_setCall_ne _ _ hcc, hnotify] at hc
      exact hcalls c call hc
  -- the rebuild
  have h₁ := h.tail (.sup (.notified hsup hpermit))
  have h₂ := h₁.tail (.sup (w := 0) (.clear rfl))
  have h₃ := h₂.tail (.sup (w := 0) (.upgrade (k := 1) rfl (.inl hh)))
  have h₄ := h₃.tail (.sup (w := 0)
    (.build (k := 1) rfl (show BuildStep 0 out _ _ _ _ from .config _)))
  have h₅ := h₄.tail (.sup (w := 0)
    (.build (k := 1) rfl (show BuildStep 0 out _ _ _ _ from .transport _ _)))
  have h₆ := h₅.tail (.sup (w := 0)
    (.build (k := 1) rfl (show BuildStep 0 out _ _ _ _ from .connected _ _ _ false rfl)))
  have h₇ := h₆.tail (.sup (w := 0) (.up (b := s.nextBuild) rfl rfl))
  have hsettled : ∀ {s : State}, Reachable s → s.pool.http2 = true → s.Settled 0 →
      ∃ s : State, Reachable s ∧ s.pool.http2 = true ∧ s.Settled 0 ∧ s.Installed 0 :=
    fun h hhttp2 hw => ⟨_, h, hhttp2, hw, settled_installed h hw⟩
  refine hsettled h₇ hhttp2 ⟨hworkers ▸ List.mem_singleton_self 0,
    ⟨s.nextBuild, rfl, Function.update_self ..⟩, rfl, fun c call hc => ?_⟩
  obtain ⟨r, rfl⟩ := hcalls c call hc
  exact id

end Pool

end WarpProxy
