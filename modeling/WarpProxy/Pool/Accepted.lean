/-
# `WarpProxy.Pool.Accepted` — the answer to CONNECT

A tunnel carries the status its CONNECT was answered with; `Finishes` names the steps
that install one, whoever runs the build, with the answer.  What a step does to the
netstack, the tunnel and the dead signal of a worker is `Step.link`.

`build_tunnel` installs every tunnel that `connect_with` returns, and `connect_with`
returns one for every status.  A worker is ready only behind an accepted tunnel as long as
the endpoint accepts: `AllAccepted` is the condition, on what the endpoint answers, and
exact for each step.
-/
import WarpProxy.Pool.Settled
import WarpProxy.Pool.View
import WarpProxy.Tunnel.Connect

namespace WarpProxy.Pool

/-- The status that opens a tunnel. -/
def okStatus : UInt16 := 200

/-- The worker's netstack runs on its installed tunnel, whose CONNECT was accepted. -/
def State.Accepted (s : State) (w : Ref) : Prop :=
  ∀ n, s.net w = some n → ∃ t, (s.heap w).inner.tunnel = some t ∧ t.spawnNet = n ∧
    t.status = okStatus

/-- The step ends a build of `w` whose CONNECT was answered: it installs the tunnel. -/
inductive Finishes (s : State) : Label → State → Ref → Connected → Prop
  | sup {w : Ref} {k : Nat} {config : WarpConfig} {tr : Transport} {r : Connected}
      {died : Bool} : s.sups w = some (.building k (.connecting config tr)) →
      Finishes s (.sup w) ((s.install w config tr r died).supAfter w k .ok) w r
  | new {c : Nat} {configs : List WarpConfig} {w : Ref} {config : WarpConfig} {tr : Transport}
      {r : Connected} {died : Bool} :
      s.calls c = some (.newBuild configs w (.connecting config tr)) →
      Finishes s (.call c) ((s.install w config tr r died).newAfter c configs w .ok) w r
  | add {c : Nat} {id : WorkerId} {w : Ref} {config : WarpConfig} {tr : Transport}
      {r : Connected} {died : Bool} :
      s.calls c = some (.addBuild id w (.connecting config tr) (.ok r)) →
      Finishes s (.call c) ((s.install w config tr r died).addAfter c id w (.ok r) .ok) w r

/-- Whatever build the step ends, the endpoint has accepted. -/
def AllAccepted (s : State) (l : Label) (t : State) : Prop :=
  ∀ w r, Finishes s l t w r → r.status = okStatus

/-- The worker of a build that was answered otherwise is not ready, and will be retried. -/
def Retries (s : State) (l : Label) (t : State) : Prop :=
  ∀ w r, Finishes s l t w r → r.status ≠ okStatus →
    t.net w = none ∧ ∃ k, t.sups w = some (.sleeping k)

/-! ## What a step does to the tunnel of a worker -/

/-- The netstack, the tunnel and the dead signal. -/
def linkOf (x : Worker) : Option NetHandle × Option Tunnel × Option BuildId :=
  (x.inner.net, x.inner.tunnel, x.inner.dead)

def State.link (s : State) (w : Ref) : Option NetHandle × Option Tunnel × Option BuildId :=
  linkOf (s.heap w)

section
variable {s t : State}

/-- The tunnel a finished build installs. -/
def State.built (s : State) (config : WarpConfig) (tr : Transport) (r : Connected) : Tunnel :=
  ⟨s.nextBuild, r.status, r.assignedV4, r.assignedV6, config, tr⟩

theorem install_link (s : State) (w : Ref) (config : WarpConfig) (tr : Transport)
    (r : Connected) (died : Bool) : (s.install w config tr r died).link w =
      (some (s.built config tr r).spawnNet, some (s.built config tr r), some s.nextBuild) :=
  congrArg linkOf (State.heap_setWorker_self ..)

theorem Finishes.link {l : Label} {w : Ref} {r : Connected} (h : Finishes s l t w r) :
    ∃ tun : Tunnel, t.link w = (some tun.spawnNet, some tun, some tun.build) ∧
      tun.status = r.status := by
  cases h with
  | @sup _ k config tr _ died | @new c configs _ config tr _ died | @add c id _ config tr _ died =>
      exact ⟨s.built config tr r, install_link s w config tr r died, rfl⟩

/-- Nothing happens to the link of `v`. -/
def SameLink (s t : State) (v : Ref) : Prop := t.link v = s.link v ∧ (v < t.nextRef → v < s.nextRef)

/-- A worker is written and keeps its link. -/
theorem SameLink.of_heap {v w : Ref} {x : Worker} (hheap : t.heap = Function.update s.heap w x)
    (hx : linkOf x = linkOf (s.heap w)) (hnext : t.nextRef = s.nextRef) :
    SameLink s t v := by
  have hpart : linkOf ((s.setWorker w x).heap v) = linkOf (s.heap v) :=
    State.heap_setWorker_part s v linkOf hx
  refine ⟨?_, fun hv => hnext ▸ hv⟩
  rw [State.link, hheap]
  exact hpart

/-- Another worker is written. -/
theorem SameLink.of_ne {v w : Ref} {x : Worker} (hheap : t.heap = Function.update s.heap w x)
    (hv : v ≠ w) (hnext : v < t.nextRef → v < s.nextRef) : SameLink s t v := by
  refine ⟨?_, hnext⟩
  rw [State.link, hheap]
  exact congrArg linkOf (Function.update_of_ne hv ..)

theorem SameLink.of_eq {v : Ref} (hheap : t.heap = s.heap) (hnext : t.nextRef = s.nextRef) :
    SameLink s t v := by
  refine ⟨?_, fun hv => hnext ▸ hv⟩
  rw [State.link, hheap]
  rfl

/-- A step of a build leaves every link, or installs. -/
theorem BuildStep.link {w : Ref} {out : Except Error Connected} {b : Build} {p : Progress}
    (h : BuildStep w out s b p t) (v : Ref) :
    SameLink s t v ∨ (v = w ∧ p = .ok ∧ ∃ config tr r died,
      b = .connecting config tr ∧ out = .ok r ∧ t = s.install w config tr r died) := by
  cases h with
  | connected s config tr died hout =>
      by_cases hv : v = w
      · exact .inr ⟨hv, rfl, config, tr, _, died, rfl, hout, rfl⟩
      · exact .inl (.of_ne rfl hv fun h => h)
  | _ => exact .inl (.of_eq rfl rfl)

theorem push_link {id : WorkerId} {config : WarpConfig}
    (hheap : t.heap = (s.push id config).heap) (hnext : t.nextRef = s.nextRef + 1) (v : Ref) :
    SameLink s t v ∨ t.net v = none := by
  by_cases hv : v = s.nextRef
  · subst hv
    refine .inr ?_
    rw [State.net, hheap]
    exact congrArg (·.inner.net) (State.heap_setWorker_self ..)
  · refine .inl (.of_ne hheap hv fun hlt => ?_)
    rw [hnext] at hlt
    exact Nat.lt_of_le_of_ne (Nat.le_of_lt_succ hlt) hv

theorem SupStep.link {w : Ref} (h : SupStep w s t) (v : Ref) :
    SameLink s t v ∨ t.net v = none ∨ ∃ r, Finishes s (.sup w) t v r := by
  cases h with
  | notified | woken => exact .inl (.of_heap rfl rfl rfl)
  | clear =>
      by_cases hv : v = w
      · subst hv
        exact .inr (.inl (congrArg (·.inner.net) (State.heap_setWorker_self ..)))
      · exact .inl (.of_ne rfl hv fun h => h)
  | @build k b out p s₁ hq hb =>
      rcases hb.link v with hsame | ⟨rfl, rfl, config, tr, r, died, rfl, rfl, rfl⟩
      · cases p <;> exact .inl ⟨hsame.1, hsame.2⟩
      · exact .inr (.inr ⟨r, .sup hq⟩)
  | _ => exact .inl (.of_eq rfl rfl)

theorem CallStep.link {c : Nat} {call : Call} (h : CallStep c s call t)
    (hc : s.calls c = some call) (v : Ref) :
    SameLink s t v ∨ t.net v = none ∨ ∃ r, Finishes s (.call c) t v r := by
  cases h with
  | newNext | addPush => exact (push_link rfl rfl v).imp_right .inl
  | @newBuild configs w b out p s₁ hb =>
      rcases hb.link v with hsame | ⟨rfl, rfl, config, tr, r, died, rfl, rfl, rfl⟩
      · cases p <;> exact .inl ⟨hsame.1, hsame.2⟩
      · exact .inr (.inr ⟨r, .new hc⟩)
  | @addBuild id w b connected p s₁ hb =>
      rcases hb.link v with hsame | ⟨rfl, rfl, config, tr, r, died, rfl, rfl, rfl⟩
      · cases p <;> exact .inl ⟨hsame.1, hsame.2⟩
      · exact .inr (.inr ⟨r, .add hc⟩)
  | @notify stored id w todo =>
      have hsame : SameLink s (s.notifyIf id w) v := by
        rw [State.notifyIf]
        split
        · exact .of_heap rfl rfl rfl
        · exact .of_eq rfl rfl
      exact .inl ⟨hsame.1, hsame.2⟩
  | rotateStore | rotateNotify | refreshed => exact .inl (.of_heap rfl rfl rfl)
  | _ => exact .inl (.of_eq rfl rfl)

/-- **One step** leaves a worker's netstack and tunnel, or takes the netstack away, or ends a
build. -/
theorem Step.link {l : Label} (h : Step s l t) (v : Ref) :
    SameLink s t v ∨ t.net v = none ∨ ∃ r, Finishes s l t v r := by
  cases h with
  | sup hs => exact hs.link v
  | call hc hs => exact hs.link hc v
  | trace _ hs =>
      cases hs with
      | store => exact .inl (.of_heap rfl rfl rfl)
      | _ => exact .inl (.of_eq rfl rfl)
  | _ => exact .inl (.of_eq rfl rfl)

/-! ## Every run -/

theorem Finishes.lt {l : Label} {w : Ref} {r : Connected} (h : Finishes s l t w r) (hi : Inv s) :
    w < s.nextRef ∧ t.nextRef = s.nextRef := by
  refine ⟨?_, by cases h <;> rfl⟩
  cases h with
  | sup hq => exact (hi.worker w).lt (o := none) (by rw [State.stage, hq]; rfl)
  | @new c _ _ _ _ _ _ hc =>
      exact (hi.worker w).lt (o := some c) (by simp [State.stage, hc, Call.stage]; rfl)
  | @add c _ _ _ _ _ _ hc =>
      exact (hi.worker w).lt (o := some c) (by simp [State.stage, hc, Call.stage]; rfl)

theorem SameLink.accepted {w : Ref} (h : SameLink s t w) (ha : s.Accepted w) : t.Accepted w := by
  have hnet : t.net w = s.net w := congrArg Prod.fst h.1
  have htun : (t.heap w).inner.tunnel = (s.heap w).inner.tunnel :=
    congrArg (·.2.1) h.1
  intro n hn
  rw [htun]
  exact ha n (hnet ▸ hn)

/-- A worker whose build has just been answered. -/
theorem Finishes.accepted_iff {l : Label} {w : Ref} {r : Connected} (h : Finishes s l t w r) :
    t.Accepted w ↔ r.status = okStatus := by
  obtain ⟨tun, hlink, hstatus⟩ := h.link
  have hnet : t.net w = some tun.spawnNet := congrArg Prod.fst hlink
  have htun : (t.heap w).inner.tunnel = some tun := congrArg (·.2.1) hlink
  constructor
  · intro ha
    obtain ⟨tun', htun', -, hok⟩ := ha _ hnet
    rw [htun, Option.some.injEq] at htun'
    rw [← hstatus, htun', hok]
  · intro hok n hn
    rw [hnet, Option.some.injEq] at hn
    exact ⟨tun, htun, hn, hstatus.trans hok⟩

/-- **One step**: every worker is behind an accepted tunnel exactly if the endpoint accepts. -/
theorem Step.accepted_iff {l : Label} (h : Step s l t) (hi : Inv s)
    (ha : ∀ w, w < s.nextRef → s.Accepted w) :
    (∀ w, w < t.nextRef → t.Accepted w) ↔ AllAccepted s l t := by
  constructor
  · intro hat w r hfin
    obtain ⟨hlt, hnext⟩ := hfin.lt hi
    exact hfin.accepted_iff.mp (hat w (hnext ▸ hlt))
  · intro hall w hw
    rcases h.link w with hsame | hnone | ⟨r, hfin⟩
    · exact hsame.accepted (ha w (hsame.2 hw))
    · intro n hn
      rw [hnone] at hn
      cases hn
    · exact hfin.accepted_iff.mpr (hall w r hfin)

/-- A build that was answered is never retried. -/
theorem retries_iff {l : Label} : Retries s l t ↔ AllAccepted s l t := by
  constructor
  · intro hret w r hfin
    by_contra hbad
    obtain ⟨tun, hlink, -⟩ := hfin.link
    have hnet : t.net w = some tun.spawnNet := congrArg Prod.fst hlink
    rw [(hret w r hfin hbad).1] at hnet
    cases hnet
  · intro hall w r hfin hbad
    exact absurd (hall w r hfin) hbad

/-- **Only an accepted tunnel carries traffic.**  In every run in which the endpoint answers each
CONNECT with 200: the netstack of a worker runs on its installed tunnel, which was accepted; so
does what the status shows as ready and what `pick` hands out.  From a state in which all this
holds, a step keeps it, and sends a refused worker to be retried, exactly if the endpoint accepts
whatever the step completes. -/
theorem ready_accepted
    (h : Transition.Reachable (fun s l t => Step s l t ∧ AllAccepted s l t) Init s) :
    (∀ w, w < s.nextRef → s.Accepted w) ∧
    (∀ pinned, ∀ a ∈ (s.status pinned).accounts, a.ready = true →
      ∃ w ∈ s.pool.workers, (s.heap w).id = a.id ∧
        ∃ tun, (s.heap w).inner.tunnel = some tun ∧ tun.status = okStatus) ∧
    (∀ checked n, (s.pick checked).1 = some (some n) →
      ∃ w ∈ s.pool.workers, ∃ tun, (s.heap w).inner.tunnel = some tun ∧ tun.spawnNet = n ∧
        tun.status = okStatus) ∧
    ∀ l t, Step s l t →
      ((∀ w, w < t.nextRef → t.Accepted w) ↔ AllAccepted s l t) ∧
      (Retries s l t ↔ AllAccepted s l t) := by
  have hall : Inv s ∧ ∀ w, w < s.nextRef → s.Accepted w := by
    refine h.invariant (fun s => Inv s ∧ ∀ w, w < s.nextRef → s.Accepted w) ?_ ?_
    · intro s hs
      refine ⟨hs.inv, fun w hw => ?_⟩
      obtain ⟨configs, http2, blank, rfl⟩ := hs
      exact absurd hw (Nat.not_lt_zero _)
    · rintro s l t ⟨hi, ha⟩ ⟨hstep, hok⟩
      exact ⟨hstep.inv hi, (hstep.accepted_iff hi ha).mpr hok⟩
  obtain ⟨hi, ha⟩ := hall
  refine ⟨ha, fun pinned a hmem hready => ?_, fun checked n hpick => ?_, fun l t hstep =>
    ⟨hstep.accepted_iff hi ha, retries_iff⟩⟩
  · obtain ⟨w, hw, rfl⟩ := List.mem_map.mp hmem
    obtain ⟨n, hn⟩ := Option.isSome_iff_exists.mp hready
    obtain ⟨tun, htun, -, hok⟩ := ha w (hi.pooled_lt w hw) n hn
    exact ⟨w, hw, rfl, tun, htun, hok⟩
  · obtain ⟨w, hw, hn⟩ := State.pick_net hpick
    exact ⟨w, hw, ha w (hi.pooled_lt w hw) n hn⟩

/-- A step that installs nothing. -/
theorem AllAccepted.of_nextBuild {l : Label} (h : t.nextBuild = s.nextBuild) :
    AllAccepted s l t := by
  intro w r hfin
  have hnext : t.nextBuild = s.nextBuild + 1 := by cases hfin <;> rfl
  exact absurd (h.symm.trans hnext) (Nat.ne_of_lt (Nat.lt_succ_self _))

/-- A step that leaves the only worker behind an accepted tunnel. -/
theorem AllAccepted.of_only {l : Label} {tun : Tunnel} (hi : Inv s) (hone : s.nextRef = 1)
    (htun : (t.heap 0).inner.tunnel = some tun) (hok : tun.status = okStatus) :
    AllAccepted s l t := by
  intro w r hfin
  obtain ⟨hlt, -⟩ := hfin.lt hi
  rw [hone] at hlt
  obtain rfl := Nat.lt_one_iff.mp hlt
  obtain ⟨tun', hlink, hstatus⟩ := hfin.link
  obtain rfl := Option.some.inj (htun.symm.trans (congrArg (·.2.1) hlink))
  exact hstatus.symm.trans hok

/-- One account, connected. -/
theorem ready_accepted_one : ∃ s : State, s.pool.workers = [0] ∧ s.net 0 ≠ none ∧
    s.Accepted 0 := by
  let out : Except Error Connected := .ok ⟨200, 0, none⟩
  have h₀ : Transition.Reachable (fun s l t => Step s l t ∧ AllAccepted s l t) Init
      (.init [.blank] false (.new 0 .blank)) := .init ⟨_, _, _, rfl⟩
  have h₁ := h₀.tail ⟨.call (c := 0) rfl (.newNext rfl), .of_nextBuild rfl⟩
  have h₂ := h₁.tail ⟨.call (c := 0) rfl
    (.newBuild (show BuildStep 0 out _ _ _ _ from .config _)), .of_nextBuild rfl⟩
  have h₃ := h₂.tail ⟨.call (c := 0) rfl
    (.newBuild (show BuildStep 0 out _ _ _ _ from .transport _ _)), .of_nextBuild rfl⟩
  have hi : Inv _ := Reachable.inv (h₃.mono fun _ _ _ h => h.1)
  have h₄ := h₃.tail ⟨.call (c := 0) rfl
    (.newBuild (show BuildStep 0 out _ _ _ _ from .connected _ _ _ false rfl)),
    .of_only hi rfl rfl rfl⟩
  refine ⟨_, rfl, ?_, (ready_accepted h₄).1 0 (by decide)⟩
  exact Option.some_ne_none _

/-- The first account is answered with 403: the exchange gives a tunnel all the same, and
`Pool::new` installs it.  The worker is ready, `pick` hands it out, and its supervisor is going
to wait for the tunnel to die. -/
theorem refused_ready : ∃ s l t r, Reachable s ∧ Step s l t ∧ Finishes s l t 0 r ∧
    (connectWith ⟨.ok (), .ok (), .ok (), .ok (), .ok 403⟩
      ⟨.ok (), .ok (), .ok (), .ok (), .ok (), .ok (), .ok (), .ok (), .ok 403⟩
      (.ok 0) none .http3) = .ok r ∧ r.status = 403 ∧
    ¬ t.Accepted 0 ∧ ¬ Retries s l t ∧
    ((t.status 0).accounts.map (·.ready)) = [true] ∧
    (∃ tun, (t.heap 0).inner.tunnel = some tun ∧ tun.status = 403 ∧
      (t.pick true).1 = some (some tun.spawnNet)) := by
  let out : Except Error Connected := .ok ⟨403, 0, none⟩
  have h₀ : Reachable (.init [.blank] false (.new 0 .blank)) := .init ⟨_, _, _, rfl⟩
  have h₁ := h₀.tail (.call (c := 0) rfl (.newNext rfl))
  have h₂ := h₁.tail (.call (c := 0) rfl (.newBuild (show BuildStep 0 out _ _ _ _ from .config _)))
  have h₃ := h₂.tail
    (.call (c := 0) rfl (.newBuild (show BuildStep 0 out _ _ _ _ from .transport _ _)))
  refine ⟨_, _, _, ⟨403, 0, none⟩, h₃, .call (c := 0) rfl
    (.newBuild (show BuildStep 0 out _ _ _ _ from .connected _ _ _ false rfl)), .new rfl, rfl, rfl,
    ?_, ?_, rfl, _, rfl, rfl, rfl⟩
  · intro hacc
    obtain ⟨tun, htun, -, hok⟩ := hacc _ rfl
    cases htun
    cases hok
  · intro hret
    have hnone := (hret 0 ⟨403, 0, none⟩ (.new rfl) (by decide)).1
    cases hnone

end

end WarpProxy.Pool
