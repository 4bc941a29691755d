/-
# `WarpProxy.Tasks.Joint` — the pool with the tasks of its tunnels

Each build that `Pool::build_tunnel` ends well starts the tasks of one more tunnel; what
they show the pool is the dead signal, and nothing else.  `Joint.Step` puts the two models
side by side, and every run of it is a run of the pool and, for each tunnel, one of its
tasks (`Joint.Reachable.parts`).

A tunnel that the feeder can no longer read from is noticed, unless it is the HTTP/2
CONNECT stream alone that has ended (`loss_noticed`).
-/
import WarpProxy.Pool.Tended
import WarpProxy.Tasks.Noticed

namespace WarpProxy.Tasks

open Netstack (Deps)

/-- The pool, and for each tunnel it has installed the tasks that run on it.  The tunnel and its
handles may be dropped at any time, whatever the pool still has of them. -/
structure Joint (D : Deps) where
  pool : Pool.State
  tunnels : BuildId → System D

inductive Joint.Label where
  | pool (l : Pool.Label)
  | tunnel (b : BuildId) (l : Tasks.Label)

section
variable {D : Deps}

namespace Joint

/-- The tasks of the tunnel `b` have come to `t`. -/
def advance (x : Joint D) (b : BuildId) (t : System D) : Joint D where
  pool := { x.pool with deadWatch := Function.update x.pool.deadWatch b t.dead }
  tunnels := Function.update x.tunnels b t

/-- A build that ends well starts a tunnel, with whatever its transport has done meanwhile;
after that a tunnel makes its own steps. -/
inductive Step (x : Joint D) : Joint.Label → Joint D → Prop
  | pool {l : Pool.Label} {p : Pool.State} {tunnels : BuildId → System D} :
      Pool.Step x.pool l p → (∀ b, l ≠ .die b) →
      (∀ b < x.pool.nextBuild, tunnels b = x.tunnels b) →
      (∀ b, x.pool.nextBuild ≤ b → b < p.nextBuild →
        Tasks.Reachable (tunnels b) ∧ (tunnels b).dead = p.deadWatch b) →
      Step x (.pool l) ⟨p, tunnels⟩
  | tunnel {b : BuildId} {l : Tasks.Label} {t : System D} : b < x.pool.nextBuild →
      Tasks.Step (x.tunnels b) l t →
      Step x (.tunnel b l) (x.advance b t)

def Init (x : Joint D) : Prop := Pool.Init x.pool

abbrev Reachable (x : Joint D) : Prop := Transition.Reachable Step Init x

end Joint

/-- Death is not taken back. -/
theorem Step.dead {s t : System D} {l : Label} (h : Step s l t) (hs : s.dead = true) :
    t.dead = true := by
  cases h with
  | h3Watcher | h2Driver => rfl
  | _ => exact hs

/-- What the pool sees of the tunnel `b` is what its tasks have come to. -/
def Joint.Shows (x : Joint D) (b : BuildId) : Prop :=
  Tasks.Reachable (x.tunnels b) ∧ (x.tunnels b).dead = x.pool.deadWatch b

theorem Joint.Shows.advance {x : Joint D} {b b' : BuildId} {t : System D} (h : x.Shows b')
    (ht : Tasks.Reachable t) : (x.advance b t).Shows b' := by
  by_cases hb : b' = b
  · simp only [Joint.Shows, Joint.advance, hb, Function.update_self]
    exact ⟨ht, trivial⟩
  · simp only [Joint.Shows, Joint.advance, Function.update_of_ne hb]
    exact h

/-- **A run of both is a run of each**: the pool sees each tunnel die when its tasks say so. -/
theorem Joint.Reachable.parts {x : Joint D} (h : Joint.Reachable x) :
    Pool.Reachable x.pool ∧ ∀ b < x.pool.nextBuild, x.Shows b := by
  induction h with
  | init hx =>
      refine ⟨.init hx, fun b hb => ?_⟩
      obtain ⟨configs, http2, blank, hpool⟩ := hx
      rw [hpool] at hb
      exact absurd hb (Nat.not_lt_zero _)
  | @tail x y l _ hstep ih =>
      obtain ⟨hpool, hshows⟩ := ih
      cases hstep with
      | @pool l p tunnels hs hl hold hnew =>
          refine ⟨hpool.tail hs, fun b hb => ?_⟩
          rcases Nat.lt_or_ge b x.pool.nextBuild with hlt | hge
          · have hwatch := (hs.watch hl).2 b hlt
            simp only [Joint.Shows, hold b hlt, hwatch]
            exact hshows b hlt
          · exact hnew b hge hb
      | @tunnel b l t hb hs =>
          obtain ⟨hreach, hdead⟩ := hshows b hb
          refine ⟨?_, fun b' hb' => (hshows b' hb').advance (hreach.tail hs)⟩
          show Pool.Reachable { x.pool with deadWatch := Function.update _ b t.dead }
          cases ht : t.dead with
          | true => exact hpool.tail (.die hb)
          | false =>
              -- nothing has changed for the pool
              have hlive : (x.tunnels b).dead = false := Bool.eq_false_iff.mpr fun hd => by
                rw [hs.dead hd] at ht
                cases ht
              rw [← hlive, hdead, Function.update_eq_self]
              exact hpool

/-! ## A run of both -/

/-- The pool makes a step; its tunnels, if it has any, have come to `T`. -/
theorem Joint.Reachable.pool {x : Joint D} {l : Pool.Label} {p : Pool.State}
    {T : System D} (h : Joint.Reachable x) (hs : Pool.Step x.pool l p) (hl : ∀ b, l ≠ .die b)
    (hx : x.tunnels = fun _ => T)
    (hT : ∀ b, x.pool.nextBuild ≤ b → b < p.nextBuild →
      Tasks.Reachable T ∧ T.dead = p.deadWatch b) : Joint.Reachable ⟨p, fun _ => T⟩ :=
  h.tail (.pool hs hl (fun _ _ => by rw [hx]) hT)

/-- An account is connected and its supervisor waits; the tasks of its tunnel have come to `T`. -/
theorem Joint.exists_ready {T : System D} (hT : Tasks.Reachable T) :
    ∃ x : Joint D, Joint.Reachable x ∧ x.pool.pool.workers = [0] ∧ x.tunnels 0 = T
      ∧ (x.pool.net 0).map (·.build) = some 0 ∧ x.pool.sups 0 = some (.waiting 0)
      ∧ x.pool.deadWatch 0 = T.dead ∧ (x.pool.heap 0).rebuild = false := by
  let out : Except Error Pool.Connected := .ok ⟨200, 0, none⟩
  have hnone : ∀ {n : Nat} {p : Pool.State} b, n ≤ b → b < n →
      Tasks.Reachable T ∧ T.dead = p.deadWatch b := fun b hle hlt =>
    absurd hle (Nat.not_le_of_lt hlt)
  have h₀ : Joint.Reachable ⟨.init [.blank] false (.new 0 .blank), fun _ => T⟩ :=
    .init ⟨_, _, _, rfl⟩
  have h₁ := h₀.pool (.call (c := 0) rfl (.newNext rfl)) nofun rfl hnone
  have h₂ := h₁.pool (.call (c := 0) rfl
    (.newBuild (show Pool.BuildStep 0 out _ _ _ _ from .config _))) nofun rfl hnone
  have h₃ := h₂.pool (.call (c := 0) rfl
    (.newBuild (show Pool.BuildStep 0 out _ _ _ _ from .transport _ _))) nofun rfl hnone
  have h₄ := h₃.pool (.call (c := 0) rfl
    (.newBuild (show Pool.BuildStep 0 out _ _ _ _ from .connected _ _ _ T.dead rfl))) nofun rfl
    fun b _ hb => by
      obtain rfl : b = 0 := Nat.lt_one_iff.mp hb
      exact ⟨hT, rfl⟩
  have h₅ := h₄.pool (.call (c := 0) rfl .newSpawn) nofun rfl hnone
  have h₆ := h₅.pool (.sup (w := 0) (.up (b := 0) rfl rfl)) nofun rfl hnone
  exact ⟨_, h₆, rfl, rfl, rfl, rfl, rfl, rfl⟩

/-! ## Whether a lost tunnel is noticed -/

/-- **A lost tunnel is noticed, unless only the HTTP/2 stream is lost.**  Where nothing can go on,
the feeder has stopped on an error without death being signalled exactly if the HTTP/2 CONNECT
stream has ended or failed and the connection task keeps running; it does not happen in a run in
which the remote ends that stream only with its connection.  Otherwise a ready worker has a running
feeder, or its supervisor, or the call that is about to start it, is enabled. -/
theorem loss_noticed {live : D.Dns → D.Query → Prop} (hD : D.SocketSetLaws) (hP : D.PollLaws)
    (hQ : D.DnsLaws live) :
    (∀ s : System D, Reachable s → s.Quiescent →
      ((s.feeder = .stopped true ∧ s.dead = false) ↔ s.StreamLost)) ∧
    (∀ s : System D, Transition.Reachable (Transition.guarded Step Whole) Init s →
      s.Quiescent → ¬ (s.feeder = .stopped true ∧ s.dead = false)) ∧
    ∀ x : Joint D, Joint.Reachable x → ∀ w ∈ x.pool.pool.workers,
      (Pool.accountStatus (x.pool.heap w)).ready = true → ∃ n, x.pool.net w = some n ∧
        ((x.tunnels n.build).Quiescent → ¬ (x.tunnels n.build).StreamLost →
          (x.tunnels n.build).FeederRuns ∨ x.pool.TenderEnabled w) := by
  have hlost : ∀ s : System D, Reachable s → s.Quiescent →
      ((s.feeder = .stopped true ∧ s.dead = false) ↔ s.StreamLost) := fun s h hq =>
    (h.inv hD hP hQ).2.failed_unnoticed hq
  refine ⟨hlost, fun s h hq => ?_, fun x h w hw hready => ?_⟩
  · have hwhole : s.wire.WithConnection := by
      refine h.invariant (fun s => s.wire.WithConnection) ?_ fun s l t hs hstep =>
        hstep.1.withConnection hstep.2 hs
      rintro s ⟨mtu, v4, v6, wire, hfresh, rfl⟩
      cases wire with
      | h3 w => exact trivial
      | h2 w =>
          obtain ⟨-, -, -, hended, -⟩ := hfresh
          exact fun h => absurd (hended.symm.trans h) Bool.false_ne_true
    rw [hlost s h.unguarded hq]
    exact Quiescent.not_streamLost hq hwhole
  · obtain ⟨n, hn⟩ := Option.isSome_iff_exists.mp hready
    obtain ⟨hpool, hshows⟩ := h.parts
    have hi := hpool.inv
    have htends := hpool.tended w (hi.pooled_lt w hw) n hn
    obtain ⟨hreach, hdead⟩ := hshows n.build htends.born
    refine ⟨n, hn, fun hq hnot => ?_⟩
    by_cases hruns : (x.tunnels n.build).FeederRuns
    · exact .inl hruns
    · right
      have hstopped := (hreach.inv hD hP hQ).2.stopped hruns
      refine htends.enabled (hi.worker w) (hdead ▸ ?_)
      by_contra hlive
      exact hnot ((hlost _ hreach hq).mp ⟨hstopped, Bool.eq_false_iff.mpr hlive⟩)

end

/-- The remote closes the QUIC connection of a ready account: the feeder stops, the watcher has
signalled, and the supervisor is enabled. -/
theorem loss_noticed_closed : ∃ x : Joint Deps.toy, Joint.Reachable x ∧
    0 ∈ x.pool.pool.workers ∧ (Pool.accountStatus (x.pool.heap 0)).ready = true ∧
    (x.tunnels 0).Quiescent ∧ (x.tunnels 0).feeder = .stopped true ∧
    ¬ (x.tunnels 0).StreamLost ∧
    ¬ ((x.tunnels 0).feeder = .stopped true ∧ (x.tunnels 0).dead = false) ∧
    x.pool.TenderEnabled 0 := by
  obtain ⟨hlost, hwhole, hready⟩ :=
    loss_noticed Deps.toy_socketSetLaws Deps.toy_pollLaws Deps.toy_dnsLaws
  obtain ⟨T, hT, hq, hstopped⟩ : ∃ T : System Deps.toy,
      Transition.Reachable (Transition.guarded Step Whole) Init T ∧ T.Quiescent ∧
        T.feeder = .stopped true := by
    obtain ⟨n, hpc, hqueue, -, -, h₀⟩ := first_pass H3.connected_fresh
    have h₁ := h₀.tail (l := .remote (.close "timed out")) ⟨.remote rfl, nofun⟩
    have h₂ := h₁.tail (l := .driver) ⟨.h3Driver rfl rfl, nofun⟩
    have h₃ := h₂.tail (l := .feeder) ⟨.feederFailed rfl rfl, nofun⟩
    have h₄ := h₃.tail (l := .watcher) ⟨.h3Watcher rfl rfl, nofun⟩
    refine ⟨_, h₄, System.Waiting.quiescent
      ⟨hpc, hqueue, .inr (.inl Nat.one_pos), nofun, nofun, fun w hw => ?_, nofun⟩, rfl⟩
    cases hw
    exact ⟨rfl, rfl⟩
  have hnoticed := hwhole T hT hq
  have hnot : ¬ T.StreamLost := fun h => hnoticed ((hlost T hT.unguarded hq).mpr h)
  obtain ⟨x, hx, hworkers, rfl, hnet, -⟩ := Joint.exists_ready hT.unguarded
  have hmem : 0 ∈ x.pool.pool.workers := hworkers ▸ List.mem_singleton_self 0
  obtain ⟨n, hn, hbuild⟩ := Option.map_eq_some_iff.mp hnet
  have hup : (Pool.accountStatus (x.pool.heap 0)).ready = true :=
    Option.isSome_iff_exists.mpr ⟨n, hn⟩
  obtain ⟨n', hn', htended⟩ := hready x hx 0 hmem hup
  cases hn.symm.trans hn'
  rw [hbuild] at htended
  refine ⟨x, hx, hmem, hup, hq, hstopped, hnot, hnoticed, (htended hq hnot).resolve_left ?_⟩
  exact fun hruns => hruns true hstopped

/-! ## Where it is not noticed -/

/-- The remote finishes the HTTP/2 CONNECT stream and keeps the connection. -/
theorem stream_finished : ∃ s : System Deps.toy, Reachable s ∧ s.Quiescent ∧
    s.feeder = .stopped true ∧ s.dead = false := by
  obtain ⟨n, hpc, hqueue, -, -, h₀⟩ := first_pass H2.connected_fresh
  have h₁ := h₀.unguarded.tail (.remote (r := .finish) rfl)
  have h₂ := h₁.tail (.reader rfl (iff_of_true rfl (.inl rfl)) rfl)
  have h₃ := h₂.tail (.feederFailed rfl rfl)
  refine ⟨_, h₃, System.Waiting.quiescent ⟨hpc, hqueue, .inr (.inl Nat.one_pos), nofun, nofun,
    nofun, fun w hw => ?_⟩, rfl, rfl⟩
  cases hw
  refine ⟨rfl, fun held hheld => ⟨rfl, ?_⟩⟩
  obtain rfl : held = true := hheld.mpr (.inl rfl)
  rfl

/-- An account is ready while its feeder has stopped for good: nothing can go on in its tunnel,
death is not signalled, and neither the supervisor nor a call of the pool is enabled. -/
theorem loss_unnoticed : ∃ x : Joint Deps.toy, Joint.Reachable x ∧ ∃ w ∈ x.pool.pool.workers,
    ∃ n, x.pool.net w = some n ∧ (Pool.accountStatus (x.pool.heap w)).ready = true ∧
      Reachable (x.tunnels n.build) ∧ (x.tunnels n.build).Quiescent ∧
      (x.tunnels n.build).feeder = .stopped true ∧ (x.tunnels n.build).dead = false ∧
      ¬ x.pool.TenderEnabled w := by
  obtain ⟨T, hT, hq, hstopped, hlive⟩ := stream_finished
  obtain ⟨x, hx, hworkers, rfl, hnet, hsup, hwatch, hpermit⟩ := Joint.exists_ready hT
  obtain ⟨n, hn, hbuild⟩ := Option.map_eq_some_iff.mp hnet
  refine ⟨x, hx, 0, hworkers ▸ List.mem_singleton_self 0, n, hn, ?_, hbuild ▸ hT, hbuild ▸ hq,
    hbuild ▸ hstopped, hbuild ▸ hlive, ?_⟩
  · exact Option.isSome_iff_exists.mpr ⟨n, hn⟩
  · rintro (⟨t, hstep⟩ | ⟨c, t, hstage, -⟩)
    · cases hstep with
      | sup hs =>
          cases hs with
          | dead hat hdead =>
              cases hsup.symm.trans hat
              cases (hdead.symm.trans hwatch).trans hlive
          | notified _ hasked => cases hpermit.symm.trans hasked
          | up h | down h | clear h | upgrade h | exit h | build h | slept h | woken h =>
              cases hsup.symm.trans h
    · have hi := (Joint.Reachable.parts hx).1.inv
      have hfree := (hi.worker 0).alone_sup hsup c
      cases hfree.symm.trans hstage

end WarpProxy.Tasks
