/-
# `WarpProxy.Tasks.Noticed` — a tunnel that can no longer deliver packets

What can be seen of a state in which no task of a tunnel can go on: who waits, and for
what.  The feeder has then stopped on an error with death not signalled exactly when the
HTTP/2 receive stream has ended and the connection task goes on (`StreamLost`): nothing
watches the stream, only the connection.
-/
import WarpProxy.Tasks.Ended

namespace WarpProxy.Tasks

open Netstack (Deps)

section
variable {D : Deps} {s : System D}

/-! ## Where nothing can go on -/

theorem Quiescent.receiving (h : s.Quiescent) (hf : s.feeder = .receiving) :
    s.wire.recvIp = none := by
  cases hr : s.wire.recvIp with
  | none => rfl
  | some r =>
      obtain ⟨res, wire⟩ := r
      cases res with
      | ok pkt => exact absurd (.feederRecv hf hr) (h .feeder _ trivial)
      | error e => exact absurd (.feederFailed hf hr) (h .feeder _ trivial)

theorem Quiescent.not_sending (h : s.Quiescent) {pkt : List UInt8} : s.feeder ≠ .sending pkt := by
  intro hf
  by_cases hruns : s.ActorRuns
  · exact h .feeder _ trivial (.feederSend hf hruns rfl)
  · exact h .feeder _ trivial (.feederGone hf hruns)

theorem Quiescent.h3_driver (h : s.Quiescent) {w : H3} (hw : s.wire = .h3 w) :
    w.drive s.tunnel = none :=
  Option.eq_none_iff_forall_ne_some.mpr fun _ hd => h .driver _ trivial (.h3Driver hw hd)

theorem Quiescent.h3_watcher (h : s.Quiescent) {w : H3} (hw : s.wire = .h3 w) :
    w.watch = none :=
  Option.eq_none_iff_forall_ne_some.mpr fun _ hd => h .watcher _ trivial (.h3Watcher hw hd)

theorem Quiescent.h2_driver (h : s.Quiescent) {w : H2} (hw : s.wire = .h2 w) : w.drive = none :=
  Option.eq_none_iff_forall_ne_some.mpr fun _ hd => h .driver _ trivial (.h2Driver hw hd)

/-- The reader waits for the stream. -/
theorem Quiescent.reader (h : s.Quiescent) {w : H2} (hw : s.wire = .h2 w) {buf : List UInt8}
    (hbuf : w.reader = some buf) : w.recvEnded = false := by
  have hnone : ∀ held, (held = true ↔ s.IoHeld) → w.read held = none := fun held hheld =>
    Option.eq_none_iff_forall_ne_some.mpr fun _ hd => h .reader _ trivial (.reader hw hheld hd)
  obtain ⟨held, hheld⟩ : ∃ held : Bool, held = true ↔ s.IoHeld := by
    by_cases hio : s.IoHeld
    · exact ⟨true, iff_of_true rfl hio⟩
    · exact ⟨false, iff_of_false Bool.false_ne_true hio⟩
  have hread := hnone held hheld
  simp only [H2.read, hbuf] at hread
  split at hread
  · split at hread <;> cases hread
  · cases hread
  · split at hread
    · cases hread
    · next hended => exact Bool.eq_false_iff.mpr hended

/-- Everything waits: the actor for a command, unless it has left, the others for the remote. -/
structure System.Waiting (s : System D) : Prop where
  pc : s.net.pc = .receiving
  queue : s.net.queue = []
  held : s.exited = true ∨ s.CmdHeld
  receiving : s.feeder = .receiving → s.wire.recvIp = none
  sending : ∀ pkt, s.feeder ≠ .sending pkt
  h3 : ∀ w, s.wire = .h3 w → w.drive s.tunnel = none ∧ w.watch = none
  h2 : ∀ w, s.wire = .h2 w → w.drive = none ∧
    ∀ held, (held = true ↔ s.IoHeld) → w.read held = none ∧ w.write held = none

/-- The actor, in `recv_timeout` on an empty queue. -/
theorem actor_waits {n : Netstack.System D} (hpc : n.pc = .receiving) (hqueue : n.queue = [])
    {l : Netstack.Label} (hown : Label.Own (.net l)) : n.step l = none := by
  cases l with
  | poll | service | dns | drained | recv =>
      simp [Netstack.System.step, Netstack.System.stepActor, Netstack.System.stepAsync, hpc, hqueue]
  | _ => exact absurd hown id

theorem System.Waiting.quiescent (h : s.Waiting) : s.Quiescent := by
  intro l t hown hstep
  cases hstep with
  | poll _ hn | actor _ _ hn | call _ _ hn | owner _ hn =>
      rw [actor_waits h.pc h.queue hown] at hn
      cases hn
  | timeout => exact hown
  | exit hexited _ _ hheld =>
      rcases h.held with hleft | hheld'
      · cases hexited.symm.trans hleft
      · exact hheld hheld'
  | feederRecv hf hr | feederFailed hf hr =>
      rw [h.receiving hf] at hr
      cases hr
  | feederSend hf | feederGone hf => exact h.sending _ hf
  | h3Driver hw hd => cases (h.h3 _ hw).1.symm.trans hd
  | h3Watcher hw hd => cases (h.h3 _ hw).2.symm.trans hd
  | h2Driver hw hd => cases (h.h2 _ hw).1.symm.trans hd
  | reader hw hheld hd => cases ((h.h2 _ hw).2 _ hheld).1.symm.trans hd
  | writer hw hheld hd => cases ((h.h2 _ hw).2 _ hheld).2.symm.trans hd
  | cloneHandle | dropHandle | dropTunnel | remote => exact hown

/-! ## Death and the feeder -/

/-- The CONNECT stream of HTTP/2 has ended or failed, and the connection task keeps running. -/
def System.StreamLost (s : System D) : Prop :=
  ∃ w, s.wire = .h2 w ∧ w.recvEnded = true ∧ w.driver = true

theorem Inv.failed_unnoticed (hi : Inv s) (h : s.Quiescent) :
    (s.feeder = .stopped true ∧ s.dead = false) ↔ s.StreamLost := by
  constructor
  · rintro ⟨hf, hdead⟩
    cases hw : s.wire with
    | h3 w =>
        -- the connection is closed, so the watcher has signalled
        have hwatch := Quiescent.h3_watcher h hw
        have hclosed : w.closed = true := (hi.h3 hw).failed hf
        simp only [H3.watch, hclosed, and_true] at hwatch
        split at hwatch
        · cases hwatch
        · next hended =>
            have hsignalled := (hi.h3 hw).watcher (Bool.eq_false_iff.mpr hended)
            rw [hdead] at hsignalled
            cases hsignalled
    | h2 w =>
        have hsound := hi.h2 hw
        refine ⟨w, hw, hsound.reader (hsound.failed hf), ?_⟩
        by_contra hdriver
        have hsignalled := hsound.dead.mp (Bool.eq_false_iff.mpr hdriver)
        rw [hdead] at hsignalled
        cases hsignalled
  · rintro ⟨w, hw, hended, hdriver⟩
    have hdead : s.dead = false := by
      refine Bool.eq_false_iff.mpr fun hd => ?_
      rw [(hi.h2 hw).dead.mpr hd] at hdriver
      cases hdriver
    have hreader : w.reader = none := by
      cases hbuf : w.reader with
      | none => rfl
      | some buf =>
          rw [Quiescent.reader h hw hbuf] at hended
          cases hended
    refine ⟨?_, hdead⟩
    cases hf : s.feeder with
    | receiving =>
        -- the packets are drained, then `recv_ip` fails
        have hwait := Quiescent.receiving h hf
        rw [hw, Wire.recvIp] at hwait
        split at hwait
        · cases hwait
        · rw [hreader] at hwait
          cases hwait
    | sending pkt => exact absurd hf (Quiescent.not_sending h)
    | stopped failed =>
        cases failed with
        | true => rfl
        | false => exact absurd hf hi.gone

/-! ## Where the stream ends only with the connection -/

/-- The remote does not end the HTTP/2 CONNECT stream while it keeps the connection. -/
def Whole (s : System D) (l : Label) : Prop :=
  ∀ r, l = .remote r → ∀ w, s.wire = .h2 w → r = .finish ∨ r = .reset → w.connOpen = false

/-- The CONNECT stream has ended with the connection only. -/
def Wire.WithConnection : Wire → Prop
  | .h3 _ => True
  | .h2 w => w.recvEnded = true → w.connOpen = false

namespace Wire.WithConnection

theorem sendAll (pkts : List (List UInt8)) {wire : Wire} (h : wire.WithConnection) :
    (pkts.foldl Wire.sendIp wire).WithConnection := by
  induction pkts generalizing wire with
  | nil => exact h
  | cons pkt pkts ih =>
      refine ih ?_
      cases wire with
      | h3 w => exact trivial
      | h2 w => exact h

theorem recvIp {wire wire' : Wire} {r : Except Error (List UInt8)} (h : wire.WithConnection)
    (hr : wire.recvIp = some (r, wire')) : wire'.WithConnection := by
  cases wire with
  | h3 w =>
      rw [Wire.recvIp] at hr
      split at hr
      · cases hr
        exact trivial
      · cases hr
  | h2 w =>
      rw [Wire.recvIp] at hr
      split at hr
      · cases hr
        exact h
      · split at hr
        · cases hr
        · cases hr
          exact h

/-- The reader and the writer leave both alone. -/
theorem read {w w' : H2} {held : Bool} (h : (Wire.h2 w).WithConnection)
    (hr : w.read held = some w') : (Wire.h2 w').WithConnection := by
  rw [H2.read] at hr
  split at hr
  · cases hr
  · split at hr
    · split at hr <;> cases hr <;> exact h
    · cases hr
      exact h
    · split at hr
      · cases hr
        exact h
      · cases hr

theorem write {w w' : H2} {held : Bool} (h : (Wire.h2 w).WithConnection)
    (hw : w.write held = some w') : (Wire.h2 w').WithConnection := by
  rw [H2.write] at hw
  split at hw
  · split at hw
    · dsimp only at hw
      split at hw
      · cases hw
        exact h
      · split at hw
        · cases hw
          exact h
        · cases hw
    · split at hw
      · cases hw
      · cases hw
        exact h
  · cases hw

theorem drive {w w' : H2} (hd : w.drive = some w') : (Wire.h2 w').WithConnection := by
  rw [H2.drive] at hd
  split at hd
  · cases hd
    exact fun _ => rfl
  · cases hd

theorem remote {wire wire' : Wire} {r : Remote} (h : wire.WithConnection)
    (hwhole : ∀ w, wire = .h2 w → r = .finish ∨ r = .reset → w.connOpen = false)
    (hr : wire.remote r = some wire') : wire'.WithConnection := by
  cases wire with
  | h3 w =>
      cases r with
      | datagram dg =>
          rw [Wire.remote] at hr
          split at hr <;> cases hr
          exact trivial
      | finish | reset | close =>
          cases hr
          exact trivial
      | data | window => cases hr
  | h2 w =>
      cases r with
      | datagram => cases hr
      | data chunk =>
          rw [Wire.remote] at hr
          split at hr <;> cases hr
          exact h
      | window n =>
          cases hr
          exact h
      | finish =>
          cases hr
          exact fun _ => hwhole w rfl (.inl rfl)
      | reset =>
          cases hr
          exact fun _ => hwhole w rfl (.inr rfl)
      | close =>
          cases hr
          exact fun _ => rfl

end Wire.WithConnection

theorem Step.withConnection {t : System D} {l : Label} (h : Step s l t) (hl : Whole s l)
    (hs : s.wire.WithConnection) : t.wire.WithConnection := by
  cases h with
  | @poll now _ => exact hs.sendAll (s.polled now)
  | feederRecv _ hr | feederFailed _ hr => exact hs.recvIp hr
  | h3Driver | h3Watcher => exact trivial
  | h2Driver _ hd => exact .drive hd
  | reader hw _ hd =>
      rw [hw] at hs
      exact hs.read hd
  | writer hw _ hd =>
      rw [hw] at hs
      exact hs.write hd
  | @remote r _ hr => exact hs.remote (hl r rfl) hr
  | _ => exact hs

/-- Then, when nothing can go on, it has not ended alone. -/
theorem Quiescent.not_streamLost (h : s.Quiescent) (hs : s.wire.WithConnection) :
    ¬ s.StreamLost := by
  rintro ⟨w, hw, hended, hdriver⟩
  have hconn : w.connOpen = false := by
    rw [hw] at hs
    exact hs hended
  have hwait := Quiescent.h2_driver h hw
  rw [H2.drive, if_pos ⟨hdriver, .inl hconn⟩] at hwait
  cases hwait

/-! ## A toy netstack under a fresh tunnel -/

/-- The actor has made its first pass. -/
theorem first_pass {wire : Wire} (h : wire.Fresh) :
    ∃ n : Netstack.System Deps.toy, n.pc = .receiving ∧ n.queue = [] ∧
      n.endpoints = (fun _ => .none) ∧ n.resolvers = (fun _ => false) ∧
      Transition.Reachable (Transition.guarded Step Whole) Init
        ⟨n, false, true, 1, .receiving, wire, false⟩ := by
  have h₀ : Transition.Reachable (Transition.guarded Step Whole) Init
      ⟨.init Deps.toy 1280 0 none, false, true, 1, .receiving, wire, false⟩ :=
    .init ⟨_, _, _, wire, h, rfl⟩
  have h₁ := h₀.tail (l := .net (.poll 0)) ⟨.poll rfl rfl, nofun⟩
  have h₂ := h₁.tail ⟨.actor (l := .service []) trivial rfl rfl, nofun⟩
  have h₃ := h₂.tail ⟨.actor (l := .dns) trivial rfl rfl, nofun⟩
  exact ⟨_, rfl, rfl, rfl, rfl, h₃⟩

/-- Transports that have just been connected. -/
def H2.connected : H2 := ⟨true, true, [], false, true, 0, [], true, [], some []⟩

def H3.connected : H3 := ⟨⟨⟨some 1200, [], [], none, fun _ => .ok ()⟩, 0⟩, true, true, false⟩

theorem H3.connected_fresh : (Wire.h3 H3.connected).Fresh := ⟨rfl, rfl, rfl⟩

theorem H2.connected_fresh : (Wire.h2 H2.connected).Fresh :=
  ⟨rfl, rfl, rfl, rfl, rfl, rfl, rfl, rfl, rfl⟩

end

end WarpProxy.Tasks
