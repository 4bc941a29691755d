/-
# `WarpProxy.Tasks.System` — one tunnel and all that runs on it

`netstack::spawn` starts the feeder and the actor; the pool holds the `Tunnel` and hands
out `NetHandle`s; the transport has tasks of its own.  They hold each other's channel
ends: the feeder has a sender of the actor's queue and a `TunnelIo`, the actor has a
`TunnelIo`, the transport's tasks have the other ends.  `CmdHeld` and `IoHeld` say who
holds what, and a task that waits on a channel goes on when the last of them is gone.

The netstack is `Netstack.System`, step by step (`Reachable.netstack`).  What the actor
adds to it here is the end of its loop, when `recv_timeout` finds no sender left.
-/
import WarpProxy.Netstack.System
import WarpProxy.Tasks.Wire

namespace WarpProxy

open Netstack (Deps Endpoint)

namespace Tasks

/-- The feeder of `netstack::spawn`. -/
inductive Feeder where
  /-- in `recv_ip` -/
  | receiving
  /-- before `feeder_cmd.send` -/
  | sending (pkt : List UInt8)
  /-- out of its loop: `recv_ip` has failed, or the actor had gone -/
  | stopped (failed : Bool)
  deriving DecidableEq

/-- `exited`: the actor has left its loop.  `tunnel`: the `Tunnel` is there, with what it keeps
alive.  `handles` counts the `NetHandle`s.  `dead` is the watch value. -/
structure System (D : Deps) where
  net : Netstack.System D
  exited : Bool
  tunnel : Bool
  handles : Nat
  feeder : Feeder
  wire : Wire
  dead : Bool

/-- Whose step it is. -/
inductive Label where
  /-- the actor, or a caller or owner of a connection -/
  | net (l : Netstack.Label)
  | exit
  | feeder
  /-- the h3 driver, or the HTTP/2 connection task -/
  | driver
  | watcher
  | reader
  | writer
  | cloneHandle
  | dropHandle
  | dropTunnel
  | remote (r : Remote)

section
variable {D : Deps}

/-- The `TcpConn`, its writer, or the future of the connect holds a sender of the queue. -/
def holdsCmd : Endpoint → Bool
  | .awaiting | .conn _ | .split _ (some _) => true
  | .none | .split _ none => false

namespace System
variable (s : System D)

def ActorRuns : Prop := s.exited = false ∧ s.net.pc ≠ .panicked

def FeederRuns : Prop := ∀ failed, s.feeder ≠ .stopped failed

/-- A sender of the actor's queue is left. -/
def CmdHeld : Prop :=
  0 < s.handles ∨ s.FeederRuns ∨ (∃ c, holdsCmd (s.net.endpoints c) = true) ∨
    ∃ r, s.net.resolvers r = true

/-- A `TunnelIo` is left. -/
def IoHeld : Prop := s.tunnel = true ∨ s.FeederRuns ∨ s.ActorRuns

/-- The packets of a poll, which the actor then sends. -/
def polled (now : Int) : List (List UInt8) :=
  (D.poll now s.net.world.actor.iface s.net.world.actor.device s.net.world.actor.sockets).2.1.tx

end System

/-- The steps of the actor's loop that neither send to the tunnel nor wait for time to pass. -/
def ofActor : Netstack.Label → Prop
  | .service _ | .dns | .recv | .drained => True
  | _ => False

/-- The calls on a `NetHandle`. -/
def ofHandle : Netstack.Label → Prop
  | .connect _ | .resolve _ => True
  | _ => False

/-- What the owners of connections do, and the futures of calls. -/
def ofOwner : Netstack.Label → Prop
  | .connected _ | .failed _ | .cancel _ | .send _ _ | .close _ | .split _ | .read _
  | .pollRead _ _ | .dropConn _ | .dropReader _ | .dropWriter _ | .resolved _ => True
  | _ => False

inductive Step (s : System D) : Label → System D → Prop
  | poll {now : Int} {n : Netstack.System D} : s.exited = false →
      s.net.step (.poll now) = some n →
      Step s (.net (.poll now))
        { s with net := n, wire := (s.polled now).foldl Wire.sendIp s.wire }
  | actor {l : Netstack.Label} {n : Netstack.System D} : ofActor l → s.exited = false →
      s.net.step l = some n → Step s (.net l) { s with net := n }
  /-- `recv_timeout` has waited, and a sender is left -/
  | timeout {n : Netstack.System D} : s.exited = false → s.CmdHeld →
      s.net.step .timeout = some n → Step s (.net .timeout) { s with net := n }
  /-- `recv_timeout` finds the queue empty and no sender left -/
  | exit : s.exited = false → s.net.pc = .receiving → s.net.queue = [] → ¬ s.CmdHeld →
      Step s .exit { s with exited := true }
  | call {l : Netstack.Label} {n : Netstack.System D} : ofHandle l → 0 < s.handles →
      s.net.step l = some n → Step s (.net l) { s with net := n }
  | owner {l : Netstack.Label} {n : Netstack.System D} : ofOwner l →
      s.net.step l = some n → Step s (.net l) { s with net := n }
  | feederRecv {pkt : List UInt8} {wire : Wire} : s.feeder = .receiving →
      s.wire.recvIp = some (.ok pkt, wire) →
      Step s .feeder { s with feeder := .sending pkt, wire := wire }
  | feederFailed {e : Error} {wire : Wire} : s.feeder = .receiving →
      s.wire.recvIp = some (.error e, wire) →
      Step s .feeder { s with feeder := .stopped true, wire := wire }
  | feederSend {pkt : List UInt8} {n : Netstack.System D} : s.feeder = .sending pkt →
      s.ActorRuns → s.net.step (.inbound pkt) = some n →
      Step s .feeder { s with net := n, feeder := .receiving }
  | feederGone {pkt : List UInt8} : s.feeder = .sending pkt → ¬ s.ActorRuns →
      Step s .feeder { s with feeder := .stopped false }
  | h3Driver {w w' : H3} : s.wire = .h3 w → w.drive s.tunnel = some w' →
      Step s .driver { s with wire := .h3 w' }
  | h3Watcher {w w' : H3} : s.wire = .h3 w → w.watch = some w' →
      Step s .watcher { s with wire := .h3 w', dead := true }
  | h2Driver {w w' : H2} : s.wire = .h2 w → w.drive = some w' →
      Step s .driver { s with wire := .h2 w', dead := true }
  | reader {w w' : H2} {held : Bool} : s.wire = .h2 w → (held = true ↔ s.IoHeld) →
      w.read held = some w' → Step s .reader { s with wire := .h2 w' }
  | writer {w w' : H2} {held : Bool} : s.wire = .h2 w → (held = true ↔ s.IoHeld) →
      w.write held = some w' → Step s .writer { s with wire := .h2 w' }
  | cloneHandle : 0 < s.handles → Step s .cloneHandle { s with handles := s.handles + 1 }
  | dropHandle : 0 < s.handles → Step s .dropHandle { s with handles := s.handles - 1 }
  | dropTunnel : Step s .dropTunnel { s with tunnel := false }
  | remote {r : Remote} {wire : Wire} : s.wire.remote r = some wire →
      Step s (.remote r) { s with wire := wire }

/-- The steps of the program's own tasks.  A wait of the actor that runs out is not one: it
takes time, and nothing else. -/
def Label.Own : Label → Prop
  | .net (.poll _) | .net (.service _) | .net .dns | .net .recv | .net .drained => True
  | .exit | .feeder | .driver | .watcher | .reader | .writer => True
  | _ => False

/-- Just after `netstack::spawn` on a fresh tunnel. -/
def Init (s : System D) : Prop :=
  ∃ mtu v4 v6 wire, wire.Fresh ∧
    s = ⟨.init D mtu v4 v6, false, true, 1, .receiving, wire, false⟩

abbrev Reachable (s : System D) : Prop := Transition.Reachable Step Init s

def System.Quiescent (s : System D) : Prop := Transition.Quiescent Step Label.Own s

/-! ## The netstack in it -/

/-- **The tasks run the netstack**: each step leaves it or is a step of its own. -/
theorem Step.netstack {s t : System D} {l : Label} (h : Step s l t) :
    t.net = s.net ∨ ∃ l', Netstack.Step s.net l' t.net := by
  cases h with
  | poll _ hn | actor _ _ hn | timeout _ _ hn | call _ _ hn | owner _ hn =>
      exact .inr ⟨_, hn⟩
  | feederSend _ _ hn => exact .inr ⟨_, hn⟩
  | _ => exact .inl rfl

theorem Reachable.netstack {s : System D} (h : Reachable s) : Netstack.Reachable s.net := by
  refine h.invariant (fun s => Netstack.Reachable s.net) ?_ ?_
  · rintro s ⟨mtu, v4, v6, wire, -, rfl⟩
    exact .init ⟨mtu, v4, v6, rfl⟩
  · intro s l t hs hstep
    rcases hstep.netstack with hsame | ⟨l', hn⟩
    · exact hsame ▸ hs
    · exact hs.tail hn

end

end Tasks

end WarpProxy
