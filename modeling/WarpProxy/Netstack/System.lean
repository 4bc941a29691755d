/-
# `WarpProxy.Netstack.System` — the actor, its queue and the endpoints

The actor thread runs the loop of `Actor::run` (`Pc`); everything else talks to
it over one unbounded command queue: the feeder, the callers of
`NetHandle::connect` and `resolve`, and the `TcpConn`s and halves that connects
give rise to.  `System.step` is what each of them can do next; any order of
labels that it accepts is a run.

A pass over the sockets is one step, and so is each command handled.
-/
import WarpProxy.Lib.Transition
import WarpProxy.Netstack.Actor

namespace WarpProxy.Netstack

/-! ## Endpoints -/

/-- What a read returns. -/
inductive ReadPoll where
  | ready (bytes : List UInt8)
  | eof
  | pending
  deriving DecidableEq

/-- `recv` on the receiver. -/
def Chan.recv (ch : Chan) : ReadPoll × Chan :=
  match ch.queue with
  | v :: queue => (.ready v, { ch with queue := queue })
  | [] => if ch.tx then (.pending, ch) else (.eof, ch)

structure TcpConn where
  handle : Handle
  readBuf : List UInt8
  readPos : Nat
  deriving DecidableEq

/-- Copy what fits into a buffer with room for `n`. -/
def TcpConn.copy (conn : TcpConn) (n : Nat) : List UInt8 × TcpConn :=
  let m := min n (conn.readBuf.length - conn.readPos)
  ((conn.readBuf.drop conn.readPos).take m, { conn with readPos := conn.readPos + m })

/-- `poll_read` into a buffer with room for `n`. -/
def TcpConn.pollRead (conn : TcpConn) (ch : Chan) (n : Nat) : ReadPoll × TcpConn × Chan :=
  if conn.readBuf.length ≤ conn.readPos then
    match ch.recv with
    | (.ready v, ch) =>
        let copied := { conn with readBuf := v, readPos := 0 }.copy n
        (.ready copied.1, copied.2, ch)
    | (.eof, ch) => (.eof, conn, ch)
    | (.pending, ch) => (.pending, conn, ch)
  else
    let copied := conn.copy n
    (.ready copied.1, copied.2, ch)

/-- What there is of a connect: the future, then the `TcpConn`, then its halves. -/
inductive Endpoint where
  /-- not called yet, or nothing is left of it -/
  | none
  | awaiting
  | conn (tcp : TcpConn)
  | split (reader : Bool) (writer : Option Handle)
  deriving DecidableEq

/-- The handle a `TcpConn` or a `TcpWriter` carries. -/
def Endpoint.handle : Endpoint → Option Handle
  | .conn tcp => some tcp.handle
  | .split _ writer => writer
  | _ => Option.none

/-! ## The system -/

/-- Where the actor is in its loop. -/
inductive Pc where
  /-- before `iface.poll` -/
  | polling
  /-- before `service_sockets` -/
  | servicing
  /-- before `service_dns` -/
  | resolving
  /-- in `recv_timeout` -/
  | receiving
  /-- before the next `try_recv` -/
  | draining
  | panicked
  deriving DecidableEq

structure System (D : Deps) where
  world : World D
  pc : Pc
  queue : List Cmd
  endpoints : ConnId → Endpoint
  resolvers : ResolveId → Bool
  nextConn : ConnId
  nextResolve : ResolveId

inductive Label where
  | poll (now : Int)
  | service (order : List (Handle × List Nat))
  | dns
  | timeout
  /-- the next command, from `recv_timeout` or `try_recv` -/
  | recv
  /-- `try_recv` finds the queue empty -/
  | drained
  | inbound (pkt : List UInt8)
  | connect (remote : SocketAddr)
  /-- the connect returns a `TcpConn` -/
  | connected (c : ConnId)
  /-- the connect returns an error -/
  | failed (c : ConnId)
  /-- the future of the connect is dropped -/
  | cancel (c : ConnId)
  | send (c : ConnId) (data : List UInt8)
  | close (c : ConnId)
  | split (c : ConnId)
  | read (c : ConnId)
  | pollRead (c : ConnId) (n : Nat)
  /-- the unsplit `TcpConn` is dropped -/
  | dropConn (c : ConnId)
  | dropReader (c : ConnId)
  | dropWriter (c : ConnId)
  | resolve (name : String)
  /-- the resolve returns, or its future is dropped -/
  | resolved (r : ResolveId)

section
variable {D : Deps}

namespace World
variable (w : World D)

/-- `NetHandle::connect` makes the channel and the oneshot of `c`. -/
def openConn (c : ConnId) : World D :=
  { w with
    chans := Function.update w.chans c .new
    replies := Function.update w.replies c .new }

/-- The receiver of the channel of `c` is dropped. -/
def dropChanRx (c : ConnId) : World D :=
  { w with chans := Function.update w.chans c { w.chans c with rx := false } }

/-- The receiver of the oneshot of `c` is dropped, or has given its value. -/
def dropReplyRx (c : ConnId) : World D :=
  { w with replies := Function.update w.replies c { w.replies c with rx := false } }

end World

namespace System
variable (s : System D)

def enqueue (cmd : Cmd) : System D := { s with queue := s.queue ++ [cmd] }

def setEndpoint (c : ConnId) (e : Endpoint) : System D :=
  { s with endpoints := Function.update s.endpoints c e }

/-- The actor goes on at `pc`, or has panicked. -/
def resume (pc : Pc) : Option (World D) → System D
  | some w => { s with world := w, pc := pc }
  | none => { s with pc := .panicked }

/-- The actor's own steps. -/
def stepActor : Label → Option (System D)
  | .poll now => if s.pc = .polling then some (s.resume .servicing (s.world.poll now)) else none
  | .service order =>
      if s.pc = .servicing ∧ (order.map Prod.fst).Perm s.world.actor.conns.keys then
        some (s.resume .resolving (s.world.serviceSockets order))
      else none
  | .dns => if s.pc = .resolving then some (s.resume .receiving s.world.serviceDns) else none
  | .timeout =>
      if s.pc = .receiving ∧ s.queue = [] then some { s with pc := .polling } else none
  | .recv =>
      match s.queue with
      | cmd :: queue =>
          if s.pc = .receiving ∨ s.pc = .draining then
            some ({ s with queue := queue }.resume .draining (s.world.handleCmd cmd))
          else none
      | [] => none
  | .drained =>
      if s.pc = .draining ∧ s.queue = [] then some { s with pc := .polling } else none
  | _ => none

/-- The steps of the async side. -/
def stepAsync : Label → Option (System D)
  | .inbound pkt => some (s.enqueue (.inbound pkt))
  | .connect remote =>
      let c := s.nextConn
      some ({ s with world := s.world.openConn c, nextConn := c + 1 }.setEndpoint c
        .awaiting |>.enqueue (.connect remote c))
  | .connected c =>
      match s.endpoints c, (s.world.replies c).value with
      | .awaiting, some (.ok h) =>
          some ({ s with world := s.world.dropReplyRx c }.setEndpoint c (.conn ⟨h, [], 0⟩))
      | _, _ => none
  | .failed c =>
      match s.endpoints c, (s.world.replies c).value with
      | .awaiting, some (.error _) =>
          some ({ s with world := (s.world.dropReplyRx c).dropChanRx c }.setEndpoint c .none)
      | .awaiting, none =>
          if (s.world.replies c).tx then none
          else some ({ s with world := (s.world.dropReplyRx c).dropChanRx c }.setEndpoint c .none)
      | _, _ => none
  | .cancel c =>
      if s.endpoints c = .awaiting then
        some ({ s with world := (s.world.dropReplyRx c).dropChanRx c }.setEndpoint c .none)
      else none
  | .send c data =>
      match (s.endpoints c).handle with
      | some h => some (s.enqueue (.send h data c))
      | none => none
  | .close c =>
      match (s.endpoints c).handle with
      | some h => some (s.enqueue (.close h c))
      | none => none
  | .split c =>
      match s.endpoints c with
      | .conn conn => some (s.setEndpoint c (.split true (some conn.handle)))
      | _ => none
  | .read c =>
      let ch := { s with world := { s.world with
        chans := Function.update s.world.chans c (s.world.chans c).recv.2 } }
      match s.endpoints c with
      | .conn _ | .split true _ => some ch
      | _ => none
  | .pollRead c n =>
      match s.endpoints c with
      | .conn conn =>
          let r := conn.pollRead (s.world.chans c) n
          some ({ s with world := { s.world with
            chans := Function.update s.world.chans c r.2.2 } }.setEndpoint c (.conn r.2.1))
      | _ => none
  | .dropConn c =>
      match s.endpoints c with
      | .conn _ => some ({ s with world := s.world.dropChanRx c }.setEndpoint c .none)
      | _ => none
  | .dropReader c =>
      match s.endpoints c with
      | .split true writer =>
          some ({ s with world := s.world.dropChanRx c }.setEndpoint c (.split false writer))
      | _ => none
  | .dropWriter c =>
      match s.endpoints c with
      | .split reader (some h) =>
          some ((s.setEndpoint c (.split reader none)).enqueue (.close h c))
      | _ => none
  | .resolve name =>
      let r := s.nextResolve
      some ({ s with
        world := { s.world with answers := Function.update s.world.answers r .new }
        resolvers := Function.update s.resolvers r true
        nextResolve := r + 1 }.enqueue (.resolve name r))
  | .resolved r =>
      let o := s.world.answers r
      if s.resolvers r then
        some { s with
          world := { s.world with
            answers := Function.update s.world.answers r { o with rx := false } }
          resolvers := Function.update s.resolvers r false }
      else none
  | _ => none

def step (l : Label) : Option (System D) := (s.stepActor l).or (s.stepAsync l)

/-- `netstack::spawn` -/
def init (D : Deps) (mtu : Nat) (v4 : Ipv4Addr) (v6 : Option Ipv6Addr) : System D where
  world :=
    { actor := .new D mtu v4 v6
      chans := fun _ => .new
      replies := fun _ => .new
      answers := fun _ => .new
      log := []
      connects := 0 }
  pc := .polling
  queue := []
  endpoints := fun _ => .none
  resolvers := fun _ => false
  nextConn := 0
  nextResolve := 0

/-- The state after the labels, if each of them can happen. -/
def run : System D → List Label → Option (System D)
  | s, [] => some s
  | s, l :: ls =>
      match s.step l with
      | some s => s.run ls
      | none => none

end System

def Step (s : System D) (l : Label) (t : System D) : Prop := s.step l = some t

/-- The state `netstack::spawn` leaves. -/
def Init (s : System D) : Prop := ∃ mtu v4 v6, s = .init D mtu v4 v6

abbrev Reachable (s : System D) : Prop := Transition.Reachable Step Init s

end

end WarpProxy.Netstack
