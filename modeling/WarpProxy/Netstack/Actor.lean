/-
# `WarpProxy.Netstack.Actor` — the smoltcp actor

The actor thread of `netstack.rs`: its tables, the commands it handles and the
two service passes.  Each function is the source's, from the world it runs in to
the world it leaves; `none` is a panic.

The world is the actor with the ends of the channels it holds.  A connect is
named by a `ConnId`, which stands for the byte channel and for the oneshot it
came with; a resolve by a `ResolveId`.  `World.log` and the last three fields of
`Conn` record what happened; the actor never looks at them.

`service_sockets` runs over the keys of a hash map and flushes a ring buffer one
slice at a time: the order of the keys and the places where the slices end are
arguments.
-/
import Mathlib.Data.List.AList
import Mathlib.Logic.Function.Basic
import WarpProxy.Netstack.Deps

namespace WarpProxy.Netstack

def sockBuf : Nat := 64 * 1024

def recvChunk : Nat := 8 * 1024

def chanDepth : Nat := 64

/-- Which call of `NetHandle::connect`. -/
abbrev ConnId := Nat

/-- Which call of `NetHandle::resolve`. -/
abbrev ResolveId := Nat

/-! ## Channels -/

/-- A byte channel: the chunks in it, and whether its two ends are there. -/
structure Chan where
  queue : List (List UInt8)
  tx : Bool
  rx : Bool
  deriving DecidableEq

def Chan.new : Chan := ⟨[], true, true⟩

/-- `try_reserve` gives a permit. -/
def Chan.reservable (ch : Chan) : Bool := ch.rx && ch.queue.length < chanDepth

structure Oneshot (α : Type) where
  value : Option (Except String α)
  tx : Bool
  rx : Bool

def Oneshot.new {α : Type} : Oneshot α := ⟨none, true, true⟩

/-- Sending uses up the sender; without a receiver the value is lost. -/
def Oneshot.send {α : Type} (o : Oneshot α) (r : Except String α) : Oneshot α :=
  { o with value := if o.rx then some r else none, tx := false }

/-! ## The actor's tables -/

/-- `connectReply`: whether `connect_reply` is still `Some`.  `remote`, `localPort` and
`serial` record the connect: its endpoints and how many came before it. -/
structure Conn where
  fromNet : ConnId
  outBuf : List UInt8
  connectReply : Bool
  closing : Bool
  remote : SocketAddr
  localPort : UInt16
  serial : Nat
  deriving DecidableEq

structure PendingDns (D : Deps) where
  query : D.Query
  reply : ResolveId

structure Actor (D : Deps) where
  iface : D.Iface
  device : TunDevice
  sockets : D.SocketSet
  nextPort : UInt16
  conns : AList fun _ : Handle => Conn
  dnsHandle : Handle
  dnsPending : List (PendingDns D)

/-- What happened to a connection; `origin` is the endpoint that issued the command. -/
inductive Event where
  /-- a `Send` appended its data to `out_buf` -/
  | sent (c origin : ConnId) (data : List UInt8)
  /-- a `Close` set `closing` -/
  | closed (c origin : ConnId)
  /-- the socket took bytes of `out_buf` -/
  | accepted (c : ConnId) (data : List UInt8)
  /-- `sock.close()` was called -/
  | fin (c : ConnId)
  /-- bytes of the socket went into the channel -/
  | taken (c : ConnId) (data : List UInt8)
  /-- the reply to the connect -/
  | replied (c : ConnId) (ok : Bool)
  /-- the entry was removed -/
  | removed (c : ConnId)
  deriving DecidableEq

structure World (D : Deps) where
  actor : Actor D
  chans : ConnId → Chan
  replies : ConnId → Oneshot Handle
  answers : ResolveId → Oneshot IpAddr
  log : List Event
  connects : Nat

inductive Cmd where
  | inbound (pkt : List UInt8)
  | connect (remote : SocketAddr) (c : ConnId)
  | send (handle : Handle) (data : List UInt8) (origin : ConnId)
  | close (handle : Handle) (origin : ConnId)
  | resolve (name : String) (r : ResolveId)
  deriving DecidableEq

section
variable {D : Deps}

def Deps.removeSlot (D : Deps) (s : D.SocketSet) (h : Handle) : Option D.SocketSet :=
  match D.get s h with
  | some _ => some (D.remove s h)
  | none => none

/-- `Actor::new` -/
def Actor.new (D : Deps) (mtu : Nat) (v4 : Ipv4Addr) (v6 : Option Ipv6Addr) : Actor D :=
  let servers := [IpAddr.v4 0x01010101]
  let slot := D.add D.newSet (.inr (D.newDns servers))
  { iface := D.newIface v4 v6
    device := ⟨[], [], mtu⟩
    sockets := slot.2
    nextPort := 49152
    conns := ∅
    dnsHandle := slot.1
    dnsPending := [] }

/-- The port given out, and the actor after it. -/
def Actor.nextEphemeralPort (a : Actor D) : UInt16 × Actor D :=
  (a.nextPort,
    { a with nextPort := if a.nextPort = 65535 then 49152 else a.nextPort + 1 })

namespace World
variable (w : World D)

def record (e : Event) : World D := { w with log := w.log ++ [e] }

/-- The actor drops its sender of the channel of `c`. -/
def dropFromNet (c : ConnId) : World D :=
  { w with chans := Function.update w.chans c { w.chans c with tx := false } }

/-- A reply to the connect `c`. -/
def reply (c : ConnId) (r : Except String Handle) : World D :=
  { w with replies := Function.update w.replies c ((w.replies c).send r) }

/-- An answer to the resolve `r`. -/
def answer (r : ResolveId) (res : Except String IpAddr) : World D :=
  { w with answers := Function.update w.answers r ((w.answers r).send res) }

/-- A `Conn` goes out of scope, with its sender and its pending reply. -/
def dropConn (conn : Conn) : World D :=
  let w := w.dropFromNet conn.fromNet
  let o := w.replies conn.fromNet
  if conn.connectReply then
    { w with replies := Function.update w.replies conn.fromNet { o with tx := false } }
  else w

/-- `conns.insert(h, conn)`; a `Conn` that was there is dropped. -/
def insertConn (h : Handle) (conn : Conn) : World D :=
  let w := match w.actor.conns.lookup h with
    | some old => w.dropConn old
    | none => w
  { w with actor := { w.actor with conns := w.actor.conns.insert h conn } }

/-- What a `get_mut` of `conns` leaves in the table. -/
def setConn (h : Handle) (conn : Conn) : World D :=
  { w with actor := { w.actor with conns := w.actor.conns.insert h conn } }

def setSocket (h : Handle) (sock : D.Tcp) : World D :=
  { w with actor := { w.actor with sockets := D.set w.actor.sockets h (.inl sock) } }

/-! ## Commands -/

def handleConnect (remote : SocketAddr) (c : ConnId) : Option (World D) :=
  let slot := D.add w.actor.sockets (.inl (D.newTcp sockBuf sockBuf))
  let h := slot.1
  let port := w.actor.nextEphemeralPort
  match D.tcp slot.2 h with
  | none => none
  | some sock =>
      match D.connect w.actor.iface sock remote port.1 with
      | (iface, .ok sock) =>
          let actor := { port.2 with iface := iface, sockets := D.set slot.2 h (.inl sock) }
          some ({ w with actor := actor, connects := w.connects + 1 }.insertConn h
            { fromNet := c, outBuf := [], connectReply := true, closing := false,
              remote := remote, localPort := port.1, serial := w.connects })
      | (iface, .error e) =>
          match D.removeSlot slot.2 h with
          | none => none
          | some sockets =>
              let actor := { port.2 with iface := iface, sockets := sockets }
              some ((({ w with actor := actor, connects := w.connects + 1 }.reply c
                (.error ("connect: " ++ e))).dropFromNet c).record (.replied c false))

def handleSend (h : Handle) (data : List UInt8) (origin : ConnId) : World D :=
  match w.actor.conns.lookup h with
  | some conn =>
      (w.setConn h { conn with outBuf := conn.outBuf ++ data }).record
        (.sent conn.fromNet origin data)
  | none => w

def handleClose (h : Handle) (origin : ConnId) : World D :=
  match w.actor.conns.lookup h with
  | some conn => (w.setConn h { conn with closing := true }).record (.closed conn.fromNet origin)
  | none => w

def handleResolve (name : String) (r : ResolveId) : Option (World D) :=
  match D.parseIp name with
  | some ip => some (w.answer r (.ok ip))
  | none =>
      match D.dns w.actor.sockets w.actor.dnsHandle with
      | none => none
      | some dns =>
          match D.startQuery w.actor.iface dns name with
          | (iface, .ok (query, dns)) =>
              some { w with actor := { w.actor with
                iface := iface
                sockets := D.set w.actor.sockets w.actor.dnsHandle (.inr dns)
                dnsPending := w.actor.dnsPending ++ [⟨query, r⟩] } }
          | (iface, .error e) =>
              some ({ w with actor := { w.actor with iface := iface } }.answer r
                (.error ("dns query: " ++ e)))

def handleInbound (pkt : List UInt8) : World D :=
  { w with actor := { w.actor with
      device := { w.actor.device with rx := w.actor.device.rx ++ [pkt] } } }

def handleCmd : Cmd → Option (World D)
  | .inbound pkt => some (w.handleInbound pkt)
  | .connect remote c => w.handleConnect remote c
  | .send h data origin => some (w.handleSend h data origin)
  | .close h origin => some (w.handleClose h origin)
  | .resolve name r => w.handleResolve name r

end World

/-! ## `service_sockets` -/

/-- What the flush loop leaves: the socket, `out_buf`, and the bytes the socket took, which are
the front of each slice it was handed. -/
structure Flushed (D : Deps) where
  sock : D.Tcp
  outBuf : List UInt8
  accepted : List UInt8

/-- socks → net.  The first slice of the ring buffer ends where the next of `seams` says, or
with the buffer. -/
def flush (seams : List Nat) (sock : D.Tcp) (outBuf : List UInt8) : Flushed D :=
  if D.canSend sock = true ∧ outBuf ≠ [] then
    let head := outBuf.take (seams.headD outBuf.length)
    match D.sendSlice sock head with
    | (some ⟨0, _⟩, sock) => ⟨sock, outBuf, []⟩
    | (some ⟨n + 1, _⟩, sock) =>
        let rest := flush seams.tail sock (outBuf.drop (n + 1))
        { rest with accepted := head.take (n + 1) ++ rest.accepted }
    | (none, sock) => ⟨sock, outBuf, []⟩
  else ⟨sock, outBuf, []⟩
termination_by outBuf.length
decreasing_by
  have hpos : 0 < outBuf.length := List.length_pos_of_ne_nil (by simp_all)
  rw [List.length_drop]
  omega

/-- What the receive loop leaves: the socket, the channel, and the bytes that went into it. -/
structure Pumped (D : Deps) where
  sock : D.Tcp
  chan : Chan
  taken : List UInt8

/-- net → socks, bounded by the channel. -/
def pump (sock : D.Tcp) (chan : Chan) : Pumped D :=
  if D.canRecv sock = true then
    if _hroom : chan.reservable = true then
      match D.recvSlice sock recvChunk with
      | (some ⟨[], _⟩, sock) => ⟨sock, chan, []⟩
      | (some ⟨b :: bs, _⟩, sock) =>
          let rest := pump sock { chan with queue := chan.queue ++ [b :: bs] }
          { rest with taken := b :: bs ++ rest.taken }
      | (none, sock) => ⟨sock, chan, []⟩
    else ⟨sock, chan, []⟩
  else ⟨sock, chan, []⟩
termination_by chanDepth - chan.queue.length
decreasing_by
  have hlt : chan.queue.length < chanDepth := by
    simp only [Chan.reservable, Bool.and_eq_true, decide_eq_true_eq] at _hroom
    exact _hroom.2
  simp only [List.length_append, List.length_cons, List.length_nil]
  omega

/-- The reply a pending connect gets in this pass. -/
def connectOutcome (D : Deps) (conn : Conn) (sock : D.Tcp) (h : Handle) :
    Option (Except String Handle) :=
  if conn.connectReply then
    if D.state sock = .established then some (.ok h)
    else if D.isActive sock then none
    else some (.error "connection refused")
  else none

/-- What the body of the loop does with the socket, the entry and the channel it borrows. -/
structure Visit (D : Deps) where
  outcome : Option (Except String Handle)
  accepted : List UInt8
  taken : List UInt8
  closes : Bool
  sock : D.Tcp
  conn : Conn
  chan : Chan
  remove : Bool

/-- The body of the loop of `service_sockets` for `h`. -/
def visit (D : Deps) (h : Handle) (seams : List Nat) (sock : D.Tcp) (conn : Conn)
    (chan : Chan) : Visit D :=
  -- resolve the pending connect once established or failed
  let outcome := connectOutcome D conn sock h
  let refused := match outcome with
    | some (.error _) => true
    | _ => false
  let conn := { conn with connectReply := conn.connectReply && outcome.isNone }
  -- socks → net
  let flushed := flush seams sock conn.outBuf
  let conn := { conn with outBuf := flushed.outBuf }
  -- net → socks
  let pumped := pump flushed.sock chan
  let closes := conn.closing && conn.outBuf.isEmpty
  let sock := if closes then D.close pumped.sock else pumped.sock
  { outcome := outcome, accepted := flushed.accepted, taken := pumped.taken, closes := closes
    sock := sock, conn := conn, chan := pumped.chan
    remove := refused || D.state sock == .closed }

/-- What the log has of a visit to the connection `c`. -/
def Visit.events (v : Visit D) (c : ConnId) : List Event :=
  (match v.outcome with
    | some r => [.replied c r.isOk]
    | none => []) ++
  [.accepted c v.accepted, .taken c v.taken] ++
  (if v.closes then [.fin c] else []) ++
  (if v.remove then [.removed c] else [])

namespace World
variable (w : World D)

/-- `sockets.remove(h)` and `conns.remove(&h)` -/
def removeConn (h : Handle) (conn : Conn) : Option (World D) :=
  match D.removeSlot w.actor.sockets h with
  | none => none
  | some sockets =>
      some ({ w with actor := { w.actor with
        sockets := sockets, conns := w.actor.conns.erase h } }.dropConn conn)

/-- What the body has written, through its borrows and its channels. -/
def writeBack (h : Handle) (v : Visit D) : World D :=
  let c := v.conn.fromNet
  let w := match v.outcome with
    | some r => w.reply c r
    | none => w
  (({ w with
      chans := Function.update w.chans c v.chan
      log := w.log ++ v.events c }.setSocket h v.sock).setConn h v.conn)

/-- One turn of the loop. -/
def serviceSocket (h : Handle) (seams : List Nat) : Option (World D) :=
  match D.tcp w.actor.sockets h, w.actor.conns.lookup h with
  | some sock, some conn =>
      let v := visit D h seams sock conn (w.chans conn.fromNet)
      let w := w.writeBack h v
      if v.remove then w.removeConn h v.conn else some w
  | _, _ => none

/-- `service_sockets` over the keys in the order given, each with the seams of its buffer. -/
def serviceSockets : World D → List (Handle × List Nat) → Option (World D)
  | w, [] => some w
  | w, (h, seams) :: order =>
      match w.serviceSocket h seams with
      | none => none
      | some w => w.serviceSockets order

/-! ## `service_dns` -/

def firstAddress (addrs : List IpAddr) : Except String IpAddr :=
  match addrs.head? with
  | some a => .ok a
  | none => .error "no address"

/-- From index `i` on: the queries before it stay. -/
def serviceDnsFrom : World D → (kept pending : List (PendingDns D)) → Option (World D)
  | w, kept, [] => some { w with actor := { w.actor with dnsPending := kept } }
  | w, kept, p :: pending =>
      match D.dns w.actor.sockets w.actor.dnsHandle with
      | none => none
      | some dns =>
          match D.getQueryResult dns p.query with
          | none => none
          | some (result, dns) =>
              let w := { w with actor := { w.actor with
                sockets := D.set w.actor.sockets w.actor.dnsHandle (.inr dns) } }
              match result with
              | .ok addrs =>
                  (w.answer p.reply (firstAddress addrs)).serviceDnsFrom kept pending
              | .pending => w.serviceDnsFrom (kept ++ [p]) pending
              | .failed =>
                  (w.answer p.reply (.error "resolution failed")).serviceDnsFrom kept pending

def serviceDns : Option (World D) := w.serviceDnsFrom [] w.actor.dnsPending

/-- `iface.poll`, and the packets it produced go to the tunnel. -/
def poll (now : Int) : World D :=
  let polled := D.poll now w.actor.iface w.actor.device w.actor.sockets
  { w with actor := { w.actor with
      iface := polled.1, device := { polled.2.1 with tx := [] }, sockets := polled.2.2 } }

end World

end

end WarpProxy.Netstack
