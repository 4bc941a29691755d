/-
# `WarpProxy.Tasks.Wire` — the tasks of the two transports

What `connect_h3` and `connect_h2` leave running, as the netstack meets it.  `H3` is
the QUIC connection with its h3 driver and the watcher that waits for it to close; `H2`
is the HTTP/2 connection task with `writer_loop`, `reader_loop` and the two packet
channels of `H2Io`.  Each task is a function from a state in which it can go on; `none`
means that it waits, or has ended.

`Remote` is what comes from the other side.  A window of the send stream is a number of
bytes; a chunk that has arrived is handled in one step, and so is a packet to be sent.
-/
import WarpProxy.H2Tunnel.Loops
import WarpProxy.Tunnel.Datagram

namespace WarpProxy.Tasks

/-! ## HTTP/3 -/

/-- The connection, the driver task and the watcher task.  `streamEnded`: the CONNECT stream
was finished or reset, which nothing reads. -/
structure H3 where
  io : H3Io
  driver : Bool
  watcher : Bool
  streamEnded : Bool

namespace H3

/-- `closed()` has returned. -/
def closed (w : H3) : Bool := w.io.quic.closeReason.isSome

/-- The connection is closed; a reason it already has stays. -/
def close (w : H3) (reason : String) : H3 :=
  { w with io := { w.io with quic := { w.io.quic with
      closeReason := w.io.quic.closeReason.or (some reason) } } }

/-- `poll_close` of the driver returns when the connection has closed, or closes it when the
last `SendRequest` is gone. -/
def drive (w : H3) (sendRequest : Bool) : Option H3 :=
  if w.driver = true ∧ (sendRequest = false ∨ w.closed = true) then
    some { w.close "Connection closed by client" with driver := false }
  else none

/-- The watcher: `closed().await`, then `dead_tx.send(true)`. -/
def watch (w : H3) : Option H3 :=
  if w.watcher = true ∧ w.closed = true then some { w with watcher := false } else none

end H3

/-! ## HTTP/2 -/

structure H2 where
  /-- the connection below has not been closed -/
  connOpen : Bool
  /-- the connection task -/
  driver : Bool
  /-- what has arrived on the receive stream and was not read -/
  recv : List DataEvent
  /-- the receive stream has ended after that -/
  recvEnded : Bool
  sendOpen : Bool
  capacity : Nat
  /-- `out_rx`, with the writer that owns it -/
  out : List (List UInt8)
  writer : Bool
  /-- `in_rx` -/
  incoming : List (List UInt8)
  /-- the buffer of `reader_loop`, while it runs -/
  reader : Option (List UInt8)

namespace H2

/-- One step of `reader_loop`; `held` if the packet receiver is there. -/
def read (w : H2) (held : Bool) : Option H2 :=
  match w.reader with
  | none => none
  | some buf =>
      match w.recv with
      | .data chunk :: recv =>
          match drainCapsules ⟨fun _ => held, []⟩ (buf ++ chunk) with
          | .ok (inTx, buf) =>
              some { w with recv := recv, incoming := w.incoming ++ inTx.sent, reader := some buf }
          | .error inTx =>
              some { w with recv := recv, incoming := w.incoming ++ inTx.sent, reader := none }
      | .error :: _ => some { w with reader := none }
      | [] => if w.recvEnded then some { w with reader := none } else none

/-- One step of `writer_loop`; `held` if a sender of its queue is left. -/
def write (w : H2) (held : Bool) : Option H2 :=
  if w.writer then
    match w.out with
    | pkt :: out =>
        let need := (encodeDatagramCapsule pkt).length
        if w.sendOpen = false then some { w with out := out, writer := false }
        else if need ≤ w.capacity then some { w with out := out, capacity := w.capacity - need }
        else none
    | [] => if held then none else some { w with writer := false }
  else none

/-- The connection task: it ends once the connection is closed, or once the last stream handle
is gone, and then signals death. -/
def drive (w : H2) : Option H2 :=
  if w.driver = true ∧ (w.connOpen = false ∨ (w.writer = false ∧ w.reader = none)) then
    some { w with driver := false, connOpen := false }
  else none

end H2

/-! ## Either -/

/-- A `TunnelIo` and the tasks behind it. -/
inductive Wire where
  | h3 (w : H3)
  | h2 (w : H2)

/-- What comes from the remote. -/
inductive Remote where
  | datagram (dg : List UInt8)
  | data (chunk : List UInt8)
  | window (n : Nat)
  /-- the CONNECT stream is finished -/
  | finish
  /-- the CONNECT stream is reset -/
  | reset
  /-- the connection is closed -/
  | close (reason : String)

namespace Wire

def transport : Wire → Transport
  | .h3 _ => .http3
  | .h2 _ => .http2

/-- `recv_ip`: what it returns, unless it waits, and the wire after it. -/
def recvIp : Wire → Option (Except Error (List UInt8) × Wire)
  | .h3 w =>
      match w.io.recvIp with
      | (.ready r, io) => some (r, .h3 { w with io := io })
      | (.pending, _) => none
  | .h2 w =>
      match w.incoming with
      | pkt :: incoming => some (.ok pkt, .h2 { w with incoming := incoming })
      | [] =>
          match w.reader with
          | some _ => none
          | none => some (.error (.tunnel "h2 tunnel closed"), .h2 w)

/-- `send_ip`, its result not looked at. -/
def sendIp : Wire → List UInt8 → Wire
  | .h3 w, _ => .h3 w
  | .h2 w, pkt => .h2 { w with out := if w.writer then w.out ++ [pkt] else w.out }

/-- What an event of the remote does, if it can happen. -/
def remote : Wire → Remote → Option Wire
  | .h3 w, .datagram dg =>
      if w.closed then none
      else some (.h3 { w with io := { w.io with quic := { w.io.quic with
        delivered := w.io.quic.delivered ++ [dg] } } })
  | .h3 w, .finish | .h3 w, .reset => some (.h3 { w with streamEnded := true })
  | .h3 w, .close reason => some (.h3 (w.close reason))
  | .h2 w, .data chunk =>
      if w.connOpen = true ∧ w.recvEnded = false then
        some (.h2 { w with recv := w.recv ++ [.data chunk] })
      else none
  | .h2 w, .window n => some (.h2 { w with capacity := w.capacity + n })
  | .h2 w, .finish => some (.h2 { w with recvEnded := true })
  | .h2 w, .reset =>
      some (.h2 { w with recv := w.recv ++ [.error], recvEnded := true, sendOpen := false })
  | .h2 w, .close _ =>
      some (.h2 { w with
        connOpen := false, recv := w.recv ++ [.error], recvEnded := true, sendOpen := false })
  | _, _ => none

/-- What connecting leaves: everything runs, nothing has arrived. -/
def Fresh : Wire → Prop
  | .h3 w => w.closed = false ∧ w.driver = true ∧ w.watcher = true
  | .h2 w => w.connOpen = true ∧ w.driver = true ∧ w.recv = [] ∧ w.recvEnded = false ∧
      w.sendOpen = true ∧ w.out = [] ∧ w.writer = true ∧ w.incoming = [] ∧ w.reader = some []

end Wire

end WarpProxy.Tasks
