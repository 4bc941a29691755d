/-
# `WarpProxy.Netstack.Deps` — what the netstack takes from elsewhere

smoltcp and the address parser of the standard library are parameters: `Deps`
has one field for each call the actor makes, with the result that call returns.
Where a call is documented to stay within its argument, the bound is in the
field's type (`sendSlice`, `recvSlice`).

What is relied upon beyond the types is stated as laws: `SocketSetLaws` for the
socket set, `CloseLaws` for the states of a TCP socket.  `Deps.toy` is a small
netstack that satisfies them, with one-byte segments in place of TCP.
-/
import WarpProxy.Types

namespace WarpProxy.Netstack

/-- The index of a slot of the socket set. -/
abbrev Handle := Nat

/-- The states of a TCP socket. -/
inductive TcpState where
  | closed
  | listen
  | synSent
  | synReceived
  | established
  | finWait1
  | finWait2
  | closeWait
  | closing
  | lastAck
  | timeWait
  deriving DecidableEq, Repr

/-- The device of the interface: packets from the tunnel, packets to it. -/
structure TunDevice where
  rx : List (List UInt8)
  tx : List (List UInt8)
  mtu : Nat
  deriving DecidableEq

/-- What `get_query_result` returns. -/
inductive QueryResult where
  | ok (addrs : List IpAddr)
  | pending
  | failed

structure Deps where
  /-- `Interface` -/
  Iface : Type
  /-- `SocketSet` -/
  SocketSet : Type
  /-- `tcp::Socket` -/
  Tcp : Type
  /-- `dns::Socket` -/
  Dns : Type
  /-- `dns::QueryHandle` -/
  Query : Type
  newIface : Ipv4Addr → Option Ipv6Addr → Iface
  /-- `poll(now, device, sockets)` -/
  poll : Int → Iface → TunDevice → SocketSet → Iface × TunDevice × SocketSet
  newSet : SocketSet
  /-- what the slot holds -/
  get : SocketSet → Handle → Option (Tcp ⊕ Dns)
  /-- what is written through `get_mut` -/
  set : SocketSet → Handle → Tcp ⊕ Dns → SocketSet
  add : SocketSet → Tcp ⊕ Dns → Handle × SocketSet
  remove : SocketSet → Handle → SocketSet
  /-- `Socket::new` over a receive and a transmit buffer of these sizes -/
  newTcp : Nat → Nat → Tcp
  /-- `connect(cx, remote, local)`, an error as it displays -/
  connect : Iface → Tcp → SocketAddr → UInt16 → Iface × Except String Tcp
  state : Tcp → TcpState
  isActive : Tcp → Bool
  canSend : Tcp → Bool
  canRecv : Tcp → Bool
  /-- how many bytes of the slice were taken, or an error -/
  sendSlice : Tcp → (data : List UInt8) → Option {n : Nat // n ≤ data.length} × Tcp
  /-- the bytes put into a buffer of this size, or an error -/
  recvSlice : Tcp → (size : Nat) → Option {data : List UInt8 // data.length ≤ size} × Tcp
  close : Tcp → Tcp
  newDns : List IpAddr → Dns
  startQuery : Iface → Dns → String → Iface × Except String (Query × Dns)
  /-- `none` where it panics -/
  getQueryResult : Dns → Query → Option (QueryResult × Dns)
  /-- `str::parse::<IpAddr>` -/
  parseIp : String → Option IpAddr

namespace Deps

/-- `get_mut::<tcp::Socket>`; `none` where it panics. -/
def tcp (D : Deps) (s : D.SocketSet) (h : Handle) : Option D.Tcp :=
  match D.get s h with
  | some (.inl sock) => some sock
  | _ => none

/-- `get_mut::<dns::Socket>`; `none` where it panics. -/
def dns (D : Deps) (s : D.SocketSet) (h : Handle) : Option D.Dns :=
  match D.get s h with
  | some (.inr sock) => some sock
  | _ => none

theorem tcp_congr {D : Deps} {s s' : D.SocketSet} {h h' : Handle}
    (heq : D.get s h = D.get s' h') : D.tcp s h = D.tcp s' h' := by
  simp only [tcp, heq]

/-- The socket set is a table of slots, and `add` takes the lowest free one. -/
structure SocketSetLaws (D : Deps) : Prop where
  get_new : ∀ k, D.get D.newSet k = none
  add_free : ∀ s x, D.get s (D.add s x).1 = none
  add_lowest : ∀ s x k, k < (D.add s x).1 → D.get s k ≠ none
  get_add : ∀ s x k, D.get (D.add s x).2 k = if k = (D.add s x).1 then some x else D.get s k
  get_set : ∀ s h x k, D.get s h ≠ none →
    D.get (D.set s h x) k = if k = h then some x else D.get s k
  get_remove : ∀ s h k, D.get (D.remove s h) k = if k = h then none else D.get s k

end Deps

/-- The states in which the remote's FIN has arrived; `closed` is also reached otherwise. -/
def TcpState.FinReceived : TcpState → Prop
  | .closeWait | .closing | .lastAck | .timeWait | .closed => True
  | _ => False

/-- Sending and receiving leave the state; a local close leads from `CloseWait` to `LastAck`
and does nothing once the socket is closing on its own account. -/
structure Deps.CloseLaws (D : Deps) : Prop where
  state_sendSlice : ∀ sock data, D.state (D.sendSlice sock data).2 = D.state sock
  state_recvSlice : ∀ sock size, D.state (D.recvSlice sock size).2 = D.state sock
  close_closeWait : ∀ sock, D.state sock = .closeWait → D.state (D.close sock) = .lastAck
  close_late : ∀ sock, D.state sock = .closing ∨ D.state sock = .lastAck ∨
    D.state sock = .timeWait ∨ D.state sock = .closed → D.state (D.close sock) = D.state sock

theorem Deps.CloseLaws.close_closed {D : Deps} (hD : D.CloseLaws) {sock : D.Tcp}
    (h : (D.state sock).FinReceived) :
    D.state (D.close sock) = .closed ↔ D.state sock = .closed := by
  cases hst : D.state sock with
  | closeWait =>
      rw [hD.close_closeWait sock hst]
      constructor <;> exact fun h => nomatch h
  | closing | lastAck | timeWait | closed =>
      rw [hD.close_late sock (by rw [hst]; decide), hst]
  | _ => rw [hst] at h; exact h.elim

/-! ## A small netstack -/

namespace Toy

structure Tcp where
  state : TcpState
  rx : List UInt8
  tx : List UInt8
  deriving DecidableEq

abbrev Dns := List (Option QueryResult)

abbrev Slots := List (Option (Tcp ⊕ Dns))

def get (s : Slots) (h : Handle) : Option (Tcp ⊕ Dns) := s[h]?.getD none

def set (s : Slots) (h : Handle) (x : Tcp ⊕ Dns) : Slots := List.set s h (some x)

def add : Slots → Tcp ⊕ Dns → Handle × Slots
  | [], x => (0, [some x])
  | none :: s, x => (0, some x :: s)
  | some y :: s, x => ((add s x).1 + 1, some y :: (add s x).2)

def remove (s : Slots) (h : Handle) : Slots := List.set s h none

/-- A segment for a socket: 0 a SYN ACK, 1 data, 2 a FIN, 3 a RST, 4 an ACK of as many bytes as
it has. -/
def segment (kind : UInt8) (payload : List UInt8) (sock : Tcp) : Tcp :=
  match kind, sock.state with
  | 0, .synSent => { sock with state := .established }
  | 1, .established => { sock with rx := sock.rx ++ payload }
  | 2, .established => { sock with state := .closeWait }
  | 3, _ => { sock with state := .closed }
  | 4, _ => { sock with tx := sock.tx.drop payload.length }
  | _, _ => sock

/-- A packet is a slot, a kind and a payload. -/
def deliver (s : Slots) : List UInt8 → Slots
  | h :: kind :: payload =>
      match get s h.toNat with
      | some (.inl sock) => set s h.toNat (.inl (segment kind payload sock))
      | _ => s
  | _ => s

def close (sock : Tcp) : Tcp :=
  match sock.state with
  | .listen | .synSent => { sock with state := .closed }
  | .synReceived | .established => { sock with state := .finWait1 }
  | .closeWait => { sock with state := .lastAck }
  | _ => sock

def canSend (sock : Tcp) : Bool :=
  (sock.state == .established || sock.state == .closeWait) && sock.tx.length < 65536

/-- Takes what fits. -/
def sendSlice (sock : Tcp) (data : List UInt8) : Option {n : Nat // n ≤ data.length} × Tcp :=
  let n := min data.length (65536 - sock.tx.length)
  (some ⟨n, Nat.min_le_left ..⟩, { sock with tx := sock.tx ++ data.take n })

def recvSlice (sock : Tcp) (size : Nat) :
    Option {data : List UInt8 // data.length ≤ size} × Tcp :=
  (some ⟨sock.rx.take size, List.length_take_le ..⟩, { sock with rx := sock.rx.drop size })

end Toy

/-- One-byte segments; a connect to port 0 is refused as unaddressable. -/
def Deps.toy : Deps where
  Iface := Unit
  SocketSet := Toy.Slots
  Tcp := Toy.Tcp
  Dns := Toy.Dns
  Query := Nat
  newIface := fun _ _ => ()
  poll := fun _ _ device s => ((), { device with rx := [] }, device.rx.foldl Toy.deliver s)
  newSet := []
  get := Toy.get
  set := Toy.set
  add := Toy.add
  remove := Toy.remove
  newTcp := fun _ _ => ⟨.closed, [], []⟩
  connect := fun _ sock remote _ =>
    ((), if remote.port = 0 then .error "unaddressable destination"
      else .ok { sock with state := .synSent })
  state := Toy.Tcp.state
  isActive := fun sock =>
    !(sock.state == .closed || sock.state == .timeWait || sock.state == .listen)
  canSend := Toy.canSend
  canRecv := fun sock => !sock.rx.isEmpty
  sendSlice := Toy.sendSlice
  recvSlice := Toy.recvSlice
  close := Toy.close
  newDns := fun _ => []
  startQuery := fun _ dns _ => ((), .ok (dns.length, dns ++ [some .pending]))
  getQueryResult := fun dns q =>
    match dns[q]?.getD none with
    | some .pending => some (.pending, dns)
    | some r => some (r, dns.set q none)
    | none => none
  parseIp := fun _ => none

/-! ### It obeys the laws -/

namespace Toy

theorem get_set (s : Slots) (h : Handle) (x : Tcp ⊕ Dns) (k : Handle) (hs : get s h ≠ none) :
    get (set s h x) k = if k = h then some x else get s k := by
  have hlt : h < s.length := by
    rcases Nat.lt_or_ge h s.length with hlt | hge
    · exact hlt
    · simp only [get, List.getElem?_eq_none hge, Option.getD_none, ne_eq, not_true_eq_false] at hs
  simp only [get, set, List.getElem?_set]
  by_cases hk : k = h
  · subst hk
    simp only [if_true, if_pos hlt, Option.getD_some]
  · rw [if_neg (Ne.symm hk), if_neg hk]

theorem get_remove (s : Slots) (h k : Handle) :
    get (remove s h) k = if k = h then none else get s k := by
  simp only [get, remove, List.getElem?_set]
  by_cases hk : k = h
  · subst hk
    simp only [if_true]
    split <;> rfl
  · rw [if_neg (Ne.symm hk), if_neg hk]

theorem get_add : ∀ (s : Slots) (x : Tcp ⊕ Dns) (k : Handle),
    get (add s x).2 k = if k = (add s x).1 then some x else get s k
  | [], x, k => by cases k <;> rfl
  | none :: s, x, k => by cases k <;> rfl
  | some y :: s, x, 0 => rfl
  | some y :: s, x, k + 1 => by
      have ih := get_add s x k
      simp only [add, Nat.add_right_cancel_iff]
      exact ih

theorem add_free : ∀ (s : Slots) (x : Tcp ⊕ Dns), get s (add s x).1 = none
  | [], _ => rfl
  | none :: _, _ => rfl
  | some _ :: s, x => add_free s x

theorem add_lowest : ∀ (s : Slots) (x : Tcp ⊕ Dns) (k : Handle),
    k < (add s x).1 → get s k ≠ none
  | [], _, _, h => nomatch h
  | none :: _, _, _, h => nomatch h
  | some _ :: _, _, 0, _ => fun h => nomatch h
  | some _ :: s, x, k + 1, h => add_lowest s x k (Nat.lt_of_succ_lt_succ h)

end Toy

theorem Deps.toy_socketSetLaws : Deps.toy.SocketSetLaws where
  get_new _ := rfl
  add_free := Toy.add_free
  add_lowest := Toy.add_lowest
  get_add := Toy.get_add
  get_set := Toy.get_set
  get_remove := Toy.get_remove

theorem Deps.toy_closeLaws : Deps.toy.CloseLaws where
  state_sendSlice _ _ := rfl
  state_recvSlice _ _ := rfl
  close_closeWait sock h := by
    have hst : sock.state = .closeWait := h
    show (Toy.close sock).state = _
    simp only [Toy.close, hst]
  close_late sock h := by
    show (Toy.close sock).state = sock.state
    rcases h with h | h | h | h
    all_goals
      have hst : sock.state = _ := h
      simp only [Toy.close, hst]

end WarpProxy.Netstack
