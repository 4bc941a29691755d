/-
# `WarpProxy.Socks.Encode` — requests as a client writes them

The greeting and the request to connect to a destination, and that `read_request` gives back the
destination and the port and leaves what follows (`connect_inverts`).

A destination that is an address goes through its text: `read_request` prints it, and
`handle_resolve` parses it again.  The parser of the standard library is a parameter, and that it
reads the text of an address as that address is a hypothesis.
-/
import WarpProxy.Lib.BigEndian
import WarpProxy.Netstack.System
import WarpProxy.Socks.Session

namespace WarpProxy.Socks

open Netstack (Deps World System ResolveId)

/-! ## Writing -/

/-- What a client may ask to be connected to. -/
inductive Destination where
  | v4 (a : Ipv4Addr)
  | v6 (a : Ipv6Addr)
  | domain (name : List Char) (fits : (Utf8.encode name).length ≤ 255)

/-- `ATYP` and `DST.ADDR` -/
def Destination.bytes : Destination → List UInt8
  | .v4 a => atypV4 :: BigEndian.bytes 4 a.toNat
  | .v6 a => atypV6 :: BigEndian.bytes 16 a.toNat
  | .domain name _ =>
      atypDomain :: UInt8.ofNat (Utf8.encode name).length :: Utf8.encode name

/-- Its text. -/
def Destination.host : Destination → List Char
  | .v4 a => IpText.showV4 a
  | .v6 a => IpText.showV6 a
  | .domain name _ => name

/-- The address it is. -/
def Destination.ip : Destination → Option IpAddr
  | .v4 a => some (.v4 a)
  | .v6 a => some (.v6 a)
  | .domain _ _ => none

/-- The greeting and the request. -/
def request (methods : List UInt8) (dest : Destination) (port : UInt16) : List UInt8 :=
  ver :: UInt8.ofNat methods.length :: methods ++
    ver :: cmdConnect :: 0x00 :: dest.bytes ++ BigEndian.bytes 2 port.toNat

/-! ## Reading back -/

/-- The octets of an address are read as its value. -/
theorem bits_eq (w : Nat) (bs : List UInt8) :
    IpText.bits 256 w (bs.map UInt8.toNat) = BitVec.ofNat w (BigEndian.read 0 bs) := by
  have hfold : ∀ acc, (bs.map UInt8.toNat).foldl (fun a n => a * 256 + n) acc =
      BigEndian.read acc bs := by
    induction bs with
    | nil => exact fun acc => rfl
    | cons b bs ih => exact fun acc => ih (acc * 256 + b.toNat)
  rw [IpText.bits, hfold]

theorem bits_bytes (n : Nat) (a : BitVec (8 * n)) :
    IpText.bits 256 (8 * n) ((BigEndian.bytes n a.toNat).map UInt8.toNat) = a := by
  have hlt : a.toNat < 256 ^ n := by
    rw [show 256 ^ n = 2 ^ (8 * n) by rw [Nat.pow_mul]]
    exact a.isLt
  rw [bits_eq, BigEndian.read_bytes, Nat.mod_eq_of_lt hlt, BitVec.ofNat_toNat, BitVec.setWidth_eq]

theorem Destination.address (dest : Destination) : Address dest.bytes dest.host := by
  cases dest with
  | v4 a =>
      have h : Address (atypV4 :: BigEndian.bytes 4 a.toNat) _ :=
        .v4 (BigEndian.length_bytes 4 a.toNat)
      rw [hostV4, bits_bytes 4 a] at h
      exact h
  | v6 a =>
      have h : Address (atypV6 :: BigEndian.bytes 16 a.toNat) _ :=
        .v6 (BigEndian.length_bytes 16 a.toNat)
      rw [hostV6, bits_bytes 16 a] at h
      exact h
  | domain name fits =>
      have h : Address (atypDomain :: UInt8.ofNat (Utf8.encode name).length :: _) _ :=
        .domain (Utf8.toNat_ofNat (by omega)).symm
      rw [Utf8.lossy_encode] at h
      exact h

theorem bytes_port (port : UInt16) :
    ∃ hi lo, BigEndian.bytes 2 port.toNat = [hi, lo] ∧ portOf hi lo = port := by
  obtain ⟨hi, lo, hbytes⟩ : ∃ hi lo, BigEndian.bytes 2 port.toNat = [hi, lo] := ⟨_, _, rfl⟩
  have hread := BigEndian.read_bytes 2 port.toNat
  have hlt := port.toNat_lt
  rw [hbytes, Nat.mod_eq_of_lt (by omega), BigEndian.read, BigEndian.read, BigEndian.read,
    Nat.zero_mul, Nat.zero_add] at hread
  exact ⟨hi, lo, hbytes, by rw [portOf, hread, UInt16.ofNat_toNat]⟩

theorem request_isRequest {methods : List UInt8} (hmethods : methods.length ≤ 255)
    (dest : Destination) (port : UInt16) :
    IsRequest (request methods dest port) ⟨dest.host, port⟩ := by
  obtain ⟨hi, lo, hbytes, hport⟩ := bytes_port port
  have h := @IsRequest.intro 0x00 (UInt8.ofNat methods.length) hi lo methods _ _
    (Utf8.toNat_ofNat (by omega)).symm dest.address
  rw [hport, ← hbytes] at h
  exact h

/-! ## The tunnelled path -/

/-- The netstack resolves as its actor does: a name that the actor answers at once with an address
has this address. -/
def Outcomes.AnsweredBy (o : Outcomes) (D : Deps) (net : NetHandle) : Prop :=
  ∀ (name : List Char) (w w' : World D) (r : ResolveId) (ip : IpAddr),
    w.answers r = .new → w.handleResolve (String.ofList name) r = some w' →
      (w'.answers r).value = some (.ok ip) → o.resolve net name = .ok ip

theorem answer_self {D : Deps} (w : World D) (r : ResolveId) (res : Except String IpAddr) :
    (w.answer r res).answers r = (w.answers r).send res := Function.update_self ..

theorem handleResolve_literal {D : Deps} {name : String} {ip : IpAddr}
    (h : D.parseIp name = some ip) (w : World D) (r : ResolveId) :
    w.handleResolve name r = some (w.answer r (.ok ip)) := by
  rw [World.handleResolve, h]

/-- **`read_request` inverts the wire format**: from a greeting with any methods and a request for
any destination and port, it takes their bytes and leaves what follows.  For a destination that is
an address, `handle_resolve` then answers at once with this address and asks no DNS server, and the
connect is to this address and port. -/
theorem connect_inverts {D : Deps} {methods : List UInt8} (hmethods : methods.length ≤ 255)
    (dest : Destination) (port : UInt16) (payload : List UInt8)
    -- the text of an address parses as that address
    (hparse : ∀ ip, dest.ip = some ip → D.parseIp (String.ofList dest.host) = some ip)
    {o : Outcomes} (hwrites : o.writes selection = true) :
    (readRequest o.writes (request methods dest port ++ payload)).2 =
        .ok (⟨dest.host, port⟩, payload) ∧
      ∀ ip, dest.ip = some ip →
        (∀ (w : World D) (r : ResolveId), ∃ w',
          w.handleResolve (String.ofList dest.host) r = some w' ∧
            w'.answers r = (w.answers r).send (.ok ip) ∧ w'.actor = w.actor) ∧
        ∀ net : NetHandle, o.AnsweredBy D net →
          ∃ events, viaNetstack o net ⟨dest.host, port⟩ payload =
            .resolve net dest.host ::
              .connect net ⟨ip, port⟩ (o.connect net ⟨ip, port⟩) :: events := by
  refine ⟨readRequest_ok_iff.mpr ⟨hwrites, _, request_isRequest hmethods dest port, rfl⟩, ?_⟩
  intro ip hip
  have hresolve := handleResolve_literal (hparse ip hip)
  refine ⟨fun w r => ⟨_, hresolve w r, answer_self w r _, rfl⟩, fun net ho => ?_⟩
  have hok : o.resolve net dest.host = .ok ip := by
    refine ho dest.host (System.init D 0 0 none).world _ 0 ip rfl (hresolve _ 0) ?_
    rw [answer_self]
    rfl
  rw [viaNetstack, hok]
  exact ⟨_, rfl⟩

/-- A netstack with the parser of `WarpProxy.Lib.IpText`, and a client that asks it for 10.0.0.1. -/
theorem connect_inverts_literal :
    let o : Outcomes :=
      { writes := fun _ => true, direct := fun _ => true, connect := fun _ _ => true
        resolve := fun _ name =>
          match IpText.parse name with
          | some (.inl a) => .ok (.v4 a)
          | some (.inr a) => .ok (.v6 a)
          | none => .error (.tunnel "") }
    (readRequest o.writes (request [0] (.v4 0x0a000001) 80 ++ [71, 69, 84])).2 =
        .ok (⟨IpText.showV4 0x0a000001, 80⟩, [71, 69, 84]) ∧
      ∃ events, viaNetstack o ⟨0, 0, none⟩ ⟨IpText.showV4 0x0a000001, 80⟩ [71, 69, 84] =
        .resolve ⟨0, 0, none⟩ (IpText.showV4 0x0a000001) ::
          .connect ⟨0, 0, none⟩ ⟨.v4 0x0a000001, 80⟩ true :: events := by
  intro o
  let parseIp : String → Option IpAddr := fun s =>
    (IpText.parse s.toList).map (Sum.elim .v4 .v6)
  let D : Deps := { Deps.toy with parseIp := parseIp }
  have hparse : ∀ ip, (Destination.v4 0x0a000001).ip = some ip →
      D.parseIp (String.ofList (Destination.v4 0x0a000001).host) = some ip := by
    rintro ip ⟨⟩
    decide +kernel
  have ho : o.AnsweredBy D ⟨0, 0, none⟩ := by
    intro name w w' r ip hnew hresolve hvalue
    have hliteral : D.parseIp (String.ofList name) = (IpText.parse name).map (Sum.elim .v4 .v6) :=
      congrArg (fun cs => (IpText.parse cs).map (Sum.elim IpAddr.v4 .v6)) String.toList_ofList
    cases hname : IpText.parse name with
    | some a =>
        rw [hname] at hliteral
        obtain rfl := Option.some.inj ((handleResolve_literal hliteral w r).symm.trans hresolve)
        rw [answer_self, hnew] at hvalue
        have hip := Except.ok.inj (Option.some.inj hvalue)
        cases a <;> exact (by simp only [o, hname]; exact congrArg Except.ok hip)
    | none =>
        -- the query is started, and there is no answer yet
        rw [hname] at hliteral
        rw [World.handleResolve, hliteral] at hresolve
        dsimp only [Option.map_none] at hresolve
        split at hresolve
        · cases hresolve
        · obtain rfl := Option.some.inj hresolve
          rw [hnew] at hvalue
          cases hvalue
  have hmethods : [(0 : UInt8)].length ≤ 255 := by decide
  have h := connect_inverts hmethods (.v4 0x0a000001) 80 [71, 69, 84] hparse (o := o) rfl
  exact ⟨h.1, (h.2 _ rfl).2 _ ho⟩

end WarpProxy.Socks
