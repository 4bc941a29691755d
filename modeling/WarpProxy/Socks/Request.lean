/-
# `WarpProxy.Socks.Request` — the SOCKS5 greeting and request

`read_request` of `socks.rs` over the bytes the client sends until it ends its stream.
Each reader returns what it has read with the bytes it has left, or why it stops (`Stop`);
what is written meanwhile is the method selection and the reply of a refusal.

`IsRequest` is the wire format on its own: `read_request` accepts exactly the streams that
begin with one, and takes nothing more (`readRequest_ok_iff`).
-/
import WarpProxy.Lib.IpText
import WarpProxy.Lib.Utf8
import WarpProxy.Types

namespace WarpProxy.Socks

def ver : UInt8 := 0x05
def cmdConnect : UInt8 := 0x01
def atypV4 : UInt8 := 0x01
def atypDomain : UInt8 := 0x03
def atypV6 : UInt8 := 0x04

/-- A SOCKS5 reply with the given status and a zeroed bound address. -/
def reply (status : UInt8) : List UInt8 := [ver, status, 0x00, atypV4, 0, 0, 0, 0, 0, 0]

/-- The method selection: no authentication. -/
def selection : List UInt8 := [ver, 0x00]

/-- The target `host:port` of a request. -/
structure Target where
  host : List Char
  port : UInt16
  deriving DecidableEq

/-- Why `read_request` gives no target. -/
inductive Stop where
  /-- an I/O error: the stream ends too early, or a write fails -/
  | io
  /-- `None`, and nothing is written -/
  | silent
  /-- `None`, after the reply with this status -/
  | refused (status : UInt8)
  deriving DecidableEq

/-! ## Reading -/

/-- `read_exact` -/
def readExact (n : Nat) (bytes : List UInt8) : Except Stop (List UInt8 × List UInt8) :=
  if n ≤ bytes.length then .ok (bytes.take n, bytes.drop n) else .error .io

def readGreeting : List UInt8 → Except Stop (List UInt8)
  | v :: nmethods :: bytes =>
      if v ≠ ver then .error .silent
      else (readExact nmethods.toNat bytes).map Prod.snd
  | _ => .error .io

def hostV4 (a : List UInt8) : List Char := IpText.showV4 (IpText.bits 256 32 (a.map UInt8.toNat))

def hostV6 (a : List UInt8) : List Char := IpText.showV6 (IpText.bits 256 128 (a.map UInt8.toNat))

/-- A host that is the text of the next `n` bytes. -/
def readText (n : Nat) (text : List UInt8 → List Char) (bytes : List UInt8) :
    Except Stop (List Char × List UInt8) :=
  (readExact n bytes).map fun (a, bytes) => (text a, bytes)

/-- `DST.ADDR` -/
def readHost (atyp : UInt8) (bytes : List UInt8) : Except Stop (List Char × List UInt8) :=
  if atyp = atypV4 then readText 4 hostV4 bytes
  else if atyp = atypV6 then readText 16 hostV6 bytes
  else if atyp = atypDomain then
    match bytes with
    | len :: bytes => readText len.toNat Utf8.lossy bytes
    | [] => .error .io
  else .error (.refused 0x08)

/-- `u16::from_be_bytes` -/
def portOf (hi lo : UInt8) : UInt16 := UInt16.ofNat (hi.toNat * 256 + lo.toNat)

/-- `DST.PORT`, after the host. -/
def readPort (host : List Char) : List UInt8 → Except Stop (Target × List UInt8)
  | hi :: lo :: bytes => .ok (⟨host, portOf hi lo⟩, bytes)
  | _ => .error .io

/-- The request, after the method selection. -/
def readConnect : List UInt8 → Except Stop (Target × List UInt8)
  | v :: cmd :: _rsv :: atyp :: bytes =>
      if v ≠ ver then .error .silent
      else if cmd ≠ cmdConnect then .error (.refused 0x07)
      else (readHost atyp bytes).bind fun (host, bytes) => readPort host bytes
  | _ => .error .io

/-- What is written when reading stops. -/
def Stop.written : Stop → List (List UInt8)
  | .refused status => [reply status]
  | _ => []

/-- `read_request`: what it writes, and the target with the bytes not read.  `writes` says which
`write_all`s succeed. -/
def readRequest (writes : List UInt8 → Bool) (bytes : List UInt8) :
    List (List UInt8) × Except Stop (Target × List UInt8) :=
  match readGreeting bytes with
  | .error e => ([], .error e)
  | .ok bytes =>
      if writes selection = false then ([selection], .error .io)
      else
        match readConnect bytes with
        | .error e => (selection :: e.written, .error e)
        | .ok r => ([selection], .ok r)

/-! ## The wire format -/

/-- An address with its type byte, and the host it names. -/
inductive Address : List UInt8 → List Char → Prop
  | v4 {a : List UInt8} : a.length = 4 → Address (atypV4 :: a) (hostV4 a)
  | v6 {a : List UInt8} : a.length = 16 → Address (atypV6 :: a) (hostV6 a)
  | domain {len : UInt8} {d : List UInt8} : d.length = len.toNat →
      Address (atypDomain :: len :: d) (Utf8.lossy d)

/-- A greeting, and a request to connect. -/
inductive IsRequest : List UInt8 → Target → Prop
  | intro (rsv : UInt8) {nmethods hi lo : UInt8} {methods addr : List UInt8} {host : List Char} :
      methods.length = nmethods.toNat → Address addr host →
      IsRequest (ver :: nmethods :: methods ++ ver :: cmdConnect :: rsv :: addr ++ [hi, lo])
        ⟨host, portOf hi lo⟩

theorem readExact_ok_iff {n : Nat} {bytes a rest : List UInt8} :
    readExact n bytes = .ok (a, rest) ↔ a.length = n ∧ bytes = a ++ rest := by
  rw [readExact]
  constructor
  · intro h
    split at h
    · next hle =>
        cases h
        exact ⟨List.length_take_of_le hle, (List.take_append_drop n bytes).symm⟩
    · cases h
  · rintro ⟨rfl, rfl⟩
    rw [if_pos (by rw [List.length_append]; exact Nat.le_add_right ..), List.take_left,
      List.drop_left]

theorem readText_ok_iff {n : Nat} {text : List UInt8 → List Char} {bytes rest : List UInt8}
    {host : List Char} : readText n text bytes = .ok (host, rest) ↔
      ∃ a, a.length = n ∧ text a = host ∧ bytes = a ++ rest := by
  rw [readText]
  constructor
  · intro h
    cases hread : readExact n bytes with
    | error e =>
        rw [hread] at h
        cases h
    | ok r =>
        rw [hread] at h
        cases h
        obtain ⟨hlen, hbytes⟩ :=
          readExact_ok_iff.mp (show readExact n bytes = .ok (r.1, r.2) from hread)
        exact ⟨r.1, hlen, rfl, hbytes⟩
  · rintro ⟨a, hlen, rfl, hbytes⟩
    rw [readExact_ok_iff.mpr ⟨hlen, hbytes⟩]
    rfl

theorem readHost_ok_iff {atyp : UInt8} {bytes rest : List UInt8} {host : List Char} :
    readHost atyp bytes = .ok (host, rest) ↔
      ∃ addr, Address (atyp :: addr) host ∧ bytes = addr ++ rest := by
  constructor
  · intro h
    rw [readHost.eq_def] at h
    split at h
    · next hatyp =>
        obtain ⟨a, hlen, rfl, hbytes⟩ := readText_ok_iff.mp h
        exact ⟨a, hatyp ▸ .v4 hlen, hbytes⟩
    · split at h
      · next hatyp =>
          obtain ⟨a, hlen, rfl, hbytes⟩ := readText_ok_iff.mp h
          exact ⟨a, hatyp ▸ .v6 hlen, hbytes⟩
      · split at h
        · next hatyp =>
            split at h
            · next len bytes =>
                obtain ⟨d, hlen, rfl, hbytes⟩ := readText_ok_iff.mp h
                exact ⟨len :: d, hatyp ▸ .domain hlen, congrArg (len :: ·) hbytes⟩
            · cases h
        · cases h
  · rintro ⟨addr, haddr, rfl⟩
    cases haddr with
    | v4 hlen => exact readText_ok_iff.mpr ⟨addr, hlen, rfl, rfl⟩
    | v6 hlen => exact readText_ok_iff.mpr ⟨addr, hlen, rfl, rfl⟩
    | @domain len d hlen => exact readText_ok_iff.mpr ⟨d, hlen, rfl, rfl⟩

theorem readPort_ok_iff {host : List Char} {bytes rest : List UInt8} {t : Target} :
    readPort host bytes = .ok (t, rest) ↔
      ∃ hi lo, t = ⟨host, portOf hi lo⟩ ∧ bytes = hi :: lo :: rest := by
  constructor
  · intro h
    rw [readPort.eq_def] at h
    split at h
    · cases h
      exact ⟨_, _, rfl, rfl⟩
    · cases h
  · rintro ⟨hi, lo, rfl, rfl⟩
    rfl

/-- The request by itself. -/
theorem readConnect_ok_iff {bytes rest : List UInt8} {t : Target} :
    readConnect bytes = .ok (t, rest) ↔ ∃ rsv addr host hi lo, Address addr host ∧
      t = ⟨host, portOf hi lo⟩ ∧ bytes = ver :: cmdConnect :: rsv :: addr ++ [hi, lo] ++ rest := by
  constructor
  · intro h
    rw [readConnect.eq_def] at h
    split at h
    · next v cmd rsv atyp bytes =>
        split at h
        · cases h
        · next hver =>
            split at h
            · cases h
            · next hcmd =>
                cases hhost : readHost atyp bytes with
                | error e =>
                    rw [hhost] at h
                    cases h
                | ok r =>
                    obtain ⟨host, bytes'⟩ := r
                    rw [hhost] at h
                    obtain ⟨hi, lo, rfl, rfl⟩ := readPort_ok_iff.mp h
                    obtain ⟨addr, haddr, rfl⟩ := readHost_ok_iff.mp hhost
                    obtain rfl := not_not.mp hver
                    obtain rfl := not_not.mp hcmd
                    exact ⟨rsv, atyp :: addr, host, hi, lo, haddr, rfl, by simp⟩
    · cases h
  · rintro ⟨rsv, addr, host, hi, lo, haddr, rfl, rfl⟩
    obtain ⟨atyp, addr, rfl⟩ : ∃ atyp rest, addr = atyp :: rest := by
      cases haddr <;> exact ⟨_, _, rfl⟩
    have hhost : readHost atyp (addr ++ (hi :: lo :: rest)) = .ok (host, hi :: lo :: rest) :=
      readHost_ok_iff.mpr ⟨addr, haddr, rfl⟩
    simp only [List.cons_append, List.append_assoc, List.nil_append, readConnect, ne_eq,
      not_true_eq_false, if_false, hhost]
    rfl

theorem readGreeting_ok_iff {bytes rest : List UInt8} :
    readGreeting bytes = .ok rest ↔ ∃ nmethods methods, methods.length = nmethods.toNat ∧
      bytes = ver :: nmethods :: methods ++ rest := by
  constructor
  · intro h
    rw [readGreeting.eq_def] at h
    split at h
    · next v nmethods bytes =>
        split at h
        · cases h
        · next hver =>
            cases hread : readExact nmethods.toNat bytes with
            | error e =>
                rw [hread] at h
                cases h
            | ok r =>
                obtain ⟨methods, bytes'⟩ := r
                rw [hread] at h
                cases h
                obtain ⟨hlen, rfl⟩ := readExact_ok_iff.mp hread
                obtain rfl := not_not.mp hver
                exact ⟨nmethods, methods, hlen, rfl⟩
    · cases h
  · rintro ⟨nmethods, methods, hlen, rfl⟩
    have hread : readExact nmethods.toNat (methods ++ rest) = .ok (methods, rest) :=
      readExact_ok_iff.mpr ⟨hlen, rfl⟩
    simp only [List.cons_append, readGreeting, ne_eq, not_true_eq_false, if_false, hread]
    rfl

/-- **`read_request` accepts what the format allows, and takes nothing more.** -/
theorem readRequest_ok_iff {writes : List UInt8 → Bool} {bytes rest : List UInt8} {t : Target} :
    (readRequest writes bytes).2 = .ok (t, rest) ↔
      writes selection = true ∧ ∃ req, IsRequest req t ∧ bytes = req ++ rest := by
  constructor
  · intro h
    rw [readRequest] at h
    split at h
    · cases h
    · next bytes' hgreeting =>
        split at h
        · cases h
        · next hwrites =>
            split at h
            · cases h
            · next r hconnect =>
                obtain rfl : r = (t, rest) := Except.ok.inj h
                obtain ⟨nmethods, methods, hlen, rfl⟩ := readGreeting_ok_iff.mp hgreeting
                obtain ⟨rsv, addr, host, hi, lo, haddr, rfl, rfl⟩ := readConnect_ok_iff.mp hconnect
                refine ⟨Bool.eq_true_of_not_eq_false hwrites, _, .intro rsv hlen haddr, ?_⟩
                simp
  · rintro ⟨hwrites, req, hreq, rfl⟩
    cases hreq with
    | @intro rsv nmethods hi lo methods addr host hlen haddr =>
        have hgreeting := readGreeting_ok_iff.mpr
          ⟨nmethods, methods, hlen, (rfl : _ = ver :: nmethods :: methods ++
            (ver :: cmdConnect :: rsv :: addr ++ [hi, lo] ++ rest))⟩
        have hconnect := readConnect_ok_iff.mpr
          ⟨rsv, addr, host, hi, lo, haddr, (rfl : (⟨host, portOf hi lo⟩ : Target) = _),
            (rfl : _ = ver :: cmdConnect :: rsv :: addr ++ [hi, lo] ++ rest)⟩
        have happend : (ver :: nmethods :: methods ++
            ver :: cmdConnect :: rsv :: addr ++ [hi, lo]) ++ rest = ver :: nmethods :: methods ++
              (ver :: cmdConnect :: rsv :: addr ++ [hi, lo] ++ rest) := by simp
        rw [happend, readRequest, hgreeting]
        simp only [hwrites, Bool.true_eq_false, if_false, hconnect]

/-- A stream begins with one request at most. -/
theorem IsRequest.unique {req req' rest rest' : List UInt8} {t t' : Target}
    (h : IsRequest req t) (h' : IsRequest req' t') (heq : req ++ rest = req' ++ rest') :
    t = t' ∧ rest = rest' := by
  have hread := (@readRequest_ok_iff (fun _ => true) _ rest t).mpr ⟨rfl, req, h, rfl⟩
  have hread' := (@readRequest_ok_iff (fun _ => true) _ rest' t').mpr ⟨rfl, req', h', heq⟩
  exact Prod.mk.inj (Except.ok.inj (hread.symm.trans hread'))

/-! ## What is written -/

/-- A refusal does not report success. -/
def Stop.Fails : Stop → Prop
  | .refused status => status ≠ 0
  | _ => True

theorem readExact_error {α : Type} {n : Nat} {f : List UInt8 × List UInt8 → α}
    {bytes : List UInt8} {e : Stop} (h : (readExact n bytes).map f = .error e) : e.Fails := by
  rw [readExact] at h
  split at h <;> cases h
  exact trivial

theorem readText_error {n : Nat} {text : List UInt8 → List Char} {bytes : List UInt8} {e : Stop}
    (h : readText n text bytes = .error e) : e.Fails :=
  readExact_error h

theorem readGreeting_error {bytes : List UInt8} {e : Stop} (h : readGreeting bytes = .error e) :
    e.Fails := by
  rw [readGreeting.eq_def] at h
  split at h
  · split at h
    · cases h
      exact trivial
    · exact readExact_error h
  · cases h
    exact trivial

theorem readHost_error {atyp : UInt8} {bytes : List UInt8} {e : Stop}
    (h : readHost atyp bytes = .error e) : e.Fails := by
  rw [readHost.eq_def] at h
  split at h
  · exact readText_error h
  · split at h
    · exact readText_error h
    · split at h
      · split at h
        · exact readText_error h
        · cases h
          exact trivial
      · cases h
        exact (by decide : (0x08 : UInt8) ≠ 0)

theorem readPort_error {host : List Char} {bytes : List UInt8} {e : Stop}
    (h : readPort host bytes = .error e) : e.Fails := by
  rw [readPort.eq_def] at h
  split at h <;> cases h
  exact trivial

theorem readConnect_error {bytes : List UInt8} {e : Stop} (h : readConnect bytes = .error e) :
    e.Fails := by
  rw [readConnect.eq_def] at h
  split at h
  · next v cmd rsv atyp bytes =>
      split at h
      · cases h
        exact trivial
      · split at h
        · cases h
          exact (by decide : (0x07 : UInt8) ≠ 0)
        · cases hhost : readHost atyp bytes with
          | ok r =>
              obtain ⟨host, bytes'⟩ := r
              rw [hhost] at h
              change readPort host bytes' = .error e at h
              exact readPort_error h
          | error e' =>
              rw [hhost] at h
              cases h
              exact readHost_error hhost
  · cases h
    exact trivial

/-- Nothing or the method selection, and then the reply of a refusal. -/
theorem readRequest_written (writes : List UInt8 → Bool) (bytes : List UInt8) :
    match readRequest writes bytes with
    | (written, .ok _) => written = [selection]
    | (written, .error e) => e.Fails ∧ (written = [] ∨ written = selection :: e.written) := by
  rw [readRequest]
  split
  · next written r h =>
      split at h
      · cases h
      · split at h
        · cases h
        · split at h <;> cases h
          rfl
  · next written e h =>
      split at h
      · next hstop =>
          cases h
          exact ⟨readGreeting_error hstop, .inl rfl⟩
      · split at h
        · cases h
          exact ⟨trivial, .inr rfl⟩
        · split at h
          · next hstop =>
              cases h
              exact ⟨readConnect_error hstop, .inr rfl⟩
          · cases h

end WarpProxy.Socks
