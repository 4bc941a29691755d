/-
# `WarpProxy.H2Tunnel.Capsule` — the capsule codec of `h2tunnel.rs`

`encodeDatagramCapsule` and `parseCapsule`, the second at a pointer width `w`,
since the length it reads is a 62-bit number cast to `usize`.

The wire grammar they are compared with is `IsCapsule bs c`: a type varint, a
length varint and as many value bytes, the varints in any size class.  A DATAGRAM
capsule carries the bare IP packet as its value (the connect-ip context id is
left out, as the peer expects).

At any width the parser is settled by what the header declares
(`parseCapsule_of_declares`), so declared lengths are honoured exactly where the
cast keeps them (`honoursLength_iff`).

On a 64-bit target it always does, and the parser finds exactly the capsule at the front of the
buffer (`parseCapsule_eq_some`), which makes it a `Framer` (`capsuleFramer`).
-/
import Mathlib.Data.List.Basic
import WarpProxy.Lib.Framing
import WarpProxy.Tunnel.Varint

namespace WarpProxy

open QuicVarint

/-- DATAGRAM capsule type (`CAPSULE_DATAGRAM`). -/
def capsuleDatagram : UInt64 := 0x00

/-- Frame an IP packet as a DATAGRAM capsule, its value the bare packet. -/
def encodeDatagramCapsule (pkt : List UInt8) : List UInt8 :=
  let cap := encodeVarint [] capsuleDatagram
  let cap := encodeVarint cap (UInt64.ofNat pkt.length)
  cap ++ pkt

/-- Parse one capsule at the front of `buf` on a target whose `usize` has `w` bits: type,
value offset and total length, or `none` if it has not fully arrived. -/
def parseCapsule (w : Nat) (buf : List UInt8) : Option (UInt64 × Nat × Nat) :=
  let before := buf.length
  match decodeVarint buf with
  | (none, _) => none
  | (some ctype, p) =>
      match decodeVarint p with
      | (none, _) => none
      | (some n, p) =>
          let clen := n.toNat % 2 ^ w    -- `as usize`
          let header := before - p.length
          if p.length < clen then none
          else some (ctype, header, (header + clen) % 2 ^ w)

/-! ## The wire grammar -/

/-- A capsule: its type and its value. -/
structure Capsule where
  ctype : UInt64
  value : List UInt8
  deriving DecidableEq

/-- `bs` is the capsule `c` on the wire. -/
def IsCapsule (bs : List UInt8) (c : Capsule) : Prop :=
  ∃ t l, IsVarint t c.ctype.toNat ∧ IsVarint l c.value.length ∧ bs = t ++ l ++ c.value

theorem IsCapsule.length_pos {bs : List UInt8} {c : Capsule} (h : IsCapsule bs c) :
    0 < bs.length := by
  obtain ⟨t, l, ht, -, rfl⟩ := h
  have := ht.length_pos
  simp only [List.length_append]
  omega

/-- The bytes the parser's offsets cut out of the buffer are the capsule's value. -/
theorem IsCapsule.slice {bs : List UInt8} {c : Capsule} (h : IsCapsule bs c)
    (rest : List UInt8) :
    ((bs ++ rest).take bs.length).drop (bs.length - c.value.length) = c.value := by
  obtain ⟨t, l, -, -, rfl⟩ := h
  have hlen : (t ++ l ++ c.value).length = (t ++ l).length + c.value.length :=
    List.length_append
  rw [List.take_left, hlen, Nat.add_sub_cancel, List.drop_left]

/-- The capsule at the front of a buffer is unique, and so is what follows it. -/
theorem IsCapsule.append_inj {bs bs' rest rest' : List UInt8} {c c' : Capsule}
    (h : IsCapsule bs c) (h' : IsCapsule bs' c') (e : bs ++ rest = bs' ++ rest') :
    bs = bs' ∧ c = c' ∧ rest = rest' := by
  obtain ⟨t, l, ht, hl, rfl⟩ := h
  obtain ⟨t', l', ht', hl', rfl⟩ := h'
  simp only [List.append_assoc] at e ⊢
  obtain ⟨rfl, htype, e⟩ := ht.append_inj ht' e
  obtain ⟨rfl, hlen, e⟩ := hl.append_inj hl' e
  obtain ⟨hval, hrest⟩ := List.append_inj e hlen
  refine ⟨by rw [hval], ?_, hrest⟩
  cases c
  cases c'
  simp only [Capsule.mk.injEq]
  exact ⟨UInt64.toNat_inj.mp htype, hval⟩

/-- An encoded datagram is a capsule of type 0 whose value is the packet. -/
theorem encodeDatagramCapsule_isCapsule (pkt : List UInt8) (h : pkt.length < 2 ^ 62) :
    IsCapsule (encodeDatagramCapsule pkt) ⟨capsuleDatagram, pkt⟩ := by
  have hlen : (UInt64.ofNat pkt.length).toNat = pkt.length := by
    rw [UInt64.toNat_ofNat']
    exact Nat.mod_eq_of_lt (by omega)
  obtain ⟨t, ht, htv, -⟩ := encodeVarint_spec [] capsuleDatagram (by decide)
  obtain ⟨l, hl, hlv, -⟩ := encodeVarint_spec (encodeVarint [] capsuleDatagram)
    (UInt64.ofNat pkt.length) (by rw [hlen]; exact h)
  rw [hlen] at hlv
  exact ⟨t, l, htv, hlv, by simp only [encodeDatagramCapsule, hl]; rw [ht, List.nil_append]⟩

/-! ## The parser at any width

What a header declares is settled by the bytes alone; what the parser makes of
it depends on the width the declared length is cast to. -/

/-- A complete header stands at the front of `buf`: `off` bytes that say type `ty` and
declare `n` bytes of value. -/
def Declares (buf : List UInt8) (ty : UInt64) (off n : Nat) : Prop :=
  ∃ t l rest, IsVarint t ty.toNat ∧ IsVarint l n ∧ buf = t ++ l ++ rest ∧ off = (t ++ l).length

theorem Declares.unique {buf : List UInt8} {ty ty' : UInt64} {off off' n n' : Nat}
    (h : Declares buf ty off n) (h' : Declares buf ty' off' n') :
    ty = ty' ∧ off = off' ∧ n = n' := by
  obtain ⟨t, l, rest, ht, hl, rfl, rfl⟩ := h
  obtain ⟨t', l', rest', ht', hl', hb, rfl⟩ := h'
  simp only [List.append_assoc] at hb
  obtain ⟨rfl, hty, hb⟩ := ht.append_inj ht' hb
  obtain ⟨rfl, rfl, -⟩ := hl.append_inj hl' hb
  exact ⟨UInt64.toNat_inj.mp hty, rfl, rfl⟩

theorem Declares.bounds {buf : List UInt8} {ty : UInt64} {off n : Nat}
    (h : Declares buf ty off n) : 2 ≤ off ∧ off ≤ 16 ∧ n < 2 ^ 62 := by
  obtain ⟨t, l, rest, ht, hl, -, rfl⟩ := h
  have := ht.length_pos
  have := hl.length_pos
  have := ht.length_le
  have := hl.length_le
  rw [List.length_append]
  exact ⟨by omega, by omega, hl.lt⟩

/-- A complete header: the declared length is cast, then compared with what follows. -/
theorem parseCapsule_of_declares (w : Nat) {buf : List UInt8} {ty : UInt64} {off n : Nat}
    (h : Declares buf ty off n) :
    parseCapsule w buf = if buf.length < off + n % 2 ^ w then none
      else some (ty, off, (off + n % 2 ^ w) % 2 ^ w) := by
  obtain ⟨t, l, rest, ht, hl, rfl, rfl⟩ := h
  obtain ⟨ty', hty, hd₁⟩ := decodeVarint_append ht (l ++ rest)
  obtain ⟨n', hn, hd₂⟩ := decodeVarint_append hl rest
  obtain rfl := UInt64.toNat_inj.mp hty
  have hbuf : (t ++ l ++ rest).length = (t ++ l).length + rest.length := List.length_append
  have hheader : (t ++ l ++ rest).length - rest.length = (t ++ l).length := by omega
  by_cases hshort : rest.length < n % 2 ^ w
  · rw [if_pos (by omega), List.append_assoc]
    simp only [parseCapsule, hd₁, hd₂, hn, if_pos hshort]
  · rw [if_neg (by omega), ← hheader, List.append_assoc]
    simp only [parseCapsule, hd₁, hd₂, hn, if_neg hshort]

/-- No complete header: there is nothing to compare. -/
theorem parseCapsule_of_not_declares (w : Nat) {buf : List UInt8}
    (h : ∀ ty off n, ¬ Declares buf ty off n) : parseCapsule w buf = none := by
  rcases decodeVarint_cases buf with hd | ⟨t, p, ty, rfl, ht, hd⟩
  · simp only [parseCapsule, hd]
  · rcases decodeVarint_cases p with hd' | ⟨l, rest, n, rfl, hl, hd'⟩
    · simp only [parseCapsule, hd, hd']
    · exact absurd ⟨t, l, rest, ht, hl, (List.append_assoc ..).symm, rfl⟩ (h ty _ n.toNat)

/-- Declared lengths are honoured on this buffer: what the parser accepts is there as
declared, and it waits exactly while the header or the declared value is incomplete. -/
def HonoursLength (w : Nat) (buf : List UInt8) : Prop :=
  (∀ ty off total, parseCapsule w buf = some (ty, off, total) →
    ∃ n, Declares buf ty off n ∧ total = off + n ∧ 2 ≤ total ∧ total ≤ buf.length
      ∧ off + n < 2 ^ w)
  ∧ (parseCapsule w buf = none ↔ ∀ ty off n, Declares buf ty off n → buf.length < off + n)

/-- A declared length that the cast keeps, or that is cast to more than has arrived. -/
def CastKeeps (w : Nat) (buf : List UInt8) : Prop :=
  ∀ ty off n, Declares buf ty off n → n < 2 ^ w ∨ buf.length < off + n % 2 ^ w

/-- With no complete header both sides wait. -/
theorem honoursLength_of_not_declares (w : Nat) {buf : List UInt8}
    (h : ∀ ty off n, ¬ Declares buf ty off n) : HonoursLength w buf := by
  have hparse := parseCapsule_of_not_declares w h
  refine ⟨fun ty off total hp => ?_, ?_⟩
  · rw [hparse] at hp
    cases hp
  · exact ⟨fun _ ty off n hd => absurd hd (h ty off n), fun _ => hparse⟩

theorem CastKeeps.honoursLength {w : Nat} {buf : List UInt8} (hbuf : buf.length < 2 ^ w)
    (h : CastKeeps w buf) : HonoursLength w buf := by
  by_cases hdecl : ∃ ty off n, Declares buf ty off n
  · obtain ⟨ty, off, n, hd⟩ := hdecl
    have hparse := parseCapsule_of_declares w hd
    have hoff := hd.bounds.1
    rcases Nat.lt_or_ge buf.length (off + n % 2 ^ w) with hlt | hge
    · -- what the cast keeps of the length has not arrived, so neither has the length
      have hle := Nat.mod_le n (2 ^ w)
      rw [if_pos hlt] at hparse
      refine ⟨fun ty' off' total hp => ?_, fun _ ty' off' n' hd' => ?_, fun _ => hparse⟩
      · rw [hparse] at hp
        cases hp
      · obtain ⟨-, rfl, rfl⟩ := hd.unique hd'
        omega
    · have hn : n < 2 ^ w := (h ty off n hd).resolve_right (by omega)
      rw [Nat.mod_eq_of_lt hn] at hge hparse
      rw [if_neg (by omega), Nat.mod_eq_of_lt (by omega)] at hparse
      refine ⟨fun ty' off' total hp => ?_, fun hp => ?_, fun hshort => ?_⟩
      · rw [hparse] at hp
        cases hp
        exact ⟨n, hd, rfl, by omega, by omega, by omega⟩
      · rw [hparse] at hp
        cases hp
      · have := hshort ty off n hd
        omega
  · exact honoursLength_of_not_declares w fun ty off n hd => hdecl ⟨ty, off, n, hd⟩

theorem HonoursLength.castKeeps {w : Nat} {buf : List UInt8} (hbuf : buf.length < 2 ^ w)
    (h : HonoursLength w buf) : CastKeeps w buf := by
  intro ty off n hd
  by_contra hcut
  rw [not_or, Nat.not_lt, Nat.not_lt] at hcut
  obtain ⟨hn, hge⟩ := hcut
  have hparse := parseCapsule_of_declares w hd
  rw [if_neg (by omega), Nat.mod_eq_of_lt (by omega)] at hparse
  obtain ⟨m, hm, htotal, -⟩ := h.1 _ _ _ hparse
  obtain ⟨-, -, rfl⟩ := hd.unique hm
  have hlt := Nat.mod_lt n (Nat.two_pow_pos w)
  omega

/-- **Declared lengths are honoured exactly where the cast does not shorten one to something
that has arrived.** -/
theorem honoursLength_iff {w : Nat} {buf : List UInt8} (hbuf : buf.length < 2 ^ w) :
    HonoursLength w buf ↔ CastKeeps w buf :=
  ⟨fun h => h.castKeeps hbuf, fun h => h.honoursLength hbuf⟩

/-- A 32-bit target takes a length of `2^32` for `0`. -/
theorem not_honoursLength_32 :
    ¬ HonoursLength 32 [0x00, 0xc0, 0x00, 0x00, 0x01, 0x00, 0x00, 0x00, 0x00] := by
  rintro ⟨hsome, -⟩
  obtain ⟨n, ⟨t, l, rest, ht, hl, hb, hoff⟩, htotal, -, hle, -⟩ := hsome 0 9 9 (by decide)
  have hz : IsVarint [0x00] 0 := ⟨0, by decide, by decide, by decide⟩
  have hbig : IsVarint [0xc0, 0x00, 0x00, 0x01, 0x00, 0x00, 0x00, 0x00] (2 ^ 32) :=
    ⟨3, by decide, by decide, by decide⟩
  have hdecl : Declares [0x00, 0xc0, 0x00, 0x00, 0x01, 0x00, 0x00, 0x00, 0x00] 0 9 (2 ^ 32) :=
    ⟨_, _, [], hz, hbig, rfl, rfl⟩
  obtain ⟨-, -, rfl⟩ := hdecl.unique ⟨t, l, rest, ht, hl, hb, hoff⟩
  exact absurd htotal (by decide)

/-- A length of `2^32 + 2`, of which the cast leaves the two bytes that have arrived. -/
def shortened : List UInt8 :=
  [0x00, 0xc0, 0x00, 0x00, 0x01, 0x00, 0x00, 0x00, 0x02, 0x45, 0x00]

theorem honoursLength_iff_shortened : HonoursLength 32 shortened ↔ CastKeeps 32 shortened :=
  honoursLength_iff (by decide)

/-- No varint reaches `2^64`, so a 64-bit target honours every declared length. -/
theorem honoursLength_64 {buf : List UInt8} (h : buf.length < 2 ^ 64) : HonoursLength 64 buf := by
  have hcast : CastKeeps 64 buf := by
    intro ty off n hd
    have := hd.bounds.2.2
    exact Or.inl (by omega)
  exact hcast.honoursLength h

/-! ## The parser against the grammar, on 64 bits -/

theorem IsCapsule.declares {bs : List UInt8} {c : Capsule} (h : IsCapsule bs c)
    (rest : List UInt8) :
    Declares (bs ++ rest) c.ctype (bs.length - c.value.length) c.value.length := by
  obtain ⟨t, l, ht, hl, rfl⟩ := h
  have hlen : (t ++ l ++ c.value).length = (t ++ l).length + c.value.length :=
    List.length_append
  refine ⟨t, l, c.value ++ rest, ht, hl, List.append_assoc .., ?_⟩
  rw [hlen, Nat.add_sub_cancel]

theorem IsCapsule.length_value_le {bs : List UInt8} {c : Capsule} (h : IsCapsule bs c) :
    c.value.length ≤ bs.length := by
  obtain ⟨t, l, -, -, rfl⟩ := h
  rw [List.length_append]
  omega

/-- Two varints and enough bytes: the parser's answer. -/
theorem parseCapsule_of_isCapsule {bs : List UInt8} {c : Capsule} (h : IsCapsule bs c)
    (rest : List UInt8) :
    parseCapsule 64 (bs ++ rest)
      = some (c.ctype, bs.length - c.value.length, bs.length) := by
  have hd := h.declares rest
  obtain ⟨-, hoff, hn⟩ := hd.bounds
  have hle := h.length_value_le
  have hcast : c.value.length % 2 ^ 64 = c.value.length := Nat.mod_eq_of_lt (by omega)
  have htotal : bs.length - c.value.length + c.value.length = bs.length := by omega
  have hshort : ¬ (bs ++ rest).length < bs.length := by
    rw [List.length_append]
    omega
  rw [parseCapsule_of_declares 64 hd, hcast, htotal, if_neg hshort,
    Nat.mod_eq_of_lt (by omega)]

/-- Whatever the parser accepts is a capsule followed by the rest of the buffer. -/
theorem isCapsule_of_parseCapsule {buf : List UInt8} {ty : UInt64} {off total : Nat}
    (h : parseCapsule 64 buf = some (ty, off, total)) :
    ∃ bs rest c, buf = bs ++ rest ∧ IsCapsule bs c ∧ c.ctype = ty := by
  by_cases hdecl : ∃ ty off n, Declares buf ty off n
  · obtain ⟨ty', off', n, hd⟩ := hdecl
    have hcast : n % 2 ^ 64 = n := Nat.mod_eq_of_lt (by have := hd.bounds; omega)
    rw [parseCapsule_of_declares 64 hd, hcast] at h
    split_ifs at h with hshort
    cases h
    obtain ⟨t, l, rest, ht, hl, rfl, rfl⟩ := hd
    have hval : (rest.take n).length = n := by
      rw [List.length_take]
      rw [List.length_append] at hshort
      omega
    refine ⟨t ++ l ++ rest.take n, rest.drop n, ⟨ty, rest.take n⟩, ?_, ?_, rfl⟩
    · simp only [List.append_assoc, List.take_append_drop]
    · exact ⟨t, l, ht, by rw [hval]; exact hl, rfl⟩
  · have hno : ∀ ty off n, ¬ Declares buf ty off n :=
      fun ty off n hd => hdecl ⟨ty, off, n, hd⟩
    rw [parseCapsule_of_not_declares 64 hno] at h
    cases h

/-- **On 64 bits the parser finds exactly the capsule at the front of the buffer.** -/
theorem parseCapsule_eq_some {buf : List UInt8} {ty : UInt64} {off total : Nat} :
    parseCapsule 64 buf = some (ty, off, total) ↔
      ∃ bs rest c, buf = bs ++ rest ∧ IsCapsule bs c ∧ c.ctype = ty
        ∧ off = bs.length - c.value.length ∧ total = bs.length := by
  constructor
  · intro h
    obtain ⟨bs, rest, c, rfl, hc, rfl⟩ := isCapsule_of_parseCapsule h
    rw [parseCapsule_of_isCapsule hc rest] at h
    cases h
    exact ⟨bs, rest, c, rfl, hc, rfl, rfl, rfl⟩
  · rintro ⟨bs, rest, c, rfl, hc, rfl, rfl, rfl⟩
    exact parseCapsule_of_isCapsule hc rest

theorem parseCapsule_eq_none {buf : List UInt8} :
    parseCapsule 64 buf = none ↔ ∀ bs rest c, buf = bs ++ rest → ¬ IsCapsule bs c := by
  constructor
  · rintro h bs rest c rfl hc
    rw [parseCapsule_of_isCapsule hc rest] at h
    cases h
  · intro h
    match hp : parseCapsule 64 buf with
    | none => rfl
    | some (_, _, _) =>
        obtain ⟨bs, rest, c, hb, hc, -⟩ := isCapsule_of_parseCapsule hp
        exact absurd hc (h bs rest c hb)

/-! ## The parser as a framer -/

/-- `parseCapsule` with the value cut out of the buffer. -/
def parseFront (buf : List UInt8) : Option (Capsule × Nat) :=
  (parseCapsule 64 buf).map fun (ctype, voff, total) =>
    (⟨ctype, (buf.take total).drop voff⟩, total)

theorem parseFront_eq_some {buf : List UInt8} {c : Capsule} {n : Nat} :
    parseFront buf = some (c, n) ↔
      ∃ bs rest, buf = bs ++ rest ∧ IsCapsule bs c ∧ n = bs.length := by
  simp only [parseFront, Option.map_eq_some_iff]
  constructor
  · rintro ⟨⟨ty, off, total⟩, hp, he⟩
    obtain ⟨bs, rest, c', rfl, hc, rfl, rfl, rfl⟩ := parseCapsule_eq_some.mp hp
    simp only [hc.slice, Prod.mk.injEq] at he
    obtain ⟨rfl, rfl⟩ := he
    exact ⟨bs, rest, rfl, hc, rfl⟩
  · rintro ⟨bs, rest, rfl, hc, rfl⟩
    refine ⟨_, parseCapsule_of_isCapsule hc rest, ?_⟩
    simp only [hc.slice]

theorem parseFront_eq_none {buf : List UInt8} :
    parseFront buf = none ↔ parseCapsule 64 buf = none := by
  simp only [parseFront, Option.map_eq_none_iff]

/-- The capsule parser takes frames off the front of the stream. -/
def capsuleFramer : Framer UInt8 Capsule where
  parse := parseFront
  total_pos := by
    intro buf c n h
    obtain ⟨bs, rest, -, hc, rfl⟩ := parseFront_eq_some.mp h
    exact hc.length_pos
  total_le := by
    intro buf c n h
    obtain ⟨bs, rest, rfl, -, rfl⟩ := parseFront_eq_some.mp h
    rw [List.length_append]
    omega
  stable := by
    intro buf c n h ext
    obtain ⟨bs, rest, rfl, hc, rfl⟩ := parseFront_eq_some.mp h
    exact parseFront_eq_some.mpr ⟨bs, rest ++ ext, List.append_assoc .., hc, rfl⟩

/-- The stream as the grammar cuts it: capsules one after the other, then bytes that do not
start with a complete capsule. -/
inductive CapsuleStream : List UInt8 → List Capsule → List UInt8 → Prop
  | leftover {buf : List UInt8} :
      (∀ bs rest c, buf = bs ++ rest → ¬ IsCapsule bs c) → CapsuleStream buf [] buf
  | capsule {bs rest : List UInt8} {c : Capsule} {cs : List Capsule} {left : List UInt8} :
      IsCapsule bs c → CapsuleStream rest cs left → CapsuleStream (bs ++ rest) (c :: cs) left

theorem CapsuleStream.splits {buf left : List UInt8} {cs : List Capsule}
    (h : CapsuleStream buf cs left) : capsuleFramer.Splits buf cs left := by
  induction h with
  | leftover h => exact .rest (parseFront_eq_none.mpr (parseCapsule_eq_none.mpr h))
  | @capsule bs rest c cs left hc _ ih =>
      have hp : parseFront (bs ++ rest) = some (c, bs.length) :=
        parseFront_eq_some.mpr ⟨bs, rest, rfl, hc, rfl⟩
      refine .frame hp ?_
      rw [List.drop_left]
      exact ih

theorem capsuleStream_of_splits {buf left : List UInt8} {cs : List Capsule}
    (h : capsuleFramer.Splits buf cs left) : CapsuleStream buf cs left := by
  induction h with
  | rest h => exact .leftover (parseCapsule_eq_none.mp (parseFront_eq_none.mp h))
  | @frame buf c n cs left hp _ ih =>
      obtain ⟨bs, rest, rfl, hc, rfl⟩ := parseFront_eq_some.mp hp
      rw [List.drop_left] at ih
      exact .capsule hc ih

/-- Draining a buffer cuts it as the grammar does. -/
theorem drain_capsuleStream (buf : List UInt8) :
    CapsuleStream buf (capsuleFramer.drain buf).1 (capsuleFramer.drain buf).2 :=
  capsuleStream_of_splits (capsuleFramer.drain_splits buf)

end WarpProxy
