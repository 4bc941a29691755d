/-
# `WarpProxy.H3.VarInt` — the varint codec of the vendored `h3`

`proto/varint.rs`, the second QUIC varint codec of the program: frame types, frame
lengths, settings and the identifiers on the control stream go through it, while
`tunnel.rs` has its own for what is in the datagrams.  Both are related to the wire
format (`Lib.QuicVarint`), and `agrees` says that they are one codec.
-/
import WarpProxy.Tunnel.Varint

namespace WarpProxy.H3.VarInt

open QuicVarint

structure UnexpectedEnd where
  n : Nat
  deriving DecidableEq, Repr

/-- `VarInt::size`.  A `VarInt` is below `2^62`. -/
def size (x : Nat) : Nat :=
  if x < 2 ^ 6 then 1 else if x < 2 ^ 14 then 2 else if x < 2 ^ 30 then 4 else 8

/-- `VarInt::encode`, and `write_var`, which panics from `2^62` on. -/
def encode (x : Nat) : List UInt8 :=
  if x < 2 ^ 6 then [UInt8.ofNat x]
  else if x < 2 ^ 14 then BigEndian.bytes 2 (0b01 <<< 14 ||| x)
  else if x < 2 ^ 30 then BigEndian.bytes 4 (0b10 <<< 30 ||| x)
  else BigEndian.bytes 8 (0b11 <<< 62 ||| x)

/-- `VarInt::decode`, `get_var`: the value, and what is left. -/
def decode : List UInt8 → Except UnexpectedEnd (Nat × List UInt8)
  | [] => .error ⟨0⟩
  | first :: r =>
      let tag := first >>> 6
      let b := first &&& 0b0011_1111
      if tag = 0b00 then .ok (b.toNat, r)
      else if tag = 0b01 then
        if r.length < 1 then .error ⟨1⟩
        else .ok (BigEndian.read 0 (b :: r.take 1), r.drop 1)
      else if tag = 0b10 then
        if r.length < 3 then .error ⟨2⟩
        else .ok (BigEndian.read 0 (b :: r.take 3), r.drop 3)
      else
        if r.length < 7 then .error ⟨3⟩
        else .ok (BigEndian.read 0 (b :: r.take 7), r.drop 7)

/-! ## The decoder -/

/-- The four branches are one: the tag is the class of the varint. -/
theorem decode_cons (first : UInt8) (r : List UInt8) :
    decode (first :: r)
      = if r.length < 2 ^ (first.toNat / 64) - 1 then .error ⟨first.toNat / 64⟩
        else .ok (BigEndian.read (first.toNat % 64) (r.take (2 ^ (first.toNat / 64) - 1)),
          r.drop (2 ^ (first.toNat / 64) - 1)) := by
  have hand : (first &&& 0b0011_1111).toNat = first.toNat % 64 := by
    rw [UInt8.toNat_and]
    exact Nat.and_two_pow_sub_one_eq_mod _ 6
  have htag (k : UInt8) : first >>> 6 = k ↔ first.toNat / 64 = k.toNat := by
    rw [← UInt8.toNat_inj, toNat_shr6]
  have hlt := first.toNat_lt
  simp only [decode, htag, BigEndian.read, Nat.zero_mul, Nat.zero_add, hand]
  have hclass : first.toNat / 64 = 0 ∨ first.toNat / 64 = 1 ∨ first.toNat / 64 = 2
      ∨ first.toNat / 64 = 3 := by omega
  rcases hclass with h | h | h | h <;> simp [h, BigEndian.read]

/-- **What `decode` accepts** are the varints, of any class. -/
theorem decode_ok_iff {buf rest : List UInt8} {v : Nat} :
    decode buf = .ok (v, rest) ↔ ∃ bs, IsVarint bs v ∧ buf = bs ++ rest := by
  constructor
  · intro h
    cases buf with
    | nil => simp [decode] at h
    | cons first r =>
        rw [decode_cons] at h
        by_cases hshort : r.length < 2 ^ (first.toNat / 64) - 1
        · simp [hshort] at h
        · rw [if_neg hshort, Except.ok.injEq, Prod.mk.injEq] at h
          refine ⟨first :: r.take (2 ^ (first.toNat / 64) - 1), ?_, ?_⟩
          · rw [← h.1]
            exact cons_isVarint _ _ (by simp; omega)
          · rw [← h.2, List.cons_append, List.take_append_drop]
  · rintro ⟨bs, hbs, rfl⟩
    obtain ⟨first, t, rfl, ht, rfl⟩ := hbs.cons
    rw [List.cons_append, decode_cons, if_neg (by simp; omega), ← ht, List.take_left,
      List.drop_left]

theorem decode_append {bs : List UInt8} {v : Nat} (h : IsVarint bs v) (rest : List UInt8) :
    decode (bs ++ rest) = .ok (v, rest) :=
  decode_ok_iff.mpr ⟨bs, h, rfl⟩

theorem decode_shorter {buf rest : List UInt8} {v : Nat} (h : decode buf = .ok (v, rest)) :
    rest.length < buf.length := by
  obtain ⟨bs, hbs, rfl⟩ := decode_ok_iff.mp h
  have := hbs.length_pos
  simp only [List.length_append]
  omega

/-- The number in the error is small. -/
theorem decode_error_le {buf : List UInt8} {err : UnexpectedEnd} (h : decode buf = .error err) :
    err.n ≤ buf.length + 2 := by
  cases buf with
  | nil =>
      simp only [decode, Except.error.injEq] at h
      simp [← h]
  | cons first r =>
      have hlt := first.toNat_lt
      rw [decode_cons] at h
      split at h
      · simp only [Except.error.injEq] at h
        rw [← h, List.length_cons]
        show first.toNat / 64 ≤ _
        omega
      · cases h

/-- What has been read is read from every extension of the buffer. -/
theorem decode_extend {buf rest : List UInt8} {v : Nat} (h : decode buf = .ok (v, rest))
    (ext : List UInt8) : decode (buf ++ ext) = .ok (v, rest ++ ext) := by
  obtain ⟨bs, hbs, rfl⟩ := decode_ok_iff.mp h
  exact decode_ok_iff.mpr ⟨bs, hbs, List.append_assoc ..⟩

/-- A varint that has not fully arrived is not read. -/
theorem decode_cut {bs p q : List UInt8} {v : Nat} (h : IsVarint bs v) (hbs : bs = p ++ q)
    (hq : q ≠ []) : ∃ err, decode p = .error err := by
  cases hp : decode p with
  | error err => exact ⟨err, rfl⟩
  | ok x =>
      obtain ⟨bs', hbs', heq⟩ := decode_ok_iff.mp hp
      have hcut : bs ++ [] = bs' ++ (x.2 ++ q) := by
        rw [List.append_nil, hbs, heq, List.append_assoc]
      obtain ⟨-, -, hrest⟩ := h.append_inj hbs' hcut
      exact absurd (List.append_eq_nil_iff.mp hrest.symm).2 hq

/-! ## The encoder -/

/-- The two encoders write the same bytes. -/
theorem encode_eq (v : UInt64) (h : v.toNat < 2 ^ 62) :
    encode v.toNat = encodeVarint [] v := by
  have h₀ : v < (1 : UInt64) <<< 6 ↔ v.toNat < 2 ^ 6 := UInt64.lt_iff_toNat_lt
  have h₁ : v < (1 : UInt64) <<< 14 ↔ v.toNat < 2 ^ 14 := UInt64.lt_iff_toNat_lt
  have h₂ : v < (1 : UInt64) <<< 30 ↔ v.toNat < 2 ^ 30 := UInt64.lt_iff_toNat_lt
  simp only [encode, encodeVarint, h₀, h₁, h₂, List.nil_append]
  by_cases c₀ : v.toNat < 2 ^ 6
  · have hcast : v.toUInt8 = UInt8.ofNat v.toNat := by
      apply UInt8.toNat_inj.mp
      rw [UInt64.toNat_toUInt8, BigEndian.toNat_ofNat]
    rw [if_pos c₀, if_pos c₀, hcast]
  · by_cases c₁ : v.toNat < 2 ^ 14
    · rw [if_neg c₀, if_pos c₁, if_neg c₀, if_pos c₁, UInt16.toNat_or, UInt64.toNat_toUInt16,
        Nat.mod_eq_of_lt (by omega), Nat.or_comm]
      rfl
    · by_cases c₂ : v.toNat < 2 ^ 30
      · rw [if_neg c₀, if_neg c₁, if_pos c₂, if_neg c₀, if_neg c₁, if_pos c₂, UInt32.toNat_or,
          UInt64.toNat_toUInt32, Nat.mod_eq_of_lt (by omega), Nat.or_comm]
        rfl
      · rw [if_neg c₀, if_neg c₁, if_neg c₂, if_neg c₀, if_neg c₁, if_neg c₂, UInt64.toNat_or,
          Nat.or_comm]
        rfl

theorem isVarint_encode {x : Nat} (h : x < 2 ^ 62) : IsVarint (encode x) x := by
  have hx : (UInt64.ofNat x).toNat = x := by
    rw [UInt64.toNat_ofNat']
    exact Nat.mod_eq_of_lt (by omega)
  obtain ⟨bs, heq, hbs, -⟩ := encodeVarint_spec [] (UInt64.ofNat x) (by rw [hx]; exact h)
  have henc := encode_eq (UInt64.ofNat x) (by rw [hx]; exact h)
  rw [hx] at henc hbs
  rw [henc, heq, List.nil_append]
  exact hbs

theorem length_encode (x : Nat) : (encode x).length = size x := by
  unfold encode size
  split
  · rfl
  · split
    · exact BigEndian.length_bytes _ _
    · split <;> exact BigEndian.length_bytes _ _

/-- **One codec**: what `h3` writes and reads is what `tunnel.rs` does, for every value and
every buffer. -/
theorem agrees (v : UInt64) (buf rest : List UInt8) :
    (v.toNat < 2 ^ 62 → encode v.toNat = encodeVarint [] v ∧ size v.toNat = varintLen v)
      ∧ (decode buf = .ok (v.toNat, rest) ↔ decodeVarint buf = (some v, rest))
      ∧ ((∃ err, decode buf = .error err) ↔ decodeVarint buf = (none, buf)) := by
  refine ⟨fun h => ⟨encode_eq v h, ?_⟩, ?_, ?_⟩
  · obtain ⟨bs, heq, -, hlen⟩ := encodeVarint_spec [] v h
    rw [← length_encode, encode_eq v h, heq, List.nil_append, hlen]
  · rw [decode_ok_iff, decodeVarint_eq_some]
    constructor
    · rintro ⟨bs, hbs, rfl⟩
      exact ⟨bs, rfl, hbs⟩
    · rintro ⟨bs, rfl, hbs⟩
      exact ⟨bs, hbs, rfl⟩
  · constructor
    · rintro ⟨err, herr⟩
      rcases decodeVarint_cases buf with hnone | ⟨bs, rest', v', rfl, hv', -⟩
      · exact hnone
      · rw [decode_append hv'] at herr
        cases herr
    · intro hnone
      cases hdec : decode buf with
      | error err => exact ⟨err, rfl⟩
      | ok x =>
          obtain ⟨bs, hbs, rfl⟩ := decode_ok_iff.mp hdec
          obtain ⟨v', -, hv'⟩ := decodeVarint_append hbs x.2
          rw [hv'] at hnone
          cases hnone

/-- At the first value of the third class, and on a buffer that holds a longer varint of `5`. -/
theorem agrees_16384 :
    encode 16384 = encodeVarint [] 16384
      ∧ decode [0x80, 0, 0, 5, 9] = .ok (5, [9]) :=
  ⟨((agrees 16384 [] []).1 (by decide)).1,
    (agrees 5 [0x80, 0, 0, 5, 9] [9]).2.1.mpr (by decide)⟩

end WarpProxy.H3.VarInt
