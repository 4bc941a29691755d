/-
# `WarpProxy.H3.PrefixString` — the string literals of the vendored `h3`

`qpack/prefix_string/mod.rs`: a string is its length, a prefixed integer whose
lowest flag bit says whether the bytes are Huffman coded, and then the bytes.
`encode` always codes; `decode` takes both (`decode_encode`, `decode_plain`), and
`decode_ok_iff` says what it takes.
-/
import WarpProxy.H3.Huffman
import WarpProxy.H3.PrefixInt

namespace WarpProxy.H3.PrefixString

open Huffman.Encode (hpackEncode)
open Huffman.Decode (hpackDecode Padding)
open PrefixInt (IsPrefixInt)

/-- The encoder does not fail, and a `u64` is a `usize`: the other errors of the source do
not occur. -/
inductive Error where
  | unexpectedEnd
  | integer (err : PrefixInt.Error)
  | huffmanDecoding (err : Huffman.Decode.Error)
  deriving DecidableEq, Repr

/-- `From<IntegerError>` -/
def Error.ofInteger : PrefixInt.Error → Error
  | .unexpectedEnd => .unexpectedEnd
  | e => .integer e

def decode (size : Nat) (buf : List UInt8) : Except Error (List UInt8 × List UInt8) :=
  match PrefixInt.decode (size - 1) buf with
  | .error err => .error (.ofInteger err)
  | .ok ((flags, len), buf) =>
      if buf.length < len then .error .unexpectedEnd
      else if flags &&& 1 = 0 then .ok (buf.take len, buf.drop len)
      else
        match hpackDecode (buf.take len) with
        | .error err => .error (.huffmanDecoding err)
        | .ok decoded => .ok (decoded, buf.drop len)

def encode (size : Nat) (flags : UInt8) (value : List UInt8) : List UInt8 :=
  let encoded := hpackEncode value
  PrefixInt.encode (size - 1) (flags <<< 1 ||| 1) encoded.length ++ encoded

/-- `decode` takes a byte at least. -/
theorem decode_shorter {size : Nat} {buf rest value : List UInt8}
    (h : decode size buf = .ok (value, rest)) : rest.length < buf.length := by
  simp only [decode] at h
  cases hint : PrefixInt.decode (size - 1) buf with
  | error err => simp [hint] at h
  | ok p =>
      obtain ⟨⟨flags, len⟩, buf'⟩ := p
      have hlt := PrefixInt.decode_shorter hint
      have hdrop : (buf'.drop len).length ≤ buf'.length := by simp
      simp only [hint] at h
      split at h
      · cases h
      · split at h
        · simp only [Except.ok.injEq, Prod.mk.injEq] at h
          rw [← h.2]
          omega
        · split at h
          · cases h
          · simp only [Except.ok.injEq, Prod.mk.injEq] at h
            rw [← h.2]
            omega

/-! ## The flag -/

theorem toNat_shiftLeft_one {size : Nat} {flags : UInt8} (hpos : 1 < size)
    (hflags : flags.toNat < 2 ^ (8 - size)) : (flags <<< 1).toNat = 2 * flags.toNat := by
  have hpow : 2 ^ (8 - size) ≤ 2 ^ 6 := Nat.pow_le_pow_right (by decide) (by omega)
  rw [UInt8.toNat_shiftLeft, Nat.shiftLeft_eq, Nat.mod_eq_of_lt]
  · simp [Nat.mul_comm]
  · simp only [UInt8.reduceToNat, Nat.reduceMod]
    omega

theorem toNat_or_one {size : Nat} {flags : UInt8} (hpos : 1 < size)
    (hflags : flags.toNat < 2 ^ (8 - size)) :
    (flags <<< 1 ||| 1).toNat = 2 * flags.toNat + 1 := by
  have hor := Nat.two_pow_add_eq_or_of_lt (i := 1) (b := 1) (by decide) flags.toNat
  rw [UInt8.toNat_or, toNat_shiftLeft_one hpos hflags, UInt8.toNat_one]
  simpa using hor.symm

theorem and_one (x : UInt8) : x &&& 1 = 0 ↔ x.toNat % 2 = 0 := by
  have h : x.toNat &&& 1 = x.toNat % 2 := Nat.and_two_pow_sub_one_eq_mod x.toNat 1
  rw [← UInt8.toNat_inj, UInt8.toNat_and, UInt8.toNat_one, h, UInt8.toNat_zero]

/-! ## What is accepted -/

/-- `bs` spell the flags and the string: a length and so many bytes, which are the string, or whose
bits are the code words of its bytes and padding. -/
inductive IsPrefixString (size : Nat) : List UInt8 → Nat → List UInt8 → Prop
  | plain {bs value : List UInt8} {flags : Nat} :
      IsPrefixInt (size - 1) bs (2 * flags) value.length →
      IsPrefixString size (bs ++ value) flags value
  | coded {bs coded value : List UInt8} {flags : Nat} {tail : List Bool} :
      IsPrefixInt (size - 1) bs (2 * flags + 1) coded.length →
      BitString.ofBytes coded = value.flatMap Huffman.Encode.word ++ tail → Padding tail →
      IsPrefixString size (bs ++ coded) flags value

/-- The flags are in the first byte. -/
theorem IsPrefixString.flags_eq {size : Nat} (hpos : 1 < size) {bs value : List UInt8}
    {flags : Nat} (h : IsPrefixString size bs flags value) :
    ∃ (first : UInt8) (tail : List UInt8), bs = first :: tail ∧ first.toNat / 2 ^ size = flags := by
  have hsize : 2 ^ (size - 1) * 2 = 2 ^ size := Nat.two_pow_pred_mul_two (by omega)
  cases h with
  | plain hlen =>
      obtain ⟨first, tail, rfl, hflags⟩ := hlen.flags_eq
      refine ⟨first, _, rfl, ?_⟩
      rw [← hsize, ← Nat.div_div_eq_div_mul, hflags]
      omega
  | coded hlen _ _ =>
      obtain ⟨first, tail, rfl, hflags⟩ := hlen.flags_eq
      refine ⟨first, _, rfl, ?_⟩
      rw [← hsize, ← Nat.div_div_eq_div_mul, hflags]
      omega

/-- **What `decode` accepts.** -/
theorem decode_ok_iff {size : Nat} (hpos : 1 < size) (hsize : size ≤ 8)
    {buf rest value : List UInt8} (hbuf : 8 * buf.length + 8 < 2 ^ 32) :
    decode size buf = .ok (value, rest) ↔
      ∃ bs flags, IsPrefixString size bs flags value ∧ buf = bs ++ rest := by
  have hpos' : 0 < size - 1 := by omega
  have hsize' : size - 1 ≤ 8 := by omega
  constructor
  · intro h
    simp only [decode] at h
    split at h
    next => cases h
    next flags len buf' hint =>
        obtain ⟨bs, hbs, rfl⟩ := (PrefixInt.decode_ok_iff hpos' hsize').mp hint
        split at h
        next => cases h
        next hlen =>
            have htake : (buf'.take len).length = len := by
              rw [List.length_take]
              omega
            have hbytes : bs ++ buf' = bs ++ buf'.take len ++ buf'.drop len := by
              rw [List.append_assoc, List.take_append_drop]
            rw [← htake] at hbs
            split at h
            next hplain =>
                cases h
                rw [and_one] at hplain
                rw [show flags.toNat = 2 * (flags.toNat / 2) by omega] at hbs
                exact ⟨_, _, .plain hbs, hbytes⟩
            next hcoded =>
                rw [and_one] at hcoded
                rw [show flags.toNat = 2 * (flags.toNat / 2) + 1 by omega] at hbs
                split at h
                next => cases h
                next decoded hdecode =>
                    cases h
                    have hshort : 8 * (buf'.take len).length + 8 < 2 ^ 32 := by
                      rw [List.length_append] at hbuf
                      omega
                    obtain ⟨tail, hbits, hpadding⟩ :=
                      (Huffman.Decode.hpackDecode_ok_iff hshort _).mp hdecode
                    exact ⟨_, _, .coded hbs hbits hpadding, hbytes⟩
  · rintro ⟨bs, flags, hbs, rfl⟩
    cases hbs with
    | @plain bs _ _ hlen =>
        obtain ⟨hlt, hint⟩ := hlen.decode_append hpos' hsize' (value ++ rest)
        have hplain : UInt8.ofNat (2 * flags) &&& 1 = 0 := by
          rw [and_one, Base128.toNat_ofNat_lt hlt]
          omega
        have hfull : ¬ (value ++ rest).length < value.length := by simp
        simp only [decode, List.append_assoc, hint, if_neg hfull, if_pos hplain, List.take_left,
          List.drop_left]
    | @coded bs coded _ _ tail hlen hbits hpadding =>
        obtain ⟨hlt, hint⟩ := hlen.decode_append hpos' hsize' (coded ++ rest)
        have hcoded : ¬ UInt8.ofNat (2 * flags + 1) &&& 1 = 0 := by
          rw [and_one, Base128.toNat_ofNat_lt hlt]
          omega
        have hfull : ¬ (coded ++ rest).length < coded.length := by simp
        have hshort : 8 * coded.length + 8 < 2 ^ 32 := by
          simp only [List.length_append] at hbuf
          omega
        have hdecode : hpackDecode coded = .ok value :=
          (Huffman.Decode.hpackDecode_ok_iff hshort value).mpr ⟨tail, hbits, hpadding⟩
        simp only [decode, List.append_assoc, hint, if_neg hfull, if_neg hcoded, List.take_left,
          List.drop_left, hdecode]

/-! ## The codec -/

section Fields

variable {size : Nat} {flags : UInt8} (hpos : 1 < size) (hsize : size ≤ 8)
  (hflags : flags.toNat < 2 ^ (8 - size))

include hpos hsize hflags in
theorem flag_lt : (flags <<< 1 ||| 1).toNat < 2 ^ (8 - (size - 1)) := by
  rw [toNat_or_one hpos hflags]
  have hpow : 2 ^ (8 - (size - 1)) = 2 * 2 ^ (8 - size) := by
    rw [← Nat.pow_succ']
    congr 1
    omega
  omega

include hpos hsize hflags in
/-- The length that `encode` writes is read back, with the flag. -/
theorem decode_length {value : List UInt8} (hvalue : (hpackEncode value).length < 2 ^ 63)
    (buf : List UInt8) :
    PrefixInt.decode (size - 1)
        (PrefixInt.encode (size - 1) (flags <<< 1 ||| 1) (hpackEncode value).length ++ buf)
      = .ok ((flags <<< 1 ||| 1, (hpackEncode value).length), buf) := by
  exact PrefixInt.decode_encode_lt (by omega) (by omega) (flag_lt hpos hsize hflags) hvalue buf

include hpos hsize hflags in
/-- **The round trip**, whatever follows. -/
theorem decode_encode {value : List UInt8} (hvalue : value.length < 2 ^ 27)
    (rest : List UInt8) : decode size (encode size flags value ++ rest) = .ok (value, rest) := by
  have hlen := Huffman.Encode.length_hpackEncode_lt hvalue
  have hcoded : ¬ (flags <<< 1 ||| 1) &&& 1 = 0 := by
    rw [and_one, toNat_or_one hpos hflags]
    omega
  have hfull : ¬ (hpackEncode value ++ rest).length < (hpackEncode value).length := by simp
  simp only [decode, encode, List.append_assoc,
    @decode_length _ _ hpos hsize hflags value (by omega), if_neg hfull, if_neg hcoded,
    List.take_left, List.drop_left, Huffman.hpackDecode_hpackEncode value hlen]

include hpos hsize hflags in
/-- A cut is noticed, wherever it is. -/
theorem decode_cut {value : List UInt8} (hvalue : value.length < 2 ^ 27) {cut : Nat}
    (hcut : cut < (encode size flags value).length) :
    decode size ((encode size flags value).take cut) = .error .unexpectedEnd := by
  have hlen := Huffman.Encode.length_hpackEncode_lt hvalue
  have hlt := flag_lt hpos hsize hflags
  simp only [encode] at hcut ⊢
  generalize hhead : PrefixInt.encode (size - 1) (flags <<< 1 ||| 1)
    (hpackEncode value).length = head at hcut ⊢
  by_cases hin : cut < head.length
  · -- in the length
    have hint := @PrefixInt.decode_cut (size - 1) (flags <<< 1 ||| 1) (by omega) (by omega) hlt
      (hpackEncode value).length (by omega) cut (by rw [hhead]; exact hin)
    rw [hhead] at hint
    rw [List.take_append_of_le_length (Nat.le_of_lt hin)]
    simp only [decode, hint, Error.ofInteger]
  · -- in the bytes
    obtain ⟨k, rfl⟩ : ∃ k, cut = head.length + k := ⟨cut - head.length, by omega⟩
    have hk : k < (hpackEncode value).length := by
      simp only [List.length_append] at hcut
      omega
    have hshort : ((hpackEncode value).take k).length < (hpackEncode value).length := by
      simp only [List.length_take]
      omega
    rw [List.take_length_add_append, ← hhead]
    simp only [decode, @decode_length _ _ hpos hsize hflags value (by omega),
      if_pos hshort]

include hpos hsize hflags in
/-- `decode` also takes a string that is not coded. -/
theorem decode_plain {value : List UInt8} (hvalue : value.length < 2 ^ 63)
    (rest : List UInt8) :
    decode size (PrefixInt.encode (size - 1) (flags <<< 1) value.length ++ value ++ rest)
      = .ok (value, rest) := by
  have hlt := flag_lt hpos hsize hflags
  rw [toNat_or_one hpos hflags] at hlt
  have hplain : (flags <<< 1) &&& 1 = 0 := by
    rw [and_one, toNat_shiftLeft_one hpos hflags]
    omega
  have hprefix := @PrefixInt.decode_encode_lt (size - 1) (flags <<< 1)
    (by omega) (by omega) (by rw [toNat_shiftLeft_one hpos hflags]; omega) _ hvalue
    (value ++ rest)
  have hfull : ¬ (value ++ rest).length < value.length := by simp
  simp only [decode, List.append_assoc, hprefix, if_neg hfull, if_pos hplain, List.take_left,
    List.drop_left]

end Fields

/-- **String literals**: coded or not, a string comes back whatever follows it, and no part
of a coded one is taken for a string. -/
theorem prefixStringCodec {size : Nat} (hpos : 1 < size) (hsize : size ≤ 8) {flags : UInt8}
    (hflags : flags.toNat < 2 ^ (8 - size)) {value : List UInt8} (hvalue : value.length < 2 ^ 27)
    (rest : List UInt8) :
    decode size (encode size flags value ++ rest) = .ok (value, rest)
      ∧ decode size (PrefixInt.encode (size - 1) (flags <<< 1) value.length ++ value ++ rest)
          = .ok (value, rest)
      ∧ ∀ cut < (encode size flags value).length,
          decode size ((encode size flags value).take cut) = .error .unexpectedEnd :=
  ⟨decode_encode hpos hsize hflags hvalue rest,
    decode_plain hpos hsize hflags (by omega) rest,
    fun _ hcut => decode_cut hpos hsize hflags hvalue hcut⟩

/-- The name of a literal field line, `cf-connect`. -/
theorem prefixStringCodec_name :
    decode 4 (encode 4 0b0010 [99, 102, 45, 99, 111, 110, 110, 101, 99, 116] ++ [0x81])
      = .ok ([99, 102, 45, 99, 111, 110, 110, 101, 99, 116], [0x81]) :=
  (@prefixStringCodec 4 (by decide) (by decide) 0b0010 (by decide) _ (by decide) _).1

end WarpProxy.H3.PrefixString
