/-
# `WarpProxy.Tunnel.Varint` — the QUIC varint codec of `tunnel.rs`

`encodeVarint`, `varintLen` and `decodeVarint` on the machine types of the
source.  The encoder appends to the buffer it is given; the decoder takes a
slice by mutable reference, so it returns the slice it leaves as well, on
failure too.

Each is then related to the wire format (`QuicVarint.IsVarint`), which is what
the rest of the development cites:

    encodeVarint out v = out ++ bs  with  bs a varint of v, varintLen v bytes long
    decodeVarint buf = (some v, rest)  ⟺  buf = bs ++ rest, bs a varint of v
    decodeVarint buf = (none, rest)    ⟹  rest = buf
-/
import WarpProxy.Lib.QuicVarint

namespace WarpProxy

open QuicVarint

/-- Append `v` as a QUIC varint; `BigEndian.bytes n` is `uN::to_be_bytes`. -/
def encodeVarint (out : List UInt8) (v : UInt64) : List UInt8 :=
  if v < (1 : UInt64) <<< 6 then out ++ [v.toUInt8]
  else if v < (1 : UInt64) <<< 14 then out ++ BigEndian.bytes 2 (v.toUInt16 ||| 0x4000).toNat
  else if v < (1 : UInt64) <<< 30 then out ++ BigEndian.bytes 4 (v.toUInt32 ||| 0x80000000).toNat
  else out ++ BigEndian.bytes 8 (v ||| 0xC000000000000000).toNat

/-- Number of bytes `encodeVarint` would use for `v`. -/
def varintLen (v : UInt64) : Nat :=
  if v < (1 : UInt64) <<< 6 then 1
  else if v < (1 : UInt64) <<< 14 then 2
  else if v < (1 : UInt64) <<< 30 then 4
  else 8

/-- Read a QUIC varint from the front of `buf`: the value, `none` if truncated, and `buf`
as it is left. -/
def decodeVarint (buf : List UInt8) : Option UInt64 × List UInt8 :=
  match buf with
  | [] => (none, buf)
  | first :: tail =>
      let len := 1 <<< (first >>> 6).toNat
      if buf.length < len then (none, buf)
      else
        let v := (tail.take (len - 1)).foldl
          (fun (v : UInt64) (b : UInt8) => (v <<< 8) ||| b.toUInt64) (first &&& 0x3f).toUInt64
        (some v, buf.drop len)

/-! ## The machine operations as arithmetic -/

theorem toNat_shl8_or (v : UInt64) (b : UInt8) (h : v.toNat < 2 ^ 56) :
    ((v <<< 8) ||| b.toUInt64).toNat = v.toNat * 256 + b.toNat := by
  have hb := b.toNat_lt
  have hshift : (v <<< 8).toNat = v.toNat <<< 8 := by
    rw [UInt64.toNat_shiftLeft]
    show v.toNat <<< 8 % 2 ^ 64 = _
    rw [Nat.shiftLeft_eq, Nat.mod_eq_of_lt (by omega)]
  rw [UInt64.toNat_or, hshift, UInt8.toNat_toUInt64, ← Nat.shiftLeft_add_eq_or_of_lt hb,
    Nat.shiftLeft_eq]

theorem or_tag {x n : Nat} (tag : Nat) (h : x < 2 ^ n) :
    x ||| tag <<< n = tag * 2 ^ n + x := by
  rw [Nat.or_comm, ← Nat.shiftLeft_add_eq_or_of_lt h, Nat.shiftLeft_eq]

theorem toNat_shr6 (b : UInt8) : (b >>> 6).toNat = b.toNat / 64 := by
  rw [UInt8.toNat_shiftRight]
  exact Nat.shiftRight_eq_div_pow _ 6

theorem toNat_and_3f (b : UInt8) : (b &&& 0x3f).toUInt64.toNat = b.toNat % 64 := by
  rw [UInt8.toNat_toUInt64, UInt8.toNat_and]
  exact Nat.and_two_pow_sub_one_eq_mod _ 6

/-! ## The encoder writes a varint

One lemma a class: the truncating cast keeps the value and the tag bits are
above it. -/

theorem bytes_class0 (v : UInt64) : [v.toUInt8] = bytes 0 v.toNat := by
  have hv : v.toUInt8 = UInt8.ofNat v.toNat := by
    apply UInt8.toNat_inj.mp
    rw [UInt64.toNat_toUInt8, BigEndian.toNat_ofNat]
  show [v.toUInt8] = [UInt8.ofNat ((0 * bound 0 + v.toNat) / 256 ^ 0)]
  rw [hv, Nat.zero_mul, Nat.zero_add, Nat.pow_zero, Nat.div_one]

theorem bytes_class1 (v : UInt64) (h : v.toNat < 2 ^ 14) :
    BigEndian.bytes 2 (v.toUInt16 ||| 0x4000).toNat = bytes 1 v.toNat := by
  have hv : (v.toUInt16 ||| 0x4000).toNat = 1 * 2 ^ 14 + v.toNat := by
    rw [UInt16.toNat_or, UInt64.toNat_toUInt16, Nat.mod_eq_of_lt (by omega)]
    exact or_tag 1 h
  rw [hv]
  rfl

theorem bytes_class2 (v : UInt64) (h : v.toNat < 2 ^ 30) :
    BigEndian.bytes 4 (v.toUInt32 ||| 0x80000000).toNat = bytes 2 v.toNat := by
  have hv : (v.toUInt32 ||| 0x80000000).toNat = 2 * 2 ^ 30 + v.toNat := by
    rw [UInt32.toNat_or, UInt64.toNat_toUInt32, Nat.mod_eq_of_lt (by omega)]
    exact or_tag 2 h
  rw [hv]
  rfl

theorem bytes_class3 (v : UInt64) (h : v.toNat < 2 ^ 62) :
    BigEndian.bytes 8 (v ||| 0xC000000000000000).toNat = bytes 3 v.toNat := by
  have hv : (v ||| 0xC000000000000000).toNat = 3 * 2 ^ 62 + v.toNat := by
    rw [UInt64.toNat_or]
    exact or_tag 3 h
  rw [hv]
  rfl

/-- The class the encoder picks: the smallest that holds `v`. -/
def varintClass (v : UInt64) : Nat :=
  if v < (1 : UInt64) <<< 6 then 0
  else if v < (1 : UInt64) <<< 14 then 1
  else if v < (1 : UInt64) <<< 30 then 2
  else 3

theorem varintClass_lt (v : UInt64) : varintClass v < 4 := by
  unfold varintClass
  split_ifs <;> decide

theorem varintLen_eq (v : UInt64) : varintLen v = 2 ^ varintClass v := by
  unfold varintLen varintClass
  split_ifs <;> rfl

theorem lt_bound_varintClass (v : UInt64) (h : v.toNat < 2 ^ 62) :
    v.toNat < bound (varintClass v) := by
  unfold varintClass
  split_ifs with h₀ h₁ h₂
  · exact UInt64.lt_iff_toNat_lt.mp h₀
  · exact UInt64.lt_iff_toNat_lt.mp h₁
  · exact UInt64.lt_iff_toNat_lt.mp h₂
  · exact h

theorem encodeVarint_eq (out : List UInt8) (v : UInt64) (h : v.toNat < 2 ^ 62) :
    encodeVarint out v = out ++ bytes (varintClass v) v.toNat := by
  unfold encodeVarint varintClass
  split_ifs with h₀ h₁ h₂
  · rw [bytes_class0]
  · rw [bytes_class1 v (UInt64.lt_iff_toNat_lt.mp h₁)]
  · rw [bytes_class2 v (UInt64.lt_iff_toNat_lt.mp h₂)]
  · rw [bytes_class3 v h]

/-- **The encoder appends a varint of `v`, `varintLen v` bytes long.** -/
theorem encodeVarint_spec (out : List UInt8) (v : UInt64) (h : v.toNat < 2 ^ 62) :
    ∃ bs, encodeVarint out v = out ++ bs ∧ IsVarint bs v.toNat ∧ bs.length = varintLen v :=
  ⟨bytes (varintClass v) v.toNat, encodeVarint_eq out v h,
    isVarint_bytes (varintClass_lt v) (lt_bound_varintClass v h), by
      rw [length_bytes, varintLen_eq]⟩

/-! ## The decoder reads a varint -/

/-- The accumulation loop is big-endian reading, as long as nothing is shifted out. -/
theorem toNat_foldl_shl8 (t : List UInt8) (v : UInt64)
    (h : (v.toNat + 1) * 256 ^ t.length ≤ 2 ^ 64) :
    (t.foldl (fun (v : UInt64) (b : UInt8) => (v <<< 8) ||| b.toUInt64) v).toNat
      = BigEndian.read v.toNat t := by
  induction t generalizing v with
  | nil => rfl
  | cons b t ih =>
      have hb := b.toNat_lt
      have hpow : 1 ≤ 256 ^ t.length := Nat.one_le_pow _ _ (by decide)
      rw [List.length_cons, Nat.pow_succ, Nat.mul_comm _ 256, ← Nat.mul_assoc] at h
      have hv : (v.toNat + 1) * 256 ≤ 2 ^ 64 :=
        Nat.le_trans (Nat.le_mul_of_pos_right _ hpow) h
      have hstep := toNat_shl8_or v b (by omega)
      rw [List.foldl_cons, ih, hstep, BigEndian.read]
      rw [hstep]
      exact Nat.le_trans (Nat.mul_le_mul_right _ (by omega)) h

/-- A buffer whose first byte announces more bytes than are there is left alone. -/
theorem decodeVarint_short (f : UInt8) (t : List UInt8)
    (h : t.length < 2 ^ (f.toNat / 64) - 1) : decodeVarint (f :: t) = (none, f :: t) := by
  have hlen : (f :: t).length < 1 <<< (f >>> 6).toNat := by
    rw [toNat_shr6, Nat.one_shiftLeft, List.length_cons]
    omega
  simp only [decodeVarint, if_pos hlen]

/-- Otherwise the announced bytes are read and what follows them is left. -/
theorem decodeVarint_full (f : UInt8) (t rest : List UInt8)
    (h : t.length = 2 ^ (f.toNat / 64) - 1) :
    ∃ v : UInt64, v.toNat = BigEndian.read (f.toNat % 64) t
      ∧ decodeVarint (f :: t ++ rest) = (some v, rest) := by
  have hf := f.toNat_lt
  have hpos := Nat.two_pow_pos (f.toNat / 64)
  have hle : 2 ^ (f.toNat / 64) ≤ 2 ^ 3 := Nat.pow_le_pow_right (by decide) (by omega)
  have hnot : ¬ (f :: (t ++ rest)).length < 2 ^ (f.toNat / 64) := by
    rw [List.length_cons, List.length_append]
    omega
  have htake : (t ++ rest).take (2 ^ (f.toNat / 64) - 1) = t := by rw [← h, List.take_left]
  have hdrop : (f :: (t ++ rest)).drop (2 ^ (f.toNat / 64)) = rest := by
    rw [← List.cons_append, show 2 ^ (f.toNat / 64) = (f :: t).length by
      rw [List.length_cons]; omega, List.drop_left]
  refine ⟨_, ?_, by
    simp only [List.cons_append, decodeVarint, toNat_shr6, Nat.one_shiftLeft, if_neg hnot,
      htake, hdrop]; rfl⟩
  rw [toNat_foldl_shl8, toNat_and_3f]
  rw [toNat_and_3f]
  calc (f.toNat % 64 + 1) * 256 ^ t.length
      ≤ 64 * 256 ^ 7 := Nat.mul_le_mul (by omega) (Nat.pow_le_pow_right (by decide) (by omega))
    _ ≤ 2 ^ 64 := by decide

/-- **The decoder reads any varint, in any class, and leaves what follows it.** -/
theorem decodeVarint_append {bs : List UInt8} {n : Nat} (h : IsVarint bs n)
    (rest : List UInt8) :
    ∃ v : UInt64, v.toNat = n ∧ decodeVarint (bs ++ rest) = (some v, rest) := by
  obtain ⟨f, t, rfl, ht, rfl⟩ := h.cons
  exact decodeVarint_full f t rest ht

/-- The decoder either finds a varint at the front or leaves the buffer as it was. -/
theorem decodeVarint_cases (buf : List UInt8) :
    decodeVarint buf = (none, buf) ∨
      ∃ bs rest v, buf = bs ++ rest ∧ IsVarint bs v.toNat ∧ decodeVarint buf = (some v, rest) := by
  match buf with
  | [] => exact Or.inl rfl
  | f :: t =>
      by_cases h : t.length < 2 ^ (f.toNat / 64) - 1
      · exact Or.inl (decodeVarint_short f t h)
      · have hlen : (t.take (2 ^ (f.toNat / 64) - 1)).length = 2 ^ (f.toNat / 64) - 1 := by
          rw [List.length_take]
          omega
        obtain ⟨v, hv, hd⟩ := decodeVarint_full f _ (t.drop (2 ^ (f.toNat / 64) - 1)) hlen
        rw [List.cons_append, List.take_append_drop] at hd
        refine Or.inr ⟨f :: t.take (2 ^ (f.toNat / 64) - 1), _, v, ?_, ?_, hd⟩
        · rw [List.cons_append, List.take_append_drop]
        · rw [hv]
          exact cons_isVarint f _ hlen

/-- **The decoder's result, read back as the wire format.** -/
theorem decodeVarint_eq_some {buf rest : List UInt8} {v : UInt64} :
    decodeVarint buf = (some v, rest) ↔ ∃ bs, buf = bs ++ rest ∧ IsVarint bs v.toNat := by
  constructor
  · intro h
    rcases decodeVarint_cases buf with hn | ⟨bs, rest', v', hb, hv, hd⟩
    · rw [hn] at h
      cases h
    · rw [hd] at h
      cases h
      exact ⟨bs, hb, hv⟩
  · rintro ⟨bs, rfl, hv⟩
    obtain ⟨v', hv', hd⟩ := decodeVarint_append hv rest
    rw [hd, UInt64.toNat_inj.mp hv']

/-! ## The codec

The class the encoder picks is the smallest one, and a buffer that is cut
inside a varint has no other varint at its front. -/

theorem varintClass_le {v : UInt64} {k : Nat} (h : v.toNat < bound k) : varintClass v ≤ k := by
  have hle {c : Nat} (hc : ¬ v.toNat < bound c) : c + 1 ≤ k := by
    by_contra hk
    exact hc (Nat.lt_of_lt_of_le h (bound_mono (by omega)))
  unfold varintClass
  split_ifs with h₀ h₁ h₂
  · exact Nat.zero_le k
  · exact hle (c := 0) fun hc => h₀ (UInt64.lt_iff_toNat_lt.mpr hc)
  · exact hle (c := 1) fun hc => h₁ (UInt64.lt_iff_toNat_lt.mpr hc)
  · exact hle (c := 2) fun hc => h₂ (UInt64.lt_iff_toNat_lt.mpr hc)

/-- No varint of a value is shorter than the encoder's, and none of its length differs from
it. -/
theorem encodeVarint_le {bs : List UInt8} {v : UInt64} (h : IsVarint bs v.toNat) :
    (encodeVarint [] v).length ≤ bs.length
      ∧ ((encodeVarint [] v).length = bs.length → encodeVarint [] v = bs) := by
  rw [encodeVarint_eq [] v h.lt, List.nil_append]
  obtain ⟨k, -, hv, rfl⟩ := h
  rw [length_bytes, length_bytes]
  refine ⟨Nat.pow_le_pow_right (by decide) (varintClass_le hv), fun hlen => ?_⟩
  rw [Nat.pow_right_injective (Nat.le_refl 2) hlen]

/-- A varint that has not fully arrived is not read, and the buffer is left alone. -/
theorem decodeVarint_prefix {bs p q : List UInt8} {n : Nat} (h : IsVarint bs n)
    (hb : bs = p ++ q) (hq : q ≠ []) : decodeVarint p = (none, p) := by
  rcases decodeVarint_cases p with hn | ⟨bs', rest, v, rfl, hv, -⟩
  · exact hn
  · have hcut : bs ++ [] = bs' ++ (rest ++ q) := by
      rw [hb, List.append_nil, List.append_assoc]
    obtain ⟨-, -, hrest⟩ := h.append_inj hv hcut
    exact absurd (List.append_eq_nil_iff.mp hrest.symm).2 hq

theorem length_of_isVarint {bs : List UInt8} {n : Nat} (h : IsVarint bs n) :
    bs.length = 1 ∨ bs.length = 2 ∨ bs.length = 4 ∨ bs.length = 8 := by
  obtain ⟨k, hk, -, rfl⟩ := h
  rw [length_bytes]
  interval_cases k <;> decide

/-- **The varint codec.**  Below `2^62` the encoder appends `varintLen v` bytes, which decode
to `v` in front of anything and not at all when cut short; and what decodes at all is a
varint of one of the four lengths that is no shorter than the encoder's. -/
theorem varintCodec :
    (∀ v : UInt64, v.toNat < 2 ^ 62 →
      ∃ bs, (∀ out, encodeVarint out v = out ++ bs) ∧ bs.length = varintLen v
        ∧ (∀ s, decodeVarint (bs ++ s) = (some v, s))
        ∧ (∀ p q, bs = p ++ q → q ≠ [] → decodeVarint p = (none, p)))
    ∧ (∀ (buf rest : List UInt8) (v : UInt64), decodeVarint buf = (some v, rest) →
      v.toNat < 2 ^ 62 ∧ ∃ bs, buf = bs ++ rest
        ∧ (bs.length = 1 ∨ bs.length = 2 ∨ bs.length = 4 ∨ bs.length = 8)
        ∧ (encodeVarint [] v).length ≤ bs.length
        ∧ ((encodeVarint [] v).length = bs.length → encodeVarint [] v = bs)) := by
  constructor
  · intro v h
    have hv := isVarint_bytes (varintClass_lt v) (lt_bound_varintClass v h)
    refine ⟨bytes (varintClass v) v.toNat, fun out => encodeVarint_eq out v h, ?_, ?_, ?_⟩
    · rw [length_bytes, varintLen_eq]
    · intro s
      exact decodeVarint_eq_some.mpr ⟨_, rfl, hv⟩
    · intro p q hb hq
      exact decodeVarint_prefix hv hb hq
  · intro buf rest v h
    obtain ⟨bs, hb, hv⟩ := decodeVarint_eq_some.mp h
    obtain ⟨hle, heq⟩ := encodeVarint_le hv
    exact ⟨hv.lt, bs, hb, length_of_isVarint hv, hle, heq⟩

/-- At the first value of the third class, and at a two-byte varint of `5`. -/
theorem varintCodec_16384 :
    (∃ bs, (∀ out, encodeVarint out 16384 = out ++ bs) ∧ bs.length = varintLen 16384
      ∧ (∀ s, decodeVarint (bs ++ s) = (some 16384, s))
      ∧ (∀ p q, bs = p ++ q → q ≠ [] → decodeVarint p = (none, p)))
    ∧ (5 : UInt64).toNat < 2 ^ 62 :=
  ⟨varintCodec.1 16384 (by decide), (varintCodec.2 [0x40, 0x05, 7] [7] 5 rfl).1⟩

end WarpProxy
