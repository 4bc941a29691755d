/-
# `WarpProxy.H3.PrefixInt` — the prefixed integers of the vendored `h3`

`qpack/prefix_int.rs`: an integer that shares its first byte with `8 - size` flag
bits.  One that does not fit into the `size` low bits of that byte sets them all
and goes on in groups of seven bits (`Lib.Base128`), nine of them at most.

    decode_ok_iff    what `decode` accepts, in the format's own terms
    decode_encode    the round trip, up to the capacity
    decode_overflow  `encode` does not know of the capacity: past it, `decode` refuses
-/
import WarpProxy.Lib.Base128

namespace WarpProxy.H3.PrefixInt

open Base128

inductive Error where
  | overflow
  | unexpectedEnd
  deriving DecidableEq, Repr

/-- The result of `u64` arithmetic. -/
def u64 (n : Nat) : Nat := n % 2 ^ 64

def maxPower : Nat := 9 * 7

/-- The loop of `decode`. -/
def decodeRest : Nat → Nat → List UInt8 → Except Error (Nat × List UInt8)
  | _, _, [] => .error .unexpectedEnd
  | value, power, byte :: buf =>
      let value := u64 (value + u64 ((byte.toNat &&& 127) <<< power))
      let power := power + 7
      if byte &&& 128 = 0 then .ok (value, buf)
      else if maxPower ≤ power then .error .overflow
      else decodeRest value power buf

/-- The flags and the value, and what is left of the buffer. -/
def decode (size : Nat) : List UInt8 → Except Error ((UInt8 × Nat) × List UInt8)
  | [] => .error .unexpectedEnd
  | first :: buf =>
      let flags := UInt8.ofNat (first.toNat >>> size)
      let mask := (0xFF : UInt8) >>> UInt8.ofNat (8 - size)
      let first := first &&& mask
      if first < mask then .ok ((flags, first.toNat), buf)
      else
        match decodeRest mask.toNat 0 buf with
        | .ok (value, buf) => .ok ((flags, value), buf)
        | .error err => .error err

/-- The loop of `encode`, and the last byte. -/
def encodeRest (remaining : Nat) : List UInt8 :=
  if 128 ≤ remaining then UInt8.ofNat (remaining % 128 + 128) :: encodeRest (remaining / 128)
  else [UInt8.ofNat remaining]
termination_by remaining
decreasing_by omega

def encode (size : Nat) (flags : UInt8) (value : Nat) : List UInt8 :=
  let mask := (~~~((0xFF : UInt32) <<< UInt32.ofNat size)).toUInt8
  let flags := UInt8.ofNat (flags.toNat <<< size)
  if value < mask.toNat then [flags ||| UInt8.ofNat value]
  else (mask ||| flags) :: encodeRest (value - mask.toNat)

/-! ## The first byte -/

/-- The first value that does not fit into the first byte. -/
def limit (size : Nat) : Nat := 2 ^ size - 1

theorem decode_mask {size : Nat} (hpos : 0 < size) (h : size ≤ 8) :
    ((0xFF : UInt8) >>> UInt8.ofNat (8 - size)).toNat = limit size := by
  have hall : ∀ s : Fin 9, 0 < s.val →
      ((0xFF : UInt8) >>> UInt8.ofNat (8 - s.val)).toNat = limit s.val := by
    decide
  exact hall ⟨size, by omega⟩ hpos

theorem encode_mask {size : Nat} (h : size ≤ 8) :
    (~~~((0xFF : UInt32) <<< UInt32.ofNat size)).toUInt8.toNat = limit size := by
  have hall : ∀ s : Fin 9,
      (~~~((0xFF : UInt32) <<< UInt32.ofNat s.val)).toUInt8.toNat = limit s.val := by
    decide
  exact hall ⟨size, by omega⟩

theorem limit_lt {size : Nat} (h : size ≤ 8) : limit size < 256 := by
  have hpow : 2 ^ size ≤ 2 ^ 8 := Nat.pow_le_pow_right (by decide) h
  have hpos := Nat.two_pow_pos size
  simp only [limit]
  omega

/-- The first byte of `decode`: the flags, and the low bits under the mask. -/
theorem decode_cons {size : Nat} (hpos : 0 < size) (h : size ≤ 8) (first : UInt8)
    (buf : List UInt8) :
    decode size (first :: buf)
      = if first.toNat % 2 ^ size < limit size then
          .ok ((UInt8.ofNat (first.toNat / 2 ^ size), first.toNat % 2 ^ size), buf)
        else
          match decodeRest (limit size) 0 buf with
          | .ok (value, buf) => .ok ((UInt8.ofNat (first.toNat / 2 ^ size), value), buf)
          | .error err => .error err := by
  have hmask := decode_mask hpos h
  have hand : (first &&& (0xFF : UInt8) >>> UInt8.ofNat (8 - size)).toNat
      = first.toNat % 2 ^ size := by
    rw [UInt8.toNat_and, hmask, limit, Nat.and_two_pow_sub_one_eq_mod]
  simp only [decode, UInt8.lt_iff_toNat_lt, hand, hmask, Nat.shiftRight_eq_div_pow]

/-- The two fields of a first byte. -/
theorem toNat_or_fields {size : Nat} {flags low x : UInt8} (hflags : flags.toNat < 2 ^ (8 - size))
    (hsize : size ≤ 8) (hx : x.toNat = flags.toNat <<< size % 256) (hlow : low.toNat < 2 ^ size) :
    (x ||| low).toNat = 2 ^ size * flags.toNat + low.toNat := by
  have hpow : 2 ^ (8 - size) * 2 ^ size = 256 := by
    rw [← Nat.pow_add, Nat.sub_add_cancel hsize]
  have hlt : flags.toNat * 2 ^ size < 256 := by
    rw [← hpow]
    exact Nat.mul_lt_mul_of_pos_right hflags (Nat.two_pow_pos size)
  rw [UInt8.toNat_or, hx, Nat.shiftLeft_eq, Nat.mod_eq_of_lt hlt, Nat.mul_comm,
    Nat.two_pow_add_eq_or_of_lt hlow]

/-! ## The groups -/

theorem encodeRest_eq (n : Nat) : encodeRest n = write n := by
  induction n using Nat.strongRecOn with
  | ind n ih =>
      rw [encodeRest, write]
      by_cases h : 128 ≤ n
      · rw [if_pos h, if_pos h, ih (n / 128) (by omega)]
      · rw [if_neg h, if_neg h]

theorem and_128 (b : UInt8) : b &&& 128 = 0 ↔ b.toNat < 128 := by
  have hall : ∀ b : Fin 256, UInt8.ofNat b.val &&& 128 = 0 ↔ b.val < 128 := by
    decide +kernel
  have h := hall ⟨b.toNat, b.toNat_lt⟩
  simpa using h

/-- What the value can be before turn `j`. -/
def Small (acc j : Nat) : Prop := acc < 256 + 2 ^ (7 * j)

theorem Small.next {acc j : Nat} (h : Small acc j) (byte : UInt8) :
    Small (acc + byte.toNat % 128 * 2 ^ (7 * j)) (j + 1) := by
  have hmod : byte.toNat % 128 ≤ 127 := by omega
  have hmul := Nat.mul_le_mul_right (2 ^ (7 * j)) hmod
  have hpow : 2 ^ (7 * (j + 1)) = 128 * 2 ^ (7 * j) := by
    rw [Nat.mul_add 7 j 1, Nat.pow_add]
    ring
  simp only [Small] at h ⊢
  omega

theorem Small.lt {acc j : Nat} (h : Small acc j) (hj : j ≤ 9) : acc < 2 ^ 64 := by
  have hpow : 2 ^ (7 * j) ≤ 2 ^ 63 := Nat.pow_le_pow_right (by decide) (by omega)
  simp only [Small] at h
  omega

/-- One turn of the loop: nothing wraps. -/
theorem decodeRest_cons {acc j : Nat} (h : Small acc j) (hj : j ≤ 8) (byte : UInt8)
    (buf : List UInt8) :
    decodeRest acc (7 * j) (byte :: buf)
      = if byte.toNat < 128 then .ok (acc + byte.toNat % 128 * 2 ^ (7 * j), buf)
        else if j = 8 then .error .overflow
        else decodeRest (acc + byte.toNat % 128 * 2 ^ (7 * j)) (7 * (j + 1)) buf := by
  have hand : byte.toNat &&& 127 = byte.toNat % 128 :=
    Nat.and_two_pow_sub_one_eq_mod byte.toNat 7
  have hlt := (h.next byte).lt (by omega)
  have hvalue : u64 (acc + u64 ((byte.toNat &&& 127) <<< (7 * j)))
      = acc + byte.toNat % 128 * 2 ^ (7 * j) := by
    have hterm : byte.toNat % 128 * 2 ^ (7 * j) < 2 ^ 64 := by omega
    rw [hand, Nat.shiftLeft_eq, u64, u64, Nat.mod_eq_of_lt hterm, Nat.mod_eq_of_lt hlt]
  have hmax : maxPower ≤ 7 * j + 7 ↔ j = 8 := by
    simp only [maxPower]
    omega
  simp only [decodeRest, hvalue, and_128, hmax, Nat.mul_add, Nat.mul_one]

/-- **What the loop reads**: groups, up to the ninth. -/
theorem decodeRest_groups {bs : List UInt8} {v : Nat} (h : Groups bs v) {acc j : Nat}
    (hlen : bs.length + j ≤ 9) (hacc : Small acc j) (rest : List UInt8) :
    decodeRest acc (7 * j) (bs ++ rest) = .ok (acc + v * 2 ^ (7 * j), rest) := by
  induction h generalizing acc j with
  | @last b hb =>
      have hmod : b.toNat % 128 = b.toNat := Nat.mod_eq_of_lt hb
      simp only [List.length_singleton] at hlen
      rw [List.singleton_append, decodeRest_cons hacc (by omega), if_pos hb, hmod]
  | @more b bs v hb hg ih =>
      have hpos := hg.length_pos
      simp only [List.length_cons] at hlen
      have hsum : acc + (b.toNat % 128 + 128 * v) * 2 ^ (7 * j)
          = acc + b.toNat % 128 * 2 ^ (7 * j) + v * 2 ^ (7 * (j + 1)) := by
        rw [Nat.mul_add 7 j 1, Nat.pow_add]
        ring
      rw [List.cons_append, decodeRest_cons hacc (by omega), if_neg (by omega),
        if_neg (by omega), hsum]
      exact ih (by omega) (hacc.next b)

/-- Nine groups that all say that more follow are too many. -/
theorem decodeRest_overflow {front : List UInt8} {acc j : Nat} (hlen : front.length + j = 9)
    (hj : j ≤ 8) (hall : ∀ b ∈ front, 128 ≤ b.toNat) (hacc : Small acc j) (rest : List UInt8) :
    decodeRest acc (7 * j) (front ++ rest) = .error .overflow := by
  induction front generalizing acc j with
  | nil =>
      simp only [List.length_nil] at hlen
      omega
  | cons b front ih =>
      have hb := hall b List.mem_cons_self
      simp only [List.length_cons] at hlen
      rw [List.cons_append, decodeRest_cons hacc hj, if_neg (by omega)]
      by_cases h8 : j = 8
      · rw [if_pos h8]
      · rw [if_neg h8]
        exact ih (by omega) (by omega) (fun b' hb' => hall b' (List.mem_cons_of_mem _ hb'))
          (hacc.next b)

/-- Fewer of them are not enough. -/
theorem decodeRest_short {front : List UInt8} {acc j : Nat} (hlen : front.length + j < 9)
    (hall : ∀ b ∈ front, 128 ≤ b.toNat) (hacc : Small acc j) :
    decodeRest acc (7 * j) front = .error .unexpectedEnd := by
  induction front generalizing acc j with
  | nil => rfl
  | cons b front ih =>
      have hb := hall b List.mem_cons_self
      simp only [List.length_cons] at hlen
      rw [decodeRest_cons hacc (by omega), if_neg (by omega), if_neg (by omega)]
      exact ih (by omega) (fun b' hb' => hall b' (List.mem_cons_of_mem _ hb')) (hacc.next b)

/-- Nothing else is read. -/
theorem groups_of_decodeRest {buf rest : List UInt8} {acc j w : Nat} (hj : j ≤ 8)
    (hacc : Small acc j) (h : decodeRest acc (7 * j) buf = .ok (w, rest)) :
    ∃ bs v, Groups bs v ∧ buf = bs ++ rest ∧ bs.length + j ≤ 9 ∧ w = acc + v * 2 ^ (7 * j) := by
  induction buf generalizing acc j with
  | nil => simp [decodeRest] at h
  | cons b buf ih =>
      rw [decodeRest_cons hacc hj] at h
      by_cases hb : b.toNat < 128
      · rw [if_pos hb, Except.ok.injEq, Prod.mk.injEq] at h
        have hmod : b.toNat % 128 = b.toNat := Nat.mod_eq_of_lt hb
        refine ⟨[b], b.toNat, .last hb, by rw [h.2]; rfl, by simp; omega, by rw [← h.1, hmod]⟩
      · rw [if_neg hb] at h
        by_cases h8 : j = 8
        · simp [h8] at h
        · rw [if_neg h8] at h
          obtain ⟨bs, v, hg, rfl, hlen, rfl⟩ := ih (by omega) (hacc.next b) h
          refine ⟨b :: bs, _, .more (by omega) hg, rfl, by simp; omega, ?_⟩
          rw [Nat.mul_add 7 j 1, Nat.pow_add]
          ring

theorem decodeRest_shorter {value power w : Nat} {buf rest : List UInt8}
    (h : decodeRest value power buf = .ok (w, rest)) : rest.length < buf.length := by
  induction buf generalizing value power with
  | nil => simp [decodeRest] at h
  | cons b buf ih =>
      simp only [decodeRest] at h
      split at h
      · simp only [Except.ok.injEq, Prod.mk.injEq] at h
        simp [← h.2]
      · split at h
        · cases h
        · have := ih h
          simp only [List.length_cons]
          omega

/-- `decode` takes a byte at least. -/
theorem decode_shorter {size : Nat} {buf rest : List UInt8} {x : UInt8 × Nat}
    (h : decode size buf = .ok (x, rest)) : rest.length < buf.length := by
  cases buf with
  | nil => simp [decode] at h
  | cons first buf =>
      simp only [decode] at h
      split at h
      · simp only [Except.ok.injEq, Prod.mk.injEq] at h
        simp [← h.2]
      · split at h
        next value buf' hrest =>
            simp only [Except.ok.injEq, Prod.mk.injEq] at h
            have := decodeRest_shorter hrest
            simp only [List.length_cons, ← h.2]
            omega
        next => cases h

/-! ## The codec -/

/-- `bs` spell the flags and the value: a byte that has both, or one that has the flags and ones,
with groups of seven bits behind it. -/
inductive IsPrefixInt (size : Nat) : List UInt8 → Nat → Nat → Prop
  | short {b : UInt8} : b.toNat % 2 ^ size < limit size →
      IsPrefixInt size [b] (b.toNat / 2 ^ size) (b.toNat % 2 ^ size)
  | long {b : UInt8} {bs : List UInt8} {v : Nat} : b.toNat % 2 ^ size = limit size →
      Groups bs v → bs.length ≤ 9 → IsPrefixInt size (b :: bs) (b.toNat / 2 ^ size) (limit size + v)

/-- The flags are in the first byte. -/
theorem IsPrefixInt.flags_eq {size : Nat} {bs : List UInt8} {flags value : Nat}
    (h : IsPrefixInt size bs flags value) :
    ∃ (first : UInt8) (tail : List UInt8), bs = first :: tail ∧ first.toNat / 2 ^ size = flags := by
  cases h with
  | short _ => exact ⟨_, _, rfl, rfl⟩
  | long _ _ _ => exact ⟨_, _, rfl, rfl⟩

/-- **What `decode` accepts.** -/
theorem decode_ok_iff {size : Nat} (hpos : 0 < size) (hsize : size ≤ 8) {buf rest : List UInt8}
    {flags : UInt8} {value : Nat} :
    decode size buf = .ok ((flags, value), rest) ↔
      ∃ bs, IsPrefixInt size bs flags.toNat value ∧ buf = bs ++ rest := by
  have hsmall : Small (limit size) 0 := by
    have := limit_lt hsize
    simp only [Small]
    omega
  have hof : ∀ b : UInt8, (UInt8.ofNat (b.toNat / 2 ^ size)).toNat = b.toNat / 2 ^ size :=
    fun b => toNat_ofNat_lt (Nat.lt_of_le_of_lt (Nat.div_le_self ..) b.toNat_lt)
  constructor
  · intro h
    cases buf with
    | nil => cases h
    | cons first tail =>
        have hmod : first.toNat % 2 ^ size < 2 ^ size := Nat.mod_lt _ (Nat.two_pow_pos size)
        have hlimit : limit size + 1 = 2 ^ size := Nat.sub_add_cancel (Nat.two_pow_pos size)
        rw [decode_cons hpos hsize] at h
        split at h
        next hlow =>
            cases h
            exact ⟨[first], (hof first).symm ▸ .short hlow, rfl⟩
        next hlow =>
            have hfull : first.toNat % 2 ^ size = limit size := by omega
            split at h
            next value' rest' hrest =>
                cases h
                obtain ⟨bs, v, hg, rfl, hlen, rfl⟩ :=
                  groups_of_decodeRest (j := 0) (by decide) hsmall hrest
                rw [Nat.mul_zero, Nat.pow_zero, Nat.mul_one]
                exact ⟨first :: bs, (hof first).symm ▸ .long hfull hg hlen, rfl⟩
            next => cases h
  · rintro ⟨bs, hbs, rfl⟩
    generalize hflags : flags.toNat = n at hbs
    cases hbs with
    | @short b hlow =>
        obtain rfl : UInt8.ofNat (b.toNat / 2 ^ size) = flags := by
          rw [← hflags, UInt8.ofNat_toNat]
        rw [List.singleton_append, decode_cons hpos hsize, if_pos hlow]
    | @long b bs v hfull hg hlen =>
        obtain rfl : UInt8.ofNat (b.toNat / 2 ^ size) = flags := by
          rw [← hflags, UInt8.ofNat_toNat]
        have hread := decodeRest_groups hg (j := 0) hlen hsmall rest
        simp only [Nat.mul_zero, Nat.pow_zero, Nat.mul_one] at hread
        rw [List.cons_append, decode_cons hpos hsize, if_neg (by omega), hread]

/-- An integer at the front of a buffer. -/
theorem IsPrefixInt.decode_append {size : Nat} (hpos : 0 < size) (hsize : size ≤ 8)
    {bs : List UInt8} {flags value : Nat} (h : IsPrefixInt size bs flags value)
    (rest : List UInt8) :
    flags < 256 ∧ decode size (bs ++ rest) = .ok ((UInt8.ofNat flags, value), rest) := by
  obtain ⟨first, tail, -, hflags⟩ := h.flags_eq
  have hlt : flags < 256 :=
    hflags ▸ Nat.lt_of_le_of_lt (Nat.div_le_self ..) first.toNat_lt
  refine ⟨hlt, (decode_ok_iff hpos hsize).mpr ⟨bs, ?_, rfl⟩⟩
  rw [toNat_ofNat_lt hlt]
  exact h

section Fields

variable {size : Nat} {flags : UInt8} (hpos : 0 < size) (hsize : size ≤ 8)
  (hflags : flags.toNat < 2 ^ (8 - size))

include hsize hflags in
/-- The two fields of the first byte that `encode` writes. -/
theorem encode_first {low : UInt8} (hlow : low.toNat < 2 ^ size) :
    (UInt8.ofNat (flags.toNat <<< size) ||| low).toNat / 2 ^ size = flags.toNat
      ∧ (UInt8.ofNat (flags.toNat <<< size) ||| low).toNat % 2 ^ size = low.toNat := by
  rw [toNat_or_fields hflags hsize (UInt8.toNat_ofNat') hlow,
    Nat.mul_add_div (Nat.two_pow_pos size), Nat.mul_add_mod, Nat.div_eq_of_lt hlow,
    Nat.mod_eq_of_lt hlow]
  exact ⟨rfl, rfl⟩

include hsize hflags in
/-- What `encode` writes: one byte with the two fields, or one whose low bits are all set
and the groups of the rest. -/
theorem encode_eq (value : Nat) :
    ∃ first : UInt8, first.toNat / 2 ^ size = flags.toNat
      ∧ (value < limit size ∧ first.toNat % 2 ^ size = value
          ∧ encode size flags value = [first]
        ∨ limit size ≤ value ∧ first.toNat % 2 ^ size = limit size
          ∧ encode size flags value = first :: write (value - limit size)) := by
  have hmask := encode_mask hsize
  have hlt := limit_lt hsize
  have hlimit : limit size < 2 ^ size := by
    have := Nat.two_pow_pos size
    simp only [limit]
    omega
  by_cases hval : value < limit size
  · have hlow : (UInt8.ofNat value).toNat = value := toNat_ofNat_lt (by omega)
    obtain ⟨hdiv, hmod⟩ := @encode_first _ _ hsize hflags (UInt8.ofNat value) (by omega)
    refine ⟨_, hdiv, .inl ⟨hval, by rw [hmod, hlow], ?_⟩⟩
    simp only [encode, hmask, if_pos hval]
  · obtain ⟨hdiv, hmod⟩ := @encode_first _ _ hsize hflags
      (~~~((0xFF : UInt32) <<< UInt32.ofNat size)).toUInt8 (by omega)
    refine ⟨_, hdiv, .inr ⟨by omega, by rw [hmod, hmask], ?_⟩⟩
    simp only [encode, hmask, if_neg hval, encodeRest_eq]
    rw [UInt8.or_comm]

include hpos hsize hflags in
/-- **The round trip**: whatever follows, and up to what nine groups hold. -/
theorem decode_encode {value : Nat} (hvalue : value < limit size + 2 ^ 63) (rest : List UInt8) :
    decode size (encode size flags value ++ rest) = .ok ((flags, value), rest) := by
  obtain ⟨first, hdiv, ⟨hlt, hmod, heq⟩ | ⟨hle, hmod, heq⟩⟩ := encode_eq hsize hflags value
  · refine (decode_ok_iff hpos hsize).mpr ⟨[first], ?_, by rw [heq]⟩
    rw [← hdiv, ← hmod]
    exact .short (by omega)
  · have hlen : (write (value - limit size)).length ≤ 9 :=
      length_write_le (k := 8) (by norm_num; omega)
    refine (decode_ok_iff hpos hsize).mpr ⟨_, ?_, by rw [heq]⟩
    rw [← hdiv, ← Nat.add_sub_cancel' hle, Nat.add_sub_cancel_left]
    exact .long hmod (groups_write _) hlen

include hpos hsize hflags in
/-- The round trip of what is no more than a `usize` of the program's. -/
theorem decode_encode_lt {value : Nat} (hvalue : value < 2 ^ 63) (rest : List UInt8) :
    decode size (encode size flags value ++ rest) = .ok ((flags, value), rest) :=
  decode_encode hpos hsize hflags (Nat.lt_of_lt_of_le hvalue (Nat.le_add_left _ _)) rest

include hpos hsize hflags in
/-- `encode` does not know of the capacity; what it writes past it is refused. -/
theorem decode_overflow {value : Nat} (hvalue : limit size + 2 ^ 63 ≤ value)
    (rest : List UInt8) : decode size (encode size flags value ++ rest) = .error .overflow := by
  have hsmall : Small (limit size) 0 := by
    have := limit_lt hsize
    simp only [Small]
    omega
  obtain ⟨first, hdiv, ⟨hlt, hmod, heq⟩ | ⟨hle, hmod, heq⟩⟩ := encode_eq hsize hflags value
  · omega
  · obtain ⟨front, back, hwrite, hlen, hall⟩ :=
      write_eq_append (n := value - limit size) (k := 9) (by norm_num; omega)
    have hover := decodeRest_overflow (j := 0) hlen (by decide) hall hsmall (back ++ rest)
    rw [heq, hwrite, List.cons_append, decode_cons hpos hsize, if_neg (by omega),
      List.append_assoc]
    simp only [Nat.mul_zero] at hover
    rw [hover]

include hpos hsize hflags in
/-- A cut is noticed, wherever it is. -/
theorem decode_cut {value : Nat} (hvalue : value < limit size + 2 ^ 63) {cut : Nat}
    (hcut : cut < (encode size flags value).length) :
    decode size ((encode size flags value).take cut) = .error .unexpectedEnd := by
  have hsmall : Small (limit size) 0 := by
    have := limit_lt hsize
    simp only [Small]
    omega
  cases cut with
  | zero => rfl
  | succ cut =>
      obtain ⟨first, hdiv, ⟨hlt, hmod, heq⟩ | ⟨hle, hmod, heq⟩⟩ :=
        encode_eq hsize hflags value
      · simp [heq] at hcut
      · have hlen : (write (value - limit size)).length ≤ 9 :=
          length_write_le (k := 8) (by norm_num; omega)
        have hcut' : cut < (write (value - limit size)).length := by
          simpa [heq] using hcut
        have hshort := @decodeRest_short ((write (value - limit size)).take cut) (limit size) 0
          (by simp; omega)
          ((groups_write _).le_of_mem_take hcut') hsmall
        simp only [Nat.mul_zero] at hshort
        rw [heq, List.take_succ_cons, decode_cons hpos hsize, if_neg (by omega), hshort]

end Fields

/-- **The codec**: a value comes back exactly below the capacity of nine groups; above it
the decoder says so, and it notices every cut. -/
theorem prefixIntCodec {size : Nat} (hpos : 0 < size) (hsize : size ≤ 8) {flags : UInt8}
    (hflags : flags.toNat < 2 ^ (8 - size)) (value : Nat) (rest : List UInt8) :
    (decode size (encode size flags value ++ rest)
        = if value < limit size + 2 ^ 63 then .ok ((flags, value), rest) else .error .overflow)
      ∧ (value < limit size + 2 ^ 63 → ∀ cut < (encode size flags value).length,
          decode size ((encode size flags value).take cut) = .error .unexpectedEnd) := by
  refine ⟨?_, fun hvalue cut hcut => decode_cut hpos hsize hflags hvalue hcut⟩
  by_cases hvalue : value < limit size + 2 ^ 63
  · rw [if_pos hvalue, decode_encode hpos hsize hflags hvalue]
  · rw [if_neg hvalue, decode_overflow hpos hsize hflags (by omega)]

/-- An indexed field line with a large index. -/
theorem prefixIntCodec_indexed :
    decode 6 (encode 6 0b11 1337 ++ [0]) = .ok ((0b11, 1337), [0]) := by
  simpa using (@prefixIntCodec 6 (by decide) (by decide) 0b11 (by decide) 1337 [0]).1

end WarpProxy.H3.PrefixInt
