/-
# `WarpProxy.Lib.BitString` — bit strings, most significant bit first

A number as the list of its low bits and back, and a byte string as the list of
the bits of its bytes.  Positions count from the front: bit `k` of a byte string
is bit `7 - k % 8` of its byte `k / 8` (`getElem?_ofBytes`).

    ofNat n v      the `n` low bits of `v`, most significant first
    toNat bits     the number they spell
    ofBytes bs     eight bits for each byte
-/
import Mathlib.Tactic.Ring

namespace BitString

/-- The `n` low bits of `v`, most significant first. -/
def ofNat : Nat → Nat → List Bool
  | 0, _ => []
  | n + 1, v => v.testBit n :: ofNat n v

/-- The number that the bits spell after the bits of `acc`. -/
def toNatFrom : Nat → List Bool → Nat
  | acc, [] => acc
  | acc, b :: bits => toNatFrom (acc * 2 + b.toNat) bits

abbrev toNat (bits : List Bool) : Nat := toNatFrom 0 bits

def ofBytes (bs : List UInt8) : List Bool := bs.flatMap fun b => ofNat 8 b.toNat

@[simp] theorem length_ofNat (n v : Nat) : (ofNat n v).length = n := by
  induction n with
  | zero => rfl
  | succ n ih => simp [ofNat, ih]

theorem getElem_ofNat {n v i : Nat} (h : i < (ofNat n v).length) :
    (ofNat n v)[i] = v.testBit (n - 1 - i) := by
  induction n generalizing i with
  | zero => simp [ofNat] at h
  | succ n ih =>
      cases i with
      | zero => simp [ofNat]
      | succ i =>
          have hi : i < (ofNat n v).length := by simpa [ofNat] using h
          simp only [ofNat, List.getElem_cons_succ, ih hi]
          congr 1
          omega

/-- The bits below the first `k` are those of the same number. -/
theorem drop_ofNat {n k v : Nat} (_h : k ≤ n) : (ofNat n v).drop k = ofNat (n - k) v := by
  apply List.ext_getElem
  · simp
  · intro i h₁ h₂
    simp only [List.getElem_drop, getElem_ofNat]
    congr 1
    omega

/-- The first `k` bits are those of the number without its low ones. -/
theorem take_ofNat {n k v : Nat} (h : k ≤ n) :
    (ofNat n v).take k = ofNat k (v / 2 ^ (n - k)) := by
  apply List.ext_getElem
  · simp [h]
  · intro i h₁ h₂
    have hi : i < k := by simpa using h₂
    simp only [List.getElem_take, getElem_ofNat, Nat.testBit_div_two_pow]
    congr 1
    omega

theorem ofNat_append (m n hi lo : Nat) (h : lo < 2 ^ n) :
    ofNat m hi ++ ofNat n lo = ofNat (m + n) (hi * 2 ^ n + lo) := by
  apply List.ext_getElem
  · simp
  · intro i h₁ h₂
    have hlen : i < m + n := by simpa using h₂
    rw [getElem_ofNat, Nat.mul_comm, Nat.testBit_two_pow_mul_add hi h]
    by_cases him : i < m
    · rw [List.getElem_append_left (by simpa using him), getElem_ofNat,
        if_neg (by omega)]
      congr 1
      omega
    · rw [List.getElem_append_right (by simpa using him), getElem_ofNat, if_pos (by omega)]
      congr 1
      simp only [length_ofNat]
      omega

/-! ## Reading a number back -/

/-- The bits read so far are shifted past those that follow. -/
theorem toNatFrom_eq (bits : List Bool) (acc : Nat) :
    toNatFrom acc bits = acc * 2 ^ bits.length + toNatFrom 0 bits := by
  induction bits generalizing acc with
  | nil => simp [toNatFrom]
  | cons b bits ih =>
      rw [toNatFrom, ih, toNatFrom, ih (0 * 2 + b.toNat), List.length_cons]
      ring

@[simp] theorem toNat_nil : toNat [] = 0 := rfl

theorem toNat_cons (b : Bool) (bits : List Bool) :
    toNat (b :: bits) = b.toNat * 2 ^ bits.length + toNat bits := by
  simp [toNat, toNatFrom, toNatFrom_eq bits b.toNat]

theorem toNat_lt (bits : List Bool) : toNat bits < 2 ^ bits.length := by
  induction bits with
  | nil => simp
  | cons b bits ih =>
      have hb : b.toNat ≤ 1 := Bool.toNat_le b
      rw [toNat_cons, List.length_cons, Nat.pow_succ]
      calc b.toNat * 2 ^ bits.length + toNat bits
          < b.toNat * 2 ^ bits.length + 2 ^ bits.length := by omega
        _ = (b.toNat + 1) * 2 ^ bits.length := by ring
        _ ≤ 2 * 2 ^ bits.length := Nat.mul_le_mul_right _ (by omega)
        _ = 2 ^ bits.length * 2 := Nat.mul_comm _ _

/-- Reading what was written, up to the width. -/
theorem toNat_ofNat (n v : Nat) : toNat (ofNat n v) = v % 2 ^ n := by
  induction n with
  | zero => simp [ofNat, Nat.mod_one]
  | succ n ih =>
      have hbit : v.testBit n = decide (v / 2 ^ n % 2 = 1) := by
        rw [Nat.testBit_eq_decide_div_mod_eq]
      have hdiv : (v.testBit n).toNat = v / 2 ^ n % 2 := by
        rw [hbit]
        rcases Nat.mod_two_eq_zero_or_one (v / 2 ^ n) with h | h <;> simp [h]
      rw [ofNat, toNat_cons, length_ofNat, ih, hdiv, Nat.pow_succ, Nat.mod_mul]
      ring

theorem ofNat_toNat (bits : List Bool) : ofNat bits.length (toNat bits) = bits := by
  induction bits with
  | nil => rfl
  | cons b bits ih =>
      have hhead : ofNat 1 b.toNat = [b] := by cases b <;> rfl
      rw [toNat_cons, List.length_cons, Nat.add_comm, ← ofNat_append 1 _ _ _ (toNat_lt bits), ih,
        hhead, List.singleton_append]

/-! ## The bits of a byte string -/

@[simp] theorem ofBytes_nil : ofBytes [] = [] := rfl

@[simp] theorem ofBytes_cons (b : UInt8) (bs : List UInt8) :
    ofBytes (b :: bs) = ofNat 8 b.toNat ++ ofBytes bs := rfl

@[simp] theorem ofBytes_append (as bs : List UInt8) :
    ofBytes (as ++ bs) = ofBytes as ++ ofBytes bs := List.flatMap_append

@[simp] theorem length_ofBytes (bs : List UInt8) : (ofBytes bs).length = 8 * bs.length := by
  induction bs with
  | nil => rfl
  | cons b bs ih =>
      simp only [ofBytes_cons, List.length_append, length_ofNat, ih, List.length_cons]
      omega

theorem drop_ofBytes (bs : List UInt8) (k : Nat) :
    (ofBytes bs).drop (8 * k) = ofBytes (bs.drop k) := by
  induction bs generalizing k with
  | nil => simp
  | cons b bs ih =>
      cases k with
      | zero => rfl
      | succ k =>
          have hk : 8 * (k + 1) = (ofNat 8 b.toNat).length + 8 * k := by
            rw [length_ofNat]
            ring
          rw [ofBytes_cons, hk, List.drop_length_add_append, ih, List.drop_succ_cons]

theorem getElem?_ofNat (n v i : Nat) :
    (ofNat n v)[i]? = if i < n then some (v.testBit (n - 1 - i)) else none := by
  by_cases h : i < n
  · have hlen : i < (ofNat n v).length := by simpa using h
    rw [if_pos h, List.getElem?_eq_getElem hlen, getElem_ofNat]
  · rw [if_neg h, List.getElem?_eq_none_iff]
    simpa using h

theorem getElem?_ofBytes (bs : List UInt8) (k : Nat) :
    (ofBytes bs)[k]? = bs[k / 8]?.map fun b => b.toNat.testBit (7 - k % 8) := by
  induction bs generalizing k with
  | nil => simp
  | cons b bs ih =>
      rw [ofBytes_cons, List.getElem?_append, length_ofNat]
      by_cases hlt : k < 8
      · have hdiv : k / 8 = 0 := by omega
        rw [if_pos hlt, getElem?_ofNat, if_pos hlt, hdiv]
        simp only [List.getElem?_cons_zero, Option.map_some, Option.some.injEq]
        congr 1
        omega
      · obtain ⟨j, rfl⟩ : ∃ j, k = j + 8 := ⟨k - 8, by omega⟩
        have hdiv : (j + 8) / 8 = j / 8 + 1 := by omega
        have hmod : (j + 8) % 8 = j % 8 := by omega
        rw [if_neg hlt, Nat.add_sub_cancel, ih, hdiv, List.getElem?_cons_succ, hmod]

/-- Two shifts that keep `len` bits out of `w`, as division and remainder. -/
theorem shl_shr (v : Nat) {w bit len : Nat} (h : bit + len ≤ w) :
    v * 2 ^ bit % 2 ^ w / 2 ^ (w - len) = v / 2 ^ (w - bit - len) % 2 ^ len := by
  have hw : 2 ^ w = 2 ^ bit * 2 ^ (w - bit) := by
    rw [← Nat.pow_add]
    congr 1
    omega
  have hlen : 2 ^ (w - len) = 2 ^ bit * 2 ^ (w - bit - len) := by
    rw [← Nat.pow_add]
    congr 1
    omega
  have hrest : 2 ^ (w - bit) = 2 ^ (w - bit - len) * 2 ^ len := by
    rw [← Nat.pow_add]
    congr 1
    omega
  rw [hw, hlen, Nat.mul_comm v, Nat.mul_mod_mul_left,
    Nat.mul_div_mul_left _ _ (Nat.two_pow_pos bit), hrest, Nat.mod_mul_right_div_self]

end BitString
