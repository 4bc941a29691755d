/-
# `WarpProxy.Lib.BigEndian` — fixed-width big-endian byte strings

Writing a number as `n` bytes, most significant first, and reading such a
string back.  Reading takes an accumulator, the value of the bytes already
read, because decoders start from a first byte whose tag bits they mask off.

The two directions are `read_bytes` (what was written is read back, up to the
width) and `bytes_read` (what was read is written back, byte for byte).
-/
import Mathlib.Tactic.Ring

namespace BigEndian

/-- The `n` low bytes of `v`, most significant first. -/
def bytes : Nat → Nat → List UInt8
  | 0, _ => []
  | n + 1, v => UInt8.ofNat (v / 256 ^ n) :: bytes n v

/-- The value of `bs` read after the bytes whose value is `acc`. -/
def read : Nat → List UInt8 → Nat
  | acc, [] => acc
  | acc, b :: bs => read (acc * 256 + b.toNat) bs

@[simp] theorem length_bytes (n v : Nat) : (bytes n v).length = n := by
  induction n generalizing v with
  | zero => rfl
  | succ n ih => simp [bytes, ih]

theorem toNat_ofNat (v : Nat) : (UInt8.ofNat v).toNat = v % 256 := by
  simp

/-- The accumulator is shifted past the bytes that follow it. -/
theorem read_eq (bs : List UInt8) (acc : Nat) :
    read acc bs = acc * 256 ^ bs.length + read 0 bs := by
  induction bs generalizing acc with
  | nil => simp [read]
  | cons b bs ih =>
      rw [read, ih, read, ih (0 * 256 + b.toNat), List.length_cons]
      ring

theorem read_lt (bs : List UInt8) : read 0 bs < 256 ^ bs.length := by
  induction bs with
  | nil => simp [read]
  | cons b bs ih =>
      have hb : b.toNat < 256 := b.toNat_lt
      rw [read, read_eq, List.length_cons, Nat.pow_succ, Nat.zero_mul, Nat.zero_add]
      calc b.toNat * 256 ^ bs.length + read 0 bs
          < b.toNat * 256 ^ bs.length + 256 ^ bs.length := by omega
        _ = (b.toNat + 1) * 256 ^ bs.length := by ring
        _ ≤ 256 * 256 ^ bs.length := Nat.mul_le_mul_right _ hb
        _ = 256 ^ bs.length * 256 := Nat.mul_comm _ _

/-- Only the value below `256 ^ n` is written. -/
theorem bytes_add_mul (n a v : Nat) : bytes n (a * 256 ^ n + v) = bytes n v := by
  induction n generalizing a with
  | zero => rfl
  | succ n ih =>
      have hdiv : (a * 256 ^ (n + 1) + v) / 256 ^ n = v / 256 ^ n + a * 256 := by
        rw [show a * 256 ^ (n + 1) + v = v + a * 256 * 256 ^ n by ring,
          Nat.add_mul_div_right _ _ (Nat.pow_pos (by decide))]
      have hhead : UInt8.ofNat (v / 256 ^ n + a * 256) = UInt8.ofNat (v / 256 ^ n) := by
        apply UInt8.toNat_inj.mp
        rw [toNat_ofNat, toNat_ofNat]
        omega
      have htail : bytes n (a * 256 ^ (n + 1) + v) = bytes n v := by
        rw [show a * 256 ^ (n + 1) + v = (a * 256) * 256 ^ n + v by ring]
        exact ih (a * 256)
      rw [bytes, bytes, hdiv, hhead, htail]

/-- Reading what was written, up to the width. -/
theorem read_bytes (n v : Nat) : read 0 (bytes n v) = v % 256 ^ n := by
  induction n with
  | zero => simp [bytes, read, Nat.mod_one]
  | succ n ih =>
      rw [bytes, read, read_eq, length_bytes, ih, toNat_ofNat, Nat.pow_succ, Nat.mod_mul]
      ring

/-- Writing back what was read gives the same bytes. -/
theorem bytes_read (bs : List UInt8) : bytes bs.length (read 0 bs) = bs := by
  induction bs with
  | nil => rfl
  | cons b bs ih =>
      have hlt := read_lt bs
      have hdiv : (b.toNat * 256 ^ bs.length + read 0 bs) / 256 ^ bs.length = b.toNat := by
        rw [Nat.add_comm, Nat.add_mul_div_right _ _ (Nat.pow_pos (by decide)),
          Nat.div_eq_of_lt hlt, Nat.zero_add]
      rw [read, read_eq, List.length_cons, bytes, Nat.zero_mul, Nat.zero_add, hdiv,
        bytes_add_mul, ih, UInt8.ofNat_toNat]

end BigEndian
