/-
# `WarpProxy.Lib.QuicVarint` — the wire format of QUIC variable-length integers

The format of RFC 9000 §16, stated without any encoder or decoder.  A varint
of size class `k < 4` is a big-endian string of `2^k` bytes whose two top bits
are `k` and whose other bits are the value:

    class   bytes   value below
    0       1       2^6
    1       2       2^14
    2       4       2^30
    3       8       2^62

`IsVarint bs v` says that `bs` is a varint of `v` in *some* class, minimal or
not.  What a decoder needs is that the first byte settles the class
(`cons_isVarint`), and that the varint in front of a buffer is unique
(`IsVarint.append_inj`).
-/
import Mathlib.Tactic.Ring
import Mathlib.Tactic.IntervalCases
import WarpProxy.Lib.BigEndian

namespace QuicVarint

/-- The values of class `k` are those below `bound k`, i.e. `2^(8 * 2^k - 2)`. -/
def bound (k : Nat) : Nat := 64 * 256 ^ (2 ^ k - 1)

/-- The varint of `v` in class `k`. -/
def bytes (k v : Nat) : List UInt8 := BigEndian.bytes (2 ^ k) (k * bound k + v)

/-- `bs` is a varint of `v`, in one of the four classes. -/
def IsVarint (bs : List UInt8) (v : Nat) : Prop :=
  ∃ k, k < 4 ∧ v < bound k ∧ bs = bytes k v

@[simp] theorem length_bytes (k v : Nat) : (bytes k v).length = 2 ^ k :=
  BigEndian.length_bytes _ _

theorem four_bound (k : Nat) : 4 * bound k = 256 ^ (2 ^ k) := by
  have hk : 2 ^ k = 2 ^ k - 1 + 1 := (Nat.sub_add_cancel (Nat.one_le_two_pow)).symm
  rw [bound, hk, Nat.pow_succ, Nat.add_sub_cancel]
  ring

theorem bound_mono {j k : Nat} (h : j ≤ k) : bound j ≤ bound k := by
  have hpow : 2 ^ j - 1 ≤ 2 ^ k - 1 :=
    Nat.sub_le_sub_right (Nat.pow_le_pow_right (by decide) h) 1
  exact Nat.mul_le_mul_left _ (Nat.pow_le_pow_right (by decide) hpow)

/-- Every varint holds a value below `2^62`. -/
theorem IsVarint.lt {bs : List UInt8} {v : Nat} (h : IsVarint bs v) : v < 2 ^ 62 := by
  obtain ⟨k, hk, hv, -⟩ := h
  exact Nat.lt_of_lt_of_le hv (bound_mono (Nat.le_of_lt_succ hk))

theorem IsVarint.length_pos {bs : List UInt8} {v : Nat} (h : IsVarint bs v) :
    0 < bs.length := by
  obtain ⟨k, -, -, rfl⟩ := h
  rw [length_bytes]
  exact Nat.two_pow_pos k

theorem IsVarint.length_le {bs : List UInt8} {v : Nat} (h : IsVarint bs v) :
    bs.length ≤ 8 := by
  obtain ⟨k, hk, -, rfl⟩ := h
  rw [length_bytes]
  exact Nat.pow_le_pow_right (by decide) (Nat.le_of_lt_succ hk)

/-! ## The first byte

The class is the first byte's two top bits, the value its six low bits followed
by the other bytes. -/

/-- The value a first byte and the bytes after it spell, tag included. -/
theorem read_cons (f : UInt8) (t : List UInt8) {k : Nat} (ht : t.length = 2 ^ k - 1) :
    BigEndian.read 0 (f :: t)
      = f.toNat / 64 * bound k + BigEndian.read (f.toNat % 64) t := by
  have hf := Nat.div_add_mod f.toNat 64
  rw [BigEndian.read, Nat.zero_mul, Nat.zero_add, BigEndian.read_eq,
    BigEndian.read_eq t (f.toNat % 64), ht, bound]
  calc f.toNat * 256 ^ (2 ^ k - 1) + BigEndian.read 0 t
      = (64 * (f.toNat / 64) + f.toNat % 64) * 256 ^ (2 ^ k - 1) + BigEndian.read 0 t := by
        rw [hf]
    _ = _ := by ring

/-- The value bits of a first byte and the bytes after it stay below the bound. -/
theorem read_lt_bound (f : UInt8) (t : List UInt8) {k : Nat} (ht : t.length = 2 ^ k - 1) :
    BigEndian.read (f.toNat % 64) t < bound k := by
  have hlt := BigEndian.read_lt t
  have hmod : f.toNat % 64 + 1 ≤ 64 := Nat.mod_lt _ (by decide)
  rw [BigEndian.read_eq, ht, bound]
  rw [ht] at hlt
  calc f.toNat % 64 * 256 ^ (2 ^ k - 1) + BigEndian.read 0 t
      < f.toNat % 64 * 256 ^ (2 ^ k - 1) + 256 ^ (2 ^ k - 1) := by omega
    _ = (f.toNat % 64 + 1) * 256 ^ (2 ^ k - 1) := by ring
    _ ≤ 64 * 256 ^ (2 ^ k - 1) := Nat.mul_le_mul_right _ hmod

/-- A first byte of class `k` with `2^k - 1` bytes after it is the varint of its value bits. -/
theorem cons_eq_bytes (f : UInt8) (t : List UInt8)
    (ht : t.length = 2 ^ (f.toNat / 64) - 1) :
    f :: t = bytes (f.toNat / 64) (BigEndian.read (f.toNat % 64) t) := by
  have hlen : (f :: t).length = 2 ^ (f.toNat / 64) := by
    have := Nat.two_pow_pos (f.toNat / 64)
    rw [List.length_cons, ht]
    omega
  rw [bytes, ← read_cons f t ht, ← hlen, BigEndian.bytes_read]

theorem cons_isVarint (f : UInt8) (t : List UInt8)
    (ht : t.length = 2 ^ (f.toNat / 64) - 1) :
    IsVarint (f :: t) (BigEndian.read (f.toNat % 64) t) := by
  have hf := f.toNat_lt
  exact ⟨f.toNat / 64, by omega, read_lt_bound f t ht, cons_eq_bytes f t ht⟩

/-- Conversely, a varint starts with a byte that names its class and holds its value bits. -/
theorem IsVarint.cons {bs : List UInt8} {v : Nat} (h : IsVarint bs v) :
    ∃ f t, bs = f :: t ∧ t.length = 2 ^ (f.toNat / 64) - 1
      ∧ v = BigEndian.read (f.toNat % 64) t := by
  obtain ⟨k, hk, hv, rfl⟩ := h
  have hlen := length_bytes k v
  have hpos := Nat.two_pow_pos k
  match hb : bytes k v with
  | [] => rw [hb, List.length_nil] at hlen; omega
  | f :: t =>
      rw [hb, List.length_cons] at hlen
      have ht : t.length = 2 ^ k - 1 := by omega
      -- reading the whole string back gives the tag and the value
      have hread : BigEndian.read 0 (f :: t) = k * bound k + v := by
        rw [← hb, bytes, BigEndian.read_bytes, ← four_bound, Nat.mod_eq_of_lt]
        have : k * bound k ≤ 3 * bound k := Nat.mul_le_mul_right _ (Nat.le_of_lt_succ hk)
        omega
      rw [read_cons f t ht] at hread
      have hlow := read_lt_bound f t ht
      have hb0 : 0 < bound k := Nat.lt_of_le_of_lt (Nat.zero_le v) hv
      have hclass : f.toNat / 64 = k := by
        have hdiv := congrArg (· / bound k) hread
        simp only [Nat.add_comm _ (BigEndian.read _ _), Nat.add_comm _ v,
          Nat.add_mul_div_right _ _ hb0, Nat.div_eq_of_lt hlow, Nat.div_eq_of_lt hv,
          Nat.zero_add] at hdiv
        exact hdiv
      rw [hclass] at hread
      exact ⟨f, t, rfl, by rw [hclass]; exact ht, by omega⟩

/-- The varint at the front of a buffer is unique, and so is what follows it. -/
theorem IsVarint.append_inj {bs bs' rest rest' : List UInt8} {v v' : Nat}
    (h : IsVarint bs v) (h' : IsVarint bs' v') (e : bs ++ rest = bs' ++ rest') :
    bs = bs' ∧ v = v' ∧ rest = rest' := by
  obtain ⟨f, t, rfl, ht, hv⟩ := h.cons
  obtain ⟨f', t', rfl, ht', hv'⟩ := h'.cons
  simp only [List.cons_append, List.cons.injEq] at e
  obtain ⟨rfl, e⟩ := e
  obtain ⟨rfl, rfl⟩ := List.append_inj e (by rw [ht, ht'])
  exact ⟨rfl, by rw [hv, hv'], rfl⟩

/-- In a given class a value has one varint. -/
theorem isVarint_bytes {k v : Nat} (hk : k < 4) (hv : v < bound k) : IsVarint (bytes k v) v :=
  ⟨k, hk, hv, rfl⟩

end QuicVarint
