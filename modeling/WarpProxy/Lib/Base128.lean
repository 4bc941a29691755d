/-
# `WarpProxy.Lib.Base128` — numbers in groups of seven bits, lowest first

The format of the prefixed integers of HPACK and QPACK after their first byte,
and of many other protocols: every byte holds seven bits, and all but the last
one have their top bit set.  `Groups bs v` says that `bs` are such groups and
that `v` is the number, minimal or not.
-/
import Mathlib.Tactic.Ring

namespace Base128

/-- `bs` spells `v`. -/
inductive Groups : List UInt8 → Nat → Prop
  | last {b : UInt8} : b.toNat < 128 → Groups [b] b.toNat
  | more {b : UInt8} {bs : List UInt8} {v : Nat} :
      128 ≤ b.toNat → Groups bs v → Groups (b :: bs) (b.toNat % 128 + 128 * v)

namespace Groups

theorem length_pos {bs : List UInt8} {v : Nat} (h : Groups bs v) : 0 < bs.length := by
  cases h <;> simp

theorem lt {bs : List UInt8} {v : Nat} (h : Groups bs v) : v < 128 ^ bs.length := by
  induction h with
  | last hb => simpa using hb
  | @more b bs v hb _ ih =>
      have hmod : b.toNat % 128 < 128 := Nat.mod_lt _ (by decide)
      calc b.toNat % 128 + 128 * v < 128 * (v + 1) := by omega
        _ ≤ 128 * 128 ^ bs.length := Nat.mul_le_mul_left _ ih
        _ = 128 ^ (b :: bs).length := by rw [List.length_cons, Nat.pow_succ, Nat.mul_comm]

/-- The number at the front of a buffer is unique, and so is what follows it. -/
theorem append_inj {bs bs' rest rest' : List UInt8} {v v' : Nat} (h : Groups bs v)
    (h' : Groups bs' v') (heq : bs ++ rest = bs' ++ rest') :
    bs = bs' ∧ v = v' ∧ rest = rest' := by
  induction h generalizing bs' v' with
  | last hb =>
      cases h' with
      | last hb' =>
          simp only [List.singleton_append, List.cons.injEq] at heq
          exact ⟨by rw [heq.1], by rw [heq.1], heq.2⟩
      | more hb' _ =>
          simp only [List.cons_append, List.cons.injEq] at heq
          have := congrArg UInt8.toNat heq.1
          omega
  | more hb _ ih =>
      cases h' with
      | last hb' =>
          simp only [List.cons_append, List.cons.injEq] at heq
          have := congrArg UInt8.toNat heq.1
          omega
      | more hb' hg' =>
          simp only [List.cons_append, List.cons.injEq] at heq
          obtain ⟨rfl, rfl, rfl⟩ := ih hg' heq.2
          exact ⟨by rw [heq.1], by rw [heq.1], rfl⟩

/-- All groups but the last say that more follow. -/
theorem le_of_mem_take {bs : List UInt8} {v k : Nat} (h : Groups bs v) (hk : k < bs.length) :
    ∀ b ∈ bs.take k, 128 ≤ b.toNat := by
  induction h generalizing k with
  | last _ =>
      have hzero : k = 0 := by simpa using hk
      simp [hzero]
  | @more b bs v hb _ ih =>
      cases k with
      | zero => simp
      | succ k =>
          intro b' hb'
          rcases List.mem_cons.mp hb' with rfl | hb'
          · exact hb
          · exact ih (by simpa using hk) b' hb'

end Groups

/-! ## Writing a number -/

/-- As few groups as there can be. -/
def write (n : Nat) : List UInt8 :=
  if 128 ≤ n then UInt8.ofNat (n % 128 + 128) :: write (n / 128) else [UInt8.ofNat n]
termination_by n
decreasing_by omega

theorem write_of_lt {n : Nat} (h : n < 128) : write n = [UInt8.ofNat n] := by
  rw [write, if_neg (by omega)]

theorem write_of_le {n : Nat} (h : 128 ≤ n) :
    write n = UInt8.ofNat (n % 128 + 128) :: write (n / 128) := by
  rw [write, if_pos h]

theorem toNat_ofNat_lt {n : Nat} (h : n < 256) : (UInt8.ofNat n).toNat = n := by
  simp [Nat.mod_eq_of_lt h]

theorem groups_write (n : Nat) : Groups (write n) n := by
  induction n using Nat.strongRecOn with
  | ind n ih =>
      by_cases h : 128 ≤ n
      · have hb : (UInt8.ofNat (n % 128 + 128)).toNat = n % 128 + 128 :=
          toNat_ofNat_lt (by omega)
        have hg := Groups.more (b := UInt8.ofNat (n % 128 + 128)) (by omega)
          (ih (n / 128) (by omega))
        rw [hb] at hg
        have hn : (n % 128 + 128) % 128 + 128 * (n / 128) = n := by omega
        rwa [hn, ← write_of_le h] at hg
      · have hb : (UInt8.ofNat n).toNat = n := toNat_ofNat_lt (by omega)
        have hg := Groups.last (b := UInt8.ofNat n) (by omega)
        rwa [hb, ← write_of_lt (by omega)] at hg

/-- `k + 1` groups are enough below `128 ^ (k + 1)`. -/
theorem length_write_le {n k : Nat} (h : n < 128 ^ (k + 1)) : (write n).length ≤ k + 1 := by
  induction k generalizing n with
  | zero => simp [write_of_lt (by simpa using h)]
  | succ k ih =>
      by_cases hn : 128 ≤ n
      · have hdiv : n / 128 < 128 ^ (k + 1) := by
          rw [Nat.div_lt_iff_lt_mul (by decide)]
          simpa [Nat.pow_succ] using h
        simpa [write_of_le hn] using ih hdiv
      · simp [write_of_lt (by omega : n < 128)]

/-- From `128 ^ k` on, the first `k` groups say that more follow. -/
theorem write_eq_append {n k : Nat} (h : 128 ^ k ≤ n) :
    ∃ front back, write n = front ++ back ∧ front.length = k ∧ ∀ b ∈ front, 128 ≤ b.toNat := by
  induction k generalizing n with
  | zero => exact ⟨[], write n, rfl, rfl, by simp⟩
  | succ k ih =>
      have hpos := Nat.pow_pos (n := k) (by decide : 0 < 128)
      rw [Nat.pow_succ] at h
      have hdiv : 128 ^ k ≤ n / 128 := (Nat.le_div_iff_mul_le (by decide)).mpr h
      obtain ⟨front, back, heq, hlen, hall⟩ := ih hdiv
      refine ⟨UInt8.ofNat (n % 128 + 128) :: front, back, ?_, by simp [hlen], ?_⟩
      · rw [write_of_le (by omega), heq, List.cons_append]
      · intro b hb
        rcases List.mem_cons.mp hb with rfl | hb
        · rw [toNat_ofNat_lt (by omega)]
          omega
        · exact hall b hb

end Base128
