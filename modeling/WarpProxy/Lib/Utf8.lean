/-
# `WarpProxy.Lib.Utf8` — decoding UTF-8 without failing

`lossy` reads every byte string as text: a well-formed sequence gives its character, and
each longest part that begins one without completing it gives one replacement character, as
does a byte that begins none.  It runs byte by byte over `Pending`, what is still to come of a
character.

An ASCII byte ends whatever is pending, so the text falls apart at it (`lossy_append_ascii`),
and only at it do ASCII characters arise (`lossy_cut`).
What a text is encoded to is read back as that text (`lossy_encode`).
-/
import Mathlib.Algebra.Group.Nat.Defs
import Mathlib.Logic.Basic
import Mathlib.Tactic.SplitIfs

namespace Utf8

/-- U+FFFD -/
def replacement : Char := Char.ofNat 0xFFFD

/-- The next byte of a character has to be in `lo..hi`, and `more` continuation bytes follow it;
`acc` are the bits so far. -/
structure Pending where
  lo : UInt8
  hi : UInt8
  more : Nat
  acc : Nat
  cont : 0x80 ≤ lo := by decide

/-- What a first byte announces. -/
def lead (b : UInt8) : Option Pending :=
  if 0xC2 ≤ b ∧ b ≤ 0xDF then some { lo := 0x80, hi := 0xBF, more := 0, acc := b.toNat - 0xC0 }
  else if b = 0xE0 then some { lo := 0xA0, hi := 0xBF, more := 1, acc := 0 }
  else if b = 0xED then some { lo := 0x80, hi := 0x9F, more := 1, acc := 0xD }
  else if 0xE1 ≤ b ∧ b ≤ 0xEF then
    some { lo := 0x80, hi := 0xBF, more := 1, acc := b.toNat - 0xE0 }
  else if b = 0xF0 then some { lo := 0x90, hi := 0xBF, more := 2, acc := 0 }
  else if 0xF1 ≤ b ∧ b ≤ 0xF3 then
    some { lo := 0x80, hi := 0xBF, more := 2, acc := b.toNat - 0xF0 }
  else if b = 0xF4 then some { lo := 0x80, hi := 0x8F, more := 2, acc := 4 }
  else none

/-- A byte between characters: what is known of the text, and what is pending. -/
def first (b : UInt8) : List Char × Option Pending :=
  if b < 0x80 then ([Char.ofNat b.toNat], none)
  else
    match lead b with
    | some p => ([], some p)
    | none => ([replacement], none)

/-- A byte. -/
def step : Option Pending → UInt8 → List Char × Option Pending
  | none, b => first b
  | some p, b =>
      if p.lo ≤ b ∧ b ≤ p.hi then
        let acc := p.acc * 64 + (b.toNat - 0x80)
        match p.more with
        | 0 => ([Char.ofNat acc], none)
        | n + 1 => ([], some { lo := 0x80, hi := 0xBF, more := n, acc := acc })
      else (replacement :: (first b).1, (first b).2)

def lossyFrom : Option Pending → List UInt8 → List Char
  | none, [] => []
  | some _, [] => [replacement]
  | p, b :: bs => (step p b).1 ++ lossyFrom (step p b).2 bs

/-- The text of a byte string. -/
def lossy (bs : List UInt8) : List Char := lossyFrom none bs

example : lossy [0x61, 0xC3, 0xA9, 0xE2, 0x82, 0x61, 0xFF] =
    ['a', Char.ofNat 0xE9, replacement, 'a', replacement] := by decide

/-- The bytes of an ASCII text. -/
def ascii (s : String) : List UInt8 := s.toList.map fun c => UInt8.ofNat c.toNat

theorem step_ascii (p : Option Pending) {b : UInt8} (hb : b < 0x80) :
    step p b = (lossyFrom p [] ++ [Char.ofNat b.toNat], none) := by
  have hfirst : first b = ([Char.ofNat b.toNat], none) := if_pos hb
  cases p with
  | none => exact hfirst
  | some p =>
      have hlo : ¬ (p.lo ≤ b ∧ b ≤ p.hi) := fun h =>
        absurd (UInt8.le_trans p.cont h.1) (UInt8.not_le.mpr hb)
      rw [step, if_neg hlo, hfirst]
      rfl

theorem lossyFrom_append_ascii (p : Option Pending) (xs : List UInt8) {b : UInt8} (hb : b < 0x80)
    (ys : List UInt8) :
    lossyFrom p (xs ++ b :: ys) = lossyFrom p xs ++ Char.ofNat b.toNat :: lossy ys := by
  induction xs generalizing p with
  | nil =>
      rw [List.nil_append, lossyFrom, step_ascii p hb, List.append_assoc]
      rfl
  | cons x xs ih =>
      rw [List.cons_append, lossyFrom, lossyFrom, ih, List.append_assoc]

/-- **The text falls apart at an ASCII byte.** -/
theorem lossy_append_ascii (xs : List UInt8) {b : UInt8} (hb : b < 0x80) (ys : List UInt8) :
    lossy (xs ++ b :: ys) = lossy xs ++ Char.ofNat b.toNat :: lossy ys :=
  lossyFrom_append_ascii none xs hb ys

theorem lossy_crlf (xs ys : List UInt8) :
    lossy (xs ++ 13 :: 10 :: ys) = lossy xs ++ '\r' :: '\n' :: lossy ys := by
  have hlf := lossy_append_ascii [] (b := 10) (by decide) ys
  rw [lossy_append_ascii xs (by decide) (10 :: ys)]
  exact congrArg (lossy xs ++ '\r' :: ·) hlf

/-! ## Reading back -/

def encode (cs : List Char) : List UInt8 := cs.flatMap String.utf8EncodeChar

section
variable {b : UInt8} {bs : List UInt8} {p : Pending}

theorem lossyFrom_lead (hb : ¬ b < 0x80) (hlead : lead b = some p) :
    lossyFrom none (b :: bs) = lossyFrom (some p) bs := by
  rw [lossyFrom, step, first, if_neg hb, hlead]
  rfl

theorem lossyFrom_more {n : Nat} (hb : p.lo ≤ b ∧ b ≤ p.hi) (hmore : p.more = n + 1) :
    lossyFrom (some p) (b :: bs) =
      lossyFrom (some ⟨0x80, 0xBF, n, p.acc * 64 + (b.toNat - 0x80), by decide⟩) bs := by
  rw [lossyFrom, step, if_pos hb, hmore]
  rfl

theorem lossyFrom_last (hb : p.lo ≤ b ∧ b ≤ p.hi) (hmore : p.more = 0) :
    lossyFrom (some p) (b :: bs) = Char.ofNat (p.acc * 64 + (b.toNat - 0x80)) :: lossy bs := by
  rw [lossyFrom, step, if_pos hb, hmore]
  rfl

/-- Bytes in order are so as numbers. -/
theorem between_iff {lo hi : UInt8} :
    lo ≤ b ∧ b ≤ hi ↔ lo.toNat ≤ b.toNat ∧ b.toNat ≤ hi.toNat := by
  rw [UInt8.le_iff_toNat_le, UInt8.le_iff_toNat_le]

theorem lead_two (hb : 0xC2 ≤ b.toNat ∧ b.toNat ≤ 0xDF) :
    lead b = some ⟨0x80, 0xBF, 0, b.toNat - 0xC0, by decide⟩ :=
  if_pos ((@between_iff b 0xC2 0xDF).mpr hb)

/-- The second byte of three is bounded so that the character is beyond those of two bytes, and no
surrogate. -/
theorem lead_three (hb : 0xE0 ≤ b.toNat ∧ b.toNat ≤ 0xEF) :
    ∃ p, lead b = some p ∧ p.more = 1 ∧ p.acc = b.toNat - 0xE0 ∧
      ∀ x : UInt8, 0x80 ≤ x.toNat ∧ x.toNat ≤ 0xBF → (b.toNat = 0xE0 → 0xA0 ≤ x.toNat) →
        (b.toNat = 0xED → x.toNat ≤ 0x9F) → p.lo ≤ x ∧ x ≤ p.hi := by
  have htwo : ¬ (0xC2 ≤ b ∧ b ≤ 0xDF) := fun h => by
    have hle : b.toNat ≤ 0xDF := (between_iff.mp h).2
    omega
  have heq : ∀ y : UInt8, b = y ↔ b.toNat = y.toNat := fun y => UInt8.toNat_inj.symm
  rw [lead, if_neg htwo]
  by_cases hfirst : b = 0xE0
  · refine ⟨_, if_pos hfirst, rfl, by rw [hfirst]; rfl, fun x hx hlo _ => between_iff.mpr ?_⟩
    exact ⟨hlo ((heq _).mp hfirst), hx.2⟩
  · rw [if_neg hfirst]
    by_cases hsurrogate : b = 0xED
    · refine ⟨_, if_pos hsurrogate, rfl, by rw [hsurrogate]; rfl,
        fun x hx _ hhi => between_iff.mpr ?_⟩
      exact ⟨hx.1, hhi ((heq _).mp hsurrogate)⟩
    · have hne : b.toNat ≠ 0xE0 := fun h => hfirst ((heq _).mpr h)
      rw [if_neg hsurrogate]
      exact ⟨_, if_pos ((@between_iff b 0xE1 0xEF).mpr ⟨(by omega : 0xE1 ≤ b.toNat), hb.2⟩),
        rfl, rfl, fun x hx _ _ => between_iff.mpr hx⟩

/-- The second byte of four is bounded so that the character is beyond those of three bytes, and
below the last. -/
theorem lead_four (hb : 0xF0 ≤ b.toNat ∧ b.toNat ≤ 0xF4) :
    ∃ p, lead b = some p ∧ p.more = 2 ∧ p.acc = b.toNat - 0xF0 ∧
      ∀ x : UInt8, 0x80 ≤ x.toNat ∧ x.toNat ≤ 0xBF → (b.toNat = 0xF0 → 0x90 ≤ x.toNat) →
        (b.toNat = 0xF4 → x.toNat ≤ 0x8F) → p.lo ≤ x ∧ x ≤ p.hi := by
  have hbelow : ∀ lo hi : UInt8, hi.toNat < 0xF0 → ¬ (lo ≤ b ∧ b ≤ hi) := fun lo hi hhi h => by
    have hle : b.toNat ≤ hi.toNat := (between_iff.mp h).2
    omega
  have heq : ∀ y : UInt8, b = y ↔ b.toNat = y.toNat := fun y => UInt8.toNat_inj.symm
  have hne : ∀ y : UInt8, y.toNat < 0xF0 → b ≠ y := fun y hy h => by
    have hby := (heq y).mp h
    omega
  rw [lead, if_neg (hbelow _ _ (by decide)), if_neg (hne _ (by decide)),
    if_neg (hne _ (by decide)), if_neg (hbelow _ _ (by decide))]
  by_cases hfirst : b = 0xF0
  · refine ⟨_, if_pos hfirst, rfl, by rw [hfirst]; rfl, fun x hx hlo _ => between_iff.mpr ?_⟩
    exact ⟨hlo ((heq _).mp hfirst), hx.2⟩
  · have hne' : b.toNat ≠ 0xF0 := fun h => hfirst ((heq _).mpr h)
    rw [if_neg hfirst]
    by_cases hlast : b = 0xF4
    · have hnot : ¬ ((0xF1 : UInt8) ≤ b ∧ b ≤ 0xF3) := fun h => by
        have hle : b.toNat ≤ 0xF3 := (between_iff.mp h).2
        have hby : b.toNat = 0xF4 := (heq _).mp hlast
        omega
      rw [if_neg hnot]
      refine ⟨_, if_pos hlast, rfl, by rw [hlast]; rfl, fun x hx _ hhi => between_iff.mpr ?_⟩
      exact ⟨hx.1, hhi ((heq _).mp hlast)⟩
    · have hne'' : b.toNat ≠ 0xF4 := fun h => hlast ((heq _).mpr h)
      exact ⟨_, if_pos ((@between_iff b 0xF1 0xF3).mpr ⟨(by omega : 0xF1 ≤ b.toNat),
        (by omega : b.toNat ≤ 0xF3)⟩), rfl, rfl, fun x hx _ _ => between_iff.mpr hx⟩

end

/-- A byte of an encoded character. -/
theorem toNat_ofNat {n : Nat} (h : n < 256) : (UInt8.ofNat n).toNat = n :=
  UInt8.toNat_ofNat_of_lt' h

/-- A continuation byte. -/
theorem continues (n : Nat) : 0x80 ≤ (UInt8.ofNat (n % 0x40 + 0x80)).toNat ∧
    (UInt8.ofNat (n % 0x40 + 0x80)).toNat ≤ 0xBF := by
  rw [toNat_ofNat (by omega)]
  omega

theorem not_ascii {n : Nat} (h : 0x80 ≤ n ∧ n < 256) : ¬ UInt8.ofNat n < 0x80 := by
  rw [UInt8.lt_iff_toNat_lt, toNat_ofNat h.2]
  exact Nat.not_lt.mpr h.1

/-- **A character is read back.** -/
theorem lossy_char (c : Char) (bs : List UInt8) :
    lossy (String.utf8EncodeChar c ++ bs) = c :: lossy bs := by
  obtain ⟨v, hv⟩ : ∃ v, v = c.val.toNat := ⟨_, rfl⟩
  have hvalid : v < 0xD800 ∨ 0xDFFF < v ∧ v < 0x110000 := hv ▸ c.valid
  have hchar : ∀ n, n = v → Char.ofNat n = c := fun n hn => by
    rw [hn, hv]
    exact Char.ofNat_toNat c
  have hmore : ∀ n : Nat, (0x80 : UInt8) ≤ UInt8.ofNat (n % 0x40 + 0x80) ∧
      UInt8.ofNat (n % 0x40 + 0x80) ≤ 0xBF := fun n => between_iff.mpr (continues n)
  have hlow : ∀ n : Nat, (UInt8.ofNat (n % 0x40 + 0x80)).toNat - 0x80 = n % 0x40 := fun n => by
    rw [toNat_ofNat (by omega), Nat.add_sub_cancel]
  rw [String.utf8EncodeChar, ← hv]
  split
  · next hone =>
      have hb : (UInt8.ofNat v).toNat = v := toNat_ofNat (by omega)
      have hlt : UInt8.ofNat v < 0x80 := by
        rw [UInt8.lt_iff_toNat_lt, hb]
        exact Nat.lt_succ_of_le hone
      rw [List.cons_append, List.nil_append, lossy, lossyFrom, step, first, if_pos hlt, hb,
        hchar v rfl]
      rfl
  · split
    · next hone htwo =>
        have hb : (UInt8.ofNat (v / 64 % 0x20 + 0xc0)).toNat = v / 64 + 0xC0 := by
          rw [toNat_ofNat (by omega)]
          omega
        rw [List.cons_append, List.cons_append, List.nil_append, lossy,
          lossyFrom_lead (not_ascii (by omega)) (lead_two (by rw [hb]; omega)),
          lossyFrom_last (hmore v) rfl, hlow, hb, hchar _ (by dsimp only; omega)]
    · split
      · next hone htwo hthree =>
          have hb : (UInt8.ofNat (v / 4096 % 0x10 + 0xe0)).toNat = v / 4096 + 0xE0 := by
            rw [toNat_ofNat (by omega)]
            omega
          obtain ⟨p, hlead, hp, hacc, hsecond⟩ := lead_three
            (b := UInt8.ofNat (v / 4096 % 0x10 + 0xe0)) (by rw [hb]; omega)
          have hx := toNat_ofNat (n := v / 64 % 0x40 + 0x80) (by omega)
          rw [List.cons_append, List.cons_append, List.cons_append, List.nil_append, lossy,
            lossyFrom_lead (not_ascii (by omega)) hlead,
            lossyFrom_more (hsecond _ (continues _) (by rw [hb, hx]; omega) (by rw [hb, hx]; omega))
              hp, lossyFrom_last (hmore v) rfl, hlow, hlow, hacc, hb,
            hchar _ (by dsimp only; omega)]
      · next hone htwo hthree =>
          have hb : (UInt8.ofNat (v / 262144 % 0x08 + 0xf0)).toNat = v / 262144 + 0xF0 := by
            rw [toNat_ofNat (by omega)]
            omega
          obtain ⟨p, hlead, hp, hacc, hsecond⟩ := lead_four
            (b := UInt8.ofNat (v / 262144 % 0x08 + 0xf0)) (by rw [hb]; omega)
          have hx := toNat_ofNat (n := v / 4096 % 0x40 + 0x80) (by omega)
          rw [List.cons_append, List.cons_append, List.cons_append, List.cons_append,
            List.nil_append, lossy, lossyFrom_lead (not_ascii (by omega)) hlead,
            lossyFrom_more (hsecond _ (continues _) (by rw [hb, hx]; omega) (by rw [hb, hx]; omega))
              hp, lossyFrom_more (hmore _) rfl, lossyFrom_last (hmore v) rfl, hlow, hlow, hlow,
            hacc, hb, hchar _ (by dsimp only; omega)]

theorem lossy_encode_append (cs : List Char) (bs : List UInt8) :
    lossy (encode cs ++ bs) = cs ++ lossy bs := by
  induction cs with
  | nil => rfl
  | cons c cs ih =>
      rw [encode, List.flatMap_cons, List.append_assoc, lossy_char, ← encode, ih]
      rfl

/-- **An encoded text is read back.** -/
theorem lossy_encode (cs : List Char) : lossy (encode cs) = cs := by
  have h := lossy_encode_append cs []
  rwa [List.append_nil, show lossy [] = [] from rfl, List.append_nil] at h

/-! ## Where the ASCII characters come from

A character of several bytes is beyond ASCII, so an ASCII character of the text stands for a byte
of the string, which can be cut there. -/

/-- Whatever completes what is pending, the character is beyond ASCII. -/
def Pending.Wide (p : Pending) : Prop := 0x80 ≤ (p.acc * 64 + (p.lo.toNat - 0x80)) * 64 ^ p.more

/-- An ASCII character, and not the one that stands for invalid code points. -/
def Plain (c : Char) : Prop := c ≠ Char.ofNat 0 ∧ c.toNat < 0x80

theorem Plain.ne_replacement {c : Char} (hc : Plain c) : c ≠ replacement := by
  rintro rfl
  exact absurd hc.2 (by decide)

theorem Plain.ne_ofNat {c : Char} (hc : Plain c) {n : Nat} (hn : 0x80 ≤ n) :
    c ≠ Char.ofNat n := by
  rintro rfl
  obtain ⟨hzero, hlt⟩ := hc
  by_cases hv : n.isValidChar
  · have hnat : (Char.ofNat n).toNat = n := by
      rw [Char.ofNat, dif_pos hv]
      rfl
    omega
  · refine hzero ?_
    rw [Char.ofNat, dif_neg hv]
    rfl

theorem lead_wide {b : UInt8} {p : Pending} (h : lead b = some p) : p.Wide := by
  have hb := b.toNat_lt
  rw [lead] at h
  split_ifs at h with h₁ h₂ h₃ h₄ h₅ h₆ h₇
  all_goals
    cases h
    simp only [UInt8.le_iff_toNat_le] at *
    simp [Pending.Wide] at *
    try omega

/-- A byte beyond ASCII adds no plain character, and what is pending after it is wide. -/
theorem step_wide {p : Option Pending} {b : UInt8} (hb : ¬ b < 0x80)
    (hp : ∀ q, p = some q → q.Wide) :
    (∀ c ∈ (step p b).1, ¬ Plain c) ∧ ∀ q, (step p b).2 = some q → q.Wide := by
  have hfirst : (∀ c ∈ (first b).1, ¬ Plain c) ∧ ∀ q, (first b).2 = some q → q.Wide := by
    rw [first, if_neg hb]
    split
    · next q hlead =>
        refine ⟨fun c hc => absurd hc List.not_mem_nil, fun q' hq => ?_⟩
        rw [← Option.some.inj hq]
        exact lead_wide hlead
    · exact ⟨fun c hc hplain => hplain.ne_replacement (List.mem_singleton.mp hc),
        fun q hq => by cases hq⟩
  cases p with
  | none => exact hfirst
  | some p =>
      rw [step]
      split
      · next hcont =>
          have hwide : p.Wide := hp p rfl
          have hlo := (between_iff.mp hcont).1
          have hle : p.acc * 64 + (p.lo.toNat - 0x80) ≤ p.acc * 64 + (b.toNat - 0x80) := by omega
          replace hwide := Nat.le_trans hwide (Nat.mul_le_mul_right _ hle)
          cases hmore : p.more with
          | zero =>
              rw [hmore, Nat.pow_zero, Nat.mul_one] at hwide
              refine ⟨fun c hc hplain => ?_, fun q hq => by cases hq⟩
              exact hplain.ne_ofNat hwide (List.mem_singleton.mp hc)
          | succ n =>
              refine ⟨fun c hc => absurd hc List.not_mem_nil, fun q hq => ?_⟩
              rw [hmore, Nat.pow_succ', ← Nat.mul_assoc] at hwide
              rw [← Option.some.inj hq, Pending.Wide,
                show (0x80 : UInt8).toNat - 0x80 = 0 from rfl, Nat.add_zero]
              exact hwide
      · refine ⟨fun c hc => ?_, hfirst.2⟩
        rcases List.mem_cons.mp hc with hc | hc
        · exact fun hplain => hplain.ne_replacement hc
        · exact hfirst.1 c hc

theorem plain_not_mem {p : Option Pending} {c : Char} (hc : Plain c) : c ∉ lossyFrom p [] := by
  cases p with
  | none => exact List.not_mem_nil
  | some q => exact fun hmem => hc.ne_replacement (List.mem_singleton.mp hmem)

theorem ofNat_char {b : UInt8} (hb : b < 0x80) : UInt8.ofNat (Char.ofNat b.toNat).toNat = b := by
  have hlt : b.toNat < 0x80 := UInt8.lt_iff_toNat_lt.mp hb
  have hv : b.toNat.isValidChar := Or.inl (by omega)
  have hnat : (Char.ofNat b.toNat).toNat = b.toNat := by
    rw [Char.ofNat, dif_pos hv]
    rfl
  rw [hnat]
  exact UInt8.ofNat_toNat

/-- A plain character among those that a byte adds is the byte. -/
theorem step_plain {p : Option Pending} (hp : ∀ q, p = some q → q.Wide) {b : UInt8}
    {xs ys : List Char} {c : Char} (hc : Plain c) (h : (step p b).1 = xs ++ c :: ys) :
    UInt8.ofNat c.toNat = b ∧ xs = lossyFrom p [] ∧ ys = [] ∧ (step p b).2 = none := by
  have hmem : c ∈ (step p b).1 := h ▸ List.mem_append_right _ List.mem_cons_self
  by_cases hb : b < 0x80
  · rw [step_ascii p hb] at h ⊢
    rcases List.eq_nil_or_concat ys with rfl | ⟨zs, z, rfl⟩
    · obtain ⟨hxs, hchar⟩ := List.append_inj' h rfl
      refine ⟨?_, hxs.symm, rfl, rfl⟩
      rw [← (List.cons.inj hchar).1]
      exact ofNat_char hb
    · -- then it would be one of those before the byte
      rw [List.concat_eq_append, ← List.cons_append, ← List.append_assoc] at h
      have hbefore := (List.append_inj' h rfl).1
      exact absurd (hbefore ▸ List.mem_append_right _ List.mem_cons_self) (plain_not_mem hc)
  · exact absurd hc ((step_wide hb hp).1 c hmem)

theorem lossyFrom_cut {p : Option Pending} (hp : ∀ q, p = some q → q.Wide) {bs : List UInt8}
    {xs ys : List Char} {c : Char} (hc : Plain c) (h : lossyFrom p bs = xs ++ c :: ys) :
    ∃ bs₁ bs₂, bs = bs₁ ++ UInt8.ofNat c.toNat :: bs₂ ∧ lossyFrom p bs₁ = xs ∧
      lossy bs₂ = ys := by
  induction bs generalizing p xs with
  | nil => exact absurd (h ▸ List.mem_append_right _ List.mem_cons_self) (plain_not_mem hc)
  | cons b bs ih =>
      have hwide : ∀ q, (step p b).2 = some q → q.Wide := by
        by_cases hb : b < 0x80
        · rw [step_ascii p hb]
          exact fun q hq => by cases hq
        · exact (step_wide hb hp).2
      rw [lossyFrom] at h
      have hlater : ∀ zs, xs = (step p b).1 ++ zs →
          lossyFrom (step p b).2 bs = zs ++ c :: ys → ∃ bs₁ bs₂,
            b :: bs = bs₁ ++ UInt8.ofNat c.toNat :: bs₂ ∧ lossyFrom p bs₁ = xs ∧
              lossy bs₂ = ys := by
        intro zs hxs hrest
        obtain ⟨bs₁, bs₂, rfl, hzs, hys⟩ := ih hwide hrest
        exact ⟨b :: bs₁, bs₂, rfl, by rw [lossyFrom, hzs, hxs], hys⟩
      rcases List.append_eq_append_iff.mp h with ⟨zs, hxs, hrest⟩ | ⟨zs, hout, hrest⟩
      · exact hlater zs hxs hrest
      · cases zs with
        | nil => exact hlater [] (by rw [hout, List.append_nil, List.append_nil]) hrest.symm
        | cons z zs =>
            obtain ⟨rfl, hys⟩ := List.cons.inj hrest
            obtain ⟨hb, hxs, rfl, hnone⟩ := step_plain hp hc hout
            rw [hnone] at hys
            exact ⟨[], bs, by rw [hb]; rfl, hxs.symm, hys.symm⟩

/-- **An ASCII character of the text is a byte of the string.** -/
theorem lossy_cut {bs : List UInt8} {xs ys : List Char} {c : Char} (hc : Plain c)
    (h : lossy bs = xs ++ c :: ys) :
    ∃ bs₁ bs₂, bs = bs₁ ++ UInt8.ofNat c.toNat :: bs₂ ∧ lossy bs₁ = xs ∧ lossy bs₂ = ys :=
  lossyFrom_cut (fun _ hq => by cases hq) hc h

theorem lossy_mem {bs : List UInt8} {c : Char} (hc : Plain c) (h : c ∈ lossy bs) :
    UInt8.ofNat c.toNat ∈ bs := by
  obtain ⟨xs, ys, heq⟩ := List.append_of_mem h
  obtain ⟨bs₁, bs₂, rfl, -, -⟩ := lossy_cut hc heq
  exact List.mem_append_right _ List.mem_cons_self

theorem lossyFrom_pending (p : Pending) (bs : List UInt8) : lossyFrom (some p) bs ≠ [] := by
  induction bs generalizing p with
  | nil => exact List.cons_ne_nil replacement []
  | cons b bs ih =>
      rw [lossyFrom, step]
      split
      · cases p.more with
        | zero => exact List.cons_ne_nil _ (lossyFrom none bs)
        | succ n => exact ih _
      · exact List.cons_ne_nil replacement _

theorem lossy_ne_nil {bs : List UInt8} (h : bs ≠ []) : lossy bs ≠ [] := by
  cases bs with
  | nil => exact absurd rfl h
  | cons b bs =>
      rw [lossy, lossyFrom, step, first]
      split
      · exact List.cons_ne_nil _ (lossyFrom none bs)
      · split
        · exact lossyFrom_pending _ bs
        · exact List.cons_ne_nil replacement _

/-- A plain character at the front. -/
theorem lossy_head {bs : List UInt8} {ys : List Char} {c : Char} (hc : Plain c)
    (h : lossy bs = c :: ys) : ∃ bs', bs = UInt8.ofNat c.toNat :: bs' ∧ lossy bs' = ys := by
  have hcut : lossy bs = [] ++ c :: ys := h
  obtain ⟨bs₁, bs₂, rfl, hnil, hys⟩ := lossy_cut hc hcut
  cases bs₁ with
  | nil => exact ⟨bs₂, rfl, hys⟩
  | cons b bs₁ => exact absurd hnil (lossy_ne_nil (List.cons_ne_nil b bs₁))

end Utf8
