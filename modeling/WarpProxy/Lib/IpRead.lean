/-
# `WarpProxy.Lib.IpRead` — what the readers of addresses take

The first part is about any text: a reader takes digits, dots and colons off its
front and nothing else (`parseV4_chars`, `parseV6_chars`).

The second is that the printed address is read back as itself:

    parseV4 (showV4 a) = some a        parseV6 (showV6 b) = some b

A number is read up to the next character that is no digit; a group of
hexadecimal digits is not taken for the first octet of an IPv4 address, since no
dot follows; and the groups left out at the `::` are zeros (`zeroes_run`).
-/
import Mathlib.Data.List.Induction
import Mathlib.Data.List.TakeWhile
import WarpProxy.Lib.IpText

namespace IpText

/-! ## The characters of an address -/

/-- `rest` is what is left after some characters with `P`. -/
def Takes (P : Char → Prop) (cs rest : List Char) : Prop :=
  ∃ front, cs = front ++ rest ∧ ∀ c ∈ front, P c

section
variable {P Q : Char → Prop} {cs cs' cs'' : List Char}

theorem Takes.refl (P : Char → Prop) (cs : List Char) : Takes P cs cs :=
  ⟨[], rfl, fun _ h => absurd h List.not_mem_nil⟩

theorem Takes.trans (h : Takes P cs cs') (h' : Takes P cs' cs'') : Takes P cs cs'' := by
  obtain ⟨front, rfl, hfront⟩ := h
  obtain ⟨front', rfl, hfront'⟩ := h'
  refine ⟨front ++ front', (List.append_assoc ..).symm, fun c hc => ?_⟩
  rcases List.mem_append.mp hc with hc | hc
  · exact hfront c hc
  · exact hfront' c hc

theorem Takes.mono (h : Takes P cs cs') (hPQ : ∀ c, P c → Q c) : Takes Q cs cs' := by
  obtain ⟨front, rfl, hfront⟩ := h
  exact ⟨front, rfl, fun c hc => hPQ c (hfront c hc)⟩

end

/-- The digits of an octet and the dots. -/
def V4Char (c : Char) : Prop := (digit 10 c).isSome ∨ c = '.'

instance (c : Char) : Decidable (V4Char c) := inferInstanceAs (Decidable (_ ∨ _))

/-- The digits of a group, the colons, and what an IPv4 address has. -/
def V6Char (c : Char) : Prop := (digit 16 c).isSome ∨ c = ':' ∨ V4Char c

instance (c : Char) : Decidable (V6Char c) := inferInstanceAs (Decidable (_ ∨ _))

theorem readNumber_takes {radix maxDigits bound n : Nat} {zero : Bool} {cs rest : List Char}
    (h : readNumber radix maxDigits zero bound cs = some (n, rest)) :
    Takes (fun c => (digit radix c).isSome) cs rest ∧
      rest = cs.dropWhile fun c => (digit radix c).isSome := by
  have hcs := List.takeWhile_append_dropWhile (p := fun c => (digit radix c).isSome) (l := cs)
  have hdrop : cs.drop (cs.takeWhile fun c => (digit radix c).isSome).length =
      cs.dropWhile fun c => (digit radix c).isSome := by
    conv => lhs; arg 2; rw [← hcs]
    exact List.drop_left
  have hrest : rest = cs.dropWhile fun c => (digit radix c).isSome := by
    simp only [readNumber] at h
    split_ifs at h
    rw [← hdrop]
    exact (Prod.mk.inj (Option.some.inj h)).2.symm
  refine ⟨⟨cs.takeWhile fun c => (digit radix c).isSome, ?_, ?_⟩, hrest⟩
  · rw [hrest, hcs]
  · exact fun c hc => List.mem_takeWhile_imp (p := fun c => (digit radix c).isSome) hc

theorem readSeparator_takes {α : Type} {P : Char → Prop} {sep : Char} (hsep : P sep)
    {index : Nat} {inner : List Char → Option (α × List Char)}
    (hinner : ∀ cs a rest, inner cs = some (a, rest) → Takes P cs rest) {cs rest : List Char}
    {a : α} (h : readSeparator sep index inner cs = some (a, rest)) : Takes P cs rest := by
  cases index with
  | zero => exact hinner cs a rest h
  | succ index =>
      cases cs with
      | nil => cases h
      | cons c cs =>
          simp only [readSeparator, Nat.add_one_ne_zero, if_false] at h
          split at h
          · next hc =>
              obtain ⟨front, rfl, hfront⟩ := hinner cs a rest h
              refine ⟨c :: front, rfl, fun d hd => ?_⟩
              rcases List.mem_cons.mp hd with rfl | hd
              · exact hc ▸ hsep
              · exact hfront d hd
          · cases h

theorem readOctets_takes {index n : Nat} {cs rest : List Char} {os : List Nat}
    (h : readOctets index n cs = some (os, rest)) : Takes V4Char cs rest := by
  induction n generalizing index cs os with
  | zero =>
      cases h
      exact .refl _ _
  | succ n ih =>
      rw [readOctets] at h
      simp only [Option.bind_eq_bind, Option.bind_eq_some_iff] at h
      obtain ⟨⟨o, cs₁⟩, ho, ⟨os', cs₂⟩, hos, heq⟩ := h
      obtain ⟨-, rfl⟩ := Prod.mk.inj (Option.some.inj heq)
      refine .trans (readSeparator_takes (.inr rfl) (fun cs a rest h => ?_) ho) (ih hos)
      exact (readNumber_takes h).1.mono fun c hc => .inl hc

theorem readGroups_takes (index n : Nat) (cs : List Char) :
    Takes V6Char cs (readGroups index n cs).2.2 := by
  induction n generalizing index cs with
  | zero => exact .refl _ _
  | succ n ih =>
      have hcolon : V6Char ':' := .inr (.inl rfl)
      rw [readGroups]
      split
      · next os cs' h =>
          split at h
          · refine readSeparator_takes hcolon (fun cs a rest h => ?_) h
            exact (readOctets_takes h).mono fun c hc => .inr (.inr hc)
          · cases h
      · split
        · next g cs' h =>
            refine .trans (readSeparator_takes hcolon (fun cs a rest h => ?_) h) (ih ..)
            exact (readNumber_takes h).1.mono fun c hc => .inl hc
        · exact .refl _ _

theorem readV6_takes {cs rest : List Char} {gs : List Nat} (h : readV6 cs = some (gs, rest)) :
    Takes V6Char cs rest := by
  have hhead := readGroups_takes 0 8 cs
  simp only [readV6] at h
  split_ifs at h
  · rw [← (Prod.mk.inj (Option.some.inj h)).2]
    exact hhead
  · split at h
    · next tail heq =>
        rw [heq] at hhead
        have hcolons : Takes V6Char (':' :: ':' :: tail) tail :=
          ⟨[':', ':'], rfl, by simp [V6Char]⟩
        rw [← (Prod.mk.inj (Option.some.inj h)).2]
        exact hhead.trans (hcolons.trans (readGroups_takes ..))
    · cases h

/-- **The characters of an IPv4 address.** -/
theorem parseV4_chars {cs : List Char} {a : BitVec 32} (h : parseV4 cs = some a) :
    ∀ c ∈ cs, V4Char c := by
  rw [parseV4] at h
  split at h
  · next os hread =>
      obtain ⟨front, rfl, hfront⟩ := readOctets_takes hread
      rw [List.append_nil]
      exact hfront
  · cases h

/-- **The characters of an IPv6 address.** -/
theorem parseV6_chars {cs : List Char} {a : BitVec 128} (h : parseV6 cs = some a) :
    ∀ c ∈ cs, V6Char c := by
  rw [parseV6] at h
  split at h
  · next os hread =>
      obtain ⟨front, rfl, hfront⟩ := readV6_takes hread
      rw [List.append_nil]
      exact hfront
  · cases h

/-- `0`–`9`, `a`–`f` and `A`–`F`. -/
theorem digit_range {radix : Nat} (hr : radix ≤ 16) {c : Char} (h : (digit radix c).isSome) :
    (48 ≤ c.toNat ∧ c.toNat ≤ 57) ∨ (97 ≤ c.toNat ∧ c.toNat ≤ 102) ∨
      (65 ≤ c.toNat ∧ c.toNat ≤ 70) := by
  obtain ⟨v, hv⟩ := Option.isSome_iff_exists.mp h
  simp only [digit, Char.reduceToNat, Option.ite_none_right_eq_some] at hv
  have hlt := hv.1
  split_ifs at hlt <;> omega

theorem V4Char.v6 {c : Char} (h : V4Char c) : V6Char c := .inr (.inr h)

theorem V6Char.range {c : Char} (h : V6Char c) :
    (48 ≤ c.toNat ∧ c.toNat ≤ 58) ∨ (97 ≤ c.toNat ∧ c.toNat ≤ 102) ∨
      (65 ≤ c.toNat ∧ c.toNat ≤ 70) ∨ c.toNat = 46 := by
  rcases h with h | rfl | h | rfl
  · have hrange := digit_range (by decide) h
    omega
  · decide
  · have hrange := digit_range (by decide) h
    omega
  · decide

theorem parseV4_nil : parseV4 [] = none := by decide

theorem parseV6_nil : parseV6 [] = none := by decide

/-! ## Numbers are read back -/

/-- What follows a number does not go on with a digit. -/
def NumberEnd (radix : Nat) (rest : List Char) : Prop :=
  ∀ c cs, rest = c :: cs → digit radix c = none

theorem numberEnd_nil (radix : Nat) : NumberEnd radix [] := fun _ _ h => (by cases h)

theorem numberEnd_cons {radix : Nat} {c : Char} (hc : digit radix c = none) (cs : List Char) :
    NumberEnd radix (c :: cs) := by
  intro d ds h
  rw [← (List.cons.inj h).1]
  exact hc

theorem digit_digitChar {radix d : Nat} (hr : radix ≤ 16) (hd : d < radix) :
    digit radix d.digitChar = some d := by
  have hall : ∀ d, d < 16 → ∀ radix, radix ≤ 16 → d < radix →
      digit radix d.digitChar = some d := by decide +kernel
  exact hall d (by omega) radix hr hd

theorem toDigits_length {radix : Nat} (hr : 1 < radix) (n k : Nat) (hn : n < radix ^ (k + 1)) :
    0 < (Nat.toDigits radix n).length ∧ (Nat.toDigits radix n).length ≤ k + 1 := by
  induction k generalizing n with
  | zero =>
      rw [Nat.zero_add, Nat.pow_one] at hn
      rw [Nat.toDigits_of_lt_base hn]
      exact ⟨Nat.one_pos, Nat.le_refl 1⟩
  | succ k ih =>
      rcases Nat.lt_or_ge n radix with hlt | hge
      · rw [Nat.toDigits_of_lt_base hlt]
        exact ⟨Nat.one_pos, by show 1 ≤ _; omega⟩
      · rw [Nat.toDigits_of_base_le hr hge, List.length_append, List.length_singleton]
        have hdiv : n / radix < radix ^ (k + 1) :=
          Nat.div_lt_of_lt_mul (by rw [Nat.mul_comm, ← Nat.pow_succ]; exact hn)
        have hlen := (ih (n / radix) hdiv).2
        omega

section
variable {radix : Nat} (hr : 1 < radix) (hle : radix ≤ 16)
include hr hle

/-- The digits of a number, in order: one for each, and the value they spell. -/
theorem toDigits_spec (n : Nat) :
    (∀ c ∈ Nat.toDigits radix n, (digit radix c).isSome) ∧
      ((Nat.toDigits radix n).filterMap (digit radix)).foldl (fun n d => n * radix + d) 0 = n ∧
      (0 < n → (Nat.toDigits radix n).head? ≠ some '0') := by
  induction n using Nat.strongRecOn with
  | _ n ih =>
    rcases Nat.lt_or_ge n radix with hlt | hge
    · have hdigit := digit_digitChar hle hlt
      rw [Nat.toDigits_of_lt_base hlt]
      refine ⟨fun c hc => ?_, ?_, fun hpos => ?_⟩
      · rw [List.mem_singleton.mp hc, hdigit]
        rfl
      · simp only [List.filterMap_cons, hdigit, List.filterMap_nil, List.foldl_cons,
          List.foldl_nil, Nat.zero_mul, Nat.zero_add]
      · intro hzero
        have hnone : digit radix '0' = some n := by
          rw [← Option.some.inj hzero]
          exact hdigit
        rw [show '0' = (0 : Nat).digitChar from rfl, digit_digitChar hle (by omega)] at hnone
        exact absurd (Option.some.inj hnone) (by omega)
    · have hmod : n % radix < radix := Nat.mod_lt n (by omega)
      have hdigit := digit_digitChar hle hmod
      have hdiv : 0 < n / radix := Nat.div_pos hge (by omega)
      obtain ⟨hchars, hvalue, hhead⟩ := ih (n / radix) (Nat.div_lt_self (by omega) hr)
      rw [Nat.toDigits_of_base_le hr hge]
      refine ⟨fun c hc => ?_, ?_, fun _ => ?_⟩
      · rcases List.mem_append.mp hc with hc | hc
        · exact hchars c hc
        · rw [List.mem_singleton.mp hc, hdigit]
          rfl
      · rw [List.filterMap_append, List.foldl_append, hvalue]
        simp only [List.filterMap_cons, hdigit, List.filterMap_nil, List.foldl_cons,
          List.foldl_nil]
        exact Nat.div_add_mod' n radix
      · have hne : Nat.toDigits radix (n / radix) ≠ [] := by
          intro hnil
          rw [hnil] at hvalue
          exact absurd hvalue (by show ¬ 0 = _; omega)
        obtain ⟨c, cs, hcs⟩ := List.exists_cons_of_ne_nil hne
        rw [hcs] at hhead ⊢
        exact hhead hdiv

/-- **A number is read back.** -/
theorem readNumber_toDigits {n k bound : Nat} (zero : Bool) (hn : n < radix ^ (k + 1))
    (hbound : n < bound) {rest : List Char} (hend : NumberEnd radix rest) :
    readNumber radix (k + 1) zero bound (Nat.toDigits radix n ++ rest) = some (n, rest) := by
  obtain ⟨hchars, hvalue, hhead⟩ := toDigits_spec hr hle n
  obtain ⟨hpos, hlen⟩ := toDigits_length hr n k hn
  have hnone : rest.takeWhile (fun c => (digit radix c).isSome) = [] := by
    cases rest with
    | nil => rfl
    | cons c cs => rw [List.takeWhile_cons, hend c cs rfl]; rfl
  have htake : (Nat.toDigits radix n ++ rest).takeWhile (fun c => (digit radix c).isSome) =
      Nat.toDigits radix n := by
    rw [List.takeWhile_append_of_pos hchars, hnone, List.append_nil]
  have hlead : ¬ (zero = false ∧ (Nat.toDigits radix n).head? = some '0' ∧
      1 < (Nat.toDigits radix n).length) := by
    rintro ⟨-, hzero, hlong⟩
    rcases Nat.eq_zero_or_pos n with rfl | hn
    · rw [Nat.toDigits_zero] at hlong
      exact absurd hlong (by decide)
    · exact hhead hn hzero
  simp only [readNumber, htake, hvalue]
  rw [if_neg (by omega), if_neg hlead, if_pos hbound, List.drop_left]

end

/-! ## IPv4 addresses are read back -/

theorem octets_lt (a : BitVec 32) : ∀ o ∈ octets a, o < 256 := by
  have ha := a.isLt
  simp only [octets, List.mem_cons, List.not_mem_nil, or_false]
  rintro o (rfl | rfl | rfl | rfl) <;> omega

theorem bits_octets (a : BitVec 32) : bits 256 32 (octets a) = a := by
  have ha := a.isLt
  apply BitVec.eq_of_toNat_eq
  rw [bits, BitVec.toNat_ofNat]
  simp only [octets, List.foldl_cons, List.foldl_nil]
  omega

/-- **The octets of a printed address**, in front of what is no digit. -/
theorem readV4_showV4 (a : BitVec 32) {rest : List Char} (hend : NumberEnd 10 rest) :
    readV4 (showV4 a ++ rest) = some (octets a, rest) := by
  have hnum : ∀ o ∈ octets a, ∀ rest, NumberEnd 10 rest →
      readNumber 10 3 false 256 (Nat.toDigits 10 o ++ rest) = some (o, rest) := by
    intro o ho rest hend
    have hlt := octets_lt a o ho
    exact readNumber_toDigits (by decide) (by decide) false (Nat.lt_trans hlt (by decide)) hlt hend
  have hdot : ∀ cs, NumberEnd 10 ('.' :: cs) := numberEnd_cons (by decide)
  obtain ⟨o₁, o₂, o₃, o₄, ho⟩ : ∃ o₁ o₂ o₃ o₄, octets a = [o₁, o₂, o₃, o₄] := ⟨_, _, _, _, rfl⟩
  have htext : showV4 a ++ rest = Nat.toDigits 10 o₁ ++ '.' :: (Nat.toDigits 10 o₂ ++
      '.' :: (Nat.toDigits 10 o₃ ++ '.' :: (Nat.toDigits 10 o₄ ++ rest))) := by
    simp [showV4, ho, decimal, List.intercalate]
  rw [ho] at hnum ⊢
  rw [htext]
  simp only [readV4, readOctets, readSeparator, if_true, Nat.zero_add, Nat.reduceAdd,
    Nat.one_ne_zero, OfNat.ofNat_ne_zero, if_false, hnum, List.mem_cons, true_or, or_true, hdot,
    hend, Option.bind_eq_bind, Option.bind_some]

/-- **A printed IPv4 address is read back.** -/
theorem parseV4_showV4 (a : BitVec 32) : parseV4 (showV4 a) = some a := by
  have hread := readV4_showV4 a (numberEnd_nil 10)
  rw [List.append_nil] at hread
  simp only [parseV4, hread, bits_octets]

/-! ## Groups are read back -/

/-- The groups after the first, each with its colon. -/
def colons (gs : List Nat) : List Char := gs.flatMap fun g => ':' :: Nat.toDigits 16 g

theorem colonHex_cons (g : Nat) (gs : List Nat) :
    colonHex (g :: gs) = Nat.toDigits 16 g ++ colons gs := by
  induction gs generalizing g with
  | nil => simp [colonHex, colons, List.intercalate]
  | cons g' gs ih =>
      have hstep : colonHex (g :: g' :: gs) = Nat.toDigits 16 g ++ ':' :: colonHex (g' :: gs) := by
        simp [colonHex, List.intercalate]
      rw [hstep, ih]
      rfl

/-- After the groups comes the end, or another colon. -/
def GroupsEnd (rest : List Char) : Prop := rest = [] ∨ ∃ cs, rest = ':' :: cs

theorem GroupsEnd.numberEnd {rest : List Char} (h : GroupsEnd rest) {radix : Nat}
    (hr : radix ≤ 16) : NumberEnd radix rest := by
  rcases h with rfl | ⟨cs, rfl⟩
  · exact numberEnd_nil radix
  · refine numberEnd_cons ?_ cs
    have hall : ∀ radix, radix ≤ 16 → digit radix ':' = none := by decide
    exact hall radix hr

theorem groupsEnd_colons (gs : List Nat) {rest : List Char} (h : GroupsEnd rest) :
    GroupsEnd (colons gs ++ rest) := by
  cases gs with
  | nil => exact h
  | cons g gs => exact .inr ⟨_, rfl⟩

/-- No dot follows the first octet. -/
theorem readV4_none {cs : List Char} (h : ∀ cs',
    cs.dropWhile (fun c => (digit 10 c).isSome) ≠ '.' :: cs') : readV4 cs = none := by
  rw [readV4, readOctets]
  simp only [readSeparator, if_true]
  cases hread : readNumber 10 3 false 256 cs with
  | none => rfl
  | some p =>
      obtain ⟨o, rest⟩ := p
      have hrest := (readNumber_takes hread).2
      have hsep : readSeparator '.' 1 (readNumber 10 3 false 256) rest = none := by
        cases hcs : rest with
        | nil => rfl
        | cons c cs' =>
            have hdot : c ≠ '.' := by
              rintro rfl
              exact h cs' (hrest.symm.trans hcs)
            simp only [readSeparator, Nat.one_ne_zero, if_false, if_neg hdot]
      simp only [Option.bind_eq_bind, Option.bind_some, Nat.zero_add, readOctets, hsep,
        Option.bind_none]

/-- A group is not the first octet of an IPv4 address. -/
theorem readV4_group (g : Nat) {rest : List Char} (h : GroupsEnd rest) :
    readV4 (Nat.toDigits 16 g ++ rest) = none := by
  have hchars := (@toDigits_spec 16 (by decide) (by decide) g).1
  have hrest : rest.dropWhile (fun c => (digit 10 c).isSome) = rest := by
    rcases h with rfl | ⟨cs, rfl⟩
    · rfl
    · rfl
  refine readV4_none fun cs' heq => ?_
  rw [List.dropWhile_append, hrest] at heq
  split at heq
  · rcases h with rfl | ⟨cs, rfl⟩
    · cases heq
    · exact absurd (List.cons.inj heq).1 (by decide)
  · next hsome =>
      -- the dot would be one of the digits
      have hmem : '.' ∈ Nat.toDigits 16 g := by
        refine (List.dropWhile_sublist fun c => (digit 10 c).isSome).subset ?_
        cases hdrop : (Nat.toDigits 16 g).dropWhile (fun c => (digit 10 c).isSome) with
        | nil => rw [hdrop] at hsome; exact absurd rfl hsome
        | cons c cs =>
            rw [hdrop, List.cons_append] at heq
            rw [(List.cons.inj heq).1]
            exact List.mem_cons_self
      exact absurd (hchars '.' hmem) (by decide)

theorem readGroup {g : Nat} (hg : g < 65536) {rest : List Char} (h : GroupsEnd rest) :
    readNumber 16 4 true 65536 (Nat.toDigits 16 g ++ rest) = some (g, rest) :=
  readNumber_toDigits (by decide) (by decide) true (by omega) hg (h.numberEnd (by decide))

/-- Nothing more is read at the end, or before a second colon. -/
theorem readGroups_end (index n : Nat) {rest : List Char}
    (h : rest = [] ∨ ∃ cs, rest = ':' :: ':' :: cs) :
    readGroups index n rest = ([], false, rest) := by
  have hcolon : ∀ cs, readV4 (':' :: cs) = none := fun cs => readV4_none fun cs' heq => by
    exact absurd (List.cons.inj heq).1 (by decide)
  have hnum : ∀ cs, readNumber 16 4 true 65536 (':' :: cs) = none := fun cs => rfl
  cases n with
  | zero => rfl
  | succ n =>
      rw [readGroups]
      rcases h with rfl | ⟨cs, rfl⟩
      · cases index with
        | zero => simp [readSeparator, show readV4 [] = none from by decide,
            show readNumber 16 4 true 65536 [] = none from rfl]
        | succ index => simp [readSeparator]
      · cases index with
        | zero => simp [readSeparator, hcolon, hnum]
        | succ index => simp [readSeparator, hcolon, hnum]

/-- A group and, behind it, what is read of the rest. -/
theorem readGroups_first {g : Nat} (hg : g < 65536) (n : Nat) {rest : List Char}
    (h : GroupsEnd rest) :
    readGroups 0 (n + 1) (Nat.toDigits 16 g ++ rest) =
      (g :: (readGroups 1 n rest).1, (readGroups 1 n rest).2) := by
  rw [readGroups]
  simp only [readSeparator, if_true, readV4_group g h, ite_self, readGroup hg h, Nat.zero_add]

theorem readGroups_next {g : Nat} (hg : g < 65536) (index n : Nat) {rest : List Char}
    (h : GroupsEnd rest) :
    readGroups (index + 1) (n + 1) (':' :: (Nat.toDigits 16 g ++ rest)) =
      (g :: (readGroups (index + 2) n rest).1, (readGroups (index + 2) n rest).2) := by
  rw [readGroups]
  simp only [readSeparator, Nat.add_one_ne_zero, if_true, if_false, readV4_group g h, ite_self,
    readGroup hg h]

/-- The text a printed run of groups stands in front of: the end, or the `::`. -/
def RunEnd (rest : List Char) : Prop := rest = [] ∨ ∃ cs, rest = ':' :: ':' :: cs

theorem RunEnd.groupsEnd {rest : List Char} (h : RunEnd rest) : GroupsEnd rest :=
  h.imp_right fun ⟨cs, hcs⟩ => ⟨':' :: cs, hcs⟩

theorem readGroups_colons (index n : Nat) {gs : List Nat} (hgs : ∀ g ∈ gs, g < 65536)
    (hlen : gs.length ≤ n) {rest : List Char} (h : RunEnd rest) :
    readGroups (index + 1) n (colons gs ++ rest) = (gs, false, rest) := by
  induction gs generalizing index n with
  | nil => exact readGroups_end (index + 1) n h
  | cons g gs ih =>
      obtain ⟨n, rfl⟩ : ∃ m, n = m + 1 := ⟨n - 1, by rw [List.length_cons] at hlen; omega⟩
      have htext : colons (g :: gs) ++ rest =
          ':' :: (Nat.toDigits 16 g ++ (colons gs ++ rest)) := by
        simp only [colons, List.flatMap_cons, List.cons_append, List.append_assoc]
      rw [htext, readGroups_next (hgs g List.mem_cons_self) index n
        (groupsEnd_colons gs h.groupsEnd)]
      rw [ih (index + 1) n (fun g' hg' => hgs g' (List.mem_cons_of_mem g hg'))
        (Nat.le_of_succ_le_succ hlen)]

/-- **Printed groups are read back.** -/
theorem readGroups_colonHex (n : Nat) {gs : List Nat} (hgs : ∀ g ∈ gs, g < 65536)
    (hlen : gs.length ≤ n) {rest : List Char} (h : RunEnd rest) :
    readGroups 0 n (colonHex gs ++ rest) = (gs, false, rest) := by
  cases gs with
  | nil => exact readGroups_end 0 n h
  | cons g gs =>
      obtain ⟨n, rfl⟩ : ∃ m, n = m + 1 := ⟨n - 1, by rw [List.length_cons] at hlen; omega⟩
      rw [colonHex_cons, List.append_assoc, readGroups_first (hgs g List.mem_cons_self) n
        (groupsEnd_colons gs h.groupsEnd)]
      rw [readGroups_colons 0 n (fun g' hg' => hgs g' (List.mem_cons_of_mem g hg'))
        (Nat.le_of_succ_le_succ hlen) h]

/-! ## The groups left out are zeros -/

/-- Where the span says, there are only zeros. -/
def Zeros (segments : List Nat) (s : Span) : Prop :=
  ∃ front back, segments = front ++ List.replicate s.len 0 ++ back ∧ front.length = s.start

theorem Zeros.append {segments : List Nat} {s : Span} (h : Zeros segments s) (g : Nat) :
    Zeros (segments ++ [g]) s := by
  obtain ⟨front, back, rfl, hfront⟩ := h
  exact ⟨front, back ++ [g], (List.append_assoc ..), hfront⟩

/-- The run the last group is in reaches up to the end. -/
def Trailing (segments : List Nat) (s : Span) : Prop :=
  s.len ≠ 0 → ∃ front, segments = front ++ List.replicate s.len 0 ∧ front.length = s.start

/-- What the scan keeps: both runs are of zeros, and the current one is at the end. -/
def Scanned (segments : List Nat) (p : Span × Span) : Prop :=
  (p.1.len ≠ 0 → Zeros segments p.1) ∧ Trailing segments p.2

theorem Trailing.zeros {segments : List Nat} {s : Span} (h : Trailing segments s)
    (hlen : s.len ≠ 0) : Zeros segments s := by
  obtain ⟨front, heq, hfront⟩ := h hlen
  exact ⟨front, [], by rw [List.append_nil, heq], hfront⟩

theorem spanStep_scanned {segments : List Nat} {p : Span × Span} (h : Scanned segments p)
    (g : Nat) : Scanned (segments ++ [g]) (spanStep p (g, segments.length)) := by
  obtain ⟨longest, current⟩ := p
  have hlongest : longest.len ≠ 0 → Zeros (segments ++ [g]) longest :=
    fun hlen => (h.1 hlen).append g
  rw [spanStep]
  split
  · next hzero =>
      subst hzero
      have hcurrent : Trailing (segments ++ [0])
          ⟨if current.len = 0 then segments.length else current.start, current.len + 1⟩ := by
        intro _
        rcases Nat.eq_zero_or_pos current.len with hnil | hpos
        · refine ⟨segments, ?_, by rw [if_pos hnil]⟩
          rw [hnil]
          rfl
        · obtain ⟨front, heq, hfront⟩ := h.2 (Nat.ne_of_gt hpos)
          refine ⟨front, ?_, by rw [if_neg (Nat.ne_of_gt hpos), hfront]⟩
          rw [List.replicate_succ', ← List.append_assoc, ← heq]
      refine ⟨?_, hcurrent⟩
      by_cases hlt : longest.len < current.len + 1
      · simpa only [if_pos hlt] using hcurrent.zeros
      · simpa only [if_neg hlt] using hlongest
  · exact ⟨hlongest, fun hlen => absurd rfl hlen⟩

theorem scan_scanned (segments : List Nat) :
    Scanned segments (segments.zipIdx.foldl spanStep (⟨0, 0⟩, ⟨0, 0⟩)) := by
  induction segments using List.reverseRecOn with
  | nil => exact ⟨fun hlen => absurd rfl hlen, fun hlen => absurd rfl hlen⟩
  | append_singleton segments g ih =>
      rw [List.zipIdx_append, List.foldl_append]
      simpa using spanStep_scanned ih g

/-- **The longest run is one of zeros.** -/
theorem zeroes_run {segments : List Nat} (h : (zeroes segments).len ≠ 0) :
    Zeros segments (zeroes segments) :=
  (scan_scanned segments).1 h

/-! ## IPv6 addresses are read back -/

theorem groups_lt (b : BitVec 128) : ∀ g ∈ groups b, g < 65536 := by
  intro g hg
  obtain ⟨i, -, rfl⟩ := List.mem_map.mp hg
  exact Nat.mod_lt _ (by decide)

theorem groups_length (b : BitVec 128) : (groups b).length = 8 := by
  simp only [groups, List.length_map, List.length_range]

/-- The digits of a number below `r ^ k`, the first one first, spell it. -/
theorem foldl_digits {r : Nat} (hr : 0 < r) (k n : Nat) (hn : n < r ^ k) :
    (((List.range k).map fun i => n / r ^ (k - 1 - i) % r).foldl (fun a g => a * r + g) 0) = n := by
  induction k generalizing n with
  | zero =>
      rw [Nat.pow_zero] at hn
      show 0 = n
      omega
  | succ k ih =>
      have hdiv : n / r < r ^ k := by
        rw [Nat.div_lt_iff_lt_mul hr, ← Nat.pow_succ]
        exact hn
      have hfront : ((List.range k).map fun i => n / r ^ (k + 1 - 1 - i) % r) =
          (List.range k).map fun i => n / r / r ^ (k - 1 - i) % r := by
        refine List.map_congr_left fun i hi => ?_
        have hexp : k + 1 - 1 - i = k - 1 - i + 1 := by
          have hlt := List.mem_range.mp hi
          omega
        rw [hexp, Nat.pow_succ', Nat.div_div_eq_div_mul]
      rw [List.range_succ, List.map_append, List.foldl_append, hfront, ih (n / r) hdiv]
      simp only [List.map_cons, List.map_nil, List.foldl_cons, List.foldl_nil, Nat.add_sub_cancel,
        Nat.sub_self, Nat.pow_zero, Nat.div_one]
      exact Nat.div_add_mod' n r

theorem bits_groups (b : BitVec 128) : bits 65536 128 (groups b) = b := by
  have hb : b.toNat < 65536 ^ 8 := b.isLt
  have hdigits := foldl_digits (show 0 < 65536 by decide) 8 b.toNat hb
  apply BitVec.eq_of_toNat_eq
  rw [bits, BitVec.toNat_ofNat, groups, hdigits]
  exact Nat.mod_eq_of_lt b.isLt

/-- The text with `::` for the zeros between `front` and `back`. -/
theorem readV6_compressed {front back : List Nat} (hfront : ∀ g ∈ front, g < 65536)
    (hback : ∀ g ∈ back, g < 65536) (hlen : front.length + back.length < 8) :
    readV6 (colonHex front ++ "::".toList ++ colonHex back) =
      some (front ++ List.replicate (8 - front.length - back.length) 0 ++ back, []) := by
  have hhead : readGroups 0 8 (colonHex front ++ "::".toList ++ colonHex back) =
      (front, false, ':' :: ':' :: colonHex back) := by
    rw [List.append_assoc]
    exact readGroups_colonHex 8 hfront (by omega) (.inr ⟨_, rfl⟩)
  have htail : readGroups 0 (7 - front.length) (colonHex back) = (back, false, []) := by
    have h := readGroups_colonHex (7 - front.length) hback (by omega) (.inl rfl)
    rwa [List.append_nil] at h
  rw [readV6, hhead]
  simp only [htail, Bool.false_eq_true, if_false]
  rw [if_neg (by omega)]

/-- The text with all eight groups. -/
theorem readV6_full {gs : List Nat} (hgs : ∀ g ∈ gs, g < 65536) (hlen : gs.length = 8) :
    readV6 (colonHex gs) = some (gs, []) := by
  have hhead : readGroups 0 8 (colonHex gs) = (gs, false, []) := by
    have h := readGroups_colonHex 8 hgs (by omega) (.inl rfl)
    rwa [List.append_nil] at h
  rw [readV6, hhead]
  simp only [hlen, if_true]

/-- The text of a mapped IPv4 address. -/
theorem readV6_mapped (a : BitVec 32) :
    readV6 ("::ffff:".toList ++ showV4 a) =
      some ([0, 0, 0, 0, 0, 0xffff, (octets a).getD 0 0 * 256 + (octets a).getD 1 0,
        (octets a).getD 2 0 * 256 + (octets a).getD 3 0], []) := by
  have hhead : readGroups 0 8 ("::ffff:".toList ++ showV4 a) =
      ([], false, ':' :: ':' :: ("ffff:".toList ++ showV4 a)) :=
    readGroups_end 0 8 (.inr ⟨_, rfl⟩)
  have hgroup : readGroups 0 7 ("ffff:".toList ++ showV4 a) =
      (0xffff :: (readGroups 1 6 (':' :: showV4 a)).1, (readGroups 1 6 (':' :: showV4 a)).2) :=
    readGroups_first (g := 0xffff) (by decide) 6 (.inr ⟨showV4 a, rfl⟩)
  have hv4 : readGroups 1 6 (':' :: showV4 a) =
      ([(octets a).getD 0 0 * 256 + (octets a).getD 1 0,
        (octets a).getD 2 0 * 256 + (octets a).getD 3 0], true, []) := by
    have hread := readV4_showV4 a (numberEnd_nil 10)
    rw [List.append_nil] at hread
    simp only [readGroups, readSeparator, Nat.one_ne_zero, if_true, if_false, hread,
      Nat.zero_lt_succ]
  rw [readV6, hhead]
  simp only [hgroup, hv4, List.length_nil, Bool.false_eq_true, if_false]
  rfl

theorem octets_groups {b : BitVec 128}
    (h : (groups b).take 6 = [0, 0, 0, 0, 0, 0xffff]) :
    [0, 0, 0, 0, 0, 0xffff,
      (octets (b.setWidth 32)).getD 0 0 * 256 + (octets (b.setWidth 32)).getD 1 0,
      (octets (b.setWidth 32)).getD 2 0 * 256 + (octets (b.setWidth 32)).getD 3 0] =
      groups b := by
  rw [← List.take_append_drop 6 (groups b), h]
  simp only [groups, octets, BitVec.toNat_setWidth, List.range, List.range.loop, List.map_cons,
    List.map_nil, List.drop_succ_cons, List.drop_zero, List.getD_cons_zero, List.getD_cons_succ,
    List.cons_append, List.nil_append]
  norm_num only
  simp only [List.cons.injEq, true_and, and_true]
  omega

/-- **A printed IPv6 address is read back.** -/
theorem parseV6_showV6 (b : BitVec 128) : parseV6 (showV6 b) = some b := by
  have hlt := groups_lt b
  have hlen := groups_length b
  suffices hread : readV6 (showV6 b) = some (groups b, []) by
    simp only [parseV6, hread, bits_groups]
  rw [showV6]
  simp only []
  split
  · next hmapped => rw [readV6_mapped, octets_groups hmapped]
  · split
    · next hlong =>
        have hrun : (zeroes (groups b)).len ≠ 0 := by omega
        obtain ⟨front, back, hgroups, hfront⟩ := zeroes_run hrun
        have htake : (groups b).take (zeroes (groups b)).start = front := by
          rw [← hfront]
          conv => lhs; arg 2; rw [hgroups]
          rw [List.append_assoc, List.take_left]
        have hdrop : (groups b).drop ((zeroes (groups b)).start + (zeroes (groups b)).len) =
            back := by
          have hlen' : (zeroes (groups b)).start + (zeroes (groups b)).len =
              (front ++ List.replicate (zeroes (groups b)).len 0).length := by
            rw [List.length_append, List.length_replicate, hfront]
          rw [hlen']
          conv => lhs; arg 2; rw [hgroups]
          exact List.drop_left
        have hsum : front.length + (zeroes (groups b)).len + back.length = 8 := by
          rw [← hlen]
          conv => rhs; rw [hgroups]
          simp only [List.length_append, List.length_replicate]
        rw [htake, hdrop, readV6_compressed]
        · have hcount : 8 - front.length - back.length = (zeroes (groups b)).len := by omega
          rw [hcount, ← hgroups]
        · exact fun g hg => hlt g (by rw [hgroups]; simp [hg])
        · exact fun g hg => hlt g (by rw [hgroups]; simp [hg])
        · omega
    · exact readV6_full hlt hlen

end IpText
