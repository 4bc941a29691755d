/-
# `WarpProxy.Lib.Compact` — JSON values, written without white space

A text for each kind of value, the texts of arrays and objects put together from
those of their items and members.

The grammar alone does not say where a number ends or how much white space goes with
a comma, so what a text denotes depends on what comes behind it.  `Writes text v` says
that, in front of a delimiter or the end, the text is read as `v` and as nothing else;
every writer keeps it (`writes_array`, `writes_object`), and a whole text that has it
denotes its value only (`Writes.denotes_iff`).
-/
import WarpProxy.Lib.IpRead
import WarpProxy.Lib.Pretty

namespace Compact

open Json

/-! ## Writing -/

def null : List Char := "null".toList

def bool (b : Bool) : List Char := if b then "true".toList else "false".toList

def nat (n : Nat) : List Char := Nat.toDigits 10 n

def string (cs : List Char) : List Char := '"' :: Pretty.string cs

/-- The items with commas between them, and the bracket behind them. -/
def items : List (List Char) → List Char
  | [] => [']']
  | [t] => t ++ [']']
  | t :: ts => t ++ ',' :: items ts

def array (ts : List (List Char)) : List Char := '[' :: items ts

def members : List (List Char × List Char) → List Char
  | [] => ['\x7d']
  | [(name, t)] => string name ++ ':' :: (t ++ ['\x7d'])
  | (name, t) :: ms => string name ++ ':' :: (t ++ ',' :: members ms)

def object (ms : List (List Char × List Char)) : List Char := '\x7b' :: members ms

example : object [("ids".toList, array [nat 1, nat 20]), ("ip".toList, null)] =
    "\x7b\"ids\":[1,20],\"ip\":null\x7d".toList := by decide +kernel

/-! ## What a value begins with -/

def isDelimiter (c : Char) : Bool := c == ',' || c == ']' || c == '\x7d'

/-- A character of a number. -/
def isNumeric (c : Char) : Bool :=
  isDigit c || c == '-' || c == '+' || c == '.' || c == 'e' || c == 'E'

theorem Digits.numeric {ds : List Char} (h : Digits ds) : ∀ c ∈ ds, isNumeric c = true := by
  intro c hc
  simp [isNumeric, h.2 c hc]

theorem numeric_of_isNumber {minus int frac exp : List Char} (h : IsNumber minus int frac exp) :
    ∀ c ∈ minus ++ int ++ frac ++ exp, isNumeric c = true := by
  intro c hc
  simp only [List.mem_append] at hc
  rcases hc with ((hc | hc) | hc) | hc
  · rcases h.minus with rfl | rfl
    · cases hc
    · obtain rfl := List.mem_singleton.mp hc
      decide
  · exact Digits.numeric h.int.1 c hc
  · rcases h.frac with rfl | ⟨ds, rfl, hds⟩
    · cases hc
    · rcases List.mem_cons.mp hc with rfl | hc
      · decide
      · exact Digits.numeric hds c hc
  · rcases h.exp with rfl | ⟨e, he, sign, hsign, ds, rfl, hds⟩
    · cases hc
    · rcases List.mem_cons.mp hc with rfl | hc
      · simp only [List.mem_cons, List.not_mem_nil, or_false] at he
        rcases he with rfl | rfl <;> decide
      · rcases List.mem_append.mp hc with hc | hc
        · simp only [List.mem_cons, List.not_mem_nil, or_false] at hsign
          rcases hsign with rfl | rfl | rfl
          · cases hc
          · obtain rfl := List.mem_singleton.mp hc
            decide
          · obtain rfl := List.mem_singleton.mp hc
            decide
        · exact Digits.numeric hds c hc

/-- A token at a character that is no white space. -/
theorem token_cons {c d : Char} {cs rest : List Char} (hd : isWs d = false)
    (h : Token c (d :: cs) rest) : c = d ∧ Ws cs rest := by
  obtain ⟨mid, hbefore, hafter⟩ := h
  obtain ⟨rfl, rfl⟩ := List.cons.inj (hbefore.of_not hd)
  exact ⟨rfl, hafter⟩

/-- What a value is that begins with the character `c`. -/
inductive Begins (c : Char) (cs rest : List Char) : Value → Prop
  | null : c = 'n' → cs = "ull".toList ++ rest → Begins c cs rest .null
  | true : c = 't' → cs = "rue".toList ++ rest → Begins c cs rest (.bool true)
  | false : c = 'f' → cs = "alse".toList ++ rest → Begins c cs rest (.bool false)
  | number {text} : c = '-' ∨ isDigit c = true → (∀ d ∈ text, isNumeric d = true) →
      c :: cs = text ++ rest → Begins c cs rest (.number text)
  | string {units} : c = '"' → Chars cs units rest → Begins c cs rest (.string units)
  | emptyArray {mid} : c = '[' → Ws cs mid → Token ']' mid rest → Begins c cs rest (.array [])
  | array {mid items} : c = '[' → Ws cs mid → Items items mid rest →
      Begins c cs rest (.array items)
  | emptyObject {mid} : c = '\x7b' → Ws cs mid → Token '\x7d' mid rest →
      Begins c cs rest (.object [])
  | object {mid members} : c = '\x7b' → Ws cs mid → Members members mid rest →
      Begins c cs rest (.object members)

theorem begins_of_reads {c : Char} {cs rest : List Char} {v : Value} (hc : isWs c = false)
    (h : Reads v (c :: cs) rest) : Begins c cs rest v := by
  generalize htext : c :: cs = text at h
  cases h with
  | null =>
      obtain ⟨rfl, rfl⟩ := List.cons.inj htext
      exact .null rfl rfl
  | true =>
      obtain ⟨rfl, rfl⟩ := List.cons.inj htext
      exact .true rfl rfl
  | false =>
      obtain ⟨rfl, rfl⟩ := List.cons.inj htext
      exact .false rfl rfl
  | number hnum => exact .number (hnum.head htext.symm) (numeric_of_isNumber hnum) htext
  | string hchars =>
      obtain ⟨rfl, rfl⟩ := List.cons.inj htext
      exact .string rfl hchars
  | emptyArray hopen hclose =>
      obtain ⟨rfl, hws⟩ := token_cons hc (htext ▸ hopen)
      exact .emptyArray rfl hws hclose
  | array hopen hitems =>
      obtain ⟨rfl, hws⟩ := token_cons hc (htext ▸ hopen)
      exact .array rfl hws hitems
  | emptyObject hopen hclose =>
      obtain ⟨rfl, hws⟩ := token_cons hc (htext ▸ hopen)
      exact .emptyObject rfl hws hclose
  | object hopen hmembers =>
      obtain ⟨rfl, hws⟩ := token_cons hc (htext ▸ hopen)
      exact .object rfl hws hmembers

/-! ## Texts of a value -/

/-- Nothing, or a delimiter. -/
def Ended : List Char → Prop
  | [] => True
  | c :: _ => isDelimiter c = true

/-- The grammar can go on here, or the text is over. -/
def GoesOn (rest : List Char) : Prop :=
  Ws rest [] ∨ ∃ c next, isDelimiter c = true ∧ Token c rest next

/-- It begins with neither white space nor a delimiter. -/
def Starts (text : List Char) : Prop :=
  ∃ c cs, text = c :: cs ∧ isWs c = false ∧ isDelimiter c = false

/-- `text` is read as `v` in front of a delimiter or the end, and as nothing else. -/
structure Writes (text : List Char) (v : Value) : Prop where
  starts : Starts text
  reads : ∀ rest, Reads v (text ++ rest) rest
  only : ∀ {rest rest' : List Char} {v' : Value}, Ended rest → Reads v' (text ++ rest) rest' →
    GoesOn rest' → v' = v ∧ rest' = rest

theorem isWs_of_delimiter {c : Char} (h : isDelimiter c = true) : isWs c = false := by
  simp only [isDelimiter, Bool.or_eq_true, beq_iff_eq] at h
  rcases h with (rfl | rfl) | rfl <;> decide

/-- No white space in front of what has none. -/
theorem ws_ended {rest rest' : List Char} (hrest : Ended rest) (h : Ws rest rest') :
    rest' = rest := by
  cases rest with
  | nil =>
      cases h
      rfl
  | cons c cs => exact h.of_not (isWs_of_delimiter hrest)

theorem Starts.append {text : List Char} (h : Starts text) (rest : List Char) :
    Starts (text ++ rest) := by
  obtain ⟨c, cs, rfl, hws, hdelim⟩ := h
  exact ⟨c, cs ++ rest, rfl, hws, hdelim⟩

theorem Starts.ws {text mid : List Char} (h : Starts text) (hws : Ws text mid) : mid = text := by
  obtain ⟨c, cs, rfl, hc, -⟩ := h
  exact hws.of_not hc

theorem Starts.not_token {text rest : List Char} (h : Starts text) {c : Char}
    (hc : isDelimiter c = true) : ¬ Token c text rest := by
  obtain ⟨d, cs, rfl, hws, hdelim⟩ := h
  intro htoken
  obtain ⟨rfl, -⟩ := token_cons hws htoken
  exact Bool.noConfusion (hc.symm.trans hdelim)

theorem goesOn_cons {c : Char} (h : isDelimiter c = true) (cs : List Char) : GoesOn (c :: cs) :=
  .inr ⟨c, cs, h, Token.next cs⟩

/-- What the grammar can go on with is no character of a number. -/
theorem GoesOn.not_numeric {c : Char} {cs : List Char} (h : GoesOn (c :: cs)) :
    isNumeric c = false := by
  have hws : isWs c = true → isNumeric c = false := by
    intro hc
    simp only [isWs, Bool.or_eq_true, beq_iff_eq] at hc
    rcases hc with ((rfl | rfl) | rfl) | rfl <;> decide
  rcases h with h | ⟨d, next, hd, mid, hbefore, -⟩
  · cases h with
    | more hc _ => exact hws hc
  · cases hbefore with
    | done =>
        simp only [isDelimiter, Bool.or_eq_true, beq_iff_eq] at hd
        rcases hd with (rfl | rfl) | rfl <;> decide
    | more hc _ => exact hws hc

theorem Ended.not_numeric {c : Char} {cs : List Char} (h : Ended (c :: cs)) :
    isNumeric c = false :=
  (goesOn_cons h cs).not_numeric

/-! ## Single values -/

theorem writes_null : Writes null .null where
  starts := ⟨'n', "ull".toList, rfl, rfl, rfl⟩
  reads _ := .null
  only _ h _ := by
    cases begins_of_reads rfl h with
    | null _ hcs => exact ⟨rfl, (List.append_cancel_left hcs).symm⟩
    | number hc => exact absurd hc (by decide)
    | true hc | false hc | string hc | emptyArray hc | array hc | emptyObject hc | object hc =>
        exact absurd hc (by decide)

theorem writes_bool (b : Bool) : Writes (bool b) (.bool b) := by
  cases b with
  | true =>
      refine ⟨⟨'t', "rue".toList, rfl, rfl, rfl⟩, fun _ => .true, fun _ h _ => ?_⟩
      cases begins_of_reads rfl h with
      | true _ hcs => exact ⟨rfl, (List.append_cancel_left hcs).symm⟩
      | number hc => exact absurd hc (by decide)
      | null hc | false hc | string hc | emptyArray hc | array hc | emptyObject hc | object hc =>
          exact absurd hc (by decide)
  | false =>
      refine ⟨⟨'f', "alse".toList, rfl, rfl, rfl⟩, fun _ => .false, fun _ h _ => ?_⟩
      cases begins_of_reads rfl h with
      | false _ hcs => exact ⟨rfl, (List.append_cancel_left hcs).symm⟩
      | number hc => exact absurd hc (by decide)
      | null hc | true hc | string hc | emptyArray hc | array hc | emptyObject hc | object hc =>
          exact absurd hc (by decide)

/-- Two numbers in front of something else are the same. -/
theorem numeric_append_inj {xs ys rest rest' : List Char} (hxs : ∀ c ∈ xs, isNumeric c = true)
    (hys : ∀ c ∈ ys, isNumeric c = true) (hrest : ∀ c ∈ rest.head?, isNumeric c = false)
    (hrest' : ∀ c ∈ rest'.head?, isNumeric c = false) (h : xs ++ rest = ys ++ rest') :
    xs = ys ∧ rest = rest' := by
  have htake : ∀ {zs rest : List Char}, (∀ c ∈ zs, isNumeric c = true) →
      (∀ c ∈ rest.head?, isNumeric c = false) → (zs ++ rest).takeWhile isNumeric = zs := by
    intro zs rest hzs hrest
    rw [List.takeWhile_append_of_pos hzs]
    cases rest with
    | nil => simp
    | cons c cs => simp [hrest c rfl]
  have heq : xs = ys := by
    rw [← htake hxs hrest, h, htake hys hrest']
  subst heq
  exact ⟨rfl, List.append_cancel_left h⟩

theorem isDigit_nat {n : Nat} {c : Char} (h : c ∈ nat n) : isDigit c = true := by
  have hdigit := Nat.isDigit_of_mem_toDigits (by decide) (by decide) h
  rw [Char.isDigit, Bool.and_eq_true, decide_eq_true_eq, decide_eq_true_eq] at hdigit
  rw [isDigit, Bool.and_eq_true, decide_eq_true_eq, decide_eq_true_eq]
  exact ⟨UInt32.le_iff_toNat_le.mp hdigit.1, UInt32.le_iff_toNat_le.mp hdigit.2⟩

theorem isNumber_nat (n : Nat) : IsNumber [] (nat n) [] [] := by
  refine ⟨.inl rfl, ⟨⟨Nat.toDigits_ne_nil, fun c => isDigit_nat⟩, fun hzero => ?_⟩, .inl rfl,
    .inl rfl⟩
  rcases Nat.eq_zero_or_pos n with rfl | hpos
  · exact Nat.toDigits_zero 10
  · exact absurd hzero ((IpText.toDigits_spec (by decide) (by decide) n).2.2 hpos)

theorem nat_injective : Function.Injective nat := by
  intro m n h
  have hdigits := congrArg (Nat.ofDigitChars 10 · 0) h
  exact Nat.ofDigitChars_ten_toDigits.symm.trans (hdigits.trans Nat.ofDigitChars_ten_toDigits)

theorem writes_nat (n : Nat) : Writes (nat n) (.number (nat n)) := by
  obtain ⟨d, ds, hnat⟩ := List.exists_cons_of_ne_nil (show nat n ≠ [] from Nat.toDigits_ne_nil)
  have hd : isDigit d = true := isDigit_nat (n := n) (by rw [hnat]; exact List.mem_cons_self)
  have hnumeric : ∀ c ∈ nat n, isNumeric c = true := fun c hc => by simp [isNumeric, isDigit_nat hc]
  have hrange : 48 ≤ d.toNat ∧ d.toNat ≤ 57 := by simpa [isDigit] using hd
  have hws : isWs d = false := by
    rw [Bool.eq_false_iff]
    intro h
    simp only [isWs, Bool.or_eq_true, beq_iff_eq] at h
    rcases h with ((rfl | rfl) | rfl) | rfl <;> exact absurd hd (by decide)
  have hdelim : isDelimiter d = false := by
    rw [Bool.eq_false_iff]
    intro h
    simp only [isDelimiter, Bool.or_eq_true, beq_iff_eq] at h
    rcases h with (rfl | rfl) | rfl <;> exact absurd hd (by decide)
  refine ⟨⟨d, ds, hnat, hws, hdelim⟩, fun rest => ?_, fun {rest rest'} v' hrest h hgoes => ?_⟩
  · simpa using @Reads.number _ _ _ _ rest (isNumber_nat n)
  · rw [hnat, List.cons_append] at h
    cases begins_of_reads hws h with
    | number _ htext heq =>
        rw [← List.cons_append, ← hnat] at heq
        have hhead : ∀ c ∈ rest.head?, isNumeric c = false := by
          intro c hc
          cases rest with
          | nil => cases hc
          | cons c' cs =>
              cases hc
              exact hrest.not_numeric
        have hhead' : ∀ c ∈ rest'.head?, isNumeric c = false := by
          intro c hc
          cases rest' with
          | nil => cases hc
          | cons c' cs =>
              cases hc
              exact hgoes.not_numeric
        obtain ⟨rfl, rfl⟩ := numeric_append_inj hnumeric htext hhead hhead' heq
        exact ⟨rfl, rfl⟩
    | null hc | true hc | false hc | string hc | emptyArray hc | array hc | emptyObject hc
    | object hc =>
        subst hc
        exact absurd hd (by decide)

/-! ## Strings -/

/-- An escape of two characters. -/
theorem chars_short_iff {e c : Char} (hu : e ≠ 'u') (he : escapeOf e = some c)
    {cs rest : List Char} {units : List Nat} :
    Chars ('\\' :: e :: cs) units rest ↔
      ∃ units', units = utf16Char c ++ units' ∧ Chars cs units' rest := by
  constructor
  · intro h
    generalize htext : '\\' :: e :: cs = text at h
    cases h with
    | close => exact absurd (List.cons.inj htext).1 (by decide)
    | unescaped hc _ =>
        obtain ⟨rfl, -⟩ := List.cons.inj htext
        exact absurd hc (by decide)
    | escaped he' hrest =>
        obtain ⟨rfl, rfl⟩ := List.cons.inj (List.cons.inj htext).2
        obtain rfl := Option.some.inj (he.symm.trans he')
        exact ⟨_, rfl, hrest⟩
    | unicode => exact absurd (List.cons.inj (List.cons.inj htext).2).1 hu
  · rintro ⟨units', rfl, hrest⟩
    exact .escaped he hrest

/-- An escape by number. -/
theorem chars_unicode_iff {ds : List Char} {n : Nat} (hlen : ds.length = 4)
    (hn : hexNat ds = some n) {cs rest : List Char} {units : List Nat} :
    Chars ('\\' :: 'u' :: (ds ++ cs)) units rest ↔
      ∃ units', units = n :: units' ∧ Chars cs units' rest := by
  constructor
  · intro h
    generalize htext : '\\' :: 'u' :: (ds ++ cs) = text at h
    cases h with
    | close => exact absurd (List.cons.inj htext).1 (by decide)
    | unescaped hc _ =>
        obtain ⟨rfl, -⟩ := List.cons.inj htext
        exact absurd hc (by decide)
    | escaped he _ =>
        obtain ⟨rfl, -⟩ := List.cons.inj (List.cons.inj htext).2
        cases he
    | unicode hlen' hn' hrest =>
        have htail := (List.cons.inj (List.cons.inj htext).2).2
        obtain ⟨rfl, rfl⟩ := List.append_inj htail (hlen.trans hlen'.symm)
        obtain rfl := Option.some.inj (hn.symm.trans hn')
        exact ⟨_, rfl, hrest⟩
  · rintro ⟨units', rfl, hrest⟩
    exact .unicode hlen hn hrest

/-- **A character is read as itself.** -/
theorem chars_escape_iff (c : Char) {cs rest : List Char} {units : List Nat} :
    Chars (Pretty.escape c ++ cs) units rest ↔
      ∃ units', units = utf16Char c ++ units' ∧ Chars cs units' rest := by
  rw [Pretty.escape]
  split_ifs with h₁ h₂ h₃ h₄ h₅ h₆ h₇ h₈
  · obtain rfl := h₁
    exact chars_short_iff (by decide) rfl
  · obtain rfl := h₂
    exact chars_short_iff (by decide) rfl
  · obtain rfl := h₃
    exact chars_short_iff (by decide) rfl
  · obtain rfl := h₄
    exact chars_short_iff (by decide) rfl
  · obtain rfl := h₅
    exact chars_short_iff (by decide) rfl
  · obtain rfl := h₆
    exact chars_short_iff (by decide) rfl
  · obtain rfl := h₇
    exact chars_short_iff (by decide) rfl
  · have hhex : ∀ n, n < 0x20 →
        hexNat ['0', '0', Nat.digitChar (n / 16), Nat.digitChar (n % 16)] = some n := by decide
    have hunit : utf16Char c = [c.toNat] := if_pos (by omega)
    rw [hunit]
    exact @chars_unicode_iff ['0', '0', _, _] _ rfl (hhex c.toNat h₈) _ _ _
  · have hc : isUnescaped c = true := by
      simp only [isUnescaped, Bool.and_eq_true, decide_eq_true_eq, bne_iff_ne]
      exact ⟨⟨Nat.not_lt.mp h₈, h₁⟩, h₂⟩
    exact chars_unescaped_iff hc

/-- **A string is read as itself.** -/
theorem chars_string_iff (cs : List Char) {rest rest' : List Char} {units : List Nat} :
    Chars (Pretty.string cs ++ rest) units rest' ↔ units = utf16 cs ∧ rest' = rest := by
  induction cs generalizing units with
  | nil => exact chars_quote_iff
  | cons c cs ih =>
      have htext : Pretty.string (c :: cs) ++ rest
          = Pretty.escape c ++ (Pretty.string cs ++ rest) := by
        simp [Pretty.string]
      rw [htext, chars_escape_iff]
      constructor
      · rintro ⟨units', rfl, h⟩
        obtain ⟨rfl, rfl⟩ := ih.mp h
        exact ⟨rfl, rfl⟩
      · rintro ⟨rfl, rfl⟩
        exact ⟨utf16 cs, rfl, ih.mpr ⟨rfl, rfl⟩⟩

theorem writes_string (cs : List Char) : Writes (string cs) (.string (utf16 cs)) where
  starts := ⟨'"', Pretty.string cs, rfl, rfl, rfl⟩
  reads _ := .string ((chars_string_iff cs).mpr ⟨rfl, rfl⟩)
  only _ h _ := by
    cases begins_of_reads rfl h with
    | string _ hchars =>
        obtain ⟨rfl, rfl⟩ := (chars_string_iff cs).mp hchars
        exact ⟨rfl, rfl⟩
    | number hc => exact absurd hc (by decide)
    | null hc | true hc | false hc | emptyArray hc | array hc | emptyObject hc | object hc =>
        exact absurd hc (by decide)

/-! ## Arrays -/

/-- A token where one stands, in front of a text without white space. -/
theorem token_next {c d : Char} {cs rest : List Char} (hd : isDelimiter d = true)
    (h : Token c (d :: cs) rest) : c = d ∧ Ws cs rest :=
  token_cons (isWs_of_delimiter hd) h

theorem items_cons (t t' : List Char) (ts : List (List Char)) :
    items (t :: t' :: ts) = t ++ ',' :: items (t' :: ts) := rfl

theorem items_starts {t : List Char} (h : Starts t) (ts : List (List Char)) :
    Starts (items (t :: ts)) := by
  cases ts with
  | nil => exact h.append _
  | cons t' ts => exact h.append _

theorem items_reads {ts : List (List Char)} {vs : List Value}
    (h : List.Forall₂ Writes ts vs) (hne : ts ≠ []) (rest : List Char) :
    Items vs (items ts ++ rest) rest := by
  induction h with
  | nil => exact absurd rfl hne
  | cons ht hts ih =>
      cases hts with
      | nil =>
          rw [items, List.append_assoc]
          exact .last (ht.reads _) (Token.next rest)
      | cons ht' hts' =>
          rw [items_cons, List.append_assoc, List.cons_append]
          exact .more (ht.reads _) (Token.next _) (ih (List.cons_ne_nil _ _))

theorem items_only {ts : List (List Char)} {vs : List Value}
    (h : List.Forall₂ Writes ts vs) (hne : ts ≠ []) {rest rest' : List Char}
    (hrest : Ended rest) {vs' : List Value} (hitems : Items vs' (items ts ++ rest) rest') :
    vs' = vs ∧ rest' = rest := by
  induction h generalizing vs' with
  | nil => exact absurd rfl hne
  | cons ht hts ih =>
      cases hts with
      | nil =>
          rw [items, List.append_assoc] at hitems
          cases hitems with
          | last hread htoken =>
              obtain ⟨rfl, rfl⟩ := ht.only (by exact rfl) hread (.inr ⟨_, _, rfl, htoken⟩)
              exact ⟨rfl, ws_ended hrest (token_next rfl htoken).2⟩
          | more hread htoken _ =>
              obtain ⟨rfl, rfl⟩ := ht.only (by exact rfl) hread (.inr ⟨_, _, rfl, htoken⟩)
              exact absurd (token_next rfl htoken).1 (by decide)
      | cons ht' hts' =>
          rw [items_cons, List.append_assoc, List.cons_append] at hitems
          cases hitems with
          | last hread htoken =>
              obtain ⟨rfl, rfl⟩ := ht.only (by exact rfl) hread (.inr ⟨_, _, rfl, htoken⟩)
              exact absurd (token_next rfl htoken).1 (by decide)
          | more hread htoken hmore =>
              obtain ⟨rfl, rfl⟩ := ht.only (by exact rfl) hread (.inr ⟨_, _, rfl, htoken⟩)
              obtain rfl := ((items_starts ht'.starts _).append _).ws (token_next rfl htoken).2
              obtain ⟨rfl, rfl⟩ := ih (List.cons_ne_nil _ _) hmore
              exact ⟨rfl, rfl⟩

/-- No value and no name begins with a delimiter. -/
theorem not_begins {c : Char} (hc : isDelimiter c = true) {cs rest : List Char} {v : Value} :
    ¬ Reads v (c :: cs) rest := by
  intro h
  simp only [isDelimiter, Bool.or_eq_true, beq_iff_eq] at hc
  rcases hc with (rfl | rfl) | rfl <;> cases begins_of_reads rfl h with
  | number hc => exact absurd hc (by decide)
  | null hc | true hc | false hc | string hc | emptyArray hc | array hc | emptyObject hc
  | object hc => exact absurd hc (by decide)

/-- **An array** of such texts. -/
theorem writes_array {ts : List (List Char)} {vs : List Value}
    (h : List.Forall₂ Writes ts vs) : Writes (array ts) (.array vs) := by
  refine ⟨⟨'[', items ts, rfl, rfl, rfl⟩, fun rest => ?_, fun {rest rest'} v' hrest hread _ => ?_⟩
  · cases h with
    | nil => exact .emptyArray (Token.next _) (Token.next rest)
    | cons ht hts =>
        exact .array (Token.next _) (items_reads (.cons ht hts) (List.cons_ne_nil _ _) rest)
  · cases begins_of_reads rfl hread with
    | emptyArray _ hws hclose =>
        cases h with
        | nil =>
            obtain rfl := hws.of_not (by rfl)
            exact ⟨rfl, ws_ended hrest (token_next rfl hclose).2⟩
        | @cons t v ts vs ht hts =>
            have hstarts := (items_starts ht.starts ts).append rest
            obtain rfl := hstarts.ws hws
            exact absurd hclose (hstarts.not_token rfl)
    | array _ hws hitems =>
        cases h with
        | nil =>
            obtain rfl := hws.of_not (by rfl)
            cases hitems with
            | last hread _ | more hread _ _ => exact absurd hread (not_begins rfl)
        | cons ht hts =>
            obtain rfl := ((items_starts ht.starts _).append rest).ws hws
            obtain ⟨rfl, rfl⟩ := items_only (.cons ht hts) (List.cons_ne_nil _ _) hrest hitems
            exact ⟨rfl, rfl⟩
    | number hc => exact absurd hc (by decide)
    | null hc | true hc | false hc | string hc | emptyObject hc | object hc =>
        exact absurd hc (by decide)

/-! ## Objects -/

/-- The text of a member is that of its value. -/
def WritesMember (m : List Char × List Char) (n : List Nat × Value) : Prop :=
  n.1 = utf16 m.1 ∧ Writes m.2 n.2

theorem members_cons (m m' : List Char × List Char) (ms : List (List Char × List Char)) :
    members (m :: m' :: ms) = string m.1 ++ ':' :: (m.2 ++ ',' :: members (m' :: ms)) := rfl

theorem members_starts (m : List Char × List Char) (ms : List (List Char × List Char)) :
    Starts (members (m :: ms)) := by
  cases ms with
  | nil => exact ⟨'"', _, rfl, rfl, rfl⟩
  | cons m' ms => exact ⟨'"', _, rfl, rfl, rfl⟩

theorem members_reads {ms : List (List Char × List Char)} {ns : List (List Nat × Value)}
    (h : List.Forall₂ WritesMember ms ns) (hne : ms ≠ []) (rest : List Char) :
    Members ns (members ms ++ rest) rest := by
  induction h with
  | nil => exact absurd rfl hne
  | @cons m n ms ns hm hms ih =>
      obtain ⟨name, t⟩ := m
      obtain ⟨units, v⟩ := n
      obtain ⟨rfl, ht⟩ := hm
      have hname (rest : List Char) : Chars (Pretty.string name ++ rest) (utf16 name) rest :=
        (chars_string_iff name).mpr ⟨rfl, rfl⟩
      cases hms with
      | nil =>
          simp only [members, string, List.cons_append, List.append_assoc, List.nil_append]
          exact .last (hname _) (Token.next _) (ht.reads _) (Token.next rest)
      | cons hm' hms' =>
          simp only [members_cons, string, List.cons_append, List.append_assoc]
          exact .more (hname _) (Token.next _) (ht.reads _) (Token.next _)
            (ih (List.cons_ne_nil _ _))

/-- One member, up to the comma or the brace behind it. -/
theorem member_only {name t : List Char} {v : Value} (ht : Writes t v) {d : Char}
    (hd : isDelimiter d = true) {tail cs colon value mid next : List Char} {units : List Nat}
    {v' : Value} {c : Char} (hc : isDelimiter c = true)
    (htext : string name ++ ':' :: (t ++ d :: tail) = '"' :: cs) (hname : Chars cs units colon)
    (hcolon : Token ':' colon value) (hvalue : Reads v' value mid) (hnext : Token c mid next) :
    units = utf16 name ∧ v' = v ∧ c = d ∧ Ws tail next := by
  have hcs := (List.cons.inj htext).2
  rw [← hcs] at hname
  obtain ⟨rfl, rfl⟩ := (chars_string_iff name).mp hname
  obtain rfl := (ht.starts.append _).ws (token_cons rfl hcolon).2
  obtain ⟨rfl, rfl⟩ := ht.only (by exact hd) hvalue (.inr ⟨c, next, hc, hnext⟩)
  exact ⟨rfl, rfl, token_next hd hnext⟩

theorem members_only {ms : List (List Char × List Char)} {ns : List (List Nat × Value)}
    (h : List.Forall₂ WritesMember ms ns) (hne : ms ≠ []) {rest rest' : List Char}
    (hrest : Ended rest) {ns' : List (List Nat × Value)}
    (hmembers : Members ns' (members ms ++ rest) rest') : ns' = ns ∧ rest' = rest := by
  induction h generalizing ns' with
  | nil => exact absurd rfl hne
  | @cons m n ms ns hm hms ih =>
      obtain ⟨name, t⟩ := m
      obtain ⟨units, v⟩ := n
      obtain ⟨rfl, ht⟩ := hm
      cases hms with
      | nil =>
          have htext :
              members [(name, t)] ++ rest = string name ++ ':' :: (t ++ '\x7d' :: rest) := by
            simp [members]
          rw [htext] at hmembers
          generalize hcs : string name ++ ':' :: (t ++ '\x7d' :: rest) = text at hmembers
          cases hmembers with
          | last hname hcolon hvalue hend =>
              obtain ⟨rfl, rfl, -, hws⟩ := member_only ht rfl rfl hcs hname hcolon hvalue hend
              exact ⟨rfl, ws_ended hrest hws⟩
          | more hname hcolon hvalue hcomma _ =>
              obtain ⟨-, -, hc, -⟩ := member_only ht rfl rfl hcs hname hcolon hvalue hcomma
              exact absurd hc (by decide)
      | @cons m' n' ms' ns' hm' hms' =>
          have htext : members ((name, t) :: m' :: ms') ++ rest
              = string name ++ ':' :: (t ++ ',' :: (members (m' :: ms') ++ rest)) := by
            simp [members_cons]
          rw [htext] at hmembers
          generalize hcs : string name ++ ':' :: (t ++ ',' :: (members (m' :: ms') ++ rest)) = text
            at hmembers
          cases hmembers with
          | last hname hcolon hvalue hend =>
              obtain ⟨-, -, hc, -⟩ := member_only ht rfl rfl hcs hname hcolon hvalue hend
              exact absurd hc (by decide)
          | more hname hcolon hvalue hcomma hmore =>
              obtain ⟨rfl, rfl, -, hws⟩ := member_only ht rfl rfl hcs hname hcolon hvalue hcomma
              obtain rfl := ((members_starts m' ms').append rest).ws hws
              obtain ⟨rfl, rfl⟩ := ih (List.cons_ne_nil _ _) hmore
              exact ⟨rfl, rfl⟩

/-- **An object** of such texts. -/
theorem writes_object {ms : List (List Char × List Char)} {ns : List (List Nat × Value)}
    (h : List.Forall₂ WritesMember ms ns) : Writes (object ms) (.object ns) := by
  refine ⟨⟨'\x7b', members ms, rfl, rfl, rfl⟩, fun rest => ?_,
    fun {rest rest'} v' hrest hread _ => ?_⟩
  · cases h with
    | nil => exact .emptyObject (Token.next _) (Token.next rest)
    | cons hm hms =>
        exact .object (Token.next _) (members_reads (.cons hm hms) (List.cons_ne_nil _ _) rest)
  · cases begins_of_reads rfl hread with
    | emptyObject _ hws hclose =>
        cases h with
        | nil =>
            obtain rfl := hws.of_not (by rfl)
            exact ⟨rfl, ws_ended hrest (token_next rfl hclose).2⟩
        | @cons m n ms ns hm hms =>
            have hstarts := (members_starts m ms).append rest
            obtain rfl := hstarts.ws hws
            exact absurd hclose (hstarts.not_token rfl)
    | object _ hws hmembers =>
        cases h with
        | nil =>
            obtain rfl := hws.of_not (by rfl)
            cases hmembers
        | cons hm hms =>
            obtain rfl := ((members_starts _ _).append rest).ws hws
            obtain ⟨rfl, rfl⟩ := members_only (.cons hm hms) (List.cons_ne_nil _ _) hrest hmembers
            exact ⟨rfl, rfl⟩
    | number hc => exact absurd hc (by decide)
    | null hc | true hc | false hc | string hc | emptyArray hc | array hc =>
        exact absurd hc (by decide)

/-! ## A whole text -/

/-- **What a whole text denotes**: its value, and nothing else. -/
theorem Writes.denotes_iff {text : List Char} {v v' : Value} (h : Writes text v) :
    Denotes text v' ↔ v' = v := by
  have hreads := h.reads []
  rw [List.append_nil] at hreads
  constructor
  · rintro ⟨start, stop, hstart, hread, hstop⟩
    obtain rfl := h.starts.ws hstart
    exact (@h.only [] _ _ trivial (by rwa [List.append_nil]) (.inl hstop)).1
  · rintro rfl
    exact ⟨text, [], .done, hreads, .done⟩

end Compact
