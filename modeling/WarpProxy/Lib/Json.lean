/-
# `WarpProxy.Lib.Json` — the JSON grammar

The grammar of RFC 8259 as relations between a text, the value it denotes and what is left of the
text behind it.  The content of a string is its UTF-16 code units, which is what an escape `\uXXXX`
names: two escapes may make one character, and one alone need not make any.

Derivations are read backwards by the first character (`Reads.of_quote`, `Reads.of_brace`): none
of the structural characters is white space, and no number begins with one of them.
-/
import Mathlib.Data.List.Basic

namespace Json

/-! ## UTF-16 -/

/-- The code units of a character. -/
def utf16Char (c : Char) : List Nat :=
  if c.toNat < 0x10000 then [c.toNat]
  else [0xD800 + (c.toNat - 0x10000) / 0x400, 0xDC00 + (c.toNat - 0x10000) % 0x400]

def utf16 (cs : List Char) : List Nat := cs.flatMap utf16Char

/-- The code units of characters outside the first plane are no characters. -/
theorem utf16Char_cases (c : Char) :
    (utf16Char c = [c.toNat] ∧ (c.toNat < 0xD800 ∨ 0xE000 ≤ c.toNat)) ∨
      ∃ hi lo, utf16Char c = [0xD800 + hi, 0xDC00 + lo] ∧ hi < 0x400 ∧ lo < 0x400 ∧
        c.toNat = 0x10000 + hi * 0x400 + lo := by
  have hvalid : c.toNat < 0xD800 ∨ 0xDFFF < c.toNat ∧ c.toNat < 0x110000 := c.valid
  rw [utf16Char]
  split
  · exact Or.inl ⟨rfl, by omega⟩
  · exact Or.inr ⟨_, _, rfl, by omega, by omega, by omega⟩

/-- **The code units tell the text.** -/
theorem utf16_injective : Function.Injective utf16 := by
  intro xs
  induction xs with
  | nil =>
      intro ys h
      cases ys with
      | nil => rfl
      | cons y ys =>
          rcases utf16Char_cases y with ⟨hy, -⟩ | ⟨hi, lo, hy, -⟩ <;> simp [utf16, hy] at h
  | cons x xs ih =>
      intro ys h
      cases ys with
      | nil => rcases utf16Char_cases x with ⟨hx, -⟩ | ⟨hi, lo, hx, -⟩ <;> simp [utf16, hx] at h
      | cons y ys =>
          suffices hxy : x.toNat = y.toNat ∧ utf16 xs = utf16 ys by
            rw [Char.toNat_inj.mp hxy.1, ih hxy.2]
          simp only [utf16, List.flatMap_cons] at h ⊢
          rcases utf16Char_cases x with ⟨hx, hx'⟩ | ⟨hi, lo, hx, hhi, hlo, hx'⟩ <;>
            rcases utf16Char_cases y with ⟨hy, hy'⟩ | ⟨hi', lo', hy, hhi', hlo', hy'⟩ <;>
            simp only [hx, hy, List.cons_append, List.nil_append, List.cons.injEq] at h
          · exact h
          · omega
          · omega
          · exact ⟨by omega, h.2.2⟩

/-! ## Values -/

inductive Value where
  | null
  | bool (b : Bool)
  | number (text : List Char)
  | string (units : List Nat)
  | array (items : List Value)
  | object (members : List (List Nat × Value))

/-- The member of an object. -/
def Value.member (name : List Char) : Value → Option Value
  | .object members => (members.find? fun m => m.1 = utf16 name).map (·.2)
  | _ => none

/-! ## The grammar -/

/-- A character of `ws`. -/
def isWs (c : Char) : Bool := c == ' ' || c == '\t' || c == '\n' || c == '\r'

inductive Ws : List Char → List Char → Prop
  | done {cs} : Ws cs cs
  | more {c cs rest} : isWs c = true → Ws cs rest → Ws (c :: cs) rest

/-- A structural character, with white space around it. -/
def Token (c : Char) (cs rest : List Char) : Prop := ∃ mid, Ws cs (c :: mid) ∧ Ws mid rest

def isDigit (c : Char) : Bool := '0'.toNat ≤ c.toNat && c.toNat ≤ '9'.toNat

def Digits (cs : List Char) : Prop := cs ≠ [] ∧ ∀ c ∈ cs, isDigit c = true

/-- `number = [ minus ] int [ frac ] [ exp ]` -/
structure IsNumber (minus int frac exp : List Char) : Prop where
  minus : minus = [] ∨ minus = ['-']
  /-- `int = zero / ( digit1-9 *DIGIT )` -/
  int : Digits int ∧ (int.head? = some '0' → int = ['0'])
  frac : frac = [] ∨ ∃ ds, frac = '.' :: ds ∧ Digits ds
  exp : exp = [] ∨
    ∃ e ∈ ['e', 'E'], ∃ sign ∈ [[], ['-'], ['+']], ∃ ds, exp = e :: (sign ++ ds) ∧ Digits ds

/-- `unescaped = %x20-21 / %x23-5B / %x5D-10FFFF` -/
def isUnescaped (c : Char) : Bool := 0x20 ≤ c.toNat && c != '"' && c != '\\'

/-- The characters with an escape of two characters. -/
def escapeOf : Char → Option Char
  | '"' => some '"'
  | '\\' => some '\\'
  | '/' => some '/'
  | 'b' => some (Char.ofNat 0x08)
  | 'f' => some (Char.ofNat 0x0C)
  | 'n' => some '\n'
  | 'r' => some '\r'
  | 't' => some '\t'
  | _ => none

def hexDigit (c : Char) : Option Nat :=
  if isDigit c then some (c.toNat - 48)
  else if 'A'.toNat ≤ c.toNat ∧ c.toNat ≤ 'F'.toNat then some (c.toNat - 55)
  else if 'a'.toNat ≤ c.toNat ∧ c.toNat ≤ 'f'.toNat then some (c.toNat - 87)
  else none

def hexNat (cs : List Char) : Option Nat :=
  cs.foldlM (fun n c => (hexDigit c).map (16 * n + ·)) 0

/-- `*char quotation-mark`, with the content. -/
inductive Chars : List Char → List Nat → List Char → Prop
  | close {rest} : Chars ('"' :: rest) [] rest
  | unescaped {c cs units rest} : isUnescaped c = true → Chars cs units rest →
      Chars (c :: cs) (utf16Char c ++ units) rest
  | escaped {e c cs units rest} : escapeOf e = some c → Chars cs units rest →
      Chars ('\\' :: e :: cs) (utf16Char c ++ units) rest
  | unicode {ds n cs units rest} : ds.length = 4 → hexNat ds = some n → Chars cs units rest →
      Chars ('\\' :: 'u' :: (ds ++ cs)) (n :: units) rest

mutual

/-- `value` -/
inductive Reads : Value → List Char → List Char → Prop
  | null {rest} : Reads .null ("null".toList ++ rest) rest
  | true {rest} : Reads (.bool true) ("true".toList ++ rest) rest
  | false {rest} : Reads (.bool false) ("false".toList ++ rest) rest
  | number {minus int frac exp rest} : IsNumber minus int frac exp →
      Reads (.number (minus ++ int ++ frac ++ exp)) (minus ++ int ++ frac ++ exp ++ rest) rest
  | string {cs units rest} : Chars cs units rest → Reads (.string units) ('"' :: cs) rest
  | emptyArray {cs mid rest} : Token '[' cs mid → Token ']' mid rest → Reads (.array []) cs rest
  | array {cs mid items rest} : Token '[' cs mid → Items items mid rest →
      Reads (.array items) cs rest
  | emptyObject {cs mid rest} : Token '\x7b' cs mid → Token '\x7d' mid rest →
      Reads (.object []) cs rest
  | object {cs mid members rest} : Token '\x7b' cs mid → Members members mid rest →
      Reads (.object members) cs rest

/-- `value *( value-separator value ) end-array` -/
inductive Items : List Value → List Char → List Char → Prop
  | last {v cs mid rest} : Reads v cs mid → Token ']' mid rest → Items [v] cs rest
  | more {v cs mid next items rest} : Reads v cs mid → Token ',' mid next →
      Items items next rest → Items (v :: items) cs rest

/-- `member *( value-separator member ) end-object` -/
inductive Members : List (List Nat × Value) → List Char → List Char → Prop
  | last {name v cs colon value mid rest} : Chars cs name colon → Token ':' colon value →
      Reads v value mid → Token '\x7d' mid rest → Members [(name, v)] ('"' :: cs) rest
  | more {name v cs colon value mid next members rest} : Chars cs name colon →
      Token ':' colon value → Reads v value mid → Token ',' mid next →
      Members members next rest → Members ((name, v) :: members) ('"' :: cs) rest

end

/-- `JSON-text = ws value ws` -/
def Denotes (cs : List Char) (v : Value) : Prop :=
  ∃ start stop, Ws cs start ∧ Reads v start stop ∧ Ws stop []

/-- A well-formed JSON text. -/
def WellFormed (cs : List Char) : Prop := ∃ v, Denotes cs v

/-! ## Reading backwards -/

theorem Ws.of_not {c : Char} {cs rest : List Char} (hc : isWs c = false) (h : Ws (c :: cs) rest) :
    rest = c :: cs := by
  cases h with
  | done => rfl
  | more hws _ => exact Bool.noConfusion (hc.symm.trans hws)

/-- A token whose character is the next one, before a character that is no white space. -/
theorem Token.of_next {c d e : Char} {cs rest : List Char} (hd : isWs d = false)
    (he : isWs e = false) (h : Token c (d :: e :: cs) rest) : c = d ∧ rest = e :: cs := by
  obtain ⟨mid, hbefore, hafter⟩ := h
  obtain ⟨rfl, rfl⟩ := List.cons.inj (hbefore.of_not hd)
  exact ⟨rfl, hafter.of_not he⟩

theorem Token.head {c d : Char} {cs rest : List Char} (hd : isWs d = false)
    (h : Token c (d :: cs) rest) : c = d := by
  obtain ⟨mid, hbefore, -⟩ := h
  exact (List.cons.inj (hbefore.of_not hd)).1

theorem Token.next {c : Char} (cs : List Char) : Token c (c :: cs) cs := ⟨cs, .done, .done⟩

/-- A number begins with a digit or a minus. -/
theorem IsNumber.head {minus int frac exp rest cs : List Char} {c : Char}
    (h : IsNumber minus int frac exp) (heq : minus ++ int ++ frac ++ exp ++ rest = c :: cs) :
    c = '-' ∨ isDigit c = true := by
  obtain ⟨⟨hne, hdigits⟩, -⟩ := h.int
  rcases h.minus with rfl | rfl
  · cases int with
    | nil => exact absurd rfl hne
    | cons d ds =>
        obtain ⟨rfl, -⟩ := List.cons.inj heq
        exact Or.inr (hdigits d List.mem_cons_self)
  · exact Or.inl (List.cons.inj heq).1.symm

theorem Reads.of_quote {v : Value} {cs rest : List Char} (h : Reads v ('"' :: cs) rest) :
    ∃ units, v = .string units ∧ Chars cs units rest := by
  generalize htext : '"' :: cs = text at h
  cases h with
  | null => exact absurd (List.cons.inj htext).1 (by decide)
  | true => exact absurd (List.cons.inj htext).1 (by decide)
  | false => exact absurd (List.cons.inj htext).1 (by decide)
  | number hnum => exact absurd (hnum.head htext.symm) (by decide)
  | string hchars =>
      obtain ⟨-, rfl⟩ := List.cons.inj htext
      exact ⟨_, rfl, hchars⟩
  | emptyArray htoken => exact absurd ((htext ▸ htoken).head (by decide)) (by decide)
  | array htoken => exact absurd ((htext ▸ htoken).head (by decide)) (by decide)
  | emptyObject htoken => exact absurd ((htext ▸ htoken).head (by decide)) (by decide)
  | object htoken => exact absurd ((htext ▸ htoken).head (by decide)) (by decide)

/-- An object whose first member is there. -/
theorem Reads.of_brace {v : Value} {cs rest : List Char}
    (h : Reads v ('\x7b' :: '"' :: cs) rest) :
    ∃ members, v = .object members ∧ Members members ('"' :: cs) rest := by
  generalize htext : '\x7b' :: '"' :: cs = text at h
  cases h with
  | null => exact absurd (List.cons.inj htext).1 (by decide)
  | true => exact absurd (List.cons.inj htext).1 (by decide)
  | false => exact absurd (List.cons.inj htext).1 (by decide)
  | number hnum => exact absurd (hnum.head htext.symm) (by decide)
  | string => exact absurd (List.cons.inj htext).1 (by decide)
  | emptyArray htoken => exact absurd ((htext ▸ htoken).head (by decide)) (by decide)
  | array htoken => exact absurd ((htext ▸ htoken).head (by decide)) (by decide)
  | emptyObject htoken hend =>
      obtain ⟨-, rfl⟩ := (htext ▸ htoken).of_next (by decide) (by decide)
      exact absurd (hend.head (by decide)) (by decide)
  | object htoken hmembers =>
      obtain ⟨-, rfl⟩ := (htext ▸ htoken).of_next (by decide) (by decide)
      exact ⟨_, rfl, hmembers⟩

/-- The last member, up to the end of the text. -/
theorem Members.of_last {members : List (List Nat × Value)} {cs rest : List Char}
    (h : Members members ('"' :: cs) rest) :
    ∃ name v colon value mid, Chars cs name colon ∧ Token ':' colon value ∧ Reads v value mid ∧
      ((Token '\x7d' mid rest ∧ members = [(name, v)]) ∨ ∃ next, Token ',' mid next) := by
  cases h with
  | last hname hcolon hvalue hend =>
      exact ⟨_, _, _, _, _, hname, hcolon, hvalue, Or.inl ⟨hend, rfl⟩⟩
  | more hname hcolon hvalue hcomma _ =>
      exact ⟨_, _, _, _, _, hname, hcolon, hvalue, Or.inr ⟨_, hcomma⟩⟩

/-- Characters that stand for themselves. -/
theorem chars_unescaped_iff {c : Char} (hc : isUnescaped c = true) {cs rest : List Char}
    {units : List Nat} :
    Chars (c :: cs) units rest
      ↔ ∃ units', units = utf16Char c ++ units' ∧ Chars cs units' rest := by
  constructor
  · intro h
    generalize htext : c :: cs = text at h
    cases h with
    | close =>
        obtain ⟨rfl, -⟩ := List.cons.inj htext
        exact absurd hc (by decide)
    | unescaped _ hrest =>
        obtain ⟨rfl, rfl⟩ := List.cons.inj htext
        exact ⟨_, rfl, hrest⟩
    | escaped =>
        obtain ⟨rfl, -⟩ := List.cons.inj htext
        exact absurd hc (by decide)
    | unicode =>
        obtain ⟨rfl, -⟩ := List.cons.inj htext
        exact absurd hc (by decide)
  · rintro ⟨units', rfl, hrest⟩
    exact .unescaped hc hrest

/-- A quote or a backslash behind a backslash. -/
theorem chars_escaped_iff {e : Char} (he : e = '"' ∨ e = '\\') {cs rest : List Char}
    {units : List Nat} :
    Chars ('\\' :: e :: cs) units rest ↔
      ∃ units', units = utf16Char e ++ units' ∧ Chars cs units' rest := by
  have hesc : escapeOf e = some e := by rcases he with rfl | rfl <;> rfl
  constructor
  · intro h
    generalize htext : '\\' :: e :: cs = text at h
    cases h with
    | close => exact absurd (List.cons.inj htext).1 (by decide)
    | unescaped hc _ =>
        obtain ⟨rfl, -⟩ := List.cons.inj htext
        exact absurd hc (by decide)
    | escaped hesc' hrest =>
        obtain ⟨rfl, rfl⟩ := List.cons.inj (List.cons.inj htext).2
        obtain rfl := Option.some.inj (hesc.symm.trans hesc')
        exact ⟨_, rfl, hrest⟩
    | unicode =>
        obtain ⟨rfl, -⟩ := List.cons.inj (List.cons.inj htext).2
        exact absurd he (by decide)
  · rintro ⟨units', rfl, hrest⟩
    exact .escaped hesc hrest

theorem chars_quote_iff {cs rest : List Char} {units : List Nat} :
    Chars ('"' :: cs) units rest ↔ units = [] ∧ rest = cs := by
  constructor
  · intro h
    generalize htext : '"' :: cs = text at h
    cases h with
    | close => exact ⟨rfl, (List.cons.inj htext).2.symm⟩
    | unescaped hc _ =>
        obtain ⟨rfl, -⟩ := List.cons.inj htext
        exact absurd hc (by decide)
    | escaped => exact absurd (List.cons.inj htext).1 (by decide)
    | unicode => exact absurd (List.cons.inj htext).1 (by decide)
  · rintro ⟨rfl, rfl⟩
    exact .close

/-- **A control character in a string is an error.** -/
theorem not_chars_control {c : Char} (hc : c.toNat < 0x20) {cs rest : List Char}
    {units : List Nat} : ¬ Chars (c :: cs) units rest := by
  intro h
  generalize htext : c :: cs = text at h
  have hctrl : ∀ d : Char, 0x20 ≤ d.toNat → c ≠ d := fun d hd heq => by
    rw [heq] at hc
    omega
  cases h with
  | close => exact hctrl '"' (by decide) (List.cons.inj htext).1
  | unescaped hd _ =>
      rw [isUnescaped, Bool.and_eq_true, Bool.and_eq_true, decide_eq_true_eq] at hd
      exact hctrl _ hd.1.1 (List.cons.inj htext).1
  | escaped => exact hctrl '\\' (by decide) (List.cons.inj htext).1
  | unicode => exact hctrl '\\' (by decide) (List.cons.inj htext).1

end Json
