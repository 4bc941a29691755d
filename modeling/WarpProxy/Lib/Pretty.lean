/-
# `WarpProxy.Lib.Pretty` — JSON objects of texts, printed and read back

`print` is the pretty-printed object with these members, and `read` reads exactly
the objects that are printed, with the names it is told.

A reader that does not look beyond what it takes (`Extends`) and reads a text to its
end refuses every text that is cut short (`Extends.cut`).
-/
import WarpProxy.Lib.Json
import WarpProxy.Lib.Utf8

namespace Pretty

open Json (hexNat escapeOf isUnescaped)

/-! ## Printing -/

/-- A character inside a string. -/
def escape (c : Char) : List Char :=
  if c = '"' then ['\\', '"']
  else if c = '\\' then ['\\', '\\']
  else if c = Char.ofNat 0x08 then ['\\', 'b']
  else if c = '\t' then ['\\', 't']
  else if c = '\n' then ['\\', 'n']
  else if c = Char.ofNat 0x0C then ['\\', 'f']
  else if c = '\r' then ['\\', 'r']
  else if c.toNat < 0x20 then
    ['\\', 'u', '0', '0', Nat.digitChar (c.toNat / 16), Nat.digitChar (c.toNat % 16)]
  else [c]

/-- A string from behind its first quotation mark on. -/
def string (cs : List Char) : List Char := cs.flatMap escape ++ ['"']

/-- What is printed in front of a value. -/
def key (name : List Char) : List Char := "\n  \"".toList ++ name ++ "\": \"".toList

def close : List Char := ['\n', '\x7d']

def members : List (List Char × List Char) → List Char
  | [] => close
  | [(name, value)] => key name ++ string value ++ close
  | (name, value) :: ms => key name ++ string value ++ ',' :: members ms

/-- The object, over several lines. -/
def print (ms : List (List Char × List Char)) : List Char := '\x7b' :: members ms

example : print [("id".toList, "a\"\n".toList), ("ip".toList, [])] =
    "\x7b\n  \"id\": \"a\\\"\\n\",\n  \"ip\": \"\"\n\x7d".toList := by decide +kernel

/-! ## Reading -/

def readString : List Char → Option (List Char × List Char)
  | [] => none
  | '"' :: cs => some ([], cs)
  | '\\' :: 'u' :: a :: b :: c :: d :: cs =>
      match hexNat [a, b, c, d], readString cs with
      | some n, some (s, rest) => some (Char.ofNat n :: s, rest)
      | _, _ => none
  | '\\' :: e :: cs =>
      match escapeOf e, readString cs with
      | some c, some (s, rest) => some (c :: s, rest)
      | _, _ => none
  | c :: cs =>
      if isUnescaped c then
        match readString cs with
        | some (s, rest) => some (c :: s, rest)
        | none => none
      else none

/-- The text itself. -/
def expect (text cs : List Char) : Option (List Char) :=
  if text.isPrefixOf cs then some (cs.drop text.length) else none

/-- The comma in front of more members. -/
def readComma (names : List (List Char)) (cs : List Char) : Option (List Char) :=
  if names = [] then some cs else expect [','] cs

def readMembers : List (List Char) → List Char → Option (List (List Char) × List Char)
  | [], cs => (expect close cs).map fun rest => ([], rest)
  | name :: names, cs => do
      let cs ← expect (key name) cs
      let (value, cs) ← readString cs
      let cs ← readComma names cs
      let (values, rest) ← readMembers names cs
      some (value :: values, rest)

/-- The values of an object that has these members, and nothing behind it. -/
def read (names : List (List Char)) (cs : List Char) : Option (List (List Char)) :=
  match (expect ['\x7b'] cs).bind (readMembers names) with
  | some (values, []) => some values
  | _ => none

/-! ## What is printed is read back -/

theorem readString_unescaped {c : Char} (hc : isUnescaped c = true) (rest : List Char) :
    readString (c :: rest) = (readString rest).map fun p => (c :: p.1, p.2) := by
  have hquote : c ≠ '"' := by
    rintro rfl
    exact absurd hc (by decide)
  have hslash : c ≠ '\\' := by
    rintro rfl
    exact absurd hc (by decide)
  rw [readString.eq_5 c rest hquote (fun _ _ _ _ _ h _ => hslash h) (fun _ _ h _ => hslash h),
    if_pos hc]
  cases readString rest with
  | none => rfl
  | some p => rfl

theorem readString_control {c : Char} (hc : c.toNat < 0x20) (rest : List Char) :
    readString ('\\' :: 'u' :: '0' :: '0' :: Nat.digitChar (c.toNat / 16) ::
        Nat.digitChar (c.toNat % 16) :: rest) =
      (readString rest).map fun p => (c :: p.1, p.2) := by
  have hhex : ∀ n, n < 0x20 →
      hexNat ['0', '0', Nat.digitChar (n / 16), Nat.digitChar (n % 16)] = some n := by decide
  rw [readString, hhex c.toNat hc]
  cases readString rest with
  | none => rfl
  | some p => exact congrArg (fun c => some (c :: p.1, p.2)) (Char.ofNat_toNat c)

/-- **A character is read back.** -/
theorem readString_escape (c : Char) (rest : List Char) :
    readString (escape c ++ rest) = (readString rest).map fun p => (c :: p.1, p.2) := by
  have hshort : ∀ e c, e ≠ 'u' → escapeOf e = some c →
      readString ('\\' :: e :: rest) = (readString rest).map fun p => (c :: p.1, p.2) := by
    intro e c hu he
    rw [readString.eq_4 e rest fun _ _ _ _ _ h _ => hu h, he]
    cases readString rest with
    | none => rfl
    | some p => rfl
  rw [escape]
  split_ifs with h₁ h₂ h₃ h₄ h₅ h₆ h₇ h₈
  · exact h₁ ▸ hshort '"' '"' (by decide) rfl
  · exact h₂ ▸ hshort '\\' '\\' (by decide) rfl
  · exact h₃ ▸ hshort 'b' _ (by decide) rfl
  · exact h₄ ▸ hshort 't' _ (by decide) rfl
  · exact h₅ ▸ hshort 'n' _ (by decide) rfl
  · exact h₆ ▸ hshort 'f' _ (by decide) rfl
  · exact h₇ ▸ hshort 'r' _ (by decide) rfl
  · exact readString_control h₈ rest
  · have hc : isUnescaped c = true := by
      simp only [isUnescaped, Bool.and_eq_true, decide_eq_true_eq, bne_iff_ne]
      exact ⟨⟨Nat.not_lt.mp h₈, h₁⟩, h₂⟩
    exact readString_unescaped hc rest

theorem readString_string (cs rest : List Char) :
    readString (string cs ++ rest) = some (cs, rest) := by
  induction cs with
  | nil => rfl
  | cons c cs ih =>
      rw [string, List.flatMap_cons, List.append_assoc, List.append_assoc, readString_escape,
        ← List.append_assoc]
      rw [string] at ih
      rw [ih]
      rfl

theorem expect_append (text rest : List Char) : expect text (text ++ rest) = some rest := by
  have hpre : text.isPrefixOf (text ++ rest) = true :=
    List.isPrefixOf_iff_prefix.mpr (List.prefix_append text rest)
  rw [expect, if_pos hpre, List.drop_left]

theorem readMembers_members (ms : List (List Char × List Char)) (rest : List Char) :
    readMembers (ms.map Prod.fst) (members ms ++ rest) = some (ms.map Prod.snd, rest) := by
  fun_induction members ms with
  | case1 => simp only [List.map_nil, readMembers, expect_append, Option.map_some]
  | case2 name value =>
      simp only [List.map_cons, List.map_nil, readMembers, List.append_assoc, expect_append,
        readString_string, Option.bind_eq_bind, Option.bind_some, readComma, if_true,
        Option.map_some]
  | case3 name value ms hne ih =>
      have hnames : ms.map Prod.fst ≠ [] := fun h => hne (List.map_eq_nil_iff.mp h)
      have hcomma : expect [','] (',' :: (members ms ++ rest)) = some (members ms ++ rest) :=
        expect_append [','] _
      simp only [List.map_cons, readMembers, List.append_assoc, List.cons_append, expect_append,
        readString_string, Option.bind_eq_bind, Option.bind_some, readComma, if_neg hnames, hcomma,
        ih]

/-- **The object is read back.** -/
theorem read_print (ms : List (List Char × List Char)) :
    read (ms.map Prod.fst) (print ms) = some (ms.map Prod.snd) := by
  have hopen : expect ['\x7b'] (print ms) = some (members ms) := expect_append ['\x7b'] _
  have hread := readMembers_members ms []
  rw [List.append_nil] at hread
  rw [read, hopen, Option.bind_some, hread]

/-! ## A text that is cut short is refused -/

/-- What the reader takes does not depend on what comes behind it. -/
def Extends {α : Type} (f : List Char → Option (α × List Char)) : Prop :=
  ∀ cs a rest, f cs = some (a, rest) → ∀ more, f (cs ++ more) = some (a, rest ++ more)

theorem expect_extends {text cs rest : List Char} (h : expect text cs = some rest)
    (more : List Char) : expect text (cs ++ more) = some (rest ++ more) := by
  rw [expect] at h
  split at h
  · next hpre =>
      obtain ⟨cs', rfl⟩ := List.isPrefixOf_iff_prefix.mp hpre
      rw [List.drop_left, Option.some.injEq] at h
      rw [List.append_assoc, expect_append, h]
  · cases h

theorem readString_extends : Extends readString := by
  intro cs
  fun_induction readString cs with
  | case1 => exact fun a rest h => (by cases h)
  | case2 cs =>
      intro a rest h more
      cases h
      rfl
  | case3 a b c d cs n s rest hs hn ih =>
      intro a' rest' h more
      cases h
      simp only [List.cons_append, readString, hn, ih s rest hs more]
  | case5 e cs hu c s rest hs he ih =>
      intro a' rest' h more
      cases h
      have hne : e ≠ 'u' := by
        rintro rfl
        cases he
      rw [List.cons_append, List.cons_append,
        readString.eq_4 e (cs ++ more) fun _ _ _ _ _ h _ => hne h, he, ih s rest hs more]
  | case7 c cs hquote hu hslash hc s rest hs ih =>
      intro a' rest' h more
      cases h
      rw [List.cons_append, readString_unescaped hc, ih s rest hs more]
      rfl
  | _ => exact fun a rest h => (by cases h)

theorem readMembers_extends (names : List (List Char)) : Extends (readMembers names) := by
  induction names with
  | nil =>
      intro cs a rest h more
      obtain ⟨rest', hclose, heq⟩ := Option.map_eq_some_iff.mp h
      cases heq
      rw [readMembers, expect_extends hclose more]
      rfl
  | cons name names ih =>
      intro cs a rest h more
      rw [readMembers] at h ⊢
      simp only [Option.bind_eq_bind, Option.bind_eq_some_iff] at h
      obtain ⟨cs₁, hkey, ⟨value, cs₂⟩, hvalue, cs₃, hcomma, ⟨values, cs₄⟩, hvalues, heq⟩ := h
      cases heq
      have hcomma' : readComma names (cs₂ ++ more) = some (cs₃ ++ more) := by
        rw [readComma] at hcomma ⊢
        split at hcomma
        · next hnil => rw [if_pos hnil, ← Option.some.inj hcomma]
        · next hne => rw [if_neg hne, expect_extends hcomma more]
      simp only [Option.bind_eq_bind, expect_extends hkey more,
        readString_extends cs₁ value cs₂ hvalue more, hcomma', ih cs₃ values cs₄ hvalues more,
        Option.bind_some]

/-- **A text that is read to its end cannot be cut short.** -/
theorem Extends.cut {α : Type} {f : List Char → Option (α × List Char)} (hf : Extends f)
    {cs : List Char} {a : α} (h : f cs = some (a, [])) {start more : List Char}
    (hcs : cs = start ++ more) (hmore : more ≠ []) (b : α) : f start ≠ some (b, []) := by
  intro hstart
  have hext := hf start b [] hstart more
  rw [← hcs, h] at hext
  exact hmore (Prod.mk.inj (Option.some.inj hext)).2.symm

/-- **An object that is cut short is refused.** -/
theorem read_cut {ms : List (List Char × List Char)} {start more : List Char}
    (h : print ms = start ++ more) (hmore : more ≠ []) :
    read (ms.map Prod.fst) start = none := by
  have hext : Extends fun cs => (expect ['\x7b'] cs).bind (readMembers (ms.map Prod.fst)) := by
    intro cs a rest h more
    obtain ⟨cs', hopen, hread⟩ := Option.bind_eq_some_iff.mp h
    simp only [expect_extends hopen more, Option.bind_some,
      readMembers_extends _ cs' a rest hread more]
  have hall : (expect ['\x7b'] (print ms)).bind (readMembers (ms.map Prod.fst)) =
      some (ms.map Prod.snd, []) := by
    have hopen : expect ['\x7b'] (print ms) = some (members ms) := expect_append ['\x7b'] _
    have hread := readMembers_members ms []
    rw [List.append_nil] at hread
    rw [hopen, Option.bind_some, hread]
  rw [read]
  split
  · next values hstart => exact absurd hstart (hext.cut hall h hmore values)
  · rfl

end Pretty
