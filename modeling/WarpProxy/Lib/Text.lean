/-
# `WarpProxy.Lib.Text` — searching and cutting text

A text is the list of its characters.  The operations are those of a string type: split at
line ends, at a text, at the first of a character, at white space; trim; compare without ASCII
case.

Cutting at `\r\n\r\n` is cutting the list of lines at the blank ones (`splitStr_blank`), and
what is read line by line does not see how the lines end (`Blind.foldLines_crlf`).
-/
import Mathlib.Data.List.Basic
import Mathlib.Data.List.TakeWhile

namespace Text

/-- The characters of a literal, where `h` is `rfl`: its bytes are not decoded for them. -/
theorem toList_literal {s : String} {cs : List Char} (h : s = String.ofList cs) :
    s.toList = cs := by
  rw [h, String.toList_ofList]

/-- The lines between the `\r\n`s. -/
def splitCrlf : List Char → List (List Char)
  | [] => [[]]
  | '\r' :: '\n' :: cs => [] :: splitCrlf cs
  | c :: cs =>
      match splitCrlf cs with
      | line :: lines => (c :: line) :: lines
      | [] => [[c]]

/-- The parts between the `sep`s, found from the left; of one that has been found, `skip`
characters are still to come. -/
def splitStrFrom (sep : List Char) (skip : Nat) : List Char → List (List Char)
  | [] => [[]]
  | c :: cs =>
      match skip with
      | skip + 1 => splitStrFrom sep skip cs
      | 0 =>
          if sep.isPrefixOf (c :: cs) then [] :: splitStrFrom sep (sep.length - 1) cs
          else
            match splitStrFrom sep 0 cs with
            | part :: parts => (c :: part) :: parts
            | [] => [[c]]

def splitStr (sep cs : List Char) : List (List Char) := splitStrFrom sep 0 cs

/-- A line as it is before its `\n`, in reverse. -/
def stripCr : List Char → List Char
  | '\r' :: line => line
  | line => line

/-- The lines, without their line ends (`\n` or `\r\n`); `line` is the beginning of the first,
in reverse. -/
def linesFrom (line : List Char) : List Char → List (List Char)
  | [] => if line = [] then [] else [line.reverse]
  | c :: cs =>
      if c = '\n' then (stripCr line).reverse :: linesFrom [] cs else linesFrom (c :: line) cs

def lines (cs : List Char) : List (List Char) := linesFrom [] cs

/-- What is before and after the first `sep`. -/
def splitOnce (sep : Char) : List Char → Option (List Char × List Char)
  | [] => none
  | c :: cs =>
      if c = sep then some ([], cs)
      else (splitOnce sep cs).map fun (before, after) => (c :: before, after)

/-- What is before and after the last `sep`. -/
def rsplitOnce (sep : Char) (cs : List Char) : Option (List Char × List Char) :=
  (splitOnce sep cs.reverse).map fun (after, before) => (before.reverse, after.reverse)

/-- The first of the parts between the `sep`s. -/
def splitFirst (sep : Char) (cs : List Char) : List Char := cs.takeWhile (· ≠ sep)

/-- The place of the first `c`. -/
def find (c : Char) (cs : List Char) : Option Nat := (splitOnce c cs).map (·.1.length)

/-- The place of the last `c`. -/
def rfind (c : Char) (cs : List Char) : Option Nat := (rsplitOnce c cs).map (·.1.length)

/-- Unicode `White_Space`. -/
def isWhitespace (c : Char) : Bool :=
  let n := c.toNat
  (9 ≤ n && n ≤ 13) || n == 0x20 || n == 0x85 || n == 0xA0 || n == 0x1680 ||
    (0x2000 ≤ n && n ≤ 0x200A) || n == 0x2028 || n == 0x2029 || n == 0x202F || n == 0x205F ||
    n == 0x3000

def trimStart (cs : List Char) : List Char := cs.dropWhile isWhitespace

/-- Without the white space at both ends. -/
def trim (cs : List Char) : List Char := (trimStart (trimStart cs).reverse).reverse

/-- The words between white space; `word` is the beginning of the first, reversed. -/
def wordsFrom (word : List Char) : List Char → List (List Char)
  | [] => if word = [] then [] else [word.reverse]
  | c :: cs =>
      if isWhitespace c then
        if word = [] then wordsFrom [] cs else word.reverse :: wordsFrom [] cs
      else wordsFrom (c :: word) cs

def splitWhitespace (cs : List Char) : List (List Char) := wordsFrom [] cs

/-- `A`–`Z` in lower case, anything else as it is. -/
def lowerAscii (c : Char) : Char :=
  if 'A'.toNat ≤ c.toNat ∧ c.toNat ≤ 'Z'.toNat then Char.ofNat (c.toNat + 32) else c

def eqIgnoreAsciiCase (xs ys : List Char) : Bool := xs.map lowerAscii == ys.map lowerAscii

/-- Every `c` becomes `text`. -/
def replace (c : Char) (text cs : List Char) : List Char :=
  cs.flatMap fun d => if d = c then text else [d]

def endsWith (cs suffix : List Char) : Bool := suffix.isSuffixOf cs

example : splitCrlf "a\r\r\n\nb\r\n".toList = ["a\r".toList, "\nb".toList, []] := by decide

example : splitStr "--".toList "a-b---c--".toList = ["a-b".toList, "-c".toList, []] := by decide

example : lines "a\r\n\nb\r".toList = ["a".toList, [], "b\r".toList] := by decide

example : splitWhitespace " GET  /x\tHTTP".toList = ["GET".toList, "/x".toList, "HTTP".toList] := by
  decide

/-! ## Lines -/

theorem splitCrlf_ne_nil (cs : List Char) : splitCrlf cs ≠ [] := by
  fun_cases splitCrlf cs <;> simp_all

/-- **A line end separates.** -/
theorem splitCrlf_append (xs ys : List Char) :
    splitCrlf (xs ++ '\r' :: '\n' :: ys) = splitCrlf xs ++ splitCrlf ys := by
  fun_induction splitCrlf xs with
  | case1 => rfl
  | case2 cs ih => rw [List.cons_append, List.cons_append, splitCrlf, ih, List.cons_append]
  | case3 c cs hcrlf line lines hlines ih =>
      -- `c` does not begin a line end with what follows either
      have hnot : ∀ cs', c = '\r' → cs ++ '\r' :: '\n' :: ys = '\n' :: cs' → False := by
        intro cs' hc hcs
        cases cs with
        | nil => exact absurd (List.cons.inj hcs).1 (by decide)
        | cons d ds =>
            obtain rfl : d = '\n' := (List.cons.inj hcs).1
            exact hcrlf ds hc rfl
      rw [List.cons_append, splitCrlf.eq_3 _ _ hnot, ih, hlines]
      rfl
  | case4 c cs hcrlf hlines ih => exact absurd hlines (splitCrlf_ne_nil cs)

theorem splitCrlf_line {line : List Char} (h : ∀ xs ys, line ≠ xs ++ '\r' :: '\n' :: ys) :
    splitCrlf line = [line] := by
  fun_induction splitCrlf line with
  | case1 => rfl
  | case2 cs ih => exact absurd rfl (h [] cs)
  | case3 c cs hcrlf l ls hlines ih =>
      have hcs := ih fun xs ys heq => h (c :: xs) ys (by rw [heq, List.cons_append])
      obtain ⟨rfl, rfl⟩ := List.cons.inj (hlines.symm.trans hcs)
      rfl
  | case4 c cs hcrlf hlines ih => exact absurd hlines (splitCrlf_ne_nil cs)

/-! ## Cutting and trimming -/

theorem splitOnce_eq_some {sep : Char} {cs before after : List Char} :
    splitOnce sep cs = some (before, after) ↔ cs = before ++ sep :: after ∧ sep ∉ before := by
  induction cs generalizing before with
  | nil => simp [splitOnce]
  | cons c cs ih =>
      rw [splitOnce]
      split
      · next hc =>
          subst hc
          cases before with
          | nil => simp
          | cons d before =>
              simp only [Option.some.injEq, Prod.mk.injEq, List.cons_append, List.cons.injEq]
              constructor
              · rintro ⟨h, -⟩
                cases h
              · rintro ⟨⟨rfl, -⟩, hmem⟩
                exact absurd List.mem_cons_self hmem
      · next hc =>
          rw [Option.map_eq_some_iff]
          constructor
          · rintro ⟨⟨b, a⟩, hcs, heq⟩
            obtain ⟨rfl, rfl⟩ := Prod.mk.inj heq
            obtain ⟨rfl, hmem⟩ := ih.mp hcs
            refine ⟨rfl, fun h => ?_⟩
            rcases List.mem_cons.mp h with h | h
            · exact hc h.symm
            · exact hmem h
          · rintro ⟨heq, hmem⟩
            cases before with
            | nil => exact absurd (List.cons.inj heq).1 hc
            | cons d before =>
                obtain ⟨rfl, rfl⟩ := List.cons.inj heq
                have hbefore := ih.mpr ⟨rfl, fun h => hmem (List.mem_cons_of_mem _ h)⟩
                exact ⟨(before, after), hbefore, rfl⟩

theorem splitOnce_eq_none {sep : Char} {cs : List Char} :
    splitOnce sep cs = none ↔ sep ∉ cs := by
  constructor
  · intro h hmem
    obtain ⟨before, after, rfl, hnot⟩ := List.eq_append_cons_of_mem hmem
    rw [splitOnce_eq_some.mpr ⟨rfl, hnot⟩] at h
    cases h
  · intro h
    match hcs : splitOnce sep cs with
    | none => rfl
    | some (before, after) =>
        rw [(splitOnce_eq_some.mp hcs).1] at h
        exact absurd (List.mem_append_right _ List.mem_cons_self) h

theorem rsplitOnce_eq_some {sep : Char} {cs before after : List Char} :
    rsplitOnce sep cs = some (before, after) ↔ cs = before ++ sep :: after ∧ sep ∉ after := by
  rw [rsplitOnce, Option.map_eq_some_iff]
  constructor
  · rintro ⟨⟨a, b⟩, hcs, heq⟩
    obtain ⟨rfl, rfl⟩ := Prod.mk.inj heq
    obtain ⟨hrev, hmem⟩ := splitOnce_eq_some.mp hcs
    refine ⟨?_, fun h => hmem (List.mem_reverse.mp h)⟩
    rw [← List.reverse_reverse cs, hrev, List.reverse_append, List.reverse_cons,
      List.append_assoc]
    rfl
  · rintro ⟨rfl, hmem⟩
    refine ⟨(after.reverse, before.reverse), splitOnce_eq_some.mpr ⟨?_, ?_⟩, ?_⟩
    · rw [List.reverse_append, List.reverse_cons, List.append_assoc]
      rfl
    · exact fun h => hmem (List.mem_reverse.mp h)
    · simp only [List.reverse_reverse]

theorem rsplitOnce_eq_none {sep : Char} {cs : List Char} :
    rsplitOnce sep cs = none ↔ sep ∉ cs := by
  rw [rsplitOnce, Option.map_eq_none_iff, splitOnce_eq_none, List.mem_reverse]

theorem splitFirst_of_not_mem {sep : Char} {cs : List Char} (h : sep ∉ cs) :
    splitFirst sep cs = cs := by
  refine List.takeWhile_eq_self_iff.mpr fun c hc => decide_eq_true ?_
  rintro rfl
  exact h hc

theorem splitFirst_append {sep : Char} {cs : List Char} (h : sep ∉ cs) (rest : List Char) :
    splitFirst sep (cs ++ sep :: rest) = cs := by
  have hcs : ∀ c ∈ cs, decide (c ≠ sep) = true := by
    intro c hc
    refine decide_eq_true ?_
    rintro rfl
    exact h hc
  have hstop : (sep :: rest).takeWhile (· ≠ sep) = [] :=
    List.takeWhile_cons_of_neg (by rw [decide_eq_true_iff]; exact fun hne => hne rfl)
  rw [splitFirst, List.takeWhile_append_of_pos hcs, hstop, List.append_nil]

theorem trimStart_append {ws : List Char} (h : ws.all isWhitespace = true) (cs : List Char) :
    trimStart (ws ++ cs) = trimStart cs :=
  List.dropWhile_append_of_pos fun c hc => List.all_eq_true.mp h c hc

theorem trim_left {ws : List Char} (h : ws.all isWhitespace = true) (cs : List Char) :
    trim (ws ++ cs) = trim cs := by
  rw [trim, trimStart_append h, trim]

theorem trim_right {ws : List Char} (h : ws.all isWhitespace = true) (cs : List Char) :
    trim (cs ++ ws) = trim cs := by
  have hrev : ws.reverse.all isWhitespace = true := by rw [List.all_reverse, h]
  have hstart : trimStart (cs ++ ws) = if (trimStart cs).isEmpty then trimStart ws
      else trimStart cs ++ ws := List.dropWhile_append
  rw [trim, trim, hstart]
  split
  · next hall =>
      have hcs : trimStart cs = [] := List.isEmpty_iff.mp hall
      have hws : trimStart ws = [] := by
        rw [← List.append_nil ws, trimStart_append h]
        rfl
      rw [hcs, hws]
  · rw [List.reverse_append, trimStart_append hrev]

/-- Only white space is trimmed. -/
theorem mem_trim {cs : List Char} {c : Char} (h : c ∈ cs) (hc : isWhitespace c = false) :
    c ∈ trim cs := by
  have hstart : ∀ cs : List Char, c ∈ cs → c ∈ trimStart cs := by
    intro cs h
    rw [← List.takeWhile_append_dropWhile (p := isWhitespace) (l := cs)] at h
    rcases List.mem_append.mp h with h | h
    · exact absurd (List.mem_takeWhile_imp h) (by rw [hc]; decide)
    · exact h
  exact List.mem_reverse.mpr (hstart _ (List.mem_reverse.mpr (hstart cs h)))

/-- There is nothing to trim. -/
theorem trim_eq_self {cs : List Char} (h : ∀ c ∈ cs, isWhitespace c = false) : trim cs = cs := by
  have hstart : ∀ cs : List Char, (∀ c ∈ cs, isWhitespace c = false) → trimStart cs = cs := by
    intro cs h
    cases cs with
    | nil => rfl
    | cons c cs => exact List.dropWhile_cons_of_neg (by rw [h c List.mem_cons_self]; decide)
  rw [trim, hstart cs h, hstart cs.reverse (fun c hc => h c (List.mem_reverse.mp hc)),
    List.reverse_reverse]

theorem trim_between {ws ws' cs : List Char} (hws : ws.all isWhitespace = true)
    (hws' : ws'.all isWhitespace = true) (hcs : ∀ c ∈ cs, isWhitespace c = false) :
    trim (ws ++ cs ++ ws') = cs := by
  rw [trim_right hws', trim_left hws, trim_eq_self hcs]

/-! ## Words -/

theorem wordsFrom_append {cs : List Char} (h : ∀ c ∈ cs, isWhitespace c = false)
    (word rest : List Char) :
    wordsFrom word (cs ++ rest) = wordsFrom (cs.reverse ++ word) rest := by
  induction cs generalizing word with
  | nil => rfl
  | cons c cs ih =>
      have hc := h c List.mem_cons_self
      rw [List.cons_append, wordsFrom, if_neg (by rw [hc]; exact Bool.false_ne_true),
        ih fun d hd => h d (List.mem_cons_of_mem _ hd), List.reverse_cons, List.append_assoc]
      rfl

theorem splitWhitespace_last {cs : List Char} (hne : cs ≠ [])
    (h : ∀ c ∈ cs, isWhitespace c = false) : splitWhitespace cs = [cs] := by
  have hrev : cs.reverse ≠ [] := mt List.reverse_eq_nil_iff.mp hne
  have hwords := wordsFrom_append h [] []
  rw [List.append_nil, List.append_nil, wordsFrom, if_neg hrev, List.reverse_reverse] at hwords
  exact hwords

/-- **A word and a space**. -/
theorem splitWhitespace_word {cs : List Char} (hne : cs ≠ [])
    (h : ∀ c ∈ cs, isWhitespace c = false) (rest : List Char) :
    splitWhitespace (cs ++ ' ' :: rest) = cs :: splitWhitespace rest := by
  have hrev : cs.reverse ≠ [] := mt List.reverse_eq_nil_iff.mp hne
  have hspace : isWhitespace ' ' = true := rfl
  rw [splitWhitespace, wordsFrom_append h, List.append_nil, wordsFrom, if_pos hspace, if_neg hrev,
    List.reverse_reverse]
  rfl

/-! ## Paragraphs

A blank line stands between two paragraphs; cutting a text at its `\r\n\r\n`s is cutting the
list of its lines at the blank ones. -/

def joinCrlf : List (List Char) → List Char
  | [] => []
  | [line] => line
  | line :: lines => line ++ '\r' :: '\n' :: joinCrlf lines

theorem joinCrlf_splitCrlf (cs : List Char) : joinCrlf (splitCrlf cs) = cs := by
  fun_induction splitCrlf cs with
  | case1 => rfl
  | case2 cs ih =>
      obtain ⟨line, lines, hlines⟩ := List.exists_cons_of_ne_nil (splitCrlf_ne_nil cs)
      rw [hlines] at ih ⊢
      exact congrArg ('\r' :: '\n' :: ·) ih
  | case3 c cs hcrlf line lines hlines ih =>
      rw [hlines] at ih
      rw [← ih]
      cases lines <;> rfl
  | case4 c cs hcrlf hlines ih => exact absurd hlines (splitCrlf_ne_nil cs)

theorem splitCrlf_joinCrlf {lines : List (List Char)} (hne : lines ≠ [])
    (h : ∀ line ∈ lines, '\n' ∉ line) : splitCrlf (joinCrlf lines) = lines := by
  have hline : ∀ line, '\n' ∉ line → splitCrlf line = [line] := by
    intro line hline
    refine splitCrlf_line fun xs ys heq => hline ?_
    simp [heq]
  fun_induction joinCrlf lines with
  | case1 => exact absurd rfl hne
  | case2 line => exact hline line (h line List.mem_cons_self)
  | case3 line lines hmore ih =>
      have hlines : lines ≠ [] := fun hnil => hmore hnil
      rw [splitCrlf_append, hline line (h line List.mem_cons_self),
        ih hlines fun l hl => h l (List.mem_cons_of_mem _ hl)]
      rfl

/-- The lines between the blank ones; neither the first line nor the last one is blank. -/
def paragraphs : List (List Char) → List (List (List Char))
  | [] => [[]]
  | [line] => [[line]]
  | line :: next :: lines =>
      if next = [] ∧ lines ≠ [] then [line] :: paragraphs lines
      else
        match paragraphs (next :: lines) with
        | p :: ps => (line :: p) :: ps
        | [] => [[line]]

/-- The first line goes into the first paragraph, whatever it says. -/
theorem paragraphs_cons (lines : List (List Char)) :
    ∃ p ps, ∀ line, paragraphs (line :: lines) = (line :: p) :: ps := by
  match lines with
  | [] => exact ⟨[], [], fun line => rfl⟩
  | next :: lines =>
      by_cases hblank : next = [] ∧ lines ≠ []
      · exact ⟨[], paragraphs lines, fun line => by rw [paragraphs, if_pos hblank]⟩
      · obtain ⟨p, ps, hps⟩ := paragraphs_cons lines
        refine ⟨next :: p, ps, fun line => ?_⟩
        rw [paragraphs, if_neg hblank, hps]

/-- The first paragraph ends before the first blank line, which the end may be counted to. -/
theorem foldl_paragraph {σ : Type} (f : σ → List Char → σ) (hf : ∀ s, f s [] = s) (s : σ)
    (line : List Char) (lines : List (List Char)) :
    ∃ p ps, paragraphs (line :: lines) = p :: ps ∧
      p.foldl f s = (line :: lines.takeWhile (· ≠ [])).foldl f s := by
  match lines with
  | [] => exact ⟨_, _, rfl, rfl⟩
  | [] :: [] => exact ⟨[line, []], [], rfl, hf _⟩
  | [] :: next :: lines => exact ⟨[line], paragraphs (next :: lines), rfl, rfl⟩
  | (c :: cs) :: lines =>
      obtain ⟨p, ps, hps, hfold⟩ := foldl_paragraph f hf (f s line) (c :: cs) lines
      have hblank : ¬ (c :: cs = [] ∧ lines ≠ []) := fun h => List.cons_ne_nil c cs h.1
      refine ⟨line :: p, ps, ?_, hfold⟩
      rw [paragraphs, if_neg hblank, hps]

/-- A blank line after some that are not. -/
theorem paragraphs_append {head : List (List Char)} (hne : head ≠ []) (hlines : [] ∉ head)
    {lines : List (List Char)} (h : lines ≠ []) :
    paragraphs (head ++ [] :: lines) = head :: paragraphs lines := by
  match head with
  | [] => exact absurd rfl hne
  | [line] => exact if_pos ⟨rfl, h⟩
  | line :: next :: head =>
      have hnext : next ≠ [] :=
        fun heq => hlines (heq ▸ List.mem_cons_of_mem _ List.mem_cons_self)
      have hblank : ¬ (next = [] ∧ head ++ [] :: lines ≠ []) := fun h => hnext h.1
      have ih := paragraphs_append (List.cons_ne_nil next head)
        (fun hmem => hlines (List.mem_cons_of_mem _ hmem)) h
      rw [List.cons_append] at ih
      rw [List.cons_append, List.cons_append, paragraphs, if_neg hblank, ih]

/-- A text without the separator is one part. -/
theorem splitStr_of_not_infix {sep cs : List Char} (h : ¬ sep <:+: cs) :
    splitStr sep cs = [cs] := by
  induction cs with
  | nil => rfl
  | cons c cs ih =>
      have hnot : sep.isPrefixOf (c :: cs) = false := by
        rw [← Bool.not_eq_true, List.isPrefixOf_iff_prefix]
        exact fun hpre => h hpre.isInfix
      have hrest := ih fun hin => h (hin.trans (List.suffix_cons c cs).isInfix)
      rw [splitStr] at hrest
      simp only [splitStr, splitStrFrom, hnot, Bool.false_eq_true, if_false, hrest]

def blank : List Char := ['\r', '\n', '\r', '\n']

theorem blank_isPrefixOf_iff (cs : List Char) :
    blank.isPrefixOf cs = true ↔ ∃ cs', cs = '\r' :: '\n' :: '\r' :: '\n' :: cs' := by
  rw [List.isPrefixOf_iff_prefix]
  constructor
  · rintro ⟨cs', rfl⟩
    exact ⟨cs', rfl⟩
  · rintro ⟨cs', rfl⟩
    exact ⟨cs', rfl⟩

theorem splitStr_cons {sep cs : List Char} {c : Char} (h : sep.isPrefixOf (c :: cs) = false)
    {part : List Char} {parts : List (List Char)} (hcs : splitStr sep cs = part :: parts) :
    splitStr sep (c :: cs) = (c :: part) :: parts := by
  rw [splitStr] at hcs
  simp only [splitStr, splitStrFrom, h, Bool.false_eq_true, if_false, hcs]

/-- A text whose first line is empty and not its last one begins with a line end. -/
theorem splitCrlf_blank {cs next : List Char} {lines : List (List Char)}
    (h : splitCrlf cs = [] :: next :: lines) : ∃ cs', cs = '\r' :: '\n' :: cs' := by
  fun_cases splitCrlf cs with
  | case1 => cases h
  | case2 cs => exact ⟨cs, rfl⟩
  | case3 c cs hcrlf l ls hlines =>
      rw [splitCrlf.eq_3 _ _ hcrlf, hlines] at h
      cases h
  | case4 c cs hcrlf hlines => exact absurd hlines (splitCrlf_ne_nil cs)

/-- **Cutting a text at its blank lines.** -/
theorem splitStr_blank (cs : List Char) :
    splitStr blank cs = (paragraphs (splitCrlf cs)).map joinCrlf := by
  have hjoin : ∀ (line : List Char) p, p ≠ [] →
      joinCrlf (line :: p) = line ++ '\r' :: '\n' :: joinCrlf p := by
    intro line p hp
    obtain ⟨q, ps, rfl⟩ := List.exists_cons_of_ne_nil hp
    rfl
  by_cases hblank : ∃ cs', cs = '\r' :: '\n' :: '\r' :: '\n' :: cs'
  · obtain ⟨cs', rfl⟩ := hblank
    have hcut : splitStr blank ('\r' :: '\n' :: '\r' :: '\n' :: cs') =
        [] :: splitStr blank cs' := rfl
    have hlines : paragraphs ([] :: [] :: splitCrlf cs') = [[]] :: paragraphs (splitCrlf cs') :=
      if_pos ⟨rfl, splitCrlf_ne_nil cs'⟩
    rw [hcut, splitCrlf, splitCrlf, hlines, splitStr_blank cs']
    rfl
  · have hnot : blank.isPrefixOf cs = false := by
      rw [← Bool.not_eq_true, blank_isPrefixOf_iff]
      exact hblank
    by_cases hcrlf : ∃ cs', cs = '\r' :: '\n' :: cs'
    · obtain ⟨cs', rfl⟩ := hcrlf
      obtain ⟨line, lines, hlines⟩ := List.exists_cons_of_ne_nil (splitCrlf_ne_nil cs')
      obtain ⟨p, ps, hps⟩ := paragraphs_cons lines
      -- the first line is no paragraph of its own, since no other line end follows
      have hline : ¬ (line = [] ∧ lines ≠ []) := by
        rintro ⟨rfl, hne⟩
        obtain ⟨next, lines', rfl⟩ := List.exists_cons_of_ne_nil hne
        obtain ⟨cs'', rfl⟩ := splitCrlf_blank hlines
        exact hblank ⟨cs'', rfl⟩
      have hrest : splitStr blank cs' = joinCrlf (line :: p) :: ps.map joinCrlf := by
        rw [splitStr_blank cs', hlines, hps]
        rfl
      have hlf : splitStr blank ('\n' :: cs') =
          ('\n' :: joinCrlf (line :: p)) :: ps.map joinCrlf := splitStr_cons rfl hrest
      rw [splitStr_cons hnot hlf, splitCrlf, hlines, paragraphs, if_neg hline, hps]
      exact congrArg (· :: ps.map joinCrlf) (hjoin [] _ (List.cons_ne_nil line p)).symm
    · match cs with
      | [] => rfl
      | c :: cs =>
          obtain ⟨line, lines, hlines⟩ := List.exists_cons_of_ne_nil (splitCrlf_ne_nil cs)
          obtain ⟨p, ps, hps⟩ := paragraphs_cons lines
          have hrest : splitStr blank cs = joinCrlf (line :: p) :: ps.map joinCrlf := by
            rw [splitStr_blank cs, hlines, hps]
            rfl
          have hsplit : splitCrlf (c :: cs) = (c :: line) :: lines := by
            rw [splitCrlf.eq_3 _ _ (fun cs' hc hcs => hcrlf ⟨cs', by rw [hc, hcs]⟩), hlines]
          rw [splitStr_cons hnot hrest, hsplit, hps, List.map_cons]
          cases p <;> rfl
termination_by cs.length

/-! ## Reading line by line -/

/-- What is read from a line does not depend on a `\r` at its end, and is nothing if there is no
more. -/
structure Blind {σ : Type} (f : σ → List Char → σ) : Prop where
  cr : ∀ s line, f s (line ++ ['\r']) = f s line
  nil : ∀ s, f s [] = s

def foldLines {σ : Type} (f : σ → List Char → σ) (s : σ) (cs : List Char) : σ :=
  (lines cs).foldl f s

theorem linesFrom_append (line xs ys : List Char) :
    linesFrom line (xs ++ '\n' :: ys) = linesFrom line (xs ++ ['\n']) ++ lines ys := by
  induction xs generalizing line with
  | nil => rfl
  | cons c xs ih =>
      simp only [List.cons_append, linesFrom]
      split
      · rw [ih, List.cons_append]
      · exact ih _

section
variable {σ : Type} {f : σ → List Char → σ} (hf : Blind f)
include hf

theorem Blind.stripCr (s : σ) (line : List Char) :
    f s (Text.stripCr line).reverse = f s line.reverse := by
  rw [Text.stripCr.eq_def]
  split
  · rw [List.reverse_cons, hf.cr]
  · rfl

theorem Blind.end (s : σ) (line : List Char) :
    (linesFrom line []).foldl f s = f s line.reverse := by
  rw [linesFrom]
  split
  · next h => rw [h]; exact (hf.nil s).symm
  · rfl

theorem Blind.linesFrom_newline (s : σ) (line xs : List Char) :
    (linesFrom line (xs ++ ['\n'])).foldl f s = (linesFrom line xs).foldl f s := by
  induction xs generalizing line s with
  | nil => rw [hf.end]; exact hf.stripCr s line
  | cons c xs ih =>
      simp only [List.cons_append, linesFrom]
      split
      · exact ih ..
      · exact ih ..

theorem Blind.linesFrom_cr (s : σ) (line xs : List Char) :
    (linesFrom line (xs ++ ['\r'])).foldl f s = (linesFrom line xs).foldl f s := by
  induction xs generalizing line s with
  | nil =>
      rw [hf.end]
      show (linesFrom ('\r' :: line) []).foldl f s = _
      rw [hf.end, List.reverse_cons, hf.cr]
  | cons c xs ih =>
      simp only [List.cons_append, linesFrom]
      split
      · exact ih ..
      · exact ih ..

/-- **A line end separates what is read.** -/
theorem Blind.foldLines_newline (s : σ) (xs ys : List Char) :
    foldLines f s (xs ++ '\n' :: ys) = foldLines f (foldLines f s xs) ys := by
  rw [foldLines, lines, linesFrom_append, List.foldl_append, hf.linesFrom_newline]
  rfl

theorem Blind.foldLines_crlf (s : σ) (xs ys : List Char) :
    foldLines f s (xs ++ '\r' :: '\n' :: ys) = foldLines f (foldLines f s xs) ys := by
  rw [List.append_cons, hf.foldLines_newline]
  exact congrArg (foldLines f · ys) (hf.linesFrom_cr s [] xs)

/-- A text without a line end is one line, or none. -/
theorem Blind.foldLines_line {line : List Char} (h : '\n' ∉ line) (s : σ) :
    foldLines f s line = f s line := by
  have hfrom : ∀ acc xs : List Char, '\n' ∉ xs →
      linesFrom acc xs = linesFrom (xs.reverse ++ acc) [] := by
    intro acc xs hxs
    induction xs generalizing acc with
    | nil => rfl
    | cons c xs ih =>
        have hc : c ≠ '\n' := fun heq => hxs (heq ▸ List.mem_cons_self)
        have hnext : linesFrom acc (c :: xs) = linesFrom (c :: acc) xs := if_neg hc
        rw [hnext, ih _ fun hmem => hxs (List.mem_cons_of_mem _ hmem), List.reverse_cons,
          List.append_assoc]
        rfl
  rw [foldLines, lines, hfrom [] line h, hf.end, List.append_nil, List.reverse_reverse]

theorem Blind.foldLines_joinCrlf (s : σ) (ls : List (List Char)) :
    foldLines f s (joinCrlf ls) = ls.foldl (foldLines f) s := by
  fun_induction joinCrlf ls generalizing s with
  | case1 => rfl
  | case2 line => rfl
  | case3 line ls hne ih => rw [hf.foldLines_crlf, ih]; rfl

end

end Text
