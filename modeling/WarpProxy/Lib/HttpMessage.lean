/-
# `WarpProxy.Lib.HttpMessage` — messages with a `Content-Length`, written and read

`readMessage` is a strict reader of an HTTP/1.1 message: lines end with CRLF, a field line
has a name and a value, and the body has as many bytes as the one `Content-Length` says.

A message that is written is read back with everything behind it left over
(`readMessage_bytes`), so whoever keeps to `Message.Sound` sends messages that cannot run into
one another, and whose body cannot pass for a part of the head.
-/
import WarpProxy.Lib.Http

namespace Http

structure Message where
  start : List UInt8
  fields : List (List UInt8 × List UInt8)
  body : List UInt8
  deriving DecidableEq

/-! ## Writing -/

def fieldLine (f : List UInt8 × List UInt8) : List UInt8 := f.1 ++ 0x3A :: 0x20 :: f.2

def Message.lines (m : Message) : List (List UInt8) := m.start :: m.fields.map fieldLine

def Message.bytes (m : Message) : List UInt8 := m.lines.flatMap (· ++ crlf) ++ (crlf ++ m.body)

/-! ## Reading -/

/-- A line and what is behind its end. -/
def readLine : List UInt8 → Option (List UInt8 × List UInt8)
  | [] => none
  | 13 :: 10 :: rest => some ([], rest)
  | b :: bs => (readLine bs).map fun p => (b :: p.1, p.2)

/-- The lines up to an empty one, and what is behind it. -/
def readLines : Nat → List UInt8 → Option (List (List UInt8) × List UInt8)
  | 0, _ => none
  | fuel + 1, bs =>
      match readLine bs with
      | none => none
      | some ([], rest) => some ([], rest)
      | some (line, rest) => (readLines fuel rest).map fun p => (line :: p.1, p.2)

/-- A space or a tab. -/
def isOws (b : UInt8) : Bool := b == 0x20 || b == 0x09

def trimOws (bs : List UInt8) : List UInt8 := ((bs.dropWhile isOws).reverse.dropWhile isOws).reverse

/-- A name of some token bytes, and a value without the white space around it. -/
def readField (line : List UInt8) : Option (List UInt8 × List UInt8) :=
  let name := line.takeWhile isTokenByte
  match line.drop name.length with
  | 0x3A :: value => if name = [] then none else some (name, trimOws value)
  | _ => none

def lowerByte (b : UInt8) : UInt8 := if 0x41 ≤ b ∧ b ≤ 0x5A then b + 0x20 else b

def isContentLength (f : List UInt8 × List UInt8) : Bool :=
  f.1.map lowerByte == Utf8.ascii "content-length"

def decimalDigit (b : UInt8) : Option Nat :=
  if 0x30 ≤ b ∧ b ≤ 0x39 then some (b.toNat - 0x30) else none

def decimal (bs : List UInt8) : Option Nat :=
  bs.foldlM (fun n b => (decimalDigit b).map (10 * n + ·)) 0

/-- The length of the body: there is one field that says it. -/
def contentLength (fields : List (List UInt8 × List UInt8)) : Option Nat :=
  match fields.filter isContentLength with
  | [(_, value)] => if value = [] then none else decimal value
  | _ => none

/-- A message and what is behind it. -/
def readMessage (bs : List UInt8) : Option (Message × List UInt8) :=
  match readLines bs.length bs with
  | some (start :: lines, rest) => do
      let fields ← lines.mapM readField
      let n ← contentLength fields
      if n ≤ rest.length then some (⟨start, fields, rest.take n⟩, rest.drop n) else none
  | _ => none

/-! ## What can be written -/

/-- A name of some token bytes, and a value on one line with no white space around it. -/
structure SoundField (f : List UInt8 × List UInt8) : Prop where
  name_ne : f.1 ≠ []
  token : ∀ b ∈ f.1, isTokenByte b = true
  clean : Clean f.2
  trim : trimOws f.2 = f.2

instance (f : List UInt8 × List UInt8) : Decidable (SoundField f) :=
  decidable_of_iff (f.1 ≠ [] ∧ f.1.all isTokenByte = true ∧ Clean f.2 ∧ trimOws f.2 = f.2)
    ⟨fun h => ⟨h.1, List.all_eq_true.mp h.2.1, h.2.2.1, h.2.2.2⟩,
      fun h => ⟨h.name_ne, List.all_eq_true.mpr h.token, h.clean, h.trim⟩⟩

structure Message.Sound (m : Message) : Prop where
  start_ne : m.start ≠ []
  start_clean : Clean m.start
  fields : ∀ f ∈ m.fields, SoundField f
  length : contentLength m.fields = some m.body.length

/-! ## What is written is read back -/

theorem clean_cons {b : UInt8} {bs : List UInt8} :
    Clean (b :: bs) ↔ b ≠ 13 ∧ b ≠ 10 ∧ Clean bs := by
  constructor
  · intro h
    have hcr := h.cr
    have hlf := h.lf
    simp only [List.mem_cons, not_or] at hcr hlf
    exact ⟨Ne.symm hcr.1, Ne.symm hlf.1, hcr.2, hlf.2⟩
  · rintro ⟨hcr, hlf, h⟩
    exact ⟨by simp [Ne.symm hcr, h.cr], by simp [Ne.symm hlf, h.lf]⟩

theorem clean_append {xs ys : List UInt8} (hx : Clean xs) (hy : Clean ys) : Clean (xs ++ ys) :=
  ⟨by simp [hx.cr, hy.cr], by simp [hx.lf, hy.lf]⟩

theorem readLine_clean {line : List UInt8} (h : Clean line) (rest : List UInt8) :
    readLine (line ++ (crlf ++ rest)) = some (line, rest) := by
  induction line with
  | nil => rfl
  | cons b line ih =>
      obtain ⟨hcr, -, hline⟩ := clean_cons.mp h
      rw [List.cons_append, readLine.eq_3 _ _ fun _ h _ => hcr h, ih hline]
      rfl

theorem readLines_lines {lines : List (List UInt8)} (h : ∀ line ∈ lines, line ≠ [] ∧ Clean line)
    (rest : List UInt8) {fuel : Nat} (hfuel : lines.length < fuel) :
    readLines fuel (lines.flatMap (· ++ crlf) ++ (crlf ++ rest)) = some (lines, rest) := by
  induction lines generalizing fuel with
  | nil =>
      obtain ⟨fuel, rfl⟩ := Nat.exists_eq_succ_of_ne_zero (Nat.ne_of_gt hfuel)
      rfl
  | cons line lines ih =>
      obtain ⟨fuel, rfl⟩ := Nat.exists_eq_succ_of_ne_zero (Nat.ne_of_gt (Nat.zero_lt_of_lt hfuel))
      obtain ⟨hne, hclean⟩ := h line List.mem_cons_self
      have hrest := ih (fun l hl => h l (List.mem_cons_of_mem _ hl)) (Nat.lt_of_succ_lt_succ hfuel)
      rw [List.flatMap_cons, List.append_assoc, List.append_assoc, readLines,
        readLine_clean hclean]
      obtain ⟨b, bs, rfl⟩ := List.exists_cons_of_ne_nil hne
      simp only [hrest, Option.map_some]

theorem fieldLine_sound {f : List UInt8 × List UInt8} (h : SoundField f) :
    fieldLine f ≠ [] ∧ Clean (fieldLine f) := by
  have hname : Clean f.1 :=
    ⟨fun hmem => absurd (h.token 13 hmem) (by decide),
      fun hmem => absurd (h.token 10 hmem) (by decide)⟩
  refine ⟨by simp [fieldLine], clean_append hname ?_⟩
  exact clean_cons.mpr ⟨by decide, by decide, clean_cons.mpr ⟨by decide, by decide, h.clean⟩⟩

theorem readField_fieldLine {f : List UInt8 × List UInt8} (h : SoundField f) :
    readField (fieldLine f) = some f := by
  have htake : (fieldLine f).takeWhile isTokenByte = f.1 := by
    have hcolon : isTokenByte 0x3A = false := by decide
    rw [fieldLine, List.takeWhile_append_of_pos h.token, List.takeWhile_cons, hcolon]
    simp
  have htrim : trimOws (0x20 :: f.2) = f.2 := h.trim
  have hdrop : (fieldLine f).drop f.1.length = 0x3A :: 0x20 :: f.2 := List.drop_left
  simp only [readField, htake, hdrop, if_neg h.name_ne, htrim]

theorem mapM_readField {fields : List (List UInt8 × List UInt8)}
    (h : ∀ f ∈ fields, SoundField f) : (fields.map fieldLine).mapM readField = some fields := by
  induction fields with
  | nil => rfl
  | cons f fields ih =>
      rw [List.map_cons, List.mapM_cons, readField_fieldLine (h f List.mem_cons_self),
        ih fun g hg => h g (List.mem_cons_of_mem _ hg)]
      rfl

theorem length_le_flatMap (lines : List (List UInt8)) :
    2 * lines.length ≤ (lines.flatMap (· ++ crlf)).length := by
  induction lines with
  | nil => exact Nat.le_refl 0
  | cons line lines ih =>
      simp only [List.flatMap_cons, List.length_append, List.length_cons, crlf] at ih ⊢
      omega

/-- **A message is read back**, and what follows it is left over. -/
theorem readMessage_bytes {m : Message} (h : m.Sound) (more : List UInt8) :
    readMessage (m.bytes ++ more) = some (m, more) := by
  have hlines : ∀ line ∈ m.lines, line ≠ [] ∧ Clean line := by
    intro line hline
    rcases List.mem_cons.mp hline with rfl | hline
    · exact ⟨h.start_ne, h.start_clean⟩
    · obtain ⟨f, hf, rfl⟩ := List.mem_map.mp hline
      exact fieldLine_sound (h.fields f hf)
  have hbytes : m.bytes ++ more = m.lines.flatMap (· ++ crlf) ++ (crlf ++ (m.body ++ more)) := by
    simp [Message.bytes]
  have hfuel :
      m.lines.length < (m.lines.flatMap (· ++ crlf) ++ (crlf ++ (m.body ++ more))).length := by
    have hle := length_le_flatMap m.lines
    simp only [List.length_append, crlf, List.length_cons] at hle ⊢
    omega
  rw [hbytes, readMessage, readLines_lines hlines _ hfuel]
  simp only [Message.lines, mapM_readField h.fields, h.length, Option.bind_eq_bind,
    Option.bind_some, List.take_left, List.drop_left, List.length_append, Nat.le_add_right,
    if_true]

/-! ## The length as a field -/

def lengthBytes (n : Nat) : List UInt8 := Utf8.encode (Nat.toDigits 10 n)

theorem lengthBytes_append {n : Nat} (h : 10 ≤ n) :
    lengthBytes n = lengthBytes (n / 10) ++ lengthBytes (n % 10) := by
  have hlast : Nat.toDigits 10 (n % 10) = [(n % 10).digitChar] :=
    Nat.toDigits_of_lt_base (Nat.mod_lt n (by decide))
  simp only [lengthBytes, Nat.toDigits_of_base_le (by decide) h, hlast, Utf8.encode,
    List.flatMap_append]

theorem lengthBytes_small {n : Nat} (h : n < 10) :
    ∃ b, lengthBytes n = [b] ∧ decimalDigit b = some n ∧ 0x30 ≤ b := by
  have hall : ∀ n < 10, ∃ b, lengthBytes n = [b] ∧ decimalDigit b = some n ∧ 0x30 ≤ b := by
    intro n hn
    have hdigits : lengthBytes n = [UInt8.ofNat (0x30 + n)] := by
      revert n
      decide
    refine ⟨_, hdigits, ?_⟩
    revert n
    decide
  exact hall n h

theorem decimal_append (xs ys : List UInt8) :
    decimal (xs ++ ys)
      = (decimal xs).bind fun n => ys.foldlM (fun n b => (decimalDigit b).map (10 * n + ·)) n := by
  rw [decimal, List.foldlM_append]
  rfl

/-- **The length is read back.** -/
theorem decimal_lengthBytes (n : Nat) : decimal (lengthBytes n) = some n := by
  induction n using Nat.strongRecOn with
  | ind n ih =>
      rcases Nat.lt_or_ge n 10 with hlt | hge
      · obtain ⟨b, hb, hdigit, -⟩ := lengthBytes_small hlt
        simp [hb, decimal, hdigit]
      · obtain ⟨b, hb, hdigit, -⟩ := lengthBytes_small (Nat.mod_lt n (by decide : 0 < 10))
        rw [lengthBytes_append hge, decimal_append, ih _ (by omega), hb]
        simp only [Option.bind_some, List.foldlM_cons, hdigit, Option.map_some, List.foldlM_nil]
        exact congrArg some (by omega)

/-- The digits of a length. -/
theorem lengthBytes_digits (n : Nat) :
    lengthBytes n ≠ [] ∧ ∀ b ∈ lengthBytes n, 0x30 ≤ b := by
  induction n using Nat.strongRecOn with
  | ind n ih =>
      rcases Nat.lt_or_ge n 10 with hlt | hge
      · obtain ⟨b, hb, -, hle⟩ := lengthBytes_small hlt
        rw [hb]
        exact ⟨List.cons_ne_nil _ _, fun c hc => List.mem_singleton.mp hc ▸ hle⟩
      · obtain ⟨b, hb, -, hle⟩ := lengthBytes_small (Nat.mod_lt n (by decide : 0 < 10))
        obtain ⟨hne, hall⟩ := ih (n / 10) (by omega)
        rw [lengthBytes_append hge, hb]
        refine ⟨List.append_ne_nil_of_left_ne_nil hne _, fun c hc => ?_⟩
        rcases List.mem_append.mp hc with hc | hc
        · exact hall c hc
        · exact List.mem_singleton.mp hc ▸ hle

theorem trimOws_eq_self {bs : List UInt8} (h : ∀ b ∈ bs, isOws b = false) : trimOws bs = bs := by
  have hdrop : ∀ {bs : List UInt8}, (∀ b ∈ bs, isOws b = false) → bs.dropWhile isOws = bs := by
    intro bs h
    cases bs with
    | nil => rfl
    | cons b bs => simp [h b List.mem_cons_self]
  rw [trimOws, hdrop h, hdrop fun b hb => h b (List.mem_reverse.mp hb), List.reverse_reverse]

theorem soundField_length {name : List UInt8} (hne : name ≠ [])
    (htoken : ∀ b ∈ name, isTokenByte b = true) (n : Nat) : SoundField (name, lengthBytes n) := by
  have hdigits := (lengthBytes_digits n).2
  refine ⟨hne, htoken, ⟨fun h => absurd (hdigits 13 h) (by decide),
    fun h => absurd (hdigits 10 h) (by decide)⟩, trimOws_eq_self fun b hb => ?_⟩
  have hle := hdigits b hb
  rw [Bool.eq_false_iff]
  intro hows
  simp only [isOws, Bool.or_eq_true, beq_iff_eq] at hows
  rcases hows with rfl | rfl <;> exact absurd hle (by decide)

end Http
