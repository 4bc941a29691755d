/-
# `WarpProxy.Lib.Http` — an HTTP/1.1 response on the wire

The part of the message format that frames a body: a status line and
field lines, a blank line, then the body as it is, or cut into chunks.

    head line CRLF .. head line CRLF CRLF body
    head line CRLF .. head line CRLF CRLF
      size [ext] CRLF data CRLF .. 0 [ext] CRLF field line CRLF .. CRLF

The body as it is stands for both ways of delimiting it, a `Content-Length` and
the end of the connection; which one it is, the head lines say.  The second part
is the response as a text, line by line (`Response.lines`).
-/
import WarpProxy.Lib.Text
import WarpProxy.Lib.Utf8

namespace Http

def crlf : List UInt8 := [13, 10]

/-- No line end in it. -/
structure Clean (bs : List UInt8) : Prop where
  cr : 13 ∉ bs
  lf : 10 ∉ bs

instance (bs : List UInt8) : Decidable (Clean bs) :=
  decidable_of_iff (13 ∉ bs ∧ 10 ∉ bs) ⟨fun h => ⟨h.1, h.2⟩, fun h => ⟨h.cr, h.lf⟩⟩

/-- The value of a hexadecimal digit. -/
def hexDigit (b : UInt8) : Option Nat :=
  if 0x30 ≤ b ∧ b ≤ 0x39 then some (b.toNat - 0x30)
  else if 0x41 ≤ b ∧ b ≤ 0x46 then some (b.toNat - 0x37)
  else if 0x61 ≤ b ∧ b ≤ 0x66 then some (b.toNat - 0x57)
  else none

def hexValue (bs : List UInt8) : Option Nat :=
  bs.foldl (fun acc b => acc.bind fun n => (hexDigit b).map (16 * n + ·)) (some 0)

/-- The bytes of a field name. -/
def isTokenByte (b : UInt8) : Bool :=
  (0x30 ≤ b && b ≤ 0x39) || (0x41 ≤ b && b ≤ 0x5A) || (0x61 ≤ b && b ≤ 0x7A) ||
    (Utf8.ascii "!#$%&'*+-.^_|~").contains b || b == 0x60

/-- What may follow a size on its line: `;` and a name and so on, or white space before it. -/
structure ChunkExt where
  bytes : List UInt8
  start : ∀ b rest, bytes = b :: rest → b = 0x3B ∨ b = 0x20 ∨ b = 0x09
  clean : Clean bytes

/-- The line before the data of a chunk. -/
structure SizeLine where
  digits : List UInt8
  ext : ChunkExt
  value : Nat
  digits_ne : digits ≠ []
  hex : hexValue digits = some value

/-- A size without anything after it. -/
def SizeLine.bare (digits : List UInt8) (value : Nat) (hne : digits ≠ [])
    (hex : hexValue digits = some value) : SizeLine where
  digits := digits
  ext := { bytes := [], start := fun _ _ h => (by cases h), clean := by decide }
  value := value
  digits_ne := hne
  hex := hex

structure Chunk where
  line : SizeLine
  data : List UInt8
  data_ne : data ≠ []
  size : line.value = data.length

/-- A field line after the last chunk. -/
structure Trailer where
  name : List UInt8
  value : List UInt8
  name_ne : name ≠ []
  token : ∀ b ∈ name, isTokenByte b = true
  clean : Clean value

inductive Payload where
  /-- delimited by its length or by the end of the connection -/
  | whole (body : List UInt8)
  | chunked (chunks : List Chunk) (last : { line : SizeLine // line.value = 0 })
      (trailers : List Trailer)

structure Response where
  head : List (List UInt8)
  payload : Payload
  head_ne : head ≠ []
  line_ne : [] ∉ head
  line_clean : ∀ line ∈ head, Clean line

def SizeLine.bytes (l : SizeLine) : List UInt8 := l.digits ++ l.ext.bytes

def Chunk.bytes (c : Chunk) : List UInt8 := c.line.bytes ++ crlf ++ (c.data ++ crlf)

def Trailer.bytes (t : Trailer) : List UInt8 := t.name ++ 0x3A :: t.value

def Payload.bytes : Payload → List UInt8
  | .whole body => body
  | .chunked chunks last trailers =>
      chunks.flatMap Chunk.bytes ++
        (last.1.bytes ++ crlf ++ (trailers.flatMap (·.bytes ++ crlf) ++ crlf))

/-- What the payload carries. -/
def Payload.body : Payload → List UInt8
  | .whole body => body
  | .chunked chunks _ _ => chunks.flatMap Chunk.data

def Response.bytes (r : Response) : List UInt8 :=
  r.head.flatMap (· ++ crlf) ++ (crlf ++ r.payload.bytes)

/-! ## The lines of the text -/

/-- The lines of a byte string, read as text. -/
def textLines (bs : List UInt8) : List (List Char) := Text.splitCrlf (Utf8.lossy bs)

/-- **A line end separates the lines.** -/
theorem textLines_crlf (xs ys : List UInt8) :
    textLines (xs ++ (crlf ++ ys)) = textLines xs ++ textLines ys := by
  have hlossy : Utf8.lossy (xs ++ (crlf ++ ys)) = _ := Utf8.lossy_crlf xs ys
  rw [textLines, hlossy]
  exact Text.splitCrlf_append ..

theorem plain_cr : Utf8.Plain '\r' := by
  constructor <;> decide

theorem plain_lf : Utf8.Plain '\n' := by
  constructor <;> decide

theorem Clean.textLines {bs : List UInt8} (h : Clean bs) : textLines bs = [Utf8.lossy bs] := by
  refine Text.splitCrlf_line fun xs ys heq => h.cr ?_
  have hmem : '\r' ∈ Utf8.lossy bs := heq ▸ List.mem_append_right _ List.mem_cons_self
  exact Utf8.lossy_mem plain_cr hmem

theorem Clean.lf_not_mem {bs : List UInt8} (h : Clean bs) : '\n' ∉ Utf8.lossy bs :=
  fun hmem => h.lf (Utf8.lossy_mem plain_lf hmem)

/-- A text with a blank line in it comes from bytes with one. -/
theorem not_blank_lossy {bs : List UInt8} (h : ¬ crlf ++ crlf <:+: bs) :
    ¬ Text.blank <:+: Utf8.lossy bs := by
  rintro ⟨xs, ys, heq⟩
  rw [List.append_assoc] at heq
  obtain ⟨bs₁, bs₂, rfl, -, h₂⟩ := Utf8.lossy_cut plain_cr heq.symm
  obtain ⟨bs₃, rfl, h₃⟩ := Utf8.lossy_head plain_lf h₂
  obtain ⟨bs₄, rfl, h₄⟩ := Utf8.lossy_head plain_cr h₃
  obtain ⟨bs₅, rfl, -⟩ := Utf8.lossy_head plain_lf h₄
  exact h ⟨bs₁, bs₅, by rw [List.append_assoc]; rfl⟩

theorem head_lines {head : List (List UInt8)} (h : ∀ line ∈ head, Clean line)
    (rest : List UInt8) : textLines (head.flatMap (· ++ crlf) ++ rest) =
      head.map Utf8.lossy ++ textLines rest := by
  induction head with
  | nil => rfl
  | cons line head ih =>
      rw [List.flatMap_cons, List.append_assoc, List.append_assoc, textLines_crlf,
        (h line List.mem_cons_self).textLines, ih fun l hl => h l (List.mem_cons_of_mem _ hl)]
      rfl

/-- **The lines of a response**: the head, a blank line, the lines of the payload. -/
theorem Response.lines (r : Response) :
    textLines r.bytes = r.head.map Utf8.lossy ++ [] :: textLines r.payload.bytes := by
  have hblank := textLines_crlf [] r.payload.bytes
  rw [Response.bytes, head_lines r.line_clean]
  exact congrArg (r.head.map Utf8.lossy ++ ·) hblank

/-- The payload is what follows the first blank line of the response. -/
theorem Response.splitStr (r : Response) :
    Text.splitStr Text.blank (Utf8.lossy r.bytes) =
      Text.joinCrlf (r.head.map Utf8.lossy) ::
        Text.splitStr Text.blank (Utf8.lossy r.payload.bytes) := by
  have hne : r.head.map Utf8.lossy ≠ [] := fun h => r.head_ne (List.map_eq_nil_iff.mp h)
  have hlines : [] ∉ r.head.map Utf8.lossy := by
    intro hmem
    obtain ⟨line, hline, hnil⟩ := List.mem_map.mp hmem
    refine Utf8.lossy_ne_nil (fun heq => ?_) hnil
    exact r.line_ne (heq ▸ hline)
  have hparts := Text.paragraphs_append hne hlines (Text.splitCrlf_ne_nil
    (Utf8.lossy r.payload.bytes))
  rw [Text.splitStr_blank, Text.splitStr_blank, show Text.splitCrlf _ = _ from r.lines]
  exact congrArg (List.map Text.joinCrlf) hparts

/-! ## The lines of a chunked payload -/

theorem hexValue_foldl_none (bs : List UInt8) :
    bs.foldl (fun acc b => acc.bind fun n => (hexDigit b).map (16 * n + ·)) none = none := by
  induction bs with
  | nil => rfl
  | cons b bs ih => exact ih

theorem isSome_of_hexValue {bs : List UInt8} {n : Nat} (h : hexValue bs = some n) :
    ∀ b ∈ bs, (hexDigit b).isSome := by
  have hfrom : ∀ (bs : List UInt8) (m : Nat), bs.foldl (fun acc b => acc.bind fun n =>
      (hexDigit b).map (16 * n + ·)) (some m) = some n → ∀ b ∈ bs, (hexDigit b).isSome := by
    intro bs
    induction bs with
    | nil => exact fun _ _ b hb => absurd hb List.not_mem_nil
    | cons b bs ih =>
        intro m h b' hb'
        rw [List.foldl_cons, Option.bind_some] at h
        cases hdigit : hexDigit b with
        | none =>
            rw [hdigit, Option.map_none, hexValue_foldl_none] at h
            cases h
        | some d =>
            rw [hdigit, Option.map_some] at h
            rcases List.mem_cons.mp hb' with rfl | hb'
            · rw [hdigit]; rfl
            · exact ih _ h b' hb'
  exact hfrom bs 0 h

theorem SizeLine.bytes_ne (l : SizeLine) : l.bytes ≠ [] :=
  fun h => l.digits_ne (List.append_eq_nil_iff.mp h).1

theorem SizeLine.clean (l : SizeLine) : Clean l.bytes := by
  have hdigit : ∀ b : UInt8, hexDigit b = none → b ∉ l.digits := by
    intro b hb hmem
    have hsome := isSome_of_hexValue l.hex b hmem
    rw [hb] at hsome
    cases hsome
  constructor
  · rintro hmem
    rcases List.mem_append.mp hmem with hmem | hmem
    · exact hdigit 13 rfl hmem
    · exact l.ext.clean.cr hmem
  · rintro hmem
    rcases List.mem_append.mp hmem with hmem | hmem
    · exact hdigit 10 rfl hmem
    · exact l.ext.clean.lf hmem

/-- How a size line begins. -/
theorem SizeLine.front (l : SizeLine) {b : UInt8} {bs : List UInt8} (h : l.bytes = b :: bs) :
    (hexDigit b).isSome ∧ ∀ b' bs', bs = b' :: bs' →
      (hexDigit b').isSome ∨ b' = 0x3B ∨ b' = 0x20 ∨ b' = 0x09 := by
  have hhex := isSome_of_hexValue l.hex
  have hext := l.ext.start
  have hne := l.digits_ne
  rw [SizeLine.bytes] at h
  match hd : l.digits with
  | [] => exact absurd hd hne
  | [d] =>
      rw [hd] at h hhex
      obtain ⟨rfl, rfl⟩ := List.cons.inj h
      exact ⟨hhex d List.mem_cons_self, fun b' bs' heq => .inr (hext b' bs' heq)⟩
  | d :: e :: ds =>
      rw [hd] at h hhex
      obtain ⟨rfl, rfl⟩ := List.cons.inj h
      refine ⟨hhex d List.mem_cons_self, fun b' bs' heq => .inl ?_⟩
      rw [← (List.cons.inj heq).1]
      exact hhex e (List.mem_cons_of_mem _ List.mem_cons_self)

theorem Trailer.name_not_mem (t : Trailer) {b : UInt8} (hb : isTokenByte b = false) :
    b ∉ t.name := by
  intro hmem
  rw [t.token b hmem] at hb
  cases hb

theorem Trailer.bytes_clean (t : Trailer) : Clean t.bytes := by
  constructor
  · intro hmem
    rcases List.mem_append.mp hmem with hmem | hmem
    · exact t.name_not_mem (by decide) hmem
    · rcases List.mem_cons.mp hmem with hmem | hmem
      · exact absurd hmem (by decide)
      · exact t.clean.cr hmem
  · intro hmem
    rcases List.mem_append.mp hmem with hmem | hmem
    · exact t.name_not_mem (by decide) hmem
    · rcases List.mem_cons.mp hmem with hmem | hmem
      · exact absurd hmem (by decide)
      · exact t.clean.lf hmem

/-- The lines of a chunk: its size line, then those its data is cut into. -/
theorem Chunk.lines (c : Chunk) (rest : List UInt8) :
    textLines (c.bytes ++ rest) =
      Utf8.lossy c.line.bytes :: (textLines c.data ++ textLines rest) := by
  rw [Chunk.bytes, List.append_assoc, List.append_assoc, List.append_assoc, textLines_crlf,
    c.line.clean.textLines, textLines_crlf]
  rfl

/-- The lines after the last chunk: the empty chunk, the field lines, and two blank ones. -/
theorem last_lines (last : SizeLine) (trailers : List Trailer) :
    textLines (last.bytes ++ crlf ++ (trailers.flatMap (·.bytes ++ crlf) ++ crlf)) =
      Utf8.lossy last.bytes :: (trailers.map fun t => Utf8.lossy t.bytes) ++ [[], []] := by
  have hfields : trailers.flatMap (·.bytes ++ crlf) =
      (trailers.map Trailer.bytes).flatMap (· ++ crlf) := by rw [List.flatMap_map]
  have hclean : ∀ line ∈ trailers.map Trailer.bytes, Clean line := by
    intro line hline
    obtain ⟨t, -, rfl⟩ := List.mem_map.mp hline
    exact t.bytes_clean
  rw [List.append_assoc, textLines_crlf, last.clean.textLines, hfields, head_lines hclean,
    List.map_map]
  rfl

end Http
