/-
# `WarpProxy.H3.Qpack` — header blocks without a dynamic table

`qpack/block.rs`, and of `encoder.rs` and `decoder.rs` the two functions that the
connections of `h3` use, `encode_stateless` and `decode_stateless`.  A header block
is a prefix of two integers and then one line for each field: an index into the
static table, a name of the table and a value, or both as strings.

    decodeField_encodeField    one line, whatever follows
    decodeStateless_encode     a whole block: the fields come back, unless they are
                               larger than the receiver allows
    StaticBlock                a block that needs the static table at most, in the
                               format's own terms
    decodeStateless_ok_iff     these are the blocks that are accepted
-/
import WarpProxy.H3.PrefixString
import WarpProxy.H3.StaticTable

namespace WarpProxy.H3.Qpack

open PrefixInt (IsPrefixInt)
open PrefixString (IsPrefixString)

/-! ## `block.rs` -/

/-- `InvalidBase` is left out: the base is of no use without a dynamic table. -/
inductive ParseError where
  | integer (err : PrefixInt.Error)
  | string (err : PrefixString.Error)
  | invalidPrefix (flags : UInt8)
  deriving DecidableEq, Repr

inductive HeaderBlockField where
  | indexed
  | indexedWithPostBase
  | literalWithNameRef
  | literalWithPostBaseNameRef
  | literal
  | unknown
  deriving DecidableEq, Repr

/-- How the next field is encoded, according to its first byte. -/
def HeaderBlockField.decode (first : UInt8) : HeaderBlockField :=
  if first &&& 0b1000_0000 ≠ 0 then .indexed
  else if first &&& 0b1111_0000 = 0b0001_0000 then .indexedWithPostBase
  else if first &&& 0b1100_0000 = 0b0100_0000 then .literalWithNameRef
  else if first &&& 0b1111_0000 = 0 then .literalWithPostBaseNameRef
  else if first &&& 0b1110_0000 = 0b0010_0000 then .literal
  else .unknown

structure HeaderPrefix where
  encodedInsertCount : Nat
  signNegative : Bool
  deltaBase : Nat
  deriving DecidableEq, Repr

namespace HeaderPrefix

/-- `new` for a table of size zero. -/
def new : HeaderPrefix := ⟨0, false, 0⟩

/-- `get` for a table of size zero: the required insert count and the base. -/
def get (_ : HeaderPrefix) : Nat × Nat := (0, 0)

def decode (buf : List UInt8) : Except ParseError (HeaderPrefix × List UInt8) :=
  match PrefixInt.decode 8 buf with
  | .error err => .error (.integer err)
  | .ok ((_, encodedInsertCount), buf) =>
      match PrefixInt.decode 7 buf with
      | .error err => .error (.integer err)
      | .ok ((signNegative, deltaBase), buf) =>
          .ok (⟨encodedInsertCount, signNegative == 1, deltaBase⟩, buf)

def encode (p : HeaderPrefix) : List UInt8 :=
  let signBit := if p.signNegative then 1 else 0
  PrefixInt.encode 8 0 p.encodedInsertCount ++ PrefixInt.encode 7 signBit p.deltaBase

end HeaderPrefix

/-- An index into one of the two tables. -/
inductive Indexed where
  | static (index : Nat)
  | dynamic (index : Nat)
  deriving DecidableEq, Repr

namespace Indexed

def decode (buf : List UInt8) : Except ParseError (Indexed × List UInt8) :=
  match PrefixInt.decode 6 buf with
  | .error err => .error (.integer err)
  | .ok ((flags, i), buf) =>
      if flags = 0b11 then .ok (.static i, buf)
      else if flags = 0b10 then .ok (.dynamic i, buf)
      else .error (.invalidPrefix flags)

def encode : Indexed → List UInt8
  | .static i => PrefixInt.encode 6 0b11 i
  | .dynamic i => PrefixInt.encode 6 0b10 i

end Indexed

inductive LiteralWithNameRef where
  | static (index : Nat) (value : List UInt8)
  | dynamic (index : Nat) (value : List UInt8)
  deriving DecidableEq, Repr

namespace LiteralWithNameRef

def decode (buf : List UInt8) : Except ParseError (LiteralWithNameRef × List UInt8) :=
  match PrefixInt.decode 4 buf with
  | .error err => .error (.integer err)
  | .ok ((flags, i), buf) =>
      if flags &&& 0b0101 = 0b0101 then
        match PrefixString.decode 8 buf with
        | .error err => .error (.string err)
        | .ok (value, buf) => .ok (.static i value, buf)
      else if flags &&& 0b0101 = 0b0100 then
        match PrefixString.decode 8 buf with
        | .error err => .error (.string err)
        | .ok (value, buf) => .ok (.dynamic i value, buf)
      else .error (.invalidPrefix flags)

def encode : LiteralWithNameRef → List UInt8
  | .static i value => PrefixInt.encode 4 0b0101 i ++ PrefixString.encode 8 0 value
  | .dynamic i value => PrefixInt.encode 4 0b0100 i ++ PrefixString.encode 8 0 value

end LiteralWithNameRef

structure Literal where
  name : List UInt8
  value : List UInt8
  deriving DecidableEq, Repr

namespace Literal

def decode (buf : List UInt8) : Except ParseError (Literal × List UInt8) :=
  match buf with
  | [] => .error (.integer .unexpectedEnd)
  | first :: _ =>
      if first &&& 0b1110_0000 ≠ 0b0010_0000 then .error (.invalidPrefix first)
      else
        match PrefixString.decode 4 buf with
        | .error err => .error (.string err)
        | .ok (name, buf) =>
            match PrefixString.decode 8 buf with
            | .error err => .error (.string err)
            | .ok (value, buf) => .ok (⟨name, value⟩, buf)

def encode (l : Literal) : List UInt8 :=
  PrefixString.encode 4 0b0010 l.name ++ PrefixString.encode 8 0 l.value

end Literal

/-! ## `encoder.rs` -/

/-- The line of one field: indexed, with an indexed name, or literal. -/
def encodeField (f : HeaderField) : List UInt8 :=
  match StaticTable.find f with
  | some index => (Indexed.static index).encode
  | none =>
      match StaticTable.findName f.name with
      | some index => (LiteralWithNameRef.static index f.value).encode
      | none => (Literal.mk f.name f.value).encode

def fieldsSize (fields : List HeaderField) : Nat := (fields.map HeaderField.memSize).sum

/-- The block, and the size of the fields. -/
def encodeStateless (fields : List HeaderField) : List UInt8 × Nat :=
  (HeaderPrefix.new.encode ++ fields.flatMap encodeField, fieldsSize fields)

/-! ## `decoder.rs` -/

/-- The errors that `decode_stateless` gives. -/
inductive DecoderError where
  | invalidInteger (err : PrefixInt.Error)
  | invalidString (err : PrefixString.Error)
  | invalidStaticIndex (index : Nat)
  | unknownPrefix (flags : UInt8)
  | missingRefs (n : Nat)
  | headerTooLong (size : Nat)
  deriving DecidableEq, Repr

/-- `From<ParseError>` -/
def DecoderError.ofParse : ParseError → DecoderError
  | .integer err => .invalidInteger err
  | .string err => .invalidString err
  | .invalidPrefix flags => .unknownPrefix flags

/-- `From<StaticError>` -/
def DecoderError.ofStatic : StaticTable.Error → DecoderError
  | .unknown index => .invalidStaticIndex index

structure Decoded where
  fields : List HeaderField
  dynRef : Bool
  memSize : Nat
  deriving DecidableEq, Repr

/-- One turn of the loop of `decode_stateless`, up to the field. -/
def decodeField (first : UInt8) (buf : List UInt8) :
    Except DecoderError (HeaderField × List UInt8) :=
  match HeaderBlockField.decode first with
  | .indexedWithPostBase => .error (.missingRefs 0)
  | .literalWithPostBaseNameRef => .error (.missingRefs 0)
  | .indexed =>
      match Indexed.decode buf with
      | .error err => .error (.ofParse err)
      | .ok (.dynamic _, _) => .error (.missingRefs 0)
      | .ok (.static index, buf) =>
          match StaticTable.get index with
          | .error err => .error (.ofStatic err)
          | .ok f => .ok (f, buf)
  | .literalWithNameRef =>
      match LiteralWithNameRef.decode buf with
      | .error err => .error (.ofParse err)
      | .ok (.dynamic _ _, _) => .error (.missingRefs 0)
      | .ok (.static index value, buf) =>
          match StaticTable.get index with
          | .error err => .error (.ofStatic err)
          | .ok f => .ok (f.withValue value, buf)
  | .literal =>
      match Literal.decode buf with
      | .error err => .error (.ofParse err)
      | .ok (literal, buf) => .ok (⟨literal.name, literal.value⟩, buf)
  | .unknown => .error (.unknownPrefix first)

/-- The loop.  A line takes a byte at least, so fuel for each byte is enough. -/
def decodeFields (maxSize : Nat) : Nat → Nat → List UInt8 →
    Except DecoderError (List HeaderField × Nat)
  | _, memSize, [] => .ok ([], memSize)
  | 0, _, _ :: _ => .error (.invalidInteger .unexpectedEnd)
  | fuel + 1, memSize, first :: buf =>
      match decodeField first (first :: buf) with
      | .error err => .error err
      | .ok (f, buf) =>
          if maxSize < memSize + f.memSize then .error (.headerTooLong (memSize + f.memSize))
          else
            match decodeFields maxSize fuel (memSize + f.memSize) buf with
            | .error err => .error err
            | .ok (fields, memSize) => .ok (f :: fields, memSize)

def decodeStateless (buf : List UInt8) (maxSize : Nat) : Except DecoderError Decoded :=
  match HeaderPrefix.decode buf with
  | .error err => .error (.ofParse err)
  | .ok (pre, buf) =>
      if 0 < pre.get.1 then .error (.missingRefs pre.get.1)
      else
        match decodeFields maxSize buf.length 0 buf with
        | .error err => .error err
        | .ok (fields, memSize) => .ok ⟨fields, false, memSize⟩

/-! ## The first byte of a line -/

theorem headerBlockField_indexed {first : UInt8} (h : first.toNat / 2 ^ 6 = 3) :
    HeaderBlockField.decode first = .indexed := by
  have hall : ∀ b : Fin 256, b.val / 2 ^ 6 = 3 →
      HeaderBlockField.decode (UInt8.ofNat b.val) = .indexed := by
    decide +kernel
  simpa using hall ⟨first.toNat, first.toNat_lt⟩ h

/-- A name of the static table. -/
theorem headerBlockField_nameRef {first : UInt8} :
    HeaderBlockField.decode first = .literalWithNameRef
        ∧ UInt8.ofNat (first.toNat / 2 ^ 4) &&& 0b0101 = 0b0101
      ↔ first.toNat / 2 ^ 4 = 0b0101 ∨ first.toNat / 2 ^ 4 = 0b0111 := by
  have hall : ∀ b : Fin 256, HeaderBlockField.decode (UInt8.ofNat b.val) = .literalWithNameRef
        ∧ UInt8.ofNat (b.val / 2 ^ 4) &&& 0b0101 = 0b0101
      ↔ b.val / 2 ^ 4 = 0b0101 ∨ b.val / 2 ^ 4 = 0b0111 := by
    decide +kernel
  simpa using hall ⟨first.toNat, first.toNat_lt⟩

theorem headerBlockField_literal {first : UInt8} :
    HeaderBlockField.decode first = .literal ∧ first &&& 0b1110_0000 = 0b0010_0000
      ↔ first.toNat / 2 ^ 5 = 1 := by
  have hall : ∀ b : Fin 256, HeaderBlockField.decode (UInt8.ofNat b.val) = .literal
        ∧ UInt8.ofNat b.val &&& 0b1110_0000 = 0b0010_0000
      ↔ b.val / 2 ^ 5 = 1 := by
    decide +kernel
  simpa using hall ⟨first.toNat, first.toNat_lt⟩

/-- The first byte of a prefixed integer has its flags. -/
theorem encode_cons {size : Nat} (hsize : size ≤ 8) {flags : UInt8}
    (hflags : flags.toNat < 2 ^ (8 - size)) (value : Nat) :
    ∃ first tail, PrefixInt.encode size flags value = first :: tail
      ∧ first.toNat / 2 ^ size = flags.toNat := by
  obtain ⟨first, hdiv, ⟨-, -, heq⟩ | ⟨-, -, heq⟩⟩ := PrefixInt.encode_eq hsize hflags value
  · exact ⟨first, _, heq, hdiv⟩
  · exact ⟨first, _, heq, hdiv⟩

/-! ## One line -/

/-- No string is huge. -/
def Modest (f : HeaderField) : Prop := f.name.length < 2 ^ 27 ∧ f.value.length < 2 ^ 27

instance (f : HeaderField) : Decidable (Modest f) :=
  inferInstanceAs (Decidable (_ ∧ _))

/-- **A line is read back**, whatever follows. -/
theorem decodeField_encodeField {f : HeaderField} (hf : Modest f) (rest : List UInt8) :
    ∃ first tail, encodeField f = first :: tail
      ∧ decodeField first (first :: (tail ++ rest)) = .ok (f, rest) := by
  unfold encodeField
  cases hfind : StaticTable.find f with
  | some index =>
      obtain ⟨first, tail, heq, hdiv⟩ := @encode_cons 6 (by decide) 0b11 (by decide) index
      have hlt := StaticTable.find_lt hfind
      have hread := @PrefixInt.decode_encode_lt 6 0b11 (by decide) (by decide) (by decide) index
        (by omega) rest
      rw [heq] at hread
      refine ⟨first, tail, heq, ?_⟩
      simp only [List.cons_append] at hread
      simp [decodeField, headerBlockField_indexed hdiv, Indexed.decode, hread,
        StaticTable.get_find hfind]
  | none =>
      cases hname : StaticTable.findName f.name with
      | some index =>
          obtain ⟨first, tail, heq, hdiv⟩ := @encode_cons 4 (by decide) 0b0101 (by decide) index
          obtain ⟨f', hget, hf'⟩ := StaticTable.get_findName hname
          have hlt := StaticTable.findName_lt hname
          have hread := @PrefixInt.decode_encode_lt 4 0b0101 (by decide) (by decide) (by decide)
            index (by omega)
            (PrefixString.encode 8 0 f.value ++ rest)
          have hvalue := @PrefixString.decode_encode 8 0 (by decide) (by decide) (by decide) _
            hf.2 rest
          have hwith : f'.withValue f.value = f := by rw [HeaderField.withValue, hf']
          rw [heq, List.cons_append] at hread
          refine ⟨first, tail ++ PrefixString.encode 8 0 f.value, ?_, ?_⟩
          · simp [LiteralWithNameRef.encode, heq]
          · have hkind := (headerBlockField_nameRef.mpr (.inl hdiv)).1
            simp [decodeField, hkind, LiteralWithNameRef.decode, hread,
              hvalue, hget, hwith]
      | none =>
          have hread := @PrefixString.decode_encode 4 0b0010 (by decide) (by decide)
            (by decide) _ hf.1 (PrefixString.encode 8 0 f.value ++ rest)
          have hvalue := @PrefixString.decode_encode 8 0 (by decide) (by decide) (by decide) _
            hf.2 rest
          obtain ⟨first, tail, heq, hdiv⟩ := @encode_cons 3 (by decide) 0b101 (by decide)
            (Huffman.Encode.hpackEncode f.name).length
          have hstring : PrefixString.encode 4 0b0010 f.name
              = first :: (tail ++ Huffman.Encode.hpackEncode f.name) := by
            have hflags : ((0b0010 : UInt8) <<< 1 ||| 1) = 0b101 := by decide
            simp only [PrefixString.encode, hflags, Nat.reduceSub, heq, List.cons_append]
          rw [hstring] at hread
          have hfirst : first.toNat / 2 ^ 3 = 5 := hdiv
          obtain ⟨hkind, hmask⟩ :=
            headerBlockField_literal.mpr (by omega : first.toNat / 2 ^ 5 = 1)
          refine ⟨first, tail ++ Huffman.Encode.hpackEncode f.name
            ++ PrefixString.encode 8 0 f.value, ?_, ?_⟩
          · simp [Literal.encode, hstring]
          · simp only [List.cons_append, List.append_assoc] at hread
            simp [decodeField, hkind, Literal.decode, hmask, hread, hvalue]

/-! ### A line takes a byte at least -/

theorem Indexed.decode_shorter {buf rest : List UInt8} {x : Indexed}
    (h : Indexed.decode buf = .ok (x, rest)) : rest.length < buf.length := by
  cases hint : PrefixInt.decode 6 buf with
  | error err => simp [Indexed.decode, hint] at h
  | ok p =>
      have hlt := PrefixInt.decode_shorter hint
      simp only [Indexed.decode, hint] at h
      grind

theorem LiteralWithNameRef.decode_shorter {buf rest : List UInt8} {x : LiteralWithNameRef}
    (h : LiteralWithNameRef.decode buf = .ok (x, rest)) : rest.length < buf.length := by
  cases hint : PrefixInt.decode 4 buf with
  | error err => simp [LiteralWithNameRef.decode, hint] at h
  | ok p =>
      have hlt := PrefixInt.decode_shorter hint
      cases hvalue : PrefixString.decode 8 p.2 with
      | error err =>
          simp only [LiteralWithNameRef.decode, hint, hvalue] at h
          grind
      | ok q =>
          have hlt' := PrefixString.decode_shorter hvalue
          simp only [LiteralWithNameRef.decode, hint, hvalue] at h
          grind

theorem Literal.decode_shorter {buf rest : List UInt8} {x : Literal}
    (h : Literal.decode buf = .ok (x, rest)) : rest.length < buf.length := by
  cases hname : PrefixString.decode 4 buf with
  | error err =>
      simp only [Literal.decode, hname] at h
      grind
  | ok p =>
      have hlt := PrefixString.decode_shorter hname
      cases hvalue : PrefixString.decode 8 p.2 with
      | error err =>
          simp only [Literal.decode, hname, hvalue] at h
          grind
      | ok q =>
          have hlt' := PrefixString.decode_shorter hvalue
          simp only [Literal.decode, hname, hvalue] at h
          grind

theorem decodeField_shorter {first : UInt8} {buf rest : List UInt8} {f : HeaderField}
    (h : decodeField first buf = .ok (f, rest)) : rest.length < buf.length := by
  simp only [decodeField] at h
  split at h
  · cases h
  · cases h
  · split at h
    · cases h
    · cases h
    next index buf' hdec =>
        have hlt := Indexed.decode_shorter hdec
        split at h <;> grind
  · split at h
    · cases h
    · cases h
    next index value buf' hdec =>
        have hlt := LiteralWithNameRef.decode_shorter hdec
        split at h <;> grind
  · split at h
    · cases h
    next literal buf' hdec =>
        have hlt := Literal.decode_shorter hdec
        grind
  · cases h

/-- More fuel than bytes makes no difference. -/
theorem decodeFields_fuel (maxSize : Nat) {fuel : Nat} {buf : List UInt8}
    (h : buf.length ≤ fuel) (memSize : Nat) :
    decodeFields maxSize fuel memSize buf = decodeFields maxSize buf.length memSize buf := by
  induction fuel using Nat.strongRecOn generalizing buf memSize with
  | ind fuel ih =>
      cases buf with
      | nil => simp [decodeFields]
      | cons first buf =>
          obtain ⟨fuel, rfl⟩ : ∃ n, fuel = n + 1 := by
            simp only [List.length_cons] at h
            exact ⟨fuel - 1, by omega⟩
          simp only [List.length_cons, decodeFields] at h ⊢
          cases hline : decodeField first (first :: buf) with
          | error err => rfl
          | ok p =>
              have hlt := decodeField_shorter hline
              simp only [List.length_cons] at hlt
              have h₁ := @ih fuel (by omega) p.2 (by omega)
              simp only [h₁]
              by_cases hfull : buf.length = fuel
              · rw [hfull]
                simp only [h₁]
              · have h₂ := @ih buf.length (by omega) p.2 (by omega)
                simp only [h₂]

/-! ## A block -/

@[simp] theorem fieldsSize_nil : fieldsSize [] = 0 := rfl

@[simp] theorem fieldsSize_cons (f : HeaderField) (fields : List HeaderField) :
    fieldsSize (f :: fields) = f.memSize + fieldsSize fields := rfl

/-- The size at which the fields get larger than `maxSize`, if they do. -/
def overAt (maxSize : Nat) : Nat → List HeaderField → Option Nat
  | _, [] => none
  | memSize, f :: fields =>
      if maxSize < memSize + f.memSize then some (memSize + f.memSize)
      else overAt maxSize (memSize + f.memSize) fields

theorem overAt_eq_none {maxSize memSize : Nat} {fields : List HeaderField}
    (h : memSize + fieldsSize fields ≤ maxSize) : overAt maxSize memSize fields = none := by
  induction fields generalizing memSize with
  | nil => rfl
  | cons f fields ih =>
      simp only [fieldsSize_cons] at h
      rw [overAt, if_neg (by omega)]
      exact ih (by omega)

theorem overAt_eq_some {maxSize memSize : Nat} {fields : List HeaderField}
    (hle : memSize ≤ maxSize) (h : maxSize < memSize + fieldsSize fields) :
    ∃ before f after, fields = before ++ f :: after ∧ memSize + fieldsSize before ≤ maxSize
      ∧ maxSize < memSize + fieldsSize before + f.memSize
      ∧ overAt maxSize memSize fields = some (memSize + fieldsSize before + f.memSize) := by
  induction fields generalizing memSize with
  | nil =>
      simp only [fieldsSize_nil] at h
      omega
  | cons f fields ih =>
      simp only [fieldsSize_cons] at h
      by_cases hover : maxSize < memSize + f.memSize
      · exact ⟨[], f, fields, rfl, by simpa using hle, by simpa using hover,
          by simp [overAt, hover]⟩
      · obtain ⟨before, f', after, rfl, h₁, h₂, h₃⟩ :=
          @ih (memSize + f.memSize) (by omega) (by omega)
        refine ⟨f :: before, f', after, rfl, ?_, ?_, ?_⟩
        · simp only [fieldsSize_cons] at h₁ ⊢
          omega
        · simp only [fieldsSize_cons] at h₂ ⊢
          omega
        · rw [overAt, if_neg hover, h₃]
          simp only [fieldsSize_cons, Nat.add_assoc]

/-- The lines of the fields, read with enough fuel. -/
theorem decodeFields_encode (maxSize : Nat) {fields : List HeaderField}
    (hfields : ∀ f ∈ fields, Modest f) {fuel : Nat}
    (hfuel : (fields.flatMap encodeField).length ≤ fuel) (memSize : Nat) :
    decodeFields maxSize fuel memSize (fields.flatMap encodeField)
      = match overAt maxSize memSize fields with
        | some size => .error (.headerTooLong size)
        | none => .ok (fields, memSize + fieldsSize fields) := by
  induction fields generalizing fuel memSize with
  | nil => cases fuel <;> simp [decodeFields, overAt]
  | cons f fields ih =>
      obtain ⟨first, tail, heq, hline⟩ := decodeField_encodeField (hfields f List.mem_cons_self)
        (fields.flatMap encodeField)
      rw [List.flatMap_cons, heq, List.cons_append] at hfuel ⊢
      obtain ⟨fuel, rfl⟩ : ∃ n, fuel = n + 1 := by
        simp only [List.length_cons] at hfuel
        exact ⟨fuel - 1, by omega⟩
      simp only [List.length_cons, List.length_append] at hfuel
      simp only [decodeFields, hline, overAt]
      by_cases hover : maxSize < memSize + f.memSize
      · rw [if_pos hover, if_pos hover]
      · rw [if_neg hover, if_neg hover,
          ih (fun f' hf' => hfields f' (List.mem_cons_of_mem _ hf')) (by omega)]
        cases overAt maxSize (memSize + f.memSize) fields with
        | some size => rfl
        | none => simp [Nat.add_assoc]

theorem HeaderPrefix.decode_encode {p : HeaderPrefix} (hcount : p.encodedInsertCount < 2 ^ 63)
    (hbase : p.deltaBase < 2 ^ 63) (rest : List UInt8) :
    HeaderPrefix.decode (p.encode ++ rest) = .ok (p, rest) := by
  have h₁ := @PrefixInt.decode_encode_lt 8 0 (by decide) (by decide) (by decide) _ hcount
    (PrefixInt.encode 7 (if p.signNegative then 1 else 0) p.deltaBase ++ rest)
  have h₂ := @PrefixInt.decode_encode_lt 7 (if p.signNegative then 1 else 0) (by decide) (by decide)
    (by split <;> decide) _ hbase rest
  obtain ⟨count, sign, base⟩ := p
  simp only [HeaderPrefix.decode, HeaderPrefix.encode, List.append_assoc, h₁, h₂]
  cases sign <;> rfl

theorem decodeStateless_encodeStateless {fields : List HeaderField}
    (hfields : ∀ f ∈ fields, Modest f) (maxSize : Nat) :
    decodeStateless (encodeStateless fields).1 maxSize
      = match overAt maxSize 0 fields with
        | some size => .error (.headerTooLong size)
        | none => .ok ⟨fields, false, fieldsSize fields⟩ := by
  have hprefix := HeaderPrefix.decode_encode (p := HeaderPrefix.new) (by decide) (by decide)
    (fields.flatMap encodeField)
  have hlines := decodeFields_encode maxSize hfields (Nat.le_refl _) 0
  simp only [decodeStateless, encodeStateless, hprefix, hlines, HeaderPrefix.get]
  cases overAt maxSize 0 fields <;> simp

/-- A block that is within the limit. -/
theorem decodeStateless_fits {fields : List HeaderField} (hfields : ∀ f ∈ fields, Modest f)
    {maxSize : Nat} (hle : fieldsSize fields ≤ maxSize) :
    decodeStateless (encodeStateless fields).1 maxSize
      = .ok ⟨fields, false, fieldsSize fields⟩ := by
  rw [decodeStateless_encodeStateless hfields, overAt_eq_none (by simpa using hle)]

/-- A block that is not: the size up to the field that was too much. -/
theorem decodeStateless_too_long {fields : List HeaderField} (hfields : ∀ f ∈ fields, Modest f)
    {maxSize : Nat} (hlt : maxSize < fieldsSize fields) :
    ∃ before f after, fields = before ++ f :: after ∧ fieldsSize before ≤ maxSize
      ∧ maxSize < fieldsSize before + f.memSize
      ∧ decodeStateless (encodeStateless fields).1 maxSize
          = .error (.headerTooLong (fieldsSize before + f.memSize)) := by
  obtain ⟨before, f, after, heq, h₁, h₂, h₃⟩ :=
    overAt_eq_some (Nat.zero_le maxSize) (by simpa using hlt)
  rw [decodeStateless_encodeStateless hfields, h₃]
  exact ⟨before, f, after, heq, by simpa using h₁, by simpa using h₂, by simp⟩

/-- **A block is read back as its fields**, unless they are larger than the receiver allows:
then it says so, with the size up to the field that was too much. -/
theorem decodeStateless_encode {fields : List HeaderField} (hfields : ∀ f ∈ fields, Modest f)
    (maxSize : Nat) :
    ((encodeStateless fields).2 ≤ maxSize →
        decodeStateless (encodeStateless fields).1 maxSize
          = .ok ⟨fields, false, (encodeStateless fields).2⟩)
      ∧ (maxSize < (encodeStateless fields).2 →
        ∃ before f after, fields = before ++ f :: after ∧ fieldsSize before ≤ maxSize
          ∧ maxSize < fieldsSize before + f.memSize
          ∧ decodeStateless (encodeStateless fields).1 maxSize
              = .error (.headerTooLong (fieldsSize before + f.memSize))) :=
  ⟨decodeStateless_fits hfields, decodeStateless_too_long hfields⟩

/-- The header of an answer that a tunnel gets: one field of the table, one whose name the
table has, and one that is written out. -/
def answerFields : List HeaderField :=
  [StaticTable.field ":status" "200", StaticTable.field "server" "cloudflare",
   StaticTable.field "cf-team" "2a"]

/-- It is read back by a receiver that allows 200, and not by one that allows 80. -/
theorem decodeStateless_encode_answer :
    decodeStateless (encodeStateless answerFields).1 200
        = .ok ⟨answerFields, false, (encodeStateless answerFields).2⟩ ∧
      ∃ before f after, answerFields = before ++ f :: after ∧ fieldsSize before ≤ 80 ∧
        decodeStateless (encodeStateless answerFields).1 80
          = .error (.headerTooLong (fieldsSize before + f.memSize)) := by
  have hfields : ∀ f ∈ answerFields, Modest f := by decide +kernel
  refine ⟨(decodeStateless_encode hfields 200).1 (by decide +kernel), ?_⟩
  obtain ⟨before, f, after, heq, hle, -, hdecode⟩ :=
    (decodeStateless_encode hfields 80).2 (by decide +kernel)
  exact ⟨before, f, after, heq, hle, hdecode⟩

/-! ## What is accepted -/

/-- The prefix of a block: two integers, whatever they are. -/
def IsHeaderPrefix (bs : List UInt8) : Prop :=
  ∃ count base insertCount sign deltaBase, IsPrefixInt 8 count 0 insertCount
    ∧ IsPrefixInt 7 base sign deltaBase ∧ bs = count ++ base

/-- A line that needs the static table at most, of a field: an index into the table, a name of the
table and a value, or both as strings.  Whether the last two have the bit `N` set makes no
difference. -/
inductive StaticLine : List UInt8 → HeaderField → Prop
  | indexed {bs : List UInt8} {index : Nat} {f : HeaderField} :
      IsPrefixInt 6 bs 0b11 index → StaticTable.get index = .ok f → StaticLine bs f
  | nameRef {bs vs value : List UInt8} {flags index : Nat} {f : HeaderField} :
      IsPrefixInt 4 bs flags index → flags = 0b0101 ∨ flags = 0b0111 →
      StaticTable.get index = .ok f → IsPrefixString 8 vs 0 value →
      StaticLine (bs ++ vs) (f.withValue value)
  | literal {bs vs name value : List UInt8} {flags : Nat} :
      IsPrefixString 4 bs flags name → flags = 0b0010 ∨ flags = 0b0011 →
      IsPrefixString 8 vs 0 value → StaticLine (bs ++ vs) ⟨name, value⟩

inductive StaticLines : List UInt8 → List HeaderField → Prop
  | nil : StaticLines [] []
  | cons {bs rest : List UInt8} {f : HeaderField} {fields : List HeaderField} :
      StaticLine bs f → StaticLines rest fields → StaticLines (bs ++ rest) (f :: fields)

/-- A prefix, and a line for each field. -/
def StaticBlock (block : List UInt8) (fields : List HeaderField) : Prop :=
  ∃ pre lines, IsHeaderPrefix pre ∧ StaticLines lines fields ∧ block = pre ++ lines

theorem HeaderPrefix.decode_ok_iff {buf rest : List UInt8} :
    (∃ pre, HeaderPrefix.decode buf = .ok (pre, rest)) ↔
      ∃ bs, IsHeaderPrefix bs ∧ buf = bs ++ rest := by
  constructor
  · rintro ⟨pre, h⟩
    simp only [HeaderPrefix.decode] at h
    split at h
    next => cases h
    next flags count buf' hcount =>
        split at h
        next => cases h
        next sign base buf'' hbase =>
            cases h
            obtain ⟨cs, hcs, rfl⟩ := (PrefixInt.decode_ok_iff (by decide) (by decide)).mp hcount
            obtain ⟨ds, hds, rfl⟩ := (PrefixInt.decode_ok_iff (by decide) (by decide)).mp hbase
            obtain ⟨first, tail, -, hflags⟩ := hcs.flags_eq
            have hlt := first.toNat_lt
            rw [show flags.toNat = 0 by omega] at hcs
            exact ⟨cs ++ ds, ⟨cs, ds, _, _, _, hcs, hds, rfl⟩, (List.append_assoc ..).symm⟩
  · rintro ⟨bs, ⟨cs, ds, count, sign, base, hcs, hds, rfl⟩, rfl⟩
    obtain ⟨-, hcount⟩ := hcs.decode_append (by decide) (by decide) (ds ++ rest)
    obtain ⟨-, hbase⟩ := hds.decode_append (by decide) (by decide) rest
    simp only [HeaderPrefix.decode, List.append_assoc, hcount, hbase]
    exact ⟨_, rfl⟩

/-- What is left of a buffer that `u32` positions can address is one, too. -/
theorem addressable_rest {buf front rest : List UInt8} (hbuf : 8 * buf.length + 8 < 2 ^ 32)
    (hcut : buf = front ++ rest) : 8 * rest.length + 8 < 2 ^ 32 := by
  rw [hcut, List.length_append] at hbuf
  omega

/-- The value of a line. -/
theorem decode_value_iff {buf rest value : List UInt8} (hbuf : 8 * buf.length + 8 < 2 ^ 32) :
    PrefixString.decode 8 buf = .ok (value, rest) ↔
      ∃ vs, IsPrefixString 8 vs 0 value ∧ buf = vs ++ rest := by
  rw [PrefixString.decode_ok_iff (by decide) (by decide) hbuf]
  constructor
  · rintro ⟨vs, flags, hvs, rfl⟩
    obtain ⟨first, tail, -, hflags⟩ := hvs.flags_eq (by decide)
    have hlt := first.toNat_lt
    obtain rfl : flags = 0 := by omega
    exact ⟨vs, hvs, rfl⟩
  · rintro ⟨vs, hvs, rfl⟩
    exact ⟨vs, 0, hvs, rfl⟩

theorem Indexed.decode_static_iff {buf rest : List UInt8} {index : Nat} :
    Indexed.decode buf = .ok (.static index, rest) ↔
      ∃ bs, IsPrefixInt 6 bs 0b11 index ∧ buf = bs ++ rest := by
  have hint : PrefixInt.decode 6 buf = .ok ((0b11, index), rest) ↔
      ∃ bs, IsPrefixInt 6 bs 0b11 index ∧ buf = bs ++ rest :=
    PrefixInt.decode_ok_iff (by decide) (by decide)
  rw [← hint]
  constructor
  · intro h
    simp only [Indexed.decode] at h
    split at h
    next => cases h
    next flags i buf' hdec =>
        split_ifs at h with hstatic hdynamic
        · cases h
          rw [hdec, hstatic]
        · cases h
  · intro h
    simp only [Indexed.decode, h, if_true]

theorem LiteralWithNameRef.decode_static_iff {buf rest value : List UInt8} {index : Nat}
    (hbuf : 8 * buf.length + 8 < 2 ^ 32) :
    LiteralWithNameRef.decode buf = .ok (.static index value, rest) ↔
      ∃ bs flags vs, IsPrefixInt 4 bs flags index ∧ UInt8.ofNat flags &&& 0b0101 = 0b0101
        ∧ IsPrefixString 8 vs 0 value ∧ buf = bs ++ vs ++ rest := by
  constructor
  · intro h
    simp only [LiteralWithNameRef.decode] at h
    split at h
    next => cases h
    next flags i buf' hint =>
        obtain ⟨bs, hbs, rfl⟩ := (PrefixInt.decode_ok_iff (by decide) (by decide)).mp hint
        split_ifs at h with hstatic hdynamic
        · split at h
          next => cases h
          next hvalue =>
              cases h
              obtain ⟨vs, hvs, rfl⟩ := (decode_value_iff (addressable_rest hbuf rfl)).mp hvalue
              exact ⟨bs, flags.toNat, vs, hbs, by rw [UInt8.ofNat_toNat]; exact hstatic, hvs,
                (List.append_assoc ..).symm⟩
        · split at h <;> cases h
  · rintro ⟨bs, flags, vs, hbs, hstatic, hvs, rfl⟩
    obtain ⟨-, hint⟩ := hbs.decode_append (by decide) (by decide) (vs ++ rest)
    rw [List.append_assoc] at hbuf ⊢
    have hvalue := (decode_value_iff (addressable_rest hbuf rfl)).mpr ⟨vs, hvs, rfl⟩
    simp only [LiteralWithNameRef.decode, hint, if_pos hstatic, hvalue]

theorem Literal.decode_ok_iff {first : UInt8} {tail rest name value : List UInt8}
    (hbuf : 8 * (first :: tail).length + 8 < 2 ^ 32) :
    Literal.decode (first :: tail) = .ok (⟨name, value⟩, rest) ↔
      first &&& 0b1110_0000 = 0b0010_0000 ∧ ∃ ns flags vs, IsPrefixString 4 ns flags name
        ∧ IsPrefixString 8 vs 0 value ∧ first :: tail = ns ++ vs ++ rest := by
  constructor
  · intro h
    simp only [Literal.decode] at h
    split_ifs at h with hkind
    refine ⟨not_not.mp hkind, ?_⟩
    split at h
    next => cases h
    next name' buf' hname =>
        obtain ⟨ns, flags, hns, hcut⟩ :=
          (PrefixString.decode_ok_iff (by decide) (by decide) hbuf).mp hname
        split at h
        next => cases h
        next hvalue =>
            cases h
            obtain ⟨vs, hvs, rfl⟩ := (decode_value_iff (addressable_rest hbuf hcut)).mp hvalue
            exact ⟨ns, flags, vs, hns, hvs, hcut.trans (List.append_assoc ..).symm⟩
  · rintro ⟨hkind, ns, flags, vs, hns, hvs, hcut⟩
    rw [List.append_assoc] at hcut
    have hname := (PrefixString.decode_ok_iff (by decide) (by decide) hbuf).mpr
      ⟨ns, flags, hns, hcut⟩
    have hvalue := (decode_value_iff (addressable_rest hbuf hcut)).mpr ⟨vs, hvs, rfl⟩
    simp only [Literal.decode, if_neg (not_not.mpr hkind), hname, hvalue]

/-- **One line.** -/
theorem decodeField_ok_iff {first : UInt8} {tail rest : List UInt8} {f : HeaderField}
    (hbuf : 8 * (first :: tail).length + 8 < 2 ^ 32) :
    decodeField first (first :: tail) = .ok (f, rest) ↔
      ∃ bs, StaticLine bs f ∧ first :: tail = bs ++ rest := by
  -- what spells the front of the buffer has its first byte
  have hhead : ∀ {bs buf bs' : List UInt8} {b : UInt8}, first :: tail = bs ++ buf →
      bs = b :: bs' → b = first := by
    rintro bs buf bs' b h rfl
    exact (List.cons.inj h).1.symm
  constructor
  · intro h
    simp only [decodeField] at h
    split at h
    next => cases h
    next => cases h
    next hkind =>
        split at h
        next => cases h
        next => cases h
        next index buf hdec =>
            obtain ⟨bs, hbs, hcut⟩ := Indexed.decode_static_iff.mp hdec
            split at h
            next => cases h
            next hget =>
                cases h
                exact ⟨bs, .indexed hbs hget, hcut⟩
    next hkind =>
        split at h
        next => cases h
        next => cases h
        next index value buf hdec =>
            obtain ⟨bs, flags, vs, hbs, hstatic, hvs, hcut⟩ :=
              (LiteralWithNameRef.decode_static_iff hbuf).mp hdec
            obtain ⟨b, bs', hcons, hflags⟩ := hbs.flags_eq
            rw [List.append_assoc] at hcut
            obtain rfl := hhead hcut hcons
            have hname := headerBlockField_nameRef.mp ⟨hkind, hflags ▸ hstatic⟩
            rw [hflags] at hname
            split at h
            next => cases h
            next hget =>
                cases h
                exact ⟨bs ++ vs, .nameRef hbs hname hget hvs, by rw [hcut, List.append_assoc]⟩
    next hkind =>
        split at h
        next => cases h
        next literal buf hdec =>
            cases h
            obtain ⟨hmask, ns, flags, vs, hns, hvs, hcut⟩ := (Literal.decode_ok_iff hbuf).mp hdec
            obtain ⟨b, ns', hcons, hflags⟩ := hns.flags_eq (by decide)
            have hfirst := headerBlockField_literal.mp ⟨hkind, hmask⟩
            obtain rfl := hhead ((List.append_assoc ..).symm ▸ hcut) hcons
            exact ⟨ns ++ vs, .literal hns (by omega) hvs, hcut⟩
    next => cases h
  · rintro ⟨bs, hline, hcut⟩
    cases hline with
    | indexed hbs hget =>
        obtain ⟨b, bs', hcons, hflags⟩ := hbs.flags_eq
        obtain rfl := hhead hcut hcons
        have hdec := Indexed.decode_static_iff.mpr ⟨bs, hbs, hcut⟩
        simp only [decodeField, headerBlockField_indexed hflags, hdec, hget]
    | @nameRef bs vs value flags index f hbs hname hget hvs =>
        obtain ⟨b, bs', hcons, hflags⟩ := hbs.flags_eq
        obtain rfl := hhead (hcut.trans (List.append_assoc ..)) hcons
        obtain ⟨hkind, hstatic⟩ := headerBlockField_nameRef.mpr (hflags ▸ hname)
        rw [hflags] at hstatic
        have hdec := (LiteralWithNameRef.decode_static_iff hbuf).mpr
          ⟨bs, flags, vs, hbs, hstatic, hvs, hcut⟩
        simp only [decodeField, hkind, hdec, hget]
    | @literal ns vs name value flags hns hname hvs =>
        obtain ⟨b, ns', hcons, hflags⟩ := hns.flags_eq (by decide)
        obtain rfl := hhead (hcut.trans (List.append_assoc ..)) hcons
        obtain ⟨hkind, hmask⟩ :=
          headerBlockField_literal.mpr (by omega : b.toNat / 2 ^ 5 = 1)
        have hdec := (Literal.decode_ok_iff hbuf).mpr ⟨hmask, ns, flags, vs, hns, hvs, hcut⟩
        simp only [decodeField, hkind, hdec]

/-- A line takes a byte at least. -/
theorem StaticLine.ne_nil {bs : List UInt8} {f : HeaderField} (h : StaticLine bs f) : bs ≠ [] := by
  rintro rfl
  generalize hnil : ([] : List UInt8) = bs at h
  cases h with
  | indexed hbs _ =>
      obtain ⟨b, bs', rfl, -⟩ := hbs.flags_eq
      cases hnil
  | nameRef hbs _ _ _ =>
      obtain ⟨b, bs', rfl, -⟩ := hbs.flags_eq
      cases hnil
  | literal hns _ _ =>
      obtain ⟨b, ns', rfl, -⟩ := hns.flags_eq (by decide)
      cases hnil

theorem StaticLine.shorter {buf bs rest : List UInt8} {f : HeaderField} (h : StaticLine bs f)
    (hcut : buf = bs ++ rest) : rest.length < buf.length := by
  have hpos := List.length_pos_iff.mpr h.ne_nil
  rw [hcut, List.length_append]
  omega

theorem staticLines_nil_iff {fields : List HeaderField} :
    StaticLines [] fields ↔ fields = [] := by
  constructor
  · intro h
    generalize hnil : ([] : List UInt8) = buf at h
    cases h with
    | nil => rfl
    | cons hbs _ => exact absurd (List.append_eq_nil_iff.mp hnil.symm).1 hbs.ne_nil
  · rintro rfl
    exact .nil

theorem decodeFields_nil_iff {maxSize fuel memSize size : Nat} {fields : List HeaderField}
    (hle : memSize ≤ maxSize) : decodeFields maxSize fuel memSize [] = .ok (fields, size) ↔
      StaticLines [] fields ∧ size = memSize + fieldsSize fields ∧ size ≤ maxSize := by
  rw [staticLines_nil_iff]
  simp only [decodeFields, Except.ok.injEq, Prod.mk.injEq]
  constructor
  · rintro ⟨rfl, rfl⟩
    exact ⟨rfl, rfl, hle⟩
  · rintro ⟨rfl, rfl, -⟩
    exact ⟨rfl, rfl⟩

/-- With enough fuel: the lines are of these kinds, and their fields within the limit. -/
theorem decodeFields_ok_iff {maxSize fuel memSize size : Nat} {buf : List UInt8}
    {fields : List HeaderField} (hbuf : 8 * buf.length + 8 < 2 ^ 32) (hle : memSize ≤ maxSize)
    (hfuel : buf.length ≤ fuel) :
    decodeFields maxSize fuel memSize buf = .ok (fields, size) ↔
      StaticLines buf fields ∧ size = memSize + fieldsSize fields ∧ size ≤ maxSize := by
  induction fuel generalizing memSize buf fields with
  | zero =>
      obtain rfl := List.length_eq_zero_iff.mp (Nat.le_zero.mp hfuel)
      exact decodeFields_nil_iff hle
  | succ fuel ih =>
      cases buf with
      | nil => exact decodeFields_nil_iff hle
      | cons first tail =>
          simp only [decodeFields]
          constructor
          · intro h
            split at h
            · cases h
            next f rest hline =>
                obtain ⟨bs, hbs, hcut⟩ := (decodeField_ok_iff hbuf).mp hline
                have hlt := hbs.shorter hcut
                split at h
                · cases h
                next hfits =>
                    split at h
                    · cases h
                    next fields' size' hrest =>
                        simp only [Except.ok.injEq, Prod.mk.injEq] at h
                        obtain ⟨rfl, rfl⟩ := h
                        obtain ⟨hlines, hsum, hmax⟩ :=
                          (ih (by omega) (by omega) (by omega)).mp hrest
                        rw [hcut]
                        refine ⟨.cons hbs hlines, ?_, hmax⟩
                        simp only [fieldsSize_cons] at hsum ⊢
                        omega
          · rintro ⟨hlines, hsum, hmax⟩
            generalize hcut : first :: tail = buf at hlines
            cases hlines with
            | nil => cases hcut
            | @cons bs rest f fields hbs hlines =>
                have hdec := (decodeField_ok_iff hbuf).mpr ⟨bs, hbs, hcut⟩
                have hlt := hbs.shorter hcut
                simp only [fieldsSize_cons] at hsum
                have hrest := (ih (by omega) (show memSize + f.memSize ≤ maxSize by omega)
                  (by omega)).mpr
                  ⟨hlines, (by omega : size = memSize + f.memSize + fieldsSize fields), hmax⟩
                rw [hcut] at hdec
                simp only [hdec, hrest]
                rw [if_neg (by omega)]

/-- **What is accepted**, whatever the peer sends: a prefix, then lines that need the static table
at most, of fields within the limit. -/
theorem decodeStateless_ok_iff {buf : List UInt8} (hbuf : 8 * buf.length + 8 < 2 ^ 32)
    {maxSize : Nat} {d : Decoded} :
    decodeStateless buf maxSize = .ok d ↔
      StaticBlock buf d.fields ∧ fieldsSize d.fields ≤ maxSize
        ∧ d = ⟨d.fields, false, fieldsSize d.fields⟩ := by
  -- a table of size zero requires no insertions
  have hcount : ∀ pre : HeaderPrefix, ¬ 0 < pre.get.1 := fun _ => Nat.lt_irrefl 0
  simp only [decodeStateless]
  constructor
  · intro h
    split at h
    next => cases h
    next pre rest hpre =>
        obtain ⟨bs, hbs, hcut⟩ := HeaderPrefix.decode_ok_iff.mp ⟨pre, hpre⟩
        rw [if_neg (hcount pre)] at h
        split at h
        next => cases h
        next fields size hfields =>
            cases h
            obtain ⟨hrest, hsum, hmax⟩ := (decodeFields_ok_iff (addressable_rest hbuf hcut)
              (Nat.zero_le _) (Nat.le_refl _)).mp hfields
            rw [Nat.zero_add] at hsum
            subst hsum
            exact ⟨⟨bs, rest, hbs, hrest, hcut⟩, hmax, rfl⟩
  · rintro ⟨⟨bs, rest, hbs, hrest, hcut⟩, hmax, hd⟩
    obtain ⟨pre, hpre⟩ := HeaderPrefix.decode_ok_iff.mpr ⟨bs, hbs, hcut⟩
    have hfields := (decodeFields_ok_iff (addressable_rest hbuf hcut)
      (Nat.zero_le _) (Nat.le_refl _)).mpr ⟨hrest, (Nat.zero_add _).symm, hmax⟩
    simp only [hpre, if_neg (hcount pre), hfields]
    rw [← hd]

/-- A block of three lines, and one that refers to the dynamic table. -/
theorem decodeStateless_ok_iff_answer :
    StaticBlock (encodeStateless answerFields).1 answerFields
      ∧ ∀ fields, ¬ StaticBlock [0x00, 0x00, 0x80] fields := by
  constructor
  · have hdec : decodeStateless (encodeStateless answerFields).1 200
        = .ok ⟨answerFields, false, fieldsSize answerFields⟩ := by decide +kernel
    exact ((decodeStateless_ok_iff (by decide +kernel)).mp hdec).1
  · intro fields hblock
    have hdec := (@decodeStateless_ok_iff [0x00, 0x00, 0x80] (by decide) (fieldsSize fields)
      ⟨fields, false, fieldsSize fields⟩).mpr ⟨hblock, Nat.le_refl _, rfl⟩
    have hrefused : decodeStateless [0x00, 0x00, 0x80] (fieldsSize fields)
        = .error (.missingRefs 0) := rfl
    rw [hrefused] at hdec
    cases hdec

end WarpProxy.H3.Qpack
