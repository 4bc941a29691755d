/-
# `WarpProxy.Lib.IpText` — the text of IP addresses

An address is its bits, most significant first; the text is the list of its
characters.  Octets print in decimal without leading zeros, groups in hexadecimal with
the longest run of zero groups left out.

The readers take an address off the front of a text and give what is left.  The IPv6 reader takes
groups up to a `::`, then as many as still fit behind it; the last two groups may be
written as an IPv4 address.
-/
import Mathlib.Data.Nat.Digits.Defs

namespace IpText

/-! ## Printing -/

/-- The decimal digits of `n`. -/
def decimal (n : Nat) : List Char := Nat.toDigits 10 n

/-- The four octets of an address. -/
def octets (a : BitVec 32) : List Nat :=
  [a.toNat / 2 ^ 24, a.toNat / 2 ^ 16 % 256, a.toNat / 2 ^ 8 % 256, a.toNat % 256]

/-- `a.b.c.d` -/
def showV4 (a : BitVec 32) : List Char := ['.'].intercalate ((octets a).map decimal)

example : showV4 0x7f000001 = "127.0.0.1".toList := by decide

/-- The eight groups of an address. -/
def groups (a : BitVec 128) : List Nat :=
  (List.range 8).map fun i => a.toNat / 65536 ^ (7 - i) % 65536

/-- A run of zero groups. -/
structure Span where
  start : Nat
  len : Nat

/-- The longest run so far and the one the last group is in, after one more group. -/
def spanStep : Span × Span → Nat × Nat → Span × Span
  | (longest, current), (segment, i) =>
      if segment = 0 then
        let current := ⟨if current.len = 0 then i else current.start, current.len + 1⟩
        (if longest.len < current.len then current else longest, current)
      else (longest, ⟨0, 0⟩)

/-- The first of the longest runs. -/
def zeroes (segments : List Nat) : Span :=
  (segments.zipIdx.foldl spanStep (⟨0, 0⟩, ⟨0, 0⟩)).1

def colonHex (segments : List Nat) : List Char :=
  [':'].intercalate (segments.map (Nat.toDigits 16))

/-- A mapped IPv4 address prints as one, any other with `::` for its longest run of at least two
zero groups. -/
def showV6 (a : BitVec 128) : List Char :=
  let segments := groups a
  if segments.take 6 = [0, 0, 0, 0, 0, 0xffff] then
    "::ffff:".toList ++ showV4 (a.setWidth 32)
  else
    let z := zeroes segments
    if 1 < z.len then
      colonHex (segments.take z.start) ++ "::".toList ++
        colonHex (segments.drop (z.start + z.len))
    else colonHex segments

example : showV6 0x26064700000000000000000000001111 = "2606:4700::1111".toList := by
  decide

/-! ## Reading -/

/-- The value of a digit. -/
def digit (radix : Nat) (c : Char) : Option Nat :=
  let n := c.toNat
  let v :=
    if '0'.toNat ≤ n ∧ n ≤ '9'.toNat then n - '0'.toNat
    else if 'a'.toNat ≤ n ∧ n ≤ 'z'.toNat then n - 'a'.toNat + 10
    else if 'A'.toNat ≤ n ∧ n ≤ 'Z'.toNat then n - 'A'.toNat + 10
    else radix
  if v < radix then some v else none

/-- A number below `bound` of at most `maxDigits` digits. -/
def readNumber (radix maxDigits : Nat) (allowZeroPrefix : Bool) (bound : Nat) (cs : List Char) :
    Option (Nat × List Char) :=
  let digits := cs.takeWhile fun c => (digit radix c).isSome
  let n := (digits.filterMap (digit radix)).foldl (fun n d => n * radix + d) 0
  if digits.length = 0 ∨ maxDigits < digits.length then none
  else if allowZeroPrefix = false ∧ digits.head? = some '0' ∧ 1 < digits.length then none
  else if n < bound then some (n, cs.drop digits.length)
  else none

/-- The separator, unless at index 0, and then `inner`. -/
def readSeparator {α : Type} (sep : Char) (index : Nat) (inner : List Char → Option (α × List Char))
    (cs : List Char) : Option (α × List Char) :=
  if index = 0 then inner cs
  else
    match cs with
    | c :: cs => if c = sep then inner cs else none
    | [] => none

/-- The octets from `index` on, `n` of them. -/
def readOctets (index : Nat) : Nat → List Char → Option (List Nat × List Char)
  | 0, cs => some ([], cs)
  | n + 1, cs => do
      let (o, cs) ← readSeparator '.' index (readNumber 10 3 false 256) cs
      let (os, cs) ← readOctets (index + 1) n cs
      some (o :: os, cs)

def readV4 (cs : List Char) : Option (List Nat × List Char) := readOctets 0 4 cs

/-- Groups from `index` on, at most `n`, and whether they ended in an IPv4 address. -/
def readGroups (index : Nat) : Nat → List Char → List Nat × Bool × List Char
  | 0, cs => ([], false, cs)
  | n + 1, cs =>
      -- an IPv4 address takes two groups
      match if 0 < n then readSeparator ':' index readV4 cs else none with
      | some (os, cs) =>
          ([os.getD 0 0 * 256 + os.getD 1 0, os.getD 2 0 * 256 + os.getD 3 0], true, cs)
      | none =>
          match readSeparator ':' index (readNumber 16 4 true 65536) cs with
          | some (g, cs) =>
              let (gs, v4, cs) := readGroups (index + 1) n cs
              (g :: gs, v4, cs)
          | none => ([], false, cs)

def readV6 (cs : List Char) : Option (List Nat × List Char) :=
  let (head, v4, cs) := readGroups 0 8 cs
  if head.length = 8 then some (head, cs)
  else if v4 then none
  else
    match cs with
    | ':' :: ':' :: cs =>
        let (tail, _, cs) := readGroups 0 (7 - head.length) cs
        some (head ++ List.replicate (8 - head.length - tail.length) 0 ++ tail, cs)
    | _ => none

def bits (radix : Nat) (w : Nat) (ns : List Nat) : BitVec w :=
  BitVec.ofNat w (ns.foldl (fun a n => a * radix + n) 0)

/-- A text that is an IPv4 address, and nothing more. -/
def parseV4 (cs : List Char) : Option (BitVec 32) :=
  match readV4 cs with
  | some (os, []) => some (bits 256 32 os)
  | _ => none

/-- A text that is an IPv6 address, and nothing more. -/
def parseV6 (cs : List Char) : Option (BitVec 128) :=
  match readV6 cs with
  | some (gs, []) => some (bits 65536 128 gs)
  | _ => none

/-- A text that is an address, and nothing more. -/
def parse (cs : List Char) : Option (BitVec 32 ⊕ BitVec 128) :=
  match readV4 cs with
  | some (os, []) => some (.inl (bits 256 32 os))
  | some _ => none
  | none =>
      match readV6 cs with
      | some (gs, []) => some (.inr (bits 65536 128 gs))
      | _ => none

/-- `127.0.0.0/8`, or `::1`. -/
def isLoopback : BitVec 32 ⊕ BitVec 128 → Bool
  | .inl a => a.toNat / 2 ^ 24 == 127
  | .inr a => a == 1

example : (parse "127.9.0.1".toList).map isLoopback = some true := by decide

example : (parse "::ffff:127.0.0.1".toList).map isLoopback = some false := by decide +kernel

example : parse "127.0.0.01".toList = none := by decide +kernel

end IpText
