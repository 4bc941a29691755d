/-
# `WarpProxy.H3.Huffman` — the Huffman coder of the vendored `h3`

`qpack/prefix_string`: the encoder writes each code word into a byte buffer
through a `BitWindow`, part by part and across byte boundaries; the decoder reads
the buffer through another one, a table's worth of bits at a time, and stops when
what is left of the last byte is padding.  The `u32` arithmetic of the source
wraps (`u32`), which input of `2^29` bytes or more would notice.

Each side is related to the bit string of the buffer:

    the encoder's buffer    the words written so far, then ones
    the decoder             `PrefixCode.Tree.walk` on the bits from its window on

so a string comes back from its coding (`hpackDecode_hpackEncode`), and what is
accepted are the words of a string with `Padding` behind them (`hpackDecode_ok_iff`).
-/
import Mathlib.Tactic.Ring
import WarpProxy.H3.HuffmanTable

namespace WarpProxy.H3.Huffman

open PrefixCode BitString

/-! ## `bitwin.rs` -/

/-- The result of `u32` arithmetic. -/
def u32 (n : Nat) : Nat := n % 2 ^ 32

structure BitWindow where
  byte : Nat
  bit : Nat
  count : Nat
  deriving DecidableEq, Repr

namespace BitWindow

def new : BitWindow := ⟨0, 0, 0⟩

def forwards (w : BitWindow) (step : Nat) : BitWindow :=
  let bit := u32 (w.bit + w.count)
  { byte := u32 (w.byte + bit / 8), bit := bit % 8, count := step }

def oppositeBitWindow (w : BitWindow) : BitWindow :=
  { byte := w.byte, bit := w.bit, count := 8 - w.bit % 8 }

/-- The bit the window starts at, and the one after its last. -/
def start (w : BitWindow) : Nat := 8 * w.byte + w.bit

def stop (w : BitWindow) : Nat := 8 * w.byte + w.bit + w.count

/-- What every window of the two coders is, as long as nothing wraps. -/
structure Sane (w : BitWindow) : Prop where
  bit_lt : w.bit < 8
  count_le : w.count ≤ 8

theorem sane_new : new.Sane := ⟨by decide, by decide⟩

theorem forwards_sane (w : BitWindow) {step : Nat} (h : step ≤ 8) : (w.forwards step).Sane :=
  ⟨Nat.mod_lt _ (by decide), h⟩

/-- Going forwards starts where the window stopped. -/
theorem start_forwards {w : BitWindow} (hbit : w.bit + w.count < 2 ^ 32)
    (hstop : w.stop < 2 ^ 34) (step : Nat) : (w.forwards step).start = w.stop := by
  have h₁ : (w.bit + w.count) % 2 ^ 32 = w.bit + w.count := Nat.mod_eq_of_lt hbit
  simp only [stop] at hstop
  have h₂ : (w.byte + (w.bit + w.count) / 8) % 2 ^ 32 = w.byte + (w.bit + w.count) / 8 :=
    Nat.mod_eq_of_lt (by omega)
  simp only [forwards, u32, start, stop, h₁, h₂]
  omega

theorem stop_eq (w : BitWindow) : w.stop = w.start + w.count := rfl

@[simp] theorem count_forwards (w : BitWindow) (step : Nat) : (w.forwards step).count = step :=
  rfl

end BitWindow

/-! ## `encode.rs` -/

namespace Encode

def padRight : List UInt8 := [0, 1, 3, 7, 15, 31, 63, 127, 255]

def padLeft : List UInt8 := [0, 128, 192, 224, 240, 248, 252, 254, 255]

/-- Write the `pos.count` low bits of `value` at the position `(pos.byte, pos.bit)`; the
bits of `out` from there on are ones, and the rest of the last byte written stays so. -/
def writeBits (out : List UInt8) (pos : BitWindow) (value : UInt8) : List UInt8 :=
  if pos.bit + pos.count ≤ 8 then
    let left := out.getD pos.byte 0 ||| padRight.getD (8 - pos.bit) 0
    let shifted := value <<< UInt8.ofNat (8 - pos.bit - pos.count) ||| padLeft.getD pos.bit 0
    let right := padRight.getD (8 - pos.count - pos.bit) 0
    out.set pos.byte (left &&& shifted ||| right)
  else
    let split := 8 - pos.bit
    let left := out.getD pos.byte 0 ||| padRight.getD split 0
    let shifted := value >>> UInt8.ofNat (pos.count - split) ||| padLeft.getD pos.bit 0
    let rem := 8 - (pos.count - split)
    (out.set pos.byte (left &&& shifted)).set (pos.byte + 1)
      (value <<< UInt8.ofNat rem ||| padRight.getD rem 0)

structure HuffmanEncoder where
  bufferPos : BitWindow
  buffer : List UInt8

namespace HuffmanEncoder

def new : HuffmanEncoder := ⟨.new, []⟩

def ensureFreeSpace (e : HuffmanEncoder) (bitCount : Nat) : HuffmanEncoder :=
  let endRange := (e.bufferPos.forwards bitCount).forwards 0
  if endRange.byte < e.buffer.length then e
  else
    let forward := endRange.byte - e.buffer.length + if 0 < endRange.bit then 1 else 0
    { e with buffer := e.buffer ++ List.replicate forward 255 }

/-- The loop of `put` over the parts of a code word. -/
def putParts : Nat → List UInt8 → HuffmanEncoder → HuffmanEncoder
  | _, [], e => e
  | rest, part :: parts, e =>
      let pos := e.bufferPos.forwards (if rest < 8 then rest else 8)
      putParts (rest - pos.count) parts ⟨pos, writeBits e.buffer pos part⟩

def put (e : HuffmanEncoder) (code : UInt8) : HuffmanEncoder :=
  putParts (value code).bitCount (value code).buffer (e.ensureFreeSpace (value code).bitCount)

end HuffmanEncoder

/-- No call of `put` fails. -/
def hpackEncode (bytes : List UInt8) : List UInt8 :=
  (bytes.foldl HuffmanEncoder.put HuffmanEncoder.new).buffer

/-! ### The padding tables and the shifts, bit by bit -/

theorem testBit_padRight {n i : Nat} (hn : n ≤ 8) (hi : i < 8) :
    (padRight.getD n 0).toNat.testBit i = decide (i < n) := by
  have h : ∀ n : Fin 9, ∀ i : Fin 8,
      (padRight.getD n.val 0).toNat.testBit i.val = decide (i.val < n.val) := by decide
  exact h ⟨n, by omega⟩ ⟨i, hi⟩

theorem testBit_padLeft {n i : Nat} (hn : n ≤ 8) (hi : i < 8) :
    (padLeft.getD n 0).toNat.testBit i = decide (8 - n ≤ i) := by
  have h : ∀ n : Fin 9, ∀ i : Fin 8,
      (padLeft.getD n.val 0).toNat.testBit i.val = decide (8 - n.val ≤ i.val) := by decide
  exact h ⟨n, by omega⟩ ⟨i, hi⟩

theorem testBit_shiftLeft (v : UInt8) {k i : Nat} (hk : k < 8) (hi : i < 8) :
    (v <<< UInt8.ofNat k).toNat.testBit i = (decide (k ≤ i) && v.toNat.testBit (i - k)) := by
  have hmod : k % 256 % 8 = k := by omega
  rw [UInt8.toNat_shiftLeft, UInt8.toNat_ofNat', Nat.testBit_mod_two_pow]
  simp [hmod, hi, Nat.testBit_shiftLeft]

theorem testBit_shiftRight (v : UInt8) {k i : Nat} (hk : k < 8) :
    (v >>> UInt8.ofNat k).toNat.testBit i = v.toNat.testBit (i + k) := by
  have hmod : k % 256 % 8 = k := by omega
  rw [UInt8.toNat_shiftRight, UInt8.toNat_ofNat']
  simp [hmod, Nat.testBit_shiftRight, Nat.add_comm]

/-- The byte of a window that ends in the byte it starts in. -/
theorem testBit_within {o v : UInt8} {b c i : Nat} (hfit : b + c ≤ 8) (hc : 0 < c) (hi : i < 8)
    (hones : ∀ i < 8 - b, o.toNat.testBit i = true) :
    (((o ||| padRight.getD (8 - b) 0) &&& (v <<< UInt8.ofNat (8 - b - c) ||| padLeft.getD b 0))
        ||| padRight.getD (8 - c - b) 0).toNat.testBit i
      = if 8 - b - c ≤ i ∧ i < 8 - b then v.toNat.testBit (i - (8 - b - c))
        else o.toNat.testBit i := by
  have hl : 8 - (8 - b) = b := by omega
  simp only [UInt8.toNat_or, UInt8.toNat_and, Nat.testBit_or, Nat.testBit_and]
  rw [testBit_padRight (by omega) hi, testBit_padRight (by omega) hi,
    testBit_padLeft (by omega) hi, testBit_shiftLeft v (by omega) hi]
  have hor : 8 - c - b = 8 - b - c := by omega
  rw [hor]
  by_cases hin : i < 8 - b
  · have hnot : ¬ 8 - b ≤ i := by omega
    have ho := hones i hin
    by_cases hlow : 8 - b - c ≤ i
    · simp [hin, hlow, hnot, ho]
    · have hlt : i < 8 - b - c := by omega
      simp [hlow, hlt, ho]
  · have hge : 8 - b ≤ i := by omega
    have hnot : ¬ i < 8 - b - c := by omega
    simp [hin, hge, hnot]

/-- The first byte of a window that ends in the next one. -/
theorem testBit_first {o v : UInt8} {b c i : Nat} (hb : b < 8) (hc : c ≤ 8) (hover : 8 < b + c)
    (hi : i < 8) :
    ((o ||| padRight.getD (8 - b) 0)
        &&& (v >>> UInt8.ofNat (c - (8 - b)) ||| padLeft.getD b 0)).toNat.testBit i
      = if i < 8 - b then v.toNat.testBit (i + (c - (8 - b))) else o.toNat.testBit i := by
  simp only [UInt8.toNat_or, UInt8.toNat_and, Nat.testBit_or, Nat.testBit_and]
  rw [testBit_padRight (by omega) hi, testBit_padLeft (by omega) hi,
    testBit_shiftRight v (by omega)]
  by_cases hin : i < 8 - b
  · have hnot : ¬ 8 - b ≤ i := by omega
    simp [hin, hnot]
  · have hge : 8 - b ≤ i := by omega
    simp [hin, hge]

/-- The second byte of such a window: what is left of the word, then ones. -/
theorem testBit_second (v : UInt8) {rem i : Nat} (hrem : rem < 8) (hi : i < 8) :
    (v <<< UInt8.ofNat rem ||| padRight.getD rem 0).toNat.testBit i
      = if rem ≤ i then v.toNat.testBit (i - rem) else true := by
  simp only [UInt8.toNat_or, Nat.testBit_or]
  rw [testBit_padRight (by omega) hi, testBit_shiftLeft v hrem hi]
  by_cases hlow : rem ≤ i
  · have hnot : ¬ i < rem := by omega
    simp [hlow, hnot]
  · have hlt : i < rem := by omega
    simp [hlow, hlt]

/-- **The window is written and nothing else**, given that the buffer is ones from the
window's start on. -/
theorem getElem?_writeBits {out : List UInt8} {pos : BitWindow} (v : UInt8) (hpos : pos.Sane)
    (hcount : 0 < pos.count) (hfit : pos.stop ≤ 8 * out.length)
    (hones : ∀ k, pos.start ≤ k → k < 8 * out.length → (ofBytes out)[k]? = some true)
    (k : Nat) :
    (ofBytes (writeBits out pos v))[k]?
      = if pos.start ≤ k ∧ k < pos.stop then some (v.toNat.testBit (pos.stop - 1 - k))
        else (ofBytes out)[k]? := by
  obtain ⟨B, b, c⟩ := pos
  have hb : b < 8 := hpos.bit_lt
  have hc : c ≤ 8 := hpos.count_le
  simp only [BitWindow.start, BitWindow.stop] at hcount hfit hones ⊢
  have hB : B < out.length := by omega
  have ho : out[B]? = some (out.getD B 0) := by simp [hB]
  have htail : ∀ i < 8 - b, (out.getD B 0).toNat.testBit i = true := by
    intro i hi
    have h := hones (8 * B + (7 - i)) (by omega) (by omega)
    have hdiv : (8 * B + (7 - i)) / 8 = B := by omega
    have hmod : 7 - (8 * B + (7 - i)) % 8 = i := by omega
    rw [getElem?_ofBytes, hdiv, hmod, ho] at h
    simpa using h
  simp only [getElem?_ofBytes, writeBits]
  have hi : 7 - k % 8 < 8 := by omega
  by_cases hfits : b + c ≤ 8
  · rw [if_pos hfits]
    by_cases hk : k / 8 = B
    · rw [hk, List.getElem?_set_self hB, ho, Option.map_some,
        testBit_within hfits hcount hi htail]
      by_cases hin : 8 - b - c ≤ 7 - k % 8 ∧ 7 - k % 8 < 8 - b
      · rw [if_pos hin, if_pos (by omega)]
        congr 2
        omega
      · rw [if_neg hin, if_neg (by omega), Option.map_some]
    · rw [List.getElem?_set_ne (by omega), if_neg (by omega)]
  · rw [if_neg hfits]
    by_cases hk : k / 8 = B
    · rw [hk, List.getElem?_set_ne (by omega), List.getElem?_set_self hB, ho, Option.map_some,
        testBit_first hb hc (by omega) hi]
      by_cases hin : 7 - k % 8 < 8 - b
      · rw [if_pos hin, if_pos (by omega)]
        congr 2
        omega
      · rw [if_neg hin, if_neg (by omega), Option.map_some]
    · by_cases hk' : k / 8 = B + 1
      · have hlt : B + 1 < out.length := by omega
        rw [hk', List.getElem?_set_self (by simpa using hlt), Option.map_some,
          testBit_second v (by omega) hi]
        by_cases hlow : 8 - (c - (8 - b)) ≤ 7 - k % 8
        · rw [if_pos hlow, if_pos (by omega)]
          congr 2
          omega
        · have h := hones k (by omega) (by omega)
          rw [getElem?_ofBytes, hk'] at h
          rw [if_neg hlow, if_neg (by omega), h]
      · rw [List.getElem?_set_ne (by omega), List.getElem?_set_ne (by omega), if_neg (by omega)]

@[simp] theorem length_writeBits (out : List UInt8) (pos : BitWindow) (v : UInt8) :
    (writeBits out pos v).length = out.length := by
  unfold writeBits
  split <;> simp

/-- What the buffer holds between two writes: the bits written so far, then ones. -/
def Holds (out : List UInt8) (bits : List Bool) : Prop :=
  ∃ p, ofBytes out = bits ++ List.replicate p true

theorem Holds.writeBits {out : List UInt8} {bits : List Bool} {pos : BitWindow} (v : UInt8)
    (h : Holds out bits) (hpos : pos.Sane) (hcount : 0 < pos.count)
    (hstart : pos.start = bits.length) (hfit : pos.stop ≤ 8 * out.length) :
    Holds (writeBits out pos v) (bits ++ ofNat pos.count v.toNat) := by
  obtain ⟨p, hp⟩ := h
  have hlen : 8 * out.length = bits.length + p := by
    simpa using congrArg List.length hp
  have hstop : pos.stop = pos.start + pos.count := rfl
  refine ⟨p - pos.count, List.ext_getElem? fun k => ?_⟩
  have hones : ∀ k, pos.start ≤ k → k < 8 * out.length → (ofBytes out)[k]? = some true := by
    intro k hge hlt
    have hlt' : k - bits.length < p := by omega
    rw [hp, List.getElem?_append_right (by omega), List.getElem?_replicate, if_pos hlt']
  rw [getElem?_writeBits v hpos hcount hfit hones, hp]
  simp only [List.getElem?_append, List.length_append, length_ofNat, getElem?_ofNat,
    List.getElem?_replicate]
  by_cases h₁ : k < bits.length
  · have hin : ¬(pos.start ≤ k ∧ k < pos.stop) := by omega
    have hlt : k < bits.length + pos.count := by omega
    simp [h₁, hin, hlt]
  · by_cases h₂ : k < pos.stop
    · have hin : pos.start ≤ k ∧ k < pos.stop := by omega
      have hlt : k < bits.length + pos.count := by omega
      have hsub : k - bits.length < pos.count := by omega
      have hidx : pos.stop - 1 - k = pos.count - 1 - (k - bits.length) := by omega
      simp [h₁, hin, hlt, hsub, hidx]
    · have hin : ¬(pos.start ≤ k ∧ k < pos.stop) := by omega
      have hlt : ¬k < bits.length + pos.count := by omega
      have hrest : k - bits.length < p ↔ k - (bits.length + pos.count) < p - pos.count := by omega
      simp [h₁, hin, hlt, hrest]

/-! ### A whole message -/

/-- The encoder after `bits`: its buffer has no byte more than they need. -/
structure Inv (e : HuffmanEncoder) (bits : List Bool) : Prop where
  sane : e.bufferPos.Sane
  stop : e.bufferPos.stop = bits.length
  length : e.buffer.length = (bits.length + 7) / 8
  holds : Holds e.buffer bits

theorem inv_new : Inv HuffmanEncoder.new [] :=
  ⟨BitWindow.sane_new, rfl, rfl, 0, rfl⟩

theorem ofBytes_replicate_ones (n : Nat) :
    ofBytes (List.replicate n 255) = List.replicate (8 * n) true := by
  induction n with
  | zero => rfl
  | succ n ih =>
      have hone : ofNat 8 (255 : UInt8).toNat = List.replicate 8 true := by decide
      have hsucc : 8 * (n + 1) = 8 + 8 * n := by omega
      rw [List.replicate_succ, ofBytes_cons, ih, hone, List.replicate_append_replicate, hsucc]

/-- Free space is filled with ones, up to the byte of the last bit to come. -/
theorem ensureFreeSpace_spec {e : HuffmanEncoder} {bits : List Bool} {n : Nat} (h : Inv e bits)
    (hlen : e.buffer.length < 2 ^ 29) (hn : n ≤ 30) :
    (e.ensureFreeSpace n).bufferPos = e.bufferPos
      ∧ (e.ensureFreeSpace n).buffer.length = (bits.length + n + 7) / 8
      ∧ Holds (e.ensureFreeSpace n).buffer bits := by
  have hbit := h.sane.bit_lt
  have hcount := h.sane.count_le
  have hstop := h.stop
  have hlength := h.length
  have hstart := BitWindow.start_forwards (w := e.bufferPos) (by omega) (by omega) n
  have hmod : (e.bufferPos.forwards n).bit < 8 := Nat.mod_lt _ (by decide)
  have hend := BitWindow.start_forwards (w := e.bufferPos.forwards n)
    (by rw [BitWindow.count_forwards]; omega)
    (by rw [BitWindow.stop_eq, BitWindow.count_forwards]; omega) 0
  have hmod' : ((e.bufferPos.forwards n).forwards 0).bit < 8 := Nat.mod_lt _ (by decide)
  have hbits : ((e.bufferPos.forwards n).forwards 0).start = bits.length + n := by
    rw [hend, BitWindow.stop_eq, hstart, hstop, BitWindow.count_forwards]
  simp only [BitWindow.start] at hbits
  simp only [HuffmanEncoder.ensureFreeSpace]
  by_cases hfree : ((e.bufferPos.forwards n).forwards 0).byte < e.buffer.length
  · rw [if_pos hfree]
    exact ⟨rfl, by omega, h.holds⟩
  · rw [if_neg hfree]
    refine ⟨rfl, ?_, ?_⟩
    · simp only [List.length_append, List.length_replicate]
      split <;> omega
    · obtain ⟨p, hp⟩ := h.holds
      rw [Holds]
      simp only [ofBytes_append, hp, ofBytes_replicate_ones, List.append_assoc,
        List.replicate_append_replicate]
      exact ⟨_, rfl⟩

theorem length_wordFrom {parts : List UInt8} {rest : Nat} (hfills : fills rest parts = true) :
    (wordFrom rest parts).length = rest := by
  induction parts generalizing rest with
  | nil =>
      have hrest : rest = 0 := by simpa [fills] using hfills
      simp [wordFrom, hrest]
  | cons part parts ih =>
      simp only [fills, Bool.and_eq_true, decide_eq_true_eq] at hfills
      simp only [wordFrom, List.length_append, length_ofNat, ih hfills.2]
      split <;> omega

/-- The parts of a code word are written one after the other. -/
theorem putParts_spec {parts : List UInt8} {rest : Nat} (hfills : fills rest parts = true)
    {e : HuffmanEncoder} {bits : List Bool} (hsane : e.bufferPos.Sane)
    (hstop : e.bufferPos.stop = bits.length) (hholds : Holds e.buffer bits)
    (hfit : bits.length + rest ≤ 8 * e.buffer.length) (hlen : 8 * e.buffer.length < 2 ^ 34) :
    let e' := HuffmanEncoder.putParts rest parts e
    let bits' := bits ++ wordFrom rest parts
    e'.bufferPos.Sane ∧ e'.bufferPos.stop = bits'.length
      ∧ e'.buffer.length = e.buffer.length ∧ Holds e'.buffer bits' := by
  induction parts generalizing rest e bits with
  | nil =>
      have hrest : rest = 0 := by simpa [fills] using hfills
      subst hrest
      simpa [HuffmanEncoder.putParts, wordFrom] using ⟨hsane, hstop, hholds⟩
  | cons part parts ih =>
      simp only [fills, Bool.and_eq_true, decide_eq_true_eq] at hfills
      obtain ⟨hpos, hfills⟩ := hfills
      have hbit := hsane.bit_lt
      have hcount := hsane.count_le
      generalize hc : (if rest < 8 then rest else 8) = count at *
      have hc₁ : count ≤ 8 ∧ count ≤ rest ∧ 0 < count := by
        rw [← hc]
        split <;> omega
      have hstart := BitWindow.start_forwards (w := e.bufferPos) (by omega) (by omega) count
      have hfit' : (e.bufferPos.forwards count).stop ≤ 8 * e.buffer.length := by
        rw [BitWindow.stop_eq, hstart, BitWindow.count_forwards]
        omega
      have hwrite := hholds.writeBits part (e.bufferPos.forwards_sane hc₁.1)
        (by simpa using hc₁.2.2) (by rw [hstart, hstop]) hfit'
      have hnext := ih hfills (e := ⟨e.bufferPos.forwards count,
          Encode.writeBits e.buffer (e.bufferPos.forwards count) part⟩)
        (e.bufferPos.forwards_sane hc₁.1)
        (by
          rw [BitWindow.stop_eq, hstart, hstop]
          simp) hwrite
        (by simp; omega) (by simpa using hlen)
      simp only [HuffmanEncoder.putParts, wordFrom, hc, BitWindow.count_forwards,
        length_writeBits, List.length_append, length_ofNat, List.append_assoc] at hnext ⊢
      obtain ⟨h₁, h₂, h₃, h₄⟩ := hnext
      exact ⟨h₁, by omega, h₃, h₄⟩

theorem all_bitCount_le : ∀ v ∈ hpackString, v.bitCount ≤ 30 := by
  decide +kernel

theorem bitCount_le (code : UInt8) : (value code).bitCount ≤ 30 :=
  all_bitCount_le _ (List.get_mem ..)

theorem Inv.put {e : HuffmanEncoder} {bits : List Bool} (h : Inv e bits)
    (hlen : e.buffer.length < 2 ^ 29) (code : UInt8) : Inv (e.put code) (bits ++ word code) := by
  obtain ⟨hpos, hlength, hholds⟩ := ensureFreeSpace_spec h hlen (bitCount_le code)
  have hle := bitCount_le code
  have hl := h.length
  obtain ⟨h₁, h₂, h₃, h₄⟩ :=
    @putParts_spec _ _ (value_fills code) (e.ensureFreeSpace (value code).bitCount) bits
    (by rw [hpos]; exact h.sane) (by rw [hpos]; exact h.stop) hholds (by omega) (by omega)
  refine ⟨h₁, h₂, ?_, h₄⟩
  rw [HuffmanEncoder.put, h₃, hlength, word, List.length_append,
    length_wordFrom (value_fills code)]

theorem length_putParts (parts : List UInt8) (rest : Nat) (e : HuffmanEncoder) :
    (HuffmanEncoder.putParts rest parts e).buffer.length = e.buffer.length := by
  induction parts generalizing rest e with
  | nil => rfl
  | cons part parts ih => simp [HuffmanEncoder.putParts, ih]

/-- The buffer never shrinks. -/
theorem length_le_put (e : HuffmanEncoder) (code : UInt8) :
    e.buffer.length ≤ (e.put code).buffer.length := by
  simp only [HuffmanEncoder.put, length_putParts, HuffmanEncoder.ensureFreeSpace]
  split <;> simp

theorem Inv.foldl {e : HuffmanEncoder} {bits : List Bool} (h : Inv e bits) (bytes : List UInt8)
    (hlen : (bytes.foldl HuffmanEncoder.put e).buffer.length < 2 ^ 29) :
    Inv (bytes.foldl HuffmanEncoder.put e) (bits ++ bytes.flatMap word) := by
  induction bytes generalizing e bits with
  | nil => simpa using h
  | cons code bytes ih =>
      have hmono : ∀ (bytes : List UInt8) (e : HuffmanEncoder),
          e.buffer.length ≤ (bytes.foldl HuffmanEncoder.put e).buffer.length := by
        intro bytes
        induction bytes with
        | nil => intro e; exact Nat.le_refl _
        | cons code bytes ih => intro e; exact (length_le_put e code).trans (ih _)
      have hnow : e.buffer.length < 2 ^ 29 := Nat.lt_of_le_of_lt (hmono _ e) hlen
      simpa using ih (h.put hnow code) hlen

/-- **What the encoder writes**: the words of the bytes, then less than a byte of ones. -/
theorem ofBytes_hpackEncode (bytes : List UInt8) (hlen : (hpackEncode bytes).length < 2 ^ 29) :
    ∃ p < 8, ofBytes (hpackEncode bytes) = bytes.flatMap word ++ List.replicate p true := by
  have h := inv_new.foldl bytes hlen
  simp only [List.nil_append] at h
  obtain ⟨p, hp⟩ := h.holds
  have hcount := congrArg List.length hp
  simp only [length_ofBytes, List.length_append, List.length_replicate] at hcount
  have hl := h.length
  exact ⟨p, by omega, hp⟩

/-- No code word has more than 30 bits. -/
theorem length_word_le (code : UInt8) : (word code).length ≤ 30 := by
  rw [word, length_wordFrom (value_fills code)]
  exact bitCount_le code

/-- A string that is not huge has a coding that is not. -/
theorem length_hpackEncode_lt {bytes : List UInt8} (h : bytes.length < 2 ^ 27) :
    (hpackEncode bytes).length < 2 ^ 29 - 1 := by
  have hrun : ∀ {bytes : List UInt8} {e : HuffmanEncoder} {bits : List Bool}, Inv e bits →
      bits.length + 30 * bytes.length < 2 ^ 32 - 16 →
      (bytes.foldl HuffmanEncoder.put e).buffer.length < 2 ^ 29 - 1 := by
    intro bytes
    induction bytes with
    | nil =>
        intro e bits hinv hlen
        have hl := hinv.length
        simp only [List.foldl_nil, List.length_nil] at hlen ⊢
        omega
    | cons code bytes ih =>
        intro e bits hinv hlen
        have hl := hinv.length
        have hw := length_word_le code
        simp only [List.length_cons] at hlen
        exact ih (hinv.put (by omega) code) (by simp only [List.length_append]; omega)
  exact hrun inv_new (by simp only [List.length_nil]; omega)

end Encode

/-! ## `decode.rs` -/

namespace Decode

inductive Error where
  | missingBits (pos : BitWindow)
  | unhandled (pos : BitWindow) (value : Nat)
  deriving DecidableEq, Repr

/-- The `len` bits at a position; an index out of range would panic. -/
def readBits (src : List UInt8) (byteOffset bitOffset len : Nat) : Option UInt8 :=
  if len = 0 ∨ 8 < len
      ∨ u32 (u32 src.length * 8) < u32 (u32 (u32 (byteOffset * 8) + bitOffset) + len) then
    none
  else
    let byte := u32 (byteOffset + bitOffset / 8)
    let bit := bitOffset - bitOffset / 8 * 8
    if bit + len ≤ 8 then
      some ((src.getD byte 0 <<< UInt8.ofNat bit) >>> UInt8.ofNat (8 - len))
    else
      let result := (src.getD byte 0).toUInt16 <<< 8 ||| (src.getD (byte + 1) 0).toUInt16
      some ((result <<< UInt16.ofNat bit) >>> UInt16.ofNat (16 - len)).toUInt8

/-- Whether the end of the input was to be expected: it is, if the last byte is over or
what is left of it are ones. -/
def checkEof (pos : BitWindow) (input : List UInt8) : Except Error (Option Nat) :=
  match compare (u32 (pos.byte + 1)) input.length with
  | .gt => .ok none
  | .eq =>
      let side := pos.oppositeBitWindow
      match readBits input side.byte side.bit side.count with
      | none => .error (.missingBits side)
      | some rest =>
          let eofFiller := UInt8.ofNat (2 * 2 ^ (side.count - 1) - 1)
          if rest &&& eofFiller = eofFiller then .ok none else .error (.missingBits pos)
  | .lt => .error (.missingBits pos)

def fetchValue (pos : BitWindow) (input : List UInt8) : Except Error (Option Nat) :=
  match readBits input pos.byte pos.bit pos.count with
  | some value => .ok (some value.toNat)
  | none => checkEof pos input

mutual

/-- The result, and the window it leaves. -/
def decodeNext (input : List UInt8) :
    DecodeValue → BitWindow → Except Error (Option UInt8) × BitWindow
  | .leaf x, pos => (.ok (some x), pos)
  | .node lookup table, pos =>
      let pos := pos.forwards lookup
      match fetchValue pos input with
      | .ok (some value) => decodeAt input table value value pos
      | .ok none => (.ok none, pos)
      | .error err => (.error err, pos)

/-- `table.get(value)`, and what follows it. -/
def decodeAt (input : List UInt8) :
    List DecodeValue → Nat → Nat → BitWindow → Except Error (Option UInt8) × BitWindow
  | [], _, value, pos => (.error (.unhandled pos value), pos)
  | t :: _, 0, _, pos => decodeNext input t pos
  | _ :: ts, i + 1, value, pos => decodeAt input ts i value pos

end

/-- The loop over a `DecodeIter`.  Each symbol takes a bit at least, so the fuel of
`hpackDecode` is enough (`decodeIter_ok_iff`). -/
def decodeIter (input : List UInt8) : Nat → BitWindow → Except Error (List UInt8)
  | 0, pos => .error (.missingBits pos)
  | fuel + 1, pos =>
      match decodeNext input hpackString pos with
      | (.ok (some x), pos) => (x :: ·) <$> decodeIter input fuel pos
      | (.ok none, _) => .ok []
      | (.error err, _) => .error err

def hpackDecode (input : List UInt8) : Except Error (List UInt8) :=
  decodeIter input (8 * input.length + 1) .new

/-! ### Reading bits -/

theorem toNat_shifts8 (x : UInt8) {bit len : Nat} (hlen : 0 < len) (h : bit + len ≤ 8) :
    ((x <<< UInt8.ofNat bit) >>> UInt8.ofNat (8 - len)).toNat
      = x.toNat / 2 ^ (8 - bit - len) % 2 ^ len := by
  have hb : bit % 256 % 8 = bit := by omega
  have hl : (8 - len) % 256 % 8 = 8 - len := by omega
  rw [UInt8.toNat_shiftRight, UInt8.toNat_shiftLeft, UInt8.toNat_ofNat', UInt8.toNat_ofNat', hb,
    hl, Nat.shiftLeft_eq, Nat.shiftRight_eq_div_pow, shl_shr _ h]

theorem toNat_shifts16 (x y : UInt8) {bit len : Nat} (hlen : 0 < len) (hlen8 : len ≤ 8)
    (hbit : bit < 8) :
    ((((x.toUInt16 <<< 8 ||| y.toUInt16) <<< UInt16.ofNat bit)
        >>> UInt16.ofNat (16 - len)).toUInt8).toNat
      = (x.toNat * 2 ^ 8 + y.toNat) / 2 ^ (8 + 8 - bit - len) % 2 ^ len := by
  have hb : bit % 65536 % 16 = bit := by omega
  have hl : (16 - len) % 65536 % 16 = 16 - len := by omega
  have hx := x.toNat_lt
  have hy := y.toNat_lt
  have hor : (x.toUInt16 <<< 8 ||| y.toUInt16).toNat = x.toNat * 2 ^ 8 + y.toNat := by
    have hmod : x.toNat * 2 ^ 8 % 2 ^ 16 = x.toNat * 2 ^ 8 := Nat.mod_eq_of_lt (by omega)
    have hshift := Nat.shiftLeft_add_eq_or_of_lt (i := 8) hy x.toNat
    simp only [Nat.shiftLeft_eq] at hshift
    rw [UInt16.toNat_or, UInt16.toNat_shiftLeft, UInt8.toNat_toUInt16, UInt8.toNat_toUInt16]
    simp only [UInt16.reduceToNat, Nat.reduceMod, Nat.shiftLeft_eq, hmod, ← hshift]
  have hpow : 2 ^ len ≤ 2 ^ 8 := Nat.pow_le_pow_right (by decide) hlen8
  have hlt : (x.toNat * 2 ^ 8 + y.toNat) / 2 ^ (8 + 8 - bit - len) % 2 ^ len < 2 ^ len :=
    Nat.mod_lt _ (Nat.two_pow_pos len)
  rw [UInt16.toNat_toUInt8, UInt16.toNat_shiftRight, UInt16.toNat_shiftLeft,
    UInt16.toNat_ofNat', UInt16.toNat_ofNat', hb, hl, Nat.shiftLeft_eq,
    Nat.shiftRight_eq_div_pow, hor, shl_shr _ (by omega)]
  exact Nat.mod_eq_of_lt (by omega)

theorem ofBytes_drop_eq {src : List UInt8} {byte : Nat} {x : UInt8}
    (h : src[byte]? = some x) :
    ofBytes (src.drop byte) = ofNat 8 x.toNat ++ ofBytes (src.drop (byte + 1)) := by
  obtain ⟨hlt, hx⟩ := List.getElem?_eq_some_iff.mp h
  rw [List.drop_eq_getElem_cons hlt, hx, ofBytes_cons]

/-- **What is read are the bits at the position**, if there are so many. -/
theorem readBits_eq {src : List UInt8} (byte bit len : Nat) (hsrc : 8 * src.length + 8 < 2 ^ 32)
    (hbit : bit < 8) (hlen : 0 < len) (hlen8 : len ≤ 8)
    (hfit : 8 * byte + bit + len ≤ 8 * src.length) :
    (readBits src byte bit len).map UInt8.toNat
      = some (toNat (((ofBytes src).drop (8 * byte + bit)).take len)) := by
  have h₁ : ¬ (len = 0 ∨ 8 < len
      ∨ u32 (u32 src.length * 8) < u32 (u32 (u32 (byte * 8) + bit) + len)) := by
    simp only [u32]
    omega
  have hdiv : bit / 8 = 0 := by omega
  have hbyte : u32 (byte + 0) = byte := by
    simp only [u32]
    omega
  have hb : byte < src.length := by omega
  have hx : src[byte]? = some (src.getD byte 0) := by simp [hb]
  simp only [readBits, if_neg h₁, hdiv, hbyte, Nat.zero_mul, Nat.sub_zero]
  rw [← List.drop_drop, drop_ofBytes, ofBytes_drop_eq hx]
  by_cases hwithin : bit + len ≤ 8
  · rw [if_pos hwithin, Option.map_some, toNat_shifts8 _ hlen hwithin,
      List.drop_append_of_le_length (by simp; omega), drop_ofNat (by omega),
      List.take_append_of_le_length (by simp; omega), take_ofNat (by omega), toNat_ofNat]
  · have hy : src[byte + 1]? = some (src.getD (byte + 1) 0) := by
      have hlt : byte + 1 < src.length := by omega
      simp [hlt]
    rw [if_neg hwithin, Option.map_some, toNat_shifts16 _ _ hlen hlen8 hbit, ofBytes_drop_eq hy,
      ← List.append_assoc, ofNat_append 8 8 _ _ (UInt8.toNat_lt _),
      List.drop_append_of_le_length (by simp; omega), drop_ofNat (by omega),
      List.take_append_of_le_length (by simp; omega), take_ofNat (by omega), toNat_ofNat]

/-- Nothing is read past the end. -/
theorem readBits_none {src : List UInt8} (byte bit len : Nat)
    (hsrc : 8 * src.length + 8 < 2 ^ 32) (hlen8 : len ≤ 8)
    (hstart : 8 * byte + bit ≤ 8 * src.length)
    (hover : 8 * src.length < 8 * byte + bit + len) : readBits src byte bit len = none := by
  have h : len = 0 ∨ 8 < len
      ∨ u32 (u32 src.length * 8) < u32 (u32 (u32 (byte * 8) + bit) + len) := by
    simp only [u32]
    omega
  simp only [readBits, if_pos h]

/-! ### One symbol -/

/-- The result of `decode_next` is that of the descent. -/
inductive Agrees (input : List UInt8) :
    Walk UInt8 → Except Error (Option UInt8) × BitWindow → Prop
  | sym {a : UInt8} {rest : List Bool} {pos : BitWindow} : pos.Sane →
      pos.stop ≤ 8 * input.length → rest = (ofBytes input).drop pos.stop →
      Agrees input (.sym a rest) (.ok (some a), pos)
  | padding {n : Nat} {pos : BitWindow} :
      Agrees input (.short (List.replicate n true)) (.ok none, pos)
  | missing {rest : List Bool} {pos pos' : BitWindow} : (∀ n, rest ≠ List.replicate n true) →
      Agrees input (.short rest) (.error (.missingBits pos'), pos)
  | unhandled {value : Nat} {pos pos' : BitWindow} :
      Agrees input .unhandled (.error (.unhandled pos' value), pos)

theorem toNat_replicate_ones (n : Nat) : toNat (List.replicate n true) = 2 ^ n - 1 := by
  induction n with
  | zero => rfl
  | succ n ih =>
      have hpos := Nat.two_pow_pos n
      rw [List.replicate_succ, toNat_cons, ih, List.length_replicate, Nat.pow_succ]
      simp only [Bool.toNat_true]
      omega

/-- The bits of a number are all ones if the number is the greatest. -/
theorem eq_replicate_of_toNat {bits : List Bool} (h : toNat bits = 2 ^ bits.length - 1) :
    bits = List.replicate bits.length true := by
  induction bits with
  | nil => rfl
  | cons b bits ih =>
      have hlt := toNat_lt bits
      have hpos := Nat.two_pow_pos bits.length
      rw [toNat_cons, List.length_cons, Nat.pow_succ] at h
      cases b with
      | false =>
          simp only [Bool.toNat_false] at h
          omega
      | true =>
          simp only [Bool.toNat_true] at h
          have hrest : toNat bits = 2 ^ bits.length - 1 := by omega
          rw [List.length_cons, List.replicate_succ, ← ih hrest]

/-- The filler is the mask of all ones. -/
theorem and_filler {x : UInt8} {n : Nat} (hn : 0 < n) (hn8 : n ≤ 8) (hx : x.toNat < 2 ^ n) :
    x &&& UInt8.ofNat (2 * 2 ^ (n - 1) - 1) = UInt8.ofNat (2 * 2 ^ (n - 1) - 1)
      ↔ x.toNat = 2 ^ n - 1 := by
  have hpow : 2 * 2 ^ (n - 1) = 2 ^ n := by
    rw [← Nat.pow_succ']
    congr 1
    omega
  have hle : 2 ^ n ≤ 2 ^ 8 := Nat.pow_le_pow_right (by decide) hn8
  have hmod : (2 ^ n - 1) % 2 ^ 8 = 2 ^ n - 1 := Nat.mod_eq_of_lt (by omega)
  rw [hpow, ← UInt8.toNat_inj, UInt8.toNat_and, UInt8.toNat_ofNat', hmod,
    Nat.and_two_pow_sub_one_eq_mod, Nat.mod_eq_of_lt hx]

/-- At the end of the input, only ones may be left. -/
theorem checkEof_eq {input : List UInt8} (pos : BitWindow) (hsrc : 8 * input.length + 8 < 2 ^ 32)
    (hbit : pos.bit < 8) (hstart : pos.start ≤ 8 * input.length)
    (hover : 8 * input.length < pos.start + 8) {rest : List Bool}
    (hrest : rest = (ofBytes input).drop pos.start) :
    (checkEof pos input = .ok none ∧ rest = List.replicate rest.length true)
      ∨ (checkEof pos input = .error (.missingBits pos) ∧ ∀ n, rest ≠ List.replicate n true) := by
  obtain ⟨B, b, c⟩ := pos
  have hb : b < 8 := hbit
  simp only [BitWindow.start] at hstart hover hrest
  have hlen : rest.length = 8 * input.length - (8 * B + b) := by simp [hrest]
  have hbyte : u32 (B + 1) = B + 1 := by
    simp only [u32]
    omega
  by_cases hend : 8 * B + b = 8 * input.length
  · -- the position is behind the last byte
    have hcmp : compare (B + 1) input.length = .gt := compare_gt_iff_gt.mpr (by omega)
    have hnil : rest = [] := List.length_eq_zero_iff.mp (by omega)
    exact .inl ⟨by simp only [checkEof, hbyte, hcmp], by simp [hnil]⟩
  · have hcmp : compare (B + 1) input.length = .eq := compare_eq_iff_eq.mpr (by omega)
    have hmod : 8 - b % 8 = 8 - b := by omega
    have hread := readBits_eq B b (8 - b) hsrc hb
      (by omega) (by omega) (by omega)
    have htake : ((ofBytes input).drop (8 * B + b)).take (8 - b) = rest := by
      rw [← hrest]
      exact List.take_of_length_le (by omega)
    rw [htake] at hread
    obtain ⟨x, hx, hval⟩ := Option.map_eq_some_iff.mp hread
    have hlt : x.toNat < 2 ^ (8 - b) := by
      have h := toNat_lt rest
      have hl : rest.length = 8 - b := by omega
      rw [hval, ← hl]
      exact h
    have hfill := and_filler (by omega) (by omega) hlt
    simp only [checkEof, hbyte, hcmp, BitWindow.oppositeBitWindow, hmod, hx]
    by_cases hones : x.toNat = 2 ^ (8 - b) - 1
    · refine .inl ⟨by rw [if_pos (hfill.mpr hones)], eq_replicate_of_toNat ?_⟩
      rw [← hval, hones]
      congr 2
      omega
    · refine .inr ⟨by rw [if_neg fun h => hones (hfill.mp h)], fun n hn => hones ?_⟩
      have hl : n = 8 - b := by
        have := congrArg List.length hn
        simp only [List.length_replicate] at this
        omega
      rw [hval, hn, toNat_replicate_ones, hl]

mutual

theorem decodeNext_agrees {input : List UInt8} (hsrc : 8 * input.length + 8 < 2 ^ 32) :
    ∀ {t : DecodeValue} {pos : BitWindow}, t.lookupsIn 8 = true → pos.Sane →
      pos.stop ≤ 8 * input.length →
      Agrees input (t.walk ((ofBytes input).drop pos.stop)) (decodeNext input t pos)
  | .leaf a, pos, _, hpos, hstop => by
      simp only [Tree.walk, decodeNext]
      exact .sym hpos hstop rfl
  | .node lookup table, pos, ht, hpos, hstop => by
      simp only [Tree.lookupsIn, Bool.and_eq_true, decide_eq_true_eq] at ht
      obtain ⟨⟨hlookup, hle⟩, htable⟩ := ht
      have hbit := hpos.bit_lt
      have hcount := hpos.count_le
      have hstart := BitWindow.start_forwards (w := pos) (by omega) (by omega) lookup
      have hsane := pos.forwards_sane hle
      generalize hpos' : pos.forwards lookup = pos' at *
      have hcount' : pos'.count = lookup := by rw [← hpos', BitWindow.count_forwards]
      have hlen : ((ofBytes input).drop pos.stop).length = 8 * input.length - pos.stop := by simp
      simp only [Tree.walk, decodeNext, hpos', fetchValue]
      simp only [BitWindow.start] at hstart
      by_cases hshort : 8 * input.length - pos.stop < lookup
      · -- too few bits for a lookup
        have hnone := readBits_none pos'.byte pos'.bit pos'.count hsrc (by omega) (by omega)
          (by omega)
        rw [if_pos (by omega), hnone]
        rcases checkEof_eq pos' hsrc hsane.bit_lt (by simp only [BitWindow.start]; omega)
          (by simp only [BitWindow.start]; omega) rfl with ⟨heof, hones⟩ | ⟨heof, hnot⟩
        · simp only [heof]
          simp only [BitWindow.start, hstart] at hones
          rw [hones]
          exact .padding
        · simp only [heof]
          simp only [BitWindow.start, hstart] at hnot
          exact .missing hnot
      · have hread := readBits_eq pos'.byte pos'.bit pos'.count hsrc hsane.bit_lt (by omega)
          (by omega) (by omega)
        obtain ⟨x, hx, hval⟩ := Option.map_eq_some_iff.mp hread
        rw [hstart, hcount'] at hval
        have hstop' : pos'.stop = pos.stop + lookup := by
          rw [BitWindow.stop_eq, BitWindow.start, hstart, hcount']
        have hdrop : ((ofBytes input).drop pos.stop).drop lookup
            = (ofBytes input).drop pos'.stop := by
          rw [List.drop_drop, hstop']
        rw [if_neg (by omega), hx]
        simp only
        rw [← hval, hdrop]
        exact decodeAt_agrees hsrc htable hsane (by omega)

theorem decodeAt_agrees {input : List UInt8} (hsrc : 8 * input.length + 8 < 2 ^ 32) :
    ∀ {ts : List DecodeValue} {i value : Nat} {pos : BitWindow}, allLookupsIn 8 ts = true →
      pos.Sane → pos.stop ≤ 8 * input.length →
      Agrees input (walkAt ts i ((ofBytes input).drop pos.stop)) (decodeAt input ts i value pos)
  | [], _, _, _, _, _, _ => by
      simp only [walkAt, decodeAt]
      exact .unhandled
  | t :: ts, 0, _, _, ht, hpos, hstop => by
      simp only [allLookupsIn, Bool.and_eq_true] at ht
      simp only [walkAt, decodeAt]
      exact decodeNext_agrees hsrc ht.1 hpos hstop
  | t :: ts, i + 1, _, _, ht, hpos, hstop => by
      simp only [allLookupsIn, Bool.and_eq_true] at ht
      simp only [walkAt, decodeAt]
      exact decodeAt_agrees hsrc ht.2 hpos hstop

end

/-! ### A whole string -/

theorem hpackString_lookups : hpackString.lookupsIn 8 = true := by
  decide

/-- A symbol takes a bit at least. -/
theorem walk_hpackString_lt {a : UInt8} {bits rest : List Bool}
    (h : hpackString.walk bits = .sym a rest) : rest.length < bits.length :=
  Tree.walk_length_lt (by decide : 0 < 5) h

/-- The tree spells the bits as `bytes`, and is left with ones too few for a lookup. -/
def Spelled (bits : List Bool) (bytes : List UInt8) : Prop :=
  ∃ tail n, Spells hpackString bits bytes tail
    ∧ hpackString.walk tail = .short (List.replicate n true)

theorem decodeIter_ok_iff {input : List UInt8} (hsrc : 8 * input.length + 8 < 2 ^ 32)
    (fuel : Nat) {pos : BitWindow} (hpos : pos.Sane) (hstop : pos.stop ≤ 8 * input.length)
    (hfuel : 8 * input.length - pos.stop < fuel) (bytes : List UInt8) :
    decodeIter input fuel pos = .ok bytes ↔ Spelled ((ofBytes input).drop pos.stop) bytes := by
  induction fuel generalizing pos bytes with
  | zero => omega
  | succ fuel ih =>
      have h := decodeNext_agrees hsrc hpackString_lookups hpos hstop
      generalize hwalk : hpackString.walk ((ofBytes input).drop pos.stop) = w at h
      generalize hres : decodeNext input hpackString pos = res at h
      cases h with
      | @sym a rest pos' hpos' hstop' hrest =>
          have hlt := walk_hpackString_lt hwalk
          have hnext := ih hpos' hstop' (by simp [hrest] at hlt; omega)
          simp only [decodeIter, hres]
          constructor
          · intro hok
            cases hrec : decodeIter input fuel pos' with
            | error e => simp [hrec] at hok
            | ok bytes' =>
                obtain ⟨tail, n, hspell, htail⟩ := (hnext bytes').mp hrec
                have hbytes : a :: bytes' = bytes := by simpa [hrec] using hok
                rw [← hrest] at hspell
                exact ⟨tail, n, hbytes ▸ .sym hwalk hspell, htail⟩
          · rintro ⟨tail, n, hspell, htail⟩
            cases hspell with
            | stop hnot => exact absurd hwalk (hnot a rest)
            | @sym _ rest' _ a' bytes' hwalk' hspell =>
                rw [hwalk, Walk.sym.injEq] at hwalk'
                obtain ⟨rfl, rfl⟩ := hwalk'
                rw [hrest] at hspell
                rw [(hnext bytes').mpr ⟨tail, n, hspell, htail⟩]
                rfl
      | @padding n pos' =>
          simp only [decodeIter, hres, Except.ok.injEq]
          constructor
          · intro hnil
            exact ⟨_, n, hnil ▸ .stop (by simp [hwalk]), hwalk⟩
          · rintro ⟨tail, n', hspell, htail⟩
            cases hspell with
            | stop hnot => rfl
            | sym hwalk' hspell => rw [hwalk] at hwalk'; cases hwalk'
      | missing hnot =>
          simp only [decodeIter, hres, reduceCtorEq, false_iff]
          rintro ⟨tail, n', hspell, htail⟩
          cases hspell with
          | stop _ =>
              rw [hwalk, Walk.short.injEq] at htail
              exact hnot n' htail
          | sym hwalk' hspell => rw [hwalk] at hwalk'; cases hwalk'
      | unhandled =>
          simp only [decodeIter, hres, reduceCtorEq, false_iff]
          rintro ⟨tail, n', hspell, htail⟩
          cases hspell with
          | stop _ => rw [hwalk] at htail; cases htail
          | sym hwalk' hspell => rw [hwalk] at hwalk'; cases hwalk'

/-- What may follow the last word: bits that lead to one of the tables, then ones, fewer than it
looks at. -/
def Padding (tail : List Bool) : Prop :=
  ∃ path lookup table n, hpackString.Leads path (.node lookup table) ∧ n < lookup ∧
    tail = path ++ List.replicate n true

theorem padding_iff {tail : List Bool} :
    Padding tail ↔ ∃ n, hpackString.walk tail = .short (List.replicate n true) := by
  simp only [Padding, Tree.walk_eq_short, List.length_replicate]
  constructor
  · rintro ⟨path, lookup, table, n, h⟩
    exact ⟨n, path, lookup, table, h⟩
  · rintro ⟨n, path, lookup, table, h⟩
    exact ⟨path, lookup, table, n, h⟩

theorem spelled_iff {bits : List Bool} {bytes : List UInt8} : Spelled bits bytes ↔
    ∃ tail, bits = bytes.flatMap Encode.word ++ tail ∧ Padding tail := by
  constructor
  · rintro ⟨tail, n, hspells, htail⟩
    exact ⟨tail, ((spells_iff codes).mp hspells).1, padding_iff.mpr ⟨n, htail⟩⟩
  · rintro ⟨tail, hbits, hpadding⟩
    obtain ⟨n, htail⟩ := padding_iff.mp hpadding
    exact ⟨tail, n, (spells_iff codes).mpr ⟨hbits, by simp [htail]⟩, htail⟩

/-- **What the decoder accepts**, and as what. -/
theorem hpackDecode_ok_iff {input : List UInt8} (hsrc : 8 * input.length + 8 < 2 ^ 32)
    (bytes : List UInt8) : hpackDecode input = .ok bytes ↔
      ∃ tail, ofBytes input = bytes.flatMap Encode.word ++ tail ∧ Padding tail := by
  have h := decodeIter_ok_iff hsrc (8 * input.length + 1) BitWindow.sane_new
    (by simp [BitWindow.new, BitWindow.stop]) (by omega) bytes
  rw [← spelled_iff]
  simpa [hpackDecode, BitWindow.new, BitWindow.stop] using h

/-- Less than a byte of ones is padding. -/
theorem padding_ones {p : Nat} (hp : p < 8) : Padding (List.replicate p true) := by
  have hwalk : ∀ p < 8, ∃ n ≤ 8,
      hpackString.walk (List.replicate p true) = .short (List.replicate n true) := by
    decide +kernel
  obtain ⟨n, -, h⟩ := hwalk p hp
  exact padding_iff.mpr ⟨n, h⟩

end Decode

open Encode Decode in
/-- What is encoded is read back, if the `u32` positions of the two can address it. -/
theorem hpackDecode_hpackEncode (bytes : List UInt8)
    (hlen : (hpackEncode bytes).length < 2 ^ 29 - 1) :
    hpackDecode (hpackEncode bytes) = .ok bytes := by
  obtain ⟨p, hp, hbits⟩ := ofBytes_hpackEncode bytes (by omega)
  exact (hpackDecode_ok_iff (by omega) bytes).mpr ⟨_, hbits, padding_ones hp⟩

open Encode Decode in
/-- **The Huffman coding of `h3` and its decoder**: as far as the `u32` positions of the two can
address, a string comes back from its coding, and what is decoded as a string are the words of its
bytes with `Padding` behind them. -/
theorem huffmanCodec (bytes : List UInt8) :
    ((hpackEncode bytes).length < 2 ^ 29 - 1 → hpackDecode (hpackEncode bytes) = .ok bytes)
      ∧ ∀ input : List UInt8, 8 * input.length + 8 < 2 ^ 32 →
          (hpackDecode input = .ok bytes ↔
            ∃ tail, ofBytes input = bytes.flatMap word ++ tail ∧ Padding tail) :=
  ⟨hpackDecode_hpackEncode bytes, fun _ hsrc => hpackDecode_ok_iff hsrc bytes⟩

open Encode Decode in
/-- The authority of a request; and an input whose last bits, 01010, are padding though not ones:
they lead to the table of `' '` and `'%'`. -/
theorem huffmanCodec_authority :
    hpackDecode (hpackEncode [119, 119, 119, 46, 101, 120, 97, 109, 112, 108, 101, 46, 99, 111,
        109]) = .ok [119, 119, 119, 46, 101, 120, 97, 109, 112, 108, 101, 46, 99, 111, 109] ∧
      ∃ tail, ofBytes [0x02, 0xAA] = word 48 ++ word 37 ++ tail ∧ Padding tail := by
  refine ⟨(huffmanCodec _).1 (by decide +kernel), ?_⟩
  have hdecoded : hpackDecode [0x02, 0xAA] = .ok [48, 37] := by decide +kernel
  exact ((huffmanCodec [48, 37]).2 [0x02, 0xAA] (by decide)).mp hdecoded

end WarpProxy.H3.Huffman
