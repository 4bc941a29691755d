/-
# `WarpProxy.H3.HuffmanTable` — the two Huffman tables of the vendored `h3`

`qpack/prefix_string/encode.rs` has, for each byte, the bits of its code word, in
parts of eight bits; `decode.rs` has the decoding tree, as nested lookup tables.
Both are written out in the source by hand.  `codes` says that they are the same
code: the tree leads to each byte by its word, and by no other bits.
-/
import WarpProxy.Lib.PrefixCode

namespace WarpProxy.H3.Huffman

open PrefixCode

/-! ## `encode.rs` -/

namespace Encode

structure EncodeValue where
  bitCount : Nat
  buffer : List UInt8

def hpackString : List EncodeValue :=
  [
    ⟨13, [0b1111_1111, 0b0001_1000]⟩,
    ⟨23, [0b1111_1111, 0b1111_1111, 0b0101_1000]⟩,
    ⟨28, [0b1111_1111, 0b1111_1111, 0b1111_1110, 0b0000_0010]⟩,
    ⟨28, [0b1111_1111, 0b1111_1111, 0b1111_1110, 0b0000_0011]⟩,
    ⟨28, [0b1111_1111, 0b1111_1111, 0b1111_1110, 0b0000_0100]⟩,
    ⟨28, [0b1111_1111, 0b1111_1111, 0b1111_1110, 0b0000_0101]⟩,
    ⟨28, [0b1111_1111, 0b1111_1111, 0b1111_1110, 0b0000_0110]⟩,
    ⟨28, [0b1111_1111, 0b1111_1111, 0b1111_1110, 0b0000_0111]⟩,
    ⟨28, [0b1111_1111, 0b1111_1111, 0b1111_1110, 0b0000_1000]⟩,
    ⟨24, [0b1111_1111, 0b1111_1111, 0b1110_1010]⟩,
    ⟨30, [0b1111_1111, 0b1111_1111, 0b1111_1111, 0b0011_1100]⟩,
    ⟨28, [0b1111_1111, 0b1111_1111, 0b1111_1110, 0b0000_1001]⟩,
    ⟨28, [0b1111_1111, 0b1111_1111, 0b1111_1110, 0b0000_1010]⟩,
    ⟨30, [0b1111_1111, 0b1111_1111, 0b1111_1111, 0b0011_1101]⟩,
    ⟨28, [0b1111_1111, 0b1111_1111, 0b1111_1110, 0b0000_1011]⟩,
    ⟨28, [0b1111_1111, 0b1111_1111, 0b1111_1110, 0b0000_1100]⟩,
    ⟨28, [0b1111_1111, 0b1111_1111, 0b1111_1110, 0b0000_1101]⟩,
    ⟨28, [0b1111_1111, 0b1111_1111, 0b1111_1110, 0b0000_1110]⟩,
    ⟨28, [0b1111_1111, 0b1111_1111, 0b1111_1110, 0b0000_1111]⟩,
    ⟨28, [0b1111_1111, 0b1111_1111, 0b1111_1111, 0b0000_0000]⟩,
    ⟨28, [0b1111_1111, 0b1111_1111, 0b1111_1111, 0b0000_0001]⟩,
    ⟨28, [0b1111_1111, 0b1111_1111, 0b1111_1111, 0b0000_0010]⟩,
    ⟨30, [0b1111_1111, 0b1111_1111, 0b1111_1111, 0b0011_1110]⟩,
    ⟨28, [0b1111_1111, 0b1111_1111, 0b1111_1111, 0b0000_0011]⟩,
    ⟨28, [0b1111_1111, 0b1111_1111, 0b1111_1111, 0b0000_0100]⟩,
    ⟨28, [0b1111_1111, 0b1111_1111, 0b1111_1111, 0b0000_0101]⟩,
    ⟨28, [0b1111_1111, 0b1111_1111, 0b1111_1111, 0b0000_0110]⟩,
    ⟨28, [0b1111_1111, 0b1111_1111, 0b1111_1111, 0b0000_0111]⟩,
    ⟨28, [0b1111_1111, 0b1111_1111, 0b1111_1111, 0b0000_1000]⟩,
    ⟨28, [0b1111_1111, 0b1111_1111, 0b1111_1111, 0b0000_1001]⟩,
    ⟨28, [0b1111_1111, 0b1111_1111, 0b1111_1111, 0b0000_1010]⟩,
    ⟨28, [0b1111_1111, 0b1111_1111, 0b1111_1111, 0b0000_1011]⟩,
    ⟨6, [0b0001_0100]⟩,
    ⟨10, [0b1111_1110, 0b0000_0000]⟩,
    ⟨10, [0b1111_1110, 0b0000_0001]⟩,
    ⟨12, [0b1111_1111, 0b0000_1010]⟩,
    ⟨13, [0b1111_1111, 0b0001_1001]⟩,
    ⟨6, [0b0001_0101]⟩,
    ⟨8, [0b1111_1000]⟩,
    ⟨11, [0b1111_1111, 0b0000_0010]⟩,
    ⟨10, [0b1111_1110, 0b0000_0010]⟩,
    ⟨10, [0b1111_1110, 0b0000_0011]⟩,
    ⟨8, [0b1111_1001]⟩,
    ⟨11, [0b1111_1111, 0b0000_0011]⟩,
    ⟨8, [0b1111_1010]⟩,
    ⟨6, [0b0001_0110]⟩,
    ⟨6, [0b0001_0111]⟩,
    ⟨6, [0b0001_1000]⟩,
    ⟨5, [0b0000_0000]⟩,
    ⟨5, [0b0000_0001]⟩,
    ⟨5, [0b0000_0010]⟩,
    ⟨6, [0b0001_1001]⟩,
    ⟨6, [0b0001_1010]⟩,
    ⟨6, [0b0001_1011]⟩,
    ⟨6, [0b0001_1100]⟩,
    ⟨6, [0b0001_1101]⟩,
    ⟨6, [0b0001_1110]⟩,
    ⟨6, [0b0001_1111]⟩,
    ⟨7, [0b0101_1100]⟩,
    ⟨8, [0b1111_1011]⟩,
    ⟨15, [0b1111_1111, 0b0111_1100]⟩,
    ⟨6, [0b0010_0000]⟩,
    ⟨12, [0b1111_1111, 0b0000_1011]⟩,
    ⟨10, [0b1111_1111, 0b0000_0000]⟩,
    ⟨13, [0b1111_1111, 0b0001_1010]⟩,
    ⟨6, [0b0010_0001]⟩,
    ⟨7, [0b0101_1101]⟩,
    ⟨7, [0b0101_1110]⟩,
    ⟨7, [0b0101_1111]⟩,
    ⟨7, [0b0110_0000]⟩,
    ⟨7, [0b0110_0001]⟩,
    ⟨7, [0b0110_0010]⟩,
    ⟨7, [0b0110_0011]⟩,
    ⟨7, [0b0110_0100]⟩,
    ⟨7, [0b0110_0101]⟩,
    ⟨7, [0b0110_0110]⟩,
    ⟨7, [0b0110_0111]⟩,
    ⟨7, [0b0110_1000]⟩,
    ⟨7, [0b0110_1001]⟩,
    ⟨7, [0b0110_1010]⟩,
    ⟨7, [0b0110_1011]⟩,
    ⟨7, [0b0110_1100]⟩,
    ⟨7, [0b0110_1101]⟩,
    ⟨7, [0b0110_1110]⟩,
    ⟨7, [0b0110_1111]⟩,
    ⟨7, [0b0111_0000]⟩,
    ⟨7, [0b0111_0001]⟩,
    ⟨7, [0b0111_0010]⟩,
    ⟨8, [0b1111_1100]⟩,
    ⟨7, [0b0111_0011]⟩,
    ⟨8, [0b1111_1101]⟩,
    ⟨13, [0b1111_1111, 0b0001_1011]⟩,
    ⟨19, [0b1111_1111, 0b1111_1110, 0b0000_0000]⟩,
    ⟨13, [0b1111_1111, 0b0001_1100]⟩,
    ⟨14, [0b1111_1111, 0b0011_1100]⟩,
    ⟨6, [0b0010_0010]⟩,
    ⟨15, [0b1111_1111, 0b0111_1101]⟩,
    ⟨5, [0b0000_0011]⟩,
    ⟨6, [0b0010_0011]⟩,
    ⟨5, [0b0000_0100]⟩,
    ⟨6, [0b0010_0100]⟩,
    ⟨5, [0b0000_0101]⟩,
    ⟨6, [0b0010_0101]⟩,
    ⟨6, [0b0010_0110]⟩,
    ⟨6, [0b0010_0111]⟩,
    ⟨5, [0b0000_0110]⟩,
    ⟨7, [0b0111_0100]⟩,
    ⟨7, [0b0111_0101]⟩,
    ⟨6, [0b0010_1000]⟩,
    ⟨6, [0b0010_1001]⟩,
    ⟨6, [0b0010_1010]⟩,
    ⟨5, [0b0000_0111]⟩,
    ⟨6, [0b0010_1011]⟩,
    ⟨7, [0b0111_0110]⟩,
    ⟨6, [0b0010_1100]⟩,
    ⟨5, [0b0000_1000]⟩,
    ⟨5, [0b0000_1001]⟩,
    ⟨6, [0b0010_1101]⟩,
    ⟨7, [0b0111_0111]⟩,
    ⟨7, [0b0111_1000]⟩,
    ⟨7, [0b0111_1001]⟩,
    ⟨7, [0b0111_1010]⟩,
    ⟨7, [0b0111_1011]⟩,
    ⟨15, [0b1111_1111, 0b0111_1110]⟩,
    ⟨11, [0b1111_1111, 0b0000_0100]⟩,
    ⟨14, [0b1111_1111, 0b0011_1101]⟩,
    ⟨13, [0b1111_1111, 0b0001_1101]⟩,
    ⟨28, [0b1111_1111, 0b1111_1111, 0b1111_1111, 0b0000_1100]⟩,
    ⟨20, [0b1111_1111, 0b1111_1110, 0b0000_0110]⟩,
    ⟨22, [0b1111_1111, 0b1111_1111, 0b0001_0010]⟩,
    ⟨20, [0b1111_1111, 0b1111_1110, 0b0000_0111]⟩,
    ⟨20, [0b1111_1111, 0b1111_1110, 0b0000_1000]⟩,
    ⟨22, [0b1111_1111, 0b1111_1111, 0b0001_0011]⟩,
    ⟨22, [0b1111_1111, 0b1111_1111, 0b0001_0100]⟩,
    ⟨22, [0b1111_1111, 0b1111_1111, 0b0001_0101]⟩,
    ⟨23, [0b1111_1111, 0b1111_1111, 0b0101_1001]⟩,
    ⟨22, [0b1111_1111, 0b1111_1111, 0b0001_0110]⟩,
    ⟨23, [0b1111_1111, 0b1111_1111, 0b0101_1010]⟩,
    ⟨23, [0b1111_1111, 0b1111_1111, 0b0101_1011]⟩,
    ⟨23, [0b1111_1111, 0b1111_1111, 0b0101_1100]⟩,
    ⟨23, [0b1111_1111, 0b1111_1111, 0b0101_1101]⟩,
    ⟨23, [0b1111_1111, 0b1111_1111, 0b0101_1110]⟩,
    ⟨24, [0b1111_1111, 0b1111_1111, 0b1110_1011]⟩,
    ⟨23, [0b1111_1111, 0b1111_1111, 0b0101_1111]⟩,
    ⟨24, [0b1111_1111, 0b1111_1111, 0b1110_1100]⟩,
    ⟨24, [0b1111_1111, 0b1111_1111, 0b1110_1101]⟩,
    ⟨22, [0b1111_1111, 0b1111_1111, 0b0001_0111]⟩,
    ⟨23, [0b1111_1111, 0b1111_1111, 0b0110_0000]⟩,
    ⟨24, [0b1111_1111, 0b1111_1111, 0b1110_1110]⟩,
    ⟨23, [0b1111_1111, 0b1111_1111, 0b0110_0001]⟩,
    ⟨23, [0b1111_1111, 0b1111_1111, 0b0110_0010]⟩,
    ⟨23, [0b1111_1111, 0b1111_1111, 0b0110_0011]⟩,
    ⟨23, [0b1111_1111, 0b1111_1111, 0b0110_0100]⟩,
    ⟨21, [0b1111_1111, 0b1111_1110, 0b0001_1100]⟩,
    ⟨22, [0b1111_1111, 0b1111_1111, 0b0001_1000]⟩,
    ⟨23, [0b1111_1111, 0b1111_1111, 0b0110_0101]⟩,
    ⟨22, [0b1111_1111, 0b1111_1111, 0b0001_1001]⟩,
    ⟨23, [0b1111_1111, 0b1111_1111, 0b0110_0110]⟩,
    ⟨23, [0b1111_1111, 0b1111_1111, 0b0110_0111]⟩,
    ⟨24, [0b1111_1111, 0b1111_1111, 0b1110_1111]⟩,
    ⟨22, [0b1111_1111, 0b1111_1111, 0b0001_1010]⟩,
    ⟨21, [0b1111_1111, 0b1111_1110, 0b0001_1101]⟩,
    ⟨20, [0b1111_1111, 0b1111_1110, 0b0000_1001]⟩,
    ⟨22, [0b1111_1111, 0b1111_1111, 0b0001_1011]⟩,
    ⟨22, [0b1111_1111, 0b1111_1111, 0b0001_1100]⟩,
    ⟨23, [0b1111_1111, 0b1111_1111, 0b0110_1000]⟩,
    ⟨23, [0b1111_1111, 0b1111_1111, 0b0110_1001]⟩,
    ⟨21, [0b1111_1111, 0b1111_1110, 0b0001_1110]⟩,
    ⟨23, [0b1111_1111, 0b1111_1111, 0b0110_1010]⟩,
    ⟨22, [0b1111_1111, 0b1111_1111, 0b0001_1101]⟩,
    ⟨22, [0b1111_1111, 0b1111_1111, 0b0001_1110]⟩,
    ⟨24, [0b1111_1111, 0b1111_1111, 0b1111_0000]⟩,
    ⟨21, [0b1111_1111, 0b1111_1110, 0b0001_1111]⟩,
    ⟨22, [0b1111_1111, 0b1111_1111, 0b0001_1111]⟩,
    ⟨23, [0b1111_1111, 0b1111_1111, 0b0110_1011]⟩,
    ⟨23, [0b1111_1111, 0b1111_1111, 0b0110_1100]⟩,
    ⟨21, [0b1111_1111, 0b1111_1111, 0b0000_0000]⟩,
    ⟨21, [0b1111_1111, 0b1111_1111, 0b0000_0001]⟩,
    ⟨22, [0b1111_1111, 0b1111_1111, 0b0010_0000]⟩,
    ⟨21, [0b1111_1111, 0b1111_1111, 0b0000_0010]⟩,
    ⟨23, [0b1111_1111, 0b1111_1111, 0b0110_1101]⟩,
    ⟨22, [0b1111_1111, 0b1111_1111, 0b0010_0001]⟩,
    ⟨23, [0b1111_1111, 0b1111_1111, 0b0110_1110]⟩,
    ⟨23, [0b1111_1111, 0b1111_1111, 0b0110_1111]⟩,
    ⟨20, [0b1111_1111, 0b1111_1110, 0b0000_1010]⟩,
    ⟨22, [0b1111_1111, 0b1111_1111, 0b0010_0010]⟩,
    ⟨22, [0b1111_1111, 0b1111_1111, 0b0010_0011]⟩,
    ⟨22, [0b1111_1111, 0b1111_1111, 0b0010_0100]⟩,
    ⟨23, [0b1111_1111, 0b1111_1111, 0b0111_0000]⟩,
    ⟨22, [0b1111_1111, 0b1111_1111, 0b0010_0101]⟩,
    ⟨22, [0b1111_1111, 0b1111_1111, 0b0010_0110]⟩,
    ⟨23, [0b1111_1111, 0b1111_1111, 0b0111_0001]⟩,
    ⟨26, [0b1111_1111, 0b1111_1111, 0b1111_1000, 0b0000_0000]⟩,
    ⟨26, [0b1111_1111, 0b1111_1111, 0b1111_1000, 0b0000_0001]⟩,
    ⟨20, [0b1111_1111, 0b1111_1110, 0b0000_1011]⟩,
    ⟨19, [0b1111_1111, 0b1111_1110, 0b0000_0001]⟩,
    ⟨22, [0b1111_1111, 0b1111_1111, 0b0010_0111]⟩,
    ⟨23, [0b1111_1111, 0b1111_1111, 0b0111_0010]⟩,
    ⟨22, [0b1111_1111, 0b1111_1111, 0b0010_1000]⟩,
    ⟨25, [0b1111_1111, 0b1111_1111, 0b1111_0110, 0b0000_0000]⟩,
    ⟨26, [0b1111_1111, 0b1111_1111, 0b1111_1000, 0b0000_0010]⟩,
    ⟨26, [0b1111_1111, 0b1111_1111, 0b1111_1000, 0b0000_0011]⟩,
    ⟨26, [0b1111_1111, 0b1111_1111, 0b1111_1001, 0b0000_0000]⟩,
    ⟨27, [0b1111_1111, 0b1111_1111, 0b1111_1011, 0b0000_0110]⟩,
    ⟨27, [0b1111_1111, 0b1111_1111, 0b1111_1011, 0b0000_0111]⟩,
    ⟨26, [0b1111_1111, 0b1111_1111, 0b1111_1001, 0b0000_0001]⟩,
    ⟨24, [0b1111_1111, 0b1111_1111, 0b1111_0001]⟩,
    ⟨25, [0b1111_1111, 0b1111_1111, 0b1111_0110, 0b0000_0001]⟩,
    ⟨19, [0b1111_1111, 0b1111_1110, 0b0000_0010]⟩,
    ⟨21, [0b1111_1111, 0b1111_1111, 0b0000_0011]⟩,
    ⟨26, [0b1111_1111, 0b1111_1111, 0b1111_1001, 0b0000_0010]⟩,
    ⟨27, [0b1111_1111, 0b1111_1111, 0b1111_1100, 0b0000_0000]⟩,
    ⟨27, [0b1111_1111, 0b1111_1111, 0b1111_1100, 0b0000_0001]⟩,
    ⟨26, [0b1111_1111, 0b1111_1111, 0b1111_1001, 0b0000_0011]⟩,
    ⟨27, [0b1111_1111, 0b1111_1111, 0b1111_1100, 0b0000_0010]⟩,
    ⟨24, [0b1111_1111, 0b1111_1111, 0b1111_0010]⟩,
    ⟨21, [0b1111_1111, 0b1111_1111, 0b0000_0100]⟩,
    ⟨21, [0b1111_1111, 0b1111_1111, 0b0000_0101]⟩,
    ⟨26, [0b1111_1111, 0b1111_1111, 0b1111_1010, 0b0000_0000]⟩,
    ⟨26, [0b1111_1111, 0b1111_1111, 0b1111_1010, 0b0000_0001]⟩,
    ⟨28, [0b1111_1111, 0b1111_1111, 0b1111_1111, 0b0000_1101]⟩,
    ⟨27, [0b1111_1111, 0b1111_1111, 0b1111_1100, 0b0000_0011]⟩,
    ⟨27, [0b1111_1111, 0b1111_1111, 0b1111_1100, 0b0000_0100]⟩,
    ⟨27, [0b1111_1111, 0b1111_1111, 0b1111_1100, 0b0000_0101]⟩,
    ⟨20, [0b1111_1111, 0b1111_1110, 0b0000_1100]⟩,
    ⟨24, [0b1111_1111, 0b1111_1111, 0b1111_0011]⟩,
    ⟨20, [0b1111_1111, 0b1111_1110, 0b0000_1101]⟩,
    ⟨21, [0b1111_1111, 0b1111_1111, 0b0000_0110]⟩,
    ⟨22, [0b1111_1111, 0b1111_1111, 0b0010_1001]⟩,
    ⟨21, [0b1111_1111, 0b1111_1111, 0b0000_0111]⟩,
    ⟨21, [0b1111_1111, 0b1111_1111, 0b0000_1000]⟩,
    ⟨23, [0b1111_1111, 0b1111_1111, 0b0111_0011]⟩,
    ⟨22, [0b1111_1111, 0b1111_1111, 0b0010_1010]⟩,
    ⟨22, [0b1111_1111, 0b1111_1111, 0b0010_1011]⟩,
    ⟨25, [0b1111_1111, 0b1111_1111, 0b1111_0111, 0b0000_0000]⟩,
    ⟨25, [0b1111_1111, 0b1111_1111, 0b1111_0111, 0b0000_0001]⟩,
    ⟨24, [0b1111_1111, 0b1111_1111, 0b1111_0100]⟩,
    ⟨24, [0b1111_1111, 0b1111_1111, 0b1111_0101]⟩,
    ⟨26, [0b1111_1111, 0b1111_1111, 0b1111_1010, 0b0000_0010]⟩,
    ⟨23, [0b1111_1111, 0b1111_1111, 0b0111_0100]⟩,
    ⟨26, [0b1111_1111, 0b1111_1111, 0b1111_1010, 0b0000_0011]⟩,
    ⟨27, [0b1111_1111, 0b1111_1111, 0b1111_1100, 0b0000_0110]⟩,
    ⟨26, [0b1111_1111, 0b1111_1111, 0b1111_1011, 0b0000_0000]⟩,
    ⟨26, [0b1111_1111, 0b1111_1111, 0b1111_1011, 0b0000_0001]⟩,
    ⟨27, [0b1111_1111, 0b1111_1111, 0b1111_1100, 0b0000_0111]⟩,
    ⟨27, [0b1111_1111, 0b1111_1111, 0b1111_1101, 0b0000_0000]⟩,
    ⟨27, [0b1111_1111, 0b1111_1111, 0b1111_1101, 0b0000_0001]⟩,
    ⟨27, [0b1111_1111, 0b1111_1111, 0b1111_1101, 0b0000_0010]⟩,
    ⟨27, [0b1111_1111, 0b1111_1111, 0b1111_1101, 0b0000_0011]⟩,
    ⟨28, [0b1111_1111, 0b1111_1111, 0b1111_1111, 0b0000_1110]⟩,
    ⟨27, [0b1111_1111, 0b1111_1111, 0b1111_1101, 0b0000_0100]⟩,
    ⟨27, [0b1111_1111, 0b1111_1111, 0b1111_1101, 0b0000_0101]⟩,
    ⟨27, [0b1111_1111, 0b1111_1111, 0b1111_1101, 0b0000_0110]⟩,
    ⟨27, [0b1111_1111, 0b1111_1111, 0b1111_1101, 0b0000_0111]⟩,
    ⟨27, [0b1111_1111, 0b1111_1111, 0b1111_1110, 0b0000_0000]⟩,
    ⟨26, [0b1111_1111, 0b1111_1111, 0b1111_1011, 0b0000_0010]⟩
  ]

/-- The bits of a code word: eight of each part, and of the last one what remains. -/
def wordFrom : Nat → List UInt8 → List Bool
  | _, [] => []
  | rest, part :: parts =>
      let count := if rest < 8 then rest else 8
      BitString.ofNat count part.toNat ++ wordFrom (rest - count) parts

set_option maxRecDepth 2000 in
theorem length_hpackString : hpackString.length = 256 := rfl

/-- `HPACK_STRING[code as usize]` -/
def value (code : UInt8) : EncodeValue :=
  hpackString.get ⟨code.toNat, by rw [length_hpackString]; exact code.toNat_lt⟩

def word (code : UInt8) : List Bool := wordFrom (value code).bitCount (value code).buffer

end Encode

/-! ## `decode.rs` -/

namespace Decode

/-- `HuffmanDecoder` is an inner node, `DecodeValue::Sym` a leaf. -/
abbrev DecodeValue := PrefixCode.Tree UInt8

/-- `bits_decode!`: first the symbols of a table, then its subtables. -/
def table (lookup : Nat) (syms : List UInt8) (subs : List DecodeValue) : DecodeValue :=
  .node lookup (syms.map .leaf ++ subs)

def end0_01010 : DecodeValue := table 1 [32, 37] []
def end0_01011 : DecodeValue := table 1 [45, 46] []
def end0_01100 : DecodeValue := table 1 [47, 51] []
def end0_01101 : DecodeValue := table 1 [52, 53] []
def end0_01110 : DecodeValue := table 1 [54, 55] []
def end0_01111 : DecodeValue := table 1 [56, 57] []
def end0_10000 : DecodeValue := table 1 [61, 65] []
def end0_10001 : DecodeValue := table 1 [95, 98] []
def end0_10010 : DecodeValue := table 1 [100, 102] []
def end0_10011 : DecodeValue := table 1 [103, 104] []
def end0_10100 : DecodeValue := table 1 [108, 109] []
def end0_10101 : DecodeValue := table 1 [110, 112] []
def end0_10110 : DecodeValue := table 1 [114, 117] []
def end0_10111 : DecodeValue := table 2 [58, 66, 67, 68] []
def end0_11000 : DecodeValue := table 2 [69, 70, 71, 72] []
def end0_11001 : DecodeValue := table 2 [73, 74, 75, 76] []
def end0_11010 : DecodeValue := table 2 [77, 78, 79, 80] []
def end0_11011 : DecodeValue := table 2 [81, 82, 83, 84] []
def end0_11100 : DecodeValue := table 2 [85, 86, 87, 89] []
def end0_11101 : DecodeValue := table 2 [106, 107, 113, 118] []
def end0_11110 : DecodeValue := table 2 [119, 120, 121, 122] []
def end5_00 : DecodeValue := table 1 [38, 42] []
def end5_01 : DecodeValue := table 1 [44, 59] []
def end5_10 : DecodeValue := table 1 [88, 90] []
def end7_0 : DecodeValue := table 2 [33, 34, 40, 41] []
def end9a_1 : DecodeValue := table 1 [39, 43] []
def end8_0 : DecodeValue := table 1 [63] [end9a_1]
def end9b_01 : DecodeValue := table 1 [35, 62] []
def end9b_10 : DecodeValue := table 2 [0, 36, 64, 91] []
def end13_10 : DecodeValue := table 1 [94, 125] []
def end14_0 : DecodeValue := table 1 [60, 96] []
def end19_0011 : DecodeValue := table 1 [128, 130] []
def end19_0100 : DecodeValue := table 1 [131, 162] []
def end19_0101 : DecodeValue := table 1 [184, 194] []
def end19_0110 : DecodeValue := table 1 [224, 226] []
def end19_0111 : DecodeValue := table 2 [153, 161, 167, 172] []
def end19_1000 : DecodeValue := table 2 [176, 177, 179, 209] []
def end19_1001 : DecodeValue := table 2 [216, 217, 227, 229] []
def end19_1010_01 : DecodeValue := table 1 [129, 132] []
def end19_1010_10 : DecodeValue := table 1 [133, 134] []
def end19_1010_11 : DecodeValue := table 1 [136, 146] []
def end19_1010 : DecodeValue := table 2 [230] [end19_1010_01, end19_1010_10, end19_1010_11]
def end19_1011 : DecodeValue := table 3 [154, 156, 160, 163, 164, 169, 170, 173] []
def end19_1100 : DecodeValue := table 3 [178, 181, 185, 186, 187, 189, 190, 196] []
def end23a_100 : DecodeValue := table 1 [1, 135] []
def end23a_101 : DecodeValue := table 1 [137, 138] []
def end23a_110 : DecodeValue := table 1 [139, 140] []
def end23a_111 : DecodeValue := table 1 [141, 143] []
def end19_1101 : DecodeValue :=
  table 3
    [198, 228, 232, 233]
    [end23a_100, end23a_101, end23a_110, end23a_111]
def end19_1110 : DecodeValue :=
  table 4
    [147, 149, 150, 151, 152, 155, 157, 158, 165, 166, 168, 174, 175, 180, 182, 183]
    []
def end23b_0101 : DecodeValue := table 1 [9, 142] []
def end23b_0110 : DecodeValue := table 1 [144, 145] []
def end23b_0111 : DecodeValue := table 1 [148, 159] []
def end23b_1000 : DecodeValue := table 1 [171, 206] []
def end23b_1001 : DecodeValue := table 1 [215, 225] []
def end23b_1010 : DecodeValue := table 1 [236, 237] []
def end23b_1011 : DecodeValue := table 2 [199, 207, 234, 235] []
def end23b_1100 : DecodeValue := table 3 [192, 193, 200, 201, 202, 205, 210, 213] []
def end27a_111 : DecodeValue := table 1 [203, 204] []
def end23b_1101 : DecodeValue := table 3 [218, 219, 238, 240, 242, 243, 255] [end27a_111]
def end23b_1110 : DecodeValue :=
  table 4
    [211, 212, 214, 221, 222, 223, 241, 244, 245, 246, 247, 248, 250, 251, 252, 253]
    []
def end27b_0001 : DecodeValue := table 1 [2, 3] []
def end27b_0010 : DecodeValue := table 1 [4, 5] []
def end27b_0011 : DecodeValue := table 1 [6, 7] []
def end27b_0100 : DecodeValue := table 1 [8, 11] []
def end27b_0101 : DecodeValue := table 1 [12, 14] []
def end27b_0110 : DecodeValue := table 1 [15, 16] []
def end27b_0111 : DecodeValue := table 1 [17, 18] []
def end27b_1000 : DecodeValue := table 1 [19, 20] []
def end27b_1001 : DecodeValue := table 1 [21, 23] []
def end27b_1010 : DecodeValue := table 1 [24, 25] []
def end27b_1011 : DecodeValue := table 1 [26, 27] []
def end27b_1100 : DecodeValue := table 1 [28, 29] []
def end27b_1101 : DecodeValue := table 1 [30, 31] []
def end27b_1110 : DecodeValue := table 1 [127, 220] []
def eof : DecodeValue := table 8 [] []
def end31_1 : DecodeValue := table 2 [10, 13, 22] [eof]
def end27b_1111 : DecodeValue := table 1 [249] [end31_1]
def end23b_1111 : DecodeValue :=
  table 4
    [254]
    [end27b_0001, end27b_0010, end27b_0011, end27b_0100, end27b_0101, end27b_0110, end27b_0111,
     end27b_1000, end27b_1001, end27b_1010, end27b_1011, end27b_1100, end27b_1101, end27b_1110,
     end27b_1111]
def end19_1111 : DecodeValue :=
  table 4
    [188, 191, 197, 231, 239]
    [end23b_0101, end23b_0110, end23b_0111, end23b_1000, end23b_1001, end23b_1010, end23b_1011,
     end23b_1100, end23b_1101, end23b_1110, end23b_1111]
def end15_1 : DecodeValue :=
  table 4
    [92, 195, 208]
    [end19_0011, end19_0100, end19_0101, end19_0110, end19_0111, end19_1000, end19_1001,
     end19_1010, end19_1011, end19_1100, end19_1101, end19_1110, end19_1111]
def end14_1 : DecodeValue := table 1 [123] [end15_1]
def end13_11 : DecodeValue := table 1 [] [end14_0, end14_1]
def end9b_11 : DecodeValue := table 2 [93, 126] [end13_10, end13_11]
def end8_1 : DecodeValue := table 2 [124] [end9b_01, end9b_10, end9b_11]
def end7_1 : DecodeValue := table 1 [] [end8_0, end8_1]
def end5_11 : DecodeValue := table 1 [] [end7_0, end7_1]
def end0_11111 : DecodeValue := table 2 [] [end5_00, end5_01, end5_10, end5_11]
def hpackString : DecodeValue :=
  table 5
    [48, 49, 50, 97, 99, 101, 105, 111, 115, 116]
    [end0_01010, end0_01011, end0_01100, end0_01101, end0_01110, end0_01111, end0_10000,
     end0_10001, end0_10010, end0_10011, end0_10100, end0_10101, end0_10110, end0_10111,
     end0_11000, end0_11001, end0_11010, end0_11011, end0_11100, end0_11101, end0_11110,
     end0_11111]

end Decode

/-! ## One code -/

/-- No part of a code word is empty, and together they have its bits. -/
def fills : Nat → List UInt8 → Bool
  | rest, [] => rest == 0
  | rest, _ :: parts => 0 < rest && fills (rest - if rest < 8 then rest else 8) parts

/-- The two tables agree on row `code`. -/
def agree (v : Encode.EncodeValue) (code : Nat) : Bool :=
  fills v.bitCount v.buffer &&
    decide (Decode.hpackString.walk (Encode.wordFrom v.bitCount v.buffer)
      = .sym (UInt8.ofNat code) [])

theorem all_agree : Encode.hpackString.zipIdx.all fun r => agree r.1 r.2 := by
  decide +kernel

theorem value_agree (code : UInt8) : agree (Encode.value code) code.toNat = true := by
  have hmem : (Encode.value code, code.toNat) ∈ Encode.hpackString.zipIdx := by
    rw [List.mk_mem_zipIdx_iff_getElem?]
    simp [Encode.value]
  exact List.all_eq_true.mp all_agree _ hmem

theorem value_fills (code : UInt8) :
    fills (Encode.value code).bitCount (Encode.value code).buffer = true := by
  have h := value_agree code
  simp only [agree, Bool.and_eq_true] at h
  exact h.1

theorem walk_word (code : UInt8) :
    Decode.hpackString.walk (Encode.word code) = .sym code [] := by
  have h := value_agree code
  simp only [agree, Bool.and_eq_true, decide_eq_true_eq, UInt8.ofNat_toNat] at h
  exact h.2

/-- No leaf of the tree is reached on another way. -/
theorem all_words : Decode.hpackString.words.all fun w => w.1 == Encode.word w.2 := by
  decide +kernel

/-- **The tree of `decode.rs` and the table of `encode.rs` are one code.** -/
theorem codes : Decode.hpackString.Codes Encode.word :=
  Tree.codes_of_words walk_word fun w hw => eq_of_beq (List.all_eq_true.mp all_words w hw)

end WarpProxy.H3.Huffman
