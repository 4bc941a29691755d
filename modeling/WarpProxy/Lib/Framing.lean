/-
# `WarpProxy.Lib.Framing` — incremental parsing of a chunked stream

A stream of symbols arrives in chunks cut anywhere, and a reader keeps one
buffer: it appends each chunk, takes complete frames off the front for as long
as there is one, and leaves the rest for the next chunk.  A `Framer` is the
parser such a reader uses, together with the three facts that make the reader
independent of the cuts:

    total_pos   a frame takes at least one symbol        (the loop ends)
    total_le    a frame lies inside the buffer           (nothing is invented)
    stable      a complete frame is the same in every extension of the buffer

The main results are `Framer.feedAll_flatten` (chunk by chunk is all at once)
and `Framer.drain_append`, from which the prefix law `Framer.drain_prefix`
follows.  `Framer.Splits` is the relational reading of the loop, which a
format's own grammar is compared with.
-/
import Mathlib.Logic.Basic

/-- A parser of one frame at the front of a buffer: the frame and the number of
symbols it takes, or `none` while the frame is incomplete. -/
structure Framer (α β : Type) where
  parse : List α → Option (β × Nat)
  total_pos : ∀ {buf b n}, parse buf = some (b, n) → 0 < n
  total_le : ∀ {buf b n}, parse buf = some (b, n) → n ≤ buf.length
  stable : ∀ {buf b n}, parse buf = some (b, n) → ∀ ext, parse (buf ++ ext) = some (b, n)

namespace Framer

variable {α β : Type} (F : Framer α β)

/-- An empty buffer holds no frame. -/
theorem parse_nil : F.parse [] = none := by
  cases h : F.parse [] with
  | none => rfl
  | some p =>
      have hpos := F.total_pos h
      have hle := F.total_le h
      rw [List.length_nil] at hle
      omega

theorem drop_lt {buf : List α} {b : β} {n : Nat} (h : F.parse buf = some (b, n)) :
    (buf.drop n).length < buf.length := by
  have hpos := F.total_pos h
  have hle := F.total_le h
  rw [List.length_drop]
  omega

/-- Take complete frames off the front until none is left: the frames and the rest. -/
def drain (buf : List α) : List β × List α :=
  match h : F.parse buf with
  | none => ([], buf)
  | some (b, n) =>
      have _hlt := F.drop_lt h
      let r := drain (buf.drop n)
      (b :: r.1, r.2)
termination_by buf.length
decreasing_by exact _hlt

theorem drain_of_none {buf : List α} (h : F.parse buf = none) : F.drain buf = ([], buf) := by
  rw [drain]
  split
  · rfl
  · next heq => rw [h] at heq; cases heq

theorem drain_of_some {buf : List α} {b : β} {n : Nat} (h : F.parse buf = some (b, n)) :
    F.drain buf = (b :: (F.drain (buf.drop n)).1, (F.drain (buf.drop n)).2) := by
  rw [drain]
  split
  · next heq => rw [h] at heq; cases heq
  · next heq =>
      rw [h] at heq
      cases heq
      rfl

/-! ## The loop as a relation -/

/-- `Splits buf bs rest`: `buf` is the frames `bs` one after the other, then `rest`,
which does not start with a complete frame. -/
inductive Splits : List α → List β → List α → Prop
  | rest {buf : List α} : F.parse buf = none → Splits buf [] buf
  | frame {buf : List α} {b : β} {n : Nat} {bs : List β} {rest : List α} :
      F.parse buf = some (b, n) → Splits (buf.drop n) bs rest → Splits buf (b :: bs) rest

theorem drain_splits : ∀ buf : List α, F.Splits buf (F.drain buf).1 (F.drain buf).2 := by
  intro buf
  induction hlen : buf.length using Nat.strongRecOn generalizing buf with
  | _ n ih =>
      cases h : F.parse buf with
      | none => rw [F.drain_of_none h]; exact .rest h
      | some p =>
          rw [F.drain_of_some h]
          exact .frame h (ih _ (hlen ▸ F.drop_lt h) _ rfl)

theorem Splits.drain_eq {F : Framer α β} {buf rest : List α} {bs : List β}
    (h : F.Splits buf bs rest) : F.drain buf = (bs, rest) := by
  induction h with
  | rest h => exact F.drain_of_none h
  | frame h _ ih => rw [F.drain_of_some h, ih]

/-- The rest holds no complete frame. -/
theorem Splits.parse_rest {F : Framer α β} {buf rest : List α} {bs : List β}
    (h : F.Splits buf bs rest) : F.parse rest = none := by
  induction h with
  | rest h => exact h
  | frame _ _ ih => exact ih

theorem parse_drain_snd (buf : List α) : F.parse (F.drain buf).2 = none :=
  (F.drain_splits buf).parse_rest

/-! ## Cutting the stream -/

/-- Draining an extension: the frames of the buffer, then those of its rest extended. -/
theorem Splits.append {F : Framer α β} {buf rest : List α} {bs : List β}
    (h : F.Splits buf bs rest) (ext : List α) :
    F.drain (buf ++ ext) = (bs ++ (F.drain (rest ++ ext)).1, (F.drain (rest ++ ext)).2) := by
  induction h with
  | rest _ => rfl
  | frame h _ ih =>
      have hstable := F.drain_of_some (F.stable h ext)
      rw [List.drop_append_of_le_length (F.total_le h)] at hstable
      rw [hstable, ih]
      rfl

theorem drain_append (buf ext : List α) :
    F.drain (buf ++ ext) = ((F.drain buf).1 ++ (F.drain ((F.drain buf).2 ++ ext)).1,
      (F.drain ((F.drain buf).2 ++ ext)).2) :=
  (F.drain_splits buf).append ext

/-- A prefix of the stream yields a prefix of the frames. -/
theorem drain_prefix (buf ext : List α) : (F.drain buf).1 <+: (F.drain (buf ++ ext)).1 := by
  rw [drain_append]
  exact List.prefix_append _ _

/-- One round of the reader: append a chunk, then drain. -/
def feed (st : List β × List α) (chunk : List α) : List β × List α :=
  (st.1 ++ (F.drain (st.2 ++ chunk)).1, (F.drain (st.2 ++ chunk)).2)

theorem feedAll_from (bs : List β) (chunks : List (List α)) (rest : List α)
    (h : F.parse rest = none) : chunks.foldl F.feed (bs, rest)
      = (bs ++ (F.drain (rest ++ chunks.flatten)).1, (F.drain (rest ++ chunks.flatten)).2) := by
  induction chunks generalizing bs rest with
  | nil => simp [F.drain_of_none h]
  | cons c cs ih =>
      rw [List.foldl_cons, feed, ih _ _ (F.parse_drain_snd _), List.flatten_cons,
        ← List.append_assoc rest, F.drain_append (rest ++ c), List.append_assoc bs]

/-- Feeding a stream chunk by chunk is draining it whole. -/
theorem feedAll_flatten (chunks : List (List α)) :
    chunks.foldl F.feed ([], []) = F.drain chunks.flatten := by
  rw [F.feedAll_from [] chunks [] F.parse_nil, List.nil_append, List.nil_append]

end Framer
