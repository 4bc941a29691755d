/-
# `WarpProxy.Lib.PrefixCode` — decoding a prefix code with lookup tables

A `Tree` decodes one symbol by table lookups: an inner node looks at its next
`lookup` bits, takes them for an index into its children and goes on there, a
leaf is a symbol.  `Tree.walk` is that descent on a bit string.  It may also stop
`short` of bits, or at an index that the node has no child for.

What the tree stands for is said without the descent: `Tree.Leads` are the bits on
the way to one of its parts, and a tree `Codes` the words of a code if these are the
ways to its leaves.

    the descent goes down the way that the bits lead       (`Tree.stops`)
    what is spelled as a message are the words of its
    symbols one after the other, then a tail               (`spells_iff`)
-/
import WarpProxy.Lib.BitString

namespace PrefixCode

/-- A leaf is a symbol, an inner node a table indexed by its next `lookup` bits. -/
inductive Tree (α : Type) where
  | leaf (a : α)
  | node (lookup : Nat) (children : List (Tree α))

/-- Where the descent on a bit string ends, and with which bits left. -/
inductive Walk (α : Type) where
  | sym (a : α) (rest : List Bool)
  | short (rest : List Bool)
  | unhandled
  deriving DecidableEq

variable {α : Type}

mutual

def Tree.walk : Tree α → List Bool → Walk α
  | .leaf a, bits => .sym a bits
  | .node lookup children, bits =>
      if bits.length < lookup then .short bits
      else walkAt children (BitString.toNat (bits.take lookup)) (bits.drop lookup)

/-- The descent from child `i`. -/
def walkAt : List (Tree α) → Nat → List Bool → Walk α
  | [], _, _ => .unhandled
  | t :: _, 0, bits => t.walk bits
  | _ :: ts, i + 1, bits => walkAt ts i bits

end

/-! ## The ways through a tree -/

/-- The bits looked at on the way from a tree down to one of its parts. -/
inductive Tree.Leads : Tree α → List Bool → Tree α → Prop
  | here (t : Tree α) : Leads t [] t
  | down {lookup : Nat} {children : List (Tree α)} {child t : Tree α} {bits path : List Bool} :
      bits.length = lookup → children[BitString.toNat bits]? = some child → Leads child path t →
      Leads (.node lookup children) (bits ++ path) t

theorem walkAt_some {ts : List (Tree α)} {i : Nat} {t : Tree α} (h : ts[i]? = some t)
    (bits : List Bool) : walkAt ts i bits = t.walk bits := by
  induction ts generalizing i with
  | nil => cases h
  | cons u ts ih =>
      cases i with
      | zero =>
          rw [List.getElem?_cons_zero, Option.some.injEq] at h
          rw [walkAt, h]
      | succ i =>
          rw [List.getElem?_cons_succ] at h
          rw [walkAt, ih h]

/-- The descent on bits that begin with a way goes that way. -/
theorem Tree.Leads.walk {t u : Tree α} {path : List Bool} (h : t.Leads path u)
    (rest : List Bool) : t.walk (path ++ rest) = u.walk rest := by
  induction h with
  | here t => rfl
  | @down lookup children child u bits path hlen hchild _ ih =>
      subst hlen
      have henough : ¬ (bits ++ path ++ rest).length < bits.length := by
        simp only [List.length_append]
        omega
      rw [Tree.walk, if_neg henough, List.append_assoc, List.take_left, List.drop_left,
        walkAt_some hchild, ih]

/-- Where a descent can end: at a leaf, at a table that has too few bits left, or at an index
without a child. -/
inductive Tree.Stops (t : Tree α) : List Bool → Walk α → Prop
  | sym {path : List Bool} {a : α} (rest : List Bool) : t.Leads path (.leaf a) →
      Stops t (path ++ rest) (.sym a rest)
  | short {path rest : List Bool} {lookup : Nat} {children : List (Tree α)} :
      t.Leads path (.node lookup children) → rest.length < lookup →
      Stops t (path ++ rest) (.short rest)
  | unhandled (bits : List Bool) : Stops t bits .unhandled

theorem Tree.Stops.down {lookup : Nat} {children : List (Tree α)} {child : Tree α}
    {bits more : List Bool} {w : Walk α} (hlen : bits.length = lookup)
    (hchild : children[BitString.toNat bits]? = some child) (h : child.Stops more w) :
    (Tree.node lookup children).Stops (bits ++ more) w := by
  cases h with
  | sym rest hpath =>
      rw [← List.append_assoc]
      exact .sym rest (.down hlen hchild hpath)
  | short hpath hshort =>
      rw [← List.append_assoc]
      exact .short (.down hlen hchild hpath) hshort
  | unhandled => exact .unhandled _

mutual

/-- **The descent ends where the bits lead.** -/
theorem Tree.stops : ∀ (t : Tree α) (bits : List Bool), t.Stops bits (t.walk bits)
  | .leaf a, bits => by
      rw [Tree.walk]
      exact .sym bits (.here _)
  | .node lookup children, bits => by
      rw [Tree.walk]
      split
      · next hshort => exact .short (.here _) hshort
      · next hlong =>
          rcases walkAt_stops children (BitString.toNat (bits.take lookup))
            (bits.drop lookup) with ⟨child, hchild, hstops⟩ | hnone
          · have hlen : (bits.take lookup).length = lookup := by
              rw [List.length_take, Nat.min_eq_left (Nat.le_of_not_lt hlong)]
            have hdown := hstops.down hlen hchild
            rw [List.take_append_drop] at hdown
            exact hdown
          · rw [hnone]
            exact .unhandled bits

theorem walkAt_stops : ∀ (ts : List (Tree α)) (i : Nat) (bits : List Bool),
    (∃ child, ts[i]? = some child ∧ child.Stops bits (walkAt ts i bits)) ∨
      walkAt ts i bits = .unhandled
  | [], _, _ => by
      rw [walkAt]
      exact .inr rfl
  | t :: _, 0, bits => by
      rw [walkAt]
      exact .inl ⟨t, rfl, Tree.stops t bits⟩
  | _ :: ts, i + 1, bits => by
      rw [walkAt]
      exact walkAt_stops ts i bits

end

theorem Tree.walk_eq_sym {t : Tree α} {bits rest : List Bool} {a : α} :
    t.walk bits = .sym a rest ↔ ∃ path, t.Leads path (.leaf a) ∧ bits = path ++ rest := by
  constructor
  · intro h
    have hstops := t.stops bits
    rw [h] at hstops
    cases hstops with
    | sym _ hpath => exact ⟨_, hpath, rfl⟩
  · rintro ⟨path, hpath, rfl⟩
    rw [hpath.walk, Tree.walk]

theorem Tree.walk_eq_short {t : Tree α} {bits rest : List Bool} :
    t.walk bits = .short rest ↔ ∃ path lookup children,
      t.Leads path (.node lookup children) ∧ rest.length < lookup ∧ bits = path ++ rest := by
  constructor
  · intro h
    have hstops := t.stops bits
    rw [h] at hstops
    cases hstops with
    | short hpath hshort => exact ⟨_, _, _, hpath, hshort, rfl⟩
  · rintro ⟨path, lookup, children, hpath, hshort, rfl⟩
    rw [hpath.walk, Tree.walk, if_pos hshort]

/-- A table that looks at a bit uses it up. -/
theorem Tree.walk_length_lt {a : α} {lookup : Nat} {children : List (Tree α)}
    {bits rest : List Bool} (hpos : 0 < lookup)
    (h : (Tree.node lookup children).walk bits = .sym a rest) : rest.length < bits.length := by
  obtain ⟨path, hpath, rfl⟩ := Tree.walk_eq_sym.mp h
  cases hpath with
  | down hlen _ _ =>
      simp only [List.length_append]
      omega

mutual

/-- No table of the tree looks at no bit, or at more than `n`. -/
def Tree.lookupsIn (n : Nat) : Tree α → Bool
  | .leaf _ => true
  | .node lookup children => 0 < lookup && lookup ≤ n && allLookupsIn n children

def allLookupsIn (n : Nat) : List (Tree α) → Bool
  | [] => true
  | t :: ts => t.lookupsIn n && allLookupsIn n ts

end

/-! ## The words of a tree -/

mutual

/-- The ways to the leaves, from left to right. -/
def Tree.words : Tree α → List (List Bool × α)
  | .leaf a => [([], a)]
  | .node lookup children => wordsFrom lookup 0 children

/-- Those through the children from number `i` on. -/
def wordsFrom (lookup : Nat) : Nat → List (Tree α) → List (List Bool × α)
  | _, [] => []
  | i, t :: ts =>
      t.words.map (fun w => (BitString.ofNat lookup i ++ w.1, w.2)) ++ wordsFrom lookup (i + 1) ts

end

theorem mem_wordsFrom {lookup j : Nat} {child : Tree α} {path : List Bool} {a : α}
    (hmem : (path, a) ∈ child.words) : ∀ {ts : List (Tree α)} (i : Nat), ts[j]? = some child →
      (BitString.ofNat lookup (i + j) ++ path, a) ∈ wordsFrom lookup i ts := by
  induction j with
  | zero =>
      intro ts i h
      cases ts with
      | nil => cases h
      | cons t ts =>
          rw [List.getElem?_cons_zero, Option.some.injEq] at h
          subst h
          rw [wordsFrom]
          exact List.mem_append_left _ (List.mem_map.mpr ⟨(path, a), hmem, rfl⟩)
  | succ j ih =>
      intro ts i h
      cases ts with
      | nil => cases h
      | cons t ts =>
          rw [List.getElem?_cons_succ] at h
          have hindex : i + (j + 1) = i + 1 + j := by omega
          rw [wordsFrom, hindex]
          exact List.mem_append_right _ (ih (i + 1) h)

/-- Every way to a leaf is among the words. -/
theorem Tree.Leads.mem_words {t u : Tree α} {path : List Bool} (h : t.Leads path u) {a : α}
    (hu : u = .leaf a) : (path, a) ∈ t.words := by
  induction h with
  | here t =>
      subst hu
      rw [Tree.words]
      exact List.mem_singleton_self _
  | @down lookup children child u bits path hlen hchild _ ih =>
      have hword : (_, a) ∈ wordsFrom lookup 0 children := mem_wordsFrom (ih hu) 0 hchild
      rw [Nat.zero_add, ← hlen, BitString.ofNat_toNat] at hword
      rw [Tree.words, ← hlen]
      exact hword

/-- The ways to the leaves are the words of the code. -/
def Tree.Codes (t : Tree α) (word : α → List Bool) : Prop :=
  ∀ a path, t.Leads path (.leaf a) ↔ path = word a

/-- The words lead to their symbols, and there are no others. -/
theorem Tree.codes_of_words {t : Tree α} {word : α → List Bool}
    (hword : ∀ a, t.walk (word a) = .sym a []) (hall : ∀ w ∈ t.words, w.1 = word w.2) :
    t.Codes word := by
  intro a path
  constructor
  · exact fun h => hall (path, a) (h.mem_words rfl)
  · rintro rfl
    obtain ⟨path, hpath, hbits⟩ := Tree.walk_eq_sym.mp (hword a)
    rw [hbits, List.append_nil]
    exact hpath

/-! ## Messages -/

/-- `t` spells `bits` as the symbols `as` and then stops at `tail`, without a symbol. -/
inductive Spells (t : Tree α) : List Bool → List α → List Bool → Prop
  | stop {bits : List Bool} : (∀ a rest, t.walk bits ≠ .sym a rest) → Spells t bits [] bits
  | sym {bits rest tail : List Bool} {a : α} {as : List α} :
      t.walk bits = .sym a rest → Spells t rest as tail → Spells t bits (a :: as) tail

/-- **A message is spelled by its words**, up to a tail that is no symbol. -/
theorem spells_iff {t : Tree α} {word : α → List Bool} (ht : t.Codes word) {bits tail : List Bool}
    {as : List α} : Spells t bits as tail ↔
      bits = as.flatMap word ++ tail ∧ ∀ a rest, t.walk tail ≠ .sym a rest := by
  constructor
  · intro h
    induction h with
    | stop hnot => exact ⟨rfl, hnot⟩
    | @sym bits rest tail a as hwalk _ ih =>
        obtain ⟨path, hpath, rfl⟩ := Tree.walk_eq_sym.mp hwalk
        rw [(ht a path).mp hpath, List.flatMap_cons, List.append_assoc, ← ih.1]
        exact ⟨rfl, ih.2⟩
  · rintro ⟨rfl, htail⟩
    induction as with
    | nil => exact .stop htail
    | cons a as ih =>
        rw [List.flatMap_cons, List.append_assoc]
        exact .sym (Tree.walk_eq_sym.mpr ⟨word a, (ht a _).mpr rfl, rfl⟩) ih

end PrefixCode
