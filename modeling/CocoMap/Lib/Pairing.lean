import Mathlib.Data.Sym.Sym2

/-!
# Sets of disjoint pairs

A `Pairing α` is a set of unordered pairs of distinct elements of `α`, no element
being in two of them.  The invariant is part of the structure, so the two
operations come with what they need: `couple` asks that both elements are free,
`separate` and `keep` only take pairs away.

`ofNames` builds a pairing from a relation "`a` names `b`" that is stored by its
elements, possibly on one side only: it suffices that the relation is irreflexive,
one-to-one, and never contradicted by the element that is named.
-/

universe u

variable {α : Type u}

/-- A set of disjoint unordered pairs. -/
@[ext]
structure Pairing (α : Type u) where
  pairs : Set (Sym2 α)
  /-- A pair has two different elements. -/
  proper : ∀ a, s(a, a) ∉ pairs
  /-- An element is in at most one pair. -/
  disjoint : ∀ a b c, s(a, b) ∈ pairs → s(a, c) ∈ pairs → b = c

namespace Pairing

/-- `a` is in no pair. -/
def Free (P : Pairing α) (a : α) : Prop := ∀ b, s(a, b) ∉ P.pairs

/-- No pairs at all. -/
def empty : Pairing α where
  pairs := ∅
  proper _ := Set.notMem_empty _
  disjoint _ _ _ h := absurd h (Set.notMem_empty _)

@[simp] theorem pairs_empty : (empty : Pairing α).pairs = ∅ := rfl

/-- One more pair, of two elements that are free. -/
def couple (P : Pairing α) (a b : α) (hne : a ≠ b) (ha : P.Free a) (hb : P.Free b) :
    Pairing α where
  pairs := insert s(a, b) P.pairs
  proper c h := by
    rcases Set.mem_insert_iff.mp h with h | h
    · rw [Sym2.eq_iff] at h
      rcases h with ⟨rfl, rfl⟩ | ⟨rfl, rfl⟩ <;> exact hne rfl
    · exact P.proper c h
  disjoint x y z hy hz := by
    -- two pairs of `x`: an old one cannot meet the new one, whose elements were free
    rcases Set.mem_insert_iff.mp hy with newY | oldY <;>
      rcases Set.mem_insert_iff.mp hz with newZ | oldZ
    · exact Sym2.congr_right.mp (newY.trans newZ.symm)
    · rcases Sym2.eq_iff.mp newY with ⟨rfl, -⟩ | ⟨rfl, -⟩
      · exact absurd oldZ (ha z)
      · exact absurd oldZ (hb z)
    · rcases Sym2.eq_iff.mp newZ with ⟨rfl, -⟩ | ⟨rfl, -⟩
      · exact absurd oldY (ha y)
      · exact absurd oldY (hb y)
    · exact P.disjoint x y z oldY oldZ

@[simp] theorem pairs_couple (P : Pairing α) {a b : α} (hne : a ≠ b) (ha : P.Free a)
    (hb : P.Free b) : (P.couple a b hne ha hb).pairs = insert s(a, b) P.pairs := rfl

/-- The pairs that meet a condition. -/
def keep (P : Pairing α) (q : Sym2 α → Prop) : Pairing α where
  pairs := {p ∈ P.pairs | q p}
  proper a h := P.proper a h.1
  disjoint a b c hb hc := P.disjoint a b c hb.1 hc.1

@[simp] theorem pairs_keep (P : Pairing α) (q : Sym2 α → Prop) :
    (P.keep q).pairs = {p ∈ P.pairs | q p} := rfl

/-- All pairs but that of `a`. -/
def separate (P : Pairing α) (a : α) : Pairing α := P.keep fun p => a ∉ p

/-- An element in no pair has no pair to lose. -/
theorem separate_of_free {P : Pairing α} {a : α} (h : P.Free a) : P.separate a = P := by
  ext p
  refine ⟨fun hp => hp.1, fun hp => ⟨hp, fun ha => ?_⟩⟩
  obtain ⟨b, rfl⟩ := ha
  exact h b hp

/-! ## A pairing stored by its elements -/

section OfNames

variable (names : α → α → Prop)

/-- The pairs of a naming relation. -/
def namedPairs : Set (Sym2 α) := {p | ∃ a b, p = s(a, b) ∧ names a b}

variable {names}

theorem mem_namedPairs {a b : α} : s(a, b) ∈ namedPairs names ↔ names a b ∨ names b a := by
  constructor
  · rintro ⟨x, y, h, hn⟩
    rcases Sym2.eq_iff.mp h with ⟨rfl, rfl⟩ | ⟨rfl, rfl⟩
    · exact Or.inl hn
    · exact Or.inr hn
  · rintro (h | h)
    · exact ⟨a, b, rfl, h⟩
    · exact ⟨b, a, Sym2.eq_swap, h⟩

/-- The pairing of a naming relation: nobody names itself, nobody names two,
nobody is named by two, and who is named names back or nobody. -/
def ofNames (irrefl : ∀ a b, names a b → b ≠ a)
    (functional : ∀ a b c, names a b → names a c → b = c)
    (injective : ∀ a b c, names a c → names b c → a = b)
    (mirror : ∀ a b c, names a b → names b c → c = a) : Pairing α where
  pairs := namedPairs names
  proper a h := by
    rcases mem_namedPairs.mp h with h | h <;> exact irrefl a a h rfl
  disjoint a b c hb hc := by
    rcases mem_namedPairs.mp hb with hb | hb <;> rcases mem_namedPairs.mp hc with hc | hc
    · exact functional a b c hb hc
    · exact (mirror c a b hc hb)
    · exact (mirror b a c hb hc).symm
    · exact injective b c a hb hc

end OfNames

end Pairing
