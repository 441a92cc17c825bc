import Mathlib.Data.Prod.Lex
import CocoMap.Lib.Increasing

/-!
# Ordered maps and range scans

A finite map with its entries in the order of their keys: the interface of an
ordered key-value store.  Besides lookup, insertion and removal it has the range
scan of such stores, `seek k`, the entries from the first key not below `k` on.

An operation is characterised by the entries it leaves (`mem_insert`, `mem_erase`,
`mem_seek`), and two maps with the same entries are equal (`ext_mem`).  The scan
rule is `takeWhile_seek`: a scan that starts at or below every entry of a kind,
and stops at the first entry of another, yields all entries of the kind, in order,
provided they have no gap.
-/

universe u v

/-- A finite map, its entries in the order of their keys. -/
structure SortedMap (κ : Type u) (ν : Type v) [LinearOrder κ] where
  entries : List (κ × ν)
  increasing : Increasing Prod.fst entries

namespace SortedMap

variable {κ : Type u} {ν : Type v} [LinearOrder κ]

instance : Membership (κ × ν) (SortedMap κ ν) := ⟨fun m e => e ∈ m.entries⟩

@[simp] theorem mem_entries {m : SortedMap κ ν} {e : κ × ν} : e ∈ m.entries ↔ e ∈ m := Iff.rfl

/-- **Extensionality.**  A map is determined by its entries. -/
theorem ext_mem {m m' : SortedMap κ ν} (h : ∀ e, e ∈ m ↔ e ∈ m') : m = m' := by
  obtain ⟨l, hl⟩ := m
  obtain ⟨l', hl'⟩ := m'
  congr
  exact hl.ext hl' h

/-! ## Operations -/

def empty : SortedMap κ ν := ⟨[], Increasing.nil _⟩

/-- Store a value, in place of the one the key has. -/
def insert (m : SortedMap κ ν) (k : κ) (x : ν) : SortedMap κ ν where
  entries := (m.entries.filter fun e => e.1 < k) ++ (k, x) :: m.entries.filter fun e => k < e.1
  increasing := by
    refine Increasing.append_iff.mpr ⟨m.increasing.filter _, ?_, ?_⟩
    · refine Increasing.cons_iff.mpr ⟨fun e he => ?_, m.increasing.filter _⟩
      simpa using (List.mem_filter.mp he).2
    · intro a ha b hb
      have hak : a.1 < k := by simpa using (List.mem_filter.mp ha).2
      rcases List.mem_cons.mp hb with rfl | hb
      · exact hak
      · exact hak.trans (by simpa using (List.mem_filter.mp hb).2)

def erase (m : SortedMap κ ν) (k : κ) : SortedMap κ ν where
  entries := m.entries.filter fun e => e.1 ≠ k
  increasing := m.increasing.filter _

/-- The value of a key. -/
def lookup (m : SortedMap κ ν) (k : κ) : Option ν :=
  (m.entries.find? fun e => e.1 = k).map Prod.snd

/-- **The range scan**: the entries from the first key not below `k` on. -/
def seek (m : SortedMap κ ν) (k : κ) : List (κ × ν) := m.entries.dropWhile fun e => e.1 < k

@[simp] theorem not_mem_empty {e : κ × ν} : e ∉ (empty : SortedMap κ ν) := List.not_mem_nil

theorem mem_insert {m : SortedMap κ ν} {k : κ} {x : ν} {e : κ × ν} :
    e ∈ m.insert k x ↔ e = (k, x) ∨ e ∈ m ∧ e.1 ≠ k := by
  have hlt : e.1 ≠ k ↔ e.1 < k ∨ k < e.1 := lt_or_lt_iff_ne.symm
  rw [hlt, ← mem_entries, ← mem_entries, insert]
  simp only [List.mem_append, List.mem_cons, List.mem_filter, decide_eq_true_eq]
  tauto

theorem mem_erase {m : SortedMap κ ν} {k : κ} {e : κ × ν} :
    e ∈ m.erase k ↔ e ∈ m ∧ e.1 ≠ k := by
  rw [← mem_entries, ← mem_entries, erase]
  simp

theorem lookup_eq_some_iff {m : SortedMap κ ν} {k : κ} {x : ν} :
    m.lookup k = some x ↔ (k, x) ∈ m := by
  constructor
  · intro h
    obtain ⟨e, hfind, rfl⟩ := Option.map_eq_some_iff.mp h
    obtain ⟨hmem, rfl⟩ := m.increasing.find?_eq_some_iff.mp hfind
    exact hmem
  · intro h
    have hfind : (m.entries.find? fun e => e.1 = k) = some (k, x) :=
      m.increasing.find?_eq_some_iff.mpr ⟨h, rfl⟩
    rw [lookup, hfind, Option.map_some]

theorem lookup_eq_none_iff {m : SortedMap κ ν} {k : κ} :
    m.lookup k = none ↔ ∀ e ∈ m, e.1 ≠ k := by
  rw [lookup, Option.map_eq_none_iff, List.find?_eq_none]
  simp

theorem nodup_keys (m : SortedMap κ ν) : (m.entries.map Prod.fst).Nodup := by
  refine List.pairwise_map.mpr (List.Pairwise.imp ?_ m.increasing)
  exact fun h => h.ne

/-- A map is determined by its lookups. -/
theorem ext_lookup {m m' : SortedMap κ ν} (h : ∀ k, m.lookup k = m'.lookup k) : m = m' := by
  refine ext_mem fun e => ?_
  rw [show e = (e.1, e.2) from rfl, ← lookup_eq_some_iff, h, lookup_eq_some_iff]

@[simp] theorem lookup_empty (k : κ) : (empty : SortedMap κ ν).lookup k = none := rfl

theorem lookup_insert (m : SortedMap κ ν) (k : κ) (x : ν) (k' : κ) :
    (m.insert k x).lookup k' = if k' = k then some x else m.lookup k' := by
  refine Option.ext fun y => ?_
  rw [lookup_eq_some_iff, mem_insert, Prod.mk.injEq]
  by_cases hk : k' = k
  · rw [if_pos hk, Option.some_inj, eq_comm (a := x)]
    simp [hk]
  · rw [if_neg hk, lookup_eq_some_iff]
    simp [hk]

theorem lookup_erase (m : SortedMap κ ν) (k k' : κ) :
    (m.erase k).lookup k' = if k' = k then none else m.lookup k' := by
  refine Option.ext fun y => ?_
  rw [lookup_eq_some_iff, mem_erase]
  by_cases hk : k' = k
  · simp [hk]
  · rw [if_neg hk, lookup_eq_some_iff]
    simp [hk]

/-- Another value for every key. -/
def mapVal {μ : Type v} (m : SortedMap κ ν) (f : κ → ν → μ) : SortedMap κ μ where
  entries := m.entries.map fun e => (e.1, f e.1 e.2)
  increasing := by
    refine List.pairwise_map.mpr ?_
    exact m.increasing

theorem lookup_mapVal {μ : Type v} (m : SortedMap κ ν) (f : κ → ν → μ) (k : κ) :
    (m.mapVal f).lookup k = (m.lookup k).map (f k) := by
  refine Option.ext fun y => ?_
  rw [lookup_eq_some_iff, Option.map_eq_some_iff]
  constructor
  · intro h
    obtain ⟨e, he, heq⟩ := List.mem_map.mp h
    cases heq
    exact ⟨e.2, lookup_eq_some_iff.mpr he, rfl⟩
  · rintro ⟨x, hx, rfl⟩
    exact List.mem_map.mpr ⟨(k, x), lookup_eq_some_iff.mp hx, rfl⟩

section FilterMap

variable {ρ : Type v} {m : SortedMap κ ν} {f : ν → Option ρ} {key : ρ → κ}

/-- What some of the values yield, and that names its key, can be looked up. -/
theorem find?_filterMap (hkey : ∀ e ∈ m, ∀ y ∈ f e.2, key y = e.1) (k : κ) :
    (m.entries.filterMap fun e => f e.2).find? (fun y => key y = k) = (m.lookup k).bind f := by
  have hentries : ∀ l : List (κ × ν), (∀ e ∈ l, ∀ y ∈ f e.2, key y = e.1) →
      (l.map Prod.fst).Nodup → (l.filterMap fun e => f e.2).find? (fun y => key y = k) =
        (l.find? fun e => e.1 = k).bind fun e => f e.2 := by
    intro l hl hnodup
    induction l with
    | nil => rfl
    | cons e l ih =>
        obtain ⟨hnot, hnodup⟩ := List.nodup_cons.mp hnodup
        have ih := ih (fun e' he' => hl e' (List.mem_cons_of_mem e he')) hnodup
        have hfirst := hl e List.mem_cons_self
        by_cases he : e.1 = k
        · have hnone : l.find? (fun e => e.1 = k) = none :=
            List.find?_eq_none.mpr fun e' he' heq =>
              hnot (List.mem_map.mpr ⟨e', he', (of_decide_eq_true heq).trans he.symm⟩)
          rw [hnone, Option.bind_none] at ih
          rw [List.find?_cons_of_pos (by simpa using he), Option.bind_some]
          cases hy : f e.2 with
          | none => simpa [List.filterMap_cons, hy] using ih
          | some y => simp [hy, (hfirst y hy).trans he]
        · rw [List.find?_cons_of_neg (by simpa using he), ← ih]
          cases hy : f e.2 with
          | none => simp [hy]
          | some y => simp [hy, hfirst y hy, he]
  rw [hentries m.entries hkey m.nodup_keys, lookup, Option.bind_map]
  rfl

theorem nodup_filterMap (hkey : ∀ e ∈ m, ∀ y ∈ f e.2, key y = e.1) :
    ((m.entries.filterMap fun e => f e.2).map key).Nodup := by
  refine List.pairwise_map.mpr (List.pairwise_filterMap.mpr ?_)
  refine (List.pairwise_map.mp m.nodup_keys).imp_of_mem fun {e e'} he he' hne y hy y' hy' heq => ?_
  exact hne (by rw [← hkey e he y hy, ← hkey e' he' y' hy', heq])

end FilterMap

/-! ### Maps with at most one entry -/

/-- The map with the one value, if there is one. -/
def single (k : κ) (x : Option ν) : SortedMap κ ν := x.elim empty (empty.insert k)

theorem lookup_single (k : κ) (x : Option ν) (k' : κ) :
    (single k x).lookup k' = if k' = k then x else none := by
  cases x with
  | none => simp [single]
  | some x => rw [single, Option.elim_some, lookup_insert, lookup_empty]

@[simp] theorem lookup_single_self (k : κ) (x : Option ν) : (single k x).lookup k = x := by
  rw [lookup_single, if_pos rfl]

theorem insert_single (k : κ) (x : Option ν) (y : ν) :
    (single k x).insert k y = single k (some y) := by
  refine ext_lookup fun k' => ?_
  rw [lookup_insert, lookup_single, lookup_single]
  split <;> rfl

theorem erase_single_self (k : κ) (x : Option ν) : (single k x).erase k = single k none := by
  refine ext_lookup fun k' => ?_
  rw [lookup_erase, lookup_single, lookup_single]
  split <;> rfl

theorem erase_single_of_ne {k k' : κ} (h : k' ≠ k) (x : Option ν) :
    (single k x).erase k' = single k x := by
  refine ext_lookup fun k'' => ?_
  rw [lookup_erase, lookup_single]
  by_cases hk : k'' = k'
  · rw [if_pos hk, if_neg (hk ▸ h)]
  · rw [if_neg hk]

theorem keys_single (k : κ) (x : Option ν) :
    (single k x).entries.map Prod.fst = (x.map fun _ => k).toList := by
  cases x <;> rfl

/-! ### Sets of keys

A map to `Unit` is an ordered set. -/

theorem mem_insert_unit {m : SortedMap κ Unit} {k k' : κ} :
    (k', ()) ∈ m.insert k () ↔ k' = k ∨ (k', ()) ∈ m := by
  rw [mem_insert, Prod.mk.injEq]
  by_cases h : k' = k <;> simp [h]

/-- The keys of a list added to a set. -/
theorem mem_foldl_insert {α : Type u} {f : α → κ} {l : List α} {m : SortedMap κ Unit} {k : κ} :
    (k, ()) ∈ l.foldl (fun m a => m.insert (f a) ()) m ↔ (∃ a ∈ l, f a = k) ∨ (k, ()) ∈ m := by
  induction l generalizing m with
  | nil => simp
  | cons a l ih =>
      rw [List.foldl_cons, ih, mem_insert_unit, List.exists_mem_cons_iff, eq_comm (a := k),
        or_left_comm, or_assoc]

/-- The keys of a list removed from a map. -/
theorem mem_foldl_erase {α : Type u} {f : α → κ} {l : List α} {m : SortedMap κ ν} {e : κ × ν} :
    e ∈ l.foldl (fun m a => m.erase (f a)) m ↔ e ∈ m ∧ ∀ a ∈ l, f a ≠ e.1 := by
  induction l generalizing m with
  | nil => simp
  | cons a l ih =>
      rw [List.foldl_cons, ih, mem_erase, List.forall_mem_cons, ne_comm (a := f a), and_assoc]

/-! ## Range scans -/

theorem seek_eq_filter (m : SortedMap κ ν) (k : κ) :
    m.seek k = m.entries.filter fun e => k ≤ e.1 :=
  m.increasing.dropWhile_lt k

theorem mem_seek {m : SortedMap κ ν} {k : κ} {e : κ × ν} :
    e ∈ m.seek k ↔ e ∈ m ∧ k ≤ e.1 := by
  rw [seek_eq_filter]
  simp

theorem seek_increasing (m : SortedMap κ ν) (k : κ) : Increasing Prod.fst (m.seek k) :=
  m.increasing.sublist (List.dropWhile_sublist _)

/-- **The scan rule.**  A scan from `k` that stops at the first entry outside `p` yields
the entries of `p`, if none of them is below `k` and there is no gap between them. -/
theorem takeWhile_seek {m : SortedMap κ ν} {k : κ} {p : κ × ν → Bool}
    (start : ∀ e ∈ m, p e = true → k ≤ e.1)
    (convex : ∀ a ∈ m, ∀ b ∈ m, k ≤ a.1 → a.1 < b.1 → p b = true → p a = true) :
    (m.seek k).takeWhile p = m.entries.filter p := by
  have hgap : (m.seek k).Pairwise fun a b => p b = true → p a = true := by
    refine List.Pairwise.imp_of_mem (fun {a b} ha hb hlt hp => ?_) (seek_increasing m k)
    exact convex a (mem_seek.mp ha).1 b (mem_seek.mp hb).1 (mem_seek.mp ha).2 hlt hp
  rw [List.takeWhile_eq_filter_of_pairwise hgap, seek_eq_filter, List.filter_filter]
  refine List.filter_congr fun e he => ?_
  have hstart := start e he
  by_cases hp : p e = true
  · simp [hp, hstart hp]
  · simp [hp]

/-! ### Composite keys

Keys in two parts, compared by the first part and then by the second: the rows that share
the first part are next to each other. -/

variable {ι : Type v} [LinearOrder ι] {ρ : Type v}

/-- **The scan of a prefix**: the rows from the first one whose first part is not below `k`. -/
def seekPrefix (m : SortedMap (κ ×ₗ ι) ρ) (k : κ) : List ((κ ×ₗ ι) × ρ) :=
  m.entries.dropWhile fun e => (ofLex e.1).1 < k

/-- The rows under a first part, by a scan that starts at or below all of them. -/
theorem takeWhile_seek_fst {m : SortedMap (κ ×ₗ ι) ρ} {k : κ} {i : ι}
    (start : ∀ e ∈ m, (ofLex e.1).1 = k → i ≤ (ofLex e.1).2) :
    ((m.seek (toLex (k, i))).takeWhile fun e => (ofLex e.1).1 = k) =
      m.entries.filter fun e => (ofLex e.1).1 = k := by
  refine takeWhile_seek (fun e he hk => ?_) fun a _ b _ hle hlt hk => ?_
  · have hfst : (ofLex e.1).1 = k := by simpa using hk
    exact Prod.Lex.le_iff.mpr (Or.inr ⟨hfst.symm, start e he hfst⟩)
  · have hfst : (ofLex b.1).1 = k := by simpa using hk
    have hab : (ofLex a.1).1 ≤ (ofLex b.1).1 := Prod.Lex.monotone_fst_ofLex hlt.le
    have hka : k ≤ (ofLex a.1).1 := Prod.Lex.monotone_fst_ofLex hle
    simpa using le_antisymm (hfst ▸ hab) hka

/-- The rows under a first part, in the order of the second parts, given those parts. -/
theorem filter_fst_eq_map {m : SortedMap (κ ×ₗ ι) Unit} {k : κ} {l : List ι}
    (increasing : Increasing id l) (mem : ∀ i, (toLex (k, i), ()) ∈ m ↔ i ∈ l) :
    (m.entries.filter fun e => (ofLex e.1).1 = k) = l.map fun i => (toLex (k, i), ()) := by
  refine (m.increasing.filter _).ext ?_ fun e => ?_
  · refine List.pairwise_map.mpr (List.Pairwise.imp (fun hlt => ?_) increasing)
    exact Prod.Lex.toLex_lt_toLex.mpr (Or.inr ⟨rfl, hlt⟩)
  · obtain ⟨k', i, rfl⟩ : ∃ k' i, e = (toLex (k', i), ()) := ⟨_, _, rfl⟩
    rw [List.mem_filter, List.mem_map, decide_eq_true_iff]
    simp only [ofLex_toLex, mem_entries, Prod.mk.injEq, toLex_inj, and_true]
    constructor
    · rintro ⟨hmem, rfl⟩
      exact ⟨i, (mem i).mp hmem, rfl, rfl⟩
    · rintro ⟨j, hj, rfl, rfl⟩
      exact ⟨(mem j).mpr hj, rfl⟩

/-- **The scan rule for prefixes.**  A scan of the rows under `k` that stops at the first
one outside `p` yields the rows of `p`, if `p` is closed under earlier rows. -/
theorem takeWhile_seekPrefix {m : SortedMap (κ ×ₗ ι) ρ} {k : κ} {p : (κ ×ₗ ι) × ρ → Bool}
    (fst : ∀ e ∈ m, p e = true → (ofLex e.1).1 = k)
    (lower : ∀ a ∈ m, ∀ b ∈ m, a.1 < b.1 → (ofLex a.1).1 = k → p b = true → p a = true) :
    (m.seekPrefix k).takeWhile p = m.entries.filter p := by
  have hmono : m.entries.Pairwise fun a b => (ofLex a.1).1 ≤ (ofLex b.1).1 :=
    List.Pairwise.imp (fun hlt => Prod.Lex.monotone_fst_ofLex hlt.le) m.increasing
  have hseek : m.seekPrefix k = m.entries.filter fun e => k ≤ (ofLex e.1).1 := by
    rw [seekPrefix, List.dropWhile_eq_filter_of_pairwise]
    · refine List.filter_congr fun e _ => ?_
      rw [← decide_not, decide_eq_decide, not_lt]
    · refine hmono.imp fun hle hb => ?_
      simpa using hle.trans_lt (by simpa using hb)
  have hgap : (m.seekPrefix k).Pairwise fun a b => p b = true → p a = true := by
    rw [hseek]
    refine (List.Pairwise.and_mem.mp (m.increasing.filter _)).imp fun {a b} ⟨ha, hb, hlt⟩ hp => ?_
    obtain ⟨ha, hka⟩ := List.mem_filter.mp ha
    have hab : (ofLex a.1).1 ≤ (ofLex b.1).1 := Prod.Lex.monotone_fst_ofLex hlt.le
    have hbk := fst b (List.mem_of_mem_filter hb) hp
    exact lower a ha b (List.mem_of_mem_filter hb) hlt
      (le_antisymm (hbk ▸ hab) (by simpa using hka)) hp
  rw [List.takeWhile_eq_filter_of_pairwise hgap, hseek, List.filter_filter]
  refine List.filter_congr fun e he => ?_
  by_cases hp : p e = true
  · simp [hp, fst e he hp]
  · simp [hp]

end SortedMap
