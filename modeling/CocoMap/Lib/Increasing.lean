import Mathlib.Algebra.Order.Ring.Int
import Mathlib.Data.List.Pairwise
import Mathlib.Data.List.Sort

/-!
# Increasing and consecutive lists

Lists whose elements carry a key, in the order of their keys.  `Increasing f l` says
that the keys strictly increase: the order of a log, a table or a queue of numbered
requests.  An increasing list is determined by its members (`Increasing.ext`), has at
most one element for a key (`Increasing.find?_eq_some_iff`), and its front and back
parts are the elements below and above a bound (`Increasing.dropWhile_lt`).

`Consecutive f first l` says that the keys are `first`, `first + 1`, and so on, so that
the position of an element is a difference of keys: positions and conditions on the
keys select the same elements (`Consecutive.drop_eq_filter`, `Consecutive.take_eq_filter`,
`Consecutive.getElem?_eq_find?`).
-/

universe u v

variable {α : Type u} {κ : Type v}

/-- What a scan that stops at the first element outside `p` has seen, when `p` has no gap. -/
theorem List.takeWhile_eq_filter_of_pairwise {l : List α} {p : α → Bool}
    (h : l.Pairwise fun a b => p b = true → p a = true) : l.takeWhile p = l.filter p := by
  induction l with
  | nil => rfl
  | cons e l ih =>
      obtain ⟨hhead, htail⟩ := List.pairwise_cons.mp h
      by_cases hp : p e = true
      · rw [List.takeWhile_cons_of_pos hp, List.filter_cons_of_pos hp, ih htail]
      · rw [List.takeWhile_cons_of_neg hp, List.filter_cons_of_neg hp, eq_comm]
        exact List.filter_eq_nil_iff.mpr fun a ha hpa => hp (hhead a ha hpa)

/-- Dropping the elements of a kind from the front drops them all, when they come first. -/
theorem List.dropWhile_eq_filter_of_pairwise {l : List α} {p : α → Bool}
    (h : l.Pairwise fun a b => p b = true → p a = true) :
    l.dropWhile p = l.filter fun a => !p a := by
  induction l with
  | nil => rfl
  | cons e l ih =>
      obtain ⟨hhead, htail⟩ := List.pairwise_cons.mp h
      by_cases hp : p e = true
      · rw [List.dropWhile_cons_of_pos hp, List.filter_cons_of_neg (by simp [hp]), ih htail]
      · rw [List.dropWhile_cons_of_neg hp, List.filter_cons_of_pos (by simp [hp])]
        congr 1
        refine (List.filter_eq_self.mpr fun a ha => ?_).symm
        simpa using fun hpa => hp (hhead a ha hpa)

/-- A partial function that returns every element of a list returns the list. -/
theorem List.mapM_eq_some_self {β : Type u} {l : List α} {f : β → Option α} {g : α → β}
    (h : ∀ a ∈ l, f (g a) = some a) : (l.map g).mapM f = some l := by
  induction l with
  | nil => rfl
  | cons a l ih =>
      rw [List.map_cons, List.mapM_cons, h a List.mem_cons_self,
        ih fun b hb => h b (List.mem_cons_of_mem a hb)]
      rfl

/-- Dropping elements from the front that are filtered out anyway. -/
theorem List.filter_dropWhile_not {l : List α} {p : α → Bool} :
    (l.dropWhile p).filter (fun a => !p a) = l.filter fun a => !p a := by
  conv => rhs; rw [← List.takeWhile_append_dropWhile (p := p) (l := l), List.filter_append]
  have hnil : (l.takeWhile p).filter (fun a => !p a) = [] := by
    refine List.filter_eq_nil_iff.mpr fun a ha => ?_
    simpa using List.all_eq_true.mp List.all_takeWhile a ha
  rw [hnil, List.nil_append]

/-! ## Increasing lists -/

/-- The keys strictly increase. -/
def Increasing [LT κ] (f : α → κ) (l : List α) : Prop := l.Pairwise fun a b => f a < f b

namespace Increasing

variable [LinearOrder κ] {f : α → κ} {l l' : List α}

@[simp] theorem nil (f : α → κ) : Increasing f [] := List.Pairwise.nil

theorem cons_iff {a : α} : Increasing f (a :: l) ↔ (∀ b ∈ l, f a < f b) ∧ Increasing f l :=
  List.pairwise_cons

theorem append_iff :
    Increasing f (l ++ l') ↔
      Increasing f l ∧ Increasing f l' ∧ ∀ a ∈ l, ∀ b ∈ l', f a < f b :=
  List.pairwise_append

/-- A new greatest element. -/
theorem concat {a : α} (h : Increasing f l) (ha : ∀ b ∈ l, f b < f a) : Increasing f (l ++ [a]) :=
  append_iff.mpr ⟨h, List.pairwise_singleton _ _, fun b hb c hc => by
    rw [List.mem_singleton.mp hc]
    exact ha b hb⟩

theorem filter (h : Increasing f l) (p : α → Bool) : Increasing f (l.filter p) :=
  List.Pairwise.filter p h

theorem sublist (h : Increasing f l') (hl : l.Sublist l') : Increasing f l := List.Pairwise.sublist hl h

/-- **Extensionality.**  An increasing list is determined by its members. -/
theorem ext (h : Increasing f l) (h' : Increasing f l') (hmem : ∀ a, a ∈ l ↔ a ∈ l') : l = l' :=
  have : Std.Antisymm fun a b => f a < f b := ⟨fun _ _ hlt hgt => absurd hgt hlt.asymm⟩
  have : Std.Irrefl fun a b => f a < f b := ⟨fun a => lt_irrefl (f a)⟩
  List.Pairwise.eq_of_mem_iff h h' hmem

/-- A key belongs to at most one element. -/
theorem eq_of_mem (h : Increasing f l) {a b : α} (ha : a ∈ l) (hb : b ∈ l) (hkey : f a = f b) :
    a = b := by
  by_contra hne
  have hkeys : l.Pairwise fun a b => f a ≠ f b := List.Pairwise.imp (fun hlt => hlt.ne) h
  have : Std.Symm fun a b => f a ≠ f b := ⟨fun _ _ hab => hab.symm⟩
  exact hkeys.forall ha hb hne hkey

theorem find?_eq_some_iff (h : Increasing f l) {k : κ} {a : α} :
    (l.find? fun b => f b = k) = some a ↔ a ∈ l ∧ f a = k := by
  constructor
  · intro hfind
    exact ⟨List.mem_of_find?_eq_some hfind, by simpa using List.find?_some hfind⟩
  · rintro ⟨hmem, rfl⟩
    obtain ⟨b, hfind⟩ := Option.isSome_iff_exists.mp
      (List.find?_isSome (p := fun b => f b = f a).mpr ⟨a, hmem, by simp⟩)
    have hkey : f b = f a := by simpa using List.find?_some hfind
    rw [hfind, h.eq_of_mem (List.mem_of_find?_eq_some hfind) hmem hkey]

/-- The elements below a key come first. -/
theorem dropWhile_lt (h : Increasing f l) (k : κ) :
    (l.dropWhile fun a => f a < k) = l.filter fun a => k ≤ f a := by
  rw [List.dropWhile_eq_filter_of_pairwise]
  · refine List.filter_congr fun a _ => ?_
    rw [← decide_not, decide_eq_decide, not_lt]
  · refine List.Pairwise.imp (fun hab hb => ?_) h
    simpa using hab.trans (by simpa using hb)

/-- The elements up to a key come before those above it. -/
theorem filter_le_append_filter_lt (h : Increasing f l) (k : κ) :
    (l.filter fun a => f a ≤ k) ++ (l.filter fun a => k < f a) = l := by
  induction l with
  | nil => rfl
  | cons a l ih =>
      obtain ⟨hhead, htail⟩ := cons_iff.mp h
      by_cases ha : f a ≤ k
      · rw [List.filter_cons_of_pos (by simpa using ha), List.filter_cons_of_neg (by simpa using ha),
          List.cons_append, ih htail]
      · have hlt : k < f a := not_le.mp ha
        have hnil : (l.filter fun b => f b ≤ k) = [] := List.filter_eq_nil_iff.mpr fun b hb => by
          simpa using hlt.trans (hhead b hb)
        have hall : (l.filter fun b => k < f b) = l := List.filter_eq_self.mpr fun b hb => by
          simpa using hlt.trans (hhead b hb)
        rw [List.filter_cons_of_neg (by simpa using ha), List.filter_cons_of_pos (by simpa using hlt),
          hnil, hall, List.nil_append]

/-- The elements up to one of them, and those after it. -/
theorem filter_of_split {pre post : List α} {a : α} (h : Increasing f (pre ++ a :: post)) :
    ((pre ++ a :: post).filter fun b => f b ≤ f a) = pre ++ [a] ∧
      ((pre ++ a :: post).filter fun b => f a < f b) = post := by
  obtain ⟨-, htail, hcross⟩ := append_iff.mp h
  obtain ⟨hpost, -⟩ := cons_iff.mp htail
  have hpre : ∀ b ∈ pre, f b < f a := fun b hb => hcross b hb a List.mem_cons_self
  constructor
  · have hself : (pre.filter fun b => f b ≤ f a) = pre := List.filter_eq_self.mpr fun b hb => by
      simpa using (hpre b hb).le
    have hnil : (post.filter fun b => f b ≤ f a) = [] := List.filter_eq_nil_iff.mpr fun b hb => by
      simpa using hpost b hb
    rw [List.filter_append, hself, List.filter_cons_of_pos (by simp), hnil]
  · have hnil : (pre.filter fun b => f a < f b) = [] := List.filter_eq_nil_iff.mpr fun b hb => by
      simpa using (hpre b hb).le
    have hself : (post.filter fun b => f a < f b) = post := List.filter_eq_self.mpr fun b hb => by
      simpa using hpost b hb
    rw [List.filter_append, hnil, List.filter_cons_of_neg (by simp), hself, List.nil_append]

/-- The last element is the greatest. -/
theorem le_getLastD {a b : α} (h : Increasing f (a :: l)) (hb : b ∈ a :: l) :
    f b ≤ f (l.getLastD a) := by
  induction l generalizing a b with
  | nil => rw [List.mem_singleton.mp hb, List.getLastD_nil]
  | cons c l ih =>
      obtain ⟨hhead, htail⟩ := cons_iff.mp h
      rw [List.getLastD_cons]
      rcases List.mem_cons.mp hb with rfl | hmem
      · exact (hhead c List.mem_cons_self).le.trans (ih htail List.mem_cons_self)
      · exact ih htail hmem

/-- Dropping the elements of an infix by their keys leaves the two parts around it. -/
theorem filter_notMem_infix [DecidableEq κ] {pre mid post : List α}
    (h : Increasing f (pre ++ mid ++ post)) :
    ((pre ++ mid ++ post).filter fun a => f a ∉ mid.map f) = pre ++ post := by
  obtain ⟨hfront, -, hcross⟩ := append_iff.mp h
  obtain ⟨-, -, hpre⟩ := append_iff.mp hfront
  have keep : ∀ part : List α, (∀ a ∈ part, ∀ b ∈ mid, f b ≠ f a) →
      (part.filter fun a => f a ∉ mid.map f) = part := by
    intro part hpart
    refine List.filter_eq_self.mpr fun a ha => ?_
    simpa using hpart a ha
  have drop : (mid.filter fun a => f a ∉ mid.map f) = [] := by
    refine List.filter_eq_nil_iff.mpr fun a ha => ?_
    simpa using ⟨a, ha, rfl⟩
  rw [List.filter_append, List.filter_append, drop, List.append_nil,
    keep pre fun a ha b hb => (hpre a ha b hb).ne',
    keep post fun a ha b hb => (hcross b (List.mem_append_right _ hb) a ha).ne]

end Increasing

/-! ## Consecutive lists -/

/-- The keys are `first`, `first + 1`, and so on. -/
def Consecutive (f : α → ℤ) : ℤ → List α → Prop
  | _, [] => True
  | first, a :: l => f a = first ∧ Consecutive f (first + 1) l

namespace Consecutive

variable {f : α → ℤ} {first : ℤ} {l l' : List α}

@[simp] theorem nil (f : α → ℤ) (first : ℤ) : Consecutive f first [] := trivial

theorem cons_iff {a : α} :
    Consecutive f first (a :: l) ↔ f a = first ∧ Consecutive f (first + 1) l := Iff.rfl

theorem append_iff :
    Consecutive f first (l ++ l') ↔
      Consecutive f first l ∧ Consecutive f (first + l.length) l' := by
  induction l generalizing first with
  | nil => simp
  | cons a l ih =>
      rw [List.cons_append, cons_iff, cons_iff, ih, and_assoc, List.length_cons]
      have hfirst : first + 1 + (l.length : ℤ) = first + ((l.length + 1 : ℕ) : ℤ) := by
        omega
      rw [hfirst]

/-- The end of a consecutive list is consecutive, and ends before the same key. -/
theorem suffix {next : ℤ} (h : Consecutive f (next - l.length) l) (hl : l'.IsSuffix l) :
    Consecutive f (next - l'.length) l' := by
  obtain ⟨front, rfl⟩ := hl
  rw [append_iff] at h
  have hfirst : next - ((front ++ l').length : ℤ) + front.length = next - l'.length := by
    rw [List.length_append]
    omega
  exact hfirst ▸ h.2

theorem map {g : α → α} (hg : ∀ a, f (g a) = f a) (h : Consecutive f first l) :
    Consecutive f first (l.map g) := by
  induction l generalizing first with
  | nil => exact nil f first
  | cons a l ih => exact ⟨(hg a).trans h.1, ih h.2⟩

/-- Elements may be replaced by others with the same keys. -/
theorem map_infix {g : α → α} {pre mid post : List α} (hg : ∀ a, f (g a) = f a)
    (h : Consecutive f first (pre ++ mid ++ post)) :
    Consecutive f first (pre ++ mid.map g ++ post) := by
  rw [append_iff, append_iff] at h ⊢
  refine ⟨⟨h.1.1, h.1.2.map hg⟩, ?_⟩
  simpa using h.2

theorem mem_bounds (h : Consecutive f first l) {a : α} (ha : a ∈ l) :
    first ≤ f a ∧ f a < first + l.length := by
  induction l generalizing first with
  | nil => cases ha
  | cons b l ih =>
      rw [List.length_cons]
      rcases List.mem_cons.mp ha with rfl | hmem
      · have := h.1
        omega
      · have := ih h.2 hmem
        omega

theorem increasing (h : Consecutive f first l) : Increasing f l := by
  induction l generalizing first with
  | nil => exact Increasing.nil f
  | cons a l ih =>
      refine Increasing.cons_iff.mpr ⟨fun b hb => ?_, ih h.2⟩
      have := (mem_bounds h.2 hb).1
      have := h.1
      omega

/-- The element at a position is the one with the key at that distance. -/
theorem getElem?_eq_find? (h : Consecutive f first l) {k : ℤ} (hk : first ≤ k) :
    l[(k - first).toNat]? = l.find? fun a => f a = k := by
  induction l generalizing first with
  | nil => rfl
  | cons a l ih =>
      obtain ⟨ha, htail⟩ := h
      by_cases heq : first = k
      · have hzero : (k - first).toNat = 0 := by omega
        rw [hzero, List.getElem?_cons_zero, List.find?_cons_of_pos (by simp [ha, heq])]
      · have hsucc : (k - first).toNat = (k - (first + 1)).toNat + 1 := by omega
        rw [hsucc, List.getElem?_cons_succ, ih htail (by omega),
          List.find?_cons_of_neg (by simp [ha, heq])]

/-- Dropping by position drops the elements below a key. -/
theorem drop_eq_filter (h : Consecutive f first l) (k : ℤ) :
    l.drop (k - first).toNat = l.filter fun a => k ≤ f a := by
  induction l generalizing first with
  | nil => simp
  | cons a l ih =>
      by_cases hle : k ≤ first
      · have hzero : (k - first).toNat = 0 := by omega
        rw [hzero, List.drop_zero, eq_comm, List.filter_eq_self]
        intro b hb
        have := (mem_bounds h hb).1
        exact decide_eq_true (by omega)
      · have hsucc : (k - first).toNat = (k - (first + 1)).toNat + 1 := by omega
        have ha := h.1
        rw [hsucc, List.drop_succ_cons, ih h.2, List.filter_cons_of_neg]
        simpa using by omega

/-- Taking by position takes the elements below a key. -/
theorem take_eq_filter (h : Consecutive f first l) (k : ℤ) :
    l.take (k - first).toNat = l.filter fun a => f a < k := by
  induction l generalizing first with
  | nil => simp
  | cons a l ih =>
      by_cases hle : k ≤ first
      · have hzero : (k - first).toNat = 0 := by omega
        rw [hzero, List.take_zero, eq_comm, List.filter_eq_nil_iff]
        intro b hb
        have := (mem_bounds h hb).1
        simpa using by omega
      · have hsucc : (k - first).toNat = (k - (first + 1)).toNat + 1 := by omega
        have ha := h.1
        rw [hsucc, List.take_succ_cons, ih h.2, List.filter_cons_of_pos]
        simpa using by omega

end Consecutive
