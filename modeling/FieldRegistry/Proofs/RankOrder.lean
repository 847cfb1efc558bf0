import FieldRegistry.Ranking
import Mathlib.Data.List.Sort

/-!
# Ranks never change

A ranking gives new names the next ranks and keeps the old ones, so names that have a rank are sorted in
the same order by every later ranking. That different names have different ranks is an invariant of the
table and its counter, and holds for every ranking that comes from the initial one.
-/

namespace FieldRegistry.Ranking

variable {r r' r'' : Ranking} {names more : List String} {x y : String} {n : Nat}

/-! ## Giving ranks -/

theorem rank_of_get? (h : r.ranks.get? x = some n) : r.rank x = (n, r) := by rw [rank, h]

theorem rank_of_new (h : r.ranks.get? x = none) :
    r.rank x = (r.nextRank, ⟨r.ranks.insert x r.nextRank, r.nextRank + 1⟩) := by rw [rank, h]

theorem get?_rank (r : Ranking) (x : String) :
    (r.rank x).2.ranks.get? x = some (r.rank x).1 := by
  cases h : r.ranks.get? x with
  | some n => rw [rank_of_get? h, h]
  | none => rw [rank_of_new h, OrderedMap.get?_insert, if_pos rfl]

/-- The name has a rank. -/
def Knows (r : Ranking) (x : String) : Prop := ∃ n, r.ranks.get? x = some n

theorem Knows.get? (h : r.Knows x) : r.ranks.get? x = some (r.rank x).1 := by
  obtain ⟨n, hn⟩ := h
  rw [rank_of_get? hn, hn]

/-- `r'` has all the ranks of `r`. -/
def Later (r r' : Ranking) : Prop := ∀ x n, r.ranks.get? x = some n → r'.ranks.get? x = some n

theorem Later.refl (r : Ranking) : r.Later r := fun _ _ h => h

theorem Later.trans (h : r.Later r') (h' : r'.Later r'') : r.Later r'' :=
  fun x n hx => h' x n (h x n hx)

theorem Later.knows (h : r.Later r') (hx : r.Knows x) : r'.Knows x := ⟨_, h x _ hx.get?⟩

theorem Later.rank_eq (h : r.Later r') (hx : r.Knows x) : (r'.rank x).1 = (r.rank x).1 := by
  rw [rank_of_get? (h x _ hx.get?)]

theorem later_rank (r : Ranking) (x : String) : r.Later (r.rank x).2 := by
  intro y n hy
  cases hx : r.ranks.get? x with
  | some m => rwa [rank_of_get? hx]
  | none =>
      have hne : y ≠ x := by
        rintro rfl
        cases hx.symm.trans hy
      rwa [rank_of_new hx, OrderedMap.get?_insert, if_neg hne]

/-! ## Giving ranks to many names -/

/-- The ranking with a rank for each of some names. -/
def enrolAll (r : Ranking) (names : List String) : Ranking := (r.rankAll names).2

theorem enrolAll_cons (r : Ranking) (x : String) (names : List String) :
    r.enrolAll (x :: names) = (r.rank x).2.enrolAll names := rfl

theorem enrolAll_append (r : Ranking) (names more : List String) :
    r.enrolAll (names ++ more) = (r.enrolAll names).enrolAll more := by
  induction names generalizing r with
  | nil => rfl
  | cons x names ih => exact ih (r.rank x).2

theorem later_enrolAll (r : Ranking) (names : List String) : r.Later (r.enrolAll names) := by
  induction names generalizing r with
  | nil => exact .refl r
  | cons x names ih => exact (r.later_rank x).trans (ih (r.rank x).2)

theorem knows_enrolAll (r : Ranking) (h : x ∈ names) : (r.enrolAll names).Knows x := by
  induction names generalizing r with
  | nil => cases h
  | cons y names ih =>
      rcases List.mem_cons.mp h with rfl | h
      · exact ((r.rank x).2.later_enrolAll names).knows ⟨_, r.get?_rank x⟩
      · exact ih (r.rank y).2 h

theorem enrolAll_of_known (h : ∀ x ∈ names, r.Knows x) : r.enrolAll names = r := by
  induction names with
  | nil => rfl
  | cons x names ih =>
      rw [enrolAll_cons, rank_of_get? (h x (by simp)).get?]
      exact ih fun y hy => h y (by simp [hy])

/-- Of two lists that begin alike, the longer one decides, whichever is enrolled first. -/
theorem enrolAll_enrolAll (r : Ranking) {all : List String} (h : names <+: all) :
    (r.enrolAll names).enrolAll all = r.enrolAll all ∧
      (r.enrolAll all).enrolAll names = r.enrolAll all := by
  obtain ⟨more, rfl⟩ := h
  have hagain : (r.enrolAll names).enrolAll names = r.enrolAll names :=
    enrolAll_of_known fun x hx => r.knows_enrolAll hx
  constructor
  · rw [enrolAll_append, hagain, enrolAll_append]
  · exact enrolAll_of_known fun x hx => r.knows_enrolAll (List.mem_append_left more hx)

theorem enrolAll_known (r : Ranking) (names more : List String) :
    ((r.enrolAll names).enrolAll more).enrolAll names = (r.enrolAll names).enrolAll more :=
  enrolAll_of_known fun _ hx => ((r.enrolAll names).later_enrolAll more).knows (r.knows_enrolAll hx)

/-! ## Sorting -/

/-- The order of names by their ranks in `r`. -/
def before (r : Ranking) (x y : String) : Bool := pairBefore ((r.rank x).1, x) ((r.rank y).1, y)

/-- A name keeps the rank that it gets on the way. -/
theorem rankAll_eq (r : Ranking) (names : List String) :
    (r.rankAll names).1 = names.map fun x => (((r.enrolAll names).rank x).1, x) := by
  induction names generalizing r with
  | nil => rfl
  | cons x names ih =>
      have hx := (r.rank x).2.later_enrolAll names x _ (r.get?_rank x)
      rw [enrolAll_cons, List.map_cons, ← ih, rank_of_get? hx]
      rfl

/-- Sorting names with their ranks is sorting names by the ranks that they have in the end. -/
theorem sort_eq (r : Ranking) (names : List String) :
    r.sort names = (names.mergeSort (r.enrolAll names).before, r.enrolAll names) := by
  refine Prod.ext ?_ rfl
  have hpairs := List.map_mergeSort (l := names) (r := (r.enrolAll names).before) (s := pairBefore)
    (f := fun x => (((r.enrolAll names).rank x).1, x)) fun _ _ _ _ => rfl
  calc (r.sort names).1
    _ = ((r.rankAll names).1.mergeSort pairBefore).map (·.2) := rfl
    _ = names.mergeSort (r.enrolAll names).before := by
        rw [rankAll_eq, ← hpairs, List.map_map]
        exact List.map_id _

theorem perm_sort (r : Ranking) (names : List String) : (r.sort names).1.Perm names := by
  rw [sort_eq]
  exact List.mergeSort_perm ..

theorem pairBefore_trans (a b c : Nat × String) (hab : pairBefore a b = true)
    (hbc : pairBefore b c = true) : pairBefore a c = true := by
  simp only [pairBefore, Bool.or_eq_true, Bool.and_eq_true, decide_eq_true_eq, beq_iff_eq] at *
  rcases hab with hab | ⟨hab, hle⟩ <;> rcases hbc with hbc | ⟨hbc, hle'⟩
  · exact Or.inl (Nat.lt_trans hab hbc)
  · exact Or.inl (hbc ▸ hab)
  · exact Or.inl (hab ▸ hbc)
  · exact Or.inr ⟨hab.trans hbc, String.le_trans hle hle'⟩

theorem pairBefore_total (a b : Nat × String) : (pairBefore a b || pairBefore b a) = true := by
  simp only [pairBefore, Bool.or_eq_true, Bool.and_eq_true, decide_eq_true_eq, beq_iff_eq]
  rcases Nat.lt_trichotomy a.1 b.1 with h | h | h
  · exact Or.inl (Or.inl h)
  · rcases String.le_total a.2 b.2 with hle | hle
    · exact Or.inl (Or.inr ⟨h, hle⟩)
    · exact Or.inr (Or.inr ⟨h.symm, hle⟩)
  · exact Or.inr (Or.inl h)

theorem pairwise_mergeSort_before (r : Ranking) (names : List String) :
    (names.mergeSort r.before).Pairwise fun x y => (r.rank x).1 ≤ (r.rank y).1 := by
  have hsorted : (names.mergeSort r.before).Pairwise fun x y => r.before x y = true := by
    refine List.pairwise_mergeSort ?_ ?_ names
    · exact fun x y z => pairBefore_trans _ _ _
    · exact fun x y => pairBefore_total _ _
  refine hsorted.imp fun h => ?_
  simp only [before, pairBefore, Bool.or_eq_true, Bool.and_eq_true, decide_eq_true_eq, beq_iff_eq] at h
  rcases h with h | h
  · exact Nat.le_of_lt h
  · exact Nat.le_of_eq h.1

theorem mergeSort_of_later (hl : r.Later r') (h : ∀ x ∈ names, r.Knows x) :
    names.mergeSort r'.before = names.mergeSort r.before := by
  have hsame : ∀ x ∈ names, ∀ y ∈ names, r'.before x y = r.before x y := by
    intro x hx y hy
    rw [before, before, hl.rank_eq (h x hx), hl.rank_eq (h y hy)]
  simpa using List.map_mergeSort (f := id) hsame

/-- A ranking sorts names as it did when it first met them. -/
theorem sort_enrolAll (r : Ranking) (names more : List String) :
    (((r.enrolAll names).enrolAll more).sort names).1 = (r.sort names).1 := by
  rw [sort_eq, sort_eq, enrolAll_known]
  exact mergeSort_of_later ((r.enrolAll names).later_enrolAll more) fun x hx => r.knows_enrolAll hx

/-! ## Different names have different ranks -/

/-- The names of the table, by rank. -/
def standardNames : List String := standardRanks.map Prod.fst

/-- What the table and its counter keep to. -/
structure Valid (r : Ranking) : Prop where
  injective : ∀ x y n, r.ranks.get? x = some n → r.ranks.get? y = some n → x = y
  below : ∀ x n, r.ranks.get? x = some n → n < r.nextRank
  positive : ∀ x n, r.ranks.get? x = some n → 0 < n
  standard : ∀ entry ∈ standardRanks, r.ranks.get? entry.1 = some entry.2

theorem valid_initial : initial.Valid := by
  have hmem : ∀ x n, initial.ranks.get? x = some n → (x, n) ∈ standardRanks :=
    fun x n h => OrderedMap.get?_eq_some_iff.mp h
  have hbounds : ∀ entry ∈ standardRanks, 0 < entry.2 ∧ entry.2 < initial.nextRank := by decide
  have hdistinct : (standardRanks.map Prod.snd).Nodup := by decide
  refine ⟨fun x y n hx hy => ?_, fun x n hx => (hbounds _ (hmem x n hx)).2,
    fun x n hx => (hbounds _ (hmem x n hx)).1, fun entry he => OrderedMap.get?_eq_some_iff.mpr he⟩
  exact congrArg Prod.fst (List.inj_on_of_nodup_map hdistinct (hmem x n hx) (hmem y n hy) rfl)

/-- A new name gets the counter, which lies above all ranks so far. -/
theorem Valid.rank (h : r.Valid) (x : String) : (r.rank x).2.Valid := by
  cases hx : r.ranks.get? x with
  | some n => rwa [rank_of_get? hx]
  | none =>
      have hget : ∀ y n, (r.rank x).2.ranks.get? y = some n →
          y = x ∧ n = r.nextRank ∨ r.ranks.get? y = some n := by
        intro y n hy
        rw [rank_of_new hx, OrderedMap.get?_insert] at hy
        split at hy
        · rename_i hyx
          exact Or.inl ⟨hyx, (Option.some.inj hy).symm⟩
        · exact Or.inr hy
      have hnext : (r.rank x).2.nextRank = r.nextRank + 1 := by rw [rank_of_new hx]
      refine ⟨fun y z n hy hz => ?_, fun y n hy => ?_, fun y n hy => ?_, fun entry he => ?_⟩
      · rcases hget y n hy with ⟨hyx, hn⟩ | hy' <;> rcases hget z n hz with ⟨hzx, hn'⟩ | hz'
        · exact hyx.trans hzx.symm
        · exact absurd (hn ▸ h.below z n hz') (Nat.lt_irrefl _)
        · exact absurd (hn' ▸ h.below y n hy') (Nat.lt_irrefl _)
        · exact h.injective y z n hy' hz'
      · rw [hnext]
        rcases hget y n hy with ⟨-, rfl⟩ | hy
        · exact Nat.lt_succ_self _
        · exact Nat.lt_succ_of_lt (h.below y n hy)
      · rcases hget y n hy with ⟨-, rfl⟩ | hy
        · -- the counter lies above the ranks of the table
          have hstandard := h.standard ("horizontal_dimension", 1) (by decide)
          exact Nat.lt_trans (h.positive _ _ hstandard) (h.below _ _ hstandard)
        · exact h.positive y n hy
      · exact r.later_rank x _ _ (h.standard entry he)

theorem Valid.enrolAll (h : r.Valid) (names : List String) : (r.enrolAll names).Valid := by
  induction names generalizing r with
  | nil => exact h
  | cons x names ih => exact ih (h.rank x)

theorem Valid.eq_of_rank_eq (h : r.Valid) (hx : r.Knows x) (hy : r.Knows y)
    (hrank : (r.rank x).1 = (r.rank y).1) : x = y :=
  h.injective x y _ hx.get? (hrank ▸ hy.get?)

end FieldRegistry.Ranking
