import FieldRegistry.Proofs.NameTables
import FieldRegistry.SourceModule
import Mathlib.Data.Prod.Lex

/-!
# Arrangements of imports

Imports are either sorted, with neighbours of one key dropped, or filtered by the keys seen so far. The
sort is stable, so that of the imports with one key the first stays the first, and equal keys are
neighbours after it. Both ways therefore keep the first occurrence of each key.
-/

namespace FieldRegistry

namespace Layout

/-! ## First occurrences -/

section Keys

variable {α κ : Type} {key : α → κ} {a b : α} {as : List α}

/-- `a` is the first element of its key in a list. -/
def FirstOf (key : α → κ) (as : List α) (a : α) : Prop :=
  ∃ before after, as = before ++ a :: after ∧ ∀ b ∈ before, key b ≠ key a

variable [BEq κ]

theorem firstByKey_sublist (key : α → κ) (seen : List κ) (as : List α) :
    (firstByKey key seen as).Sublist as := by
  induction as generalizing seen with
  | nil => exact .slnil
  | cons b rest ih =>
      rw [firstByKey]
      split
      · exact (ih seen).cons b
      · exact (ih _).cons_cons b

variable [LawfulBEq κ]

theorem firstOf_iff_find? : FirstOf key as a ↔ as.find? (fun b => key b == key a) = some a := by
  simp [List.find?_eq_some_iff_append, FirstOf]

theorem mem_firstByKey_iff {seen : List κ} :
    a ∈ firstByKey key seen as ↔ key a ∉ seen ∧ FirstOf key as a := by
  rw [firstOf_iff_find?]
  induction as generalizing seen with
  | nil => simp [firstByKey]
  | cons b rest ih =>
      rw [firstByKey, List.find?_cons]
      by_cases hkey : key b = key a
      · by_cases hseen : key a ∈ seen
        · simp [ih, hkey, hseen]
        · simp [ih, hkey, hseen, eq_comm]
      · have hne : a ≠ b := by
          rintro rfl
          exact hkey rfl
        have hkey' : (key b == key a) = false := beq_false_of_ne hkey
        split
        · rw [ih, hkey']
        · simp [ih, hkey', hne, Ne.symm hkey]

theorem firstByKey_eq_self {seen : List κ} (hseen : ∀ a ∈ as, key a ∉ seen)
    (hnodup : (as.map key).Nodup) : firstByKey key seen as = as := by
  induction as generalizing seen with
  | nil => rfl
  | cons b rest ih =>
      obtain ⟨hb, hrest⟩ := List.forall_mem_cons.mp hseen
      rw [List.map_cons, List.nodup_cons] at hnodup
      have hlater : ∀ a ∈ rest, key a ∉ key b :: seen := by
        intro a ha hmem
        rcases List.mem_cons.mp hmem with heq | hmem
        · exact hnodup.1 (heq ▸ List.mem_map_of_mem ha)
        · exact hrest a ha hmem
      rw [firstByKey, if_neg (by simpa using hb), ih hlater hnodup.2]

theorem pairwise_idxOf_firstByKey [DecidableEq α] (key : α → κ) (seen : List κ) (as : List α) :
    (firstByKey key seen as).Pairwise fun a b => as.idxOf a < as.idxOf b := by
  induction as generalizing seen with
  | nil => exact .nil
  | cons b rest ih =>
      -- the head has no second place among the elements that stay
      have hshift : ∀ {seen : List κ}, key b ∈ seen → ∀ a ∈ firstByKey key seen rest,
          (b :: rest).idxOf a = rest.idxOf a + 1 := by
        intro seen hb a ha
        refine List.idxOf_cons_ne _ ?_
        rintro rfl
        exact notMem_of_mem_firstByKey ha hb
      have htail : ∀ {seen : List κ}, key b ∈ seen →
          (firstByKey key seen rest).Pairwise fun a c => (b :: rest).idxOf a < (b :: rest).idxOf c := by
        intro seen hb
        refine (ih seen).imp_of_mem fun ha hc hlt => ?_
        rw [hshift hb _ ha, hshift hb _ hc]
        exact Nat.succ_lt_succ hlt
      rw [firstByKey]
      split
      · rename_i hb
        exact htail (by simpa using hb)
      · refine List.pairwise_cons.mpr ⟨fun a ha => ?_, htail List.mem_cons_self⟩
        rw [hshift List.mem_cons_self a ha, List.idxOf_cons_self]
        exact Nat.succ_pos _

/-! ## Sorted lists -/

variable {ρ : Type} {rank : α → ρ}

/-- Where elements of one key are neighbours, dropping repeats of the neighbour drops all repeats. -/
theorem dropRepeats_eq_firstByKey [PartialOrder ρ] (hrank : ∀ a b, rank a = rank b ↔ key a = key b)
    {seen : List κ} (hsorted : (a :: as).Pairwise fun a b => rank a ≤ rank b)
    (hseen : ∀ b ∈ a :: as, key b ∉ seen) :
    dropRepeats key a as = firstByKey key seen (a :: as) := by
  induction as generalizing a seen with
  | nil =>
      have ha : ¬ seen.contains (key a) = true := by simpa using hseen a List.mem_cons_self
      rw [dropRepeats, firstByKey, if_neg ha, firstByKey]
  | cons b rest ih =>
      obtain ⟨ha, hrest⟩ := List.forall_mem_cons.mp hseen
      have hnew : ¬ seen.contains (key a) = true := by simpa using ha
      rw [dropRepeats, firstByKey, if_neg hnew]
      split
      · rename_i hkey
        have hsub : (a :: rest).Sublist (a :: b :: rest) := (List.sublist_cons_self b rest).cons_cons a
        rw [ih (hsorted.sublist hsub) fun c hc => hseen c (hsub.subset hc), firstByKey, if_neg hnew,
          firstByKey, if_pos (by simpa using Or.inl (beq_iff_eq.mp hkey).symm)]
      · rename_i hkey
        rw [List.pairwise_cons] at hsorted
        have hlater : ∀ c ∈ b :: rest, key c ∉ key a :: seen := by
          intro c hc hmem
          rcases List.mem_cons.mp hmem with heq | hmem
          · -- `b` stands between two elements of one rank
            have hba : rank b ≤ rank a := by
              rw [← (hrank c a).mpr heq]
              rcases List.mem_cons.mp hc with rfl | hc
              · exact le_rfl
              · exact List.rel_of_pairwise_cons hsorted.2 hc
            have hab : rank a ≤ rank b := hsorted.1 b List.mem_cons_self
            exact hkey (beq_iff_eq.mpr ((hrank a b).mp (le_antisymm hab hba)))
          · exact hrest c hc hmem
        rw [ih hsorted.2 hlater]

/-- A stable sort keeps the order among elements of one key. -/
theorem filter_mergeSort {le : α → α → Bool} (trans : ∀ a b c, le a b → le b c → le a c)
    (total : ∀ a b, le a b || le b a) (hle : ∀ a b, key a = key b → le a b) (as : List α) (k : κ) :
    (as.mergeSort le).filter (fun a => key a == k) = as.filter fun a => key a == k := by
  have hperm := (List.mergeSort_perm as le).filter fun a => key a == k
  have hsorted : (as.filter fun a => key a == k).Pairwise fun a b => le a b = true := by
    refine List.pairwise_of_forall_mem_list fun a ha b hb => hle a b ?_
    rw [beq_iff_eq.mp (List.mem_filter.mp ha).2, beq_iff_eq.mp (List.mem_filter.mp hb).2]
  have hsub := (List.sublist_mergeSort trans total hsorted List.filter_sublist).filter fun a => key a == k
  rw [List.filter_filter] at hsub
  simp only [Bool.and_self] at hsub
  exact (hsub.eq_of_length hperm.length_eq.symm).symm

end Keys

theorem columnWidth_perm {cells cells' : List String} (h : cells.Perm cells') :
    columnWidth cells = columnWidth cells' := by
  induction h with
  | nil => rfl
  | cons cell _ ih => rw [columnWidth_cons, columnWidth_cons, ih]
  | swap a b cells => simp only [columnWidth_cons, Nat.max_left_comm]
  | trans _ _ ih ih' => exact ih.trans ih'

/-! ## Imports -/

namespace Import

variable {imports imports' : List Import}

theorem before_iff {i j : Import} : before i j = true ↔ toLex i.key ≤ toLex j.key := by
  simp [before, Prod.Lex.toLex_le_toLex]

theorem before_trans (i j k : Import) : before i j → before j k → before i k := by
  simp only [before_iff]
  exact le_trans

theorem before_total (i j : Import) : (before i j || before j i) = true := by
  simp only [Bool.or_eq_true, before_iff]
  exact le_total ..

theorem pairwise_mergeSort (imports : List Import) :
    (imports.mergeSort before).Pairwise fun i j => toLex i.key ≤ toLex j.key :=
  (List.pairwise_mergeSort before_trans before_total imports).imp before_iff.mp

/-- Sorting is a matter of order only: what is kept is kept by the filter of the other arrangement. -/
theorem sorted_eq_distinct (imports : List Import) :
    sorted imports = distinct (imports.mergeSort before) := by
  have hsorted := pairwise_mergeSort imports
  unfold sorted distinct
  cases hlist : imports.mergeSort before with
  | nil => rfl
  | cons first rest =>
      rw [hlist] at hsorted
      exact dropRepeats_eq_firstByKey (fun _ _ => toLex_inj) hsorted (by simp)

theorem mem_distinct_iff {i : Import} : i ∈ distinct imports ↔ FirstOf key imports i := by
  simp [distinct, mem_firstByKey_iff]

theorem firstOf_mergeSort {i : Import} :
    FirstOf key (imports.mergeSort before) i ↔ FirstOf key imports i := by
  have hkey : ∀ i j : Import, i.key = j.key → before i j := fun i j h => before_iff.mpr (h ▸ le_rfl)
  rw [firstOf_iff_find?, firstOf_iff_find?, ← List.head?_filter, ← List.head?_filter,
    filter_mergeSort before_trans before_total hkey]

theorem mem_sorted_iff {i : Import} : i ∈ sorted imports ↔ FirstOf key imports i := by
  rw [sorted_eq_distinct, mem_distinct_iff, firstOf_mergeSort]

theorem nodup_keys_distinct (imports : List Import) : ((distinct imports).map key).Nodup :=
  nodup_firstByKey key [] imports

theorem pairwise_sorted (imports : List Import) :
    (sorted imports).Pairwise fun i j => toLex i.key < toLex j.key := by
  rw [sorted_eq_distinct]
  have hle := (pairwise_mergeSort imports).sublist (firstByKey_sublist key [] _)
  have hne := List.pairwise_map.mp (nodup_keys_distinct (imports.mergeSort before))
  exact (hle.and hne).imp fun ⟨hle, hne⟩ => lt_of_le_of_ne hle (toLex_inj.not.mpr hne)

theorem sorted_perm_distinct (imports : List Import) : (sorted imports).Perm (distinct imports) := by
  have hsorted : (sorted imports).Nodup := by
    rw [sorted_eq_distinct]
    exact (nodup_keys_distinct _).of_map key
  refine (List.perm_ext_iff_of_nodup hsorted ((nodup_keys_distinct _).of_map key)).mpr fun i => ?_
  rw [mem_sorted_iff, mem_distinct_iff]

/-- What is strictly sorted already stays as it is. -/
theorem sorted_eq_self (h : imports.Pairwise fun i j => toLex i.key < toLex j.key) :
    sorted imports = imports := by
  have hbefore : imports.Pairwise fun i j => before i j = true :=
    h.imp fun hlt => before_iff.mpr hlt.le
  have hkeys : (imports.map key).Nodup :=
    List.pairwise_map.mpr (h.imp fun hlt => toLex_inj.not.mp hlt.ne)
  rw [sorted_eq_distinct, List.mergeSort_of_pairwise hbefore, distinct, firstByKey_eq_self (by simp) hkeys]

theorem lines_perm (h : imports.Perm imports') (depth : Nat) :
    (lines imports depth).Perm (lines imports' depth) := by
  unfold lines
  rw [columnWidth_perm (h.map _)]
  exact h.map _

end Import

end Layout

namespace SourceModule

open Layout (Import FirstOf)

theorem arrangeImports_perm (style style' : Style) (imports : List Import) :
    (arrangeImports style imports).Perm (arrangeImports style' imports) := by
  have hperm := Import.sorted_perm_distinct imports
  unfold arrangeImports
  cases style.sortImports <;> cases style'.sortImports
  · exact .refl _
  · exact hperm.symm
  · exact hperm
  · exact .refl _

end SourceModule

end FieldRegistry
