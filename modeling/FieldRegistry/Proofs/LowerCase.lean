import FieldRegistry.Text.Blank
import FieldRegistry.Text.Case
import Mathlib.Data.List.TakeWhile

/-!
# Lower case around a separator and of plain names

Lower case looks past a character only where it decides the form of a capital sigma, and it does not look
past characters that neither have case nor are skipped. The sign between a variable and its member is one
of these, and no other character becomes it, so paths can be lowered and compared name by name. Plain
characters are reached from the ASCII range only, white space is never reached from anything else, and no
character is lost.
-/

namespace FieldRegistry.Text

variable {b : Char}

/-- A character at which the search for a cased neighbour ends without one. -/
def EndsWord (b : Char) : Prop := isCased b = false ∧ isCaseIgnorable b = false

theorem endsWord_percent : EndsWord '%' := by
  constructor <;> decide +kernel

theorem EndsWord.meetsCased (hb : EndsWord b) (s t : List Char) :
    meetsCased (s ++ b :: t) = meetsCased s := by
  induction s with
  | nil => simp [Text.meetsCased, hb.1, hb.2]
  | cons c s ih =>
      unfold Text.meetsCased at ih ⊢
      rw [List.cons_append, List.dropWhile_cons, List.dropWhile_cons]
      cases isCaseIgnorable c with
      | true => exact ih
      | false => rfl

theorem EndsWord.lowerFrom_append (hb : EndsWord b) (before s t : List Char) :
    lowerFrom before (s ++ b :: t) = lowerFrom before s ++ lowerFrom (s.reverse ++ before) (b :: t) := by
  induction s generalizing before with
  | nil => rfl
  | cons c s ih =>
      rw [List.cons_append, lowerFrom, lowerFrom, ih, lowerSigma, lowerSigma, hb.meetsCased,
        List.append_assoc, List.reverse_cons, List.append_assoc]
      rfl

theorem EndsWord.lowerFrom_before (hb : EndsWord b) (before more s : List Char) :
    lowerFrom (before ++ b :: more) s = lowerFrom before s := by
  induction s generalizing before with
  | nil => rfl
  | cons c s ih =>
      have hrest := ih (c :: before)
      rw [List.cons_append] at hrest
      rw [lowerFrom, lowerFrom, hrest, lowerSigma, lowerSigma, hb.meetsCased]

theorem lower_append_percent (s t : String) : lower (s ++ "%" ++ t) = lower s ++ "%" ++ lower t := by
  have hlist : (s ++ "%" ++ t).toList = s.toList ++ '%' :: t.toList := by
    simp [String.toList_append]
  have hrest := endsWord_percent.lowerFrom_before [] (s.toList.reverse ++ []) t.toList
  have hself : lowerChar '%' = ['%'] := by decide
  rw [List.nil_append] at hrest
  rw [lower, hlist, endsWord_percent.lowerFrom_append, lowerFrom, hrest, if_neg (by decide), hself,
    String.ofList_append, String.ofList_append, ← String.append_assoc]
  rfl

/-! ## Where a separator comes from -/

/-- A character before the letters and digits, from which lower case is far away. -/
def IsSign (b : Char) : Prop := 0 < b.toNat ∧ b.toNat ≤ 0x25

instance (b : Char) : Decidable (IsSign b) :=
  inferInstanceAs (Decidable (0 < b.toNat ∧ b.toNat ≤ 0x25))

theorem isSign_percent : IsSign '%' := by decide

theorem IsSign.ne_ofNat (hb : IsSign b) {n : Nat} (h : 0x25 < n) : b ≠ Char.ofNat n := by
  rintro rfl
  obtain ⟨hpos, hle⟩ := hb
  by_cases hn : n.isValidChar
  · have hv : (Char.ofNat n).toNat = n := by rw [Char.ofNat, dif_pos hn]; rfl
    omega
  · rw [Char.ofNat, dif_neg hn] at hpos
    exact absurd hpos (by decide)

theorem lt_of_rowImage? {n m : Nat} (h : rowImage? lowerRows n = some m) : 0x25 < m := by
  have hrows : ∀ row ∈ lowerRows, 0x25 < row.2.2.2 := by decide +kernel
  obtain ⟨⟨first, last, step, image⟩, hrow, hm⟩ := List.exists_of_findSome?_eq_some h
  have himage := hrows _ hrow
  dsimp only at hm himage
  split at hm
  · cases hm; omega
  · cases hm

theorem IsSign.eq_of_mem_lowerChar (hb : IsSign b) {c : Char} (h : b ∈ lowerChar c) : c = b := by
  unfold lowerChar at h
  split at h
  · rename_i hascii
    have htable : ∀ n < 0x80, (Char.ofNat n).toLower.toNat ≤ 0x25 →
        Char.ofNat n = (Char.ofNat n).toLower := by
      decide
    cases List.mem_singleton.mp h
    have hself := htable c.toNat hascii
    rw [Char.ofNat_toNat] at hself
    exact hself hb.2
  · split at h
    · have hfar : ¬ IsSign 'i' ∧ ¬ IsSign (Char.ofNat 0x307) := by decide +kernel
      rcases List.mem_cons.mp h with rfl | h
      · exact absurd hb hfar.1
      · cases List.mem_singleton.mp h
        exact absurd hb hfar.2
    · split at h
      · rename_i hrow
        exact absurd (List.mem_singleton.mp h) (hb.ne_ofNat (lt_of_rowImage? hrow))
      · exact (List.mem_singleton.mp h).symm

theorem IsSign.mem_of_lowerFrom (hb : IsSign b) {before s : List Char} (h : b ∈ lowerFrom before s) :
    b ∈ s := by
  induction s generalizing before with
  | nil => exact h
  | cons c s ih =>
      rw [lowerFrom, List.mem_append] at h
      rcases h with h | h
      · split at h
        · rw [List.mem_singleton.mp h, lowerSigma] at hb
          split at hb <;> exact absurd hb (by decide)
        · rw [hb.eq_of_mem_lowerChar h]
          exact List.mem_cons_self
      · exact List.mem_cons_of_mem _ (ih h)

theorem IsSign.notMem_lower (hb : IsSign b) {s : String} (h : b ∉ s.toList) : b ∉ (lower s).toList := by
  rw [lower, String.toList_ofList]
  exact fun hl => h (hb.mem_of_lowerFrom hl)

/-! ## Plain names -/

/-- A character in the ASCII range that is the lower case of no other sign: the letter `k` is also that of
the sign for degrees Kelvin. -/
def IsPlain (c : Char) : Prop := 0 < c.toNat ∧ c.toNat < 0x80 ∧ c ≠ 'k'

instance (c : Char) : Decidable (IsPlain c) :=
  inferInstanceAs (Decidable (0 < c.toNat ∧ c.toNat < 0x80 ∧ c ≠ 'k'))

theorem image_of_rowImage? {n m : Nat} (h : rowImage? lowerRows n = some m) : 0x80 ≤ m ∨ m = 0x6B := by
  have hrows : ∀ row ∈ lowerRows, 0x80 ≤ row.2.2.2 ∨ row.2.2.2 = 0x6B ∧ row.1 = row.2.1 := by
    decide +kernel
  obtain ⟨⟨first, last, step, image⟩, hrow, hm⟩ := List.exists_of_findSome?_eq_some h
  have himage := hrows _ hrow
  dsimp only at hm himage
  split at hm
  · rename_i hrange
    simp only [Bool.and_eq_true, decide_eq_true_eq] at hrange
    cases hm
    omega
  · cases hm

theorem toNat_ofNat (n : Nat) : (Char.ofNat n).toNat = n ∨ (Char.ofNat n).toNat = 0 := by
  by_cases hn : n.isValidChar
  · rw [Char.ofNat, dif_pos hn]
    exact Or.inl rfl
  · rw [Char.ofNat, dif_neg hn]
    exact Or.inr rfl

theorem not_isPlain_of_rowImage? {n m : Nat} (h : rowImage? lowerRows n = some m) :
    ¬ IsPlain (Char.ofNat m) := by
  rintro ⟨hpos, hascii, hk⟩
  rcases image_of_rowImage? h with hm | rfl
  · have := toNat_ofNat m
    omega
  · exact hk rfl

/-- Only plain characters have plain lower case. -/
theorem isPlain_of_lowerChar {c : Char} (h : ∀ x ∈ lowerChar c, IsPlain x) : IsPlain c := by
  unfold lowerChar at h
  split at h
  · rename_i hascii
    have htable : ∀ n < 0x80, IsPlain (Char.ofNat n).toLower → IsPlain (Char.ofNat n) := by decide
    have hself := htable c.toNat hascii
    rw [Char.ofNat_toNat] at hself
    exact hself (h _ (by simp))
  · split at h
    · exact absurd (h (Char.ofNat 0x307) (by simp)) (by decide)
    · split at h
      · rename_i hrow
        exact absurd (h _ (by simp)) (not_isPlain_of_rowImage? hrow)
      · exact h c (by simp)

theorem toLower_of_mem_lowerChar {c x : Char} (hx : x ∈ lowerChar c) (h : IsPlain x) : x.toLower = x := by
  unfold lowerChar at hx
  split at hx
  · rename_i hascii
    have htable : ∀ n < 0x80, (Char.ofNat n).toLower.toLower = (Char.ofNat n).toLower := by decide
    have hself := htable c.toNat hascii
    rw [Char.ofNat_toNat] at hself
    rw [List.mem_singleton.mp hx, hself]
  · rename_i hascii
    split at hx
    · rcases List.mem_cons.mp hx with rfl | hx
      · rfl
      · rw [List.mem_singleton.mp hx] at h
        exact absurd h (by decide)
    · split at hx
      · rename_i hrow
        rw [List.mem_singleton.mp hx] at h
        exact absurd h (not_isPlain_of_rowImage? hrow)
      · rw [List.mem_singleton.mp hx] at h
        exact absurd h.2.1 hascii

theorem not_isPlain_lowerSigma (before after : List Char) : ¬ IsPlain (lowerSigma before after) := by
  unfold lowerSigma
  split <;> decide

theorem isPlain_of_lowerFrom {before s : List Char} (h : ∀ x ∈ lowerFrom before s, IsPlain x) :
    ∀ c ∈ s, IsPlain c := by
  induction s generalizing before with
  | nil => simp
  | cons c s ih =>
      rw [lowerFrom, List.forall_mem_append] at h
      obtain ⟨hc, hs⟩ := h
      refine List.forall_mem_cons.mpr ⟨?_, ih hs⟩
      split at hc
      · exact absurd (hc _ List.mem_cons_self) (not_isPlain_lowerSigma _ _)
      · exact isPlain_of_lowerChar hc

theorem toLower_of_mem_lowerFrom {before s : List Char} {x : Char} (hx : x ∈ lowerFrom before s)
    (h : IsPlain x) : x.toLower = x := by
  induction s generalizing before with
  | nil => cases hx
  | cons c s ih =>
      rw [lowerFrom, List.mem_append] at hx
      rcases hx with hx | hx
      · split at hx
        · rw [List.mem_singleton.mp hx] at h
          exact absurd h (not_isPlain_lowerSigma _ _)
        · exact toLower_of_mem_lowerChar hx h
      · exact ih hx

theorem lowerFrom_eq_self {before s : List Char} (h : ∀ c ∈ s, IsPlain c ∧ c.toLower = c) :
    lowerFrom before s = s := by
  induction s generalizing before with
  | nil => rfl
  | cons c s ih =>
      obtain ⟨⟨hplain, hlow⟩, hs⟩ := List.forall_mem_cons.mp h
      have hsigma : (c == capitalSigma) = false := by
        refine beq_false_of_ne ?_
        rintro rfl
        exact absurd hplain (by decide)
      rw [lowerFrom, hsigma, ih hs, lowerChar, if_pos hplain.2.1, hlow]
      rfl

/-- A plain text that is reached by lowering twice is reached by lowering once. -/
theorem lower_eq_of_lower_lower {s t : String} (ht : ∀ c ∈ t.toList, IsPlain c)
    (h : lower (lower s) = t) : lower s = t := by
  have hplain : ∀ c ∈ (lower s).toList, IsPlain c := by
    rw [← h, lower, String.toList_ofList] at ht
    exact isPlain_of_lowerFrom ht
  have hself : lower (lower s) = lower s := by
    rw [lower, lowerFrom_eq_self, String.ofList_toList]
    intro c hc
    have hfrom : c ∈ lowerFrom [] s.toList := by rwa [lower, String.toList_ofList] at hc
    exact ⟨hplain c hc, toLower_of_mem_lowerFrom hfrom (hplain c hc)⟩
  rw [← hself, h]

/-! ## White space and empty texts -/

theorem not_isBlank_of_rowImage? {n m : Nat} (h : rowImage? lowerRows n = some m) :
    isBlank (Char.ofNat m) = false := by
  -- the images of a row lie between two ranges of white space
  have hrows : ∀ row ∈ lowerRows, ∃ gap ∈ [(0x21, 0x84), (0xA1, 0x167F), (0x1681, 0x1FFF),
      (0x2060, 0x2FFF), (0x3001, 0x10FFFF)],
      gap.1 ≤ row.2.2.2 ∧ row.2.2.2 + (row.2.1 - row.1) ≤ gap.2 := by
    decide +kernel
  obtain ⟨⟨first, last, step, image⟩, hrow, hm⟩ := List.exists_of_findSome?_eq_some h
  obtain ⟨gap, hgap, hlow, hhigh⟩ := hrows _ hrow
  dsimp only at hm hlow hhigh
  split at hm
  · rename_i hrange
    simp only [Bool.and_eq_true, decide_eq_true_eq] at hrange
    cases hm
    have hvalue := toNat_ofNat (image + (n - first))
    simp only [isBlank, Bool.or_eq_false_iff, Bool.and_eq_false_iff, decide_eq_false_iff_not,
      beq_eq_false_iff_ne]
    simp only [List.mem_cons, List.not_mem_nil, or_false] at hgap
    rcases hgap with rfl | rfl | rfl | rfl | rfl <;> dsimp only at hlow hhigh <;> omega
  · cases hm

theorem not_isBlank_of_mem_lowerChar {c x : Char} (hx : x ∈ lowerChar c) (h : isBlank c = false) :
    isBlank x = false := by
  unfold lowerChar at hx
  split at hx
  · rename_i hascii
    have htable : ∀ n < 0x80, isBlank (Char.ofNat n) = false →
        isBlank (Char.ofNat n).toLower = false := by
      decide
    have hself := htable c.toNat hascii
    rw [Char.ofNat_toNat] at hself
    rw [List.mem_singleton.mp hx]
    exact hself h
  · split at hx
    · rcases List.mem_cons.mp hx with rfl | hx
      · decide
      · rw [List.mem_singleton.mp hx]
        decide
    · split at hx
      · rename_i hrow
        rw [List.mem_singleton.mp hx]
        exact not_isBlank_of_rowImage? hrow
      · rw [List.mem_singleton.mp hx]
        exact h

theorem not_isBlank_of_mem_lowerFrom {before s : List Char} (h : ∀ c ∈ s, isBlank c = false) :
    ∀ x ∈ lowerFrom before s, isBlank x = false := by
  induction s generalizing before with
  | nil => simp [lowerFrom]
  | cons c s ih =>
      obtain ⟨hc, hs⟩ := List.forall_mem_cons.mp h
      rw [lowerFrom]
      refine List.forall_mem_append.mpr ⟨fun x hx => ?_, ih hs⟩
      split at hx
      · rw [List.mem_singleton.mp hx, lowerSigma]
        split <;> decide
      · exact not_isBlank_of_mem_lowerChar hx hc

theorem not_isBlank_of_mem_lower {s : String} (h : ∀ c ∈ s.toList, isBlank c = false) :
    ∀ x ∈ (lower s).toList, isBlank x = false := by
  rw [lower, String.toList_ofList]
  exact not_isBlank_of_mem_lowerFrom h

theorem lower_eq_empty_iff {s : String} : lower s = "" ↔ s = "" := by
  constructor
  · intro h
    rw [← String.toList_inj, lower, String.toList_ofList] at h
    rw [← String.toList_inj]
    cases hs : s.toList with
    | nil => rfl
    | cons c cs =>
        have hne : lowerChar c ≠ [] := by
          unfold lowerChar
          split
          · simp
          · split
            · simp
            · split <;> simp
        rw [hs, lowerFrom] at h
        split at h
        · cases h
        · exact absurd (List.append_eq_nil_iff.mp h).1 hne
  · rintro rfl
    rfl

/-! ## Names in a path -/

/-- A path up to its first separator. -/
def firstName (path : String) : List Char := path.toList.takeWhile (· ≠ '%')

theorem firstName_of_notMem {name : String} (h : '%' ∉ name.toList) : firstName name = name.toList := by
  refine List.takeWhile_eq_self_iff.mpr fun x hx => ?_
  rw [decide_eq_true_eq]
  rintro rfl
  exact h hx

theorem firstName_append {name : String} (h : '%' ∉ name.toList) (rest : String) :
    firstName (name ++ "%" ++ rest) = name.toList := by
  have hlist : (name ++ "%" ++ rest).toList = name.toList ++ '%' :: rest.toList := by
    simp [String.toList_append]
  have hself := firstName_of_notMem h
  rw [firstName] at hself ⊢
  rw [hlist, List.takeWhile_append_of_pos (List.takeWhile_eq_self_iff.mp hself)]
  simp

end FieldRegistry.Text
