import FieldRegistry.Document.Version
import FieldRegistry.Proofs.Separators
import Mathlib.Algebra.Group.Nat.Defs
import Mathlib.Data.List.TakeWhile
import Mathlib.Data.List.Induction

/-!
# Texts of versions

The reader of versions is compared with a grammar that does not mention it: white space, a numeral, a
point, a numeral and white space. The numbers are those that the digits denote, and none is cut off at 32
bits. Printing a version gives one of the texts that are read back as this version.
-/

namespace FieldRegistry

namespace Text

/-! ## Numerals -/

/-- One or more decimal digits, with the number that they denote. -/
inductive Digits : List Char → Nat → Prop
  | one {d : Nat} (hd : d < 10) : Digits [Nat.digitChar d] d
  | more {cs : List Char} {n d : Nat} (hcs : Digits cs n) (hd : d < 10) :
      Digits (cs ++ [Nat.digitChar d]) (10 * n + d)

/-- Digits, maybe after one plus sign. -/
inductive Numeral (s : String) (n : Nat) : Prop
  | plain (h : Digits s.toList n)
  | signed {cs : List Char} (hs : s.toList = '+' :: cs) (h : Digits cs n)

theorem isDigit_iff {c : Char} : isDigit c = true ↔ 48 ≤ c.toNat ∧ c.toNat ≤ 57 := by
  simp only [isDigit, Bool.and_eq_true, decide_eq_true_eq]
  rfl

theorem digitValue_eq (c : Char) : digitValue c = c.toNat - 48 := rfl

theorem digitValue_lt {c : Char} (h : isDigit c = true) : digitValue c < 10 := by
  have hc := isDigit_iff.mp h
  rw [digitValue_eq]
  omega

theorem digitChar_digitValue {c : Char} (h : isDigit c = true) : Nat.digitChar (digitValue c) = c := by
  have hc := isDigit_iff.mp h
  rw [← Char.toNat_inj, Nat.toNat_digitChar_of_lt_ten (digitValue_lt h), digitValue_eq]
  omega

theorem isDigit_digitChar {d : Nat} (hd : d < 10) : isDigit (Nat.digitChar d) = true := by
  rw [isDigit_iff, Nat.toNat_digitChar_of_lt_ten hd]
  omega

theorem digitValue_digitChar {d : Nat} (hd : d < 10) : digitValue (Nat.digitChar d) = d := by
  rw [digitValue_eq, Nat.toNat_digitChar_of_lt_ten hd]
  omega

theorem digitsValue_append (cs : List Char) (c : Char) :
    digitsValue (cs ++ [c]) = 10 * digitsValue cs + digitValue c := by
  simp [digitsValue]

theorem digits_iff {cs : List Char} {n : Nat} :
    Digits cs n ↔ cs ≠ [] ∧ (∀ c ∈ cs, isDigit c = true) ∧ digitsValue cs = n := by
  constructor
  · intro h
    induction h with
    | one hd => simp [isDigit_digitChar hd, digitsValue, digitValue_digitChar hd]
    | more hcs hd ih =>
        obtain ⟨-, hdigits, hvalue⟩ := ih
        refine ⟨by simp, ?_, by rw [digitsValue_append, hvalue, digitValue_digitChar hd]⟩
        intro c hc
        rcases List.mem_append.mp hc with hc | hc
        · exact hdigits c hc
        · rw [List.mem_singleton.mp hc]
          exact isDigit_digitChar hd
  · rintro ⟨hne, hdigits, rfl⟩
    -- the grammar adds digits at the end, and so does the value
    induction cs using List.reverseRecOn with
    | nil => exact absurd rfl hne
    | append_singleton cs c ih =>
        obtain ⟨hcs, hc⟩ := List.forall_mem_append.mp hdigits
        have hc := List.forall_mem_singleton.mp hc
        by_cases hnil : cs = []
        · subst hnil
          have hone := Digits.one (digitValue_lt hc)
          rw [digitChar_digitValue hc] at hone
          simpa [digitsValue] using hone
        · have hmore := (ih hnil hcs).more (digitValue_lt hc)
          rwa [digitChar_digitValue hc, ← digitsValue_append] at hmore

theorem Digits.isDigit {cs : List Char} {n : Nat} (h : Digits cs n) {c : Char} (hc : c ∈ cs) :
    isDigit c = true :=
  (digits_iff.mp h).2.1 c hc

/-- A plus sign is no digit, so it is dropped where the grammar has one. -/
theorem numeral_iff {s : String} {n : Nat} : Numeral s n ↔ Digits (dropPlus s.toList) n := by
  have hplus : Text.isDigit '+' = false := by decide
  unfold dropPlus
  constructor
  · rintro (h | ⟨hs, h⟩)
    · split
      · rename_i cs hs
        rw [hs] at h
        exact absurd (hplus.symm.trans (h.isDigit List.mem_cons_self)) Bool.false_ne_true
      · exact h
    · rwa [hs]
  · intro h
    split at h
    · rename_i cs hs
      exact .signed hs h
    · exact .plain h

theorem readBelow_eq_some_iff {bound n : Nat} {s : String} :
    readBelow bound s = some n ↔ Numeral s n ∧ n < bound := by
  rw [numeral_iff, digits_iff, readBelow]
  generalize dropPlus s.toList = ds
  have hrefused : (ds.isEmpty || !ds.all isDigit) = true ↔
      ¬ (ds ≠ [] ∧ ∀ c ∈ ds, isDigit c = true) := by
    grind
  simp only [hrefused]
  grind

theorem digits_toDigits (n : Nat) : Digits (Nat.toDigits 10 n) n := by
  refine digits_iff.mpr ⟨Nat.toDigits_ne_nil, fun c hc => ?_, Nat.ofDigitChars_ten_toDigits⟩
  exact Nat.isDigit_of_mem_toDigits (by decide) (by decide) hc

theorem numeral_decimal (n : Nat) : Numeral (decimal n) n := by
  refine .plain ?_
  rw [decimal, String.toList_ofList]
  exact digits_toDigits n

theorem isDigit_of_mem_decimal {n : Nat} {c : Char} (hc : c ∈ (decimal n).toList) :
    isDigit c = true := by
  rw [decimal, String.toList_ofList] at hc
  exact (digits_toDigits n).isDigit hc

theorem decimal_injective : Function.Injective decimal := by
  intro m n h
  have hlist : Nat.toDigits 10 m = Nat.toDigits 10 n := String.ofList_inj.mp h
  rw [← (digits_iff.mp (digits_toDigits m)).2.2, hlist, (digits_iff.mp (digits_toDigits n)).2.2]

/-! ## Trimmed texts and their two parts -/

/-- `core` is `text` without the white space at its two ends. -/
structure Trimmed (text core : String) : Prop where
  split : ∃ before after, text.toList = before ++ core.toList ++ after ∧
    (∀ c ∈ before, isBlank c = true) ∧ ∀ c ∈ after, isBlank c = true
  first : ∀ c ∈ core.toList.head?, isBlank c = false
  last : ∀ c ∈ core.toList.getLast?, isBlank c = false

/-- `text` is cut into two parts at the first `sep`. -/
structure CutAt (sep : Char) (text left right : String) : Prop where
  split : text.toList = left.toList ++ sep :: right.toList
  first : sep ∉ left.toList

theorem CutAt.splitFirst_eq {sep : Char} {text left right : String} (h : CutAt sep text left right) :
    splitFirst sep text = some (left, right) := by
  have hleft : ∀ c ∈ left.toList, (c != sep) = true := by
    intro c hc
    simpa using ne_of_mem_of_not_mem hc h.first
  have hdrop : text.toList.dropWhile (· != sep) = sep :: right.toList := by
    rw [h.split, List.dropWhile_append_of_pos hleft, List.dropWhile_cons_of_neg (by simp)]
  have htake : text.toList.takeWhile (· != sep) = left.toList := by
    rw [h.split, List.takeWhile_append_of_pos hleft, List.takeWhile_cons_of_neg (by simp),
      List.append_nil]
  simp only [splitFirst, hdrop, htake, String.ofList_toList]

theorem splitFirst_eq_some_iff {sep : Char} {text left right : String} :
    splitFirst sep text = some (left, right) ↔ CutAt sep text left right := by
  refine ⟨fun h => ?_, CutAt.splitFirst_eq⟩
  by_cases hmem : sep ∈ text.toList
  · obtain ⟨before, after, hsplit, hfirst⟩ := List.eq_append_cons_of_mem hmem
    have hcut : CutAt sep text (String.ofList before) (String.ofList after) := by
      constructor
      · rw [hsplit, String.toList_ofList, String.toList_ofList]
      · rwa [String.toList_ofList]
    obtain ⟨rfl, rfl⟩ := Prod.mk.inj (Option.some.inj (hcut.splitFirst_eq.symm.trans h))
    exact hcut
  · have hdrop : text.toList.dropWhile (· != sep) = [] := by
      rw [List.dropWhile_eq_nil_iff]
      intro c hc
      simpa using ne_of_mem_of_not_mem hc hmem
    rw [splitFirst, hdrop] at h
    cases h

section Ends

variable {p : Char → Bool} {before core after cs : List Char}

theorem dropWhile_of_head? (h : ∀ c ∈ cs.head?, p c = false) : cs.dropWhile p = cs := by
  cases cs with
  | nil => rfl
  | cons c cs => exact List.dropWhile_cons_of_neg (by simp [h c rfl])

theorem head?_dropWhile (p : Char → Bool) (cs : List Char) :
    ∀ c ∈ (cs.dropWhile p).head?, p c = false := by
  intro c hc
  have hnot := List.head?_dropWhile_not p cs
  rwa [hc] at hnot

theorem dropTailWhile_dropWhile (hbefore : ∀ c ∈ before, p c = true) (hafter : ∀ c ∈ after, p c = true)
    (hfirst : ∀ c ∈ core.head?, p c = false) (hlast : ∀ c ∈ core.getLast?, p c = false) :
    dropTailWhile p ((before ++ core ++ after).dropWhile p) = core := by
  rw [List.append_assoc, List.dropWhile_append_of_pos hbefore]
  cases core with
  | nil => rw [List.nil_append, List.dropWhile_eq_nil_iff.mpr hafter]; rfl
  | cons c core =>
      have hwhole : ((c :: core) ++ after).dropWhile p = (c :: core) ++ after := dropWhile_of_head? hfirst
      have htail : ∀ c ∈ after.reverse, p c = true := fun c hc => hafter c (List.mem_reverse.mp hc)
      rw [hwhole, dropTailWhile, List.reverse_append, List.dropWhile_append_of_pos htail,
        dropWhile_of_head? (by rwa [List.head?_reverse]), List.reverse_reverse]

theorem exists_ends (p : Char → Bool) (cs : List Char) : ∃ before after,
    cs = before ++ dropTailWhile p (cs.dropWhile p) ++ after ∧
      (∀ c ∈ before, p c = true) ∧ (∀ c ∈ after, p c = true) ∧
      (∀ c ∈ (dropTailWhile p (cs.dropWhile p)).head?, p c = false) ∧
      ∀ c ∈ (dropTailWhile p (cs.dropWhile p)).getLast?, p c = false := by
  have hfront := List.takeWhile_append_dropWhile (p := p) (l := cs)
  have hback := List.takeWhile_append_dropWhile (p := p) (l := (cs.dropWhile p).reverse)
  have htail : cs.dropWhile p =
      dropTailWhile p (cs.dropWhile p) ++ ((cs.dropWhile p).reverse.takeWhile p).reverse := by
    rw [dropTailWhile, ← List.reverse_append, hback, List.reverse_reverse]
  refine ⟨cs.takeWhile p, _, by rw [List.append_assoc, ← htail, hfront],
    fun c hc => List.mem_takeWhile_imp hc,
    fun c hc => List.mem_takeWhile_imp (List.mem_reverse.mp hc), fun c hc => ?_, ?_⟩
  · refine head?_dropWhile p cs c ?_
    rw [htail, List.head?_append, hc]
    rfl
  · rw [dropTailWhile, List.getLast?_reverse]
    exact head?_dropWhile p _

end Ends

theorem trimmed_iff {text core : String} : Trimmed text core ↔ core = trim text := by
  constructor
  · rintro ⟨⟨before, after, hsplit, hbefore, hafter⟩, hfirst, hlast⟩
    rw [trim, hsplit, dropTailWhile_dropWhile hbefore hafter hfirst hlast, String.ofList_toList]
  · rintro rfl
    obtain ⟨before, after, hsplit, hbefore, hafter, hfirst, hlast⟩ := exists_ends isBlank text.toList
    refine ⟨⟨before, after, ?_, hbefore, hafter⟩, ?_, ?_⟩
    all_goals rw [trim, String.toList_ofList]
    · exact hsplit
    · exact hfirst
    · exact hlast

end Text

namespace Version

open FieldRegistry.Text

/-- The two parts of a version: the trimmed text before and after its first point. -/
def Parts (text major minor : String) : Prop :=
  ∃ core, Trimmed text core ∧ CutAt '.' core major minor

theorem parts_iff {text major minor : String} :
    Parts text major minor ↔ splitFirst '.' (trim text) = some (major, minor) := by
  simp only [Parts, trimmed_iff, exists_eq_left, splitFirst_eq_some_iff]

theorem numeral_toUInt32 {s : String} {n : Nat} (h : Numeral s n) (hn : n < 2 ^ 32) :
    Numeral s n.toUInt32.toNat := by
  have hfit : n.toUInt32.toNat = n := UInt32.toNat_ofNat_of_lt' hn
  rwa [hfit]

theorem parse?_eq_some_iff {text : String} {v : Version} :
    parse? text = some v ↔
      ∃ major minor, Parts text major minor ∧ Numeral major v.major.toNat ∧
        Numeral minor v.minor.toNat := by
  constructor
  · intro h
    unfold parse? at h
    cases hsplit : splitFirst '.' (trim text) with
    | none => rw [hsplit] at h; cases h
    | some parts =>
        obtain ⟨major, minor⟩ := parts
        simp only [hsplit] at h
        split at h
        · rename_i m n hm hn
          obtain ⟨hmajor, hm⟩ := readBelow_eq_some_iff.mp hm
          obtain ⟨hminor, hn⟩ := readBelow_eq_some_iff.mp hn
          cases h
          exact ⟨major, minor, parts_iff.mpr hsplit, numeral_toUInt32 hmajor hm,
            numeral_toUInt32 hminor hn⟩
        · cases h
  · rintro ⟨major, minor, hparts, hmajor, hminor⟩
    have hm := readBelow_eq_some_iff.mpr ⟨hmajor, v.major.toNat_lt⟩
    have hn := readBelow_eq_some_iff.mpr ⟨hminor, v.minor.toNat_lt⟩
    have hbound : Nat.pow 2 32 = 2 ^ 32 := rfl
    simp only [parse?, parts_iff.mp hparts, hbound, hm, hn]
    exact congrArg some (congrArg₂ Version.mk UInt32.ofNat_toNat UInt32.ofNat_toNat)

theorem exists_parse?_iff {text : String} :
    (∃ v, parse? text = some v) ↔
      ∃ major minor m n, Parts text major minor ∧ Numeral major m ∧ Numeral minor n ∧
        m < 2 ^ 32 ∧ n < 2 ^ 32 := by
  constructor
  · rintro ⟨v, h⟩
    obtain ⟨major, minor, hparts, hmajor, hminor⟩ := parse?_eq_some_iff.mp h
    exact ⟨major, minor, _, _, hparts, hmajor, hminor, v.major.toNat_lt, v.minor.toNat_lt⟩
  · rintro ⟨major, minor, m, n, hparts, hmajor, hminor, hm, hn⟩
    exact ⟨⟨m.toUInt32, n.toUInt32⟩, parse?_eq_some_iff.mpr ⟨major, minor, hparts,
      numeral_toUInt32 hmajor hm, numeral_toUInt32 hminor hn⟩⟩

/-! ## Printing -/

theorem toList_text (v : Version) : v.text.toList =
    (decimal v.major.toNat).toList ++ '.' :: (decimal v.minor.toNat).toList := by
  simp [Version.text]

theorem not_isBlank_of_isDigit {c : Char} (h : isDigit c = true) : isBlank c = false := by
  have hc := isDigit_iff.mp h
  grind [isBlank]

theorem trimmed_text (v : Version) : Trimmed v.text v.text := by
  have hplain : ∀ c ∈ v.text.toList, isBlank c = false := by
    rw [toList_text]
    intro c hc
    rcases List.mem_append.mp hc with hc | hc
    · exact not_isBlank_of_isDigit (isDigit_of_mem_decimal hc)
    · rcases List.mem_cons.mp hc with rfl | hc
      · decide
      · exact not_isBlank_of_isDigit (isDigit_of_mem_decimal hc)
  exact ⟨⟨[], [], by simp, by simp, by simp⟩, fun c hc => hplain c (List.mem_of_head? hc),
    fun c hc => hplain c (List.mem_of_getLast? hc)⟩

theorem notMem_decimal {c : Char} (h : isDigit c = false) (n : Nat) : c ∉ (decimal n).toList :=
  fun hc => Bool.false_ne_true (h.symm.trans (isDigit_of_mem_decimal hc))

theorem parse?_text (v : Version) : parse? v.text = some v := by
  refine parse?_eq_some_iff.mpr ⟨_, _, ⟨v.text, trimmed_text v, toList_text v, ?_⟩,
    numeral_decimal _, numeral_decimal _⟩
  exact notMem_decimal (by decide) _

theorem text_injective : Function.Injective text := by
  intro v w h
  have hparse := congrArg parse? h
  rw [parse?_text, parse?_text] at hparse
  exact Option.some.inj hparse

/-- The underscore before the minor number is the first one after the letter `v`. -/
theorem schemaFileName_injective : Function.Injective schemaFileName := by
  intro v w h
  have hlist : (decimal v.major.toNat).toList ++ '_' :: ((decimal v.minor.toNat).toList ++
        ".schema.json".toList) =
      (decimal w.major.toNat).toList ++ '_' :: ((decimal w.minor.toNat).toList ++
        ".schema.json".toList) := by
    have hname := congrArg String.toList h
    simpa [schemaFileName] using hname
  obtain ⟨hmajor, hrest⟩ := append_cons_inj_of_first (notMem_decimal (by decide) _)
    (notMem_decimal (by decide) _) hlist
  have hminor := List.append_cancel_right hrest
  have hm := UInt32.toNat_inj.mp (decimal_injective (String.toList_inj.mp hmajor))
  have hn := UInt32.toNat_inj.mp (decimal_injective (String.toList_inj.mp hminor))
  exact congrArg₂ Version.mk hm hn

/-- A text is read as a version if and only if its two parts, around the first point of the trimmed text,
are numerals of numbers below `2 ^ 32`, and then these are the numbers of the version. What is printed for
a version is read back as this version, so different versions have different texts, and the schemas of
different versions have different file names. -/
theorem version_texts_exact :
    (∀ text v, parse? text = some v ↔ ∃ major minor, Parts text major minor ∧
      Numeral major v.major.toNat ∧ Numeral minor v.minor.toNat) ∧
    (∀ text, (∃ v, parse? text = some v) ↔ ∃ major minor m n, Parts text major minor ∧
      Numeral major m ∧ Numeral minor n ∧ m < 2 ^ 32 ∧ n < 2 ^ 32) ∧
    (∀ v : Version, parse? v.text = some v) ∧
    Function.Injective text ∧ Function.Injective schemaFileName :=
  ⟨fun _ _ => parse?_eq_some_iff, fun _ => exists_parse?_iff, parse?_text, text_injective,
    schemaFileName_injective⟩

example : parse? "\t+01.4294967295\u3000" = some ⟨1, 4294967295⟩ := by decide +kernel

example : parse? "1.4294967296" = none ∧ parse? "++1.0" = none ∧ parse? "1.0.0" = none := by
  decide +kernel

end Version

end FieldRegistry
