import FieldRegistry.Proofs.DictionaryCalls
import FieldRegistry.Proofs.Runs

/-!
# One order of dimension arguments for a whole run

A ranking is asked for single ranks and for sorted lists, and every question may give new names a place.
Old places stay, so what was sorted once is in the order of every later ranking. All routines of a run are
therefore sorted by one ranking, the one that has met the dimensions of all units.
-/

namespace FieldRegistry

namespace Ranking

variable {r r' : Ranking} {names : List String} {x y : String}

/-! ## Any sequence of questions -/

inductive Call where
  | rank (name : String)
  | sort (names : List String)

/-- The ranking after a question, whatever the answer is used for. -/
def call (r : Ranking) : Call → Ranking
  | .rank name => (r.rank name).2
  | .sort names => (r.sort names).2

def after (r : Ranking) (calls : List Call) : Ranking := calls.foldl call r

theorem later_call (r : Ranking) (c : Call) : r.Later (r.call c) := by
  cases c with
  | rank name => exact r.later_rank name
  | sort names => exact r.later_enrolAll names

theorem later_after (r : Ranking) (calls : List Call) : r.Later (r.after calls) := by
  induction calls generalizing r with
  | nil => exact .refl r
  | cons c calls ih => exact (r.later_call c).trans (ih (r.call c))

theorem Valid.call (h : r.Valid) (c : Call) : (r.call c).Valid := by
  cases c with
  | rank name => exact h.rank name
  | sort names => exact h.enrolAll names

theorem Valid.after (h : r.Valid) (calls : List Call) : (r.after calls).Valid := by
  induction calls generalizing r with
  | nil => exact h
  | cons c calls ih => exact ih (h.call c)

theorem after_map_sort (r : Ranking) (lists : List (List String)) :
    r.after (lists.map .sort) = r.enrolAll lists.flatten := by
  induction lists generalizing r with
  | nil => rfl
  | cons names lists ih =>
      rw [List.flatten_cons, enrolAll_append, ← ih]
      rfl

/-! ## Sorted lists -/

section Sorted

variable (hr : r.Valid) (hnames : ∀ z ∈ names, r.Knows z)

include hr hnames

theorem pairwise_rank_lt (hnodup : names.Nodup) :
    (names.mergeSort r.before).Pairwise fun x y => (r.rank x).1 < (r.rank y).1 := by
  have hnodup : (names.mergeSort r.before).Nodup := (List.mergeSort_perm ..).nodup_iff.mpr hnodup
  refine ((r.pairwise_mergeSort_before names).and hnodup).imp_of_mem ?_
  rintro x y hx hy ⟨hle, hne⟩
  have hx := hnames x (List.mem_mergeSort.mp hx)
  have hy := hnames y (List.mem_mergeSort.mp hy)
  exact Nat.lt_of_le_of_ne hle fun heq => hne (hr.eq_of_rank_eq hx hy heq)

/-- Of two names in a sorted list, the one with the smaller rank stands before the other. -/
theorem idxOf_lt_iff (hx : x ∈ names) (hy : y ∈ names) :
    (names.mergeSort r.before).idxOf x < (names.mergeSort r.before).idxOf y ↔
      (r.rank x).1 < (r.rank y).1 := by
  have hsorted := List.pairwise_iff_getElem.mp (r.pairwise_mergeSort_before names)
  have hplace : ∀ {z}, z ∈ names → (names.mergeSort r.before).idxOf z <
      (names.mergeSort r.before).length :=
    fun hz => List.idxOf_lt_length_of_mem (List.mem_mergeSort.mpr hz)
  have hle : ∀ {a b}, a ∈ names → b ∈ names →
      (names.mergeSort r.before).idxOf a < (names.mergeSort r.before).idxOf b →
      (r.rank a).1 ≤ (r.rank b).1 := by
    intro a b ha hb hlt
    simpa using hsorted _ _ (hplace ha) (hplace hb) hlt
  constructor
  · intro hlt
    refine Nat.lt_of_le_of_ne (hle hx hy hlt) fun heq => ?_
    rw [hr.eq_of_rank_eq (hnames x hx) (hnames y hy) heq] at hlt
    exact Nat.lt_irrefl _ hlt
  · intro hlt
    rcases Nat.lt_trichotomy ((names.mergeSort r.before).idxOf x)
      ((names.mergeSort r.before).idxOf y) with h | h | h
    · exact h
    · rw [(List.idxOf_inj (List.mem_mergeSort.mpr hx)).mp h] at hlt
      exact absurd hlt (Nat.lt_irrefl _)
    · exact absurd (hle hy hx h) (Nat.not_le.mpr hlt)

end Sorted

theorem nodup_of_pairwise {l : List String} (h : l.Pairwise fun x y => (r.rank x).1 < (r.rank y).1) :
    l.Nodup := by
  refine h.imp fun hlt => ?_
  rintro rfl
  exact Nat.lt_irrefl _ hlt

/-- A strictly sorted list is determined by its names. -/
theorem mergeSort_eq_of_pairwise {l : List String} (hperm : l.Perm names)
    (h : l.Pairwise fun x y => (r.rank x).1 < (r.rank y).1) : names.mergeSort r.before = l := by
  refine ((List.mergeSort_perm names r.before).trans hperm.symm).eq_of_pairwise ?_
    (r.pairwise_mergeSort_before names) (h.imp Nat.le_of_lt)
  intro x y hx hy hxy hyx
  have hx : x ∈ l := hperm.mem_iff.mpr (List.mem_mergeSort.mp hx)
  have hranks : (l.map fun z => (r.rank z).1).Nodup := List.pairwise_map.mpr (h.imp Nat.ne_of_lt)
  exact List.inj_on_of_nodup_map hranks hx hy (Nat.le_antisymm hxy hyx)

/-- Two names that were sorted once are sorted alike ever after. -/
theorem idxOf_sort_congr {names' : List String} (hr : r.Valid) (hr' : r'.Valid)
    (hl : (r.sort names).2.Later r') (hx : x ∈ names) (hy : y ∈ names) (hx' : x ∈ names')
    (hy' : y ∈ names') :
    (r.sort names).1.idxOf x < (r.sort names).1.idxOf y ↔
      (r'.sort names').1.idxOf x < (r'.sort names').1.idxOf y := by
  have hlater : (r.enrolAll names).Later (r'.enrolAll names') := hl.trans (r'.later_enrolAll names')
  rw [sort_eq, sort_eq, idxOf_lt_iff (hr.enrolAll names) (fun z => r.knows_enrolAll) hx hy,
    idxOf_lt_iff (hr'.enrolAll names') (fun z => r'.knows_enrolAll) hx' hy',
    hlater.rank_eq (r.knows_enrolAll hx), hlater.rank_eq (r.knows_enrolAll hy)]

/-! ## The standard names -/

theorem Valid.rank_standard (h : r.Valid) {entry : String × Nat} (he : entry ∈ standardRanks) :
    (r.rank entry.1).1 = entry.2 := by
  rw [rank_of_get? (h.standard entry he)]

theorem Valid.rank_standardNames (h : r.Valid) :
    standardNames.map (fun x => (r.rank x).1) = [1, 2, 3, 4] := by
  rw [standardNames, List.map_map]
  exact List.map_congr_left fun entry he => h.rank_standard he

theorem Valid.knows_standardNames (h : r.Valid) (hx : x ∈ standardNames) : r.Knows x := by
  obtain ⟨entry, he, rfl⟩ := List.mem_map.mp hx
  exact ⟨_, h.standard entry he⟩

/-- The ranks of the table are taken by its own names. -/
theorem Valid.rank_le_four_iff (h : r.Valid) (hx : r.Knows x) :
    (r.rank x).1 ≤ 4 ↔ x ∈ standardNames := by
  have htable : ∀ n ≤ 4, 0 < n → ∃ entry ∈ standardRanks, entry.2 = n := by decide
  constructor
  · intro hle
    obtain ⟨entry, he, hn⟩ := htable _ hle (h.positive x _ hx.get?)
    have hsame : entry.1 = x := h.injective _ _ _ (h.standard entry he) (hn ▸ hx.get?)
    exact List.mem_map.mpr ⟨entry, he, hsame⟩
  · intro hs
    obtain ⟨entry, he, rfl⟩ := List.mem_map.mp hs
    rw [h.rank_standard he]
    exact (show ∀ entry ∈ standardRanks, entry.2 ≤ 4 by decide) entry he

/-- A sorted list begins with its standard names, in the order of the table. -/
theorem Valid.mergeSort_standard_first (h : r.Valid) (hnodup : names.Nodup)
    (hnames : ∀ z ∈ names, r.Knows z) :
    names.mergeSort r.before = standardNames.filter (· ∈ names) ++
      (names.mergeSort r.before).filter (· ∉ standardNames) := by
  have hsorted := pairwise_rank_lt h hnames hnodup
  have htable : standardNames.Pairwise fun x y => (r.rank x).1 < (r.rank y).1 := by
    rw [← List.pairwise_map (f := fun x => (r.rank x).1) (R := (· < ·)), h.rank_standardNames]
    decide
  have hsplit : (standardNames.filter (· ∈ names) ++
      (names.mergeSort r.before).filter (· ∉ standardNames)).Pairwise
        fun x y => (r.rank x).1 < (r.rank y).1 := by
    refine List.pairwise_append.mpr ⟨htable.filter _, hsorted.filter _, ?_⟩
    intro x hx y hy
    obtain ⟨hy, hother⟩ := List.mem_filter.mp hy
    have hx := (List.mem_filter.mp hx).1
    have hle : (r.rank x).1 ≤ 4 := (h.rank_le_four_iff (h.knows_standardNames hx)).mpr hx
    have hgt : ¬ (r.rank y).1 ≤ 4 := fun hle => by
      have hstandard := (h.rank_le_four_iff (hnames y (List.mem_mergeSort.mp hy))).mp hle
      simp [hstandard] at hother
    omega
  refine mergeSort_eq_of_pairwise ?_ hsplit
  refine (List.perm_ext_iff_of_nodup (nodup_of_pairwise hsplit) hnodup).mpr fun x => ?_
  by_cases hx : x ∈ standardNames <;> simp [hx]

end Ranking

namespace Compilation

variable {c c' : Compilation} {unit : FileUnit} {routine : AllocationRoutine}

/-! ## Routines of a run -/

/-- The routine that a unit gets when files are generated: those of the units before it are done. -/
def Builds (c : Compilation) (unit : FileUnit) (routine : AllocationRoutine) : Prop :=
  ∃ style before later files c₁ ranking, c.units = before ++ unit :: later ∧
    Action.outcome (before.mapM (generateUnit style)) c = (.ok files, c₁) ∧
    (AllocationRoutine.build unit c₁.context.catalog).outcome c₁.context.ranking =
      (.ok routine, ranking)

theorem nodup_knownDimensions (dycore : String) (settings : Settings) (requests : List Request) :
    ∀ unit ∈ ((start dycore settings).after requests).units,
      unit.dictionary.knownDimensions.Nodup := by
  refine dictionary_invariant (P := fun d => d.knownDimensions.Nodup) ?_ ?_
    (fun _ _ => List.nodup_nil) dycore settings requests
  · intro d v d' hd ha
    rw [ha.knownDimensions]
    exact Dictionary.nodup_foldl_insertName hd
  · intro d name v d' hd ht
    obtain ⟨-, ⟨entries, rfl⟩, -⟩ := Dictionary.take?_eq_some ht
    exact hd

/-- The ranking of some units and of all that a run had met before. -/
def runRanking (units : List FileUnit) : Ranking := Ranking.initial.enrolAll (unitDimensions units)

theorem valid_runRanking (units : List FileUnit) : (runRanking units).Valid :=
  Ranking.valid_initial.enrolAll _

theorem knows_runRanking {units : List FileUnit} (hu : unit ∈ units) :
    ∀ x ∈ unit.dictionary.knownDimensions, (runRanking units).Knows x :=
  fun _ hx => Ranking.knows_enrolAll _ (List.mem_flatMap.mpr ⟨unit, hu, hx⟩)

/-- Whenever a routine is built, its dimensions are in the order of the ranking of all units, those that
are read later included. -/
theorem Builds.dimensions_eq (hs : c.Sound) {units : List FileUnit} (hp : c.units <+: units)
    (h : c.Builds unit routine) :
    unit ∈ c.units ∧
      routine.dimensions = unit.dictionary.knownDimensions.mergeSort (runRanking units).before := by
  obtain ⟨style, before, later, files, c₁, ranking, hunits, hbefore, hbuild⟩ := h
  have hmem : unit ∈ c.units := by simp [hunits]
  refine ⟨hmem, ?_⟩
  rw [outcome_build] at hbuild
  obtain ⟨leaves, -, rfl⟩ := map_eq_ok (Prod.mk.inj hbuild).1
  rw [generateUnits_eq_ok hbefore]
  -- after the routine the ranking has met the units up to this one
  have hfront : before ++ [unit] <+: c.units := by simp [hunits]
  obtain ⟨front, hle, hranking⟩ := (hs.enrolled hfront).1.ranked
  have hsum : (c.enrolled (unitDimensions (before ++ [unit]))).context.ranking =
      (c.enrolled (unitDimensions before)).context.ranking.enrolAll
        unit.dictionary.knownDimensions := by
    simp [enrolled, unitDimensions, Ranking.enrolAll_append]
  rw [hsum] at hranking
  rw [Ranking.sort_eq, hranking]
  dsimp only
  have hnames : ∀ x ∈ unit.dictionary.knownDimensions,
      (Ranking.initial.enrolAll (unitDimensions front)).Knows x :=
    fun x hx => hranking ▸ Ranking.knows_enrolAll _ hx
  refine (Ranking.mergeSort_of_later ?_ hnames).symm
  obtain ⟨rest, hrest⟩ := unitDimensions_of_front (List.IsPrefix.trans hle hp)
  rw [runRanking, ← hrest, Ranking.enrolAll_append]
  exact Ranking.later_enrolAll _ _

/-- The table of ranks and its counter under any sequence of questions: different names have different
ranks, all below the next one, which a new name gets; a name keeps its rank, the standard names have the
first four, and different names are sorted by strictly increasing rank. In every run the ranking comes from
such questions. A routine has the dimensions of its file as arguments, the standard ones first in the order
of the table, and two dimensions that two routines share stand in the same order in both argument lists,
whenever the routines are built. -/
theorem argument_order_shared (dycore : String) (settings : Settings) :
    (∀ calls, let r := Ranking.initial.after calls
      (∀ x y n, r.ranks.get? x = some n → r.ranks.get? y = some n → x = y) ∧
      (∀ x n, r.ranks.get? x = some n → n < r.nextRank) ∧
      (∀ x, r.ranks.get? x = none → (r.rank x).1 = r.nextRank ∧
        (r.rank x).2.ranks.get? x = some r.nextRank ∧ (r.rank x).2.nextRank = r.nextRank + 1) ∧
      (∀ x n, r.ranks.get? x = some n → ∀ more,
        (r.after more).ranks.get? x = some n ∧ ((r.after more).rank x).1 = n) ∧
      Ranking.standardNames.map (fun x => (r.rank x).1) = [1, 2, 3, 4] ∧
      (∀ names : List String, names.Nodup → (r.sort names).1.Perm names ∧
        (r.sort names).1.Pairwise fun x y =>
          ((r.sort names).2.rank x).1 < ((r.sort names).2.rank y).1) ∧
      ∀ names more names' x y, x ∈ names → y ∈ names → x ∈ names' → y ∈ names' →
        let later := ((r.sort names).2.after more).sort names'
        ((r.sort names).1.idxOf x < (r.sort names).1.idxOf y ↔
          later.1.idxOf x < later.1.idxOf y)) ∧
    ∀ requests more,
      let c := (start dycore settings).after requests
      (∃ calls, c.context.ranking = Ranking.initial.after calls) ∧
      ∀ unit routine unit' routine', c.Builds unit routine → (c.after more).Builds unit' routine' →
        routine.dimensions.Perm unit.dictionary.knownDimensions ∧ routine.dimensions.Nodup ∧
        (∃ others, routine.dimensions =
          Ranking.standardNames.filter (· ∈ unit.dictionary.knownDimensions) ++ others ∧
          ∀ x ∈ others, x ∉ Ranking.standardNames) ∧
        ∀ x y, x ∈ routine.dimensions → y ∈ routine.dimensions → x ∈ routine'.dimensions →
          y ∈ routine'.dimensions →
          (routine.arguments.idxOf x < routine.arguments.idxOf y ↔
            routine'.arguments.idxOf x < routine'.arguments.idxOf y) := by
  constructor
  · intro calls r
    have hr : r.Valid := Ranking.valid_initial.after calls
    refine ⟨hr.injective, hr.below, ?_, ?_, hr.rank_standardNames, ?_, ?_⟩
    · intro x hx
      have hget := r.get?_rank x
      rw [Ranking.rank_of_new hx] at hget ⊢
      exact ⟨rfl, hget, rfl⟩
    · intro x n hx more
      have hlater := r.later_after more x n hx
      exact ⟨hlater, by rw [Ranking.rank_of_get? hlater]⟩
    · intro names hnodup
      refine ⟨r.perm_sort names, ?_⟩
      rw [Ranking.sort_eq]
      exact Ranking.pairwise_rank_lt (hr.enrolAll names) (fun z => r.knows_enrolAll) hnodup
    · intro names more names' x y hx hy hx' hy'
      exact Ranking.idxOf_sort_congr hr ((hr.enrolAll names).after more) (Ranking.later_after _ more)
        hx hy hx' hy'
  · intro requests more c
    have hs : c.Sound := ((sound_start dycore settings).after requests).1
    obtain ⟨hs', hlater⟩ := hs.after more
    refine ⟨?_, ?_⟩
    · obtain ⟨front, -, hranking⟩ := hs.ranked
      refine ⟨(front.map (·.dictionary.knownDimensions)).map .sort, ?_⟩
      rw [Ranking.after_map_sort, hranking, unitDimensions, List.flatMap_def]
    · intro unit routine unit' routine' h h'
      obtain ⟨hu, hdims⟩ := h.dimensions_eq hs hlater.units
      obtain ⟨hu', hdims'⟩ := h'.dimensions_eq hs' List.prefix_rfl
      have hr := valid_runRanking (c.after more).units
      have hnodup := nodup_knownDimensions dycore settings requests unit hu
      have hnames := knows_runRanking (hlater.units.subset hu)
      have hperm : routine.dimensions.Perm unit.dictionary.knownDimensions :=
        hdims ▸ List.mergeSort_perm ..
      refine ⟨hperm, hperm.nodup_iff.mpr hnodup, ?_, ?_⟩
      · rw [hdims, hr.mergeSort_standard_first hnodup hnames]
        exact ⟨_, rfl, fun x hx => by simpa using (List.mem_filter.mp hx).2⟩
      · intro x y hx hy hx' hy'
        rw [AllocationRoutine.arguments, AllocationRoutine.arguments, List.idxOf_append_of_mem hx,
          List.idxOf_append_of_mem hy, List.idxOf_append_of_mem hx', List.idxOf_append_of_mem hy']
        rw [hdims, List.mem_mergeSort] at hx hy
        rw [hdims', List.mem_mergeSort] at hx' hy'
        rw [hdims, hdims', Ranking.idxOf_lt_iff hr hnames hx hy,
          Ranking.idxOf_lt_iff hr (knows_runRanking hu') hx' hy']

/-- A file with one allocatable array. -/
def arrayFile (name dimensions : String) : Node where
  tag := "file"
  attributes := [("name", name), ("type", "module")]
  children :=
    [{ tag := "array"
       attributes := [("allocatable", "allocatable"), ("local_name", "field"),
         ("standard_name", "field"), ("type", "real")]
       children := [{ tag := "dimensions", text := some dimensions }] }]

/-- Two files that use two dimensions in different orders. -/
def orderedRegistry : Node where
  tag := "registry"
  children := [arrayFile "first" "zdim bdim number_of_constituents horizontal_dimension",
    arrayFile "second" "adim bdim vertical_layer_dimension zdim"]

theorem orderedRegistry_shared : ∃ unit routine unit' routine',
    ((start "se" []).after [.compile orderedRegistry]).Builds unit routine ∧
      ((start "se" []).after [.compile orderedRegistry]).Builds unit' routine' ∧
      routine.dimensions = ["horizontal_dimension", "number_of_constituents", "zdim", "bdim"] ∧
      routine'.dimensions = ["vertical_layer_dimension", "zdim", "bdim", "adim"] ∧
      (routine.arguments.idxOf "zdim" < routine.arguments.idxOf "bdim" ↔
        routine'.arguments.idxOf "zdim" < routine'.arguments.idxOf "bdim") := by
  have horder := ((argument_order_shared "se" []).2 [.compile orderedRegistry] []).2
  have hs := ((sound_start "se" []).after [.compile orderedRegistry]).1
  have hknown : let c := (start "se" []).after [.compile orderedRegistry]
      c.units.map (·.dictionary.knownDimensions) =
        [["zdim", "bdim", "number_of_constituents", "horizontal_dimension"],
         ["adim", "bdim", "vertical_layer_dimension", "zdim"]] ∧
      ["horizontal_dimension", "number_of_constituents", "zdim", "bdim"].map
        (fun x => ((runRanking c.units).rank x).1) = [1, 4, 5, 6] ∧
      ["vertical_layer_dimension", "zdim", "bdim", "adim"].map
        (fun x => ((runRanking c.units).rank x).1) = [2, 5, 6, 7] := by
    decide +kernel
  have hruns : let c := (start "se" []).after [.compile orderedRegistry]
      let first := Action.outcome ((c.units.take 1).mapM (generateUnit {})) c
      first.1.toOption.any (fun _ => true) = true ∧
      (∀ unit ∈ c.units.take 1, ((AllocationRoutine.build unit c.context.catalog).outcome
        c.context.ranking).1.toOption.any (fun _ => true) = true) ∧
      ∀ unit ∈ c.units.drop 1, ((AllocationRoutine.build unit first.2.context.catalog).outcome
        first.2.context.ranking).1.toOption.any (fun _ => true) = true := by
    decide +kernel
  generalize (start "se" []).after [.compile orderedRegistry] = c at horder hs hknown hruns ⊢
  obtain ⟨hdimensions, hranks, hranks'⟩ := hknown
  have hlength : c.units.length = 2 := by simpa using congrArg List.length hdimensions
  obtain ⟨unit, unit', hunits⟩ := List.length_eq_two.mp hlength
  obtain ⟨hok, hfirst, hsecond⟩ := hruns
  rw [hunits] at hok hfirst hsecond hdimensions
  obtain ⟨files, hfiles, -⟩ := Action.outcome_eq_ok_of_any hok
  obtain ⟨routine, hroutine, -⟩ := Action.outcome_eq_ok_of_any (hfirst unit (by simp))
  obtain ⟨routine', hroutine', -⟩ := Action.outcome_eq_ok_of_any (hsecond unit' (by simp))
  have h : c.Builds unit routine := ⟨{}, [], [unit'], [], c, _, hunits, rfl, hroutine⟩
  have h' : c.Builds unit' routine' := ⟨{}, [unit], [], files, _, _, hunits, hfiles, hroutine'⟩
  have hdims := (h.dimensions_eq hs List.prefix_rfl).2
  have hdims' := (h'.dimensions_eq hs List.prefix_rfl).2
  simp only [List.map_cons, List.map_nil, List.cons.injEq, and_true] at hdimensions
  have hsorted : ∀ {l : List String} {ranks : List Nat},
      l.map (fun x => ((runRanking c.units).rank x).1) = ranks →
      ranks.Pairwise (· < ·) →
      l.Pairwise fun x y => ((runRanking c.units).rank x).1 < ((runRanking c.units).rank y).1 :=
    fun hl hlt => List.pairwise_map.mp (hl ▸ hlt)
  rw [hdimensions.1, Ranking.mergeSort_eq_of_pairwise (by decide) (hsorted hranks (by decide))]
    at hdims
  rw [hdimensions.2, Ranking.mergeSort_eq_of_pairwise (by decide) (hsorted hranks' (by decide))]
    at hdims'
  obtain ⟨-, -, -, hsame⟩ := horder unit routine unit' routine' h h'
  exact ⟨unit, routine, unit', routine', h, h', hdims, hdims',
    hsame "zdim" "bdim" (by simp [hdims]) (by simp [hdims]) (by simp [hdims']) (by simp [hdims'])⟩

end Compilation

end FieldRegistry
