import FieldRegistry.Proofs.ArgumentOrder
import FieldRegistry.Proofs.Outline
import FieldRegistry.Proofs.ResolvedNames

/-!
# Names in the argument lists of allocation routines

The arguments of a routine are the names in the dimension tokens of its file, in lower case, and two flags.
They never include a constant, and no dimension is listed twice. But a token may have nothing on one side of
its colon, and it may name a flag; only where dimensions are resolved, for variables of fixed shape, does
such a name have to be the standard name of a variable.
-/

namespace FieldRegistry

/-! ## Constants in lower case -/

theorem Text.trim_eq_self {s : String} (h : ∀ c ∈ s.toList, isBlank c = false) : trim s = s := by
  have hdrop : ∀ {cs : List Char}, (∀ c ∈ cs, isBlank c = false) → cs.dropWhile isBlank = cs := by
    intro cs hcs
    cases cs with
    | nil => rfl
    | cons c cs => exact List.dropWhile_cons_of_neg (by simp [hcs c])
  have htail : ∀ c ∈ s.toList.reverse, isBlank c = false := fun c hc => h c (List.mem_reverse.mp hc)
  rw [trim, hdrop h, dropTailWhile, hdrop htail, List.reverse_reverse, String.ofList_toList]

namespace Dimension

theorem not_isBlank_of_mem_components {token name : String} (hword : Text.IsWord token)
    (hname : name ∈ components token) : ∀ c ∈ name.toList, Text.isBlank c = false := by
  obtain ⟨piece, hpiece, rfl⟩ := List.mem_map.mp hname
  obtain ⟨chars, hchars, rfl⟩ := List.mem_map.mp hpiece
  intro c hc
  have hc := Text.trim_subset _ hc
  rw [String.toList_ofList] at hc
  exact hword.2 c (Text.subset_of_mem_pieces hchars hc)

theorem isPlain_constants : ∀ constant ∈ constants, ∀ c ∈ constant.1.toList, Text.IsPlain c := by
  -- a Boolean, since the quantifier could also be decided by a run over all characters
  have hall : constants.all (fun constant => constant.1.toList.all fun c => decide (Text.IsPlain c)) =
      true := by
    decide +kernel
  simpa only [List.all_eq_true, decide_eq_true_eq] using hall

theorem constant?_lower {token name : String} (hword : Text.IsWord token)
    (hname : name ∈ components token) (h : constant? name = none) :
    constant? (Text.lower name) = none := by
  have hblank := Text.not_isBlank_of_mem_lower (not_isBlank_of_mem_components hword hname)
  rw [constant?, Text.trim_eq_self hblank]
  rw [constant?_of_mem hname] at h
  cases hlookup : constants.lookup (Text.lower (Text.lower name)) with
  | none => rfl
  | some value =>
      obtain ⟨front, rest, hsplit, -⟩ := List.lookup_eq_some_iff.mp hlookup
      -- constants are plain, so the name was one before it was lowered a second time
      have hplain : ∀ c ∈ (Text.lower (Text.lower name)).toList, Text.IsPlain c :=
        isPlain_constants (_, value) (hsplit ▸ List.mem_append_right _ List.mem_cons_self)
      rw [← Text.lower_eq_of_lower_lower hplain rfl, h] at hlookup
      cases hlookup

end Dimension

/-! ## Arguments -/

namespace AllocationRoutine

variable {routine : AllocationRoutine}

def flagArguments : List String := [initFlag ++ "_in", reallocFlag ++ "_in"]

/-- The arguments have names, these differ, and none is a constant. -/
structure ArgumentsFit (routine : AllocationRoutine) : Prop where
  named : ∀ x ∈ routine.arguments, x ≠ ""
  distinct : routine.arguments.Nodup
  variableNames : ∀ x ∈ routine.arguments, Dimension.constant? x = none

theorem constant?_arguments (h : ∀ x ∈ routine.dimensions, Dimension.constant? x = none) :
    ∀ x ∈ routine.arguments, Dimension.constant? x = none := by
  have hflags : ∀ x ∈ flagArguments, Dimension.constant? x = none := by decide +kernel
  exact List.forall_mem_append.mpr ⟨h, hflags⟩

theorem argumentsFit_iff (hnodup : routine.dimensions.Nodup)
    (hconstant : ∀ x ∈ routine.dimensions, Dimension.constant? x = none) :
    routine.ArgumentsFit ↔ ∀ x ∈ routine.dimensions, x ≠ "" ∧ x ∉ flagArguments := by
  constructor
  · intro hfit x hx
    refine ⟨hfit.named x (List.mem_append_left _ hx), fun hflag => ?_⟩
    exact (List.nodup_append.mp hfit.distinct).2.2 x hx x hflag rfl
  · intro hall
    refine ⟨List.forall_mem_append.mpr ⟨fun x hx => (hall x hx).1, by decide⟩, ?_,
      constant?_arguments hconstant⟩
    refine List.nodup_append.mpr ⟨hnodup, by decide, fun x hx y hy hxy => ?_⟩
    exact (hall x hx).2 (hxy ▸ hy)

end AllocationRoutine

/-! ## Names of fixed shapes -/

theorem Variable.Names.exists_of_fixed {v : Variable} {shape : List (List ShapePart)}
    {indices : List Variable} (hnames : v.Names shape indices)
    (hfixed : v.storage.hasFixedShape = true) {token name : String} (htoken : token ∈ v.dimensions)
    (hname : name ∈ Dimension.components token) (h : Dimension.constant? name = none) :
    ∃ w ∈ Variable.named shape indices, Text.lower w.standardName = Text.lower name := by
  obtain ⟨-, tokens, hdimensions, hshape⟩ := hnames.fixed hfixed
  rcases hdimensions with rfl | hnone
  · obtain ⟨parts, hparts, hstand⟩ := exists_left_of_forall₂ hshape.flip htoken
    obtain ⟨part, hpart, hstands⟩ := exists_left_of_forall₂ hstand.flip hname
    cases hstands with
    | constant hsome => rw [h] at hsome; cases hsome
    | @name w _ hletters =>
        have hmem : ShapePart.name w ∈ shape.flatten := List.mem_flatten.mpr ⟨parts, hparts, hpart⟩
        exact ⟨w, List.mem_append_left _ (List.mem_filterMap.mpr ⟨_, hmem, rfl⟩), hletters⟩
  · rw [hnone] at htoken
    cases htoken

/-! ## Routines of a run -/

/-- The arguments of a routine fit if and only if no dimension token of its file has an empty name or that
of a flag, in the tokens of all variables of the file, members of its derived types included. In any case
its dimensions differ and no argument is a constant. A name in a variable of fixed shape is the standard
name of a variable of the file, so that only an odd standard name makes it one of these. -/
theorem arguments_fit_iff (dycore : String) (settings : Settings) (requests : List Request)
    (ranking : Ranking) :
    let run := (Compilation.start dycore settings).after requests
    let catalog := run.context.catalog
    ∀ unit ∈ run.units, ∀ routine ranking',
      (AllocationRoutine.build unit catalog).outcome ranking = (.ok routine, ranking') →
      ∃ own, unit.aggregates catalog = .ok own ∧
        routine.dimensions.Nodup ∧
        (∀ x ∈ routine.arguments, Dimension.constant? x = none) ∧
        (routine.ArgumentsFit ↔ ∀ v ∈ unit.ownVariables own, ∀ token ∈ v.dimensions,
          ∀ name ∈ Dimension.components token, Dimension.constant? name = none →
            name ≠ "" ∧ Text.lower name ∉ AllocationRoutine.flagArguments) ∧
        ∀ v ∈ unit.ownVariables own, v.storage.hasFixedShape = true → ∀ token ∈ v.dimensions,
          ∀ name ∈ Dimension.components token, Dimension.constant? name = none →
            ∃ w ∈ unit.ownVariables own, Text.lower w.standardName = Text.lower name := by
  intro run catalog unit hu routine ranking' h
  have hs : run.Sound := ((Compilation.sound_start dycore settings).after requests).1
  obtain ⟨added, own, hset⟩ := hs.settled unit hu
  have hown := hset.progress.aggregates_eq_ok
  obtain ⟨as, has, hwords⟩ := Compilation.history_invariant
    (historyInvariant_forall fun _ => Variable.isWord_dimensions) dycore settings requests unit hu
  obtain ⟨as', has', hnames⟩ :=
    Compilation.history_invariant historyInvariant_names dycore settings requests unit hu
  obtain rfl : as = own := Except.ok.inj (has.symm.trans hown)
  obtain rfl : as' = as := Except.ok.inj (has'.symm.trans hown)
  obtain ⟨-, -, -, hdims⟩ := build_eq_ok h
  have hargs : ∀ x, x ∈ routine.dimensions ↔ ∃ v ∈ unit.ownVariables as', ∃ token ∈ v.dimensions,
      ∃ name ∈ Dimension.components token, Dimension.constant? name = none ∧ x = Text.lower name := by
    intro x
    rw [hdims, hset.progress.history.mem_knownDimensions]
    simp only [Dictionary.dimensionNames, List.mem_flatMap, FileUnit.mem_named]
    rfl
  have hconstant : ∀ x ∈ routine.dimensions, Dimension.constant? x = none := by
    intro x hx
    obtain ⟨v, hv, token, htoken, name, hname, hnone, rfl⟩ := (hargs x).mp hx
    exact Dimension.constant?_lower (hwords v hv token htoken) hname hnone
  have hnodup : routine.dimensions.Nodup := by
    have hknown := Compilation.nodup_knownDimensions dycore settings requests unit hu
    rw [Compilation.outcome_build] at h
    obtain ⟨leaves, -, rfl⟩ := map_eq_ok (Prod.mk.inj h).1
    exact (ranking.perm_sort _).nodup_iff.mpr hknown
  refine ⟨as', hown, hnodup, AllocationRoutine.constant?_arguments hconstant, ?_, ?_⟩
  · rw [AllocationRoutine.argumentsFit_iff hnodup hconstant]
    constructor
    · intro hall v hv token htoken name hname hnone
      obtain ⟨hempty, hflag⟩ :=
        hall (Text.lower name) ((hargs _).mpr ⟨v, hv, token, htoken, name, hname, hnone, rfl⟩)
      exact ⟨fun he => hempty (Text.lower_eq_empty_iff.mpr he), hflag⟩
    · intro hall x hx
      obtain ⟨v, hv, token, htoken, name, hname, hnone, rfl⟩ := (hargs x).mp hx
      obtain ⟨hempty, hflag⟩ := hall v hv token htoken name hname hnone
      exact ⟨fun he => hempty (Text.lower_eq_empty_iff.mp he), hflag⟩
  · intro v hv hfixed token htoken name hname hnone
    obtain ⟨shape, indices, hvnames, hsub⟩ := hnames v hv
    obtain ⟨w, hw, hletters⟩ := hvnames.exists_of_fixed hfixed htoken hname hnone
    exact ⟨w, hsub hw, hletters⟩

/-! ## A lower bound that is left out -/

/-- A file with one pointer. -/
def boundsRegistry (dimensions : String) : Node where
  tag := "registry"
  children :=
    [{ tag := "file"
       attributes := [("name", "physics_types"), ("type", "module")]
       children :=
         [{ tag := "array"
            attributes := [("allocatable", "pointer"), ("local_name", "u"),
              ("standard_name", "eastward_wind"), ("type", "real")]
            children := [{ tag := "dimensions", text := some dimensions }] }] }]

/-- One of the arguments has no name, and one stands twice in the list. -/
theorem boundsRegistry_unfit : ∃ run unit routine ranking,
    (Compilation.compile (boundsRegistry ":horizontal_dimension Reallocate_in")).outcome
        (.start "se" []) = (.ok (), run) ∧
      unit ∈ run.units ∧
      (AllocationRoutine.build unit run.context.catalog).outcome run.context.ranking =
        (.ok routine, ranking) ∧
      "" ∈ routine.arguments ∧ ¬ routine.arguments.Nodup ∧ ¬ routine.ArgumentsFit := by
  have hok : ((Compilation.compile (boundsRegistry ":horizontal_dimension Reallocate_in")).outcome
      (.start "se" [])).1.toOption.any (fun _ => true) = true := by decide +kernel
  have hunit :
      let run := ((Compilation.compile (boundsRegistry ":horizontal_dimension Reallocate_in")).outcome
        (.start "se" [])).2
      ∃ unit ∈ run.units, (((AllocationRoutine.build unit run.context.catalog).outcome
          run.context.ranking).1.toOption.any (fun _ => true) = true) ∧
        "" ∈ unit.dictionary.knownDimensions ∧ "reallocate_in" ∈ unit.dictionary.knownDimensions := by
    decide +kernel
  obtain ⟨done, hrun, -⟩ := Action.outcome_eq_ok_of_any hok
  -- the run is only a name from here on, so that nothing evaluates it again
  generalize ((Compilation.compile (boundsRegistry ":horizontal_dimension Reallocate_in")).outcome
    (.start "se" [])).2 = run at hrun hunit
  obtain ⟨unit, hu, hbuild, hempty, hflag⟩ := hunit
  obtain ⟨routine, hroutine, -⟩ := Action.outcome_eq_ok_of_any hbuild
  obtain ⟨-, -, -, hdims⟩ := build_eq_ok hroutine
  have hnone : "" ∈ routine.arguments := List.mem_append_left _ ((hdims _).mpr hempty)
  have htwice : ¬ routine.arguments.Nodup := fun hnodup =>
    (List.nodup_append.mp hnodup).2.2 _ ((hdims _).mpr hflag) _ (by decide) rfl
  exact ⟨run, unit, routine, _, hrun, hu, hroutine, hnone, htwice, fun hfit => htwice hfit.distinct⟩

theorem boundsRegistry_fit :
    let run := (Compilation.start "se" []).after
      [.compile (boundsRegistry "Ccpp_Constant_One:Horizontal_Dimension")]
    ∃ unit ∈ run.units, ∃ routine ranking,
      (AllocationRoutine.build unit run.context.catalog).outcome .initial = (.ok routine, ranking) ∧
      "horizontal_dimension" ∈ routine.arguments ∧ routine.ArgumentsFit := by
  have hunit :
      let run := (Compilation.start "se" []).after
        [.compile (boundsRegistry "Ccpp_Constant_One:Horizontal_Dimension")]
      ∃ unit ∈ run.units, unit.aggregateNames = [] ∧
        "horizontal_dimension" ∈ unit.dictionary.knownDimensions ∧
        (∀ v ∈ unit.dictionary.declared,
          v.dimensions = ["Ccpp_Constant_One:Horizontal_Dimension"]) ∧
        ((AllocationRoutine.build unit run.context.catalog).outcome .initial).1.toOption.any
          (fun _ => true) = true := by
    decide +kernel
  have hmain := arguments_fit_iff "se" []
    [.compile (boundsRegistry "Ccpp_Constant_One:Horizontal_Dimension")] .initial
  generalize (Compilation.start "se" []).after
    [.compile (boundsRegistry "Ccpp_Constant_One:Horizontal_Dimension")] = run at hunit hmain ⊢
  obtain ⟨unit, hu, hnone, hknown, htokens, hbuild⟩ := hunit
  obtain ⟨routine, hroutine, -⟩ := Action.outcome_eq_ok_of_any hbuild
  obtain ⟨own, hown, -, -, hiff, -⟩ := hmain unit hu routine _ hroutine
  obtain ⟨-, -, -, hdims⟩ := build_eq_ok hroutine
  rw [FileUnit.aggregates, hnone] at hown
  cases hown
  refine ⟨unit, hu, routine, _, hroutine, List.mem_append_left _ ((hdims _).mpr hknown),
    hiff.mpr fun v hv => ?_⟩
  rw [htokens v (by simpa [FileUnit.ownVariables] using hv)]
  decide +kernel

end FieldRegistry
