import FieldRegistry.Proofs.DictionaryCalls
import FieldRegistry.Proofs.ReaderSteps

/-!
# What one call does to a dictionary

A variable is found under two names: the local name is a key, the standard name is searched for through all
variables, and a third list says which standard names are reserved. After any calls the three agree: a
refused variable changes nothing, one that is added changes the answers under its own two names, and one
that is taken out empties just these.
-/

namespace FieldRegistry.Dictionary

open FieldRegistry.Action (outcome)

variable {d d' : Dictionary} {v w : Variable} {name : String}

/-- Some variable has the local name, in any letter case. -/
def HasLocal (d : Dictionary) (name : String) : Prop :=
  ∃ v ∈ d.declared, Text.lower v.localName = Text.lower name

instance (d : Dictionary) (name : String) : Decidable (d.HasLocal name) :=
  inferInstanceAs (Decidable (∃ v ∈ d.declared, Text.lower v.localName = Text.lower name))

theorem Keyed.findLocal?_eq_none_iff (h : d.Keyed) :
    d.findLocal? name = none ↔ ¬ d.HasLocal name := by
  simp only [Option.eq_none_iff_forall_ne_some, ne_eq, h.findLocal?_eq_some, HasLocal, not_exists]

@[simp] theorem value_searchLocal (d : Dictionary) (name : String) :
    (d.searchLocal name).value = d.findLocal? name := by
  unfold searchLocal
  cases d.findLocal? name <;> rfl

/-! ## Searches for a standard name -/

section Searches

variable {vs before after : List Variable}

theorem find?_append_of_new (h : ∀ w ∈ vs, Text.lower w.standardName ≠ Text.lower v.standardName)
    (name : String) :
    (vs ++ [v]).find? (fun w => Text.sameLetters w.standardName name) =
      if Text.lower name = Text.lower v.standardName then some v
      else vs.find? fun w => Text.sameLetters w.standardName name := by
  rw [List.find?_append]
  split
  · rename_i hname
    have hmiss : vs.find? (fun w => Text.sameLetters w.standardName name) = none :=
      List.find?_eq_none.mpr fun w hw hs => h w hw ((sameLetters_iff.mp hs).trans hname)
    rw [hmiss, Option.none_or, List.find?_singleton, if_pos (sameLetters_iff.mpr hname.symm)]
  · rename_i hname
    have hother : ¬ Text.sameLetters v.standardName name = true :=
      fun hs => hname (sameLetters_iff.mp hs).symm
    rw [List.find?_singleton, if_neg hother, Option.or_none]

theorem find?_without (h : ((before ++ v :: after).map fun w => Text.lower w.standardName).Nodup)
    (name : String) :
    (before ++ after).find? (fun w => Text.sameLetters w.standardName name) =
      if Text.lower name = Text.lower v.standardName then none
      else (before ++ v :: after).find? fun w => Text.sameLetters w.standardName name := by
  rw [List.map_append, List.map_cons, List.nodup_middle, List.nodup_cons, ← List.map_append] at h
  split
  · rename_i hname
    refine List.find?_eq_none.mpr fun w hw hs => h.1 ?_
    rw [← hname, ← sameLetters_iff.mp hs]
    exact List.mem_map.mpr ⟨w, hw, rfl⟩
  · rename_i hname
    have hother : Text.sameLetters v.standardName name = false :=
      Bool.eq_false_iff.mpr fun hs => hname (sameLetters_iff.mp hs).symm
    simp only [List.find?_append, List.find?_cons, hother]

end Searches

theorem take?_of_remove (h : outcome (remove name : Action Fault _ _) d = (.ok (some v), d')) :
    d.take? name = some (v, d') := by
  rw [outcome_remove] at h
  cases ht : d.take? name with
  | none => rw [ht] at h; cases h
  | some found => rw [ht] at h; cases h; rfl

/-! ## What a call does -/

/-- `d'` is `d` with `v` at its end, under its key: `v` is found under its two names, and all other
searches answer as before. -/
structure Joined (d : Dictionary) (v : Variable) (d' : Dictionary) : Prop where
  entries : d'.byLocalName.entries = d.byLocalName.entries ++ [(Text.lower v.localName, v)]
  searchLocal : ∀ name, (d'.searchLocal name).value =
    if Text.lower name = Text.lower v.localName then some v else (d.searchLocal name).value
  searchStandard : ∀ name, (d'.searchStandard name).value =
    if Text.lower name = Text.lower v.standardName then some v else (d.searchStandard name).value

/-- `d'` is `d` without `v`, which was found under its two names before and no longer is. -/
structure Withdrawn (d : Dictionary) (v : Variable) (d' : Dictionary) : Prop where
  entries : ∃ before after,
    d.byLocalName.entries = before ++ (Text.lower v.localName, v) :: after ∧
      d'.byLocalName.entries = before ++ after
  rest : d' = { d with byLocalName := d'.byLocalName }
  foundLocal : (d.searchLocal v.localName).value = some v
  foundStandard : (d.searchStandard v.standardName).value = some v
  searchLocal : ∀ name, (d'.searchLocal name).value =
    if Text.lower name = Text.lower v.localName then none else (d.searchLocal name).value
  searchStandard : ∀ name, (d'.searchStandard name).value =
    if Text.lower name = Text.lower v.standardName then none else (d.searchStandard name).value

namespace Session

variable {s : Session}

/-- Why a variable is refused after the calls of a session. A local name is taken by a variable that is
there, a standard name by any variable that was ever added; that one is named while it is there. -/
inductive Refusal (s : Session) (v : Variable) : Fault → Prop
  | localName {w : Variable} (hw : w ∈ s.dictionary.declared)
      (hk : Text.lower w.localName = Text.lower v.localName) :
      Refusal s v (.duplicateLocalName v.localName v.standardName s.dictionary.name
        (if w.standardName = v.standardName then none else some w.standardName))
  | standardName {u : Variable} (hfree : ¬ s.dictionary.HasLocal v.localName) (hu : u ∈ s.added)
      (hk : Text.lower u.standardName = Text.lower v.standardName) :
      Refusal s v (.duplicateStandardName v.standardName v.localName s.dictionary.name
        (if u ∈ s.dictionary.declared then some u.localName else none))

theorem Faithful.mem_added (h : s.Faithful) (hv : v ∈ s.dictionary.declared) : v ∈ s.added :=
  h.conserved.mem_iff.mp (List.mem_append_left _ hv)

theorem Faithful.eq_of_standardName (h : s.Faithful) (hv : v ∈ s.added) (hw : w ∈ s.added)
    (hk : Text.lower v.standardName = Text.lower w.standardName) : v = w :=
  List.inj_on_of_nodup_map (h.reserved ▸ h.distinct) hv hw hk

theorem Faithful.findStandard?_eq_some (h : s.Faithful) : s.dictionary.findStandard? name = some v ↔
    v ∈ s.dictionary.declared ∧ Text.lower v.standardName = Text.lower name :=
  Dictionary.findStandard?_eq_some h.standardKeys

/-- The variable that a reserved name belongs to is found if and only if it is still there. -/
theorem Faithful.findStandard?_of_added (h : s.Faithful) (hu : w ∈ s.added)
    (hk : Text.lower w.standardName = Text.lower name) :
    (s.dictionary.findStandard? name).map (·.localName) =
      if w ∈ s.dictionary.declared then some w.localName else none := by
  split
  · rename_i hw
    rw [h.findStandard?_eq_some.mpr ⟨hw, hk⟩, Option.map_some]
  · rename_i hw
    cases hf : s.dictionary.findStandard? name with
    | none => rfl
    | some u =>
        obtain ⟨hu', hk'⟩ := h.findStandard?_eq_some.mp hf
        have hsame : u = w := h.eq_of_standardName (h.mem_added hu') hu (hk'.trans hk.symm)
        exact absurd (hsame ▸ hu') hw

theorem Faithful.mem_reserved_iff (h : s.Faithful) : Text.lower name ∈ s.dictionary.reserved ↔
    ∃ u ∈ s.added, Text.lower u.standardName = Text.lower name := by
  rw [h.reserved, List.mem_map]

theorem Faithful.add_eq_error_iff (h : s.Faithful) {fault : Fault} :
    (outcome (Dictionary.add v) s.dictionary).1 = .error fault ↔ s.Refusal v fault := by
  rw [outcome_add]
  cases hl : s.dictionary.findLocal? v.localName with
  | some w =>
      obtain ⟨hw, hk⟩ := h.keyed.findLocal?_eq_some.mp hl
      simp only [Except.error.injEq, beq_iff_eq]
      constructor
      · rintro rfl
        exact .localName hw hk
      · intro hr
        cases hr with
        | localName hw' hk' =>
            rw [Option.some.inj (hl.symm.trans (h.keyed.findLocal?_eq_some.mpr ⟨hw', hk'⟩))]
        | standardName hfree _ _ => exact absurd ⟨w, hw, hk⟩ hfree
  | none =>
      have hfree := h.keyed.findLocal?_eq_none_iff.mp hl
      simp only [List.contains_iff_mem, h.mem_reserved_iff]
      split
      · rename_i hreserved
        obtain ⟨u, hu, hk⟩ := hreserved
        rw [Except.error.injEq, h.findStandard?_of_added hu hk]
        constructor
        · rintro rfl
          exact .standardName hfree hu hk
        · intro hr
          cases hr with
          | localName hw hk' => exact absurd ⟨_, hw, hk'⟩ hfree
          | standardName _ hu' hk' => rw [h.eq_of_standardName hu hu' (hk.trans hk'.symm)]
      · rename_i hnew
        refine ⟨nofun, fun hr => ?_⟩
        cases hr with
        | localName hw hk => exact absurd ⟨_, hw, hk⟩ hfree
        | standardName _ hu hk => exact absurd ⟨_, hu, hk⟩ hnew

theorem Faithful.joined (h : s.Faithful) (ha : s.dictionary.Adds v d') : s.dictionary.Joined v d' := by
  refine ⟨ha.entries, fun name => ?_, fun name => ?_⟩
  · rw [value_searchLocal, value_searchLocal, ha.eq_extend]
    exact OrderedMap.get?_insert ..
  · have hnew := ha.unreserved
    rw [h.mem_reserved_iff] at hnew
    rw [value_searchStandard, value_searchStandard, findStandard?, findStandard?, ha.declared]
    exact find?_append_of_new (fun w hw hk => hnew ⟨w, h.mem_added hw, hk⟩) name

theorem Faithful.withdrawn (h : s.Faithful) (ht : s.dictionary.take? name = some (v, d')) :
    s.dictionary.Withdrawn v d' := by
  obtain ⟨-, before, key, after, hsplit, hrest, hd⟩ := exists_split_of_take? ht
  have hkey : key = Text.lower v.localName := h.keyed (key, v) (by simp [hsplit])
  have hv : v ∈ s.dictionary.declared :=
    List.mem_map.mpr ⟨(key, v), by simp [hsplit], rfl⟩
  refine ⟨⟨before, after, hkey ▸ hsplit, hrest⟩, ?_, ?_, ?_, fun key' => ?_, fun key' => ?_⟩
  · rw [hd]
  · rw [value_searchLocal]
    exact h.keyed.findLocal?_eq_some.mpr ⟨hv, rfl⟩
  · rw [value_searchStandard]
    exact h.findStandard?_eq_some.mpr ⟨hv, rfl⟩
  · rw [value_searchLocal, value_searchLocal, hd, ← hkey]
    exact OrderedMap.get?_erase ..
  · have hstandard := h.standardKeys
    rw [Dictionary.standardKeys, declared_eq, hsplit, List.map_append, List.map_cons] at hstandard
    rw [value_searchStandard, value_searchStandard, findStandard?, findStandard?, declared_eq,
      declared_eq, hsplit, hrest, List.map_append, List.map_append, List.map_cons]
    exact find?_without hstandard key'

theorem Faithful.exists_take?_iff (h : s.Faithful) :
    (∃ d', s.dictionary.take? name = some (v, d')) ↔
      v ∈ s.dictionary.declared ∧ Text.lower v.standardName = Text.lower name := by
  rw [← h.findStandard?_eq_some, take?_eq, findStandard?_eq]
  simp

theorem Faithful.outcome_remove_again (h : s.Faithful) (ht : s.dictionary.take? name = some (v, d')) :
    outcome (remove name : Action Fault _ _) d' = (.ok none, d') := by
  have hk := (take?_eq_some ht).1
  have hgone := (h.withdrawn ht).searchStandard name
  rw [if_pos hk.symm, value_searchStandard] at hgone
  have hnone : d'.take? name = none := by
    rw [take?_eq_none_iff, ← exists_findStandard?_iff, hgone]
    simp
  rw [outcome_remove, hnone]

theorem dictionary_call (s : Session) (v : Variable) :
    (s.call (.add v)).dictionary = (outcome (Dictionary.add v) s.dictionary).2 := by
  rw [call]
  cases outcome (Dictionary.add v) s.dictionary with
  | mk result d => cases result <;> rfl

/-- The exact effect of a call after any calls. Adding fails for the two reasons of `Refusal` and no
other, and then leaves the dictionary as it was; otherwise the variable is found under every spelling of
its names. Taking out by a standard name gives the variable that has it. Then the searches for its two
names are empty, the other variables stand in their order with all other searches as before, and the same
call finds nothing more. -/
theorem calls_have_exact_effects (name kind : String) (calls : List Call) :
    let s := (start name kind).after calls
    let d := s.dictionary
    (∀ v, (s.call (.add v)).dictionary = (outcome (Dictionary.add v) d).2 ∧
      (∀ fault, (outcome (Dictionary.add v) d).1 = .error fault ↔ s.Refusal v fault) ∧
      (∀ fault d', outcome (Dictionary.add v) d = (.error fault, d') → d' = d) ∧
      ∀ d', outcome (Dictionary.add v) d = (.ok (), d') → d.Joined v d') ∧
    ∀ key v,
      ((∃ d', outcome (remove key : Action Fault _ _) d = (.ok (some v), d')) ↔
        v ∈ d.declared ∧ Text.lower v.standardName = Text.lower key) ∧
      ∀ d', outcome (remove key : Action Fault _ _) d = (.ok (some v), d') →
        d.Withdrawn v d' ∧ outcome (remove key : Action Fault _ _) d' = (.ok none, d') := by
  intro s d
  have h : s.Faithful := (faithful_start name kind).after calls
  refine ⟨fun v => ⟨dictionary_call s v, fun fault => ?_, ?_, ?_⟩, fun key v => ⟨?_, ?_⟩⟩
  · exact h.add_eq_error_iff
  · intro fault d' hrefused
    exact eq_of_add_error hrefused
  · intro d' hadded
    exact h.joined hadded
  · rw [← h.exists_take?_iff]
    refine exists_congr fun d' => ⟨take?_of_remove, fun ht => ?_⟩
    rw [outcome_remove, ht]
  · intro d' hremoved
    have ht := take?_of_remove hremoved
    exact ⟨h.withdrawn ht, h.outcome_remove_again ht⟩

/-- Of two names that were added, the one that is still there is reported with its variable. -/
theorem removed_name_has_no_holder :
    let east := allocatableReal "u" "east_wind" ["pver"]
    let north := allocatableReal "v" "north_wind" ["pver"]
    let s := (start "physics_types" "module").after [.add east, .add north, .remove "EAST_WIND"]
    outcome (Dictionary.add (allocatableReal "u" "East_Wind" [])) s.dictionary =
        (.error (.duplicateStandardName "East_Wind" "u" "physics_types" none), s.dictionary) ∧
      outcome (Dictionary.add (allocatableReal "u" "North_Wind" [])) s.dictionary =
        (.error (.duplicateStandardName "North_Wind" "u" "physics_types" (some "v")), s.dictionary) ∧
      (∃ d', outcome (remove "North_Wind" : Action Fault _ _) s.dictionary = (.ok (some north), d') ∧
        (d'.searchLocal "V").value = none) := by
  intro east north s
  have heffects := calls_have_exact_effects "physics_types" "module"
    [.add east, .add north, .remove "EAST_WIND"]
  have hs : (start "physics_types" "module").after [.add east, .add north, .remove "EAST_WIND"] = s := rfl
  have hname : s.dictionary.name = "physics_types" := by decide +kernel
  have hfree : ¬ s.dictionary.HasLocal "u" := by decide +kernel
  have heast : east ∈ s.added ∧ east ∉ s.dictionary.declared := by decide +kernel
  have hnorth : north ∈ s.added ∧ north ∈ s.dictionary.declared := by decide +kernel
  -- from here on the calls are not run again
  rw [hs] at heffects
  clear_value s
  obtain ⟨hadd, hremove⟩ := heffects
  have hrefused : ∀ v fault, s.Refusal v fault →
      outcome (Dictionary.add v) s.dictionary = (.error fault, s.dictionary) := by
    intro v fault hr
    obtain ⟨-, hfault, hsame, -⟩ := hadd v
    have hresult := (hfault fault).mpr hr
    exact Prod.ext hresult (hsame fault _ (Prod.ext hresult rfl))
  have hgone : s.Refusal (allocatableReal "u" "East_Wind" []) _ :=
    .standardName hfree heast.1 (by decide +kernel)
  have hkept : s.Refusal (allocatableReal "u" "North_Wind" []) _ :=
    .standardName hfree hnorth.1 (by decide +kernel)
  rw [if_neg heast.2, hname] at hgone
  rw [if_pos hnorth.2, hname] at hkept
  refine ⟨hrefused _ _ hgone, hrefused _ _ hkept, ?_⟩
  obtain ⟨hreturns, hwithdrawn⟩ := hremove "North_Wind" north
  obtain ⟨d', hremoved⟩ := hreturns.mpr ⟨hnorth.2, by decide +kernel⟩
  refine ⟨d', hremoved, ?_⟩
  rw [(hwithdrawn d' hremoved).1.searchLocal, if_pos (by decide +kernel)]

end Session

end FieldRegistry.Dictionary
