import FieldRegistry.Proofs.FilePasses

/-!
# No variable of a file is lost or doubled

Every element of a file that stands for a variable gives one variable, and that variable ends up in the
dictionary of the file or in one of its derived types. A variable that waits for a type of the file is
built once, because the catalog lets a file define a name only once.
-/

namespace FieldRegistry.FileUnit

variable {dycore : String} {catalog catalog' : Catalog} {node : Node} {unit : FileUnit}

/-- Sorting elements by different keys that cover them all neither loses nor doubles one. -/
theorem perm_flatMap_filter_typeKey {keys : List String} {nodes : List Node} (hk : keys.Nodup)
    (h : ∀ n ∈ nodes, typeKey n ∈ keys) :
    (keys.flatMap fun key => nodes.filter fun n => typeKey n == key).Perm nodes := by
  induction keys generalizing nodes with
  | nil =>
      have hn : nodes = [] := List.eq_nil_iff_forall_not_mem.mpr fun n hn => by cases h n hn
      rw [hn]
      exact .refl []
  | cons key keys ih =>
      obtain ⟨hkey, hk⟩ := List.nodup_cons.mp hk
      rw [List.flatMap_cons]
      -- the other keys see the same elements when those of the first key are left out
      have hrest : (keys.flatMap fun k => nodes.filter fun n => typeKey n == k) =
          keys.flatMap fun k => (nodes.filter fun n => !(typeKey n == key)).filter
            fun n => typeKey n == k := by
        refine List.flatMap_congr fun k hk' => ?_
        rw [List.filter_filter]
        refine List.filter_congr fun n _ => ?_
        by_cases hn : typeKey n = k
        · have hne : k ≠ key := by rintro rfl; exact hkey hk'
          simp [hn, hne]
        · simp [hn]
      have hcover : ∀ n ∈ nodes.filter (fun n => !(typeKey n == key)), typeKey n ∈ keys := by
        intro n hn
        obtain ⟨hn, hne⟩ := List.mem_filter.mp hn
        rcases List.mem_cons.mp (h n hn) with he | he
        · simp [he] at hne
        · exact he
      rw [hrest]
      exact ((ih hk hcover).append_left _).trans (List.filter_append_perm ..)

/-- The variables of a file, in the order in which they were built, come from its elements. -/
theorem ofNode_eq_ok (h : (FileUnit.ofNode dycore node).outcome catalog = (.ok unit, catalog')) :
    ∃ nodes added as, nodes.Perm (variableChildren node) ∧ List.Forall₂ ReadFrom nodes added ∧
      Progress catalog' unit.dictionary unit.aggregateNames added as := by
  rcases ofNode_cases h with ⟨fault, h, -⟩ | ⟨items, survey, progress, hitems, hsurvey, hdefine, h⟩
  · cases h
  obtain ⟨p, rfl, rfl⟩ := map_eq_ok h.symm
  have hr : Resolved catalog (.empty (node.get "name") (node.get "type")) := fun v hv => by cases hv
  obtain ⟨built, deferred, vs, hperm, hvs, hh, hdeferred, hown, -, -⟩ :=
    survey_eq_ok (.empty _ _) hr hsurvey
  rw [List.nil_append] at hdeferred hh
  have hp : Progress catalog survey.dictionary [] vs [] :=
    ⟨rfl, by simp, List.nodup_nil, by simp, hh⟩
  obtain ⟨as, ws, hkeys, hws, hp'⟩ := hp.defineAll hdefine
  rw [List.nil_append] at hp'
  refine ⟨_, vs ++ ws, as, ?_, List.rel_append hvs hws, hp'⟩
  -- the elements that were put off are those that the definitions ask for
  rw [hdeferred, ← List.flatMap_map typeKey (fun key => deferred.filter fun n => typeKey n == key)]
  have hnodup : ((definitionChildren node).map typeKey).Nodup := hkeys ▸ hp'.distinct
  have hcover : ∀ n ∈ deferred, typeKey n ∈ (definitionChildren node).map typeKey :=
    fun n hn => (List.mem_filter.mp (hown n hn)).1
  have hitems := (items_eq_ok hitems).1
  rw [variableChildren, ← hitems]
  exact ((perm_flatMap_filter_typeKey hnodup hcover).append_left _).trans hperm

theorem aggregates_eq_ok_iff {as : List Aggregate} :
    unit.aggregates catalog = .ok as ↔
      List.Forall₂ (fun name a => catalog.aggregate? name = some a) unit.aggregateNames as := by
  unfold FileUnit.aggregates
  generalize unit.aggregateNames = names
  constructor
  · intro h
    refine (forall₂_of_mapM_eq_ok h).imp fun name a ha => ?_
    split at ha
    · rename_i b hb; cases ha; exact hb
    · cases ha
  · intro h
    induction h with
    | nil => rfl
    | cons ha _ ih => rw [List.mapM_cons, ha, ih]; rfl

theorem Progress.aggregates_eq_ok {d : Dictionary} {added : List Variable} {as : List Aggregate}
    (h : Progress catalog d unit.aggregateNames added as) : unit.aggregates catalog = .ok as := by
  have hfound : ∀ a ∈ as, catalog.aggregate? a.name = some a := fun a ha =>
    Catalog.aggregate?_eq_some.mpr ⟨_, h.known a ha, rfl⟩
  rw [aggregates_eq_ok_iff, h.names, List.forall₂_map_left_iff]
  exact List.forall₂_same.mpr hfound

theorem mem_named {x token : String} :
    x ∈ Dimension.named token ↔
      ∃ part ∈ Dimension.components token, Dimension.constant? part = none ∧ x = Text.lower part := by
  unfold Dimension.named
  rw [List.mem_map]
  constructor
  · rintro ⟨part, hp, rfl⟩
    obtain ⟨hm, hc⟩ := List.mem_filter.mp hp
    exact ⟨part, hm, by simpa using hc, rfl⟩
  · rintro ⟨part, hm, hc, rfl⟩
    exact ⟨part, List.mem_filter.mpr ⟨hm, by simp [hc]⟩, rfl⟩

/-- A file that is read turns each of its variable elements into one variable of that local and standard
name. The variables are those of its dictionary and the own members of its derived types; their standard
names differ, and the known dimensions are the names that their dimension tokens use. -/
theorem variables_conserved
    (h : (FileUnit.ofNode dycore node).outcome catalog = (.ok unit, catalog')) :
    ∃ vs aggregates,
      unit.aggregates catalog' = .ok aggregates ∧
      aggregates.map (·.name) = unit.aggregateNames ∧
      (aggregates.map fun a => Text.lower a.name).Nodup ∧
      List.Forall₂ (fun child v => v.localName = child.get "local_name" ∧
        v.standardName = child.get "standard_name") (variableChildren node) vs ∧
      vs.Perm (unit.dictionary.declared ++ aggregates.flatMap (·.members)) ∧
      (vs.map fun v => Text.lower v.standardName).Nodup ∧
      ∀ x, x ∈ unit.dictionary.knownDimensions ↔
        ∃ v ∈ vs, ∃ token ∈ v.dimensions, ∃ part ∈ Dimension.components token,
          Dimension.constant? part = none ∧ x = Text.lower part := by
  obtain ⟨nodes, added, as, hnodes, hread, hp⟩ := ofNode_eq_ok h
  obtain ⟨vs, hvars, hperm⟩ := List.perm_comp_forall₂ hnodes.symm hread
  have hplaces := hperm.trans hp.history.conserved.symm
  refine ⟨vs, as, hp.aggregates_eq_ok, hp.names.symm, hp.distinct, ?_, hplaces, ?_, ?_⟩
  · refine hvars.imp ?_
    rintro child v ⟨catalog, dictionary, hv⟩
    obtain ⟨hl, hs, -⟩ := Variable.ofNode_names hv
    exact ⟨hl, hs⟩
  · rw [(hplaces.map _).nodup_iff]
    exact hp.history.standardNames_nodup
  · intro x
    rw [hp.history.dimensions]
    simp only [Dictionary.dimensionNames, List.mem_flatMap, mem_named, hperm.mem_iff]

/-- A file with a derived type, a variable that becomes its member and an instance of it. -/
def sampleFile : Node where
  tag := "file"
  attributes := [("name", "physics_types"), ("type", "module")]
  children :=
    [{ tag := "variable"
       attributes := [("local_name", "state"), ("standard_name", "physics_state_instance"),
         ("type", "Physics_State")] },
     { tag := "ddt"
       attributes := [("type", "physics_state")]
       children := [{ tag := "data", text := some "air_temperature" }] },
     { tag := "array"
       attributes := [("allocatable", "pointer"), ("local_name", "t"),
         ("standard_name", "Air_Temperature"), ("type", "real")]
       children := [{ tag := "dimensions", text := some "horizontal_dimension" }] }]

theorem sampleFile_conserved : ∃ unit catalog',
    (FileUnit.ofNode "se" sampleFile).outcome .initial = (.ok unit, catalog') ∧
      ∃ vs aggregates,
        unit.aggregates catalog' = .ok aggregates ∧
        vs.Perm (unit.dictionary.declared ++ aggregates.flatMap (·.members)) ∧
        List.Forall₂ (fun child v => v.localName = child.get "local_name" ∧
          v.standardName = child.get "standard_name") (variableChildren sampleFile) vs := by
  have hok : ((FileUnit.ofNode "se" sampleFile).outcome .initial).1.toOption.any (fun _ => true) =
      true := by decide +kernel
  obtain ⟨unit, h, -⟩ := Action.outcome_eq_ok_of_any hok
  obtain ⟨vs, aggregates, ha, -, -, hread, hperm, -, -⟩ := variables_conserved h
  exact ⟨unit, _, h, vs, aggregates, ha, hperm, hread⟩

end FieldRegistry.FileUnit
