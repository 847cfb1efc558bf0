import FieldRegistry.Proofs.Stability
import Mathlib.Logic.Relation

/-!
# When files cannot be generated

Types are kept by name while a registry is read and are looked up again when its files are generated. In
every state of a run each reference still says what the catalog says, so generation stops for two reasons
only: a derived type without members of its own, or an array of a derived type that a walk from some
dictionary meets.
-/

namespace FieldRegistry

/-- The one kind of variable that allocation does not support. -/
def Variable.IsAggregateArray (v : Variable) : Prop :=
  v.type.isAggregate = true ∧ v.dimensions ≠ []

namespace Catalog

variable {c : Catalog} {scope path : String} {v w : Variable} {fault : Fault} {leaves : List Leaf}

/-! ## Variables within reach -/

/-- `w` is an own or inherited member of the derived type of `v`. -/
def HasMember (c : Catalog) (v w : Variable) : Prop :=
  v.type.isAggregate = true ∧ ∃ a, c.aggregate? v.type.name = some a ∧ w ∈ c.flatten a

def Reaches (c : Catalog) : Variable → Variable → Prop := Relation.ReflTransGen c.HasMember

theorem Built.resolves_of_hasMember (h : Built c) (hm : c.HasMember v w) : c.Resolves w.type := by
  obtain ⟨-, a, ha, hw⟩ := hm
  exact h.resolves_of_mem_flatten ha hw

theorem Resolves.lookup?_ref {ref : TypeRef} (h : c.Resolves ref) :
    (c.lookup? ref.name).map TypeEntry.ref = some ref := by
  obtain ⟨entry, he, hr⟩ := h
  rw [he, Option.map_some, hr]

/-! ## The walk to the leaves -/

/-- A walk is over at once, stops at an array of a derived type, or goes on with all members, whatever
path has led to it. -/
theorem Built.leavesAt_cases (h : Built c) (hv : c.Resolves v.type) (scope : String) :
    (v.type.isAggregate = false ∧ ∀ path, c.leavesAt scope path v = .ok [⟨path, v⟩]) ∨
    (v.IsAggregateArray ∧ ∀ path, c.leavesAt scope path v =
      .error (.unsupported "Arrays of DDT objects not implemented" v.localName scope)) ∨
    ∃ a, v.type.isAggregate = true ∧ v.dimensions = [] ∧ c.aggregate? v.type.name = some a ∧
      ∀ path, c.leavesAt scope path v = ((c.flatten a).mapM fun member =>
        c.leavesAt scope (path ++ v.localName ++ "%") member).map List.flatten := by
  simp only [h.leavesAt_eq (v := v), visit]
  cases hagg : v.type.isAggregate with
  | false => exact Or.inl ⟨rfl, fun _ => rfl⟩
  | true =>
      refine Or.inr ?_
      by_cases hd : v.dimensions = []
      · obtain ⟨a, ha⟩ := hv.aggregate? hagg
        exact Or.inr ⟨a, rfl, hd, ha, fun _ => by simp [hd, ha]⟩
      · exact Or.inl ⟨⟨hagg, hd⟩, fun _ => by simp [hd]⟩

/-- A walk that fails has met an array of a derived type. -/
theorem Built.fault_of_leavesAt (h : Built c) (hv : c.Resolves v.type)
    (he : c.leavesAt scope path v = .error fault) :
    ∃ w, c.Reaches v w ∧ w.IsAggregateArray ∧
      fault = .unsupported "Arrays of DDT objects not implemented" w.localName scope := by
  induction v using h.wellFounded_descends.induction generalizing path with
  | _ v ih =>
      rcases h.leavesAt_cases hv scope with ⟨-, hl⟩ | ⟨harray, hl⟩ | ⟨a, hagg, hd, ha, hl⟩
      · rw [hl] at he; cases he
      · rw [hl] at he; cases he
        exact ⟨v, .refl, harray, rfl⟩
      · rw [hl] at he
        obtain ⟨m, hm, he⟩ := exists_of_mapM_eq_error (map_eq_error he)
        obtain ⟨w, hr, harray, hf⟩ := ih m ⟨hagg, hd, a, ha, hm⟩ (h.resolves_of_mem_flatten ha hm) he
        exact ⟨w, .head ⟨hagg, a, ha, hm⟩ hr, harray, hf⟩

/-- A walk that ends has met no array of a derived type, wherever it went. -/
theorem Built.not_isAggregateArray_of_leavesAt (h : Built c) (hv : c.Resolves v.type)
    (hok : c.leavesAt scope path v = .ok leaves) (hr : c.Reaches v w) : ¬ w.IsAggregateArray := by
  induction hr using Relation.ReflTransGen.head_induction_on generalizing path leaves with
  | refl =>
      rintro ⟨hagg, hd⟩
      rcases h.leavesAt_cases hv scope with ⟨hno, -⟩ | ⟨-, hl⟩ | ⟨a, -, hd', -, -⟩
      · rw [hagg] at hno; cases hno
      · rw [hl] at hok; cases hok
      · exact hd hd'
  | @head v m hm _ ih =>
      rcases h.leavesAt_cases hv scope with ⟨hno, -⟩ | ⟨-, hl⟩ | ⟨a, -, -, ha, hl⟩
      · rw [hm.1] at hno; cases hno
      · rw [hl] at hok; cases hok
      · obtain ⟨-, b, hb, hmem⟩ := id hm
        rw [ha] at hb
        cases hb
        rw [hl] at hok
        obtain ⟨parts, hparts, -⟩ := map_eq_ok hok
        obtain ⟨part, hpart⟩ := exists_of_mapM_eq_ok hparts hmem
        exact ih (h.resolves_of_hasMember hm) hpart

end Catalog

/-! ## Files of one unit -/

namespace FileUnit.Settled

variable {catalog : Catalog} {unit : FileUnit} {added : List Variable} {as : List Aggregate}
  {style : Style} {dimensions : List String} {fault : Fault}

theorem metadata_eq_ok (h : Settled catalog unit added as) :
    ∃ text, Metadata.text unit catalog = .ok text := by
  rw [Metadata.text, Metadata.tables, h.aggregates_eq_ok]
  exact ⟨_, rfl⟩

theorem nameTable_eq_ok (h : Settled catalog unit added as) :
    ∃ table, (NameTable.build unit catalog).outcome = .ok table := by
  rw [NameTable.build, Checked.outcome_bind, Checked.outcome_ofExcept, h.aggregates_eq_ok]
  dsimp only [bind, Except.bind]
  rw [Checked.outcome_ite, Checked.outcome_ite]
  split
  · exact ⟨none, rfl⟩
  · split
    · exact ⟨none, rfl⟩
    · exact ⟨_, rfl⟩

theorem imports_eq_ok (h : Settled catalog unit added as) :
    unit.imports catalog = .ok (unit.dictionary.declared.filterMap unit.importOf? ++
      (as.flatMap catalog.flatten).filterMap unit.importOf? ++ unit.uses) := by
  rw [FileUnit.imports, h.aggregates_eq_ok]
  rfl

/-- All that can go wrong in a module, once its routine is there, are the definitions of types. -/
theorem lines_eq (h : Settled catalog unit added as) (style : Style) (routine : AllocationRoutine) :
    ∃ finish, (SourceModule.lines unit catalog style routine).outcome =
      (as.mapM (SourceModule.typeDefinition style)).map finish := by
  obtain ⟨table, htable⟩ := h.nameTable_eq_ok
  simp only [SourceModule.lines, Checked.outcome_bind, Checked.outcome_ofExcept, h.imports_eq_ok,
    h.aggregates_eq_ok, htable]
  dsimp only [bind, Except.bind]
  cases as.mapM (SourceModule.typeDefinition style) with
  | error fault => exact ⟨fun _ => [], rfl⟩
  | ok definitions => exact ⟨fun _ => _, rfl⟩

theorem typeDefinition_eq (style : Style) (a : Aggregate) :
    (a.members = [] ∧ SourceModule.typeDefinition style a = .error (.noMembers a.name a.scope)) ∨
      (a.members ≠ [] ∧ ∃ lines, SourceModule.typeDefinition style a = .ok lines) := by
  rw [SourceModule.typeDefinition, Aggregate.checkMembers]
  cases a.members with
  | nil => exact Or.inl ⟨rfl, rfl⟩
  | cons v vs => exact Or.inr ⟨by simp, _, rfl⟩

theorem fault_of_render (h : Settled catalog unit added as)
    (he : Compilation.render style catalog unit dimensions = .error fault) :
    AllocationRoutine.leaves unit catalog = .error fault ∨
      ∃ a ∈ as, a.members = [] ∧ fault = .noMembers a.name a.scope := by
  obtain ⟨text, htext⟩ := h.metadata_eq_ok
  rw [Compilation.render, htext, Compilation.source] at he
  cases hl : AllocationRoutine.leaves unit catalog with
  | error fault' => rw [hl] at he; cases he; exact Or.inl rfl
  | ok leaves =>
      obtain ⟨finish, hlines⟩ := h.lines_eq style ⟨AllocationRoutine.nameFor unit.name, dimensions,
        leaves.flatMap Leaf.steps⟩
      rw [hl] at he
      dsimp only [bind, Except.bind] at he
      rw [hlines] at he
      cases hdefs : as.mapM (SourceModule.typeDefinition style) with
      | ok definitions => rw [hdefs] at he; cases he
      | error fault' =>
          rw [hdefs] at he
          cases he
          obtain ⟨a, ha, hdef⟩ := exists_of_mapM_eq_error hdefs
          rcases typeDefinition_eq style a with ⟨hm, hno⟩ | ⟨-, lines, hok⟩
          · rw [hno] at hdef; cases hdef
            exact Or.inr ⟨a, ha, hm, rfl⟩
          · rw [hok] at hdef; cases hdef

theorem of_render (h : Settled catalog unit added as) {files : List Output}
    (hok : Compilation.render style catalog unit dimensions = .ok files) :
    (∃ leaves, AllocationRoutine.leaves unit catalog = .ok leaves) ∧ ∀ a ∈ as, a.members ≠ [] := by
  rw [Compilation.render] at hok
  obtain ⟨text, -, hok⟩ := bind_eq_ok hok
  obtain ⟨source, hsource, -⟩ := bind_eq_ok hok
  obtain ⟨leaves, hl, hsource⟩ := bind_eq_ok hsource
  obtain ⟨lines, hlines, -⟩ := bind_eq_ok hsource
  obtain ⟨finish, heq⟩ := h.lines_eq style _
  rw [heq] at hlines
  obtain ⟨definitions, hdefs, -⟩ := map_eq_ok hlines
  refine ⟨⟨leaves, hl⟩, fun a ha hm => ?_⟩
  obtain ⟨lines, hok⟩ := exists_of_mapM_eq_ok hdefs ha
  rcases typeDefinition_eq style a with ⟨-, hno⟩ | ⟨hm', -⟩
  · rw [hno] at hok; cases hok
  · exact hm' hm

theorem mem_aggregateNames (h : Settled catalog unit added as) {a : Aggregate} :
    a ∈ as ↔ a.name ∈ unit.aggregateNames ∧ catalog.aggregate? a.name = some a := by
  rw [h.progress.names]
  constructor
  · intro ha
    exact ⟨List.mem_map.mpr ⟨a, ha, rfl⟩,
      Catalog.aggregate?_eq_some.mpr ⟨_, h.progress.known a ha, rfl⟩⟩
  · rintro ⟨hn, hl⟩
    obtain ⟨b, hb, hname⟩ := List.mem_map.mp hn
    have hl' : catalog.aggregate? b.name = some b :=
      Catalog.aggregate?_eq_some.mpr ⟨_, h.progress.known b hb, rfl⟩
    rw [hname, hl] at hl'
    cases hl'
    exact hb

end FileUnit.Settled

/-! ## All units -/

namespace Compilation

variable {catalog : Catalog} {ranking : Ranking} {units : List FileUnit} {style : Style}

theorem fault_of_emit {fault : Fault} (h : emit style catalog ranking units = .error fault) :
    ∃ unit ∈ units, ∃ dimensions, render style catalog unit dimensions = .error fault := by
  induction units generalizing ranking with
  | nil => cases h
  | cons unit units ih =>
      rw [emit] at h
      cases hfirst : render style catalog unit
          (ranking.sort unit.dictionary.knownDimensions).1 with
      | error fault' => rw [hfirst] at h; cases h; exact ⟨unit, by simp, _, hfirst⟩
      | ok files =>
          rw [hfirst] at h
          cases hrest : emit style catalog (ranking.enrolAll unit.dictionary.knownDimensions) units with
          | error fault' =>
              rw [hrest] at h
              cases h
              obtain ⟨u, hu, hf⟩ := ih hrest
              exact ⟨u, by simp [hu], hf⟩
          | ok rest => rw [hrest] at h; cases h

theorem of_emit {outputs : List (List Output)} (h : emit style catalog ranking units = .ok outputs)
    {unit : FileUnit} (hu : unit ∈ units) :
    ∃ dimensions files, render style catalog unit dimensions = .ok files := by
  induction units generalizing ranking outputs with
  | nil => cases hu
  | cons first units ih =>
      rw [emit] at h
      obtain ⟨files, hfiles, h⟩ := bind_eq_ok h
      obtain ⟨rest, hrest, -⟩ := bind_eq_ok h
      rcases List.mem_cons.mp hu with rfl | hu
      · exact ⟨_, files, hfiles⟩
      · exact ih hrest hu

/-- Some derived type of some unit has no members of its own. -/
def HasEmptyType (c : Compilation) (fault : Fault) : Prop :=
  ∃ unit ∈ c.units, ∃ a, a.name ∈ unit.aggregateNames ∧
    c.context.catalog.aggregate? a.name = some a ∧ a.members = [] ∧
    fault = .noMembers a.name a.scope

/-- Some dictionary leads to an array of a derived type. -/
def HasAggregateArray (c : Compilation) (fault : Fault) : Prop :=
  ∃ unit ∈ c.units, ∃ v ∈ unit.dictionary.declared, ∃ w, c.context.catalog.Reaches v w ∧
    w.IsAggregateArray ∧
    fault = .unsupported "Arrays of DDT objects not implemented" w.localName unit.name

theorem Sound.fault_of_files {c : Compilation} {fault : Fault} (hs : c.Sound)
    (h : c.files style = .error fault) : c.HasEmptyType fault ∨ c.HasAggregateArray fault := by
  rw [hs.files_eq] at h
  obtain ⟨unit, hu, dimensions, hrender⟩ := fault_of_emit (map_eq_error h)
  obtain ⟨added, as, hset⟩ := hs.settled unit hu
  rcases hset.fault_of_render hrender with hl | ⟨a, ha, hm, hf⟩
  · obtain ⟨v, hv, hwalk⟩ := exists_of_mapM_eq_error (map_eq_error hl)
    obtain ⟨w, hr, harray, hf⟩ := hs.built.fault_of_leavesAt (hset.resolved v hv) hwalk
    exact Or.inr ⟨unit, hu, v, hv, w, hr, harray, hf⟩
  · obtain ⟨hn, hl⟩ := hset.mem_aggregateNames.mp ha
    exact Or.inl ⟨unit, hu, a, hn, hl, hm, hf⟩

theorem Sound.of_files {c : Compilation} {outputs : List Output} (hs : c.Sound)
    (h : c.files style = .ok outputs) {unit : FileUnit} (hu : unit ∈ c.units) :
    (∀ a, a.name ∈ unit.aggregateNames → c.context.catalog.aggregate? a.name = some a →
      a.members ≠ []) ∧
    ∀ v ∈ unit.dictionary.declared, ∀ w, c.context.catalog.Reaches v w → ¬ w.IsAggregateArray := by
  rw [hs.files_eq] at h
  obtain ⟨parts, hparts, -⟩ := map_eq_ok h
  obtain ⟨dimensions, files, hrender⟩ := of_emit hparts hu
  obtain ⟨added, as, hset⟩ := hs.settled unit hu
  obtain ⟨⟨leaves, hl⟩, hmembers⟩ := hset.of_render hrender
  refine ⟨fun a hn hl => hmembers a (hset.mem_aggregateNames.mpr ⟨hn, hl⟩), fun v hv w hr => ?_⟩
  obtain ⟨parts, hparts, -⟩ := map_eq_ok hl
  obtain ⟨part, hpart⟩ := exists_of_mapM_eq_ok hparts hv
  exact hs.built.not_isAggregateArray_of_leavesAt (hset.resolved v hv) hpart hr

theorem Sound.aggregate?_of_listed {c : Compilation} (hs : c.Sound) {unit : FileUnit}
    (hu : unit ∈ c.units) {name : String} (hn : name ∈ unit.aggregateNames) :
    ∃ a, c.context.catalog.aggregate? name = some a ∧ a.name = name ∧ a.scope = unit.name := by
  obtain ⟨added, as, hset⟩ := hs.settled unit hu
  rw [hset.progress.names] at hn
  obtain ⟨a, ha, rfl⟩ := List.mem_map.mp hn
  exact ⟨a, (hset.mem_aggregateNames.mp ha).2, rfl, (hset.progress.scope a ha).trans hset.scope⟩

/-- In every state of a run the types that variables keep, and the derived types that files list, are
those of the catalog. So files can be generated if and only if every listed type has members of its own
and no dictionary leads to an array of a derived type, and a fault says which of the two failed. -/
theorem generation_faults (dycore : String) (settings : Settings) (requests : List Request)
    (style : Style) :
    let run := (start dycore settings).after requests
    let catalog := run.context.catalog
    (∀ unit ∈ run.units, ∀ v ∈ unit.dictionary.declared,
      (catalog.lookup? v.type.name).map TypeEntry.ref = some v.type) ∧
    (∀ entry ∈ catalog.entries, ∀ a, entry.aggregate = some a → ∀ v ∈ a.members,
      (catalog.lookup? v.type.name).map TypeEntry.ref = some v.type) ∧
    (∀ unit ∈ run.units, ∀ name ∈ unit.aggregateNames,
      ∃ a, catalog.aggregate? name = some a ∧ a.name = name ∧ a.scope = unit.name) ∧
    ((∃ outputs, run.files style = .ok outputs) ↔
      (∀ unit ∈ run.units, ∀ name ∈ unit.aggregateNames, ∀ a,
        catalog.aggregate? name = some a → a.members ≠ []) ∧
      ∀ unit ∈ run.units, ∀ v ∈ unit.dictionary.declared, ∀ w, catalog.Reaches v w →
        ¬ (w.type.isAggregate = true ∧ w.dimensions ≠ [])) ∧
    ∀ fault, run.files style = .error fault →
      run.HasEmptyType fault ∨ run.HasAggregateArray fault := by
  intro run catalog
  have hs : run.Sound := ((sound_start dycore settings).after requests).1
  refine ⟨?_, ?_, fun unit hu name hn => hs.aggregate?_of_listed hu hn, ?_,
    fun fault => hs.fault_of_files⟩
  · intro unit hu v hv
    obtain ⟨added, as, hset⟩ := hs.settled unit hu
    exact (hset.resolved v hv).lookup?_ref
  · intro entry he a ha v hv
    exact ((hs.built.of_mem he ha).2.members v hv).lookup?_ref
  · constructor
    · rintro ⟨outputs, hok⟩
      refine ⟨fun unit hu name hn a ha => ?_, fun unit hu => (hs.of_files hok hu).2⟩
      obtain ⟨b, hb, rfl, -⟩ := hs.aggregate?_of_listed hu hn
      obtain rfl : b = a := Option.some.inj (hb.symm.trans ha)
      exact (hs.of_files hok hu).1 b hn hb
    · rintro ⟨hmembers, hscalars⟩
      cases hfiles : run.files style with
      | ok outputs => exact ⟨outputs, rfl⟩
      | error fault =>
          rcases hs.fault_of_files hfiles with ⟨unit, hu, a, hn, hl, hm, -⟩ |
            ⟨unit, hu, v, hv, w, hr, harray, -⟩
          · exact absurd hm (hmembers unit hu a.name hn a hl)
          · exact absurd harray (hscalars unit hu v hv w hr)

/-- `Catalog.nestedRegistry` and a file with a type that has an array of the inner type as its member, and
a variable of that type. -/
def columnsRegistry : Node where
  tag := "registry"
  children := Catalog.nestedRegistry.children ++
    [{ tag := "file"
       attributes := [("name", "host_fields"), ("type", "module")]
       children :=
         [{ tag := "array"
            attributes := [("allocatable", "allocatable"), ("local_name", "columns"),
              ("standard_name", "columns_instance"), ("type", "Inner_State")]
            children := [{ tag := "dimensions", text := some "horizontal_dimension" }] },
          { tag := "variable"
            attributes := [("local_name", "chunk"), ("standard_name", "chunk_instance"),
              ("type", "chunk_state")] },
          { tag := "ddt"
            attributes := [("type", "chunk_state")]
            children := [{ tag := "data", text := some "columns_instance" }] }] }]

/-- The first file alone can be generated; the second one leads to an array of a derived type. -/
theorem columnsRegistry_fault :
    let first := (start "se" []).after [.compile Catalog.nestedRegistry]
    let both := (start "se" []).after [.compile columnsRegistry]
    let fault := Fault.unsupported "Arrays of DDT objects not implemented" "columns" "host_fields"
    (∃ outputs, first.files {} = .ok outputs) ∧
      (∀ unit ∈ first.units, ∀ v ∈ unit.dictionary.declared, ∀ w,
        first.context.catalog.Reaches v w → ¬ (w.type.isAggregate = true ∧ w.dimensions ≠ [])) ∧
      both.files {} = .error fault ∧ both.HasAggregateArray fault := by
  have hfirst : (((start "se" []).after [.compile Catalog.nestedRegistry]).files {}).toOption.any
      (fun _ => true) = true := by decide +kernel
  have hboth : (match ((start "se" []).after [.compile columnsRegistry]).files {} with
      | .error found =>
        decide (found = .unsupported "Arrays of DDT objects not implemented" "columns" "host_fields")
      | .ok _ => false) = true := by decide +kernel
  obtain ⟨-, -, -, hiff, -⟩ := generation_faults "se" [] [.compile Catalog.nestedRegistry] {}
  obtain ⟨-, -, -, -, hfault⟩ := generation_faults "se" [] [.compile columnsRegistry] {}
  -- the runs are only names from here on, so that nothing evaluates them again
  generalize (start "se" []).after [.compile Catalog.nestedRegistry] = first at hfirst hiff ⊢
  generalize (start "se" []).after [.compile columnsRegistry] = both at hboth hfault ⊢
  intro first' both' fault
  obtain ⟨outputs, hok, -⟩ := eq_ok_of_any hfirst
  have herror : both.files {} = .error fault := by
    cases hf : both.files {} with
    | error found => rw [hf] at hboth; rw [of_decide_eq_true hboth]
    | ok outputs => rw [hf] at hboth; cases hboth
  refine ⟨⟨outputs, hok⟩, (hiff.mp ⟨outputs, hok⟩).2, herror, ?_⟩
  rcases hfault fault herror with ⟨unit, -, a, -, -, -, hf⟩ | harray
  · exact absurd hf (by simp [fault])
  · exact harray

end Compilation

end FieldRegistry
