import FieldRegistry.Proofs.TypeGraph

/-!
# Generated files stay as they are

The text of a file depends on the catalog only through types that were known when the file was read, and
on the ranking only through the order of its own dimensions, which the files before it decide. So neither
sections that are read later nor files that are generated in between change it.
-/

namespace FieldRegistry

variable {catalog catalog' : Catalog} {unit : FileUnit} {units : List FileUnit}
  {added : List Variable} {as : List Aggregate} {style : Style}

/-! ## One unit in a larger catalog -/

namespace FileUnit.Settled

theorem aggregates_eq_ok (h : Settled catalog unit added as) : unit.aggregates catalog = .ok as :=
  h.progress.aggregates_eq_ok

theorem flatten_congr (hb : catalog.Built) (hp : catalog.Extended catalog')
    (h : Settled catalog unit added as) :
    as.flatMap catalog'.flatten = as.flatMap catalog.flatten :=
  List.flatMap_congr fun a ha =>
    hb.flatten_congr hp (Catalog.aggregate?_eq_some.mpr ⟨_, h.progress.known a ha, rfl⟩)

theorem metadata_congr (hp : catalog.Extended catalog') (h : Settled catalog unit added as) :
    Metadata.text unit catalog' = Metadata.text unit catalog := by
  rw [Metadata.text, Metadata.text, Metadata.tables, Metadata.tables, h.aggregates_eq_ok,
    (h.mono hp).aggregates_eq_ok]

theorem leaves_congr (hb : catalog.Built) (hp : catalog.Extended catalog')
    (h : Settled catalog unit added as) :
    AllocationRoutine.leaves unit catalog' = AllocationRoutine.leaves unit catalog := by
  have hleaves : ∀ v ∈ unit.dictionary.declared,
      catalog'.leaves unit.name v = catalog.leaves unit.name v :=
    fun v hv => hb.leavesAt_congr hp (h.resolved v hv)
  rw [AllocationRoutine.leaves, AllocationRoutine.leaves, mapM_congr_left hleaves]

theorem imports_congr (hb : catalog.Built) (hp : catalog.Extended catalog')
    (h : Settled catalog unit added as) : unit.imports catalog' = unit.imports catalog := by
  simp only [FileUnit.imports, h.aggregates_eq_ok, (h.mono hp).aggregates_eq_ok, bind, Except.bind,
    h.flatten_congr hb hp]

theorem nameTable_congr (hb : catalog.Built) (hp : catalog.Extended catalog')
    (h : Settled catalog unit added as) :
    (NameTable.build unit catalog').outcome = (NameTable.build unit catalog).outcome := by
  rw [NameTable.build, NameTable.build, Checked.outcome_bind, Checked.outcome_bind,
    Checked.outcome_ofExcept, Checked.outcome_ofExcept, h.aggregates_eq_ok,
    (h.mono hp).aggregates_eq_ok]
  dsimp only [bind, Except.bind]
  rw [NameTable.candidates, NameTable.candidates, h.flatten_congr hb hp]

theorem lines_congr (hb : catalog.Built) (hp : catalog.Extended catalog')
    (h : Settled catalog unit added as) (routine : AllocationRoutine) :
    (SourceModule.lines unit catalog' style routine).outcome =
      (SourceModule.lines unit catalog style routine).outcome := by
  simp only [SourceModule.lines, Checked.outcome_bind, Checked.outcome_ofExcept,
    h.imports_congr hb hp, h.aggregates_eq_ok, (h.mono hp).aggregates_eq_ok,
    h.nameTable_congr hb hp]

theorem render_congr (hb : catalog.Built) (hp : catalog.Extended catalog')
    (h : Settled catalog unit added as) (dimensions : List String) :
    Compilation.render style catalog' unit dimensions =
      Compilation.render style catalog unit dimensions := by
  simp only [Compilation.render, Compilation.source, h.metadata_congr hp, h.leaves_congr hb hp,
    h.lines_congr hb hp]

end FileUnit.Settled

namespace Compilation

variable {c c' d : Compilation} {ranking : Ranking} {root : Node}

/-! ## All units -/

theorem emit_congr (hb : catalog.Built) (hp : catalog.Extended catalog')
    (h : ∀ unit ∈ units, ∃ added as, FileUnit.Settled catalog unit added as) :
    emit style catalog' ranking units = emit style catalog ranking units := by
  induction units generalizing ranking with
  | nil => rfl
  | cons unit units ih =>
      obtain ⟨added, as, hset⟩ := h unit (by simp)
      rw [emit, emit, hset.render_congr hb hp, ih fun u hu => h u (by simp [hu])]

theorem emit_append (units more : List FileUnit) :
    emit style catalog ranking (units ++ more) =
      (emit style catalog ranking units).bind fun files =>
        (emit style catalog (ranking.enrolAll (unitDimensions units)) more).map (files ++ ·) := by
  induction units generalizing ranking with
  | nil =>
      have hnone : ranking.enrolAll (unitDimensions []) = ranking := rfl
      rw [List.nil_append, emit, hnone]
      cases emit style catalog ranking more <;> rfl
  | cons unit units ih =>
      rw [List.cons_append, emit, emit, ih, enrolAll_unitDimensions_cons]
      cases render style catalog unit (ranking.sort unit.dictionary.knownDimensions).1 with
      | error fault => rfl
      | ok files =>
          cases emit style catalog (ranking.enrolAll unit.dictionary.knownDimensions) units with
          | error fault => rfl
          | ok rest =>
              cases emit style catalog ((ranking.enrolAll unit.dictionary.knownDimensions).enrolAll
                (unitDimensions units)) more with
              | error fault => rfl
              | ok others => rfl

/-- A ranking that has met the first units already orders the dimensions of all units as it would have
done without. -/
theorem emit_enrolled {front : List FileUnit} (h : front <+: units) :
    emit style catalog (ranking.enrolAll (unitDimensions front)) units =
      emit style catalog ranking units := by
  induction units generalizing front ranking with
  | nil => rfl
  | cons unit units ih =>
      cases front with
      | nil => rfl
      | cons u front =>
          obtain ⟨rfl, hfront⟩ := List.cons_prefix_cons.mp h
          rw [enrolAll_unitDimensions_cons, emit, emit, Ranking.sort_enrolAll,
            Ranking.enrolAll_known, ih hfront]

theorem length_of_emit {files : List (List Output)}
    (h : emit style catalog ranking units = .ok files) :
    files.flatten.length = 2 * units.length := by
  induction units generalizing ranking files with
  | nil => cases h; rfl
  | cons unit units ih =>
      rw [emit] at h
      obtain ⟨first, hfirst, h⟩ := bind_eq_ok h
      obtain ⟨rest, hrest, h⟩ := bind_eq_ok h
      cases h
      have htwo : first.length = 2 := by
        obtain ⟨metadata, -, hfirst⟩ := bind_eq_ok hfirst
        obtain ⟨text, -, hfirst⟩ := bind_eq_ok hfirst
        cases hfirst
        rfl
      rw [List.flatten_cons, List.length_append, htwo, ih hrest, List.length_cons]
      omega

/-! ## States of a run -/

def files (style : Style) (c : Compilation) : Except Fault (List Output) :=
  ((generate style).outcome c).1

theorem Sound.files_eq (hs : c.Sound) :
    c.files style = (emit style c.context.catalog .initial c.units).map List.flatten := by
  obtain ⟨front, hfront, hranking⟩ := hs.ranked
  unfold files
  cases h : (generate style).outcome c with
  | mk result c' =>
      rw [(generate_cases h).1, hranking, emit_enrolled hfront]

/-- A fault stays, and files stay in front of those that come later. -/
def Kept (earlier later : Except Fault (List Output)) : Prop :=
  (∀ fault, earlier = .error fault → later = .error fault) ∧
    ∀ files files', earlier = .ok files → later = .ok files' → files <+: files'

theorem Sound.length_files (hs : c.Sound) {outputs : List Output} (h : c.files style = .ok outputs) :
    outputs.length = 2 * c.units.length := by
  rw [hs.files_eq] at h
  obtain ⟨parts, hparts, rfl⟩ := map_eq_ok h
  exact length_of_emit hparts

theorem Sound.kept (hs : c.Sound) (hs' : c'.Sound) (hl : c.Later c') :
    Kept (c.files style) (c'.files style) := by
  obtain ⟨more, hmore⟩ := hl.units
  rw [hs.files_eq, hs'.files_eq, ← hmore, emit_append,
    emit_congr hs.built hl.catalog.extended hs.settled]
  cases emit style c.context.catalog .initial c.units with
  | error fault =>
      refine ⟨fun _ h => h, ?_⟩
      intro files files' h
      cases h
  | ok parts =>
      refine ⟨by rintro fault ⟨⟩, ?_⟩
      intro files files' h h'
      cases h
      obtain ⟨all, hall, rfl⟩ := map_eq_ok h'
      obtain ⟨others, -, rfl⟩ := map_eq_ok hall
      rw [List.flatten_append]
      exact List.prefix_append ..

/-! ## Generating in between -/

/-- States that differ in their rankings and settings only. -/
structure Agrees (c d : Compilation) : Prop where
  catalog : c.context.catalog = d.context.catalog
  dycore : c.context.dycore = d.context.dycore
  units : c.units = d.units

theorem Agrees.refl (c : Compilation) : c.Agrees c := ⟨rfl, rfl, rfl⟩

theorem Agrees.compileSection (h : c.Agrees d) (node : Node) :
    ((compileSection node).outcome c).1 = ((compileSection node).outcome d).1 ∧
      ((compileSection node).outcome c).2.Agrees ((compileSection node).outcome d).2 := by
  cases hc : (Compilation.compileSection node).outcome c with
  | mk result c' =>
  cases hd : (Compilation.compileSection node).outcome d with
  | mk result' d' =>
      rcases compileSection_cases hc with ⟨ht, rfl, rfl⟩ | ⟨read, catalog, ht, hread, hcases⟩
      · rcases compileSection_cases hd with ⟨-, rfl, rfl⟩ | ⟨-, -, ht', -⟩
        · exact ⟨rfl, h⟩
        · exact absurd ht' ht
      · rcases compileSection_cases hd with ⟨ht', -⟩ | ⟨read', catalog', -, hread', hcases'⟩
        · exact absurd ht ht'
        · rw [h.catalog, h.dycore, hread'] at hread
          cases hread
          rcases hcases with ⟨fault, rfl, rfl, rfl⟩ | ⟨unit, rfl, rfl, rfl⟩
          · rcases hcases' with ⟨_, hf, rfl, rfl⟩ | ⟨_, hf, -⟩
            · cases hf
              exact ⟨rfl, rfl, h.dycore, h.units⟩
            · cases hf
          · rcases hcases' with ⟨_, hf, -⟩ | ⟨_, hf, rfl, rfl⟩
            · cases hf
            · cases hf
              exact ⟨rfl, rfl, h.dycore, by rw [h.units]⟩

theorem Agrees.sections (h : c.Agrees d) (nodes : List Node) :
    (Action.outcome (nodes.forM Compilation.compileSection) c).2.Agrees
      (Action.outcome (nodes.forM Compilation.compileSection) d).2 := by
  induction nodes generalizing c d with
  | nil => exact h
  | cons node nodes ih =>
      obtain ⟨hresult, hstate⟩ := h.compileSection node
      rw [List.forM_eq_forM, List.forM_cons, Action.outcome_bind, Action.outcome_bind]
      cases hc : (Compilation.compileSection node).outcome c with
      | mk result c' =>
      cases hd : (Compilation.compileSection node).outcome d with
      | mk result' d' =>
          rw [hc, hd] at hresult hstate
          cases hresult
          cases result with
          | error fault => exact hstate
          | ok done => exact ih hstate

theorem Agrees.generate (h : c.Agrees d) (style : Style) : (c.perform (.generate style)).Agrees d := by
  cases hc : (Compilation.generate style).outcome c with
  | mk result c' =>
      obtain ⟨-, reached, -, rfl⟩ := generate_cases hc
      rw [Compilation.perform, hc]
      exact ⟨h.catalog, h.dycore, h.units⟩

theorem Agrees.after (h : c.Agrees d) (requests : List Request) :
    (c.after requests).Agrees (d.after (requests.filter Request.isCompile)) := by
  induction requests generalizing c d with
  | nil => exact h
  | cons request requests ih =>
      cases request with
      | compile root =>
          rw [List.filter_cons_of_pos (by rfl)]
          exact ih (h.sections root.children)
      | generate style =>
          rw [List.filter_cons_of_neg (by simp [Request.isCompile])]
          exact ih (h.generate style)

/-! ## Longer registries -/

theorem length_of_sections {nodes : List Node}
    (h : Action.outcome (nodes.forM compileSection) c = (.ok (), c')) :
    c'.units.length = c.units.length + nodes.length := by
  induction nodes generalizing c with
  | nil => cases h; rfl
  | cons node nodes ih =>
      rw [List.forM_eq_forM, List.forM_cons] at h
      obtain ⟨done, c₁, h₁, h⟩ := Action.outcome_bind_eq_ok h
      have hlen := ih h
      rcases compileSection_cases h₁ with ⟨-, hf, -⟩ |
        ⟨read, catalog, -, -, ⟨fault, -, hf, -⟩ | ⟨unit, -, -, rfl⟩⟩
      · cases hf
      · cases hf
      · rw [hlen, List.length_append, List.length_singleton, List.length_cons]
        omega

theorem compile_of_append {root' : Node} {later : List Node}
    (hchildren : root'.children = root.children ++ later)
    (h : (compile root).outcome c = (.ok (), c')) :
    (compile root').outcome c = Action.outcome (later.forM compileSection) c' := by
  have h : Action.outcome (forM root.children compileSection) c = (.ok (), c') := h
  rw [compile, hchildren, List.forM_eq_forM, List.forM_append, Action.outcome_bind_of_ok h]

/-- Sections that come later leave the units of a registry and their files as they are, even if they
cannot be read. On one compilation, files that were generated once stay in front of what is generated
later, and generating in between has no effect on them. -/
theorem generated_files_kept (dycore : String) (settings : Settings) (style : Style) :
    (∀ root root' later c result c', root'.children = root.children ++ later →
      (compile root).outcome (.start dycore settings) = (.ok (), c) →
      (compile root').outcome (.start dycore settings) = (result, c') →
        c.units.length = root.children.length ∧
        c'.units.take root.children.length = c.units ∧
        (∀ fault, c.files style = .error fault → c'.files style = .error fault) ∧
        ∀ outputs, c.files style = .ok outputs →
          outputs.length = 2 * root.children.length ∧
          ∀ outputs', c'.files style = .ok outputs' →
            outputs'.take (2 * root.children.length) = outputs) ∧
    (∀ before more, Kept (((start dycore settings).after before).files style)
      (((start dycore settings).after (before ++ more)).files style)) ∧
    ∀ requests, ((start dycore settings).after requests).files style =
      ((start dycore settings).after (requests.filter Request.isCompile)).files style := by
  have hstart := sound_start dycore settings
  refine ⟨?_, ?_, ?_⟩
  · intro root root' later c result c' hchildren h h'
    have hs := (hstart.compile h).1
    have hlen : c.units.length = root.children.length := by
      rw [length_of_sections h, start, List.length_nil, Nat.zero_add]
    obtain ⟨hs', hl⟩ := hs.sections later
    rw [← compile_of_append hchildren h, h'] at hs' hl
    obtain ⟨hfault, hfiles⟩ := hs.kept hs' hl
    refine ⟨hlen, ?_, hfault, ?_⟩
    · rw [← hlen]
      exact (List.prefix_iff_eq_take.mp hl.units).symm
    · intro outputs ho
      have hcount : outputs.length = 2 * root.children.length := by rw [hs.length_files ho, hlen]
      refine ⟨hcount, fun outputs' ho' => ?_⟩
      rw [← hcount]
      exact (List.prefix_iff_eq_take.mp (hfiles outputs outputs' ho ho')).symm
  · intro before more
    rw [after_append]
    have hs := (hstart.after before).1
    obtain ⟨hs', hl⟩ := hs.after more
    exact hs.kept hs' hl
  · intro requests
    have hs := (hstart.after requests).1
    have hs' := (hstart.after (requests.filter Request.isCompile)).1
    have hagree := (Agrees.refl (start dycore settings)).after requests
    rw [hs.files_eq, hs'.files_eq, hagree.catalog, hagree.units]

/-- `Catalog.nestedRegistry` with a second file that has a variable of the outer type. -/
def longerRegistry : Node where
  tag := "registry"
  children := Catalog.nestedRegistry.children ++
    [{ tag := "file"
       attributes := [("name", "host_fields"), ("type", "module")]
       children :=
         [{ tag := "variable"
            attributes := [("local_name", "state"), ("standard_name", "state_instance"),
              ("type", "Outer_State")] }] }]

theorem longerRegistry_kept : ∃ c c' outputs outputs',
    (compile Catalog.nestedRegistry).outcome (.start "se" []) = (.ok (), c) ∧
      (compile longerRegistry).outcome (.start "se" []) = (.ok (), c') ∧
      c'.units.length = 2 ∧ c'.units.take 1 = c.units ∧
      c.files {} = .ok outputs ∧ c'.files {} = .ok outputs' ∧
      outputs.length = 2 ∧ outputs'.take 2 = outputs := by
  have hruns : ∀ root ∈ [Catalog.nestedRegistry, longerRegistry],
      ((compile root).outcome (.start "se" [])).1.toOption.any (fun _ => true) = true ∧
        ((generate {}).outcome
          ((compile root).outcome (.start "se" [])).2).1.toOption.any (fun _ => true) = true := by
    decide +kernel
  obtain ⟨hok, hgen⟩ := hruns Catalog.nestedRegistry (by simp)
  obtain ⟨hok', hgen'⟩ := hruns longerRegistry (by simp)
  obtain ⟨done, hc, -⟩ := Action.outcome_eq_ok_of_any hok
  obtain ⟨done', hc', -⟩ := Action.outcome_eq_ok_of_any hok'
  obtain ⟨outputs, ho, -⟩ := Action.outcome_eq_ok_of_any hgen
  obtain ⟨outputs', ho', -⟩ := Action.outcome_eq_ok_of_any hgen'
  obtain ⟨-, hunits, -, hfiles⟩ := (generated_files_kept "se" [] {}).1 Catalog.nestedRegistry
    longerRegistry _ _ _ _ rfl hc hc'
  obtain ⟨hlen, htake⟩ := hfiles outputs (congrArg Prod.fst ho)
  exact ⟨_, _, outputs, outputs', hc, hc', length_of_sections hc', hunits, congrArg Prod.fst ho,
    congrArg Prod.fst ho', hlen, htake outputs' (congrArg Prod.fst ho')⟩

end Compilation

end FieldRegistry
