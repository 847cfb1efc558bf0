import FieldRegistry.Proofs.Extents
import FieldRegistry.Proofs.GenerationFaults

/-!
# Types that a module mentions and types that it imports

A module mentions the types of its variables, of the members of its derived types, and the types that
these extend. It imports the types of its variables and of all members, inherited ones included, except
those whose scope has its own name, and what the registry asks for. So a type from another file that is
only extended is not imported, nor is a type from another file of the same name.
-/

namespace FieldRegistry

open Layout (Import)

/-! ## Every derived type belongs to a file -/

namespace FileUnit

variable {dycore : String} {catalog catalog' : Catalog} {d d' : Dictionary} {node : Node}
  {deferred : List Node} {names names' : List String} {unit : FileUnit}

/-- All that is new in a catalog are types with the names `more` and the scope `scope`. -/
def Defines (scope : String) (more : List String) (catalog catalog' : Catalog) : Prop :=
  ∀ entry ∈ catalog'.entries, entry ∈ catalog.entries ∨ (entry.name ∈ more ∧ entry.scope = some scope)

theorem defines_defineAggregate
    (h : (defineAggregate dycore deferred (d, names) node).outcome catalog =
      (.ok (d', names'), catalog')) :
    ∃ name, names' = names ++ [name] ∧ d'.name = d.name ∧ Defines d.name [name] catalog catalog' := by
  rcases defineAggregate_cases h with ⟨fault, h, -⟩ | ⟨a, d₁, ho, hreg, h⟩
  · cases h
  obtain ⟨d₂, hd₂, hpair⟩ := map_eq_ok h.symm
  cases hpair
  obtain ⟨-, hscope, -, hmoves⟩ := Aggregate.ofNode_eq_ok ho
  refine ⟨a.name, rfl, (addVariables_name hd₂).trans hmoves.name_eq, ?_⟩
  intro entry he
  rw [(Catalog.register_eq_ok hreg).2, List.mem_append, List.mem_singleton] at he
  rcases he with he | rfl
  · exact Or.inl he
  · exact Or.inr ⟨by simp, by rw [hscope]⟩

theorem defines_defineAggregates {definitions : List Node}
    (h : Action.outcome (definitions.foldlM (defineAggregate dycore deferred) (d, names)) catalog =
      (.ok (d', names'), catalog')) :
    ∃ more, names' = names ++ more ∧ Defines d.name more catalog catalog' := by
  induction definitions generalizing catalog d names with
  | nil => cases h; exact ⟨[], by simp, fun entry he => Or.inl he⟩
  | cons node definitions ih =>
      rw [List.foldlM_cons] at h
      obtain ⟨⟨d₁, names₁⟩, catalog₁, h₁, h⟩ := Action.outcome_bind_eq_ok h
      obtain ⟨name, rfl, hd₁, hfirst⟩ := defines_defineAggregate h₁
      obtain ⟨more, rfl, hrest⟩ := ih h
      rw [hd₁] at hrest
      refine ⟨name :: more, by simp, fun entry he => ?_⟩
      rcases hrest entry he with he | ⟨hn, hscope⟩
      · rcases hfirst entry he with he | ⟨hn, hscope⟩
        · exact Or.inl he
        · exact Or.inr ⟨List.mem_cons.mpr (Or.inl (List.mem_singleton.mp hn)), hscope⟩
      · exact Or.inr ⟨List.mem_cons_of_mem _ hn, hscope⟩

theorem defines_ofNode (h : (FileUnit.ofNode dycore node).outcome catalog = (.ok unit, catalog')) :
    Defines unit.name unit.aggregateNames catalog catalog' := by
  rcases ofNode_cases h with ⟨fault, h, -⟩ | ⟨items, survey, progress, -, hsurvey, hdefine, h⟩
  · cases h
  obtain ⟨⟨d, names⟩, rfl, rfl⟩ := map_eq_ok h.symm
  have hempty : Resolved catalog (.empty (node.get "name") (node.get "type")) := by
    intro v hv
    cases hv
  obtain ⟨-, -, -, -, -, -, -, -, -, hname⟩ := survey_eq_ok (.empty _ _) hempty hsurvey
  obtain ⟨more, rfl, hdefines⟩ := defines_defineAggregates hdefine
  rw [hname] at hdefines
  exact hdefines

end FileUnit

namespace Compilation

variable {c c' : Compilation} {node root : Node}

/-- Every type that is not intrinsic is one of a unit, whose name is its scope. -/
def Listed (c : Compilation) : Prop :=
  ∀ entry ∈ c.context.catalog.entries, ∀ home, entry.scope = some home →
    ∃ unit ∈ c.units, unit.name = home ∧ entry.name ∈ unit.aggregateNames

theorem listed_start (dycore : String) (settings : Settings) : (start dycore settings).Listed := by
  intro entry he home hh
  obtain ⟨name, -, rfl⟩ := List.mem_map.mp he
  cases hh

theorem Listed.compileSection (hl : c.Listed)
    (h : (compileSection node).outcome c = (.ok (), c')) : c'.Listed := by
  rcases compileSection_cases h with ⟨-, hf, -⟩ |
    ⟨read, catalog, -, hread, ⟨fault, -, hf, -⟩ | ⟨unit, rfl, -, rfl⟩⟩
  · cases hf
  · cases hf
  · intro entry he home hh
    rcases FileUnit.defines_ofNode hread entry he with he | ⟨hn, hscope⟩
    · obtain ⟨u, hu, hrest⟩ := hl entry he home hh
      exact ⟨u, List.mem_append_left _ hu, hrest⟩
    · rw [hscope] at hh
      exact ⟨unit, by simp, Option.some.inj hh, hn⟩

theorem Listed.sections {nodes : List Node} (hl : c.Listed)
    (h : Action.outcome (nodes.forM Compilation.compileSection) c = (.ok (), c')) : c'.Listed := by
  -- all sections must be read: the types of a file that cannot be read stay in the catalog
  induction nodes generalizing c with
  | nil => cases h; exact hl
  | cons node nodes ih =>
      rw [List.forM_eq_forM, List.forM_cons] at h
      obtain ⟨done, c₁, h₁, h⟩ := Action.outcome_bind_eq_ok h
      exact ih (hl.compileSection h₁) h

end Compilation

/-! ## Mentioned and imported types -/

namespace FileUnit

variable {catalog : Catalog} {unit : FileUnit} {added : List Variable} {own : List Aggregate}
  {imports : List Import} {i : Import} {v : Variable}

/-- The type of a variable as an import, none for intrinsic types. -/
def typeImport? (v : Variable) : Option Import := v.type.home.map fun home => ⟨home, v.type.name⟩

/-- The type that a derived type extends, as an import. -/
def parentImport? (catalog : Catalog) (a : Aggregate) : Option Import :=
  a.parent.bind fun p => (catalog.lookup? p).bind fun entry => entry.scope.map fun home => ⟨home, p⟩

/-- The types that the module of a unit with the derived types `own` mentions, each with the scope that
defines it. -/
def mentions (unit : FileUnit) (catalog : Catalog) (own : List Aggregate) : List Import :=
  (unit.ownVariables own).filterMap typeImport? ++ own.filterMap (parentImport? catalog)

/-- A type is defined in the module of a unit or imported from the scope that defines it. -/
def Available (unit : FileUnit) (imports : List Import) (i : Import) : Prop :=
  i.symbol ∈ unit.aggregateNames ∨ i ∈ imports

/-- The variables whose types a module imports. -/
def importedVariables (unit : FileUnit) (catalog : Catalog) (own : List Aggregate) : List Variable :=
  unit.dictionary.declared ++ own.flatMap catalog.flatten

instance : Decidable (unit.Available imports i) := inferInstanceAs (Decidable (_ ∨ _))

theorem typeImport?_eq_some :
    typeImport? v = some i ↔ v.type.home = some i.origin ∧ v.type.name = i.symbol := by
  obtain ⟨origin, symbol⟩ := i
  simp [typeImport?]

theorem importOf?_eq_some :
    unit.importOf? v = some i ↔ typeImport? v = some i ∧ Text.lower i.origin ≠ Text.lower unit.name := by
  rw [importOf?, typeImport?, Option.bind_eq_some_iff, Option.map_eq_some_iff]
  constructor
  · rintro ⟨home, hh, hi⟩
    split at hi
    · cases hi
    · rename_i hs
      cases hi
      exact ⟨⟨home, hh, rfl⟩, fun he => hs (sameLetters_iff.mpr he)⟩
  · rintro ⟨⟨home, hh, rfl⟩, hne⟩
    exact ⟨home, hh, if_neg fun hs => hne (sameLetters_iff.mp hs)⟩

namespace Settled

theorem mem_imports (h : Settled catalog unit added own) (hi : unit.imports catalog = .ok imports) :
    i ∈ imports ↔ i ∈ unit.uses ∨ (Text.lower i.origin ≠ Text.lower unit.name ∧
      ∃ v ∈ unit.importedVariables catalog own, typeImport? v = some i) := by
  rw [h.imports_eq_ok] at hi
  cases hi
  rw [← List.filterMap_append, ← importedVariables, List.mem_append, List.mem_filterMap]
  simp only [importOf?_eq_some]
  constructor
  · rintro (⟨v, hv, ht, hne⟩ | hu)
    · exact Or.inr ⟨hne, v, hv, ht⟩
    · exact Or.inl hu
  · rintro (hu | ⟨hne, v, hv, ht⟩)
    · exact Or.inr hu
    · exact Or.inl ⟨v, hv, ht, hne⟩

theorem mem_importedVariables (hb : catalog.Built) (h : Settled catalog unit added own)
    (hv : v ∈ unit.ownVariables own) : v ∈ unit.importedVariables catalog own := by
  rcases List.mem_append.mp hv with hv | hv
  · exact List.mem_append_left _ hv
  · obtain ⟨a, ha, hv⟩ := List.mem_flatMap.mp hv
    refine List.mem_append_right _ (List.mem_flatMap.mpr ⟨a, ha, ?_⟩)
    -- own members come first in a flattened type
    rw [hb.flatten_eq (h.mem_aggregateNames.mp ha).2]
    exact List.mem_append_left _ hv

theorem entry_of_imported (hb : catalog.Built) (h : Settled catalog unit added own)
    (hv : v ∈ unit.importedVariables catalog own) :
    ∃ entry, catalog.lookup? v.type.name = some entry ∧ entry.name = v.type.name ∧
      entry.scope = v.type.home := by
  have hr : catalog.Resolves v.type := by
    rcases List.mem_append.mp hv with hv | hv
    · exact h.resolved v hv
    · obtain ⟨a, ha, hv⟩ := List.mem_flatMap.mp hv
      exact hb.resolves_of_mem_flatten (h.mem_aggregateNames.mp ha).2 hv
  obtain ⟨entry, he, hr⟩ := hr
  exact ⟨entry, he, by rw [← hr]; rfl, by rw [← hr]; rfl⟩

theorem entry_of_parent (hb : catalog.Built) (h : Settled catalog unit added own) {a : Aggregate}
    {p : String} (ha : a ∈ own) (hp : a.parent = some p) :
    ∃ entry home, catalog.lookup? p = some entry ∧ entry.name = p ∧ entry.scope = some home ∧
      parentImport? catalog a = some ⟨home, p⟩ := by
  obtain ⟨-, hk⟩ := hb.of_aggregate? (h.mem_aggregateNames.mp ha).2
  obtain ⟨b, hparent, hname⟩ := hk.parent p hp
  have he := (hb.of_aggregate? hparent).1
  exact ⟨_, b.scope, he, hname, rfl, by rw [parentImport?, hp, Option.bind_some, he]; rfl⟩

/-- A mention names a type as the catalog does, with the scope that the catalog has for it. -/
theorem entry_of_mention (hb : catalog.Built) (h : Settled catalog unit added own)
    (hi : i ∈ unit.mentions catalog own) :
    ∃ entry, catalog.lookup? i.symbol = some entry ∧ entry.name = i.symbol ∧
      entry.scope = some i.origin := by
  rcases List.mem_append.mp hi with hi | hi
  · obtain ⟨v, hv, ht⟩ := List.mem_filterMap.mp hi
    obtain ⟨hhome, hname⟩ := typeImport?_eq_some.mp ht
    obtain ⟨entry, he, hn, hs⟩ := h.entry_of_imported hb (h.mem_importedVariables hb hv)
    exact ⟨entry, hname ▸ he, hn.trans hname, hs.trans hhome⟩
  · obtain ⟨a, ha, hi⟩ := List.mem_filterMap.mp hi
    obtain ⟨p, hp, -⟩ := Option.bind_eq_some_iff.mp hi
    obtain ⟨entry, home, he, hn, hs, hi'⟩ := h.entry_of_parent hb ha hp
    rw [hi] at hi'
    cases hi'
    exact ⟨entry, he, hn, hs⟩

/-- A mentioned type is available if and only if the unit defines it, the registry asks for it, or it
comes from a scope of another name and some variable or member has it. -/
theorem available_iff (hb : catalog.Built) (h : Settled catalog unit added own)
    (hi : unit.imports catalog = .ok imports) (hm : i ∈ unit.mentions catalog own) :
    unit.Available imports i ↔ i.symbol ∈ unit.aggregateNames ∨ i ∈ unit.uses ∨
      (Text.lower i.origin ≠ Text.lower unit.name ∧
        ∃ v ∈ unit.importedVariables catalog own, v.type.name = i.symbol) := by
  rw [Available, h.mem_imports hi]
  refine or_congr_right (or_congr_right (and_congr_right fun _ => ?_))
  constructor
  · rintro ⟨v, hv, ht⟩
    exact ⟨v, hv, (typeImport?_eq_some.mp ht).2⟩
  · rintro ⟨v, hv, hn⟩
    -- one name, so one entry: the variable keeps the scope that is mentioned
    obtain ⟨entry, he, -, hs⟩ := h.entry_of_mention hb hm
    obtain ⟨entry', he', -, hs'⟩ := h.entry_of_imported hb hv
    rw [hn, he] at he'
    cases he'
    exact ⟨v, hv, typeImport?_eq_some.mpr ⟨hs'.symm.trans hs, hn⟩⟩

end Settled

end FileUnit

namespace Compilation

variable {c : Compilation} {unit : FileUnit} {added : List Variable} {own : List Aggregate}
  {imports : List Import}

/-- No other unit has the name of this one, in any letter case. -/
def Alone (c : Compilation) (unit : FileUnit) : Prop :=
  ∀ other ∈ c.units, Text.lower other.name = Text.lower unit.name → other = unit

instance : Decidable (c.Alone unit) := inferInstanceAs (Decidable (∀ _ ∈ _, _))

/-- A mentioned type from a scope of the unit's own name is one of the unit's own types. -/
theorem Alone.defines (halone : c.Alone unit) (hs : c.Sound) (hl : c.Listed)
    (h : unit.Settled c.context.catalog added own) {i : Import}
    (hi : i ∈ unit.mentions c.context.catalog own)
    (hsame : Text.lower i.origin = Text.lower unit.name) : i.symbol ∈ unit.aggregateNames := by
  obtain ⟨entry, he, hn, hscope⟩ := h.entry_of_mention hs.built hi
  obtain ⟨u, hu, hname, hlisted⟩ := hl entry (Catalog.mem_of_lookup? he) i.origin hscope
  rw [halone u hu (by rw [hname, hsame]), hn] at hlisted
  exact hlisted

/-- Every type that a derived type of the unit extends is one of the unit, one that the registry asks for
or the type of some variable or member. -/
def ParentsAvailable (c : Compilation) (unit : FileUnit) (own : List Aggregate) : Prop :=
  ∀ i ∈ own.filterMap (FileUnit.parentImport? c.context.catalog),
    i.symbol ∈ unit.aggregateNames ∨ i ∈ unit.uses ∨
      ∃ v ∈ unit.importedVariables c.context.catalog own, v.type.name = i.symbol

instance : Decidable (c.ParentsAvailable unit own) := inferInstanceAs (Decidable (∀ _ ∈ _, _))

theorem Alone.available_of_variable (halone : c.Alone unit) (hs : c.Sound) (hl : c.Listed)
    (h : unit.Settled c.context.catalog added own)
    (himports : unit.imports c.context.catalog = .ok imports) {v : Variable} {i : Import}
    (hv : v ∈ unit.ownVariables own) (hi : FileUnit.typeImport? v = some i) :
    unit.Available imports i := by
  have hm : i ∈ unit.mentions c.context.catalog own :=
    List.mem_append_left _ (List.mem_filterMap.mpr ⟨v, hv, hi⟩)
  rw [h.available_iff hs.built himports hm]
  by_cases hsame : Text.lower i.origin = Text.lower unit.name
  · exact Or.inl (halone.defines hs hl h hm hsame)
  · exact Or.inr (Or.inr ⟨hsame, v, h.mem_importedVariables hs.built hv,
      (FileUnit.typeImport?_eq_some.mp hi).2⟩)

theorem Alone.available_iff (halone : c.Alone unit) (hs : c.Sound) (hl : c.Listed)
    (h : unit.Settled c.context.catalog added own)
    (himports : unit.imports c.context.catalog = .ok imports) :
    (∀ i ∈ unit.mentions c.context.catalog own, unit.Available imports i) ↔
      c.ParentsAvailable unit own := by
  constructor
  · intro hall i hi
    have hm : i ∈ unit.mentions c.context.catalog own := List.mem_append_right _ hi
    rcases (h.available_iff hs.built himports hm).mp (hall i hm) with hown | hused | ⟨-, hv⟩
    · exact Or.inl hown
    · exact Or.inr (Or.inl hused)
    · exact Or.inr (Or.inr hv)
  · intro hparents i hm
    rcases List.mem_append.mp hm with hi | hi
    · obtain ⟨v, hv, ht⟩ := List.mem_filterMap.mp hi
      exact halone.available_of_variable hs hl h himports hv ht
    · rw [h.available_iff hs.built himports hm]
      rcases hparents i hi with hown | hused | hv
      · exact Or.inl hown
      · exact Or.inr (Or.inl hused)
      · by_cases hsame : Text.lower i.origin = Text.lower unit.name
        · exact Or.inl (halone.defines hs hl h hm hsame)
        · exact Or.inr (Or.inr ⟨hsame, hv⟩)

/-- After a registry is read, each type that the module of a unit mentions is available in it if the
unit defines it, the registry asks for it, or it is the type of some variable or member and its scope has
another name. In a unit whose name no other unit has, the types of variables and members are therefore
available, and all that can be missing is a type that is extended. -/
theorem mentioned_types_available_iff (root : Node) (dycore : String) (settings : Settings)
    (run : Compilation) (h : (compile root).outcome (start dycore settings) = (.ok (), run)) :
    let catalog := run.context.catalog
    ∀ unit ∈ run.units, ∃ own imports,
      unit.aggregates catalog = .ok own ∧ unit.imports catalog = .ok imports ∧
      (∀ a ∈ own, ∀ p, a.parent = some p → ∃ home, ⟨home, p⟩ ∈ unit.mentions catalog own) ∧
      (∀ i ∈ unit.mentions catalog own,
        (catalog.lookup? i.symbol).bind (·.scope) = some i.origin ∧
        (unit.Available imports i ↔ i.symbol ∈ unit.aggregateNames ∨ i ∈ unit.uses ∨
          (Text.lower i.origin ≠ Text.lower unit.name ∧
            ∃ v ∈ unit.importedVariables catalog own, v.type.name = i.symbol))) ∧
      (run.Alone unit →
        (∀ v ∈ unit.ownVariables own, ∀ i, FileUnit.typeImport? v = some i →
          unit.Available imports i) ∧
        ((∀ i ∈ unit.mentions catalog own, unit.Available imports i) ↔
          run.ParentsAvailable unit own)) := by
  intro catalog unit hu
  obtain ⟨hs, -⟩ := (sound_start dycore settings).compile h
  have hl : run.Listed := (listed_start dycore settings).sections h
  obtain ⟨added, own, hset⟩ := hs.settled unit hu
  refine ⟨own, _, hset.aggregates_eq_ok, hset.imports_eq_ok, ?_, ?_, fun halone => ⟨?_, ?_⟩⟩
  · intro a ha p hp
    obtain ⟨-, home, -, -, -, hi⟩ := hset.entry_of_parent hs.built ha hp
    exact ⟨home, List.mem_append_right _ (List.mem_filterMap.mpr ⟨a, ha, hi⟩)⟩
  · intro i hi
    obtain ⟨entry, he, -, hscope⟩ := hset.entry_of_mention hs.built hi
    exact ⟨by rw [he, Option.bind_some, hscope], hset.available_iff hs.built hset.imports_eq_ok hi⟩
  · intro v hv i hi
    exact halone.available_of_variable hs hl hset hset.imports_eq_ok hv hi
  · exact halone.available_iff hs hl hset hset.imports_eq_ok

/-! ## A type that is only extended -/

def baseFile : Node where
  tag := "file"
  attributes := [("name", "base_types"), ("type", "module")]
  children :=
    [{ tag := "variable"
       attributes := [("local_name", "t"), ("standard_name", "air_temperature"), ("type", "real")] },
     { tag := "ddt"
       attributes := [("type", "base_state")]
       children := [{ tag := "data", text := some "air_temperature" }] }]

/-- A file with a type, and a file that extends it and asks for the imports `uses`. -/
def extendedRegistry (uses : List Node) : Node where
  tag := "registry"
  children :=
    [baseFile,
     { tag := "file"
       attributes := [("name", "physics_types"), ("type", "module")]
       children := uses ++
         [{ tag := "variable"
            attributes := [("local_name", "q"), ("standard_name", "specific_humidity"),
              ("type", "real")] },
          { tag := "ddt"
            attributes := [("type", "physics_state"), ("extends", "base_state")]
            children := [{ tag := "data", text := some "specific_humidity" }] }] }]

/-- A file with a type, and a file of the same name in capitals with a variable of that type. -/
def namesakeRegistry : Node where
  tag := "registry"
  children :=
    [baseFile,
     { tag := "file"
       attributes := [("name", "BASE_TYPES"), ("type", "module")]
       children :=
         [{ tag := "variable"
            attributes := [("local_name", "state"), ("standard_name", "base_state_instance"),
              ("type", "base_state")] }] }]

/-- A registry can be read and gives files, and has a module that mentions `base_state` and neither
defines nor imports it. -/
def LacksBaseState (root : Node) : Prop :=
  ∃ run, (compile root).outcome (start "se" []) = (.ok (), run) ∧
    (∃ outputs, run.files {} = .ok outputs) ∧
    ∃ unit ∈ run.units, ∃ own imports,
      unit.aggregates run.context.catalog = .ok own ∧
      unit.imports run.context.catalog = .ok imports ∧
      ⟨"base_types", "base_state"⟩ ∈ unit.mentions run.context.catalog own ∧
      ¬ unit.Available imports ⟨"base_types", "base_state"⟩

theorem base_state_missing :
    LacksBaseState (extendedRegistry []) ∧ LacksBaseState namesakeRegistry := by
  suffices h : ∀ root ∈ [extendedRegistry [], namesakeRegistry], LacksBaseState root from
    ⟨h _ List.mem_cons_self, h _ (List.mem_cons_of_mem _ List.mem_cons_self)⟩
  intro root hroot
  have hok : ((compile root).outcome (start "se" [])).1.toOption.any (fun _ => true) = true := by
    revert root
    decide +kernel
  have hmissing :
      let run := ((compile root).outcome (start "se" [])).2
      (run.files {}).toOption.any (fun _ => true) = true ∧
      ∃ unit ∈ run.units, (unit.aggregates run.context.catalog).toOption.any (fun own =>
        (unit.imports run.context.catalog).toOption.any fun imports =>
          ⟨"base_types", "base_state"⟩ ∈ unit.mentions run.context.catalog own ∧
            ¬ unit.Available imports ⟨"base_types", "base_state"⟩) = true := by
    revert root
    decide +kernel
  obtain ⟨done, hrun, -⟩ := Action.outcome_eq_ok_of_any hok
  -- the run is only a name from here on, so that nothing evaluates it again
  generalize ((compile root).outcome (start "se" [])).2 = run at hrun hmissing
  obtain ⟨hfiles, unit, hu, hmissing⟩ := hmissing
  obtain ⟨outputs, houtputs, -⟩ := eq_ok_of_any hfiles
  obtain ⟨own, hown, hmissing⟩ := eq_ok_of_any hmissing
  obtain ⟨imports, himports, hmissing⟩ := eq_ok_of_any hmissing
  exact ⟨run, hrun, ⟨outputs, houtputs⟩, unit, hu, own, imports, hown, himports,
    of_decide_eq_true hmissing⟩

def baseUse : Node where
  tag := "use"
  attributes := [("module", "base_types"), ("reference", "base_state")]

/-- With an import that the registry asks for, the extended type is available too. -/
theorem extendedRegistry_available : ∃ run,
    (compile (extendedRegistry [baseUse])).outcome (start "se" []) = (.ok (), run) ∧
    ∃ unit ∈ run.units, run.Alone unit ∧ ∃ own imports,
      unit.aggregates run.context.catalog = .ok own ∧
      unit.imports run.context.catalog = .ok imports ∧
      ⟨"base_types", "base_state"⟩ ∈ unit.mentions run.context.catalog own ∧
      ∀ i ∈ unit.mentions run.context.catalog own, unit.Available imports i := by
  have hok : ((compile (extendedRegistry [baseUse])).outcome (start "se" [])).1.toOption.any
      (fun _ => true) = true := by decide +kernel
  have hunit :
      let run := ((compile (extendedRegistry [baseUse])).outcome (start "se" [])).2
      ∃ unit ∈ run.units, run.Alone unit ∧
        (unit.aggregates run.context.catalog).toOption.any (fun own =>
          ⟨"base_types", "base_state"⟩ ∈ unit.mentions run.context.catalog own ∧
            run.ParentsAvailable unit own) = true := by
    decide +kernel
  obtain ⟨done, hrun, -⟩ := Action.outcome_eq_ok_of_any hok
  generalize ((compile (extendedRegistry [baseUse])).outcome (start "se" [])).2 = run at hrun hunit
  obtain ⟨unit, hu, halone, hparents⟩ := hunit
  obtain ⟨own, imports, hown, himports, -, -, halone'⟩ :=
    mentioned_types_available_iff _ _ _ run hrun unit hu
  rw [hown] at hparents
  obtain ⟨hmention, hparents⟩ := of_decide_eq_true hparents
  exact ⟨run, hrun, unit, hu, halone, own, imports, hown, himports, hmention,
    (halone' halone).2.mpr hparents⟩

end Compilation

end FieldRegistry
