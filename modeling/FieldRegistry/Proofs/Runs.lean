import FieldRegistry.Compilation
import FieldRegistry.Proofs.Conservation
import FieldRegistry.Proofs.RankOrder

/-!
# Runs of a compilation

A compilation reads registries and generates files in any order, and a request that fails does not end
it. Reading adds types and files at the end; generating changes the ranking only. So the catalog of
every run is one that definitions built, every file that was read stays in order, and the ranking has met
the dimensions of the first files, one file after the other.
-/

namespace FieldRegistry

/-! ## Files in a larger catalog -/

/-- A file whose derived types and dictionary are in order, in a catalog after it was read. -/
structure FileUnit.Settled (catalog : Catalog) (unit : FileUnit) (added : List Variable)
    (as : List Aggregate) : Prop where
  progress : Progress catalog unit.dictionary unit.aggregateNames added as
  resolved : Resolved catalog unit.dictionary
  scope : unit.dictionary.name = unit.name

theorem FileUnit.Settled.mono {catalog catalog' : Catalog} {unit : FileUnit} {added : List Variable}
    {as : List Aggregate} (hp : catalog.Extended catalog') (h : Settled catalog unit added as) :
    Settled catalog' unit added as :=
  ⟨h.progress.mono hp, h.resolved.mono hp, h.scope⟩

theorem FileUnit.settled_ofNode {dycore : String} {node : Node} {catalog catalog' : Catalog}
    {unit : FileUnit} (hb : catalog.Built)
    (h : (FileUnit.ofNode dycore node).outcome catalog = (.ok unit, catalog')) :
    ∃ added as, Settled catalog' unit added as := by
  obtain ⟨-, added, as, -, -, hp⟩ := ofNode_eq_ok h
  obtain ⟨hr, hn⟩ := (grows_ofNode hb h).2 unit rfl
  exact ⟨added, as, hp, hr, hn⟩

/-- What can be asked of a compilation. -/
inductive Request where
  | compile (root : Node)
  | generate (style : Style)

def Request.isCompile : Request → Bool
  | compile _ => true
  | generate _ => false

namespace Compilation

variable {c c' : Compilation} {node root : Node} {style : Style} {unit : FileUnit}
  {units : List FileUnit}

def perform (c : Compilation) : Request → Compilation
  | .compile root => ((compile root).outcome c).2
  | .generate style => ((generate style).outcome c).2

/-- The compilation after some requests, those that failed included. -/
def after (c : Compilation) (requests : List Request) : Compilation := requests.foldl perform c

theorem after_append (c : Compilation) (before more : List Request) :
    c.after (before ++ more) = (c.after before).after more :=
  List.foldl_append

/-! ## Sections -/

/-- A section that is no file changes nothing; a file leaves its types in the catalog, and itself behind
the other files if it can be read. -/
theorem compileSection_cases {result : Except Fault Unit}
    (h : (compileSection node).outcome c = (result, c')) :
    (node.tag ≠ "file" ∧ result = .error (.unknownSection node.tag) ∧ c' = c) ∨
    ∃ read catalog, node.tag = "file" ∧
      (FileUnit.ofNode c.context.dycore node).outcome c.context.catalog = (read, catalog) ∧
      ((∃ fault, read = .error fault ∧ result = .error fault ∧
          c' = ⟨{ c.context with catalog }, c.units⟩) ∨
        ∃ unit, read = .ok unit ∧ result = .ok () ∧
          c' = ⟨{ c.context with catalog }, c.units ++ [unit]⟩) := by
  unfold compileSection at h
  rw [Action.outcome_bind_of_ok (Action.outcome_lift _ c)] at h
  split at h
  · rename_i htag
    rw [Action.outcome_bind_of_error (Action.outcome_throw _ c)] at h
    cases h
    exact Or.inl ⟨by simpa using htag, rfl, rfl⟩
  · rename_i htag
    dsimp only at h
    rw [Action.outcome_bind_of_ok (Action.outcome_get c), Action.outcome_bind, onCatalog,
      Action.outcome_focus] at h
    refine Or.inr ?_
    cases hread : (FileUnit.ofNode c.context.dycore node).outcome c.context.catalog with
    | mk read catalog =>
        rw [hread] at h
        refine ⟨read, catalog, by simpa using htag, rfl, ?_⟩
        cases read with
        | error fault => cases h; exact Or.inl ⟨fault, rfl, rfl, rfl⟩
        | ok unit => cases h; exact Or.inr ⟨unit, rfl, rfl, rfl⟩

/-! ## Generated files -/

theorem outcome_build (unit : FileUnit) (catalog : Catalog) (ranking : Ranking) :
    (AllocationRoutine.build unit catalog).outcome ranking =
      ((AllocationRoutine.leaves unit catalog).map fun leaves =>
          ⟨AllocationRoutine.nameFor unit.name,
            (ranking.sort unit.dictionary.knownDimensions).1, leaves.flatMap Leaf.steps⟩,
        ranking.enrolAll unit.dictionary.knownDimensions) := by
  unfold AllocationRoutine.build
  rw [Action.outcome_bind_of_ok (Action.outcome_get ranking)]
  dsimp only
  rw [Action.outcome_bind_of_ok (Action.outcome_set ranking _)]
  cases AllocationRoutine.leaves unit catalog <;> rfl

def source (style : Style) (catalog : Catalog) (unit : FileUnit) (dimensions : List String) :
    Except Fault String := do
  let leaves ← AllocationRoutine.leaves unit catalog
  let lines ← (SourceModule.lines unit catalog style
    ⟨AllocationRoutine.nameFor unit.name, dimensions, leaves.flatMap Leaf.steps⟩).outcome
  return Layout.render lines style.indentSize

theorem outcome_text (style : Style) (unit : FileUnit) (catalog : Catalog) (ranking : Ranking) :
    (SourceModule.text unit catalog style).outcome ranking =
      (source style catalog unit (ranking.sort unit.dictionary.knownDimensions).1,
        ranking.enrolAll unit.dictionary.knownDimensions) := by
  unfold SourceModule.text source
  rw [Action.outcome_bind, outcome_build]
  cases AllocationRoutine.leaves unit catalog with
  | error fault => rfl
  | ok leaves =>
      dsimp only [Except.map]
      rw [Action.outcome_bind, Action.outcome_liftChecked]
      dsimp only [bind, Except.bind]
      cases (SourceModule.lines unit catalog style
        ⟨AllocationRoutine.nameFor unit.name,
          (ranking.sort unit.dictionary.knownDimensions).1, leaves.flatMap Leaf.steps⟩).outcome with
      | error fault => rfl
      | ok lines => rfl

/-- The files of a unit whose dimension arguments are given. -/
def render (style : Style) (catalog : Catalog) (unit : FileUnit) (dimensions : List String) :
    Except Fault (List Output) := do
  let metadata ← Metadata.text unit catalog
  let text ← source style catalog unit dimensions
  return [⟨unit.name ++ ".meta", metadata⟩, ⟨unit.name ++ ".F90", text⟩]

def enrolled (c : Compilation) (names : List String) : Compilation :=
  ⟨{ c.context with ranking := c.context.ranking.enrolAll names }, c.units⟩

/-- The files of a unit depend on the ranking through the order of its dimensions only, and the ranking
learns these dimensions unless there is no metadata. -/
theorem generateUnit_cases {result : Except Fault (List Output)}
    (h : (generateUnit style unit).outcome c = (result, c')) :
    result = render style c.context.catalog unit
        (c.context.ranking.sort unit.dictionary.knownDimensions).1 ∧
      (c' = c.enrolled unit.dictionary.knownDimensions ∨ c' = c ∧ ∃ fault, result = .error fault) := by
  unfold generateUnit at h
  rw [Action.outcome_bind_of_ok (Action.outcome_get c), Action.outcome_bind,
    Action.outcome_liftChecked, Checked.outcome_ofExcept] at h
  unfold render
  cases hm : Metadata.text unit c.context.catalog with
  | error fault =>
      rw [hm] at h
      cases h
      exact ⟨rfl, Or.inr ⟨rfl, fault, rfl⟩⟩
  | ok metadata =>
      rw [hm] at h
      dsimp only at h
      rw [Action.outcome_bind, onRanking, Action.outcome_focus, outcome_text] at h
      cases hs : source style c.context.catalog unit
          (c.context.ranking.sort unit.dictionary.knownDimensions).1 with
      | error fault => rw [hs] at h; cases h; exact ⟨rfl, Or.inl rfl⟩
      | ok text => rw [hs] at h; cases h; exact ⟨rfl, Or.inl rfl⟩

/-- The dimensions of some units, in the order in which a ranking meets them. -/
def unitDimensions (units : List FileUnit) : List String :=
  units.flatMap (·.dictionary.knownDimensions)

theorem unitDimensions_of_front {front : List FileUnit} (h : front <+: units) :
    unitDimensions front <+: unitDimensions units := by
  obtain ⟨rest, rfl⟩ := h
  rw [unitDimensions, unitDimensions, List.flatMap_append]
  exact List.prefix_append ..

theorem enrolAll_unitDimensions_cons (ranking : Ranking) (unit : FileUnit) (units : List FileUnit) :
    ranking.enrolAll (unitDimensions (unit :: units)) =
      (ranking.enrolAll unit.dictionary.knownDimensions).enrolAll (unitDimensions units) := by
  rw [← Ranking.enrolAll_append, unitDimensions, List.flatMap_cons, unitDimensions]

/-- The files of some units, from a ranking that learns the dimensions of one after the other. -/
def emit (style : Style) (catalog : Catalog) :
    Ranking → List FileUnit → Except Fault (List (List Output))
  | _, [] => .ok []
  | ranking, unit :: units => do
    let files ← render style catalog unit (ranking.sort unit.dictionary.knownDimensions).1
    let rest ← emit style catalog (ranking.enrolAll unit.dictionary.knownDimensions) units
    return files :: rest

/-- A loop over units leaves the ranking with the dimensions of those units that it reached. -/
theorem generateUnits_cases {result : Except Fault (List (List Output))}
    (h : Action.outcome (units.mapM (generateUnit style)) c = (result, c')) :
    result = emit style c.context.catalog c.context.ranking units ∧
      ∃ reached, reached <+: units ∧ c' = c.enrolled (unitDimensions reached) := by
  induction units generalizing c c' result with
  | nil => cases h; exact ⟨rfl, [], List.prefix_rfl, rfl⟩
  | cons unit units ih =>
      rw [List.mapM_cons, Action.outcome_bind] at h
      unfold emit
      cases h₁ : (generateUnit style unit).outcome c with
      | mk first c₁ =>
          obtain ⟨hfirst, hc₁⟩ := generateUnit_cases h₁
          rw [h₁] at h
          rw [← hfirst]
          cases first with
          | error fault =>
              cases h
              refine ⟨rfl, ?_⟩
              rcases hc₁ with rfl | ⟨rfl, -⟩
              · exact ⟨[unit], by simp, by simp [unitDimensions]⟩
              · exact ⟨[], List.nil_prefix, rfl⟩
          | ok files =>
              have hc₁ : c₁ = c.enrolled unit.dictionary.knownDimensions := by
                rcases hc₁ with hc₁ | ⟨-, fault, hf⟩
                · exact hc₁
                · cases hf
              subst hc₁
              dsimp only at h
              rw [Action.outcome_bind] at h
              cases h₂ : Action.outcome (units.mapM (generateUnit style))
                  (c.enrolled unit.dictionary.knownDimensions) with
              | mk rest c₂ =>
                  obtain ⟨hrest, reached, hp, hc₂⟩ := ih h₂
                  have hlast : result = rest.map (files :: ·) ∧ c' = c₂ := by
                    rw [h₂] at h
                    cases rest <;> cases h <;> exact ⟨rfl, rfl⟩
                  refine ⟨?_, unit :: reached, List.cons_prefix_cons.mpr ⟨rfl, hp⟩, ?_⟩
                  · rw [hlast.1, hrest]
                    rfl
                  · rw [hlast.2, hc₂, enrolled, enrolled, enrolled, enrolAll_unitDimensions_cons]

theorem generateUnits_eq_ok {files : List (List Output)}
    (h : Action.outcome (units.mapM (generateUnit style)) c = (.ok files, c')) :
    c' = c.enrolled (unitDimensions units) := by
  induction units generalizing c files with
  | nil => cases h; rfl
  | cons unit units ih =>
      rw [List.mapM_cons] at h
      obtain ⟨first, c₁, h₁, h⟩ := Action.outcome_bind_eq_ok h
      obtain ⟨rest, c₂, h₂, h⟩ := Action.outcome_bind_eq_ok h
      cases h
      rcases (generateUnit_cases h₁).2 with rfl | ⟨-, fault, hf⟩
      · rw [ih h₂, enrolled, enrolled, enrolled, enrolAll_unitDimensions_cons]
      · cases hf

theorem generate_cases {result : Except Fault (List Output)}
    (h : (generate style).outcome c = (result, c')) :
    result = (emit style c.context.catalog c.context.ranking c.units).map List.flatten ∧
      ∃ reached, reached <+: c.units ∧ c' = c.enrolled (unitDimensions reached) := by
  unfold generate at h
  rw [Action.outcome_bind_of_ok (Action.outcome_get c), Action.outcome_bind] at h
  cases hu : Action.outcome (c.units.mapM (generateUnit style)) c with
  | mk results c₁ =>
      obtain ⟨hresults, hc₁⟩ := generateUnits_cases hu
      rw [hu] at h
      rw [← hresults]
      cases results with
      | error fault => cases h; exact ⟨rfl, hc₁⟩
      | ok files => cases h; exact ⟨rfl, hc₁⟩

/-- What reading one section keeps, and learning the dimensions of the first units, a whole run keeps. -/
theorem after_invariant {P : Compilation → Prop}
    (hsection : ∀ node c, P c → P ((compileSection node).outcome c).2)
    (henrolled : ∀ c reached, reached <+: c.units → P c → P (c.enrolled (unitDimensions reached)))
    (h : P c) (requests : List Request) : P (c.after requests) := by
  induction requests generalizing c with
  | nil => exact h
  | cons request requests ih =>
      refine ih ?_
      cases request with
      | compile root => exact Action.forM_invariant hsection root.children h
      | generate style =>
          cases hg : (generate style).outcome c with
          | mk result c' =>
              obtain ⟨-, reached, hp, rfl⟩ := generate_cases hg
              rw [Compilation.perform, hg]
              exact henrolled c reached hp h

/-- What adding variables and taking them out keeps holds of every dictionary of a run. -/
theorem dictionary_invariant {P : Dictionary → Prop}
    (hadd : ∀ d v d', P d → d.Adds v d' → P d')
    (htake : ∀ d name v d', P d → d.take? name = some (v, d') → P d')
    (hempty : ∀ name kind, P (.empty name kind)) (dycore : String) (settings : Settings)
    (requests : List Request) :
    ∀ unit ∈ ((start dycore settings).after requests).units, P unit.dictionary := by
  refine after_invariant (P := fun c => ∀ unit ∈ c.units, P unit.dictionary) ?_
    (fun c reached _ h => h) (fun unit hu => by cases hu) requests
  intro node c hc
  cases hs : (compileSection node).outcome c with
  | mk result c' =>
      rcases compileSection_cases hs with ⟨-, -, rfl⟩ |
        ⟨read, catalog, -, hread, ⟨fault, -, -, rfl⟩ | ⟨unit, rfl, -, rfl⟩⟩
      · exact hc
      · exact hc
      · intro u hu
        rcases List.mem_append.mp hu with hu | hu
        · exact hc u hu
        · cases List.mem_singleton.mp hu
          exact FileUnit.dictionary_invariant hadd htake hempty hread

/-! ## Growth along a run -/

/-- A later state of a compilation: types and files were added at the end. -/
structure Later (c c' : Compilation) : Prop where
  catalog : c.context.catalog.Grows c'.context.catalog
  units : c.units <+: c'.units

theorem Later.refl (c : Compilation) : c.Later c := ⟨.refl, List.prefix_rfl⟩

theorem Later.trans {c₁ : Compilation} (h : c.Later c₁) (h' : c₁.Later c') : c.Later c' :=
  ⟨h.catalog.trans h'.catalog, h.units.trans h'.units⟩

/-- A state in which the catalog was built by definitions, all files are in order, and the ranking comes
from the dimensions of the first files. -/
structure Sound (c : Compilation) : Prop where
  built : c.context.catalog.Built
  settled : ∀ unit ∈ c.units, ∃ added as, FileUnit.Settled c.context.catalog unit added as
  ranked : ∃ front, front <+: c.units ∧
    c.context.ranking = Ranking.initial.enrolAll (unitDimensions front)

theorem sound_start (dycore : String) (settings : Settings) : (start dycore settings).Sound :=
  ⟨.refl, by rintro unit ⟨⟩, [], List.prefix_rfl, rfl⟩

theorem Sound.compileSection (hs : c.Sound) (node : Node) :
    ((compileSection node).outcome c).2.Sound ∧ c.Later ((compileSection node).outcome c).2 := by
  cases h : (Compilation.compileSection node).outcome c with
  | mk result c' =>
      rcases compileSection_cases h with ⟨-, -, rfl⟩ | ⟨read, catalog, -, hread, hcases⟩
      · exact ⟨hs, .refl _⟩
      · have hg := (FileUnit.grows_ofNode hs.built hread).1
        have hold : ∀ unit ∈ c.units, ∃ added as, FileUnit.Settled catalog unit added as := by
          intro unit hu
          obtain ⟨added, as, hset⟩ := hs.settled unit hu
          exact ⟨added, as, hset.mono hg.extended⟩
        rcases hcases with ⟨fault, rfl, -, rfl⟩ | ⟨unit, rfl, -, rfl⟩
        · exact ⟨⟨hs.built.grows hg, hold, hs.ranked⟩, hg, List.prefix_rfl⟩
        · obtain ⟨front, hfront, hranking⟩ := hs.ranked
          refine ⟨⟨hs.built.grows hg, ?_, front, hfront.trans (List.prefix_append ..), hranking⟩, hg,
            List.prefix_append ..⟩
          intro u hu
          rcases List.mem_append.mp hu with hu | hu
          · exact hold u hu
          · cases List.mem_singleton.mp hu
            exact FileUnit.settled_ofNode hs.built hread

theorem Sound.sections (hs : c.Sound) (nodes : List Node) :
    (Action.outcome (nodes.forM Compilation.compileSection) c).2.Sound ∧
      c.Later (Action.outcome (nodes.forM Compilation.compileSection) c).2 := by
  refine Action.forM_invariant (P := fun c' => c'.Sound ∧ c.Later c') ?_ nodes ⟨hs, .refl c⟩
  rintro node c₁ ⟨hs₁, hl₁⟩
  obtain ⟨hs', hl'⟩ := hs₁.compileSection node
  exact ⟨hs', hl₁.trans hl'⟩

theorem Sound.compile {result : Except Fault Unit} (hs : c.Sound)
    (h : (compile root).outcome c = (result, c')) : c'.Sound ∧ c.Later c' := by
  have hsections := hs.sections root.children
  rw [show Action.outcome (root.children.forM Compilation.compileSection) c = _ from h] at hsections
  exact hsections

theorem Sound.enrolled {reached : List FileUnit} (hs : c.Sound) (hp : reached <+: c.units) :
    (c.enrolled (unitDimensions reached)).Sound ∧ c.Later (c.enrolled (unitDimensions reached)) := by
  refine ⟨⟨hs.built, hs.settled, ?_⟩, .refl, List.prefix_rfl⟩
  obtain ⟨front, hfront, hranking⟩ := hs.ranked
  rw [Compilation.enrolled, hranking]
  -- the units that were met before and those met now begin alike, so one of the two adds nothing
  rcases List.prefix_or_prefix_of_prefix hfront hp with h | h
  · exact ⟨reached, hp, (Ranking.enrolAll_enrolAll _ (unitDimensions_of_front h)).1⟩
  · exact ⟨front, hfront, (Ranking.enrolAll_enrolAll _ (unitDimensions_of_front h)).2⟩

theorem Sound.after (hs : c.Sound) (requests : List Request) :
    (c.after requests).Sound ∧ c.Later (c.after requests) := by
  refine after_invariant (P := fun c' => c'.Sound ∧ c.Later c') ?_ ?_ ⟨hs, .refl c⟩ requests
  · rintro node c₁ ⟨hs₁, hl₁⟩
    obtain ⟨hs', hl'⟩ := hs₁.compileSection node
    exact ⟨hs', hl₁.trans hl'⟩
  · rintro c₁ reached hp ⟨hs₁, hl₁⟩
    obtain ⟨hs', hl'⟩ := hs₁.enrolled hp
    exact ⟨hs', hl₁.trans hl'⟩

end Compilation

end FieldRegistry
