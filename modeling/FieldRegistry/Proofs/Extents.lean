import FieldRegistry.Proofs.TypeGraph

/-!
# Extents and arguments of allocation routines

The arguments of a routine are the dimensions of the variables that its own file declares, but its steps
also reach members of types that other files define. So the names in the extents are arguments for the
variables of the file itself; for other members this takes a variable of the file with the same dimension.
-/

namespace FieldRegistry

variable {c : Catalog} {scope path : String} {v : Variable} {leaf : Leaf} {unit : FileUnit}

/-! ## Variables that a routine reaches -/

theorem mem_of_mapM_map_flatten {α β : Type} {f : α → Except Fault (List β)} {as : List α}
    {bs : List β} {b : β} (h : (as.mapM f).map List.flatten = .ok bs) (hb : b ∈ bs) :
    ∃ a ∈ as, ∃ part, f a = .ok part ∧ b ∈ part := by
  obtain ⟨parts, hparts, rfl⟩ := map_eq_ok h
  obtain ⟨part, hp, hb⟩ := List.mem_flatten.mp hb
  obtain ⟨a, ha, hpart⟩ := exists_left_of_forall₂ (forall₂_of_mapM_eq_ok hparts) hp
  exact ⟨a, ha, part, hpart, hb⟩

/-- A leaf of a variable is the variable itself or belongs to a type that the walk entered. -/
theorem stored_of_mem_leavesWithin {fuel : Nat} {leaves : List Leaf}
    (h : c.leavesWithin scope fuel path v = .ok leaves) (hl : leaf ∈ leaves) :
    leaf.stored = v ∨ ∃ name a, c.aggregate? name = some a ∧ leaf.stored ∈ c.flatten a := by
  induction fuel using Nat.strongRecOn generalizing path v leaves with
  | ind fuel ih =>
      rcases Catalog.leavesWithin_eq_ok h with ⟨-, rfl⟩ | ⟨n, a, parts, rfl, -, ha, hparts, rfl⟩
      · exact Or.inl (by rw [List.mem_singleton.mp hl])
      · obtain ⟨part, hp, hl⟩ := List.mem_flatten.mp hl
        obtain ⟨w, hw, hpart⟩ := exists_left_of_forall₂ hparts hp
        rcases ih n (Nat.lt_succ_self n) hpart hl with hs | hs
        · exact Or.inr ⟨_, a, ha, hs ▸ hw⟩
        · exact Or.inr hs

/-- The variables of a file: those of its dictionary and the own members of its types. -/
def FileUnit.ownVariables (unit : FileUnit) (own : List Aggregate) : List Variable :=
  unit.dictionary.declared ++ own.flatMap (·.members)

/-- A member of a type that the file with the types `own` does not define. -/
def Catalog.Foreign (c : Catalog) (own : List Aggregate) (v : Variable) : Prop :=
  ∃ name a, c.aggregate? name = some a ∧ a ∉ own ∧ v ∈ a.members

theorem own_or_foreign {leaves : List Leaf} (own : List Aggregate) (hb : c.Built)
    (h : AllocationRoutine.leaves unit c = .ok leaves) (hl : leaf ∈ leaves) :
    leaf.stored ∈ unit.ownVariables own ∨ c.Foreign own leaf.stored := by
  obtain ⟨v, hv, part, hpart, hl⟩ := mem_of_mapM_map_flatten h hl
  rcases stored_of_mem_leavesWithin hpart hl with hs | ⟨name, a, ha, hs⟩
  · exact Or.inl (List.mem_append.mpr (Or.inl (hs ▸ hv)))
  · obtain ⟨n, b, hn, hs⟩ := hb.member_of_mem_flatten ha hs
    by_cases hown : b ∈ own
    · exact Or.inl (List.mem_append.mpr (Or.inr (List.mem_flatMap.mpr ⟨b, hown, hs⟩)))
    · exact Or.inr ⟨n, b, hn, hown, hs⟩

/-! ## Names in extents -/

/-- The names in the extents of what is allocated for a leaf, as arguments spell them. -/
def Leaf.extentNames (leaf : Leaf) : List String :=
  if leaf.allocations.isEmpty then [] else Dictionary.dimensionNames leaf.stored

theorem Leaf.extentNames_subset {x : String} (h : x ∈ leaf.extentNames) :
    x ∈ Dictionary.dimensionNames leaf.stored := by
  unfold extentNames at h
  split at h
  · cases h
  · exact h

theorem build_eq_ok {ranking ranking' : Ranking} {routine : AllocationRoutine}
    (h : (AllocationRoutine.build unit c).outcome ranking = (.ok routine, ranking')) :
    ∃ leaves, AllocationRoutine.leaves unit c = .ok leaves ∧
      routine.steps = leaves.flatMap Leaf.steps ∧
      ∀ x, x ∈ routine.dimensions ↔ x ∈ unit.dictionary.knownDimensions := by
  rw [Compilation.outcome_build] at h
  obtain ⟨leaves, hl, hr⟩ := map_eq_ok (Prod.mk.inj h).1
  rw [← hr]
  exact ⟨leaves, hl, rfl, fun x => (ranking.perm_sort _).mem_iff⟩

/-- The arguments of a routine are the dimensions of the variables of its file. Its steps are those of
the leaves it reaches, which are variables of the file or members of types from elsewhere. All names in
extents are arguments if and only if those of the latter are dimensions of variables of the file. -/
theorem extents_are_arguments_iff (dycore : String) (settings : Settings) (requests : List Request)
    (ranking : Ranking) :
    let run := (Compilation.start dycore settings).after requests
    let catalog := run.context.catalog
    ∀ unit ∈ run.units, ∀ routine ranking',
      (AllocationRoutine.build unit catalog).outcome ranking = (.ok routine, ranking') →
      ∃ own leaves, unit.aggregates catalog = .ok own ∧
        AllocationRoutine.leaves unit catalog = .ok leaves ∧
        routine.steps = leaves.flatMap Leaf.steps ∧
        (∀ x, x ∈ routine.dimensions ↔
          ∃ v ∈ unit.ownVariables own, x ∈ Dictionary.dimensionNames v) ∧
        (∀ leaf ∈ leaves, leaf.stored ∈ unit.ownVariables own ∨ catalog.Foreign own leaf.stored) ∧
        ((∀ leaf ∈ leaves, ∀ x ∈ leaf.extentNames, x ∈ routine.dimensions) ↔
          ∀ leaf ∈ leaves, catalog.Foreign own leaf.stored → ∀ x ∈ leaf.extentNames,
            ∃ v ∈ unit.ownVariables own, x ∈ Dictionary.dimensionNames v) := by
  intro run catalog unit hu routine ranking' h
  have hs : run.Sound := ((Compilation.sound_start dycore settings).after requests).1
  obtain ⟨added, own, hset⟩ := hs.settled unit hu
  obtain ⟨leaves, hl, hsteps, hdims⟩ := build_eq_ok h
  have hargs : ∀ x, x ∈ routine.dimensions ↔
      ∃ v ∈ unit.ownVariables own, x ∈ Dictionary.dimensionNames v := fun x =>
    (hdims x).trans (hset.progress.history.mem_knownDimensions x)
  refine ⟨own, leaves, hset.progress.aggregates_eq_ok, hl, hsteps, hargs,
    fun leaf hleaf => own_or_foreign own hs.built hl hleaf, ?_⟩
  constructor
  · intro hall leaf hleaf _ x hx
    exact (hargs x).mp (hall leaf hleaf x hx)
  · intro hforeign leaf hleaf x hx
    rw [hargs]
    rcases own_or_foreign own hs.built hl hleaf with hown | hother
    · exact ⟨leaf.stored, hown, leaf.extentNames_subset hx⟩
    · exact hforeign leaf hleaf hother x hx

/-! ## A member from another file -/

/-- A file with a type that has an array as its member, and a file with a variable of that type and the
variables `more`. -/
def hostRegistry (more : List Node) : Node where
  tag := "registry"
  children :=
    [{ tag := "file"
       attributes := [("name", "state_types"), ("type", "module")]
       children :=
         [{ tag := "array"
            attributes := [("allocatable", "pointer"), ("local_name", "t"),
              ("standard_name", "air_temperature"), ("type", "real"), ("units", "K")]
            children := [{ tag := "dimensions", text := some "horizontal_dimension" }] },
          { tag := "ddt"
            attributes := [("type", "physics_state")]
            children := [{ tag := "data", text := some "air_temperature" }] }] },
     { tag := "file"
       attributes := [("name", "host_fields"), ("type", "module")]
       children :=
         { tag := "variable"
           attributes := [("local_name", "state"), ("standard_name", "physics_state_instance"),
             ("type", "physics_state")] } :: more }]

/-- The routine of the second file allocates by a dimension that it does not get. -/
theorem hostRegistry_undeclared : ∃ run unit routine ranking,
    (Compilation.compile (hostRegistry [])).outcome (.start "se" []) = (.ok (), run) ∧
      unit ∈ run.units ∧
      (AllocationRoutine.build unit run.context.catalog).outcome run.context.ranking =
        (.ok routine, ranking) ∧
      .allocate "state%t" "associated" true "(horizontal_dimension)" ∈ routine.steps ∧
      "horizontal_dimension" ∉ routine.dimensions := by
  have hok : ((Compilation.compile (hostRegistry [])).outcome (.start "se" [])).1.toOption.any
      (fun _ => true) = true := by decide +kernel
  have hunit :
      let run := ((Compilation.compile (hostRegistry [])).outcome (.start "se" [])).2
      ∃ unit ∈ run.units, ((AllocationRoutine.build unit run.context.catalog).outcome
        run.context.ranking).1.toOption.any (fun routine =>
          .allocate "state%t" "associated" true "(horizontal_dimension)" ∈ routine.steps ∧
            "horizontal_dimension" ∉ routine.dimensions) = true := by
    decide +kernel
  obtain ⟨done, hrun, -⟩ := Action.outcome_eq_ok_of_any hok
  -- the run is only a name from here on, so that nothing evaluates it again
  generalize ((Compilation.compile (hostRegistry [])).outcome (.start "se" [])).2 = run at hrun hunit
  obtain ⟨unit, hu, hr⟩ := hunit
  obtain ⟨routine, hroutine, hr⟩ := Action.outcome_eq_ok_of_any hr
  exact ⟨run, unit, routine, _, hrun, hu, hroutine, of_decide_eq_true hr⟩

def pressureArray : Node where
  tag := "array"
  attributes := [("allocatable", "allocatable"), ("local_name", "ps"),
    ("standard_name", "surface_pressure"), ("type", "real")]
  children := [{ tag := "dimensions", text := some "Horizontal_Dimension" }]

/-- With a variable of that dimension in the second file, the member from the first file is covered. -/
theorem hostRegistry_declared :
    let run := (Compilation.start "se" []).after [.compile (hostRegistry [pressureArray])]
    ∃ unit ∈ run.units, ∃ own leaves leaf,
      AllocationRoutine.leaves unit run.context.catalog = .ok leaves ∧ leaf ∈ leaves ∧
      run.context.catalog.Foreign own leaf.stored ∧ leaf.extentNames = ["horizontal_dimension"] ∧
      ∃ v ∈ unit.ownVariables own, "horizontal_dimension" ∈ Dictionary.dimensionNames v := by
  have hunit :
      let run := (Compilation.start "se" []).after [.compile (hostRegistry [pressureArray])]
      ∃ unit ∈ run.units, unit.aggregateNames = [] ∧
        ((AllocationRoutine.build unit run.context.catalog).outcome .initial).1.toOption.any
          (fun routine =>
            (AllocationRoutine.leaves unit run.context.catalog).toOption.any fun leaves =>
              (∃ leaf ∈ leaves, leaf.stored ∉ unit.dictionary.declared ∧
                leaf.extentNames = ["horizontal_dimension"]) ∧
              ∀ leaf ∈ leaves, ∀ x ∈ leaf.extentNames, x ∈ routine.dimensions) = true := by
    decide +kernel
  have hmain := extents_are_arguments_iff "se" [] [.compile (hostRegistry [pressureArray])] .initial
  generalize (Compilation.start "se" []).after [.compile (hostRegistry [pressureArray])] = run
    at hunit hmain ⊢
  obtain ⟨unit, hu, hnone, hr⟩ := hunit
  obtain ⟨routine, hroutine, hr⟩ := Action.outcome_eq_ok_of_any hr
  obtain ⟨own, leaves, hown, hl, -, -, hreach, hiff⟩ := hmain unit hu routine _ hroutine
  rw [hl] at hr
  obtain ⟨⟨leaf, hleaf, hstored, hnames⟩, hall⟩ := of_decide_eq_true hr
  have hown : own = [] := by
    rw [FileUnit.aggregates, hnone] at hown
    cases hown
    rfl
  subst hown
  have hforeign : run.context.catalog.Foreign [] leaf.stored := by
    rcases hreach leaf hleaf with h | h
    · rw [FileUnit.ownVariables, List.flatMap_nil, List.append_nil] at h
      exact absurd h hstored
    · exact h
  have hname : "horizontal_dimension" ∈ leaf.extentNames := by
    rw [hnames]
    exact List.mem_singleton_self _
  have hcovered := hiff.mp hall leaf hleaf hforeign "horizontal_dimension" hname
  exact ⟨unit, hu, [], leaves, leaf, hl, hleaf, hforeign, hnames, hcovered⟩

end FieldRegistry
