import FieldRegistry.Proofs.Extents
import FieldRegistry.Proofs.ReaderSteps
import FieldRegistry.Proofs.VariableHistory

/-!
# The steps of a routine, leaf by leaf

Storage is reached through variables of derived type, each a member of the type before it. The walk of a
routine hands a growing text from one variable to the next and ends at the first fault. Here its result is
said without the walk: every chain of members that ends in storage is a leaf, leaves stand in the order of
their places, and each leaf is allocated before it and its elements get their initial values.
-/

namespace FieldRegistry

/-- A leaf with the way to it: the variables of derived type above it, and the place of each variable of
the chain in the list that it was found in. -/
structure Route where
  places : List Nat
  above : List Variable
  leaf : Variable

namespace Route

def chain (r : Route) : List Variable := r.above ++ [r.leaf]

/-- The leaf as statements name it. -/
def target (r : Route) : String := Text.join "%" (r.chain.map (·.localName))

/-- Only pointers and allocatable variables are allocated, and only pointers are nullified. -/
def allocations (r : Route) : List AllocationStep :=
  match r.leaf.storage with
  | .pointer => [.allocate r.target "associated" true (Leaf.extentsText r.leaf.dimensions)]
  | .allocatable => [.allocate r.target "allocated" false (Leaf.extentsText r.leaf.dimensions)]
  | .plain | .target | .parameter => []

/-- The initial value of a leaf, and one for each element that declares its own. -/
def initializations (r : Route) : List AllocationStep :=
  if r.leaf.storage = .parameter then []
  else
    r.leaf.runtimeInitialValue?.toList.map (.assign r.target) ++
      (r.leaf.elements.filter (·.declaresInitialValue)).map fun e =>
        .assign (r.target ++ "(" ++ Text.join "," e.subscripts ++ ")") (e.initialValue.getD "")

def steps (r : Route) : List AllocationStep := r.allocations ++ r.initializations

/-- A route from a variable, where the variable stands at place `i`. -/
def placed (r : Route) (i : Nat) : Route := { r with places := i :: r.places }

/-- A route from a member of the type of `v`, begun at `v`. -/
def under (r : Route) (v : Variable) : Route := { r with above := v :: r.above }

/-- Exactly the routes of a kind, each once and depth first. -/
structure Enumerates (P : Route → Prop) (routes : List Route) : Prop where
  mem : ∀ r, r ∈ routes ↔ P r
  sorted : routes.Pairwise fun r s => r.places < s.places

end Route

namespace Catalog

/-- The routes from a variable to its leaves: it is a leaf itself, or the route goes on with an own or
inherited member of its type. -/
inductive Leads (c : Catalog) : Variable → Route → Prop
  | stop {v : Variable} : v.type.isAggregate = false → Leads c v ⟨[], [], v⟩
  | enter {v m : Variable} {a : Aggregate} {i : Nat} {r : Route} : v.type.isAggregate = true →
      c.aggregate? v.type.name = some a → (c.flatten a)[i]? = some m → Leads c m r →
      Leads c v ((r.placed i).under v)

/-- The routes from a list of variables, whose places are counted from `n`. -/
def LeadsFrom (c : Catalog) (n : Nat) (vs : List Variable) (r : Route) : Prop :=
  ∃ i v s, vs[i]? = some v ∧ c.Leads v s ∧ r = s.placed (n + i)

variable {c : Catalog} {v : Variable} {vs : List Variable} {a : Aggregate} {r : Route} {n : Nat}
  {scope path : String}

theorem leads_of_intrinsic (h : v.type.isAggregate = false) : c.Leads v r ↔ r = ⟨[], [], v⟩ := by
  constructor
  · rintro (_ | ⟨hagg, -⟩)
    · rfl
    · rw [h] at hagg; cases hagg
  · rintro rfl
    exact .stop h

theorem leads_of_aggregate (h : v.type.isAggregate = true) (ha : c.aggregate? v.type.name = some a) :
    c.Leads v r ↔ ∃ s, c.LeadsFrom 0 (c.flatten a) s ∧ r = s.under v := by
  constructor
  · rintro (hno | ⟨-, hb, hm, hr⟩)
    · rw [h] at hno; cases hno
    · rw [ha] at hb
      cases hb
      exact ⟨_, ⟨_, _, _, hm, hr, by rw [Nat.zero_add]⟩, rfl⟩
  · rintro ⟨s, ⟨i, m, t, hm, ht, rfl⟩, rfl⟩
    rw [Nat.zero_add]
    exact .enter h ha hm ht

theorem leadsFrom_cons :
    c.LeadsFrom n (v :: vs) r ↔ (∃ s, c.Leads v s ∧ r = s.placed n) ∨ c.LeadsFrom (n + 1) vs r := by
  constructor
  · rintro ⟨i, w, s, hw, hs, rfl⟩
    cases i with
    | zero =>
        cases hw
        exact Or.inl ⟨s, hs, rfl⟩
    | succ i => exact Or.inr ⟨i, w, s, hw, hs, by rw [Nat.add_assoc, Nat.add_comm 1]⟩
  · rintro (⟨s, hs, rfl⟩ | ⟨i, w, s, hw, hs, rfl⟩)
    · exact ⟨0, v, s, rfl, hs, rfl⟩
    · exact ⟨i + 1, w, s, hw, hs, by rw [Nat.add_assoc, Nat.add_comm 1]⟩

end Catalog

/-! ## The walk finds all routes in order -/

namespace Route

/-- The text in front of the name of the leaf. -/
def front (r : Route) : String := String.join (r.above.map (·.localName ++ "%"))

/-- The leaf as the walk finds it after `path`. -/
def leafAt (path : String) (r : Route) : Leaf := ⟨path ++ r.front, r.leaf⟩

theorem leafAt_under (path : String) (r : Route) (v : Variable) :
    (r.under v).leafAt path = r.leafAt (path ++ v.localName ++ "%") := by
  simp only [leafAt, front, under, List.map_cons, String.join_cons, String.append_assoc]

theorem target_eq (r : Route) : r.target = r.front ++ r.leaf.localName := by
  have hcons : ∀ (s : String) (rest : List String), Text.join "%" (s :: (rest ++ [r.leaf.localName])) =
      s ++ "%" ++ Text.join "%" (rest ++ [r.leaf.localName]) := by
    intro s rest
    cases rest <;> rfl
  have hjoin : ∀ above : List Variable,
      Text.join "%" (above.map (·.localName) ++ [r.leaf.localName]) =
        String.join (above.map (·.localName ++ "%")) ++ r.leaf.localName := by
    intro above
    induction above with
    | nil => simp
    | cons v above ih =>
        rw [List.map_cons, List.cons_append, hcons, ih, List.map_cons, String.join_cons]
        simp only [String.append_assoc]
  rw [target, chain, List.map_append, List.map_singleton, hjoin, front]

end Route

namespace Catalog

open Route (Enumerates)

variable {c : Catalog} {v : Variable} {vs : List Variable} {scope path : String}

/-- Where each variable of a list is followed to all its leaves, the list is. -/
theorem enumerates_leadsFrom {parts : List (List Leaf)}
    (h : List.Forall₂ (fun v part => ∃ routes, Enumerates (c.Leads v) routes ∧
      part = routes.map (Route.leafAt path)) vs parts) (n : Nat) :
    ∃ routes, Enumerates (c.LeadsFrom n vs) routes ∧
      parts.flatten = routes.map (Route.leafAt path) := by
  induction h generalizing n with
  | nil => exact ⟨[], ⟨fun r => by simp [LeadsFrom], .nil⟩, rfl⟩
  | cons hv _ ih =>
      obtain ⟨first, hfirst, rfl⟩ := hv
      obtain ⟨rest, hrest, heq⟩ := ih (n + 1)
      refine ⟨first.map (·.placed n) ++ rest, ⟨fun r => ?_, ?_⟩, ?_⟩
      · rw [List.mem_append, List.mem_map, leadsFrom_cons, hrest.mem]
        simp only [hfirst.mem, eq_comm]
      · refine List.pairwise_append.mpr ⟨List.pairwise_map.mpr (hfirst.sorted.imp .cons),
          hrest.sorted, ?_⟩
        intro r hr s hs
        obtain ⟨t, -, rfl⟩ := List.mem_map.mp hr
        obtain ⟨i, w, u, -, -, rfl⟩ := (hrest.mem s).mp hs
        exact .rel (by omega)
      · rw [List.flatten_cons, List.map_append, List.map_map, heq]
        rfl

/-- A walk that succeeds has followed every route, and its leaves stand in the order of the routes. -/
theorem enumerates_leads {fuel : Nat} {leaves : List Leaf}
    (h : c.leavesWithin scope fuel path v = .ok leaves) :
    ∃ routes, Enumerates (c.Leads v) routes ∧ leaves = routes.map (Route.leafAt path) := by
  induction fuel using Nat.strongRecOn generalizing path v leaves with
  | ind fuel ih =>
      rcases leavesWithin_eq_ok h with ⟨hno, rfl⟩ | ⟨n, a, parts, rfl, hagg, ha, hparts, rfl⟩
      · refine ⟨[⟨[], [], v⟩], ⟨fun r => ?_, List.pairwise_singleton _ _⟩, ?_⟩
        · rw [leads_of_intrinsic hno, List.mem_singleton]
        · simp [Route.leafAt, Route.front]
      · obtain ⟨routes, hroutes, heq⟩ :=
          enumerates_leadsFrom (hparts.imp fun _ _ hpart => ih n (Nat.lt_succ_self n) hpart) 0
        refine ⟨routes.map (·.under v), ⟨fun r => ?_, List.pairwise_map.mpr hroutes.sorted⟩, ?_⟩
        · rw [leads_of_aggregate hagg ha, List.mem_map]
          simp only [hroutes.mem, eq_comm]
        · rw [heq, List.map_map]
          exact List.map_congr_left fun r _ => (r.leafAt_under path v).symm

end Catalog

/-! ## The steps of a leaf -/

/-- Elements know the variable that they are slices of. -/
def Variable.NamedByElements (v : Variable) : Prop := ∀ e ∈ v.elements, e.parentName = v.localName

theorem Variable.namedByElements_ofNode {catalog : Catalog} {d : Dictionary} {node : Node}
    {v : Variable} (h : (Variable.ofNode catalog d node).outcome = .ok v) : v.NamedByElements := by
  obtain ⟨-, -, -, -, -, helements, -⟩ := Variable.ofNode_eq_ok h
  intro e he
  obtain ⟨child, -, hchild⟩ := exists_left_of_forall₂ (forall₂_of_mapM_eq_ok helements) he
  obtain ⟨-, -, -, -, -, hname⟩ := Element.ofNode_eq_ok hchild
  exact hname

namespace Route

theorem allocations_leafAt (r : Route) : (r.leafAt "").allocations = r.allocations := by
  simp only [Leaf.allocations, allocations, leafAt, String.empty_append, ← r.target_eq]
  cases r.leaf.storage <;> rfl

/-- An element that declares an initial value is assigned this value, once. -/
theorem initialization_of_declares {e : Element} (h : e.declaresInitialValue = true) (path : String) :
    Leaf.initialization path e.target e.runtimeInitialValue? =
      [.assign (path ++ e.target) (e.initialValue.getD "")] := by
  have hvalue : e.runtimeInitialValue? = e.initialValue := if_pos h
  rw [hvalue]
  cases hinit : e.initialValue with
  | none => simp [Quantity.declaresInitialValue, hinit] at h
  | some value => rfl

theorem initializations_leafAt {r : Route} (h : r.leaf.NamedByElements) :
    (r.leafAt "").initializations = r.initializations := by
  have helements : ((r.leaf.elements.filter (·.declaresInitialValue)).flatMap fun e =>
        Leaf.initialization r.front e.target e.runtimeInitialValue?) =
      (r.leaf.elements.filter (·.declaresInitialValue)).map fun e =>
        .assign (r.target ++ "(" ++ Text.join "," e.subscripts ++ ")") (e.initialValue.getD "") := by
    rw [List.map_eq_flatMap]
    refine List.flatMap_congr fun e he => ?_
    obtain ⟨hmem, hdeclares⟩ := List.mem_filter.mp he
    rw [initialization_of_declares hdeclares, Element.target, h e hmem, target_eq]
    simp only [String.append_assoc]
  have hown : Leaf.initialization r.front r.leaf.target r.leaf.runtimeInitialValue? =
      r.leaf.runtimeInitialValue?.toList.map (.assign r.target) := by
    rw [target_eq]
    cases r.leaf.runtimeInitialValue? <;> rfl
  simp only [Leaf.initializations, initializations, leafAt, String.empty_append, helements, hown,
    beq_iff_eq]

theorem steps_leafAt {r : Route} (h : r.leaf.NamedByElements) : (r.leafAt "").steps = r.steps := by
  rw [Leaf.steps, steps, allocations_leafAt, initializations_leafAt h]

end Route

theorem Route.allocations_eq {r : Route}
    (h : r.leaf.storage = .pointer ∨ r.leaf.storage = .allocatable) :
    ∃ check extents, r.allocations =
      [.allocate r.target check (r.leaf.storage == .pointer) extents] := by
  unfold allocations
  rcases h with h | h
  · rw [h]
    exact ⟨_, _, rfl⟩
  · rw [h]
    exact ⟨_, _, rfl⟩

/-- Only an allocated leaf has an allocation among its steps, and it is the leaf's own. -/
theorem Route.of_allocate_mem {r : Route} {target check extents : String} {nullify : Bool}
    (h : .allocate target check nullify extents ∈ r.steps) :
    (r.leaf.storage = .pointer ∨ r.leaf.storage = .allocatable) ∧ target = r.target ∧
      nullify = (r.leaf.storage == .pointer) := by
  rcases List.mem_append.mp h with h | h
  · unfold allocations at h
    cases hstorage : r.leaf.storage with
    | pointer | allocatable =>
        rw [hstorage] at h
        cases List.mem_singleton.mp h
        simp
    | plain | target | parameter => rw [hstorage] at h; cases h
  · unfold initializations at h
    split at h
    · cases h
    · simp at h

/-! ## The steps of a routine -/

/-- Where a routine can be built, its steps are those of all chains of members that begin in the dictionary
and end in storage, each chain once and depth first. So the initial values of a leaf that is allocated
stand right behind its allocation. -/
theorem steps_follow_leaves (dycore : String) (settings : Settings) (requests : List Request)
    (ranking : Ranking) :
    let run := (Compilation.start dycore settings).after requests
    let catalog := run.context.catalog
    ∀ unit ∈ run.units, ∀ routine ranking',
      (AllocationRoutine.build unit catalog).outcome ranking = (.ok routine, ranking') →
      ∃ routes, Route.Enumerates (catalog.LeadsFrom 0 unit.dictionary.declared) routes ∧
        routine.steps = routes.flatMap Route.steps ∧
        ∀ r ∈ routes, r.leaf.storage = .pointer ∨ r.leaf.storage = .allocatable →
          ∃ before check extents after, routine.steps = before ++
            .allocate r.target check (r.leaf.storage == .pointer) extents ::
              (r.initializations ++ after) := by
  intro run catalog unit hu routine ranking' hbuild
  have hs : run.Sound := ((Compilation.sound_start dycore settings).after requests).1
  obtain ⟨hmembers, hdeclared⟩ := Compilation.member_invariant
    (memberInvariant_forall Variable.namedByElements_ofNode) dycore settings requests
  obtain ⟨leaves, hl, hsteps, -⟩ := build_eq_ok hbuild
  obtain ⟨parts, hparts, rfl⟩ := map_eq_ok hl
  obtain ⟨routes, hroutes, hleaves⟩ := Catalog.enumerates_leadsFrom
    ((forall₂_of_mapM_eq_ok hparts).imp fun _ _ => Catalog.enumerates_leads) 0
  have hnamed : ∀ r ∈ routes, r.leaf.NamedByElements := by
    intro r hr
    have hleaf : r.leafAt "" ∈ parts.flatten := hleaves ▸ List.mem_map_of_mem hr
    obtain ⟨v, hv, part, hpart, hleaf⟩ := mem_of_mapM_map_flatten hl hleaf
    rcases stored_of_mem_leavesWithin hpart hleaf with hstored | ⟨name, a, ha, hstored⟩
    · obtain rfl : r.leaf = v := hstored
      exact hdeclared unit hu _ hv
    · obtain ⟨n, b, hb, hmem⟩ := hs.built.member_of_mem_flatten ha hstored
      exact hmembers.of_aggregate? hb _ hmem
  have hsteps : routine.steps = routes.flatMap Route.steps := by
    rw [hsteps, hleaves, List.flatMap_map]
    exact List.flatMap_congr fun r hr => Route.steps_leafAt (hnamed r hr)
  refine ⟨routes, hroutes, hsteps, fun r hr hstorage => ?_⟩
  obtain ⟨check, extents, halloc⟩ := Route.allocations_eq hstorage
  obtain ⟨front, back, rfl⟩ := List.append_of_mem hr
  refine ⟨front.flatMap Route.steps, check, extents, back.flatMap Route.steps, ?_⟩
  rw [hsteps, List.flatMap_append, List.flatMap_cons, Route.steps, halloc]
  rfl

/-- A type that extends another and a variable of it, beside a parameter and the index of an element that
declares its own initial value. -/
def chainRegistry : Node where
  tag := "registry"
  children :=
    [{ tag := "file"
       attributes := [("name", "base_types"), ("type", "module")]
       children :=
         [{ tag := "array"
            attributes := [("allocatable", "pointer"), ("local_name", "t"),
              ("standard_name", "air_temperature"), ("type", "real")]
            children := [{ tag := "dimensions", text := some "horizontal_dimension" }] },
          { tag := "ddt"
            attributes := [("type", "base_state")]
            children := [{ tag := "data", text := some "air_temperature" }] }] },
     { tag := "file"
       attributes := [("name", "physics_types"), ("type", "module")]
       children :=
         [{ tag := "variable"
            attributes := [("local_name", "ix_q"), ("standard_name", "index_of_water_vapor"),
              ("type", "integer")] },
          { tag := "variable"
            attributes := [("allocatable", "parameter"), ("local_name", "pi"),
              ("standard_name", "pi"), ("type", "real")]
            children := [{ tag := "initial_value", text := some "3.14" }] },
          { tag := "array"
            attributes := [("allocatable", "allocatable"), ("local_name", "q"),
              ("standard_name", "mixing_ratio"), ("type", "real")]
            children :=
              [{ tag := "dimensions", text := some "horizontal_dimension number_of_constituents" },
               { tag := "element"
                 attributes := [("index_name", "index_of_water_vapor"),
                   ("index_pos", "number_of_constituents"),
                   ("standard_name", "water_vapor_mixing_ratio")]
                 children := [{ tag := "initial_value", text := some "0.0" }] }] },
          { tag := "ddt"
            attributes := [("extends", "base_state"), ("type", "physics_state")]
            children := [{ tag := "data", text := some "mixing_ratio" }] },
          { tag := "variable"
            attributes := [("local_name", "state"), ("standard_name", "physics_state_instance"),
              ("type", "physics_state")] }] }]

/-- The steps of the second file: the parameter has none, and each member is allocated first. -/
def chainSteps : List AllocationStep :=
  [.assign "ix_q" "HUGE(1)",
   .allocate "state%q" "allocated" false "(horizontal_dimension, number_of_constituents)",
   .assign "state%q" "nan",
   .assign "state%q(:,ix_q)" "0.0",
   .allocate "state%t" "associated" true "(horizontal_dimension)",
   .assign "state%t" "nan"]

theorem chainRegistry_steps :
    let run := (Compilation.start "se" []).after [.compile chainRegistry]
    ∃ unit ∈ run.units, ∃ routine ranking,
      (AllocationRoutine.build unit run.context.catalog).outcome .initial = (.ok routine, ranking) ∧
      routine.steps = chainSteps ∧
      ∃ routes : List Route, routine.steps = routes.flatMap Route.steps ∧
        ∃ r ∈ routes, r.leaf.storage = .pointer ∧ r.target = "state%t" ∧
          run.context.catalog.LeadsFrom 0 unit.dictionary.declared r ∧
          ∃ before check extents after, routine.steps = before ++
            .allocate "state%t" check true extents :: (r.initializations ++ after) := by
  have hunit :
      let run := (Compilation.start "se" []).after [.compile chainRegistry]
      ∃ unit ∈ run.units,
        ((AllocationRoutine.build unit run.context.catalog).outcome .initial).1.toOption.any
          (fun routine => routine.steps = chainSteps) = true := by
    decide +kernel
  have hmain := steps_follow_leaves "se" [] [.compile chainRegistry] .initial
  generalize (Compilation.start "se" []).after [.compile chainRegistry] = run at hunit hmain ⊢
  obtain ⟨unit, hu, hroutine⟩ := hunit
  obtain ⟨routine, hroutine, hsteps⟩ := Action.outcome_eq_ok_of_any hroutine
  have hsteps := of_decide_eq_true hsteps
  obtain ⟨routes, hroutes, hflat, hafter⟩ := hmain unit hu routine _ hroutine
  have hmem : .allocate "state%t" "associated" true "(horizontal_dimension)" ∈
      routes.flatMap Route.steps := by
    rw [← hflat, hsteps]
    decide
  obtain ⟨r, hr, hstep⟩ := List.mem_flatMap.mp hmem
  obtain ⟨hstorage, htarget, hpointer⟩ := Route.of_allocate_mem hstep
  obtain ⟨before, check, extents, after, hsplit⟩ := hafter r hr hstorage
  rw [← htarget, ← hpointer] at hsplit
  exact ⟨unit, hu, routine, _, hroutine, hsteps, routes, hflat, r, hr,
    beq_iff_eq.mp hpointer.symm, htarget.symm, (hroutes.mem r).mp hr, before, check, extents, after,
    hsplit⟩

end FieldRegistry
