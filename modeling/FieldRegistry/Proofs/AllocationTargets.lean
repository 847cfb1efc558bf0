import FieldRegistry.Proofs.DictionaryCalls
import FieldRegistry.Proofs.Extents
import FieldRegistry.Proofs.GenerationFaults
import FieldRegistry.Proofs.LowerCase
import FieldRegistry.Proofs.VariableHistory

/-!
# What a routine allocates, and how often

The target of an allocation is the path of local names that leads to it. Local names differ, in any letter
case, within a dictionary and within the own members of a type, but a type may declare a name that one of
its ancestors has. Where no name holds the separator of paths, this is the only way to one target twice.
-/

namespace FieldRegistry

/-! ## Distinct local names along a run -/

/-- The own members of every derived type have different local names. -/
def Catalog.MembersDistinct (c : Catalog) : Prop :=
  ∀ entry ∈ c.entries, ∀ a, entry.aggregate = some a →
    (a.members.map fun v => Text.lower v.localName).Nodup

/-- Members come out of one dictionary, so their names differ as the names there do. -/
theorem memberInvariant_distinct :
    MemberInvariant Dictionary.Keyed fun vs => (vs.map fun v => Text.lower v.localName).Nodup where
  empty := Dictionary.keyed_empty
  add hd _ ha := hd.add ha
  moves hd hm := by
    have hp := hm.perm.map fun v => Text.lower v.localName
    rw [List.map_append] at hp
    obtain ⟨hvs, -, -⟩ := List.nodup_append.mp (hp.nodup_iff.mp hd.localNames_nodup)
    exact ⟨hvs, hm.invariant (fun _ _ _ _ => Dictionary.Keyed.take) hd⟩

namespace Compilation

structure NamesDistinct (c : Compilation) : Prop where
  members : c.context.catalog.MembersDistinct
  units : ∀ unit ∈ c.units, (unit.dictionary.declared.map fun v => Text.lower v.localName).Nodup

theorem namesDistinct_after (dycore : String) (settings : Settings) (requests : List Request) :
    ((start dycore settings).after requests).NamesDistinct := by
  obtain ⟨hmembers, hunits⟩ := member_invariant memberInvariant_distinct dycore settings requests
  exact ⟨hmembers, fun unit hu => (hunits unit hu).localNames_nodup⟩

end Compilation

/-! ## Targets -/

/-- The target of an allocation, in lower case. -/
def AllocationStep.target? : AllocationStep → Option String
  | allocate target _ _ _ => some (Text.lower target)
  | assign _ _ => none

def AllocationRoutine.targets (routine : AllocationRoutine) : List String :=
  routine.steps.filterMap AllocationStep.target?

namespace Leaf

def targets (leaf : Leaf) : List String := leaf.steps.filterMap AllocationStep.target?

/-- A leaf at a longer path. -/
def under (leaf : Leaf) (path : String) : Leaf := { leaf with path := path ++ leaf.path }

theorem initializations_targets (leaf : Leaf) :
    leaf.initializations.filterMap AllocationStep.target? = [] := by
  have hassign : ∀ path target value,
      (initialization path target value).filterMap AllocationStep.target? = [] := by
    intro path target value
    cases value <;> rfl
  unfold initializations
  split
  · rfl
  · rw [List.filterMap_append, hassign, List.nil_append, List.filterMap_flatMap]
    simp [hassign]

theorem targets_eq (leaf : Leaf) :
    leaf.targets = if leaf.stored.storage.statusCheck?.isSome then
      [Text.lower (leaf.path ++ leaf.stored.localName)] else [] := by
  rw [targets, steps, List.filterMap_append, initializations_targets, List.append_nil, allocations]
  cases leaf.stored.storage.statusCheck? <;> rfl

theorem targets_under (leaf : Leaf) (name : String) :
    (leaf.under (name ++ "%")).targets = leaf.targets.map (Text.lower name ++ "%" ++ ·) := by
  have hpath : (name ++ "%" ++ leaf.path) ++ leaf.stored.localName =
      name ++ "%" ++ (leaf.path ++ leaf.stored.localName) := String.append_assoc
  rw [targets_eq, targets_eq, under]
  dsimp only
  rw [hpath, Text.lower_append_percent]
  split <;> rfl

end Leaf

namespace Catalog

variable {c : Catalog} {scope path : String} {v w : Variable} {vs : List Variable}
  {a : Aggregate} {line line' : List Aggregate}

/-- The path to a variable stands in front of the paths to its leaves and decides nothing. -/
theorem Built.leavesAt_under (h : Built c) (hv : c.Resolves v.type) (scope front path : String) :
    c.leavesAt scope (front ++ path) v =
      (c.leavesAt scope path v).map (List.map (Leaf.under · front)) := by
  induction v using h.wellFounded_descends.induction generalizing path with
  | _ v ih =>
      rcases h.leavesAt_cases hv scope with ⟨-, hl⟩ | ⟨-, hl⟩ | ⟨a, hagg, hd, ha, hl⟩
      · rw [hl, hl]; rfl
      · rw [hl, hl]; rfl
      · have hmembers : ∀ m ∈ c.flatten a, c.leavesAt scope (front ++ path ++ v.localName ++ "%") m =
            (c.leavesAt scope (path ++ v.localName ++ "%") m).map (List.map (Leaf.under · front)) := by
          intro m hm
          have hpath : front ++ path ++ v.localName ++ "%" = front ++ (path ++ v.localName ++ "%") := by
            simp only [String.append_assoc]
          rw [hpath]
          exact ih m ⟨hagg, hd, a, ha, hm⟩ (h.resolves_of_mem_flatten ha hm) _
        rw [hl, hl, mapM_congr_left hmembers, mapM_map_right]
        cases (c.flatten a).mapM fun m => c.leavesAt scope (path ++ v.localName ++ "%") m with
        | error fault => rfl
        | ok parts => exact congrArg Except.ok List.map_flatten.symm

/-- The targets in the storage of a variable, where it has no path; none if there is no way to its
leaves. -/
def targetsBelow (c : Catalog) (scope : String) (v : Variable) : List String :=
  ((c.leavesAt scope "" v).toOption.getD []).flatMap Leaf.targets

/-- A variable is a target itself, or its name stands in front of the targets of its members. -/
theorem Built.targetsBelow_cases (h : Built c) (hv : c.Resolves v.type) {leaves : List Leaf}
    (hok : c.leavesAt scope "" v = .ok leaves) :
    (v.type.isAggregate = false ∧ c.targetsBelow scope v =
      if v.storage.statusCheck?.isSome then [Text.lower v.localName] else []) ∨
    ∃ a, v.type.isAggregate = true ∧ v.dimensions = [] ∧ c.aggregate? v.type.name = some a ∧
      (∀ m ∈ c.flatten a, ∃ part, c.leavesAt scope "" m = .ok part) ∧
      c.targetsBelow scope v = ((c.flatten a).flatMap (c.targetsBelow scope)).map
        (Text.lower v.localName ++ "%" ++ ·) := by
  unfold targetsBelow
  rcases h.leavesAt_cases hv scope with ⟨hno, hl⟩ | ⟨-, hl⟩ | ⟨a, hagg, hd, ha, hl⟩
  · refine Or.inl ⟨hno, ?_⟩
    rw [hl]
    simp [Except.toOption, Leaf.targets_eq]
  · rw [hl] at hok; cases hok
  · have hmembers : ∀ m ∈ c.flatten a, c.leavesAt scope ("" ++ v.localName ++ "%") m =
        (c.leavesAt scope "" m).map (List.map (Leaf.under · (v.localName ++ "%"))) := by
      intro m hm
      rw [← h.leavesAt_under (h.resolves_of_mem_flatten ha hm)]
      simp
    rw [hl, mapM_congr_left hmembers, mapM_map_right] at hok ⊢
    obtain ⟨parts', hparts', -⟩ := map_eq_ok hok
    obtain ⟨parts, hparts, -⟩ := map_eq_ok hparts'
    refine Or.inr ⟨a, hagg, hd, ha, fun m hm => exists_of_mapM_eq_ok hparts hm, ?_⟩
    have hflat := flatten_of_mapM_eq_ok hparts
    rw [hparts]
    change (parts.map (List.map (Leaf.under · (v.localName ++ "%")))).flatten.flatMap Leaf.targets = _
    rw [← List.map_flatten, List.flatMap_map, hflat]
    simp only [Leaf.targets_under, List.flatMap_assoc, List.map_flatMap]

/-! ## Targets that differ -/

/-- A variable that the walk can follow to its leaves, under names without the separator. -/
structure Walks (c : Catalog) (scope : String) (v : Variable) : Prop where
  resolves : c.Resolves v.type
  leaves : ∃ leaves, c.leavesAt scope "" v = .ok leaves
  names : ∀ w, c.Reaches v w → '%' ∉ w.localName.toList

theorem Walks.firstName_eq (h : Built c) (hv : c.Walks scope v) {x : String}
    (hx : x ∈ c.targetsBelow scope v) : Text.firstName x = (Text.lower v.localName).toList := by
  have hname := Text.isSign_percent.notMem_lower (hv.names v .refl)
  obtain ⟨leaves, hok⟩ := hv.leaves
  rcases h.targetsBelow_cases hv.resolves hok with ⟨-, ht⟩ | ⟨a, -, -, -, -, ht⟩
  · rw [ht] at hx
    split at hx
    · rw [List.mem_singleton.mp hx, Text.firstName_of_notMem hname]
    · cases hx
  · rw [ht] at hx
    obtain ⟨y, -, rfl⟩ := List.mem_map.mp hx
    exact Text.firstName_append hname y

theorem Walks.member (h : Built c) (hv : c.Walks scope v) (hagg : v.type.isAggregate = true)
    (ha : c.aggregate? v.type.name = some a) (hw : w ∈ c.flatten a)
    (hok : ∃ leaves, c.leavesAt scope "" w = .ok leaves) : c.Walks scope w :=
  ⟨h.resolves_of_mem_flatten ha hw, hok, fun x hx => hv.names x (.head ⟨hagg, a, ha, hw⟩ hx)⟩

theorem Built.member_of_reaches (h : Built c) (hr : c.Reaches v w) :
    w = v ∨ ∃ n b, c.aggregate? n = some b ∧ w ∈ b.members := by
  rcases Relation.ReflTransGen.cases_tail hr with rfl | ⟨m, -, -, a, ha, hw⟩
  · exact Or.inl rfl
  · exact Or.inr (h.member_of_mem_flatten ha hw)

/-- Variables of the same name have no target in common. -/
def Apart (c : Catalog) (scope : String) (v w : Variable) : Prop :=
  Text.lower v.localName = Text.lower w.localName →
    List.Disjoint (c.targetsBelow scope v) (c.targetsBelow scope w)

theorem nodup_flatMap_targetsBelow (h : Built c) (hvs : ∀ v ∈ vs, c.Walks scope v) :
    (vs.flatMap (c.targetsBelow scope)).Nodup ↔
      (∀ v ∈ vs, (c.targetsBelow scope v).Nodup) ∧ vs.Pairwise (c.Apart scope) := by
  rw [List.nodup_flatMap]
  refine and_congr_right fun _ => List.Pairwise.iff_of_mem fun {v w} hv hw => ?_
  constructor
  · exact fun hd _ => hd
  · intro hd x hx hx'
    -- a common target begins with both names
    have hname : (Text.lower v.localName).toList = (Text.lower w.localName).toList :=
      ((hvs v hv).firstName_eq h hx).symm.trans ((hvs w hw).firstName_eq h hx')
    exact hd (String.toList_inj.mp hname) hx hx'

/-- The targets below a variable differ if and only if members of the same name are apart in every type
that the walk enters. -/
theorem Walks.nodup_iff (h : Built c) (hv : c.Walks scope v) :
    (c.targetsBelow scope v).Nodup ↔ ∀ w, c.Reaches v w → ∀ a, w.type.isAggregate = true →
      c.aggregate? w.type.name = some a → (c.flatten a).Pairwise (c.Apart scope) := by
  induction v using h.wellFounded_descends.induction with
  | _ v ih =>
      obtain ⟨leaves, hok⟩ := hv.leaves
      rcases h.targetsBelow_cases hv.resolves hok with ⟨hno, ht⟩ | ⟨a, hagg, hd, ha, hparts, ht⟩
      · rw [ht]
        constructor
        · intro _ w hw b hb
          rcases Relation.ReflTransGen.cases_head hw with rfl | ⟨m, ⟨hagg, -⟩, -⟩
          · rw [hno] at hb; cases hb
          · rw [hno] at hagg; cases hagg
        · intro _
          split <;> simp
      · have hmembers : ∀ m ∈ c.flatten a, c.Walks scope m :=
          fun m hm => hv.member h hagg ha hm (hparts m hm)
        have hih : ∀ m ∈ c.flatten a, _ := fun m hm => ih m ⟨hagg, hd, a, ha, hm⟩ (hmembers m hm)
        have hfront : Function.Injective (Text.lower v.localName ++ "%" ++ ·) :=
          fun _ _ => (String.append_right_inj _).mp
        rw [ht, List.nodup_map_iff hfront, nodup_flatMap_targetsBelow h hmembers]
        constructor
        · rintro ⟨hbelow, hpairs⟩ w hw b hb hl
          rcases Relation.ReflTransGen.cases_head hw with rfl | ⟨m, ⟨-, a', ha', hm⟩, hmw⟩
          · rw [ha] at hl; cases hl
            exact hpairs
          · rw [ha] at ha'; cases ha'
            exact (hih m hm).mp (hbelow m hm) w hmw b hb hl
        · intro hall
          refine ⟨fun m hm => (hih m hm).mpr fun w hmw => ?_, hall v .refl a hagg ha⟩
          exact hall w (.head ⟨hagg, a, ha, hm⟩ hmw)

/-! ## Names that a type has from its ancestors -/

theorem Lineage.unique (h : c.Lineage a line) (h' : c.Lineage a line') : line = line' := by
  induction h generalizing line' with
  | root ha =>
      cases h' with
      | root _ => rfl
      | extend ha' _ _ => rw [ha] at ha'; cases ha'
  | extend ha hb _ ih =>
      cases h' with
      | root ha' => rw [ha] at ha'; cases ha'
      | extend ha' hb' hl' =>
          rw [ha] at ha'; cases ha'
          rw [hb] at hb'; cases hb'
          rw [ih hl']

/-- Own members of a type are apart from the members of the same name that its ancestors have, and so on
along the ancestors. -/
def KeepsApart (c : Catalog) (scope : String) (line : List Aggregate) : Prop :=
  line.Pairwise fun a b => ∀ v ∈ a.members, ∀ w ∈ b.members, c.Apart scope v w

theorem Lineage.pairwise_flatten_iff (hl : c.Lineage a line) (h : Built c) (hc : c.MembersDistinct)
    {name : String} (ha : c.aggregate? name = some a) :
    (c.flatten a).Pairwise (c.Apart scope) ↔ c.KeepsApart scope line := by
  obtain ⟨line', hl', hlen, hline⟩ := h.exists_lineage ha
  cases hl.unique hl'
  rw [hl.flatten_eq hlen, List.pairwise_flatMap]
  refine and_iff_right fun b hb => ?_
  obtain ⟨n, hn⟩ := hline b hb
  obtain ⟨entry, he, hb⟩ := aggregate?_eq_some.mp hn
  have hdistinct := List.pairwise_map.mp (hc entry (mem_of_lookup? he) b hb)
  exact hdistinct.imp fun hne heq => absurd heq hne

end Catalog

/-! ## The guards of a routine -/

/-- One step of a routine that may not reallocate, where the storage `held` is allocated: it ends the run
at storage that is there already. -/
def AllocationStep.guarded (held : List String) : AllocationStep → Option (List String)
  | allocate target _ _ _ =>
    if Text.lower target ∈ held then none else some (Text.lower target :: held)
  | assign _ _ => some held

theorem guarded_eq_some {steps : List AllocationStep} {held held' : List String} :
    steps.foldlM AllocationStep.guarded held = some held' ↔
      (steps.filterMap AllocationStep.target?).Nodup ∧
      (∀ x ∈ steps.filterMap AllocationStep.target?, x ∉ held) ∧
      held' = (steps.filterMap AllocationStep.target?).reverse ++ held := by
  induction steps generalizing held with
  | nil => simp [eq_comm]
  | cons step steps ih =>
      rw [List.foldlM_cons]
      cases step with
      | assign target value => exact ih
      | allocate target check nullify extents =>
          rw [List.filterMap_cons_some (by rfl), List.nodup_cons, List.reverse_cons, List.append_assoc]
          by_cases hheld : Text.lower target ∈ held
          · have hstep : AllocationStep.guarded held (.allocate target check nullify extents) = none :=
              if_pos hheld
            rw [hstep]
            constructor
            · intro h; cases h
            · rintro ⟨-, hfree, -⟩
              exact absurd hheld (hfree _ List.mem_cons_self)
          · have hstep : AllocationStep.guarded held (.allocate target check nullify extents) =
              some (Text.lower target :: held) := if_neg hheld
            rw [hstep, Option.bind_eq_bind, Option.bind_some, ih]
            constructor
            · rintro ⟨hnodup, hfree, rfl⟩
              refine ⟨⟨fun hm => hfree _ hm List.mem_cons_self, hnodup⟩, fun x hx => ?_, rfl⟩
              rcases List.mem_cons.mp hx with rfl | hx
              · exact hheld
              · exact fun hm => hfree x hx (List.mem_cons_of_mem _ hm)
            · rintro ⟨⟨hnew, hnodup⟩, hfree, rfl⟩
              refine ⟨hnodup, fun x hx hm => ?_, rfl⟩
              rcases List.mem_cons.mp hm with rfl | hm
              · exact hnew hx
              · exact hfree x (List.mem_cons_of_mem _ hx) hm

/-- The targets of a routine are those below the variables of its file, all of which the walk follows. -/
theorem targets_of_build {unit : FileUnit} {c : Catalog} {ranking ranking' : Ranking}
    {routine : AllocationRoutine}
    (h : (AllocationRoutine.build unit c).outcome ranking = (.ok routine, ranking')) :
    (∀ v ∈ unit.dictionary.declared, ∃ leaves, c.leavesAt unit.name "" v = .ok leaves) ∧
      routine.targets = unit.dictionary.declared.flatMap (c.targetsBelow unit.name) := by
  obtain ⟨leaves, hl, hsteps, -⟩ := build_eq_ok h
  obtain ⟨parts, hparts, hleaves⟩ := map_eq_ok hl
  refine ⟨fun v hv => exists_of_mapM_eq_ok hparts hv, ?_⟩
  rw [AllocationRoutine.targets, hsteps, ← hleaves, flatten_of_mapM_eq_ok hparts,
    List.filterMap_flatMap, List.flatMap_assoc]
  rfl

namespace Compilation

/-- The targets of a routine differ, in any letter case, if and only if the routine gets to its end where
nothing is allocated before and it may not reallocate. Where no name on the way holds the separator of
paths, this is when in every type that the walk enters the members are apart from those of the same name
that the ancestors have. -/
theorem allocation_targets_distinct_iff (dycore : String) (settings : Settings)
    (requests : List Request) (ranking : Ranking) :
    let run := (start dycore settings).after requests
    let catalog := run.context.catalog
    ∀ unit ∈ run.units, ∀ routine ranking',
      (AllocationRoutine.build unit catalog).outcome ranking = (.ok routine, ranking') →
      (routine.targets.Nodup ↔
        ∃ held, routine.steps.foldlM AllocationStep.guarded [] = some held) ∧
      ((∀ v ∈ unit.dictionary.declared, ∀ w, catalog.Reaches v w → '%' ∉ w.localName.toList) →
        (routine.targets.Nodup ↔ ∀ v ∈ unit.dictionary.declared, ∀ w, catalog.Reaches v w →
          ∀ a line, w.type.isAggregate = true → catalog.aggregate? w.type.name = some a →
            catalog.Lineage a line → catalog.KeepsApart unit.name line)) := by
  intro run catalog unit hu routine ranking' hbuild
  have hs : run.Sound := ((sound_start dycore settings).after requests).1
  have hd : run.NamesDistinct := namesDistinct_after dycore settings requests
  obtain ⟨added, own, hset⟩ := hs.settled unit hu
  obtain ⟨hleaves, htargets⟩ := targets_of_build hbuild
  have hapart : unit.dictionary.declared.Pairwise (catalog.Apart unit.name) :=
    (List.pairwise_map.mp (hd.units unit hu)).imp fun hne heq => absurd heq hne
  constructor
  · constructor
    · intro hnodup
      exact ⟨_, guarded_eq_some.mpr ⟨hnodup, fun x _ => List.not_mem_nil, rfl⟩⟩
    · rintro ⟨held, hheld⟩
      exact (guarded_eq_some.mp hheld).1
  · intro hnames
    have hwalks : ∀ v ∈ unit.dictionary.declared, catalog.Walks unit.name v := fun v hv =>
      ⟨hset.resolved v hv, hleaves v hv, hnames v hv⟩
    rw [htargets, Catalog.nodup_flatMap_targetsBelow hs.built hwalks, and_iff_left hapart]
    constructor
    · intro hall v hv w hw a line hagg ha hline
      have hpairs := ((hwalks v hv).nodup_iff hs.built).mp (hall v hv) w hw a hagg ha
      exact (hline.pairwise_flatten_iff hs.built hd.members ha).mp hpairs
    · intro hall v hv
      rw [(hwalks v hv).nodup_iff hs.built]
      intro w hw a hagg ha
      obtain ⟨line, hline, -⟩ := hs.built.exists_lineage ha
      exact (hline.pairwise_flatten_iff hs.built hd.members ha).mpr (hall v hv w hw a line hagg ha hline)

/-! ## One target twice -/

def fieldArray (localName standardName : String) : Node where
  tag := "array"
  attributes := [("allocatable", "allocatable"), ("local_name", localName),
    ("standard_name", standardName), ("type", "real")]
  children := [{ tag := "dimensions", text := some "horizontal_dimension" }]

/-- A file with a type that has the member `t`, and a file that extends it by a member of the given name
and has a variable `state` of the new type besides `more`. -/
def inheritedRegistry (localName : String) (more : List Node) : Node where
  tag := "registry"
  children :=
    [{ tag := "file"
       attributes := [("name", "base_types"), ("type", "module")]
       children :=
         [fieldArray "t" "air_temperature",
          { tag := "ddt"
            attributes := [("type", "base_state")]
            children := [{ tag := "data", text := some "air_temperature" }] }] },
     { tag := "file"
       attributes := [("name", "physics_types"), ("type", "module")]
       children :=
         [fieldArray localName "potential_temperature",
          { tag := "ddt"
            attributes := [("type", "physics_state"), ("extends", "base_state")]
            children := [{ tag := "data", text := some "potential_temperature" }] },
          { tag := "variable"
            attributes := [("local_name", "state"), ("standard_name", "physics_state_instance"),
              ("type", "physics_state")] }] ++ more }]

/-- A registry has a routine that allocates `state%t` twice and does not run to its end. -/
def AllocatesTwice (root : Node) : Prop :=
  ∃ run, (compile root).outcome (start "se" []) = (.ok (), run) ∧
    ∃ unit ∈ run.units, ∃ routine ranking,
      (AllocationRoutine.build unit run.context.catalog).outcome run.context.ranking =
        (.ok routine, ranking) ∧
      routine.targets.count "state%t" = 2 ∧
      routine.steps.foldlM AllocationStep.guarded [] = none

/-- A member with the name of an inherited one, in another letter case, and a variable with the separator
in its name. -/
theorem state_t_allocated_twice : AllocatesTwice (inheritedRegistry "T" []) ∧
    AllocatesTwice (inheritedRegistry "theta" [fieldArray "state%t" "temperature_tendency"]) := by
  suffices h : ∀ root ∈ [inheritedRegistry "T" [],
      inheritedRegistry "theta" [fieldArray "state%t" "temperature_tendency"]],
      AllocatesTwice root from
    ⟨h _ List.mem_cons_self, h _ (List.mem_cons_of_mem _ List.mem_cons_self)⟩
  intro root hroot
  have hok : ((compile root).outcome (start "se" [])).1.toOption.any (fun _ => true) = true := by
    revert root
    decide +kernel
  have htwice :
      let run := ((compile root).outcome (start "se" [])).2
      ∃ unit ∈ run.units, ((AllocationRoutine.build unit run.context.catalog).outcome
        run.context.ranking).1.toOption.any (fun routine => routine.targets.count "state%t" = 2 ∧
          routine.steps.foldlM AllocationStep.guarded [] = none) = true := by
    revert root
    decide +kernel
  obtain ⟨done, hrun, -⟩ := Action.outcome_eq_ok_of_any hok
  -- the run is only a name from here on, so that nothing evaluates it again
  generalize ((compile root).outcome (start "se" [])).2 = run at hrun htwice
  obtain ⟨unit, hu, htwice⟩ := htwice
  obtain ⟨routine, hroutine, htwice⟩ := Action.outcome_eq_ok_of_any htwice
  exact ⟨run, hrun, unit, hu, routine, _, hroutine, of_decide_eq_true htwice⟩

/-- A member of another name is apart from the inherited one, and the routine runs to its end. -/
theorem inheritedRegistry_distinct :
    let run := (start "se" []).after [.compile (inheritedRegistry "theta" [])]
    ∃ unit ∈ run.units, ∃ routine ranking,
      (AllocationRoutine.build unit run.context.catalog).outcome run.context.ranking =
        (.ok routine, ranking) ∧
      (∀ v ∈ unit.dictionary.declared, ∀ w, run.context.catalog.Reaches v w →
        '%' ∉ w.localName.toList) ∧
      routine.targets = ["state%theta", "state%t"] ∧
      (∃ held, routine.steps.foldlM AllocationStep.guarded [] = some held) ∧
      ∃ v ∈ unit.dictionary.declared, ∃ a b, run.context.catalog.aggregate? v.type.name = some a ∧
        run.context.catalog.Lineage a [a, b] ∧ run.context.catalog.KeepsApart unit.name [a, b] := by
  have hunit :
      let run := (start "se" []).after [.compile (inheritedRegistry "theta" [])]
      ∃ unit ∈ run.units,
        ((AllocationRoutine.build unit run.context.catalog).outcome run.context.ranking).1.toOption.any
          (fun routine => routine.targets = ["state%theta", "state%t"]) = true ∧
        (∀ v ∈ unit.dictionary.declared, '%' ∉ v.localName.toList) ∧
        ∃ v ∈ unit.dictionary.declared, v.type.isAggregate = true ∧
          (run.context.catalog.aggregate? v.type.name).any (fun a =>
            (a.parent.bind run.context.catalog.aggregate?).any fun b => b.parent = none) = true := by
    decide +kernel
  have hmembers :
      let run := (start "se" []).after [.compile (inheritedRegistry "theta" [])]
      ∀ entry ∈ run.context.catalog.entries, ∀ v ∈ entry.aggregate.elim [] (·.members),
        '%' ∉ v.localName.toList := by
    decide +kernel
  have hbuilt := ((sound_start "se" []).after [.compile (inheritedRegistry "theta" [])]).1.built
  have hmain := allocation_targets_distinct_iff "se" [] [.compile (inheritedRegistry "theta" [])]
  generalize (start "se" []).after [.compile (inheritedRegistry "theta" [])] = run
    at hunit hmembers hbuilt hmain ⊢
  obtain ⟨unit, hu, hroutine, hdeclared, v, hv, hagg, hline⟩ := hunit
  obtain ⟨routine, hroutine, htargets⟩ := Action.outcome_eq_ok_of_any hroutine
  have htargets := of_decide_eq_true htargets
  have hnames : ∀ v ∈ unit.dictionary.declared, ∀ w, run.context.catalog.Reaches v w →
      '%' ∉ w.localName.toList := by
    intro v hv w hw
    rcases hbuilt.member_of_reaches hw with rfl | ⟨n, a, ha, hw⟩
    · exact hdeclared w hv
    · obtain ⟨entry, he, ha⟩ := Catalog.aggregate?_eq_some.mp ha
      exact hmembers entry (Catalog.mem_of_lookup? he) w (by rw [ha]; exact hw)
  obtain ⟨a, ha, hline⟩ := (Option.any_eq_true _ _).mp hline
  obtain ⟨b, hb, hroot⟩ := (Option.any_eq_true _ _).mp hline
  obtain ⟨p, hp, hb⟩ := Option.bind_eq_some_iff.mp hb
  have hline : run.context.catalog.Lineage a [a, b] := .extend hp hb (.root (of_decide_eq_true hroot))
  obtain ⟨hguards, hapart⟩ := hmain run.context.ranking unit hu routine _ hroutine
  have hnodup : routine.targets.Nodup := by
    rw [htargets]
    decide
  exact ⟨unit, hu, routine, _, hroutine, hnames, htargets, hguards.mp hnodup, v, hv, a, b, ha, hline,
    (hapart hnames).mp hnodup v hv v .refl a [a, b] hagg ha hline⟩

end Compilation

end FieldRegistry
