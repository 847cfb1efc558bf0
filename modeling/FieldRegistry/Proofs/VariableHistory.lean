import FieldRegistry.Proofs.Runs

/-!
# Invariants of the variables of a file

A file builds its variables one after another, each under the catalog and the dictionary of the moment,
and its derived types take some of them out again. A law that every construction and every removal keeps
holds of the final dictionary together with the members of the derived types, in every file of every
run. Derived types stay in the catalog even where the rest of their file fails, so a law of members holds
of all types of a run.
-/

namespace FieldRegistry

variable {I : Dictionary → List Variable → Prop} {catalog catalog' : Catalog} {d d' : Dictionary}
  {taken : List Variable} {dycore : String} {node : Node} {unit : FileUnit}

/-- A law about a dictionary and the variables that left it, kept by every variable that is read against
the dictionary and added, and by every variable that is taken out. -/
structure HistoryInvariant (I : Dictionary → List Variable → Prop) : Prop where
  empty : ∀ name kind, I (.empty name kind) []
  add : ∀ {catalog d taken node v d'}, catalog.Built → I d taken →
    (Variable.ofNode catalog d node).outcome = .ok v → d.Adds v d' → I d' taken
  take : ∀ {d taken name v d'}, I d taken → d.take? name = some (v, d') → I d' (taken ++ [v])

theorem Dictionary.mem_history_take? {name : String} {v w : Variable}
    (h : d.take? name = some (v, d')) :
    w ∈ d'.declared ++ (taken ++ [v]) ↔ w ∈ d.declared ++ taken := by
  obtain ⟨-, -, hp⟩ := Dictionary.take?_eq_some h
  simp only [List.mem_append, hp.mem_iff, List.mem_cons, List.not_mem_nil, or_false]
  tauto

theorem Dictionary.mem_history_add {v w : Variable} (h : d.Adds v d') :
    w ∈ d'.declared ++ taken ↔ w = v ∨ w ∈ d.declared ++ taken := by
  simp only [h.declared, List.mem_append, List.mem_singleton]
  tauto

/-- The law of every single variable, whether it stayed in the dictionary or left it. -/
theorem historyInvariant_forall {P : Variable → Prop}
    (h : ∀ {catalog d node v}, catalog.Built → (Variable.ofNode catalog d node).outcome = .ok v → P v) :
    HistoryInvariant fun d taken => ∀ v ∈ d.declared ++ taken, P v where
  empty _ _ v hv := by cases hv
  add hb hd hv ha w hw := by
    rcases (Dictionary.mem_history_add ha).mp hw with rfl | hw
    · exact h hb hv
    · exact hd w hw
  take hd ht w hw := hd w ((Dictionary.mem_history_take? ht).mp hw)

namespace HistoryInvariant

variable (hI : HistoryInvariant I)

include hI

/-! ## The second pass -/

theorem moves {vs : List Variable} (hm : d.Moves vs d') (hd : I d taken) : I d' (taken ++ vs) := by
  induction hm generalizing taken with
  | refl => simpa using hd
  | take ht _ ih => simpa using ih (hI.take hd ht)

/-- The second pass of a file keeps the law of the dictionary and the members of the types that the file
has defined so far. -/
theorem defineAggregates {deferred definitions : List Node}
    {result : Except Fault (Dictionary × List String)} (hb : catalog.Built)
    (hr : FileUnit.Resolved catalog d) (hd : I d [])
    (h : Action.outcome (definitions.foldlM (FileUnit.defineAggregate dycore deferred) (d, []))
      catalog = (result, catalog')) {r : Dictionary × List String} (hok : result = .ok r) :
    ∃ as, List.Forall₂ (fun name a => catalog'.aggregate? name = some a) r.2 as ∧
      I r.1 (as.flatMap (·.members)) := by
  have hloop := Action.foldlM_invariant
    (P := fun r c => (catalog.Grows c ∧ FileUnit.Resolved c r.1) ∧
      ∃ as, List.Forall₂ (fun name a => c.aggregate? name = some a) r.2 as ∧
        I r.1 (as.flatMap (·.members)))
    (Q := fun _ => True) (fun _ _ _ => trivial) ?_ ⟨⟨.refl, hr⟩, [], .nil, hd⟩ h
  · exact (hloop.2 r hok).2
  · rintro ⟨d₁, names₁⟩ node c step c' ⟨⟨hg, hr₁⟩, as, has, hd₁⟩ h₁
    obtain ⟨hg', hgrown⟩ := FileUnit.grows_defineAggregate (hb.grows hg) hr₁ h₁
    refine ⟨trivial, fun r hok => ⟨⟨hg.trans hg', (hgrown r hok).1⟩, ?_⟩⟩
    rcases FileUnit.defineAggregate_cases h₁ with ⟨fault, rfl, -⟩ | ⟨a, d₂, ho, hreg, rfl⟩
    · cases hok
    obtain ⟨d₃, hd₃, rfl⟩ := map_eq_ok hok
    obtain ⟨-, -, -, hmoves⟩ := Aggregate.ofNode_eq_ok ho
    refine ⟨as ++ [a], ?_, ?_⟩
    · refine List.rel_append (has.imp fun _ _ => Catalog.aggregate?_of_extended hg'.extended)
        (.cons ?_ .nil)
      exact Catalog.aggregate?_eq_some.mpr ⟨_, Catalog.lookup?_register hreg, rfl⟩
    · have hbuilt := (hb.grows hg).grows hg'
      simpa using FileUnit.addVariables_invariant (hI.add hbuilt) (hI.moves hmoves hd₁) hd₃

end HistoryInvariant

/-! ## Files and runs -/

theorem HistoryInvariant.ofNode (hI : HistoryInvariant I) (hb : catalog.Built)
    (h : (FileUnit.ofNode dycore node).outcome catalog = (.ok unit, catalog')) :
    ∃ as, unit.aggregates catalog' = .ok as ∧ I unit.dictionary (as.flatMap (·.members)) := by
  rcases FileUnit.ofNode_cases h with ⟨fault, h, -⟩ |
    ⟨items, survey, progress, -, hsurvey, hdefine, h⟩
  · cases h
  obtain ⟨p, hp, rfl⟩ := map_eq_ok h.symm
  have hempty : FileUnit.Resolved catalog (.empty (node.get "name") (node.get "type")) :=
    fun v hv => by cases hv
  obtain ⟨-, -, -, -, -, -, -, -, hr, -⟩ := FileUnit.survey_eq_ok (.empty _ _) hempty hsurvey
  obtain ⟨as, has, hd⟩ :=
    hI.defineAggregates hb hr (FileUnit.survey_invariant (hI.add hb) (hI.empty _ _) hsurvey) hdefine hp
  exact ⟨as, FileUnit.aggregates_eq_ok_iff.mpr has, hd⟩

/-- What every construction and every removal keeps holds of every file of a run. -/
theorem Compilation.history_invariant (hI : HistoryInvariant I) (dycore : String)
    (settings : Settings) (requests : List Request) :
    let run := (start dycore settings).after requests
    ∀ unit ∈ run.units, ∃ as, unit.aggregates run.context.catalog = .ok as ∧
      I unit.dictionary (as.flatMap (·.members)) := by
  refine (after_invariant (P := fun c => c.Sound ∧ ∀ unit ∈ c.units, ∃ as,
      unit.aggregates c.context.catalog = .ok as ∧ I unit.dictionary (as.flatMap (·.members)))
    ?_ ?_ ⟨sound_start dycore settings, fun unit hu => by cases hu⟩ requests).2
  · rintro node c ⟨hs, hunits⟩
    obtain ⟨hs', hlater⟩ := hs.compileSection node
    refine ⟨hs', ?_⟩
    have hold : ∀ unit ∈ c.units, ∃ as,
        unit.aggregates ((compileSection node).outcome c).2.context.catalog = .ok as ∧
          I unit.dictionary (as.flatMap (·.members)) := by
      intro unit hu
      obtain ⟨as, has, hd⟩ := hunits unit hu
      refine ⟨as, FileUnit.aggregates_eq_ok_iff.mpr ?_, hd⟩
      exact (FileUnit.aggregates_eq_ok_iff.mp has).imp fun _ _ =>
        Catalog.aggregate?_of_extended hlater.catalog.extended
    cases h : (compileSection node).outcome c with
    | mk result c' =>
        rw [h] at hold
        rcases compileSection_cases h with ⟨-, -, rfl⟩ |
          ⟨read, catalog, -, hread, ⟨fault, -, -, rfl⟩ | ⟨unit, rfl, -, rfl⟩⟩
        · exact hold
        · exact hold
        · intro u hu
          rcases List.mem_append.mp hu with hu | hu
          · exact hold u hu
          · cases List.mem_singleton.mp hu
            exact hI.ofNode hs.built hread
  · rintro c reached hp ⟨hs, hunits⟩
    exact ⟨(hs.enrolled hp).1, hunits⟩

/-! ## The types of a catalog -/

/-- A law of the own members of every derived type. -/
def Catalog.OfMembers (M : List Variable → Prop) (c : Catalog) : Prop :=
  ∀ entry ∈ c.entries, ∀ a, entry.aggregate = some a → M a.members

theorem Catalog.OfMembers.of_aggregate? {M : List Variable → Prop} (h : catalog.OfMembers M)
    {name : String} {a : Aggregate} (ha : catalog.aggregate? name = some a) : M a.members := by
  obtain ⟨entry, he, ha⟩ := aggregate?_eq_some.mp ha
  exact h entry (mem_of_lookup? he) a ha

/-- A law of dictionaries that every variable that is read and added keeps, and a law of the variables
that leave such a dictionary together. -/
structure MemberInvariant (D : Dictionary → Prop) (M : List Variable → Prop) : Prop where
  empty : ∀ name kind, D (.empty name kind)
  add : ∀ {catalog d node v d'}, D d → (Variable.ofNode catalog d node).outcome = .ok v →
    d.Adds v d' → D d'
  moves : ∀ {d vs d'}, D d → d.Moves vs d' → M vs ∧ D d'

/-- The law of every single variable, in a dictionary and as a member. -/
theorem memberInvariant_forall {P : Variable → Prop}
    (h : ∀ {catalog d node v}, (Variable.ofNode catalog d node).outcome = .ok v → P v) :
    MemberInvariant (fun d => ∀ v ∈ d.declared, P v) (fun vs => ∀ v ∈ vs, P v) where
  empty _ _ v hv := by cases hv
  add hd hv ha w hw := by
    rcases ha.mem_declared hw with hw | rfl
    · exact hd w hw
    · exact h hv
  moves hd hm :=
    ⟨fun v hv => hd v (hm.perm.mem_iff.mpr (List.mem_append_left _ hv)),
      fun v hv => hd v (hm.perm.mem_iff.mpr (List.mem_append_right _ hv))⟩

namespace MemberInvariant

variable {D : Dictionary → Prop} {M : List Variable → Prop} (hI : MemberInvariant D M)

include hI

theorem defineAggregate {deferred : List Node} {names : List String}
    {result : Except Fault (Dictionary × List String)} (hc : catalog.OfMembers M) (hd : D d)
    (h : (FileUnit.defineAggregate dycore deferred (d, names) node).outcome catalog =
      (result, catalog')) :
    catalog'.OfMembers M ∧ ∀ r, result = .ok r → D r.1 := by
  rcases FileUnit.defineAggregate_cases h with ⟨fault, rfl, rfl⟩ | ⟨a, d₁, ho, hreg, rfl⟩
  · exact ⟨hc, fun r hr => by cases hr⟩
  · obtain ⟨-, -, -, hmoves⟩ := Aggregate.ofNode_eq_ok ho
    obtain ⟨hmembers, hd₁⟩ := hI.moves hd hmoves
    constructor
    · intro entry he b hb
      rw [(Catalog.register_eq_ok hreg).2, List.mem_append, List.mem_singleton] at he
      rcases he with he | rfl
      · exact hc entry he b hb
      · cases hb; exact hmembers
    · intro r hr
      obtain ⟨d₂, hd₂, rfl⟩ := map_eq_ok hr
      exact FileUnit.addVariables_invariant hI.add hd₁ hd₂

theorem ofNode {result : Except Fault FileUnit} (hc : catalog.OfMembers M)
    (h : (FileUnit.ofNode dycore node).outcome catalog = (result, catalog')) :
    catalog'.OfMembers M ∧ ∀ unit, result = .ok unit → D unit.dictionary := by
  rcases FileUnit.ofNode_cases h with ⟨fault, rfl, rfl⟩ |
    ⟨items, survey, progress, -, hsurvey, hdefine, rfl⟩
  · exact ⟨hc, fun unit h => by cases h⟩
  · have hloop := Action.foldlM_invariant (P := fun r c => c.OfMembers M ∧ D r.1)
      (Q := Catalog.OfMembers M) (fun r c hp => hp.1) ?_
      ⟨hc, FileUnit.survey_invariant hI.add (hI.empty _ _) hsurvey⟩ hdefine
    · refine ⟨hloop.1, fun unit hu => ?_⟩
      obtain ⟨p, hp, rfl⟩ := map_eq_ok hu
      exact (hloop.2 p hp).2
    · rintro ⟨d₁, names₁⟩ node c step c' ⟨hc₁, hd₁⟩ h₁
      obtain ⟨hc', hstep⟩ := hI.defineAggregate hc₁ hd₁ h₁
      exact ⟨hc', fun r hok => ⟨hc', hstep r hok⟩⟩

end MemberInvariant

/-- The laws hold of all derived types and of the dictionaries of all files of a run. -/
theorem Compilation.member_invariant {D : Dictionary → Prop} {M : List Variable → Prop}
    (hI : MemberInvariant D M) (dycore : String) (settings : Settings) (requests : List Request) :
    let run := (start dycore settings).after requests
    run.context.catalog.OfMembers M ∧ ∀ unit ∈ run.units, D unit.dictionary := by
  refine after_invariant
    (P := fun c => c.context.catalog.OfMembers M ∧ ∀ unit ∈ c.units, D unit.dictionary)
    ?_ (fun c reached _ h => h) ⟨?_, fun unit hu => by cases hu⟩ requests
  · rintro node c ⟨hc, hunits⟩
    cases hs : (Compilation.compileSection node).outcome c with
    | mk result c' =>
        rcases compileSection_cases hs with ⟨-, -, rfl⟩ | ⟨read, catalog, -, hread, hcases⟩
        · exact ⟨hc, hunits⟩
        · obtain ⟨hmembers, hunit⟩ := hI.ofNode hc hread
          rcases hcases with ⟨fault, -, -, rfl⟩ | ⟨unit, rfl, -, rfl⟩
          · exact ⟨hmembers, hunits⟩
          · refine ⟨hmembers, fun u hu => ?_⟩
            rcases List.mem_append.mp hu with hu | hu
            · exact hunits u hu
            · cases List.mem_singleton.mp hu
              exact hunit unit rfl
  · intro entry he a ha
    obtain ⟨name, -, rfl⟩ := List.mem_map.mp he
    cases ha

end FieldRegistry
