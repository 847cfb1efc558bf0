import FieldRegistry.FileUnit
import FieldRegistry.Proofs.DictionaryHistory

/-!
# The two passes over a file

The first pass builds the variables of known types and puts the others off; the second defines the
derived types and builds the variables that waited for each. Every step has one inversion lemma, and the
two loops carry the history of the dictionary along with the definitions made so far.
-/

namespace FieldRegistry.FileUnit

variable {dycore : String} {catalog catalog' : Catalog} {d d' : Dictionary} {node : Node}
  {added taken : List Variable}

/-- A variable that was read from an element, under some catalog and dictionary. -/
def ReadFrom (node : Node) (v : Variable) : Prop :=
  ∃ catalog dictionary, (Variable.ofNode catalog dictionary node).outcome = .ok v

/-- The elements of a file that stand for variables. -/
def variableChildren (node : Node) : List Node :=
  node.children.filter fun child => child.tag == "variable" || child.tag == "array"

def Item.variableNode? : Item → Option Node
  | variableItem node => some node
  | _ => none

/-! ## Adding variables -/

theorem addVariable_eq_ok (h : (addVariable catalog d node).outcome = .ok d') :
    ∃ v, (Variable.ofNode catalog d node).outcome = .ok v ∧ d.Adds v d' := by
  unfold addVariable at h
  rw [Checked.outcome_bind] at h
  obtain ⟨v, hv, h⟩ := bind_eq_ok h
  rw [Checked.outcome_bind, Action.outcome_alone] at h
  obtain ⟨added, hadded, h⟩ := bind_eq_ok h
  cases h
  obtain ⟨done, hdone, rfl⟩ := map_eq_ok hadded
  exact ⟨v, hv, Prod.ext hdone rfl⟩

/-- What every variable that is read and added keeps, a loop over variables keeps. -/
theorem addVariables_invariant {P : Dictionary → Prop}
    (hadd : ∀ {node d v d'}, P d → (Variable.ofNode catalog d node).outcome = .ok v →
      d.Adds v d' → P d') {nodes : List Node} (hd : P d)
    (h : nodes.foldlM (fun d node => (addVariable catalog d node).outcome) d = .ok d') : P d' := by
  refine foldlM_ok_invariant (fun d node d' hd h => ?_) hd h
  obtain ⟨v, hv, ha⟩ := addVariable_eq_ok h
  exact hadd hd hv ha

theorem addVariables_eq_ok {nodes : List Node} (hh : d.History added taken)
    (h : nodes.foldlM (fun d node => (addVariable catalog d node).outcome) d = .ok d') :
    ∃ vs, List.Forall₂ ReadFrom nodes vs ∧ d'.History (added ++ vs) taken := by
  induction nodes generalizing d added with
  | nil => cases h; exact ⟨[], .nil, by simpa using hh⟩
  | cons node nodes ih =>
      obtain ⟨d₁, h₁, h⟩ := foldlM_cons_eq_ok h
      obtain ⟨v, hv, ha⟩ := addVariable_eq_ok h₁
      obtain ⟨vs, hvs, hh'⟩ := ih (hh.add ha) h
      exact ⟨v :: vs, .cons ⟨catalog, d, hv⟩ hvs, by simpa using hh'⟩

theorem addVariables_name {nodes : List Node}
    (h : nodes.foldlM (fun d node => (addVariable catalog d node).outcome) d = .ok d') :
    d'.name = d.name :=
  addVariables_invariant (P := fun d' => d'.name = d.name)
    (fun hd _ ha => ha.name_eq.trans hd) rfl h

def Resolved (catalog : Catalog) (d : Dictionary) : Prop :=
  ∀ v ∈ d.declared, catalog.Resolves v.type

theorem Resolved.mono (hp : catalog.Extended catalog') (h : Resolved catalog d) :
    Resolved catalog' d :=
  fun v hv => (h v hv).mono hp

theorem Resolved.addVariable (hr : Resolved catalog d)
    (h : (addVariable catalog d node).outcome = .ok d') : Resolved catalog d' := by
  obtain ⟨v, hv, ha⟩ := addVariable_eq_ok h
  intro w hw
  rcases ha.mem_declared hw with hw | rfl
  · exact hr w hw
  · exact (Variable.ofNode_names hv).2.2

theorem Resolved.addVariables {nodes : List Node} (hr : Resolved catalog d)
    (h : nodes.foldlM (fun d node => (FileUnit.addVariable catalog d node).outcome) d = .ok d') :
    Resolved catalog d' :=
  foldlM_ok_invariant (fun _ _ _ => Resolved.addVariable) hr h

theorem Resolved.moves {vs : List Variable} (hr : Resolved catalog d) (hm : d.Moves vs d') :
    Resolved catalog d' ∧ ∀ v ∈ vs, catalog.Resolves v.type := by
  constructor
  · intro v hv
    exact hr v (hm.perm.mem_iff.mpr (by simp [hv]))
  · intro v hv
    exact hr v (hm.perm.mem_iff.mpr (by simp [hv]))

/-! ## The first pass -/

section Survey

variable {ownTypes : List String} {survey survey' : Survey} {item : Item} {items : List Item}

/-- An item of the first pass is put off, is built, or leaves the variables alone. -/
theorem surveyItem_eq_ok (h : (surveyItem catalog ownTypes survey item).outcome = .ok survey') :
    (∃ node, item.variableNode? = some node ∧ typeKey node ∈ ownTypes ∧
      survey'.dictionary = survey.dictionary ∧ survey'.deferred = survey.deferred ++ [node]) ∨
    (∃ node, item.variableNode? = some node ∧ typeKey node ∉ ownTypes ∧
      (addVariable catalog survey.dictionary node).outcome = .ok survey'.dictionary ∧
      survey'.deferred = survey.deferred) ∨
    (item.variableNode? = none ∧ survey'.dictionary = survey.dictionary ∧
      survey'.deferred = survey.deferred) := by
  cases item with
  | variableItem node =>
      simp only [surveyItem, Checked.outcome_ite] at h
      split at h
      · rename_i hk
        cases h
        exact Or.inl ⟨node, rfl, by simpa using hk, rfl, rfl⟩
      · rename_i hk
        rw [Checked.outcome_bind] at h
        obtain ⟨d, hd, h⟩ := bind_eq_ok h
        cases h
        exact Or.inr (Or.inl ⟨node, rfl, by simpa using hk, hd, rfl⟩)
  | aggregateItem node => cases h; exact Or.inr (Or.inr ⟨rfl, rfl, rfl⟩)
  | useItem node =>
      simp only [surveyItem, Checked.outcome_bind] at h
      obtain ⟨use, -, h⟩ := bind_eq_ok h
      cases h
      exact Or.inr (Or.inr ⟨rfl, rfl, rfl⟩)

theorem survey_invariant {P : Dictionary → Prop}
    (hadd : ∀ {node d v d'}, P d → (Variable.ofNode catalog d node).outcome = .ok v →
      d.Adds v d' → P d') (hd : P survey.dictionary)
    (h : items.foldlM (fun survey item => (surveyItem catalog ownTypes survey item).outcome) survey =
      .ok survey') : P survey'.dictionary := by
  refine foldlM_ok_invariant (P := fun survey : Survey => P survey.dictionary)
    (fun s item s' hd h => ?_) hd h
  rcases surveyItem_eq_ok h with ⟨-, -, -, hs, -⟩ | ⟨node, -, -, hs, -⟩ | ⟨-, hs, -⟩
  · rw [hs]; exact hd
  · obtain ⟨v, hv, ha⟩ := addVariable_eq_ok hs
    exact hadd hd hv ha
  · rw [hs]; exact hd

/-- After the first pass every variable is in the dictionary or was put off, the latter because its type
is defined in the file. -/
theorem survey_eq_ok (hh : survey.dictionary.History added taken)
    (hr : Resolved catalog survey.dictionary)
    (h : items.foldlM (fun survey item => (surveyItem catalog ownTypes survey item).outcome) survey =
      .ok survey') :
    ∃ built deferred vs, (built ++ deferred).Perm (items.filterMap Item.variableNode?) ∧
      List.Forall₂ ReadFrom built vs ∧ survey'.dictionary.History (added ++ vs) taken ∧
      survey'.deferred = survey.deferred ++ deferred ∧ (∀ node ∈ deferred, typeKey node ∈ ownTypes) ∧
      Resolved catalog survey'.dictionary ∧ survey'.dictionary.name = survey.dictionary.name := by
  induction items generalizing survey added with
  | nil =>
      cases h
      exact ⟨[], [], [], .refl _, .nil, by simpa using hh, by simp, by simp, hr, rfl⟩
  | cons item items ih =>
      obtain ⟨s, hs, h⟩ := foldlM_cons_eq_ok h
      rcases surveyItem_eq_ok hs with ⟨node, hi, hk, hd, hf⟩ | ⟨node, hi, hk, hd, hf⟩ | ⟨hi, hd, hf⟩
      · obtain ⟨built, deferred, vs, hp, hvs, hh', hf', hown, hr', hn⟩ :=
          ih (hd ▸ hh) (hd ▸ hr) h
        refine ⟨built, node :: deferred, vs, ?_, hvs, hh', by simp [hf', hf], ?_, hr', hd ▸ hn⟩
        · rw [List.filterMap_cons_some hi]
          exact List.perm_middle.trans (hp.cons node)
        · intro n hn
          rcases List.mem_cons.mp hn with rfl | hn
          · exact hk
          · exact hown n hn
      · obtain ⟨v, hv, ha⟩ := addVariable_eq_ok hd
        obtain ⟨built, deferred, vs, hp, hvs, hh', hf', hown, hr', hn⟩ :=
          ih (hh.add ha) (hr.addVariable hd) h
        refine ⟨node :: built, deferred, v :: vs, ?_, .cons ⟨catalog, _, hv⟩ hvs,
          by simpa using hh', by rw [hf', hf], hown, hr', hn.trans ha.name_eq⟩
        rw [List.filterMap_cons_some hi]
        exact hp.cons node
      · rw [List.filterMap_cons_none hi]
        obtain ⟨built, deferred, vs, hp, hvs, hh', hf', hown, hr', hn⟩ :=
          ih (hd ▸ hh) (hd ▸ hr) h
        exact ⟨built, deferred, vs, hp, hvs, hh', by rw [hf', hf], hown, hr', hd ▸ hn⟩

end Survey

/-! ## The second pass -/

section Definitions

variable {deferred : List Node} {names names' : List String} {as : List Aggregate}

/-- A definition that cannot be read or registered leaves the catalog alone; one that is registered stays
there, whatever becomes of the variables that waited for it. -/
theorem defineAggregate_cases {result : Except Fault (Dictionary × List String)}
    (h : (defineAggregate dycore deferred (d, names) node).outcome catalog = (result, catalog')) :
    (∃ fault, result = .error fault ∧ catalog' = catalog) ∨
    ∃ a d₁, (Aggregate.ofNode catalog dycore node).outcome d = (.ok a, d₁) ∧
      catalog.register a.name a.scope (some a) = .ok catalog' ∧
      result = ((deferred.filter fun node => typeKey node == Text.lower a.name).foldlM
        (fun d node => (addVariable catalog' d node).outcome) d₁).map (·, names ++ [a.name]) := by
  unfold defineAggregate at h
  rw [Action.outcome_bind_of_ok (Action.outcome_get catalog), Action.outcome_bind,
    Action.outcome_within] at h
  cases ho : (Aggregate.ofNode catalog dycore node).outcome d with
  | mk read d₁ =>
      rw [ho] at h
      cases read with
      | error fault => cases h; exact Or.inl ⟨fault, rfl, rfl⟩
      | ok a =>
          obtain ⟨-, hscope, -, hmoves⟩ := Aggregate.ofNode_eq_ok ho
          simp only [Except.map, Action.outcome_bind, Catalog.announce, Action.outcome_get,
            hmoves.name_eq, ← hscope] at h
          cases hr : catalog.register a.name a.scope (some a) with
          | error fault =>
              rw [hr] at h
              cases h
              exact Or.inl ⟨fault, rfl, rfl⟩
          | ok catalog₁ =>
              simp only [hr, Action.outcome_bind, Action.outcome_lift, Action.outcome_set,
                Action.outcome_liftChecked, Checked.outcome_foldlM] at h
              refine Or.inr ⟨a, d₁, rfl, ?_⟩
              cases hf : (deferred.filter fun node => typeKey node == Text.lower a.name).foldlM
                (fun d node => (addVariable catalog₁ d node).outcome) d₁ with
              | error fault => rw [hf] at h; cases h; exact ⟨hr, by rw [hf]; rfl⟩
              | ok d₂ => rw [hf] at h; cases h; exact ⟨hr, by rw [hf]; rfl⟩

theorem knows_ofNode {a : Aggregate} (hb : catalog.Built) (hr : Resolved catalog d)
    (h : (Aggregate.ofNode catalog dycore node).outcome d = (.ok a, d')) : catalog.Knows a := by
  obtain ⟨-, -, hparent, hmoves⟩ := Aggregate.ofNode_eq_ok h
  refine ⟨?_, (hr.moves hmoves).2⟩
  intro p hp
  obtain ⟨b, written, hw, rfl⟩ := hparent p hp
  have hl := Catalog.lookup?_name (hb.of_aggregate? hw).1
  exact ⟨b, Catalog.aggregate?_eq_some.mpr ⟨_, hl, rfl⟩, rfl⟩

theorem grows_defineAggregate {result : Except Fault (Dictionary × List String)}
    (hb : catalog.Built) (hr : Resolved catalog d)
    (h : (defineAggregate dycore deferred (d, names) node).outcome catalog = (result, catalog')) :
    catalog.Grows catalog' ∧ ∀ r, result = .ok r → Resolved catalog' r.1 ∧ r.1.name = d.name := by
  rcases defineAggregate_cases h with ⟨fault, rfl, rfl⟩ | ⟨a, d₁, ho, hreg, rfl⟩
  · exact ⟨.refl, fun r hr => by cases hr⟩
  · have hg : catalog.Grows catalog' := .define .refl (knows_ofNode hb hr ho) hreg
    refine ⟨hg, ?_⟩
    intro r h
    obtain ⟨d₂, hd₂, rfl⟩ := map_eq_ok h
    obtain ⟨-, -, -, hmoves⟩ := Aggregate.ofNode_eq_ok ho
    exact ⟨((hr.moves hmoves).1.mono hg.extended).addVariables hd₂,
      (addVariables_name hd₂).trans hmoves.name_eq⟩

theorem grows_defineAggregates {definitions : List Node}
    {result : Except Fault (Dictionary × List String)} (hb : catalog.Built) (hr : Resolved catalog d)
    (h : Action.outcome (definitions.foldlM (defineAggregate dycore deferred) (d, names)) catalog =
      (result, catalog')) :
    catalog.Grows catalog' ∧ ∀ r, result = .ok r → Resolved catalog' r.1 ∧ r.1.name = d.name := by
  have hloop := Action.foldlM_invariant
    (P := fun r c => catalog.Grows c ∧ Resolved c r.1 ∧ r.1.name = d.name) (Q := catalog.Grows)
    (fun r c hp => hp.1) ?_ ⟨.refl, hr, rfl⟩ h
  · exact ⟨hloop.1, fun r hok => (hloop.2 r hok).2⟩
  · rintro ⟨d₁, names₁⟩ node c step c' ⟨hg, hr₁, hn₁⟩ h₁
    obtain ⟨hg', hstep⟩ := grows_defineAggregate (hb.grows hg) hr₁ h₁
    refine ⟨hg.trans hg', fun r hok => ?_⟩
    obtain ⟨hr', hn'⟩ := hstep r hok
    exact ⟨hg.trans hg', hr', hn'.trans hn₁⟩

/-- The derived types `as` that a file has defined so far: they are in the catalog under the file's own
scope and different names, and the variables that left the dictionary are their members. -/
structure Progress (catalog : Catalog) (d : Dictionary) (names : List String)
    (added : List Variable) (as : List Aggregate) : Prop where
  names : names = as.map (·.name)
  known : ∀ a ∈ as, catalog.lookup? a.name = some ⟨a.name, some a.scope, some a⟩
  distinct : (as.map fun a => Text.lower a.name).Nodup
  scope : ∀ a ∈ as, a.scope = d.name
  history : d.History added (as.flatMap (·.members))

theorem Progress.mono (hp : catalog.Extended catalog') (h : Progress catalog d names added as) :
    Progress catalog' d names added as where
  names := h.names
  known a ha := Catalog.lookup?_of_extended hp (h.known a ha)
  distinct := h.distinct
  scope := h.scope
  history := h.history

theorem Progress.define (hp : Progress catalog d names added as)
    (h : (defineAggregate dycore deferred (d, names) node).outcome catalog =
      (.ok (d', names'), catalog')) :
    ∃ a vs, Text.lower a.name = typeKey node ∧
      List.Forall₂ ReadFrom (deferred.filter fun n => typeKey n == typeKey node) vs ∧
      Progress catalog' d' names' (added ++ vs) (as ++ [a]) := by
  rcases defineAggregate_cases h with ⟨fault, h, -⟩ | ⟨a, d₁, ho, hreg, h⟩
  · cases h
  obtain ⟨d₂, hd₂, hpair⟩ := map_eq_ok h.symm
  cases hpair
  obtain ⟨hname, hscope, -, hmoves⟩ := Aggregate.ofNode_eq_ok ho
  have hkey : Text.lower a.name = typeKey node := by rw [hname]; rfl
  obtain ⟨vs, hvs, hh⟩ := addVariables_eq_ok (hp.history.moves hmoves) hd₂
  rw [hkey] at hvs
  refine ⟨a, vs, hkey, hvs, ?_, ?_, ?_, ?_, by simpa using hh⟩
  · simp [hp.names]
  · intro b hb
    rcases List.mem_append.mp hb with hb | hb
    · exact Catalog.lookup?_of_extended (Catalog.extended_of_register hreg) (hp.known b hb)
    · cases List.mem_singleton.mp hb
      exact Catalog.lookup?_register hreg
  · -- an earlier definition of the same name would have been found by the registration
    rw [List.map_append, List.map_singleton]
    refine List.nodup_append.mpr ⟨hp.distinct, by simp, ?_⟩
    intro x hx y hy hxy
    obtain ⟨b, hb, rfl⟩ := List.mem_map.mp hx
    rw [List.mem_singleton.mp hy] at hxy
    have hb := hp.known b hb
    rw [Catalog.lookup?_congr hxy, (Catalog.register_eq_ok hreg).1] at hb
    cases hb
  · intro b hb
    rw [addVariables_name hd₂, hmoves.name_eq]
    rcases List.mem_append.mp hb with hb | hb
    · exact hp.scope b hb
    · cases List.mem_singleton.mp hb
      exact hscope

theorem Progress.defineAll {definitions : List Node} (hp : Progress catalog d names added as)
    (h : Action.outcome (definitions.foldlM (defineAggregate dycore deferred) (d, names)) catalog =
      (.ok (d', names'), catalog')) :
    ∃ as' vs, (as'.map fun a => Text.lower a.name) = definitions.map typeKey ∧
      List.Forall₂ ReadFrom
        (definitions.flatMap fun node => deferred.filter fun n => typeKey n == typeKey node) vs ∧
      Progress catalog' d' names' (added ++ vs) (as ++ as') := by
  induction definitions generalizing catalog d names added as with
  | nil => cases h; exact ⟨[], [], rfl, .nil, by simpa using hp⟩
  | cons node definitions ih =>
      rw [List.foldlM_cons] at h
      obtain ⟨⟨d₁, names₁⟩, catalog₁, h₁, h⟩ := Action.outcome_bind_eq_ok h
      obtain ⟨a, vs₁, hkey, hvs₁, hp₁⟩ := hp.define h₁
      obtain ⟨as', vs, hkeys, hvs, hp'⟩ := ih hp₁ h
      refine ⟨a :: as', vs₁ ++ vs, ?_, ?_, by simpa using hp'⟩
      · rw [List.map_cons, List.map_cons, hkey, hkeys]
      · rw [List.flatMap_cons]
        exact List.rel_append hvs₁ hvs

end Definitions

/-! ## A whole file -/

/-- The elements of a file that define derived types. -/
def definitionChildren (node : Node) : List Node := node.children.filter (·.tag == "ddt")

theorem Item.ofNode_eq_ok {scope : String} {item : Item} (h : Item.ofNode scope node = .ok item) :
    item.variableNode? =
        (if (node.tag == "variable" || node.tag == "array") = true then some node else none) ∧
      item.aggregate? = if (node.tag == "ddt") = true then some node else none := by
  unfold Item.ofNode at h
  split at h
  · rename_i ht
    have hd : ¬ (node.tag == "ddt") = true := by
      rcases Bool.or_eq_true_iff.mp ht with ht | ht <;> rw [beq_iff_eq.mp ht] <;> decide
    cases h
    rw [if_pos ht, if_neg hd]
    exact ⟨rfl, rfl⟩
  · rename_i ht
    rw [if_neg ht]
    split at h
    · rename_i hd
      cases h
      rw [if_pos hd]
      exact ⟨rfl, rfl⟩
    · rename_i hd
      rw [if_neg hd]
      split at h
      · cases h; exact ⟨rfl, rfl⟩
      · cases h

theorem items_eq_ok {scope : String} {children : List Node} {items : List Item}
    (h : children.mapM (Item.ofNode scope) = .ok items) :
    items.filterMap Item.variableNode? =
        children.filter (fun child => child.tag == "variable" || child.tag == "array") ∧
      items.filterMap Item.aggregate? = children.filter (·.tag == "ddt") := by
  induction children generalizing items with
  | nil => cases h; exact ⟨rfl, rfl⟩
  | cons child children ih =>
      rw [List.mapM_cons] at h
      obtain ⟨item, hi, h⟩ := bind_eq_ok h
      obtain ⟨rest, hrest, h⟩ := bind_eq_ok h
      cases h
      obtain ⟨hv, ha⟩ := Item.ofNode_eq_ok hi
      obtain ⟨hvs, has⟩ := ih hrest
      rw [List.filterMap_cons, List.filterMap_cons, List.filter_cons, List.filter_cons, hv, ha,
        hvs, has]
      constructor
      · by_cases ht : (child.tag == "variable" || child.tag == "array") = true
        · rw [if_pos ht, if_pos ht]
        · rw [if_neg ht, if_neg ht]
      · by_cases ht : (child.tag == "ddt") = true
        · rw [if_pos ht, if_pos ht]
        · rw [if_neg ht, if_neg ht]

/-- The names of the types that a file defines, as variables ask for them. -/
def ownTypes (node : Node) : List String :=
  ((definitionChildren node).map typeKey).filter (!·.isEmpty)

theorem ofNode_cases {result : Except Fault FileUnit}
    (h : (FileUnit.ofNode dycore node).outcome catalog = (result, catalog')) :
    (∃ fault, result = .error fault ∧ catalog' = catalog) ∨
    ∃ items survey progress,
      node.children.mapM (Item.ofNode (node.get "name")) = .ok items ∧
      items.foldlM (fun survey item => (surveyItem catalog (ownTypes node) survey item).outcome)
        ⟨.empty (node.get "name") (node.get "type"), [], []⟩ = .ok survey ∧
      Action.outcome ((definitionChildren node).foldlM (defineAggregate dycore survey.deferred)
        (survey.dictionary, [])) catalog = (progress, catalog') ∧
      result = progress.map fun p =>
        ⟨node.get "name", node.get "type", p.1, p.2, survey.uses⟩ := by
  unfold FileUnit.ofNode at h
  rw [Action.outcome_bind, Action.outcome_liftChecked, Checked.outcome_ofExcept] at h
  cases hitems : node.children.mapM (Item.ofNode (node.get "name")) with
  | error fault => rw [hitems] at h; cases h; exact Or.inl ⟨fault, rfl, rfl⟩
  | ok items =>
      have hd : items.filterMap Item.aggregate? = definitionChildren node := (items_eq_ok hitems).2
      simp only [hitems, Action.outcome_bind, Action.outcome_get, Action.outcome_liftChecked,
        Checked.outcome_foldlM, hd] at h
      cases hsurvey : items.foldlM
          (fun survey item => (surveyItem catalog (ownTypes node) survey item).outcome)
          ⟨.empty (node.get "name") (node.get "type"), [], []⟩ with
      | error fault => rw [← ownTypes, hsurvey] at h; cases h; exact Or.inl ⟨fault, rfl, rfl⟩
      | ok survey =>
          rw [← ownTypes, hsurvey] at h
          dsimp only at h
          refine Or.inr ⟨items, survey, ?_⟩
          cases hdefine : Action.outcome ((definitionChildren node).foldlM
            (defineAggregate dycore survey.deferred) (survey.dictionary, [])) catalog with
          | mk progress catalog₁ =>
              rw [hdefine] at h
              cases progress with
              | error fault => cases h; exact ⟨.error fault, rfl, hsurvey, rfl, rfl⟩
              | ok p => cases h; exact ⟨.ok p, rfl, hsurvey, rfl, rfl⟩

/-- Reading a file is to sort its items, then the first pass and then the second. -/
theorem outcome_ofNode :
    (FileUnit.ofNode dycore node).outcome catalog =
      match node.children.mapM (Item.ofNode (node.get "name")) with
      | .error fault => (.error fault, catalog)
      | .ok items =>
        match items.foldlM
            (fun survey item => (surveyItem catalog (ownTypes node) survey item).outcome)
            ⟨.empty (node.get "name") (node.get "type"), [], []⟩ with
        | .error fault => (.error fault, catalog)
        | .ok survey =>
          let second := Action.outcome ((definitionChildren node).foldlM
            (defineAggregate dycore survey.deferred) (survey.dictionary, [])) catalog
          (second.1.map fun p => ⟨node.get "name", node.get "type", p.1, p.2, survey.uses⟩,
            second.2) := by
  unfold FileUnit.ofNode
  rw [Action.outcome_bind, Action.outcome_liftChecked, Checked.outcome_ofExcept]
  cases hitems : node.children.mapM (Item.ofNode (node.get "name")) with
  | error fault => rfl
  | ok items =>
      have hd : items.filterMap Item.aggregate? = definitionChildren node := (items_eq_ok hitems).2
      simp only [Action.outcome_bind, Action.outcome_get, Action.outcome_liftChecked,
        Checked.outcome_foldlM, hd]
      rw [← ownTypes]
      cases items.foldlM
          (fun survey item => (surveyItem catalog (ownTypes node) survey item).outcome)
          ⟨.empty (node.get "name") (node.get "type"), [], []⟩ with
      | error fault => rfl
      | ok survey =>
          dsimp only
          cases Action.outcome ((definitionChildren node).foldlM
              (defineAggregate dycore survey.deferred) (survey.dictionary, [])) catalog with
          | mk progress catalog' => cases progress <;> rfl

/-- Whether a file can be read or not, it only defines types, and a file that is read has known types
only. -/
theorem grows_ofNode {result : Except Fault FileUnit} (hb : catalog.Built)
    (h : (FileUnit.ofNode dycore node).outcome catalog = (result, catalog')) :
    catalog.Grows catalog' ∧ ∀ unit, result = .ok unit →
      Resolved catalog' unit.dictionary ∧ unit.dictionary.name = unit.name := by
  rcases ofNode_cases h with ⟨fault, rfl, rfl⟩ | ⟨items, survey, progress, -, hsurvey, hdefine, rfl⟩
  · exact ⟨.refl, fun unit h => by cases h⟩
  · have hempty : Resolved catalog (.empty (node.get "name") (node.get "type")) := by
      intro v hv
      cases hv
    obtain ⟨-, -, -, -, -, -, -, -, hr, hn⟩ := survey_eq_ok (.empty _ _) hempty hsurvey
    obtain ⟨hg, hrest⟩ := grows_defineAggregates hb hr hdefine
    refine ⟨hg, fun unit h => ?_⟩
    obtain ⟨p, hp, rfl⟩ := map_eq_ok h
    obtain ⟨hr', hn'⟩ := hrest p hp
    exact ⟨hr', hn'.trans hn⟩

/-! ## Invariants of dictionaries -/

/-- What adding variables and taking them out keeps holds of the dictionary of every file. -/
theorem dictionary_invariant {P : Dictionary → Prop} {unit : FileUnit}
    (hadd : ∀ d v d', P d → d.Adds v d' → P d')
    (htake : ∀ d name v d', P d → d.take? name = some (v, d') → P d')
    (hempty : ∀ name kind, P (.empty name kind))
    (h : (FileUnit.ofNode dycore node).outcome catalog = (.ok unit, catalog')) :
    P unit.dictionary := by
  rcases ofNode_cases h with ⟨fault, h, -⟩ | ⟨items, survey, progress, -, hsurvey, hdefine, h⟩
  · cases h
  obtain ⟨p, rfl, rfl⟩ := map_eq_ok h.symm
  have hloop := Action.foldlM_invariant (P := fun r _ => P r.1) (Q := fun _ => True)
    (fun _ _ _ => trivial) ?_ (survey_invariant (fun hd _ => hadd _ _ _ hd) (hempty _ _) hsurvey) hdefine
  · exact hloop.2 p rfl
  · rintro ⟨d₁, names₁⟩ node c step c' hd₁ h₁
    refine ⟨trivial, fun r hr => ?_⟩
    rcases defineAggregate_cases h₁ with ⟨fault, rfl, -⟩ | ⟨a, d₂, ho, -, rfl⟩
    · cases hr
    · obtain ⟨d₃, hd₃, rfl⟩ := map_eq_ok hr
      obtain ⟨-, -, -, hmoves⟩ := Aggregate.ofNode_eq_ok ho
      exact addVariables_invariant (fun hd _ => hadd _ _ _ hd) (hmoves.invariant htake hd₁) hd₃

end FieldRegistry.FileUnit
