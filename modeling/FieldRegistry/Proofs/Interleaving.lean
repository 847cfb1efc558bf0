import FieldRegistry.Proofs.Runs

/-!
# Items of different kinds in a file may stand in any order

The first pass over a file adds variables and reads imports, and neither of the two looks at the other;
which variables are put off depends on the definitions as a whole. The second pass sees the definitions
only. So a file is determined by its variables, its definitions and its imports, each in their own order.
-/

namespace FieldRegistry.FileUnit

variable {dycore : String} {catalog : Catalog} {node node' : Node} {own : List String}
  {survey survey' : Survey} {items items' : List Item}

/-- The elements of a file that ask for imports. -/
def useChildren (node : Node) : List Node := node.children.filter (·.tag == "use")

/-- The tags that elements of a file may have. -/
def itemTags : List String := ["variable", "array", "ddt", "use"]

def Item.useNode? : Item → Option Node
  | useItem node => some node
  | _ => none

/-! ## The first pass, kind by kind -/

theorem outcome_surveyVariable (survey : Survey) (node : Node) :
    (surveyItem catalog own survey (.variableItem node)).outcome =
      if own.contains (typeKey node) then
        .ok { survey with deferred := survey.deferred ++ [node] }
      else (addVariable catalog survey.dictionary node).outcome >>= fun dictionary =>
        .ok { survey with dictionary } := by
  rw [surveyItem, Checked.outcome_ite, Checked.outcome_bind]
  rfl

theorem outcome_surveyUse (survey : Survey) (node : Node) :
    (surveyItem catalog own survey (.useItem node)).outcome =
      readUse survey.dictionary.name node >>= fun use =>
        .ok { survey with uses := survey.uses ++ [use] } := by
  rw [surveyItem, Checked.outcome_bind, Checked.outcome_ofExcept]
  rfl

/-- The first pass succeeds exactly if the variables of known types can be added one after the other and
every import can be read. -/
theorem survey_eq_ok_iff :
    items.foldlM (fun survey item => (surveyItem catalog own survey item).outcome) survey =
        .ok survey' ↔
      ((items.filterMap Item.variableNode?).filter fun node =>
          !own.contains (typeKey node)).foldlM
            (fun d node => (addVariable catalog d node).outcome) survey.dictionary =
          .ok survey'.dictionary ∧
        survey'.deferred = survey.deferred ++ (items.filterMap Item.variableNode?).filter
          (fun node => own.contains (typeKey node)) ∧
        ∃ uses, (items.filterMap Item.useNode?).mapM (readUse survey.dictionary.name) = .ok uses ∧
          survey'.uses = survey.uses ++ uses := by
  induction items generalizing survey with
  | nil =>
      obtain ⟨d, deferred, uses⟩ := survey
      obtain ⟨d', deferred', uses'⟩ := survey'
      simp [pure, Except.pure, eq_comm]
  | cons item items ih =>
      rw [List.foldlM_cons, bind_eq_ok_iff]
      simp only [ih]
      cases item with
      | aggregateItem node =>
          simp only [List.filterMap_cons, Item.variableNode?, Item.useNode?]
          constructor
          · rintro ⟨_, ⟨⟩, h⟩
            exact h
          · intro h
            exact ⟨survey, rfl, h⟩
      | variableItem node =>
          simp only [List.filterMap_cons, Item.variableNode?, Item.useNode?, outcome_surveyVariable,
            List.filter_cons]
          cases own.contains (typeKey node) with
          | true =>
              constructor
              · rintro ⟨_, ⟨⟩, h⟩
                simpa using h
              · intro h
                exact ⟨_, rfl, by simpa using h⟩
          | false =>
              constructor
              · rintro ⟨s, hs, hd, hrest⟩
                obtain ⟨d, ha, hs⟩ := bind_eq_ok hs
                cases hs
                obtain ⟨v, -, hv⟩ := addVariable_eq_ok ha
                rw [hv.name_eq] at hrest
                exact ⟨bind_eq_ok_iff.mpr ⟨d, ha, hd⟩, hrest⟩
              · rintro ⟨hd, hrest⟩
                obtain ⟨d, ha, hd⟩ := foldlM_cons_eq_ok hd
                obtain ⟨v, -, hv⟩ := addVariable_eq_ok ha
                rw [← hv.name_eq] at hrest
                exact ⟨_, bind_eq_ok_iff.mpr ⟨d, ha, rfl⟩, hd, hrest⟩
      | useItem node =>
          simp only [List.filterMap_cons, Item.variableNode?, Item.useNode?, outcome_surveyUse]
          constructor
          · rintro ⟨s, hs, hd, hf, uses, huses, hsum⟩
            obtain ⟨use, hu, hs⟩ := bind_eq_ok hs
            cases hs
            refine ⟨hd, hf, use :: uses, ?_, by simpa using hsum⟩
            rw [List.mapM_cons, hu, huses]
            rfl
          · rintro ⟨hd, hf, all, hall, hsum⟩
            rw [List.mapM_cons] at hall
            obtain ⟨use, hu, hall⟩ := bind_eq_ok hall
            obtain ⟨uses, huses, hall⟩ := bind_eq_ok hall
            cases hall
            exact ⟨_, bind_eq_ok_iff.mpr ⟨use, hu, rfl⟩, hd, hf, uses, huses, by simpa using hsum⟩

/-- The first pass depends on the order within each kind of items only. -/
theorem survey_congr (catalog : Catalog) (own : List String) (survey survey' : Survey)
    (hvariables : items.filterMap Item.variableNode? = items'.filterMap Item.variableNode?)
    (huses : items.filterMap Item.useNode? = items'.filterMap Item.useNode?) :
    items.foldlM (fun survey item => (surveyItem catalog own survey item).outcome) survey =
        .ok survey' ↔
      items'.foldlM (fun survey item => (surveyItem catalog own survey item).outcome) survey =
        .ok survey' := by
  rw [survey_eq_ok_iff, survey_eq_ok_iff, hvariables, huses]

/-! ## The items of a file -/

theorem Item.exists_of_known (scope : String) (h : node.tag ∈ itemTags) :
    ∃ item, Item.ofNode scope node = .ok item ∧
      item.useNode? = if (node.tag == "use") = true then some node else none := by
  have htag : node.tag = "variable" ∨ node.tag = "array" ∨ node.tag = "ddt" ∨ node.tag = "use" := by
    simpa [itemTags] using h
  rcases htag with ht | ht | ht | ht <;> simp [Item.ofNode, Item.useNode?, ht]

theorem items_of_known (scope : String) {children : List Node}
    (h : ∀ child ∈ children, child.tag ∈ itemTags) :
    ∃ items, children.mapM (Item.ofNode scope) = .ok items ∧
      items.filterMap Item.useNode? = children.filter (·.tag == "use") := by
  induction children with
  | nil => exact ⟨[], rfl, rfl⟩
  | cons child children ih =>
      obtain ⟨item, hitem, huse⟩ := Item.exists_of_known scope (h child (by simp))
      obtain ⟨items, hitems, huses⟩ := ih fun c hc => h c (by simp [hc])
      refine ⟨item :: items, ?_, ?_⟩
      · rw [List.mapM_cons, hitem, hitems]
        rfl
      · rw [List.filterMap_cons, List.filter_cons, huse, huses]
        cases child.tag == "use" <;> rfl

/-- Two files with the same attributes, and with the same variables, definitions and imports in their own
orders. -/
structure Interleaved (node node' : Node) : Prop where
  attributes : node.attributes = node'.attributes
  variableNodes : variableChildren node = variableChildren node'
  definitionNodes : definitionChildren node = definitionChildren node'
  useNodes : useChildren node = useChildren node'
  known : ∀ child ∈ node.children, child.tag ∈ itemTags
  known' : ∀ child ∈ node'.children, child.tag ∈ itemTags

theorem Interleaved.get_eq (h : Interleaved node node') (name : String) :
    node.get name = node'.get name := by
  rw [Node.get, Node.get, Node.get?, Node.get?, h.attributes]

/-- The two files fail alike or give one unit; the catalog after them is the same in any case. -/
theorem Interleaved.outcome (h : Interleaved node node') (dycore : String) (catalog : Catalog) :
    (∀ unit, ((FileUnit.ofNode dycore node).outcome catalog).1 = .ok unit ↔
        ((FileUnit.ofNode dycore node').outcome catalog).1 = .ok unit) ∧
      ((FileUnit.ofNode dycore node).outcome catalog).2 =
        ((FileUnit.ofNode dycore node').outcome catalog).2 := by
  obtain ⟨items, hitems, huses⟩ := items_of_known (node.get "name") h.known
  obtain ⟨items', hitems', huses'⟩ := items_of_known (node'.get "name") h.known'
  have hvariables : items.filterMap Item.variableNode? = items'.filterMap Item.variableNode? := by
    rw [(items_eq_ok hitems).1, (items_eq_ok hitems').1]
    exact h.variableNodes
  have hboth : items.filterMap Item.useNode? = items'.filterMap Item.useNode? := by
    rw [huses, huses']
    exact h.useNodes
  have hown : ownTypes node = ownTypes node' := by rw [ownTypes, ownTypes, h.definitionNodes]
  have hsurvey := fun survey => survey_congr catalog (ownTypes node')
    ⟨.empty (node'.get "name") (node'.get "type"), [], []⟩ survey hvariables hboth
  rw [outcome_ofNode, outcome_ofNode, hitems, hitems']
  dsimp only
  rw [hown, h.get_eq, h.get_eq, h.definitionNodes]
  cases hs : items.foldlM
      (fun survey item => (surveyItem catalog (ownTypes node') survey item).outcome)
      ⟨.empty (node'.get "name") (node'.get "type"), [], []⟩ with
  | ok survey =>
      rw [(hsurvey survey).mp hs]
      exact ⟨fun unit => Iff.rfl, rfl⟩
  | error fault =>
      cases hs' : items'.foldlM
          (fun survey item => (surveyItem catalog (ownTypes node') survey item).outcome)
          ⟨.empty (node'.get "name") (node'.get "type"), [], []⟩ with
      | ok survey =>
          rw [(hsurvey survey).mpr hs'] at hs
          cases hs
      | error fault' => exact ⟨fun unit => by simp, rfl⟩

/-- In any state of a run, two files that differ in how their items are interleaved can both be read or
both not; they give the same unit, with the same variables, types and imports in the same order, and they
leave the same state. -/
theorem interleaving_immaterial (h : Interleaved node node') (c : Compilation) :
    let read (file : Node) := (Compilation.onCatalog (FileUnit.ofNode c.context.dycore file)).outcome c
    ((∃ unit, (read node).1 = .ok unit) ↔ ∃ unit, (read node').1 = .ok unit) ∧
      (∀ unit c', read node = (.ok unit, c') ↔ read node' = (.ok unit, c')) ∧
      (read node).2 = (read node').2 := by
  obtain ⟨hunit, hcatalog⟩ := h.outcome c.context.dycore c.context.catalog
  intro read
  have hread (unit : FileUnit) : (read node).1 = .ok unit ↔ (read node').1 = .ok unit := by
    simp only [read, Compilation.onCatalog, Action.outcome_focus]
    exact hunit unit
  have hstate : (read node).2 = (read node').2 := by
    simp only [read, Compilation.onCatalog, Action.outcome_focus, hcatalog]
  refine ⟨exists_congr hread, fun unit c' => ?_, hstate⟩
  rw [Prod.ext_iff, Prod.ext_iff, hread, hstate]

/-- An import for a file. -/
def sampleUse : Node where
  tag := "use"
  attributes := [("module", "ccpp_kinds"), ("reference", "kind_phys")]

/-- `sampleFile` after an import. -/
def mixedFile : Node := { sampleFile with children := sampleUse :: sampleFile.children }

/-- The same file with its type first, then the variables and last the import. -/
def groupedFile : Node :=
  { sampleFile with
    children := definitionChildren sampleFile ++ variableChildren sampleFile ++ [sampleUse] }

theorem groupedFile_read :
    let start := Compilation.start "se" []
    let read (file : Node) :=
      (Compilation.onCatalog (FileUnit.ofNode start.context.dycore file)).outcome start
    Interleaved mixedFile groupedFile ∧ ∃ unit c', read mixedFile = (.ok unit, c') ∧
      read groupedFile = (.ok unit, c') ∧ unit.aggregateNames = ["physics_state"] ∧
      unit.uses = [⟨"ccpp_kinds", "kind_phys"⟩] := by
  intro start read
  have h : Interleaved mixedFile groupedFile :=
    ⟨rfl, rfl, rfl, rfl, by decide, by decide⟩
  have hok : (read mixedFile).1.toOption.any (fun unit => unit.aggregateNames = ["physics_state"] &&
      unit.uses = [⟨"ccpp_kinds", "kind_phys"⟩]) = true := by decide +kernel
  obtain ⟨unit, hread, hparts⟩ := Action.outcome_eq_ok_of_any hok
  obtain ⟨-, hsame, -⟩ := interleaving_immaterial h start
  exact ⟨h, unit, _, hread, (hsame unit _).mp hread, by simpa using hparts⟩

end FieldRegistry.FileUnit
