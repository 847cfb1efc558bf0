import FieldRegistry.Proofs.Respelling

/-!
# The letter case of references

Derived types, files and whole registries that differ in the letter case of references are read in step.
What is read from them is alike, so it has the same source texts.
-/

namespace FieldRegistry

variable {node node' : Node}

/-! ## Derived types -/

namespace Aggregate

variable {catalog catalog' : Catalog}

theorem matched_readParent (hc : catalog.Alike catalog') (h : RespelledAggregate node node')
    (name scope : String) :
    Matched Eq (readParent catalog node name scope) (readParent catalog' node' name scope) := by
  unfold readParent
  rcases rel_cases (h.attributes.rel_get? "extends") with
    ⟨hx, hx'⟩ | ⟨value, value', hx, hx', hvalue⟩
  · rw [hx, hx']
    exact .ok rfl
  · have hlower : Text.lower value = Text.lower value' := hvalue.elim (congrArg _) (·.2)
    rw [hx, hx']
    dsimp only
    -- the parent is kept by its own name, so the letters of the reference are lost here
    rcases rel_cases (hc.aggregate? hlower) with ⟨hy, hy'⟩ | ⟨a, a', hy, hy', ha⟩
    · rw [hy, hy']
      exact .error rfl
    · have hname : a.name = a'.name := congrArg (·.name) ha.rest
      rw [hy, hy']
      exact .ok (congrArg some hname)

theorem matched_readHeader (hc : catalog.Alike catalog') (h : RespelledAggregate node node')
    (scope : String) :
    Matched Eq (readHeader catalog scope node) (readHeader catalog' scope node') := by
  have hname : node.get "type" = node'.get "type" := h.attributes.get_eq (by decide)
  have hflag (name : String) (hother : name ∉ ["extends"]) :
      readFlag node name (node'.get "type") scope = readFlag node' name (node'.get "type") scope := by
    rw [readFlag, readFlag, h.attributes.get?_eq hother]
  rw [readHeader_eq, readHeader_eq, hname, hflag "bindC" (by decide), hflag "private" (by decide)]
  refine (matched_readParent hc h _ scope).bind ?_
  rintro parent _ - - rfl
  exact matched_self _

theorem listItems_eq (text : String) :
    listItems text = (listSpelling text).filter fun item => !item.isEmpty := rfl

theorem isFor_eq (h : node.Respelled ["dycore"] listSpelling node') (dycore : String) :
    isFor node dycore = isFor node' dycore := by
  have hitems : listSpelling (node.get "dycore") = listSpelling (node'.get "dycore") :=
    h.key_getD "dycore" ""
  rw [isFor, isFor, listItems_eq, listItems_eq, hitems]

theorem matched_takeMember {child child' : Node} (h : RespelledMember child child')
    (name dycore : String) :
    Action.Matched (Option.Rel Variable.Alike) Dictionary.Alike (takeMember name dycore child)
      (takeMember name dycore child') := by
  have htag : child.tag = child'.tag := by
    cases h with
    | same => rfl
    | data htag htag' => rw [htag, htag']
  have hfor : isFor child dycore = isFor child' dycore := by
    cases h with
    | same => rfl
    | data _ _ hattributes => exact isFor_eq hattributes dycore
  have hmember : Text.lower (Text.trim child.body) = Text.lower (Text.trim child'.body) := by
    cases h with
    | same => rfl
    | data _ _ _ hbody => exact hbody
  intro d d' hd
  rw [outcome_takeMember, outcome_takeMember, htag, hfor]
  cases child'.tag != "data" with
  | true => exact ⟨.error rfl, hd⟩
  | false =>
      cases isFor child' dycore with
      | false => exact ⟨.ok .none, hd⟩
      | true =>
          rw [if_neg Bool.false_ne_true, if_neg Bool.false_ne_true, if_pos rfl, if_pos rfl]
          rcases rel_cases (hd.take? hmember) with
            ⟨hx, hx'⟩ | ⟨⟨v, rest⟩, ⟨v', rest'⟩, hx, hx', hv, hrest⟩
          · rw [hx, hx']
            exact ⟨.error (by simp only [Fault.code]), hd⟩
          · rw [hx, hx']
            exact ⟨.ok (.some hv), hrest⟩

theorem matched_ofNode (hc : catalog.Alike catalog') (h : RespelledAggregate node node')
    (dycore : String) :
    Action.Matched Aggregate.Alike Dictionary.Alike (Aggregate.ofNode catalog dycore node)
      (Aggregate.ofNode catalog' dycore node') := by
  intro d d' hd
  have hheader := matched_readHeader hc h d'.name
  rw [outcome_ofNode, outcome_ofNode, hd.name]
  generalize readHeader catalog d'.name node = header at hheader ⊢
  generalize readHeader catalog' d'.name node' = header' at hheader ⊢
  cases hheader with
  | error hcode => exact ⟨.error hcode, hd⟩
  | @ok header _ heq =>
      subst heq
      have htaken := Action.matched_mapM h.children
        (fun child child' hchild => matched_takeMember hchild header.name dycore) d d' hd
      refine ⟨htaken.result.map fun taken taken' hvs => ⟨rfl, ?_⟩, htaken.state⟩
      exact List.rel_filterMap (fun _ _ hv => hv) hvs

end Aggregate

theorem Catalog.matched_announce {a a' : Aggregate} (ha : a.Alike a') {name name' scope scope' : String}
    (hname : name = name') (hscope : scope = scope') :
    Action.Matched (fun _ _ => True) Catalog.Alike (Catalog.announce name scope (some a))
      (Catalog.announce name' scope' (some a')) := by
  intro catalog catalog' hc
  subst hname hscope
  rw [outcome_announce, outcome_announce, register, register]
  rcases rel_cases (hc.lookup? (rfl : Text.lower name = _)) with
    ⟨hx, hx'⟩ | ⟨entry, entry', hx, hx', -⟩
  · rw [hx, hx']
    exact ⟨.ok trivial, List.rel_append hc (.cons ⟨rfl, rfl, .some ha⟩ .nil)⟩
  · rw [hx, hx']
    exact ⟨.error rfl, hc⟩

/-! ## Files -/

namespace FileUnit

variable {catalog catalog' : Catalog}

/-- The elements of files, respelled according to their kind. -/
inductive Item.Respelled : Item → Item → Prop
  | variableItem {node node' : Node} : RespelledVariable node node' →
      Respelled (.variableItem node) (.variableItem node')
  | aggregateItem {node node' : Node} : RespelledAggregate node node' →
      Respelled (.aggregateItem node) (.aggregateItem node')
  | useItem (node : Node) : Respelled (.useItem node) (.useItem node)

theorem Item.Respelled.refl (item : Item) : Respelled item item := by
  cases item with
  | variableItem node => exact .variableItem (.refl node)
  | aggregateItem node => exact .aggregateItem (.refl node)
  | useItem node => exact .useItem node

theorem Item.matched_ofNode (h : RespelledItem node node') (scope : String) :
    Matched Item.Respelled (Item.ofNode scope node) (Item.ofNode scope node') := by
  cases h with
  | same => exact Matched.refl Item.Respelled.refl _
  | variableItem hkind htag _ h =>
      have hv : (node.tag == "variable" || node.tag == "array") = true := by simpa using hkind
      rw [Item.ofNode, Item.ofNode, ← htag, if_pos hv, if_pos hv]
      exact .ok (.variableItem h)
  | aggregateItem htag htag' _ h =>
      rw [Item.ofNode, Item.ofNode, htag, htag']
      exact .ok (.aggregateItem h)

theorem typeKey_eq (h : RespelledVariable node node') : typeKey node = typeKey node' :=
  h.attributes.key_getD "type" ""

theorem matched_addVariable (hc : catalog.Alike catalog') {d d' : Dictionary} (hd : d.Alike d')
    (h : RespelledVariable node node') :
    Matched Dictionary.Alike (addVariable catalog d node).outcome
      (addVariable catalog' d' node').outcome := by
  unfold addVariable
  rw [Checked.outcome_bind, Checked.outcome_bind]
  refine (Variable.matched_ofNode hc hd h).bind fun v v' _ _ hv => ?_
  rw [Checked.outcome_bind, Checked.outcome_bind]
  exact (Action.matched_alone (Dictionary.matched_add hv) hd).bind fun _ _ _ _ hp => .ok hp.2

structure Survey.Alike (survey survey' : Survey) : Prop where
  dictionary : survey.dictionary.Alike survey'.dictionary
  deferred : List.Forall₂ RespelledVariable survey.deferred survey'.deferred
  uses : survey.uses = survey'.uses

theorem matched_surveyItem (hc : catalog.Alike catalog') (ownTypes : List String)
    {survey survey' : Survey} (hs : survey.Alike survey') {item item' : Item}
    (h : item.Respelled item') :
    Matched Survey.Alike (surveyItem catalog ownTypes survey item).outcome
      (surveyItem catalog' ownTypes survey' item').outcome := by
  cases h with
  | variableItem h =>
      rw [surveyItem, surveyItem, typeKey_eq h]
      split
      · exact .ok ⟨hs.dictionary, List.rel_append hs.deferred (.cons h .nil), hs.uses⟩
      · rw [Checked.outcome_bind, Checked.outcome_bind]
        exact (matched_addVariable hc hs.dictionary h).bind fun d d' _ _ hd =>
          .ok ⟨hd, hs.deferred, hs.uses⟩
  | aggregateItem h => exact .ok hs
  | useItem node =>
      rw [surveyItem, surveyItem, Checked.outcome_bind, Checked.outcome_bind, hs.dictionary.name]
      refine (matched_self _).bind ?_
      rintro use _ - - rfl
      exact .ok ⟨hs.dictionary, hs.deferred, by rw [hs.uses]⟩

/-- Two states of the second pass. -/
def DefinedAlike (progress progress' : Dictionary × List String) : Prop :=
  progress.1.Alike progress'.1 ∧ progress.2 = progress'.2

theorem matched_defineAggregate (dycore : String) {deferred deferred' : List Node}
    (hdeferred : List.Forall₂ RespelledVariable deferred deferred')
    {progress progress' : Dictionary × List String} (hp : DefinedAlike progress progress')
    (h : RespelledAggregate node node') :
    Action.Matched DefinedAlike Catalog.Alike (defineAggregate dycore deferred progress node)
      (defineAggregate dycore deferred' progress' node') := by
  obtain ⟨hd, hnames⟩ := hp
  refine Action.matched_get.bind fun catalog catalog' hc => ?_
  refine (Action.matched_within (Aggregate.matched_ofNode hc h dycore) hd).bind ?_
  rintro ⟨a, rest⟩ ⟨a', rest'⟩ ⟨ha, hrest⟩
  have hname : a.name = a'.name := congrArg (·.name) ha.rest
  refine (Catalog.matched_announce ha hname hrest.name).bind fun _ _ _ => ?_
  refine Action.matched_get.bind fun catalog catalog' hc => ?_
  have hwaiting : List.Forall₂ RespelledVariable
      (deferred.filter fun node => typeKey node == Text.lower a.name)
      (deferred'.filter fun node => typeKey node == Text.lower a'.name) :=
    List.rel_filter (fun node node' hnode => by dsimp only; rw [typeKey_eq hnode, hname]) hdeferred
  refine (Action.matched_lift (R := Dictionary.Alike) ?_).bind fun d d' hd =>
    Action.matched_pure ⟨hd, by rw [hname, hnames]⟩
  rw [Checked.outcome_foldlM, Checked.outcome_foldlM]
  exact matched_foldlM hwaiting (fun d d' node node' hd hnode => matched_addVariable hc hd hnode) hrest

theorem matched_ofNode (dycore : String) (h : SameAbove RespelledItem node node') :
    Action.Matched FileUnit.Alike Catalog.Alike (FileUnit.ofNode dycore node)
      (FileUnit.ofNode dycore node') := by
  have hget (name : String) : node.get name = node'.get name := by
    rw [Node.get, Node.get, Node.get?, Node.get?, h.attributes]
  unfold FileUnit.ofNode
  rw [hget, hget]
  refine (Action.matched_lift (matched_mapM h.children fun child child' hchild =>
    Item.matched_ofNode hchild (node'.get "name"))).bind fun items items' hitems => ?_
  have hdefinitions : List.Forall₂ RespelledAggregate (items.filterMap Item.aggregate?)
      (items'.filterMap Item.aggregate?) := by
    refine List.rel_filterMap (fun item item' hitem => ?_) hitems
    cases hitem with
    | variableItem _ => exact .none
    | aggregateItem h => exact .some h
    | useItem _ => exact .none
  have hown : (items.filterMap Item.aggregate?).map typeKey =
      (items'.filterMap Item.aggregate?).map typeKey :=
    map_eq_of_forall₂ hdefinitions fun a a' ha => by
      rw [typeKey, typeKey, ha.attributes.get_eq (by decide)]
  dsimp only
  rw [hown]
  refine Action.matched_get.bind fun catalog catalog' hc => ?_
  refine (Action.matched_lift (R := Survey.Alike) ?_).bind fun survey survey' hsurvey => ?_
  · rw [Checked.outcome_foldlM, Checked.outcome_foldlM]
    exact matched_foldlM hitems (fun s s' item item' hs hitem => matched_surveyItem hc _ hs hitem)
      ⟨⟨rfl, .nil⟩, .nil, rfl⟩
  have hstart : DefinedAlike (survey.dictionary, []) (survey'.dictionary, []) :=
    ⟨hsurvey.dictionary, rfl⟩
  refine (Action.matched_foldlM hdefinitions (fun p p' a a' hp ha =>
    matched_defineAggregate dycore hsurvey.deferred hp ha) hstart).bind ?_
  rintro ⟨d, names⟩ ⟨d', names'⟩ ⟨hd, rfl⟩
  refine Action.matched_pure ⟨?_, hd⟩
  rw [hsurvey.uses]

end FileUnit

/-! ## Compilations -/

namespace Compilation

variable {root root' : Node}

theorem matched_compileSection (h : SameAbove RespelledItem node node') :
    Action.Matched (fun _ _ => True) Alike (compileSection node) (compileSection node') := by
  unfold compileSection
  rw [h.tag]
  refine Action.Matched.bind (R := fun _ _ => True) (fun _ _ hc => ⟨.ok trivial, hc⟩) fun _ _ _ => ?_
  cases node'.tag != "file" with
  | true => exact fun c c' hc => ⟨.error rfl, hc⟩
  | false =>
      refine Action.matched_get.bind fun c c' hc => ?_
      refine Action.Matched.bind (R := FileUnit.Alike) ?_ fun unit unit' hunit => ?_
      · intro d d' hd
        have hread := FileUnit.matched_ofNode c'.context.dycore h _ _ hd.catalog
        rw [onCatalog, onCatalog, Action.outcome_focus, Action.outcome_focus, hc.dycore]
        exact ⟨hread.result, hread.state, hd.ranking, hd.dycore, hd.settings, hd.units⟩
      · exact fun d d' hd => ⟨.ok trivial, hd.catalog, hd.ranking, hd.dycore, hd.settings,
          List.rel_append hd.units (.cons hunit .nil)⟩

theorem matched_compile (h : RespelledRegistry root root') :
    Action.Matched (fun _ _ => True) Alike (compile root) (compile root') :=
  Action.matched_forM h.children fun _ _ hsection => matched_compileSection hsection

/-- In any state of a run, two registries that differ in the letter case of references can both be read,
or both not, for a fault of one kind. Then the files of the run can both be generated, or both not, for a
fault of one kind, and they have the same names and source texts. -/
theorem letter_case_immaterial (h : RespelledRegistry root root') (c : Compilation) (style : Style) :
    let read (root : Node) := (compile root).outcome c
    Matched (fun _ _ => True) (read root).1 (read root').1 ∧
      Matched (List.Forall₂ Output.Alike) ((generate style).outcome (read root).2).1
        ((generate style).outcome (read root').2).1 := by
  intro read
  obtain ⟨hresult, hstate⟩ := matched_compile h c c (.refl c)
  exact ⟨hresult, (Alike.generate style _ _ hstate).result⟩

/-- A registry whose references are written by `spell`. -/
def spelledRegistry (spell : String → String) : Node where
  tag := "registry"
  children :=
    [{ tag := "file"
       attributes := [("name", "physics_types"), ("type", "module")]
       children :=
        [{ tag := "variable"
           attributes := [("local_name", "state"), ("standard_name", "physics_state_instance"),
             ("type", spell "wet_state")] },
         { tag := "variable"
           attributes := [("local_name", "ix_water"), ("standard_name", "index_of_water"),
             ("type", spell "integer")] },
         { tag := "array"
           attributes := [("allocatable", "pointer"), ("local_name", "q"),
             ("standard_name", "mixing_ratios"), ("type", spell "real")]
           children :=
            [{ tag := "dimensions", text := some "levels" },
             { tag := "element"
               attributes := [("index_name", spell "index_of_water"),
                 ("index_pos", "levels"), ("standard_name", "water_vapor")] }] },
         { tag := "array"
           attributes := [("allocatable", "pointer"), ("local_name", "t"),
             ("standard_name", "air_temperature"), ("type", spell "real")]
           children := [{ tag := "dimensions", text := some (spell "levels") }] },
         { tag := "ddt"
           attributes := [("type", "dry_state")]
           children :=
            [{ tag := "data"
               attributes := [("dycore", spell "fv, se")]
               text := some (spell "air_temperature") }] },
         { tag := "ddt"
           attributes := [("extends", spell "dry_state"), ("type", "wet_state")]
           children := [{ tag := "data", text := some "mixing_ratios" }] }] }]

def capitals (s : String) : String := String.ofList (s.toList.map Char.toUpper)

theorem spelledRegistry_generated :
    let read (root : Node) := (compile root).outcome (.start "se" [])
    let files (root : Node) := ((generate {}).outcome (read root).2).1
    RespelledRegistry (spelledRegistry id) (spelledRegistry capitals) ∧
      (read (spelledRegistry id)).1 = .ok () ∧ (read (spelledRegistry capitals)).1 = .ok () ∧
      ∃ outputs outputs', files (spelledRegistry id) = .ok outputs ∧
        files (spelledRegistry capitals) = .ok outputs' ∧
        outputs.map (·.fileName) = ["physics_types.meta", "physics_types.F90"] ∧
        List.Forall₂ Output.Alike outputs outputs' := by
  intro read files
  have h : RespelledRegistry (spelledRegistry id) (spelledRegistry capitals) := by
    refine ⟨rfl, rfl, rfl, .cons ⟨rfl, rfl, rfl, ?_⟩ .nil⟩
    refine .cons (.variableItem (.inl rfl) rfl rfl ⟨by decide +kernel, .nil⟩)
      (.cons (.variableItem (.inl rfl) rfl rfl ⟨by decide +kernel, .nil⟩)
      (.cons (.variableItem (.inr rfl) rfl rfl ⟨by decide +kernel, ?_⟩)
      (.cons (.variableItem (.inr rfl) rfl rfl ⟨by decide +kernel, ?_⟩)
      (.cons (.aggregateItem rfl rfl rfl ⟨by decide +kernel, ?_⟩)
      (.cons (.aggregateItem rfl rfl rfl ⟨by decide +kernel, ?_⟩) .nil)))))
    · exact .cons (.same _) (.cons (.element rfl rfl (by decide +kernel) rfl rfl) .nil)
    · exact .cons (.dimensions (by simp [Node.IsBare]) rfl rfl rfl (by decide +kernel) rfl) .nil
    · exact .cons (.data rfl rfl (by decide +kernel) (by decide +kernel) rfl) .nil
    · exact .cons (.same _) .nil
  obtain ⟨hresult, hgenerated⟩ := letter_case_immaterial h (.start "se" []) {}
  have hruns : (read (spelledRegistry id)).1.toOption.any (fun _ => true) = true ∧
      (files (spelledRegistry id)).toOption.any (fun outputs =>
        outputs.map (·.fileName) = ["physics_types.meta", "physics_types.F90"]) = true := by
    decide +kernel
  obtain ⟨_, hok, -⟩ := eq_ok_of_any hruns.1
  obtain ⟨outputs, houtputs, hnames⟩ := eq_ok_of_any hruns.2
  obtain ⟨_, hok', -⟩ := hresult.eq_ok hok
  obtain ⟨outputs', houtputs', hsame⟩ := hgenerated.eq_ok houtputs
  exact ⟨h, hok, hok', outputs, outputs', houtputs, houtputs', by simpa using hnames, hsame⟩

end Compilation

end FieldRegistry
