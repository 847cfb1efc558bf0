import FieldRegistry.Proofs.Outline

/-!
# Respelled references

A reference is the name of something that is defined elsewhere: a type, a variable, a dimension or a
dynamical core. Two registries are respelled if they differ in the letter case of references only.
Quantities, array elements and variables of respelled elements are read in step, with faults of one kind
or with results that are alike.
-/

namespace FieldRegistry

variable {node node' : Node}

/-! ## Attributes -/

/-- Attributes of the same names. Their values are the same too, except that under `names` only their
keys are. -/
def Node.Respelled {κ : Type} (names : List String) (key : String → κ) (node node' : Node) : Prop :=
  List.Forall₂ (fun a a' => a.1 = a'.1 ∧ (a.2 = a'.2 ∨ a.1 ∈ names ∧ key a.2 = key a'.2))
    node.attributes node'.attributes

instance {κ : Type} [DecidableEq κ] (names : List String) (key : String → κ) (node node' : Node) :
    Decidable (node.Respelled names key node') :=
  decidable_of_iff (node.attributes.length = node'.attributes.length ∧
      ∀ p ∈ node.attributes.zip node'.attributes,
        p.1.1 = p.2.1 ∧ (p.1.2 = p.2.2 ∨ p.1.1 ∈ names ∧ key p.1.2 = key p.2.2)) <| by
    rw [Node.Respelled, List.forall₂_iff_zip, Prod.forall]

namespace Node.Respelled

variable {κ : Type} {names : List String} {key : String → κ}

theorem refl (node : Node) : Respelled names key node node :=
  List.forall₂_same.mpr fun _ _ => ⟨rfl, Or.inl rfl⟩

theorem strangeAttribute? (h : Respelled names key node node') (known : List String) :
    node.strangeAttribute? known = node'.strangeAttribute? known := by
  rw [Node.strangeAttribute?, Node.strangeAttribute?, map_eq_of_forall₂ h fun _ _ ha => ha.1]

theorem rel_get? (h : Respelled names key node node') (name : String) :
    Option.Rel (fun value value' => value = value' ∨ name ∈ names ∧ key value = key value')
      (node.get? name) (node'.get? name) := by
  have hfound : Option.Rel _ (node.attributes.find? (·.1 == name))
      (node'.attributes.find? (·.1 == name)) := rel_find? h fun a a' ha => by rw [ha.1]
  unfold Node.get?
  rcases rel_cases hfound with ⟨hx, hx'⟩ | ⟨a, a', hx, hx', -, ha⟩
  · rw [hx, hx']
    exact .none
  · have hname := List.find?_some hx
    rw [beq_iff_eq] at hname
    subst hname
    rw [hx, hx']
    exact .some ha

theorem get?_eq (h : Respelled names key node node') {name : String} (hname : name ∉ names) :
    node.get? name = node'.get? name := by
  rcases rel_cases (h.rel_get? name) with ⟨hx, hx'⟩ | ⟨value, value', hx, hx', hvalue | hvalue⟩
  · rw [hx, hx']
  · rw [hx, hx', hvalue]
  · exact absurd hvalue.1 hname

theorem get_eq (h : Respelled names key node node') {name : String} (hname : name ∉ names) :
    node.get name = node'.get name := by
  rw [Node.get, Node.get, h.get?_eq hname]

theorem key_getD (h : Respelled names key node node') (name default : String) :
    key ((node.get? name).getD default) = key ((node'.get? name).getD default) := by
  rcases rel_cases (h.rel_get? name) with ⟨hx, hx'⟩ | ⟨value, value', hx, hx', hvalue | hvalue⟩
  · rw [hx, hx']
  · rw [hx, hx', hvalue]
  · rw [hx, hx']
    exact hvalue.2

end Node.Respelled

/-! ## Registries -/

/-- The attributes of variables, arrays and elements that refer to something. -/
def referenceNames : List String := ["type", "extends", "index_name"]

/-- Children of variables. Where `bare` holds, the names in dimensions are references. -/
inductive RespelledPart (bare : Prop) : Node → Node → Prop
  | same (node : Node) : RespelledPart bare node node
  | element {node node' : Node} : node.tag = "element" → node'.tag = "element" →
      node.Respelled referenceNames Text.lower node' → node.text = node'.text →
      node.children = node'.children → RespelledPart bare node node'
  | dimensions {node node' : Node} : bare → node.tag = "dimensions" → node'.tag = "dimensions" →
      node.attributes = node'.attributes →
      (Dimension.tokens node.body).map Dimension.spelling =
        (Dimension.tokens node'.body).map Dimension.spelling →
      node.children = node'.children → RespelledPart bare node node'

def Node.IsBare (node : Node) : Prop := ∀ child ∈ node.children, child.tag ≠ "element"

/-- Two variables or arrays. Elements name a dimension as it is written, so only without elements are
the names in dimensions references. -/
structure RespelledVariable (node node' : Node) : Prop where
  attributes : node.Respelled referenceNames Text.lower node'
  children : List.Forall₂ (RespelledPart node.IsBare) node.children node'.children

/-- The items of a list with commas, in lower case. -/
def listSpelling (text : String) : List String :=
  (Text.splitAll ',' text).map fun item => Text.lower (Text.trim item)

/-- Children of derived types. -/
inductive RespelledMember : Node → Node → Prop
  | same (node : Node) : RespelledMember node node
  | data {node node' : Node} : node.tag = "data" → node'.tag = "data" →
      node.Respelled ["dycore"] listSpelling node' →
      Text.lower (Text.trim node.body) = Text.lower (Text.trim node'.body) →
      node.children = node'.children → RespelledMember node node'

structure RespelledAggregate (node node' : Node) : Prop where
  attributes : node.Respelled ["extends"] Text.lower node'
  children : List.Forall₂ RespelledMember node.children node'.children

/-- Children of files. -/
inductive RespelledItem : Node → Node → Prop
  | same (node : Node) : RespelledItem node node
  | variableItem {node node' : Node} : node.tag = "variable" ∨ node.tag = "array" →
      node.tag = node'.tag → node.text = node'.text → RespelledVariable node node' →
      RespelledItem node node'
  | aggregateItem {node node' : Node} : node.tag = "ddt" → node'.tag = "ddt" →
      node.text = node'.text → RespelledAggregate node node' → RespelledItem node node'

/-- Two elements that are the same but for their children, which are related. -/
structure SameAbove (R : Node → Node → Prop) (node node' : Node) : Prop where
  tag : node.tag = node'.tag
  attributes : node.attributes = node'.attributes
  text : node.text = node'.text
  children : List.Forall₂ R node.children node'.children

/-- Two registries that differ at most in the letter case of references. -/
def RespelledRegistry : Node → Node → Prop := SameAbove (SameAbove RespelledItem)

theorem RespelledVariable.refl (node : Node) : RespelledVariable node node :=
  ⟨.refl node, List.forall₂_same.mpr fun child _ => .same child⟩

theorem RespelledAggregate.refl (node : Node) : RespelledAggregate node node :=
  ⟨.refl node, List.forall₂_same.mpr fun child _ => .same child⟩

/-! ## Parts of variables -/

namespace RespelledPart

variable {bare : Prop} {child child' : Node}

theorem tag (h : RespelledPart bare child child') : child.tag = child'.tag := by
  cases h with
  | same => rfl
  | element htag htag' => rw [htag, htag']
  | dimensions _ htag htag' => rw [htag, htag']

theorem eq_of_tag (h : RespelledPart bare child child') (hne : child.tag ≠ "element")
    (hnd : child.tag ≠ "dimensions") : child = child' := by
  cases h with
  | same => rfl
  | element htag => exact absurd htag hne
  | dimensions _ htag => exact absurd htag hnd

theorem of_element (h : RespelledPart bare child child') (htag : child.tag = "element") :
    child.Respelled referenceNames Text.lower child' ∧ child.children = child'.children := by
  cases h with
  | same => exact ⟨.refl _, rfl⟩
  | element _ _ hattributes _ hchildren => exact ⟨hattributes, hchildren⟩
  | dimensions _ hd =>
      rw [htag] at hd
      exact absurd hd (by decide)

theorem tokens (h : RespelledPart bare child child') (htag : child.tag = "dimensions") :
    (Dimension.tokens child.body).map Dimension.spelling =
        (Dimension.tokens child'.body).map Dimension.spelling ∧
      (¬bare → Dimension.tokens child.body = Dimension.tokens child'.body) := by
  cases h with
  | same => exact ⟨rfl, fun _ => rfl⟩
  | element he =>
      rw [htag] at he
      exact absurd he (by decide)
  | dimensions hbare _ _ _ htokens => exact ⟨htokens, fun hn => absurd hbare hn⟩

end RespelledPart

theorem RespelledPart.filter {bare : Prop} {children children' : List Node}
    (h : List.Forall₂ (RespelledPart bare) children children') (tag : String) :
    List.Forall₂ (fun child child' => RespelledPart bare child child' ∧ child.tag = tag)
      (children.filter (·.tag == tag)) (children'.filter (·.tag == tag)) := by
  induction h with
  | nil => exact .nil
  | @cons child child' children children' hchild _ ih =>
      rw [List.filter_cons, List.filter_cons, ← hchild.tag]
      cases htag : child.tag == tag with
      | true => exact .cons ⟨hchild, eq_of_beq htag⟩ ih
      | false => exact ih

theorem RespelledVariable.lastChild? (h : RespelledVariable node node') {tag : String}
    (htag : tag ∈ Element.knownChildren) : node.lastChild? tag = node'.lastChild? tag := by
  have hother : ∀ tag ∈ Element.knownChildren, tag ≠ "element" ∧ tag ≠ "dimensions" := by decide
  have hsame : List.Forall₂ Eq (node.children.filter (·.tag == tag))
      (node'.children.filter (·.tag == tag)) := by
    refine (RespelledPart.filter h.children tag).imp ?_
    rintro child child' ⟨hchild, rfl⟩
    exact hchild.eq_of_tag (hother _ htag).1 (hother _ htag).2
  rw [List.forall₂_eq_eq_eq] at hsame
  rw [Node.lastChild?, Node.lastChild?, hsame]

/-! ## Quantities -/

namespace Quantity

variable {catalog catalog' : Catalog}

theorem matched_readType (hc : catalog.Alike catalog')
    (h : node.Respelled referenceNames Text.lower node') (scope localName localName' : String)
    (defaults : Defaults) :
    Matched Eq (readType catalog scope node localName defaults)
      (readType catalog' scope node' localName' defaults) := by
  refine matched_demand (rel_map (hc.lookup? (h.key_getD "type" _)) fun entry entry' hentry => ?_) rfl
  have hsome : entry.aggregate.isSome = entry'.aggregate.isSome := by
    rcases rel_cases hentry.aggregate with ⟨hx, hx'⟩ | ⟨a, a', hx, hx', -⟩
    · rw [hx, hx']
    · rw [hx, hx']
      rfl
  rw [TypeEntry.ref, TypeEntry.ref, hentry.name, hentry.scope, hsome]

/-- What is read differs at most in the name and in the dimensions that are given. -/
theorem matched_read (hc : catalog.Alike catalog')
    (h : node.Respelled referenceNames Text.lower node')
    (hlast : ∀ tag ∈ Element.knownChildren, node.lastChild? tag = node'.lastChild? tag)
    (scope localName localName' : String) (dimensions dimensions' : List String)
    (defaults : Defaults) :
    Matched (fun q q' => ∃ p : Quantity, q = { p with localName, dimensions } ∧
        q' = { p with localName := localName', dimensions := dimensions' })
      (read catalog scope node localName dimensions defaults)
      (read catalog' scope node' localName' dimensions' defaults) := by
  have hkind : node.get? "kind" = node'.get? "kind" := h.get?_eq (by decide)
  have hallocatable : node.get? "allocatable" = node'.get? "allocatable" := h.get?_eq (by decide)
  have hunits : node.get? "units" = node'.get? "units" := h.get?_eq (by decide)
  have hstandard : node.get "standard_name" = node'.get "standard_name" := h.get_eq (by decide)
  rw [read_eq, read_eq, hkind, hunits, hstandard]
  dsimp only
  refine (matched_readType hc h ..).bind ?_
  rintro type _ - - rfl
  refine (matched_refuse_ite rfl (by rfl)).bind fun _ _ _ _ _ => ?_
  have hstorage : Matched Eq (readOwnStorage scope node localName defaults)
      (readOwnStorage scope node' localName' defaults) := by
    rw [readOwnStorage, readOwnStorage, hallocatable]
    cases node'.get? "allocatable" with
    | none => exact .ok rfl
    | some value =>
        dsimp only
        rw [readStorage, readStorage]
        cases Storage.parse? value with
        | none => exact .error rfl
        | some storage => exact .ok rfl
  refine hstorage.bind ?_
  rintro storage _ - - rfl
  rw [readInitialValue, readInitialValue, readInputNames, readInputNames, Node.lastText?,
    Node.lastText?, Node.lastText?, Node.lastText?, hlast "long_name" (by decide),
    hlast "initial_value" (by decide), hlast "ic_file_input_names" (by decide)]
  exact .ok ⟨.mk localName _ _ _ _ dimensions _ _ _ _, rfl, rfl⟩

end Quantity

/-! ## Dictionaries -/

namespace Dictionary.Alike

variable {d d' : Dictionary}

theorem name (h : d.Alike d') : d.name = d'.name := congrArg (·.name) h.rest

theorem findStandard? (h : d.Alike d') {name name' : String}
    (hname : Text.lower name = Text.lower name') :
    Option.Rel Variable.Alike (d.findStandard? name) (d'.findStandard? name') := by
  refine rel_find? h.declared fun v v' hv => ?_
  rw [Text.sameLetters, Text.sameLetters, hv.standardName, hname]

theorem findLocal? (h : d.Alike d') (name : String) :
    Option.Rel Variable.Alike (d.findLocal? name) (d'.findLocal? name) :=
  rel_lookup h.entries (Text.lower name)

theorem take? (h : d.Alike d') {name name' : String} (hname : Text.lower name = Text.lower name') :
    Option.Rel (fun p p' => p.1.Alike p'.1 ∧ Dictionary.Alike p.2 p'.2) (d.take? name)
      (d'.take? name') := by
  rw [take?_eq, take?_eq]
  have hfound : Option.Rel (fun entry entry' => entry.1 = entry'.1 ∧ entry.2.Alike entry'.2)
      (d.byLocalName.entries.find? fun entry => Text.sameLetters entry.2.standardName name)
      (d'.byLocalName.entries.find? fun entry => Text.sameLetters entry.2.standardName name') := by
    refine rel_find? h.entries fun entry entry' he => ?_
    rw [Text.sameLetters, Text.sameLetters, he.2.standardName, hname]
  refine rel_map hfound fun entry entry' he => ⟨he.2, h.rest, ?_⟩
  exact List.rel_filter (fun e e' hkey => by simp [hkey.1, he.1]) h.entries

end Dictionary.Alike

theorem Dictionary.matched_add {v v' : Variable} (hv : v.Alike v') :
    Action.Matched (fun _ _ => True) Dictionary.Alike (Dictionary.add v) (Dictionary.add v') := by
  intro d d' h
  have hreserved : d.reserved = d'.reserved := congrArg (·.reserved) h.rest
  rw [outcome_add, outcome_add, hv.localName, hv.standardName, hreserved]
  rcases rel_cases (h.findLocal? v'.localName) with ⟨hx, hx'⟩ | ⟨other, other', hx, hx', -⟩
  · rw [hx, hx']
    dsimp only
    cases d'.reserved.contains (Text.lower v'.standardName) with
    | true => exact ⟨.error rfl, h⟩
    | false =>
        refine ⟨.ok trivial, ?_, ?_⟩
        · have hkind : d.kind = d'.kind := congrArg (·.kind) h.rest
          have hknown : d.knownDimensions = d'.knownDimensions := congrArg (·.knownDimensions) h.rest
          simp [extend, h.name, hkind, hreserved, hknown, hv.standardName, hv.dimensionNames]
        · simp only [Bool.false_eq_true, if_false, extend, hv.localName]
          rw [OrderedMap.entries_insert (OrderedMap.get?_eq_none_iff.mp hx),
            OrderedMap.entries_insert (OrderedMap.get?_eq_none_iff.mp hx')]
          exact List.rel_append h.entries (.cons ⟨rfl, hv⟩ .nil)
  · rw [hx, hx']
    exact ⟨.error rfl, h⟩

/-! ## Array elements -/

theorem Element.matched_ofNode {catalog catalog' : Catalog} (hc : catalog.Alike catalog')
    {d d' : Dictionary} (hd : d.Alike d') (h : node.Respelled referenceNames Text.lower node')
    (hchildren : node.children = node'.children) (parent : Quantity) :
    Matched (fun e e' => e.outline = e'.outline) (Element.ofNode catalog d parent node).outcome
      (Element.ofNode catalog' d' parent node').outcome := by
  have hposition : node.get "index_pos" = node'.get "index_pos" := h.get_eq (by decide)
  rw [outcome_ofNode, outcome_ofNode, hposition, hchildren, hd.name]
  dsimp only
  refine (matched_refuse_map (h.strangeAttribute? _) fun _ => rfl).bind fun _ _ _ _ _ => ?_
  refine (matched_refuse_map rfl fun _ => rfl).bind fun _ _ _ _ _ => ?_
  refine (matched_demand (hd.findStandard? (h.key_getD "index_name" "")) (by rfl)).bind
    fun index index' _ _ hindex => ?_
  refine (matched_refuse_ite rfl (by rfl)).bind fun _ _ _ _ _ => ?_
  have hlast (tag : String) : node.lastChild? tag = node'.lastChild? tag := by
    rw [Node.lastChild?, Node.lastChild?, hchildren]
  refine (Quantity.matched_read hc h (fun tag _ => hlast tag) ..).bind ?_
  rintro _ _ - - ⟨p, rfl, rfl⟩
  refine .ok ?_
  rw [hindex.localName]
  rfl

/-! ## Variables -/

namespace Variable

variable {catalog catalog' : Catalog} {d d' : Dictionary}

theorem matched_declaredExtent (hd : d.Alike d') {token token' : String}
    (h : Dimension.spelling token = Dimension.spelling token') (storage : Storage)
    (localName : String) :
    Matched Eq (declaredExtent d storage localName token).outcome
      (declaredExtent d' storage localName token').outcome := by
  rw [outcome_declaredExtent, outcome_declaredExtent, Dimension.hasStep_eq, Dimension.hasStep_eq, h]
  refine (matched_refuse_ite rfl (by rfl)).bind fun _ _ _ _ _ => ?_
  cases storage.hasFixedShape with
  | false => exact .ok rfl
  | true =>
      have hpieces : List.Forall₂ (fun name name' => Text.lower (Text.trim name) =
          Text.lower (Text.trim name')) (Text.splitAll ':' token) (Text.splitAll ':' token') := by
        rw [Dimension.spelling, Dimension.spelling, Dimension.components, Dimension.components,
          List.map_map, List.map_map] at h
        exact forall₂_of_map_eq h
      rw [if_pos rfl, if_pos rfl, Dimension.components, Dimension.components, List.mapM_map,
        List.mapM_map]
      refine (matched_mapM (R := Eq) hpieces fun name name' hname => ?_).bind
        fun names names' _ _ hnames => ?_
      · rw [Function.comp_apply, Function.comp_apply, outcome_declaredComponent,
          outcome_declaredComponent, Dimension.constant?, Dimension.constant?, Text.trim_trim,
          Text.trim_trim, hname]
        cases Dimension.constants.lookup (Text.lower (Text.trim name')) with
        | some n => exact .ok rfl
        | none =>
            exact matched_demand (rel_map (hd.findStandard? hname) fun _ _ hv => hv.localName)
              (by simp only [Fault.code])
      · rw [List.forall₂_eq_eq_eq] at hnames
        rw [hnames]
        exact .ok rfl

/-- Shapes with the same extents, and also with the same tokens unless `bare` holds. -/
structure Shape.Alike (bare : Prop) (shape shape' : Shape) : Prop where
  extents : shape.extents = shape'.extents
  spelling : shape.tokens.map Dimension.spelling = shape'.tokens.map Dimension.spelling
  tokens : ¬bare → shape.tokens = shape'.tokens

theorem matched_readShape {bare : Prop} (hd : d.Alike d') {child child' : Node}
    (h : RespelledPart bare child child') (storage : Storage) (localName : String)
    {shape shape' : Shape} (hshape : Shape.Alike bare shape shape') :
    Matched (Shape.Alike bare) (readShape d storage localName shape child).outcome
      (readShape d' storage localName shape' child').outcome := by
  rw [outcome_readShape, outcome_readShape, ← h.tag, hd.name]
  cases htag : child.tag == "dimensions" with
  | true =>
      obtain ⟨hspelling, htokens⟩ := h.tokens (eq_of_beq htag)
      rw [if_pos rfl, if_pos rfl]
      refine (matched_mapM (forall₂_of_map_eq hspelling) fun token token' htoken =>
        matched_declaredExtent hd htoken storage localName).bind fun extents extents' _ _ hextents => ?_
      rw [List.forall₂_eq_eq_eq] at hextents
      subst hextents
      rw [hshape.extents]
      exact .ok ⟨rfl, hspelling, htokens⟩
  | false =>
      rw [if_neg Bool.false_ne_true, if_neg Bool.false_ne_true]
      exact (matched_refuse rfl).bind fun _ _ _ _ _ => .ok hshape

/-- Elements are read from the same parent, since the parent of an element is not bare. -/
theorem matched_elements (hc : catalog.Alike catalog') (hd : d.Alike d')
    (h : RespelledVariable node node') {q q' : Quantity} (hq : ¬node.IsBare → q = q') :
    Matched (List.Forall₂ fun e e' => e.outline = e'.outline)
      ((node.children.filter (·.tag == "element")).mapM fun child =>
        (Element.ofNode catalog d q child).outcome)
      ((node'.children.filter (·.tag == "element")).mapM fun child =>
        (Element.ofNode catalog' d' q' child).outcome) := by
  have hparts := RespelledPart.filter h.children "element"
  by_cases hbare : node.IsBare
  · have hnil : node.children.filter (·.tag == "element") = [] := by
      rw [List.filter_eq_nil_iff]
      intro child hmem htag
      exact hbare child hmem (eq_of_beq htag)
    rw [hnil] at hparts ⊢
    rw [List.forall₂_nil_left_iff.mp hparts]
    exact .ok .nil
  · rw [hq hbare]
    refine matched_mapM hparts ?_
    rintro child child' ⟨hchild, htag⟩
    obtain ⟨hattributes, hchildren⟩ := hchild.of_element htag
    exact Element.matched_ofNode hc hd hattributes hchildren q'

theorem matched_ofNode (hc : catalog.Alike catalog') (hd : d.Alike d')
    (h : RespelledVariable node node') :
    Matched Variable.Alike (Variable.ofNode catalog d node).outcome
      (Variable.ofNode catalog' d' node').outcome := by
  have hlocal : node.get "local_name" = node'.get "local_name" := h.attributes.get_eq (by decide)
  have haccess : node.get? "access" = node'.get? "access" := h.attributes.get?_eq (by decide)
  have hallocatable : node.get "allocatable" = node'.get "allocatable" :=
    h.attributes.get_eq (by decide)
  rw [outcome_ofNode, outcome_ofNode, hlocal, haccess, hallocatable, hd.name]
  dsimp only
  refine (matched_refuse_map (h.attributes.strangeAttribute? _) fun _ => rfl).bind
    fun _ _ _ _ _ => ?_
  refine (matched_self _).bind ?_
  rintro access _ - - rfl
  refine (matched_self _).bind ?_
  rintro storage _ - - rfl
  refine (matched_foldlM h.children (fun shape shape' child child' hshape hchild =>
    matched_readShape hd hchild storage (node'.get "local_name") hshape) ⟨rfl, rfl, fun _ => rfl⟩).bind
    fun shape shape' _ _ hshape => ?_
  refine (Quantity.matched_read hc h.attributes (fun tag htag => h.lastChild? htag) ..).bind ?_
  rintro _ _ - - ⟨p, rfl, rfl⟩
  refine (matched_elements hc hd h fun hbare => by rw [hshape.tokens hbare]).bind
    fun elements elements' _ _ helements => ?_
  refine (matched_refuse_ite rfl (by rfl)).bind fun _ _ _ _ _ => ?_
  refine .ok ⟨?_, hshape.spelling, map_eq_of_forall₂ helements fun _ _ he => he⟩
  rw [hshape.extents]

end Variable

end FieldRegistry
