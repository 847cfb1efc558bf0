import FieldRegistry.Proofs.DeclaredShapes
import FieldRegistry.Proofs.DictionaryHistory

/-!
# Which variables are accepted

The checks of a variable stand in three readers and in loops over children, dimension tokens and names, with
values that an element takes over from its array. `Variable.Acceptable` is what they amount to: conditions on
the attributes, on each child by itself and on the last lists, in no order.
-/

namespace FieldRegistry

variable {catalog : Catalog} {d : Dictionary} {node : Node}

/-! ## Attributes and names -/

theorem Node.strangeAttribute?_eq_none_iff {known : List String} :
    node.strangeAttribute? known = none ↔ ∀ name ∈ node.attributes.map (·.1), name ∈ known := by
  rw [strangeAttribute?, List.find?_eq_none]
  simp only [Bool.not_eq_true', Bool.not_eq_false, List.contains_iff_mem]

theorem Node.isSome_lastText?_iff {tag : String} :
    (node.lastText? tag).isSome = true ↔
      ∃ child, node.lastChild? tag = some child ∧ Text.trim child.body ≠ "" := by
  unfold Node.lastText? Text.trimmed?
  cases node.lastChild? tag with
  | none => simp
  | some child => simp [String.isEmpty_iff]

/-- The catalog knows the type, and a kind stands only with an intrinsic type. -/
def Catalog.Admits (catalog : Catalog) (typeName kind : String) : Prop :=
  ∃ entry, catalog.lookup? typeName = some entry ∧ (entry.ref.isAggregate = true → kind = "")

namespace Storage

/-- What an element may say about its storage. -/
def words : List (String × Storage) :=
  [("none", plain), ("", plain), ("target", target), ("parameter", parameter),
   ("allocatable", allocatable), ("pointer", pointer)]

theorem parse?_eq_some_iff {text : String} {storage : Storage} :
    parse? text = some storage ↔ (text, storage) ∈ words := by
  constructor
  · intro h
    unfold parse? at h
    split_ifs at h <;> cases h <;> simp_all [words]
  · have hall : ∀ word ∈ words, parse? word.1 = some word.2 := by decide
    exact hall (text, storage)

theorem exists_parse?_iff {text : String} :
    (∃ storage, parse? text = some storage) ↔ text ∈ words.map (·.1) := by
  simp only [parse?_eq_some_iff, List.mem_map, Prod.exists, exists_and_right, exists_eq_right]

theorem hasFixedShape_iff {text : String} {storage : Storage} (h : parse? text = some storage) :
    storage.hasFixedShape = true ↔ text ∉ ["allocatable", "pointer"] := by
  have hall : ∀ word ∈ words, word.2.hasFixedShape = true ↔ word.1 ∉ ["allocatable", "pointer"] := by
    decide
  exact hall _ (parse?_eq_some_iff.mp h)

theorem eq_parameter_iff {text : String} {storage : Storage} (h : parse? text = some storage) :
    storage = .parameter ↔ text = "parameter" := by
  have hall : ∀ word ∈ words, word.2 = .parameter ↔ word.1 = "parameter" := by decide
  exact hall _ (parse?_eq_some_iff.mp h)

end Storage

/-! ## What variables and array elements have in common -/

namespace Quantity

variable (scope localName : String) (dimensions : List String) (defaults : Defaults)

theorem readStorage_eq_ok_iff {scope localName value : String} {storage : Storage} :
    readStorage value localName scope = .ok storage ↔ Storage.parse? value = some storage := by
  unfold readStorage
  cases Storage.parse? value <;> simp

/-- A storage that is left out is that of the defaults, so it needs no check. -/
theorem exists_readOwnStorage_iff :
    (∃ storage, readOwnStorage scope node localName defaults = .ok storage) ↔
      ∀ value, node.get? "allocatable" = some value → value ∈ Storage.words.map (·.1) := by
  unfold readOwnStorage
  cases node.get? "allocatable" with
  | none => simp
  | some value =>
      simp only [readStorage_eq_ok_iff, Storage.exists_parse?_iff, Option.some.injEq, forall_eq']

theorem readOwnStorage_of_parse? {storage : Storage}
    (h : Storage.parse? (node.get "allocatable") = some storage) :
    readOwnStorage scope node localName { storage } = .ok storage := by
  unfold readOwnStorage
  unfold Node.get at h
  cases hown : node.get? "allocatable" with
  | none => rfl
  | some value =>
      rw [hown] at h
      exact readStorage_eq_ok_iff.mpr h

/-- Only a pointer has an initial value that is not written. -/
theorem readInitialValue_parameter :
    readInitialValue node .parameter = node.lastText? "initial_value" := by
  unfold readInitialValue
  cases node.lastText? "initial_value" <;> rfl

theorem read_eq_ok_iff {q : Quantity} :
    read catalog scope node localName dimensions defaults = .ok q ↔
      ∃ entry storage,
        catalog.lookup? ((node.get? "type").getD defaults.typeName) = some entry ∧
        (entry.ref.isAggregate = true → (node.get? "kind").getD defaults.kind = "") ∧
        readOwnStorage scope node localName defaults = .ok storage ∧
        q = {
          localName, dimensions, storage
          type := entry.ref
          kind := (node.get? "kind").getD defaults.kind
          standardName := node.get "standard_name"
          units := (node.get? "units").getD defaults.units
          longName := node.lastText? "long_name"
          initialValue := readInitialValue node storage
          inputNames := readInputNames node } := by
  rw [read_eq]
  simp only [bind_eq_ok_iff, refuse_eq_ok_iff, readType, demand_eq_ok_iff, Option.map_eq_some_iff,
    Except.ok.injEq]
  constructor
  · rintro ⟨type, ⟨entry, hentry, rfl⟩, done, hkind, storage, hstorage, rfl⟩
    refine ⟨entry, storage, hentry, fun hagg => ?_, hstorage, rfl⟩
    simpa [hagg] using hkind
  · rintro ⟨entry, storage, hentry, hkind, hstorage, rfl⟩
    refine ⟨entry.ref, ⟨entry, hentry, rfl⟩, (), ?_, storage, hstorage, rfl⟩
    simpa using hkind

theorem exists_read_iff :
    (∃ q, read catalog scope node localName dimensions defaults = .ok q) ↔
      catalog.Admits ((node.get? "type").getD defaults.typeName) ((node.get? "kind").getD defaults.kind) ∧
      ∀ value, node.get? "allocatable" = some value → value ∈ Storage.words.map (·.1) := by
  rw [← exists_readOwnStorage_iff scope localName defaults]
  simp only [read_eq_ok_iff]
  constructor
  · rintro ⟨q, entry, storage, hentry, hkind, hstorage, -⟩
    exact ⟨⟨entry, hentry, hkind⟩, storage, hstorage⟩
  · rintro ⟨⟨entry, hentry, hkind⟩, storage, hstorage⟩
    exact ⟨_, entry, storage, hentry, hkind, hstorage, rfl⟩

end Quantity

/-! ## Array elements -/

/-- What an array element needs, with the type, the kind and the dimension tokens of its array. -/
structure Element.Acceptable (catalog : Catalog) (d : Dictionary) (typeName kind : String)
    (tokens : List String) (node : Node) : Prop where
  attributes : ∀ name ∈ node.attributes.map (·.1), name ∈ knownAttributes
  children : ∀ child ∈ node.children, child.tag ∈ knownChildren
  index : d.HasStandard (node.get "index_name")
  position : node.get "index_pos" ∈ tokens
  type : catalog.Admits ((node.get? "type").getD typeName) ((node.get? "kind").getD kind)
  storage : ∀ value, node.get? "allocatable" = some value → value ∈ Storage.words.map (·.1)

theorem Element.exists_ofNode_iff {parent : Quantity} :
    (∃ e, (ofNode catalog d parent node).outcome = .ok e) ↔
      Acceptable catalog d parent.type.name parent.kind parent.dimensions node := by
  rw [outcome_ofNode]
  simp only [exists_bind_eq_ok_iff, refuse_eq_ok_iff, demand_eq_ok_iff, Except.ok.injEq, exists_eq',
    and_true, Quantity.exists_read_iff, exists_const]
  constructor
  · rintro ⟨hattributes, hchildren, index, hindex, hposition, htype, hstorage⟩
    exact {
      attributes := Node.strangeAttribute?_eq_none_iff.mp (by simpa using hattributes)
      children := by simpa using hchildren
      index := Dictionary.exists_findStandard?_iff.mp ⟨index, hindex⟩
      position := by simpa using hposition
      type := htype
      storage := hstorage }
  · intro h
    obtain ⟨index, hindex⟩ := Dictionary.exists_findStandard?_iff.mpr h.index
    refine ⟨?_, ?_, index, hindex, ?_, h.type, h.storage⟩
    · simpa using Node.strangeAttribute?_eq_none_iff.mpr h.attributes
    · simpa using h.children
    · simpa using h.position

theorem Element.Acceptable.of_lookup? {typeName typeName' kind : String} {tokens : List String}
    (h : Acceptable catalog d typeName kind tokens node)
    (heq : catalog.lookup? typeName = catalog.lookup? typeName') :
    Acceptable catalog d typeName' kind tokens node where
  attributes := h.attributes
  children := h.children
  index := h.index
  position := h.position
  type := by
    have htype := h.type
    unfold Catalog.Admits at htype ⊢
    cases hown : node.get? "type" with
    | none => rwa [hown, Option.getD_none, heq] at htype
    | some own => rwa [hown] at htype
  storage := h.storage

/-! ## Variables -/

namespace Variable

theorem exists_accessOf?_iff {text : String} :
    (∃ access, accessOf? text = some access) ↔ text ∈ ["public", "private", "protected"] := by
  unfold accessOf?
  split_ifs <;> simp_all

/-- At most one colon; and the names of a fixed shape are constants or standard names. -/
structure TokenFits (d : Dictionary) (fixed : Prop) (token : String) : Prop where
  colons : token.toList.count ':' ≤ 1
  names : fixed → ∀ name ∈ Dimension.components token,
    (Dimension.constant? name).isSome ∨ d.HasStandard name

theorem exists_declaredComponent_iff {localName name : String} :
    (∃ text, (declaredComponent d localName name).outcome = .ok text) ↔
      (Dimension.constant? name).isSome ∨ d.HasStandard name := by
  rw [outcome_declaredComponent, ← Dictionary.exists_findStandard?_iff]
  cases Dimension.constant? name with
  | some n => simp
  | none => simp [demand_eq_ok_iff]

theorem exists_declaredExtent_iff {storage : Storage} {localName token : String} :
    (∃ extent, (declaredExtent d storage localName token).outcome = .ok extent) ↔
      TokenFits d (storage.hasFixedShape = true) token := by
  rw [outcome_declaredExtent, exists_bind_eq_ok_iff]
  have hcolons : (∃ done, refuse (if Dimension.hasStep token then
      some (Fault.dimensionStep token localName d.name) else none) = .ok done) ↔
      token.toList.count ':' ≤ 1 := by
    simp [refuse_eq_ok_iff, Dimension.hasStep]
  have hnames : (∃ extent, (if storage.hasFixedShape then do
        let names ← (Dimension.components token).mapM fun name =>
          (declaredComponent d localName name).outcome
        .ok (Text.join ":" names)
      else (.ok ":" : Except Fault String)) = .ok extent) ↔
      (storage.hasFixedShape = true → ∀ name ∈ Dimension.components token,
        (Dimension.constant? name).isSome ∨ d.HasStandard name) := by
    split
    · rename_i hfixed
      simp only [exists_bind_eq_ok_iff, Except.ok.injEq, exists_eq', and_true, exists_mapM_eq_ok_iff,
        exists_declaredComponent_iff, hfixed, forall_const]
    · rename_i hfixed
      simp [hfixed]
  constructor
  · rintro ⟨done, hdone, hrest⟩
    exact ⟨hcolons.mp ⟨done, hdone⟩, hnames.mp hrest⟩
  · rintro ⟨hone, hall⟩
    obtain ⟨done, hdone⟩ := hcolons.mpr hone
    exact ⟨done, hdone, hnames.mpr hall⟩

theorem exists_readShape_iff {storage : Storage} {localName : String} (shape : Shape) (child : Node) :
    (∃ shape', (readShape d storage localName shape child).outcome = .ok shape') ↔
      child.tag ∈ knownChildren ∧ ∀ list, child.dimensionList? = some list →
        ∀ token ∈ list, TokenFits d (storage.hasFixedShape = true) token := by
  rw [outcome_readShape, Node.dimensionList?]
  by_cases htag : (child.tag == "dimensions") = true
  · rw [if_pos htag, if_pos htag, exists_bind_eq_ok_iff]
    simp only [Except.ok.injEq, exists_eq', and_true, exists_mapM_eq_ok_iff, exists_declaredExtent_iff,
      Option.some.injEq, forall_eq']
    exact (and_iff_right (by rw [eq_of_beq htag]; decide)).symm
  · rw [if_neg htag, if_neg htag, exists_bind_eq_ok_iff]
    simp [refuse_eq_ok_iff]

theorem exists_readShapes_iff {storage : Storage} (localName : String) :
    (∃ shape, node.children.foldlM (fun shape child =>
        (readShape d storage localName shape child).outcome) {} = .ok shape) ↔
      (∀ child ∈ node.children, child.tag ∈ knownChildren) ∧
      ∀ list ∈ node.dimensionLists, ∀ token ∈ list,
        TokenFits d (storage.hasFixedShape = true) token := by
  rw [exists_foldlM_eq_ok_iff exists_readShape_iff]
  simp only [Node.dimensionLists, List.mem_filterMap]
  constructor
  · intro h
    exact ⟨fun child hchild => (h child hchild).1,
      fun list ⟨child, hchild, hlist⟩ => (h child hchild).2 list hlist⟩
  · rintro ⟨htags, hlists⟩ child hchild
    exact ⟨htags child hchild, fun list hlist => hlists list ⟨child, hchild, hlist⟩⟩

/-- What a variable needs: of the attributes, of the tags, of every list of dimensions, of the type, of the
elements, which refer to the last list of dimensions, and of the value of a parameter. -/
structure Acceptable (catalog : Catalog) (d : Dictionary) (node : Node) : Prop where
  attributes : ∀ name ∈ node.attributes.map (·.1), name ∈ knownAttributes
  access : ∀ text, node.get? "access" = some text → text ∈ ["public", "private", "protected"]
  storage : node.get "allocatable" ∈ Storage.words.map (·.1)
  children : ∀ child ∈ node.children, child.tag ∈ knownChildren
  dimensions : ∀ list ∈ node.dimensionLists, ∀ token ∈ list,
    TokenFits d (node.get "allocatable" ∉ ["allocatable", "pointer"]) token
  type : catalog.Admits (node.get "type") (node.get "kind")
  elements : ∀ child ∈ node.children, child.tag = "element" →
    Element.Acceptable catalog d (node.get "type") (node.get "kind")
      (Dimension.lastList node.dimensionLists) child
  initialValue : node.get "allocatable" = "parameter" →
    ∃ child, node.lastChild? "initial_value" = some child ∧ Text.trim child.body ≠ ""

theorem tokens_of_readShapes {storage : Storage} {localName : String} {shape : Shape}
    (h : node.children.foldlM (fun shape child =>
      (readShape d storage localName shape child).outcome) {} = .ok shape) :
    shape.tokens = Dimension.lastList node.dimensionLists := by
  have hstart : ShapeOf d storage [] ({} : Shape).tokens ({} : Shape).extents := ⟨rfl, .nil⟩
  exact (hstart.readShapes h).tokens

theorem initialValue_given_iff {storage : Storage} {fault : Fault}
    (h : Storage.parse? (node.get "allocatable") = some storage) :
    (if storage == .parameter && (Quantity.readInitialValue node storage).isNone then some fault
      else none) = none ↔
      (node.get "allocatable" = "parameter" →
        ∃ child, node.lastChild? "initial_value" = some child ∧ Text.trim child.body ≠ "") := by
  rw [← Storage.eq_parameter_iff h, ← Node.isSome_lastText?_iff]
  by_cases hparameter : storage = .parameter
  · subst hparameter
    rw [Quantity.readInitialValue_parameter]
    cases node.lastText? "initial_value" <;> simp
  · simp [hparameter]

theorem exists_ofNode_iff :
    (∃ v, (ofNode catalog d node).outcome = .ok v) ↔ Acceptable catalog d node := by
  rw [outcome_ofNode]
  simp only [exists_bind_eq_ok_iff, refuse_eq_ok_iff, demand_eq_ok_iff, Except.ok.injEq, exists_eq',
    and_true, exists_const, exists_and_right, Quantity.readStorage_eq_ok_iff, exists_mapM_eq_ok_iff,
    Element.exists_ofNode_iff, Option.map_eq_none_iff, Node.strangeAttribute?_eq_none_iff]
  constructor
  · rintro ⟨hattributes, haccess, storage, hstorage, shape, hshape, q, hq, helements, hvalue⟩
    obtain ⟨entry, own, hentry, hkind, hown, rfl⟩ := (Quantity.read_eq_ok_iff ..).mp hq
    -- the attribute is read once for the shape and once for the variable
    obtain rfl : own = storage :=
      Except.ok.inj (hown.symm.trans (Quantity.readOwnStorage_of_parse? _ _ hstorage))
    obtain ⟨htags, hlists⟩ := (exists_readShapes_iff _).mp ⟨shape, hshape⟩
    have hname : catalog.lookup? entry.name = catalog.lookup? (node.get "type") :=
      (Catalog.lookup?_name hentry).trans hentry.symm
    rw [tokens_of_readShapes hshape] at helements
    refine {
      attributes := hattributes
      access := fun text htext => ?_
      storage := Storage.exists_parse?_iff.mp ⟨own, hstorage⟩
      children := htags
      dimensions := fun list hlist token htoken => ?_
      type := ⟨entry, hentry, hkind⟩
      elements := fun child hchild htag => ?_
      initialValue := (initialValue_given_iff hstorage).mp hvalue }
    · rwa [exists_accessOf?_iff, htext] at haccess
    · rw [← Storage.hasFixedShape_iff hstorage]
      exact hlists list hlist token htoken
    · exact (helements child (List.mem_filter.mpr ⟨hchild, by simpa using htag⟩)).of_lookup? hname
  · intro h
    obtain ⟨storage, hstorage⟩ := Storage.exists_parse?_iff.mpr h.storage
    obtain ⟨entry, hentry, hkind⟩ := h.type
    have hdimensions := h.dimensions
    rw [← Storage.hasFixedShape_iff hstorage] at hdimensions
    obtain ⟨shape, hshape⟩ :=
      (exists_readShapes_iff (node.get "local_name")).mpr ⟨h.children, hdimensions⟩
    have hname : catalog.lookup? (node.get "type") = catalog.lookup? entry.name :=
      hentry.trans (Catalog.lookup?_name hentry).symm
    refine ⟨h.attributes, ?_, storage, hstorage, shape, hshape, _, (Quantity.read_eq_ok_iff ..).mpr
      ⟨entry, storage, hentry, hkind, Quantity.readOwnStorage_of_parse? _ _ hstorage, rfl⟩, ?_,
      (initialValue_given_iff hstorage).mpr h.initialValue⟩
    · rw [exists_accessOf?_iff]
      cases htext : node.get? "access" with
      | none => decide
      | some text => exact h.access text htext
    · intro child hchild
      obtain ⟨hchild, htag⟩ := List.mem_filter.mp hchild
      rw [tokens_of_readShapes hshape]
      exact (h.elements child hchild (by simpa using htag)).of_lookup? hname

end Variable

/-! ## What acceptance does not depend on -/

/-- Two elements that differ in no more than the order and the values of attributes that nothing checks, the
order and the number of children, and children that no check reads. -/
structure Node.ChecksAlike (node node' : Node) : Prop where
  names : ∀ name, name ∈ node.attributes.map (·.1) ↔ name ∈ node'.attributes.map (·.1)
  values : ∀ name ∈ ["access", "allocatable", "kind", "type"], node.get? name = node'.get? name
  children : ∀ child, child.tag ∉ ["long_name", "initial_value", "ic_file_input_names"] →
    (child ∈ node.children ↔ child ∈ node'.children)
  dimensions : Dimension.lastList node.dimensionLists = Dimension.lastList node'.dimensionLists
  initialValue : (node.lastText? "initial_value").isSome = (node'.lastText? "initial_value").isSome

namespace Node.ChecksAlike

variable {node' : Node}

theorem symm (h : node.ChecksAlike node') : node'.ChecksAlike node where
  names name := (h.names name).symm
  values name hname := (h.values name hname).symm
  children child hchild := (h.children child hchild).symm
  dimensions := h.dimensions.symm
  initialValue := h.initialValue.symm

theorem get_eq (h : node.ChecksAlike node') (name : String)
    (hname : name ∈ ["access", "allocatable", "kind", "type"]) : node.get name = node'.get name := by
  rw [Node.get, Node.get, h.values name hname]

theorem mem_dimensionLists (h : node.ChecksAlike node') {list : List String}
    (hlist : list ∈ node'.dimensionLists) : list ∈ node.dimensionLists := by
  obtain ⟨child, hchild, hlist⟩ := List.mem_filterMap.mp hlist
  have htag : child.tag = "dimensions" := by
    by_contra hno
    simp [Node.dimensionList?, hno] at hlist
  exact List.mem_filterMap.mpr ⟨child, (h.children child (by rw [htag]; decide)).mpr hchild, hlist⟩

theorem acceptable (h : node.ChecksAlike node') (ha : Variable.Acceptable catalog d node) :
    Variable.Acceptable catalog d node' where
  attributes name hname := ha.attributes name ((h.names name).mpr hname)
  access text htext := ha.access text ((h.values "access" (by decide)).trans htext)
  storage := h.get_eq "allocatable" (by decide) ▸ ha.storage
  children child hchild := by
    by_cases htag : child.tag ∈ ["long_name", "initial_value", "ic_file_input_names"]
    · have hknown : ∀ tag ∈ ["long_name", "initial_value", "ic_file_input_names"],
          tag ∈ Variable.knownChildren := by decide
      exact hknown _ htag
    · exact ha.children child ((h.children child htag).mpr hchild)
  dimensions list hlist := by
    rw [← h.get_eq "allocatable" (by decide)]
    exact ha.dimensions list (h.mem_dimensionLists hlist)
  type := by
    rw [← h.get_eq "type" (by decide), ← h.get_eq "kind" (by decide)]
    exact ha.type
  elements child hchild htag := by
    rw [← h.get_eq "type" (by decide), ← h.get_eq "kind" (by decide), ← h.dimensions]
    exact ha.elements child ((h.children child (by rw [htag]; decide)).mpr hchild) htag
  initialValue hparameter := by
    rw [← Node.isSome_lastText?_iff, ← h.initialValue, Node.isSome_lastText?_iff]
    exact ha.initialValue ((h.get_eq "allocatable" (by decide)).trans hparameter)

end Node.ChecksAlike

/-- A variable is accepted if and only if all the conditions hold. So it does not matter in which order its
children stand, as long as the last list of dimensions is the same and the last initial value is blank or
not as before, nor what its long names and names of input fields are. -/
theorem variable_accepted_iff (catalog : Catalog) (d : Dictionary) (node : Node) :
    ((∃ v, (Variable.ofNode catalog d node).outcome = .ok v) ↔ Variable.Acceptable catalog d node) ∧
    ∀ node', node.ChecksAlike node' →
      ((∃ v, (Variable.ofNode catalog d node).outcome = .ok v) ↔
        ∃ v, (Variable.ofNode catalog d node').outcome = .ok v) := by
  refine ⟨Variable.exists_ofNode_iff, fun node' h => ?_⟩
  rw [Variable.exists_ofNode_iff, Variable.exists_ofNode_iff]
  exact ⟨h.acceptable, h.symm.acceptable⟩

/-- A parameter, with its value as the last of some children. -/
def gravityElement (attributes : List (String × String)) (before : List Node) : Node where
  tag := "variable"
  attributes := attributes
  children := before ++ [{ tag := "initial_value", text := some "9.80616" }]

theorem gravityElement_accepted :
    let plain := gravityElement [("allocatable", "parameter"), ("local_name", "g"), ("type", "Real")] []
    let full := gravityElement [("type", "Real"), ("local_name", "gravit"), ("allocatable", "parameter")]
      [{ tag := "long_name", text := some "gravity" }, { tag := "initial_value", text := some " " }]
    plain.ChecksAlike full ∧
      ∃ v, (Variable.ofNode .initial (.empty "physconst" "module") full).outcome = .ok v := by
  intro plain full
  -- neither has children that are compared
  have hchildren : ∀ node ∈ [plain, full], ∀ child ∈ node.children,
      child.tag ∈ ["long_name", "initial_value", "ic_file_input_names"] := by
    decide
  have halike : plain.ChecksAlike full := {
    names := fun _ => List.Perm.mem_iff (by decide)
    values := by decide
    children := fun child htag =>
      ⟨fun h => absurd (hchildren plain (by simp) child h) htag,
        fun h => absurd (hchildren full (by simp) child h) htag⟩
    dimensions := by decide +kernel
    initialValue := by decide +kernel }
  have hplain : ((Variable.ofNode .initial (.empty "physconst" "module") plain).outcome).toOption.any
      (fun _ => true) = true := by decide +kernel
  obtain ⟨v, hv, -⟩ := eq_ok_of_any hplain
  exact ⟨halike, ((variable_accepted_iff .initial (.empty "physconst" "module") plain).2 full halike).mp
    ⟨v, hv⟩⟩

end FieldRegistry
