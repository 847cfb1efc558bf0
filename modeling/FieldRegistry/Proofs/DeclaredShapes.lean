import FieldRegistry.Allocation
import FieldRegistry.Proofs.CatalogGrowth
import FieldRegistry.Proofs.Inversion
import FieldRegistry.Proofs.LowerCase
import FieldRegistry.Proofs.ReaderSteps
import FieldRegistry.Proofs.Separators

/-!
# Declared shapes

A variable has the dimensions of its last list of dimensions, but it is declared with the extents of the
last list that is not blank. The declaration, the dimensions and the allocation have the same rank exactly
if these are the same list, so unless a blank list follows one that is not.
-/

namespace FieldRegistry

variable {catalog : Catalog} {d : Dictionary} {node : Node} {v : Variable}

theorem Dictionary.mem_of_findStandard? {name : String} (h : d.findStandard? name = some v) :
    v ∈ d.declared ∧ Text.lower v.standardName = Text.lower name := by
  have hs := List.find?_some h
  exact ⟨List.mem_of_find?_eq_some h, sameLetters_iff.mp hs⟩

theorem Dictionary.findStandard?_standardName {name : String} (h : d.findStandard? name = some v) :
    d.findStandard? v.standardName = some v := by
  rw [← h]
  simp only [findStandard?, Text.sameLetters, (mem_of_findStandard? h).2]

/-! ## Extents -/

/-- A component of a fixed shape. -/
inductive ShapePart where
  | constant (value : Nat)
  | name (w : Variable)

namespace ShapePart

def text : ShapePart → String
  | constant value => Text.decimal value
  | name w => w.localName

def named? : ShapePart → Option Variable
  | constant _ => none
  | name w => some w

/-- The part that stands in a declaration for a name in a dimension token. -/
inductive StandsFor (component : String) : ShapePart → Prop
  | constant {value : Nat} : Dimension.constant? component = some value →
      StandsFor component (.constant value)
  | name {w : Variable} : Dimension.constant? component = none →
      Text.lower w.standardName = Text.lower component → StandsFor component (.name w)

end ShapePart

namespace Variable

theorem standsFor_of_declaredComponent {localName component text : String}
    (h : (declaredComponent d localName component).outcome = .ok text) :
    ∃ part, (ShapePart.StandsFor component part ∧
        ∀ w, part.named? = some w → d.findStandard? w.standardName = some w) ∧
      text = part.text := by
  rw [outcome_declaredComponent] at h
  split at h
  · rename_i value hc
    cases h
    exact ⟨.constant value, ⟨.constant hc, fun w hw => by cases hw⟩, rfl⟩
  · rename_i hc
    obtain ⟨w, hw, rfl⟩ := Option.map_eq_some_iff.mp (demand_eq_ok h)
    have hfind := Dictionary.findStandard?_standardName hw
    exact ⟨.name w, ⟨.name hc (Dictionary.mem_of_findStandard? hw).2,
      fun u hu => by cases hu; exact hfind⟩, rfl⟩

/-- The parts of an extent of fixed shape. The dictionary finds the variables by their standard names. -/
structure Parts (d : Dictionary) (token : String) (parts : List ShapePart) : Prop where
  standFor : List.Forall₂ ShapePart.StandsFor (Dimension.components token) parts
  found : ∀ part ∈ parts, ∀ w, part.named? = some w → d.findStandard? w.standardName = some w

/-- What stands in a declaration for a dimension token. -/
inductive DeclaredAs (d : Dictionary) (storage : Storage) (token : String) : String → Prop
  | fixed {parts : List ShapePart} : storage.hasFixedShape = true → Parts d token parts →
      DeclaredAs d storage token (Text.join ":" (parts.map ShapePart.text))
  | deferred : storage.hasFixedShape = false → DeclaredAs d storage token ":"

theorem declaredAs_of_declaredExtent {storage : Storage} {localName token extent : String}
    (h : (declaredExtent d storage localName token).outcome = .ok extent) :
    DeclaredAs d storage token extent := by
  rw [outcome_declaredExtent] at h
  obtain ⟨-, -, h⟩ := bind_eq_ok h
  split at h
  · rename_i hfixed
    obtain ⟨texts, htexts, h⟩ := bind_eq_ok h
    cases h
    obtain ⟨parts, hparts, htexts⟩ := exists_common_of_forall₂
      ((forall₂_of_mapM_eq_ok htexts).imp fun _ _ => standsFor_of_declaredComponent)
    rw [← List.forall₂_map_right_iff, List.forall₂_eq_eq_eq] at htexts
    rw [htexts]
    refine .fixed hfixed ⟨hparts.imp fun _ _ h => h.1, fun part hpart w hw => ?_⟩
    obtain ⟨component, -, -, hfound⟩ := exists_left_of_forall₂ hparts hpart
    exact hfound w hw
  · rename_i hfixed
    cases h
    exact .deferred (Bool.eq_false_iff.mpr hfixed)

theorem DeclaredAs.exists_parts {storage : Storage} {token extent : String}
    (h : DeclaredAs d storage token extent) (hfixed : storage.hasFixedShape = true) :
    ∃ parts, Parts d token parts ∧ extent = Text.join ":" (parts.map ShapePart.text) := by
  cases h with
  | fixed _ hparts => exact ⟨_, hparts, rfl⟩
  | deferred hno => exact absurd (hfixed.symm.trans hno) (by decide)

theorem DeclaredAs.eq_colon {storage : Storage} {token extent : String}
    (h : DeclaredAs d storage token extent) (hfixed : storage.hasFixedShape = false) :
    extent = ":" := by
  cases h with
  | fixed hyes => exact absurd (hyes.symm.trans hfixed) (by decide)
  | deferred => rfl

end Variable

/-! ## Lists of dimensions -/

/-- The list of dimensions that a child gives. -/
def Node.dimensionList? (child : Node) : Option (List String) :=
  if child.tag == "dimensions" then some (Dimension.tokens child.body) else none

def Node.dimensionLists (node : Node) : List (List String) :=
  node.children.filterMap Node.dimensionList?

theorem Node.isWord_of_mem_dimensionLists {list : List String} (h : list ∈ node.dimensionLists) :
    ∀ token ∈ list, Text.IsWord token := by
  obtain ⟨child, -, hchild⟩ := List.mem_filterMap.mp h
  unfold Node.dimensionList? at hchild
  split at hchild
  · cases hchild
    exact fun token => Text.isWord_of_mem_words
  · cases hchild

namespace Dimension

/-- The last of some lists. -/
def lastList (lists : List (List String)) : List String := lists.getLast?.getD []

/-- The last of some lists that is not blank. -/
def lastFull (lists : List (List String)) : List String :=
  lastList (lists.filter fun list => !list.isEmpty)

theorem lastList_concat (lists : List (List String)) (list : List String) :
    lastList (lists ++ [list]) = list := by
  rw [lastList, List.getLast?_concat, Option.getD_some]

theorem lastFull_concat (lists : List (List String)) (list : List String) :
    lastFull (lists ++ [list]) = if list.isEmpty then lastFull lists else list := by
  unfold lastFull
  rw [List.filter_append, List.filter_singleton]
  cases list.isEmpty with
  | true => simp
  | false => exact lastList_concat _ _

theorem lastList_eq_or (lists : List (List String)) : lastList lists = [] ∨ lastList lists ∈ lists := by
  unfold lastList
  cases hlast : lists.getLast? with
  | none => exact Or.inl rfl
  | some list => exact Or.inr (List.mem_of_getLast? hlast)

theorem lastFull_eq_nil_iff {lists : List (List String)} :
    lastFull lists = [] ↔ ∀ list ∈ lists, list = [] := by
  induction lists using List.reverseRecOn with
  | nil => simp [lastFull, lastList]
  | append_singleton lists list ih =>
      rw [lastFull_concat, List.forall_mem_append, List.forall_mem_singleton, ← ih]
      cases list with
      | nil => simp
      | cons token tokens => simp

theorem lastFull_eq_or (lists : List (List String)) :
    lastList lists = [] ∨ lastFull lists = lastList lists := by
  induction lists using List.reverseRecOn with
  | nil => exact Or.inl rfl
  | append_singleton lists list ih =>
      rw [lastFull_concat, lastList_concat]
      cases list with
      | nil => exact Or.inl rfl
      | cons token tokens => exact Or.inr rfl

theorem lastFull_eq_lastList_iff {lists : List (List String)} :
    lastFull lists = lastList lists ↔ (lastList lists = [] → ∀ list ∈ lists, list = []) := by
  constructor
  · intro heq hlast
    exact lastFull_eq_nil_iff.mp (heq.trans hlast)
  · intro hblank
    rcases lastFull_eq_or lists with hlast | heq
    · rw [hlast, lastFull_eq_nil_iff.mpr (hblank hlast)]
    · exact heq

end Dimension

namespace Variable

/-! ## Reading a shape -/

/-- What the lists of dimensions give: the last one the tokens, the last one that is not blank the
extents. -/
structure ShapeOf (d : Dictionary) (storage : Storage) (lists : List (List String))
    (tokens extents : List String) : Prop where
  tokens : tokens = Dimension.lastList lists
  extents : List.Forall₂ (DeclaredAs d storage) (Dimension.lastFull lists) extents

theorem ShapeOf.readShape {storage : Storage} {localName : String} {lists : List (List String)}
    {read read' : Shape} {child : Node} (hread : ShapeOf d storage lists read.tokens read.extents)
    (h : (readShape d storage localName read child).outcome = .ok read') :
    ShapeOf d storage (lists ++ child.dimensionList?.toList) read'.tokens read'.extents := by
  rw [outcome_readShape] at h
  unfold Node.dimensionList?
  split at h
  · rename_i htag
    obtain ⟨extents, hextents, h⟩ := bind_eq_ok h
    cases h
    have hdeclared : List.Forall₂ (DeclaredAs d storage) (Dimension.tokens child.body) extents :=
      (forall₂_of_mapM_eq_ok hextents).imp fun _ _ => declaredAs_of_declaredExtent
    rw [if_pos htag, Option.toList_some]
    refine ⟨(Dimension.lastList_concat _ _).symm, ?_⟩
    rw [Dimension.lastFull_concat]
    generalize Dimension.tokens child.body = tokens at hdeclared ⊢
    -- a blank list leaves the extents of an earlier one
    cases hdeclared with
    | nil => exact hread.extents
    | cons hfirst hrest => exact .cons hfirst hrest
  · rename_i htag
    obtain ⟨-, -, h⟩ := bind_eq_ok h
    cases h
    rw [if_neg htag, Option.toList_none, List.append_nil]
    exact hread

theorem ShapeOf.readShapes {storage : Storage} {localName : String} {lists : List (List String)}
    {read read' : Shape} {children : List Node}
    (hread : ShapeOf d storage lists read.tokens read.extents)
    (h : children.foldlM (fun read child => (Variable.readShape d storage localName read child).outcome)
      read = .ok read') :
    ShapeOf d storage (lists ++ children.filterMap Node.dimensionList?) read'.tokens
      read'.extents := by
  induction children generalizing lists read with
  | nil =>
      cases h
      rwa [List.filterMap_nil, List.append_nil]
  | cons child children ih =>
      obtain ⟨next, hnext, h⟩ := foldlM_cons_eq_ok h
      have hrest := ih (hread.readShape hnext) h
      rw [List.append_assoc] at hrest
      rw [List.filterMap_cons]
      cases hlist : child.dimensionList? with
      | none => rwa [hlist] at hrest
      | some list => rwa [hlist] at hrest

theorem storage_ofNode {storage : Storage} {tokens : List String}
    (hstorage : Quantity.readStorage (node.get "allocatable") (node.get "local_name") d.name =
      .ok storage)
    (h : Quantity.read catalog d.name node (node.get "local_name") tokens { storage } =
      .ok v.toQuantity) : v.storage = storage := by
  have hown := (Quantity.kind_and_storage_of_read h).2
  unfold Quantity.readOwnStorage at hown
  split at hown
  · rename_i value hvalue
    rw [Node.get, hvalue, Option.getD_some, hown] at hstorage
    exact Except.ok.inj hstorage
  · exact (Except.ok.inj hown).symm

theorem shapeOf_ofNode (h : (Variable.ofNode catalog d node).outcome = .ok v) :
    ShapeOf d v.storage node.dimensionLists v.dimensions v.extents := by
  obtain ⟨storage, read, hstorage, hshape, hread, -, hextents⟩ := ofNode_eq_ok h
  have hstart : ShapeOf d storage [] ({} : Shape).tokens ({} : Shape).extents := ⟨rfl, .nil⟩
  have hend := hstart.readShapes hshape
  rw [List.nil_append] at hend
  rw [storage_ofNode hstorage hread, (Quantity.read_eq_ok hread).2.2.1, hextents]
  exact hend

theorem isWord_dimensions (h : (Variable.ofNode catalog d node).outcome = .ok v) :
    ∀ token ∈ v.dimensions, Text.IsWord token := by
  rw [(shapeOf_ofNode h).tokens]
  rcases Dimension.lastList_eq_or node.dimensionLists with hnone | hmem
  · simp [hnone]
  · exact Node.isWord_of_mem_dimensionLists hmem

end Variable

/-! ## Ranks -/

namespace Dimension

/-- A shape as it is written, nothing for a scalar. -/
def shapeText (extents : List String) : String := if extents.isEmpty then "" else listText extents

/-- The rank of a shape as it is written: a space stands between any two extents. -/
def rankOf (shape : String) : Nat := if shape.isEmpty then 0 else shape.toList.count ' ' + 1

theorem shapeText_eq_empty_iff {extents : List String} : shapeText extents = "" ↔ extents = [] := by
  cases extents with
  | nil => simp [shapeText]
  | cons extent extents =>
      simp [shapeText, listText]

theorem count_join {extent : String} {extents : List String}
    (h : ∀ e ∈ extent :: extents, ' ' ∉ e.toList) :
    (Text.join ", " (extent :: extents)).toList.count ' ' = extents.length := by
  induction extents generalizing extent with
  | nil => exact List.count_eq_zero.mpr (h extent List.mem_cons_self)
  | cons next extents ih =>
      obtain ⟨hfirst, h⟩ := List.forall_mem_cons.mp h
      have hhead : (extent.toList ++ [',']).count ' ' = 0 :=
        List.count_eq_zero.mpr (by simpa using hfirst)
      rw [Text.toList_join_cons_cons, List.count_append, List.count_cons_self, ih h, hhead,
        List.length_cons, Nat.zero_add]

theorem rankOf_shapeText {extents : List String} (h : ∀ e ∈ extents, ' ' ∉ e.toList) :
    rankOf (shapeText extents) = extents.length := by
  cases extents with
  | nil => rfl
  | cons extent extents =>
      have hopen : "(".toList.count ' ' = 0 := by decide
      have hclose : ")".toList.count ' ' = 0 := by decide
      have hne : (shapeText (extent :: extents)).isEmpty = false := by
        simp [shapeText, listText]
      rw [rankOf, hne, if_neg Bool.false_ne_true, List.length_cons]
      show (listText (extent :: extents)).toList.count ' ' + 1 = _
      rw [listText, String.toList_append, String.toList_append, List.count_append, List.count_append,
        count_join h, hopen, hclose, Nat.zero_add, Nat.add_zero]

theorem space_notMem_extent {token : String} (h : Text.IsWord token) :
    ' ' ∉ (extent token).toList := by
  have hspace : ' ' ∉ token.toList := h.notMem (by decide)
  refine Text.notMem_join (by decide) (List.forall_mem_map.mpr fun name hname => ?_)
  obtain ⟨piece, hpiece, rfl⟩ := List.mem_map.mp hname
  obtain ⟨chars, hchars, rfl⟩ := List.mem_map.mp hpiece
  unfold componentExtent
  split
  · rename_i n _
    intro hmem
    rw [Text.decimal, String.toList_ofList] at hmem
    exact absurd (Nat.isDigit_of_mem_toDigits (by decide) (by decide) hmem) (by decide)
  · have hsign : Text.IsSign ' ' := by decide
    refine hsign.notMem_lower fun hmem => hspace ?_
    have hmem := Text.trim_subset _ hmem
    rw [String.toList_ofList] at hmem
    exact Text.subset_of_mem_pieces hchars hmem

end Dimension

namespace Variable

theorem declaredShape_eq (v : Variable) : v.declaredShape = Dimension.shapeText v.extents := rfl

/-- The declared shape shows the dimensions of the variable one by one, and its rank is that of the
allocated storage. -/
structure ShapeAgrees (d : Dictionary) (v : Variable) : Prop where
  scalar : v.declaredShape = "" ↔ v.dimensions = []
  listed : v.dimensions ≠ [] → ∃ extents, v.declaredShape = "(" ++ Text.join ", " extents ++ ")" ∧
    List.Forall₂ (DeclaredAs d v.storage) v.dimensions extents
  rank : v.storage.hasFixedShape = false → ∀ path, ∃ target check nullify extents,
    (Leaf.mk path v).allocations = [.allocate target check nullify extents] ∧
    Dimension.rankOf v.declaredShape = Dimension.rankOf extents

theorem rankOf_declaredShape {dimensions : List String} (hfixed : v.storage.hasFixedShape = false)
    (h : List.Forall₂ (DeclaredAs d v.storage) dimensions v.extents) :
    Dimension.rankOf v.declaredShape = dimensions.length := by
  rw [declaredShape_eq, Dimension.rankOf_shapeText, h.length_eq]
  intro extent hextent
  obtain ⟨token, -, hdeclared⟩ := exists_left_of_forall₂ h hextent
  rw [hdeclared.eq_colon hfixed]
  decide

theorem rankOf_extentsText (h : ∀ token ∈ v.dimensions, Text.IsWord token) :
    Dimension.rankOf (Leaf.extentsText v.dimensions) = v.dimensions.length := by
  have htext : Leaf.extentsText v.dimensions =
      Dimension.shapeText (v.dimensions.map Dimension.extent) := by
    rw [Leaf.extentsText, Dimension.shapeText, List.isEmpty_map]
  rw [htext, Dimension.rankOf_shapeText, List.length_map]
  exact List.forall_mem_map.mpr fun token ht => Dimension.space_notMem_extent (h token ht)

theorem ShapeAgrees.of_forall₂ (hwords : ∀ token ∈ v.dimensions, Text.IsWord token)
    (h : List.Forall₂ (DeclaredAs d v.storage) v.dimensions v.extents) : v.ShapeAgrees d where
  scalar := by
    rw [declaredShape_eq, Dimension.shapeText_eq_empty_iff, ← List.length_eq_zero_iff,
      ← h.length_eq, List.length_eq_zero_iff]
  listed hne := by
    refine ⟨v.extents, ?_, h⟩
    have hextents : v.extents.isEmpty = false := by
      rw [List.isEmpty_eq_false_iff]
      intro hnil
      rw [hnil, List.forall₂_nil_right_iff] at h
      exact hne h
    rw [declaredShape, hextents]
    rfl
  rank hfixed path := by
    have hrank := (rankOf_declaredShape hfixed h).trans (rankOf_extentsText hwords).symm
    have hcheck : ∃ check, v.storage.statusCheck? = some check := by
      generalize v.storage = storage at hfixed
      cases storage with
      | pointer | allocatable => exact ⟨_, rfl⟩
      | plain | target | parameter => cases hfixed
    obtain ⟨check, hcheck⟩ := hcheck
    refine ⟨path ++ v.localName, check, v.storage == .pointer, Leaf.extentsText v.dimensions, ?_, hrank⟩
    rw [Leaf.allocations, hcheck]

end Variable

/-- A declared shape has the extents of the last list of dimensions that is not blank. It agrees with the
dimensions of the variable and with its allocation if and only if this is the last list of all, or there is
no such list. -/
theorem declared_shape_agrees_iff (h : (Variable.ofNode catalog d node).outcome = .ok v) :
    let lists := node.dimensionLists
    v.dimensions = Dimension.lastList lists ∧
    (∃ extents, v.declaredShape = Dimension.shapeText extents ∧
      List.Forall₂ (Variable.DeclaredAs d v.storage) (Dimension.lastFull lists) extents) ∧
    (v.ShapeAgrees d ↔ (Dimension.lastList lists = [] → ∀ list ∈ lists, list = [])) := by
  intro lists
  have hshape := Variable.shapeOf_ofNode h
  refine ⟨hshape.tokens, ⟨v.extents, rfl, hshape.extents⟩, ?_⟩
  rw [← Dimension.lastFull_eq_lastList_iff]
  constructor
  · intro hagrees
    rcases Dimension.lastFull_eq_or lists with hlast | heq
    · have hextents := hagrees.scalar.mpr (hshape.tokens.trans hlast)
      rw [Variable.declaredShape_eq, Dimension.shapeText_eq_empty_iff] at hextents
      have hfull := hshape.extents
      rw [hextents, List.forall₂_nil_right_iff] at hfull
      rw [hfull, hlast]
    · exact heq
  · intro heq
    have hextents := hshape.extents
    rw [show Dimension.lastFull node.dimensionLists = v.dimensions from heq.trans hshape.tokens.symm]
      at hextents
    exact .of_forall₂ (Variable.isWord_dimensions h) hextents

/-- An array with several lists of dimensions. -/
def windArray (storage : String) (lists : List String) : Node where
  tag := "array"
  attributes := [("allocatable", storage), ("local_name", "u"), ("standard_name", "eastward_wind"),
    ("type", "real")]
  children := lists.map fun text => { tag := "dimensions", text := some text }

/-- A blank list after one dimension: the pointer is declared with rank one and allocated as a scalar. -/
theorem windArray_rank_differs :
    let d := Dictionary.empty "physics_types" "module"
    ∃ v, (Variable.ofNode .initial d (windArray "pointer" ["horizontal_dimension", ""])).outcome =
        .ok v ∧
      v.dimensions = [] ∧ v.declaredShape = "(:)" ∧
      (Leaf.mk "" v).allocations = [.allocate "u" "associated" true ""] ∧ ¬ v.ShapeAgrees d := by
  intro d
  have hread : (Variable.ofNode .initial d
      (windArray "pointer" ["horizontal_dimension", ""])).outcome.toOption.any (fun v =>
        v.dimensions = [] ∧ v.declaredShape = "(:)" ∧
        (Leaf.mk "" v).allocations = [.allocate "u" "associated" true ""]) = true := by
    decide +kernel
  obtain ⟨v, hv, hany⟩ := eq_ok_of_any hread
  obtain ⟨hdimensions, hshape, hallocations⟩ := of_decide_eq_true hany
  refine ⟨v, hv, hdimensions, hshape, hallocations, fun hagrees => ?_⟩
  have hblank := hagrees.scalar.mpr hdimensions
  rw [hshape] at hblank
  exact absurd hblank (by decide)

def columnsVariable : Node where
  tag := "variable"
  attributes := [("local_name", "ncol"), ("standard_name", "horizontal_dimension"), ("type", "integer")]

/-- A blank list before the dimensions does no harm, to a fixed shape or to a pointer. -/
theorem windArray_shapes :
    let lists := ["", "horizontal_dimension ccpp_constant_zero:Horizontal_Dimension"]
    ∃ d v w, d.declared.map (·.localName) = ["ncol"] ∧
      (Variable.ofNode .initial d (windArray "none" lists)).outcome = .ok v ∧
      v.declaredShape = "(ncol, 0:ncol)" ∧ v.ShapeAgrees d ∧
      (Variable.ofNode .initial d (windArray "pointer" lists)).outcome = .ok w ∧
      w.declaredShape = "(:, :)" ∧ w.ShapeAgrees d := by
  intro lists
  let d₀ := Dictionary.empty "physics_types" "module"
  have hread : (FileUnit.addVariable .initial d₀ columnsVariable).outcome.toOption.any
      (fun d => d.declared.map (·.localName) = ["ncol"] ∧
        (Variable.ofNode .initial d (windArray "none" lists)).outcome.toOption.any
          (fun v => v.declaredShape = "(ncol, 0:ncol)") = true ∧
        (Variable.ofNode .initial d (windArray "pointer" lists)).outcome.toOption.any
          (fun w => w.declaredShape = "(:, :)") = true) = true := by
    decide +kernel
  obtain ⟨d, -, hany⟩ := eq_ok_of_any hread
  obtain ⟨hdeclared, hfixed, hpointer⟩ := of_decide_eq_true hany
  obtain ⟨v, hv, hvshape⟩ := eq_ok_of_any hfixed
  obtain ⟨w, hw, hwshape⟩ := eq_ok_of_any hpointer
  obtain ⟨-, -, hvagrees⟩ := declared_shape_agrees_iff hv
  obtain ⟨-, -, hwagrees⟩ := declared_shape_agrees_iff hw
  exact ⟨d, v, w, hdeclared, hv, of_decide_eq_true hvshape, hvagrees.mpr (by decide), hw,
    of_decide_eq_true hwshape, hwagrees.mpr (by decide)⟩

end FieldRegistry
