import FieldRegistry.AggregateReader
import FieldRegistry.Proofs.Outcome

/-!
# Readers as sequences of steps

A reader checks its element, looks names up and puts the parts together. Each of the equations below
writes one reader as the sequence of its steps, so that a law about readers is proved step by step.
-/

namespace FieldRegistry

variable {ε α β : Type}

/-- A step that fails where there is something to object to. -/
def refuse : Option ε → Except ε Unit
  | some e => .error e
  | none => .ok ()

/-- A step that needs something to be there. -/
def demand (e : ε) : Option α → Except ε α
  | some a => .ok a
  | none => .error e

theorem refuse_eq_ok {objection : Option ε} {done : Unit} (h : refuse objection = .ok done) :
    objection = none := by
  cases objection with
  | none => rfl
  | some e => cases h

theorem refuse_eq_ok_iff {objection : Option ε} {done : Unit} :
    refuse objection = .ok done ↔ objection = none := by
  constructor
  · exact refuse_eq_ok
  · rintro rfl
    rfl

theorem demand_eq_ok {e : ε} {found : Option α} {a : α} (h : demand e found = .ok a) :
    found = some a := by
  cases found with
  | none => cases h
  | some b => cases h; rfl

theorem demand_eq_ok_iff {e : ε} {found : Option α} {a : α} :
    demand e found = .ok a ↔ found = some a := by
  constructor
  · exact demand_eq_ok
  · rintro rfl
    rfl

variable {catalog : Catalog} {dictionary : Dictionary} {node : Node}

/-! ## What variables and array elements have in common -/

namespace Quantity

/-- The type that an element asks for, or the one that holds otherwise. -/
def readType (catalog : Catalog) (scope : String) (node : Node) (localName : String)
    (defaults : Defaults) : Except Fault TypeRef :=
  let typeName := (node.get? "type").getD defaults.typeName
  demand (.unknownType typeName localName scope (catalog.suggest? typeName))
    ((catalog.lookup? typeName).map (·.ref))

def readOwnStorage (scope : String) (node : Node) (localName : String) (defaults : Defaults) :
    Except Fault Storage :=
  match node.get? "allocatable" with
  | some value => readStorage value localName scope
  | none => .ok defaults.storage

theorem read_eq (scope localName : String) (dimensions : List String) (defaults : Defaults) :
    read catalog scope node localName dimensions defaults = (do
      let kind := (node.get? "kind").getD defaults.kind
      let type ← readType catalog scope node localName defaults
      refuse (if type.isAggregate && !kind.isEmpty then some (.illegalKind type.name localName scope)
        else none)
      let storage ← readOwnStorage scope node localName defaults
      .ok {
        localName, type, kind, dimensions, storage
        standardName := node.get "standard_name"
        units := (node.get? "units").getD defaults.units
        longName := node.lastText? "long_name"
        initialValue := readInitialValue node storage
        inputNames := readInputNames node }) := by
  unfold read readType readOwnStorage
  dsimp only
  cases catalog.lookup? ((node.get? "type").getD defaults.typeName) with
  | none => rfl
  | some entry =>
      dsimp only [Option.map, demand, bind, Except.bind, pure, Except.pure]
      cases entry.ref.isAggregate && !((node.get? "kind").getD defaults.kind).isEmpty with
      | true => rfl
      | false => cases node.get? "allocatable" <;> rfl

/-- A derived type has no kind, and the storage is the one that the element asks for. -/
theorem kind_and_storage_of_read {scope localName : String} {dimensions : List String}
    {defaults : Defaults} {q : Quantity}
    (h : read catalog scope node localName dimensions defaults = .ok q) :
    (q.type.isAggregate = true → q.kind = "") ∧
      readOwnStorage scope node localName defaults = .ok q.storage := by
  rw [read_eq] at h
  obtain ⟨type, -, h⟩ := bind_eq_ok h
  obtain ⟨done, hkind, h⟩ := bind_eq_ok h
  obtain ⟨storage, hstorage, h⟩ := bind_eq_ok h
  cases h
  refine ⟨fun hagg => ?_, hstorage⟩
  have hkind := refuse_eq_ok hkind
  split at hkind
  · cases hkind
  · rename_i hno
    dsimp only at hagg ⊢
    simpa [hagg] using hno

end Quantity

/-! ## Array elements -/

@[simp] theorem Dictionary.value_searchStandard (name : String) :
    (dictionary.searchStandard name).value = dictionary.findStandard? name := by
  unfold Dictionary.searchStandard
  cases dictionary.findStandard? name <;> rfl

theorem Element.outcome_ofNode (parent : Quantity) :
    (Element.ofNode catalog dictionary parent node).outcome = (do
      let scope := dictionary.name
      let indexName := node.get "index_name"
      let position := node.get "index_pos"
      refuse ((node.strangeAttribute? knownAttributes).map fun name =>
        .unknownAttribute name parent.localName scope)
      refuse ((node.children.find? fun child => !knownChildren.contains child.tag).map fun child =>
        .unknownContent child.tag parent.localName scope)
      let index ← demand (.unknownIndex indexName parent.localName scope)
        (dictionary.findStandard? indexName)
      refuse (if !parent.dimensions.contains position then
        some (.elementDimensionNotFound position parent.localName parent.dimensions scope) else none)
      let quantity ← Quantity.read catalog scope node
        (parent.localName ++ "(" ++
          Text.join "," (subscriptsAt parent.dimensions position indexName) ++ ")")
        (parent.dimensions.filter (· != position))
        { typeName := parent.type.name, units := parent.units, kind := parent.kind,
          storage := parent.storage }
      .ok { quantity with
        parentName := parent.localName
        subscripts := subscriptsAt parent.dimensions position index.localName }) := by
  unfold Element.ofNode
  cases node.strangeAttribute? knownAttributes with
  | some name => rfl
  | none =>
      cases node.children.find? fun child => !knownChildren.contains child.tag with
      | some child => rfl
      | none =>
          dsimp only
          rw [Checked.outcome_bind, Checked.outcome_lift, Dictionary.value_searchStandard]
          cases dictionary.findStandard? (node.get "index_name") with
          | none => rfl
          | some index =>
              cases !parent.dimensions.contains (node.get "index_pos") with
              | true => rfl
              | false =>
                  dsimp only [ok_bind]
                  rw [Checked.outcome_ite, if_neg Bool.false_ne_true, Checked.outcome_bind,
                    Checked.outcome_ofExcept]
                  rfl

/-- An element that was read has the index that the dictionary finds, at a dimension of its parent, and
the name of its parent. -/
theorem Element.ofNode_eq_ok {parent : Quantity} {e : Element}
    (h : (Element.ofNode catalog dictionary parent node).outcome = .ok e) :
    ∃ index, dictionary.findStandard? (node.get "index_name") = some index ∧
      node.get "index_pos" ∈ parent.dimensions ∧
      Quantity.read catalog dictionary.name node
        (parent.localName ++ "(" ++ Text.join "," (subscriptsAt parent.dimensions
          (node.get "index_pos") (node.get "index_name")) ++ ")")
        (parent.dimensions.filter (· != node.get "index_pos"))
        { typeName := parent.type.name, units := parent.units, kind := parent.kind,
          storage := parent.storage } = .ok e.toQuantity ∧
      e.subscripts = subscriptsAt parent.dimensions (node.get "index_pos") index.localName ∧
      e.parentName = parent.localName := by
  rw [Element.outcome_ofNode] at h
  obtain ⟨-, -, h⟩ := bind_eq_ok h
  obtain ⟨-, -, h⟩ := bind_eq_ok h
  obtain ⟨index, hindex, h⟩ := bind_eq_ok h
  obtain ⟨done, hposition, h⟩ := bind_eq_ok h
  obtain ⟨quantity, hquantity, h⟩ := bind_eq_ok h
  cases h
  refine ⟨index, demand_eq_ok hindex, ?_, hquantity, rfl, rfl⟩
  have hposition := refuse_eq_ok hposition
  split at hposition
  · cases hposition
  · rename_i hno
    simpa using hno

/-! ## Variables -/

namespace Variable

theorem outcome_declaredComponent (localName name : String) :
    (declaredComponent dictionary localName name).outcome =
      match Dimension.constant? name with
      | some n => .ok (Text.decimal n)
      | none => demand (.unresolvedDimension name localName dictionary.name)
          ((dictionary.findStandard? name).map (·.localName)) := by
  unfold declaredComponent
  cases Dimension.constant? name with
  | some n => rfl
  | none =>
      dsimp only
      rw [Checked.outcome_bind, Checked.outcome_lift, Dictionary.value_searchStandard]
      cases dictionary.findStandard? name <;> rfl

theorem outcome_declaredExtent (storage : Storage) (localName token : String) :
    (declaredExtent dictionary storage localName token).outcome = (do
      refuse (if Dimension.hasStep token then
        some (.dimensionStep token localName dictionary.name) else none)
      if storage.hasFixedShape then
        let names ← (Dimension.components token).mapM fun name =>
          (declaredComponent dictionary localName name).outcome
        .ok (Text.join ":" names)
      else .ok ":") := by
  unfold declaredExtent
  cases Dimension.hasStep token with
  | true => rfl
  | false =>
      rw [if_neg Bool.false_ne_true, Checked.outcome_ite, Checked.outcome_bind,
        Checked.outcome_mapM]
      rfl

theorem outcome_readShape (storage : Storage) (localName : String) (shape : Shape) (child : Node) :
    (readShape dictionary storage localName shape child).outcome =
      if child.tag == "dimensions" then
        ((Dimension.tokens child.body).mapM fun token =>
          (declaredExtent dictionary storage localName token).outcome) >>= fun extents =>
        .ok ⟨Dimension.tokens child.body, if extents.isEmpty then shape.extents else extents⟩
      else
        refuse (if knownChildren.contains child.tag then none
          else some (.unknownContent child.tag localName dictionary.name)) >>= fun _ =>
        .ok shape := by
  unfold readShape
  rw [Checked.outcome_ite, Checked.outcome_bind, Checked.outcome_mapM, Checked.outcome_ite]
  cases knownChildren.contains child.tag <;> rfl

theorem outcome_ofNode :
    (Variable.ofNode catalog dictionary node).outcome = (do
      let scope := dictionary.name
      let localName := node.get "local_name"
      let accessText := (node.get? "access").getD "public"
      refuse ((node.strangeAttribute? knownAttributes).map fun name =>
        .unknownAttribute name localName scope)
      let access ←
        demand (.invalidAttributeValue "access" accessText localName scope) (accessOf? accessText)
      let storage ← Quantity.readStorage (node.get "allocatable") localName scope
      let shape ← node.children.foldlM (fun shape child =>
        (readShape dictionary storage localName shape child).outcome) {}
      let quantity ← Quantity.read catalog scope node localName shape.tokens { storage }
      let elements ← (node.children.filter (·.tag == "element")).mapM fun child =>
        (Element.ofNode catalog dictionary quantity child).outcome
      refuse (if quantity.storage == .parameter && quantity.initialValue.isNone then
        some (.missingInitialValue localName scope) else none)
      .ok { quantity with
        access := access.1, isProtected := access.2, extents := shape.extents, elements }) := by
  unfold Variable.ofNode
  dsimp only
  cases node.strangeAttribute? knownAttributes with
  | some name => rfl
  | none =>
      cases accessOf? ((node.get? "access").getD "public") with
      | none => rfl
      | some access =>
          simp only [Checked.outcome_bind, Checked.outcome_ofExcept, Checked.outcome_foldlM,
            Checked.outcome_mapM, Checked.outcome_ite]
          refine congrArg _ (funext fun storage => congrArg _ (funext fun shape =>
            congrArg _ (funext fun quantity => congrArg _ (funext fun elements => ?_))))
          cases quantity.storage == .parameter && quantity.initialValue.isNone <;> rfl

end Variable

/-! ## Derived types -/

namespace Aggregate

theorem outcome_takeMember (name dycore : String) (child : Node) :
    (takeMember name dycore child).outcome dictionary =
      if child.tag != "data" then
        (.error (.unknownElement child.tag name dictionary.name), dictionary)
      else if isFor child dycore then
        match dictionary.take? (Text.trim child.body) with
        | some (v, rest) => (.ok (some v), rest)
        | none => (.error (.unknownMember (Text.trim child.body) name dictionary.name), dictionary)
      else (.ok none, dictionary) := by
  unfold takeMember
  rw [Action.outcome_bind_of_ok (Action.outcome_get dictionary)]
  dsimp only
  cases child.tag != "data" with
  | true => rfl
  | false =>
      cases isFor child dycore with
      | false => rfl
      | true =>
          simp only [Bool.false_eq_true, if_false, if_true, Action.outcome_bind, Dictionary.remove,
            Action.outcome_get]
          cases dictionary.take? (Text.trim child.body) <;> rfl

theorem readHeader_eq (scope : String) :
    readHeader catalog scope node = (do
      let parent ← readParent catalog node (node.get "type") scope
      let isBindC ← readFlag node "bindC" (node.get "type") scope
      refuse (if parent.isSome && isBindC then
        some (.conflictingAttributes (node.get "type") scope) else none)
      let isPrivate ← readFlag node "private" (node.get "type") scope
      .ok ⟨node.get "type", parent, isBindC, isPrivate⟩) := by
  unfold readHeader
  refine congrArg _ (funext fun parent => congrArg _ (funext fun isBindC => ?_))
  cases parent.isSome && isBindC <;> rfl

theorem outcome_ofNode (dycore : String) :
    (Aggregate.ofNode catalog dycore node).outcome dictionary =
      match readHeader catalog dictionary.name node with
      | .error fault => (.error fault, dictionary)
      | .ok header =>
        let taken := Action.outcome (node.children.mapM (takeMember header.name dycore)) dictionary
        (taken.1.map fun taken => {
          name := header.name
          scope := dictionary.name
          members := taken.filterMap id
          parent := header.parent
          isPrivate := header.isPrivate
          isBindC := header.isBindC }, taken.2) := by
  unfold Aggregate.ofNode
  rw [Action.outcome_bind_of_ok (Action.outcome_get dictionary)]
  dsimp only
  cases readHeader catalog dictionary.name node with
  | error fault => rfl
  | ok header =>
      dsimp only
      rw [Action.outcome_bind_of_ok (Action.outcome_pure header dictionary), Action.outcome_bind]
      cases Action.outcome (node.children.mapM (takeMember header.name dycore)) dictionary with
      | mk taken rest => cases taken <;> rfl

end Aggregate

theorem Catalog.outcome_announce (name scope : String) (aggregate : Option Aggregate) :
    (Catalog.announce name scope aggregate).outcome catalog =
      match catalog.register name scope aggregate with
      | .error fault => (.error fault, catalog)
      | .ok catalog' => (.ok (), catalog') := by
  unfold Catalog.announce
  rw [Action.outcome_bind_of_ok (Action.outcome_get catalog)]
  cases catalog.register name scope aggregate <;> rfl

end FieldRegistry
