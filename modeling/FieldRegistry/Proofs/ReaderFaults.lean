import FieldRegistry.Proofs.Interleaving
import FieldRegistry.Proofs.ReaderSteps

/-!
# Faults about the values of attributes

What a computation can report is found step by step: a sequence reports what its parts report, a loop what
its rounds report. For the readers of a registry this says where a fault about the value of an attribute
comes from: the access or storage of a variable, the storage of an array element, or a mark of a
definition.
-/

namespace FieldRegistry

section Steps

variable {ε α : Type} {P : ε → Prop}

theorem raises_refuse_map {f : α → ε} (h : ∀ a, P (f a)) (x : Option α) :
    Raises P (refuse (x.map f)) := by
  cases x with
  | none => exact raises_ok _
  | some a => exact raises_error (h a)

theorem raises_refuse_ite {p : Prop} [Decidable p] {e : ε} (h : P e) :
    Raises P (refuse (if p then some e else none)) := by
  split
  · exact raises_error h
  · exact raises_ok _

theorem raises_demand {e : ε} (h : P e) (x : Option α) : Raises P (demand e x) := by
  cases x with
  | none => exact raises_error h
  | some a => exact raises_ok a

end Steps

/-- A fault about the value of an attribute is one that `R` allows: of the attribute, its value and the
element that is named. Other faults are not restricted. -/
def Fault.OnValue (R : String → String → String → Prop) : Fault → Prop
  | .invalidAttributeValue name value element _ => R name value element
  | _ => True

theorem Fault.OnValue.mono {R S : String → String → String → Prop}
    (h : ∀ name value element, R name value element → S name value element) (fault : Fault) :
    fault.OnValue R → fault.OnValue S := by
  cases fault with
  | invalidAttributeValue name value element scope => exact h name value element
  | _ => exact id

variable {catalog : Catalog} {dictionary : Dictionary} {node : Node}

/-! ## Variables and their elements -/

/-- The storage that an element asks for does not exist. -/
def Node.BadStorage (node : Node) (name value : String) : Prop :=
  name = "allocatable" ∧ node.get? "allocatable" = some value ∧ Storage.parse? value = none

theorem Quantity.raises_readStorage (value element scope : String) :
    Raises (Fault.OnValue fun name value' element' =>
        name = "allocatable" ∧ value' = value ∧ element' = element ∧ Storage.parse? value = none)
      (readStorage value element scope) := by
  unfold readStorage
  cases hparse : Storage.parse? value with
  | some storage => exact raises_ok storage
  | none => exact raises_error ⟨rfl, rfl, rfl, rfl⟩

theorem Quantity.raises_read (scope localName : String) (dimensions : List String)
    (defaults : Quantity.Defaults) :
    Raises (Fault.OnValue fun name value element => node.BadStorage name value ∧ element = localName)
      (Quantity.read catalog scope node localName dimensions defaults) := by
  rw [Quantity.read_eq]
  refine (raises_demand ⟨⟩ _).bind fun type _ => (raises_refuse_ite ⟨⟩).bind fun _ _ =>
    Raises.bind ?_ fun storage _ => raises_ok _
  unfold readOwnStorage
  cases hvalue : node.get? "allocatable" with
  | none => exact raises_ok _
  | some value =>
      refine (raises_readStorage value localName scope).mono (Fault.OnValue.mono ?_)
      rintro _ _ _ ⟨rfl, rfl, rfl, hparse⟩
      exact ⟨⟨rfl, hvalue, hparse⟩, rfl⟩

theorem Element.raises_ofNode (parent : Quantity) :
    Raises (Fault.OnValue fun name value element => node.BadStorage name value ∧
        ∃ subscripts, element = parent.localName ++ "(" ++ subscripts ++ ")")
      (Element.ofNode catalog dictionary parent node).outcome := by
  rw [Element.outcome_ofNode]
  refine (raises_refuse_map (fun _ => ⟨⟩) _).bind fun _ _ =>
    (raises_refuse_map (fun _ => ⟨⟩) _).bind fun _ _ => (raises_demand ⟨⟩ _).bind fun index _ =>
    (raises_refuse_ite ⟨⟩).bind fun _ _ => Raises.bind ?_ fun quantity _ => raises_ok _
  refine (Quantity.raises_read _ _ _ _).mono (Fault.OnValue.mono ?_)
  rintro _ _ _ ⟨hbad, rfl⟩
  exact ⟨hbad, _, rfl⟩

namespace Variable

/-- The access that an element asks for does not exist. -/
def BadAccess (node : Node) (name value : String) : Prop :=
  name = "access" ∧ node.get? "access" = some value ∧ accessOf? value = none

/-- A value that a variable is refused for: its own access or storage, or the storage of one of its
elements, which is then named with its subscripts. -/
def BadValue (node : Node) (name value element : String) : Prop :=
  BadAccess node name value ∨ node.BadStorage name value ∨
    ∃ child ∈ node.children, child.tag = "element" ∧ child.BadStorage name value ∧
      ∃ subscripts, element = node.get "local_name" ++ "(" ++ subscripts ++ ")"

theorem raises_declaredExtent (storage : Storage) (localName token : String) :
    Raises (Fault.OnValue fun _ _ _ => False)
      (declaredExtent dictionary storage localName token).outcome := by
  rw [outcome_declaredExtent]
  refine (raises_refuse_ite ⟨⟩).bind fun _ _ => raises_ite
    (Raises.bind (raises_mapM fun name _ => ?_) fun _ _ => raises_ok _) (raises_ok _)
  rw [outcome_declaredComponent]
  cases Dimension.constant? name with
  | some n => exact raises_ok _
  | none => exact raises_demand ⟨⟩ _

theorem raises_readShape (storage : Storage) (localName : String) (shape : Shape) (child : Node) :
    Raises (Fault.OnValue fun _ _ _ => False)
      (readShape dictionary storage localName shape child).outcome := by
  rw [outcome_readShape]
  refine raises_ite (Raises.bind (raises_mapM fun token _ => raises_declaredExtent _ _ _)
    fun _ _ => raises_ok _) (Raises.bind ?_ fun _ _ => raises_ok _)
  cases knownChildren.contains child.tag with
  | true => exact raises_ok _
  | false => exact raises_error ⟨⟩

theorem raises_ofNode :
    Raises (Fault.OnValue (BadValue node)) (Variable.ofNode catalog dictionary node).outcome := by
  rw [outcome_ofNode]
  refine (raises_refuse_map (fun _ => ⟨⟩) _).bind fun _ _ => Raises.bind ?_ fun access _ =>
    Raises.bind ?_ fun storage _ => Raises.bind ?_ fun shape _ =>
    Raises.bind ?_ fun quantity hquantity => Raises.bind ?_ fun elements _ =>
    (raises_refuse_ite ⟨⟩).bind fun _ _ => raises_ok _
  · -- an access that is absent is public
    cases haccess : node.get? "access" with
    | none => exact raises_ok _
    | some value =>
        dsimp only [Option.getD]
        cases hvalue : accessOf? value with
        | some access => exact raises_ok _
        | none => exact raises_error (Or.inl ⟨rfl, haccess, hvalue⟩)
  · refine (Quantity.raises_readStorage _ _ _).mono (Fault.OnValue.mono ?_)
    rintro _ _ _ ⟨rfl, rfl, -, hparse⟩
    refine Or.inr (Or.inl ⟨rfl, ?_, hparse⟩)
    rw [Node.get] at hparse ⊢
    cases hvalue : node.get? "allocatable" with
    | none => rw [hvalue] at hparse; cases hparse
    | some value => rfl
  · exact raises_foldlM fun shape child _ =>
      (raises_readShape _ _ _ _).mono (Fault.OnValue.mono fun _ _ _ h => h.elim)
  · exact (Quantity.raises_read _ _ _ _).mono
      (Fault.OnValue.mono fun _ _ _ h => Or.inr (Or.inl h.1))
  · refine raises_mapM fun child hchild => (Element.raises_ofNode _).mono (Fault.OnValue.mono ?_)
    rintro _ _ _ ⟨hbad, hnamed⟩
    obtain ⟨hmem, htag⟩ := List.mem_filter.mp hchild
    rw [(Quantity.read_eq_ok hquantity).1] at hnamed
    exact Or.inr (Or.inr ⟨child, hmem, by simpa using htag, hbad, hnamed⟩)

end Variable

/-! ## Derived types -/

/-- The marks of a definition. -/
def Aggregate.IsMark (name : String) : Prop := name = "bindC" ∨ name = "private"

theorem Aggregate.raises_readFlag {attributeName : String} (hmark : IsMark attributeName)
    (aggregate scope : String) :
    Raises (Fault.OnValue fun name _ _ => IsMark name)
      (readFlag node attributeName aggregate scope) := by
  unfold readFlag
  cases node.get? attributeName with
  | none => exact raises_ok _
  | some value => exact raises_ite (raises_ok _) (raises_ite (raises_ok _) (raises_error hmark))

theorem Aggregate.raises_readHeader (scope : String) :
    Raises (Fault.OnValue fun name _ _ => IsMark name) (readHeader catalog scope node) := by
  rw [readHeader_eq]
  refine Raises.bind ?_ fun parent _ => (raises_readFlag (Or.inl rfl) _ _).bind fun isBindC _ =>
    (raises_refuse_ite ⟨⟩).bind fun _ _ => (raises_readFlag (Or.inr rfl) _ _).bind fun _ _ =>
    raises_ok _
  unfold readParent
  cases node.get? "extends" with
  | none => exact raises_ok _
  | some parent =>
      dsimp only
      cases catalog.aggregate? parent with
      | none => exact raises_error ⟨⟩
      | some a => exact raises_ok _

theorem Aggregate.raises_ofNode (dycore : String) :
    (Aggregate.ofNode catalog dycore node).Raises (Fault.OnValue fun name _ _ => IsMark name) := by
  intro d
  have hheader : Raises _ (readHeader catalog d.name node) := raises_readHeader d.name
  rw [outcome_ofNode]
  cases hh : readHeader catalog d.name node with
  | error fault => exact raises_error (hheader fault hh)
  | ok header =>
      refine Raises.map _ (Action.raises_mapM (fun child _ d => ?_) d)
      rw [outcome_takeMember]
      cases child.tag != "data" with
      | true => exact raises_error ⟨⟩
      | false =>
          cases isFor child dycore with
          | false => exact raises_ok _
          | true =>
              cases d.take? (Text.trim child.body) with
              | none => exact raises_error ⟨⟩
              | some taken => exact raises_ok _

/-! ## Files and registries -/

namespace FileUnit

/-- A value that a file is refused for: that of one of its variables, or a mark of a definition. -/
def BadValue (file : Node) (name value element : String) : Prop :=
  Aggregate.IsMark name ∨ ∃ node ∈ variableChildren file, Variable.BadValue node name value element

theorem raises_addVariable {file : Node} (hnode : node ∈ variableChildren file) :
    Raises (Fault.OnValue (BadValue file)) (addVariable catalog dictionary node).outcome := by
  unfold addVariable
  simp only [Checked.outcome_bind, Action.outcome_alone]
  refine Raises.bind ?_ fun v _ => Raises.bind (Raises.map _ ?_) fun _ _ => raises_ok _
  · exact Variable.raises_ofNode.mono (Fault.OnValue.mono fun _ _ _ h => Or.inr ⟨node, hnode, h⟩)
  · rw [Dictionary.outcome_add]
    cases dictionary.findLocal? v.localName with
    | some other => exact raises_error ⟨⟩
    | none =>
        dsimp only
        split
        · exact raises_error ⟨⟩
        · exact raises_ok _

theorem raises_readUse (scope : String) {P : String → String → String → Prop} :
    Raises (Fault.OnValue P) (readUse scope node) := by
  have hrequire (name : String) : Raises (Fault.OnValue P) (requireUse node name scope) := by
    unfold requireUse
    cases node.get? name with
    | none => exact raises_error ⟨⟩
    | some value => exact raises_ite (raises_error ⟨⟩) (raises_ok _)
  exact (hrequire "module").bind fun _ _ => (hrequire "reference").bind fun _ _ => raises_ok _

theorem raises_surveyItem {file : Node} {own : List String} (survey : Survey) {item : Item}
    (h : ∀ node, item.variableNode? = some node → node ∈ variableChildren file) :
    Raises (Fault.OnValue (BadValue file)) (surveyItem catalog own survey item).outcome := by
  cases item with
  | variableItem node =>
      rw [outcome_surveyVariable]
      exact raises_ite (raises_ok _) ((raises_addVariable (h node rfl)).bind fun _ _ => raises_ok _)
  | useItem node =>
      rw [outcome_surveyUse]
      exact (raises_readUse _).bind fun _ _ => raises_ok _
  | aggregateItem node => exact raises_ok _

theorem raises_defineAggregate {dycore : String} {file : Node} {deferred : List Node}
    (h : ∀ node ∈ deferred, node ∈ variableChildren file) (progress : Dictionary × List String)
    (definition : Node) :
    (defineAggregate dycore deferred progress definition).Raises (Fault.OnValue (BadValue file)) := by
  unfold defineAggregate
  refine Action.Raises.bind (fun _ => raises_ok _) fun catalog _ _ _ => Action.Raises.bind ?_
    fun read _ _ _ => Action.Raises.bind ?_ fun _ _ _ _ => Action.Raises.bind (fun _ => raises_ok _)
    fun catalog _ _ _ => Action.Raises.bind (Action.raises_lift ?_) fun _ _ _ _ =>
    Action.raises_pure _
  · intro s
    rw [Action.outcome_within]
    exact ((Aggregate.raises_ofNode _ _).mono (Fault.OnValue.mono fun _ _ _ h => Or.inl h)).map _
  · intro s
    rw [Catalog.outcome_announce]
    unfold Catalog.register
    cases s.lookup? read.1.name with
    | some entry => exact raises_error ⟨⟩
    | none => exact raises_ok _
  · rw [Checked.outcome_foldlM]
    exact raises_foldlM fun d node hnode => raises_addVariable (h node (List.mem_of_mem_filter hnode))

theorem raises_ofNode (dycore : String) (file : Node) :
    (FileUnit.ofNode dycore file).Raises (Fault.OnValue (BadValue file)) := by
  intro catalog
  rw [outcome_ofNode]
  cases hitems : file.children.mapM (Item.ofNode (file.get "name")) with
  | error fault =>
      refine raises_error (raises_mapM (fun child _ => ?_) fault hitems)
      unfold Item.ofNode
      exact raises_ite (raises_ok _)
        (raises_ite (raises_ok _) (raises_ite (raises_ok _) (raises_error ⟨⟩)))
  | ok items =>
      have hvariables : items.filterMap Item.variableNode? = variableChildren file :=
        (items_eq_ok hitems).1
      dsimp only
      cases hsurvey : items.foldlM
          (fun survey item => (surveyItem catalog (ownTypes file) survey item).outcome)
          ⟨.empty (file.get "name") (file.get "type"), [], []⟩ with
      | error fault =>
          refine raises_error (raises_foldlM (fun survey item hitem => ?_) fault hsurvey)
          refine raises_surveyItem survey fun node hnode => ?_
          rw [← hvariables]
          exact List.mem_filterMap.mpr ⟨item, hitem, hnode⟩
      | ok survey =>
          obtain ⟨-, hdeferred, -⟩ := survey_eq_ok_iff.mp hsurvey
          refine (Action.raises_foldlM (fun progress node _ => ?_) catalog).map _
          refine raises_defineAggregate (fun node hnode => ?_) progress node
          rw [hdeferred, hvariables] at hnode
          exact List.mem_of_mem_filter hnode

end FileUnit

namespace Compilation

theorem raises_compile (root : Node) :
    (compile root).Raises (Fault.OnValue fun name value element =>
      ∃ file ∈ root.children, file.tag = "file" ∧ FileUnit.BadValue file name value element) := by
  refine Action.raises_forM fun file hfile c => ?_
  cases hsection : (compileSection file).outcome c with
  | mk result c' =>
      rcases compileSection_cases hsection with
        ⟨-, rfl, -⟩ | ⟨read, catalog, htag, hread, ⟨fault, rfl, rfl, -⟩ | ⟨unit, -, rfl, -⟩⟩
      · exact raises_error ⟨⟩
      · have hraises := FileUnit.raises_ofNode c.context.dycore file c.context.catalog
        rw [hread] at hraises
        exact raises_error
          (Fault.OnValue.mono (fun _ _ _ h => ⟨file, hfile, htag, h⟩) fault (hraises fault rfl))
      · exact raises_ok _

end Compilation

end FieldRegistry
