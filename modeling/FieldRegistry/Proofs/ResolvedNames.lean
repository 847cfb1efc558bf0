import FieldRegistry.Proofs.DeclaredShapes
import FieldRegistry.Proofs.Extents
import FieldRegistry.Proofs.VariableHistory

/-!
# Names that were resolved while a file was read

A variable of fixed shape is declared with the local names of other variables, and the elements of an
array are indexed by them. These names are looked up in the dictionary when the variable is built, and
nothing looks at them again. A derived type that is read later may take a named variable out of the
dictionary, so a variable names variables of its file, but not always of the final dictionary.
-/

namespace FieldRegistry

variable {catalog : Catalog} {d : Dictionary} {node : Node} {v : Variable} {vs : List Variable}

/-! ## What a variable names -/

namespace Variable

/-- The declared extents are those of `shape`, which has a list of parts for each dimension token. The
tokens are the dimensions of the variable, unless a blank list of dimensions was given last. -/
structure Shaped (v : Variable) (shape : List (List ShapePart)) : Prop where
  extents : v.extents = shape.map fun parts => Text.join ":" (parts.map ShapePart.text)
  tokens : ∃ tokens, (v.dimensions = tokens ∨ v.dimensions = []) ∧
    List.Forall₂ (fun token => List.Forall₂ ShapePart.StandsFor (Dimension.components token))
      tokens shape

/-- The element `e` is the slice of `v` at the index `w`: its name has the standard name of the index, its
target the local name. -/
def IndexedBy (v : Variable) (e : Element) (w : Variable) : Prop :=
  ∃ position ∈ v.dimensions, ∃ index, Text.lower w.standardName = Text.lower index ∧
    e.localName = v.localName ++ "(" ++
      Text.join "," (Element.subscriptsAt v.dimensions position index) ++ ")" ∧
    e.subscripts = Element.subscriptsAt v.dimensions position w.localName

/-- The texts of `v` name the variables of `shape` and the variables `indices`. -/
structure Names (v : Variable) (shape : List (List ShapePart)) (indices : List Variable) : Prop where
  fixed : v.storage.hasFixedShape = true → v.Shaped shape
  deferred : v.storage.hasFixedShape = false → shape = [] ∧ ∀ extent ∈ v.extents, extent = ":"
  elements : List.Forall₂ v.IndexedBy v.elements indices

/-- The variables of a shape and the indices. -/
def named (shape : List (List ShapePart)) (indices : List Variable) : List Variable :=
  shape.flatten.filterMap ShapePart.named? ++ indices

/-! ## Reading a variable -/

theorem indexedBy_ofNode {child : Node} {e : Element}
    (h : (Element.ofNode catalog d v.toQuantity child).outcome = .ok e) :
    ∃ w, w ∈ d.declared ∧ v.IndexedBy e w := by
  obtain ⟨w, hw, hposition, hread, hsubscripts, -⟩ := Element.ofNode_eq_ok h
  obtain ⟨hmem, hs⟩ := Dictionary.mem_of_findStandard? hw
  obtain ⟨hlocal, -⟩ := Quantity.read_eq_ok hread
  exact ⟨w, hmem, _, hposition, _, hs, hlocal, hsubscripts⟩

/-- A variable names variables of the dictionary that it was read against. -/
theorem names_ofNode (h : (Variable.ofNode catalog d node).outcome = .ok v) :
    ∃ shape indices, v.Names shape indices ∧ named shape indices ⊆ d.declared := by
  obtain ⟨-, -, -, -, -, helements, -⟩ := ofNode_eq_ok h
  have hshape := shapeOf_ofNode h
  obtain ⟨indices, hindices, hindexed⟩ := exists_common_of_forall₂
    ((forall₂_of_mapM_eq_ok helements).imp fun _ _ => indexedBy_ofNode)
  have hmem : ∀ w ∈ indices, w ∈ d.declared := by
    intro w hw
    obtain ⟨-, -, hw⟩ := exists_left_of_forall₂ hindices hw
    exact hw
  cases hfixed : v.storage.hasFixedShape with
  | true =>
      obtain ⟨shape, hparts, htexts⟩ := exists_common_of_forall₂
        (hshape.extents.imp fun _ _ hdeclared => hdeclared.exists_parts hfixed)
      rw [← List.forall₂_map_right_iff, List.forall₂_eq_eq_eq] at htexts
      have htokens : v.dimensions = Dimension.lastFull node.dimensionLists ∨ v.dimensions = [] := by
        rw [hshape.tokens, or_comm, eq_comm (b := Dimension.lastFull _)]
        exact Dimension.lastFull_eq_or _
      refine ⟨shape, indices, ⟨fun _ => ⟨htexts, _, htokens, hparts.imp fun _ _ h => h.standFor⟩,
        fun hno => ?_, hindexed⟩, ?_⟩
      · rw [hfixed] at hno
        cases hno
      · intro w hw
        rcases List.mem_append.mp hw with hw | hw
        · obtain ⟨part, hpart, hw⟩ := List.mem_filterMap.mp hw
          obtain ⟨parts, hmemParts, hpart⟩ := List.mem_flatten.mp hpart
          obtain ⟨token, -, hp⟩ := exists_left_of_forall₂ hparts hmemParts
          exact (Dictionary.mem_of_findStandard? (hp.found part hpart w hw)).1
        · exact hmem w hw
  | false =>
      refine ⟨[], indices, ⟨fun hyes => ?_, fun _ => ⟨rfl, fun extent hextent => ?_⟩, hindexed⟩, hmem⟩
      · rw [hfixed] at hyes
        cases hyes
      · obtain ⟨token, -, hdeclared⟩ := exists_left_of_forall₂ hshape.extents hextent
        exact hdeclared.eq_colon hfixed

end Variable

/-! ## Files -/

/-- A file names only variables of its own: every variable that it has built so far, taken out or not,
names variables of this kind. -/
theorem historyInvariant_names : HistoryInvariant fun d taken =>
    ∀ v ∈ d.declared ++ taken, ∃ shape indices, v.Names shape indices ∧
      Variable.named shape indices ⊆ d.declared ++ taken where
  empty _ _ v hv := by cases hv
  add {_ d taken _ u d'} _ hd hu ha v hv := by
    have hgrow : d.declared ++ taken ⊆ d'.declared ++ taken := fun w hw =>
      (Dictionary.mem_history_add ha).mpr (Or.inr hw)
    rcases (Dictionary.mem_history_add ha).mp hv with rfl | hv
    · obtain ⟨shape, indices, hnames, hsub⟩ := Variable.names_ofNode hu
      exact ⟨shape, indices, hnames,
        fun w hw => hgrow (List.mem_append_left _ (hsub hw))⟩
    · obtain ⟨shape, indices, hnames, hsub⟩ := hd v hv
      exact ⟨shape, indices, hnames, fun w hw => hgrow (hsub hw)⟩
  take hd ht v hv := by
    obtain ⟨shape, indices, hnames, hsub⟩ := hd v ((Dictionary.mem_history_take? ht).mp hv)
    exact ⟨shape, indices, hnames, fun w hw => (Dictionary.mem_history_take? ht).mpr (hsub hw)⟩

/-- The module of a file declares a variable of that name. -/
def FileUnit.Declares (unit : FileUnit) (name : String) : Prop :=
  ∃ v ∈ unit.dictionary.declared, v.localName = name

instance (unit : FileUnit) (name : String) : Decidable (unit.Declares name) :=
  inferInstanceAs (Decidable (∃ v ∈ unit.dictionary.declared, v.localName = name))

/-- The declared shape of a variable and the targets of its elements are written with the local names of
variables of the file, those with the standard names that the registry gives. The module declares all of
these names if and only if it declares those of the named variables that became members of its derived
types, by other variables that took the name over. -/
theorem resolved_names_declared_iff (dycore : String) (settings : Settings)
    (requests : List Request) :
    let run := (Compilation.start dycore settings).after requests
    ∀ unit ∈ run.units, ∃ own, unit.aggregates run.context.catalog = .ok own ∧
      ∀ v ∈ unit.dictionary.declared, ∃ shape indices, v.Names shape indices ∧
        (∀ w ∈ Variable.named shape indices, w ∈ unit.ownVariables own) ∧
        ((∀ w ∈ Variable.named shape indices, unit.Declares w.localName) ↔
          ∀ a ∈ own, ∀ w ∈ a.members, w ∈ Variable.named shape indices →
            unit.Declares w.localName) := by
  intro run unit hu
  obtain ⟨own, hown, hall⟩ :=
    Compilation.history_invariant historyInvariant_names dycore settings requests unit hu
  refine ⟨own, hown, fun v hv => ?_⟩
  obtain ⟨shape, indices, hnames, hsub⟩ := hall v (List.mem_append_left _ hv)
  refine ⟨shape, indices, hnames, fun w hw => hsub hw, ?_⟩
  constructor
  · intro h a _ w _ hw
    exact h w hw
  · intro h w hw
    rcases List.mem_append.mp (hsub hw) with hdeclared | hmember
    · exact ⟨w, hdeclared, rfl⟩
    · obtain ⟨a, ha, hwa⟩ := List.mem_flatMap.mp hmember
      exact h a ha w hwa hw

/-! ## A dimension and an index that become members -/

/-- A file whose type `grid` takes the extent of `u` and the index of an element of `q`, with the variables
`more`. -/
def gridRegistry (more : List Node) : Node where
  tag := "registry"
  children :=
    [{ tag := "file"
       attributes := [("name", "physics_types"), ("type", "module")]
       children :=
         [{ tag := "variable"
            attributes := [("local_name", "ncol"), ("standard_name", "horizontal_dimension"),
              ("type", "integer")] },
          { tag := "variable"
            attributes := [("local_name", "ix_q"), ("standard_name", "index_of_water_vapor"),
              ("type", "integer")] },
          { tag := "variable"
            attributes := [("local_name", "u"), ("standard_name", "eastward_wind"),
              ("type", "real")]
            children := [{ tag := "dimensions", text := some "horizontal_dimension" }] },
          { tag := "array"
            attributes := [("allocatable", "allocatable"), ("local_name", "q"),
              ("standard_name", "mixing_ratio"), ("type", "real")]
            children :=
              [{ tag := "dimensions", text := some "number_of_constituents" },
               { tag := "element"
                 attributes := [("index_name", "index_of_water_vapor"),
                   ("index_pos", "number_of_constituents"),
                   ("standard_name", "water_vapor_mixing_ratio")] }] },
          { tag := "ddt"
            attributes := [("type", "grid")]
            children := [{ tag := "data", text := some "horizontal_dimension" },
              { tag := "data", text := some "index_of_water_vapor" }] }] ++ more }]

/-- The module declares `u(ncol)` and assigns to `q(ix_q)`, but neither `ncol` nor `ix_q` is a variable of
it. -/
theorem gridRegistry_undeclared : ∃ run unit u q e,
    (Compilation.compile (gridRegistry [])).outcome (.start "se" []) = (.ok (), run) ∧
      unit ∈ run.units ∧
      u ∈ unit.dictionary.declared ∧ u.storage.hasFixedShape = true ∧ u.declaredShape = "(ncol)" ∧
      q ∈ unit.dictionary.declared ∧ e ∈ q.elements ∧ e.target = "q(ix_q)" ∧
      ¬ unit.Declares "ncol" ∧ ¬ unit.Declares "ix_q" := by
  have hok : ((Compilation.compile (gridRegistry [])).outcome (.start "se" [])).1.toOption.any
      (fun _ => true) = true := by decide +kernel
  have hunit :
      let run := ((Compilation.compile (gridRegistry [])).outcome (.start "se" [])).2
      ∃ unit ∈ run.units,
        (∃ u ∈ unit.dictionary.declared, u.storage.hasFixedShape = true ∧
          u.declaredShape = "(ncol)") ∧
        (∃ q ∈ unit.dictionary.declared, ∃ e ∈ q.elements, e.target = "q(ix_q)") ∧
        ¬ unit.Declares "ncol" ∧ ¬ unit.Declares "ix_q" := by
    decide +kernel
  obtain ⟨done, hrun, -⟩ := Action.outcome_eq_ok_of_any hok
  -- the run is only a name from here on, so that nothing evaluates it again
  generalize ((Compilation.compile (gridRegistry [])).outcome (.start "se" [])).2 = run at hrun hunit
  obtain ⟨unit, hu, ⟨u, hmem, hfixed, hshape⟩, ⟨q, hq, e, he, htarget⟩, hncol, hindex⟩ := hunit
  exact ⟨run, unit, u, q, e, hrun, hu, hmem, hfixed, hshape, hq, he, htarget, hncol, hindex⟩

/-- Variables of the type `grid` itself that are named like its members. -/
def gridInstances : List Node :=
  [{ tag := "variable"
     attributes := [("local_name", "ncol"), ("standard_name", "first_grid"), ("type", "grid")] },
   { tag := "variable"
     attributes := [("local_name", "ix_q"), ("standard_name", "second_grid"), ("type", "grid")] }]

/-- With variables that take the names of the members over, every name is declared again. -/
theorem gridRegistry_redeclared :
    let run := (Compilation.start "se" []).after [.compile (gridRegistry gridInstances)]
    ∃ unit ∈ run.units, ∃ own, unit.aggregates run.context.catalog = .ok own ∧
      (∃ a ∈ own, ∃ w ∈ a.members, w.localName = "ncol") ∧
      ∃ v ∈ unit.dictionary.declared, v.declaredShape = "(ncol)" ∧
        ∃ shape indices, v.Names shape indices ∧
          ∀ w ∈ Variable.named shape indices, unit.Declares w.localName := by
  have hunit :
      let run := (Compilation.start "se" []).after [.compile (gridRegistry gridInstances)]
      ∃ unit ∈ run.units,
        (unit.aggregates run.context.catalog).toOption.any (fun own =>
          (∃ a ∈ own, ∃ w ∈ a.members, w.localName = "ncol") ∧
          ∀ a ∈ own, ∀ w ∈ a.members, unit.Declares w.localName) = true ∧
        ∃ v ∈ unit.dictionary.declared, v.declaredShape = "(ncol)" := by
    decide +kernel
  have hmain := resolved_names_declared_iff "se" [] [.compile (gridRegistry gridInstances)]
  generalize (Compilation.start "se" []).after [.compile (gridRegistry gridInstances)] = run
    at hunit hmain ⊢
  obtain ⟨unit, hu, hany, v, hv, hshape⟩ := hunit
  obtain ⟨own, hown, hall⟩ := hmain unit hu
  rw [hown] at hany
  obtain ⟨hmember, hdeclares⟩ := of_decide_eq_true hany
  obtain ⟨shape, indices, hnames, -, hiff⟩ := hall v hv
  exact ⟨unit, hu, own, hown, hmember, v, hv, hshape, shape, indices, hnames,
    hiff.mpr fun a ha w hw _ => hdeclares a ha w hw⟩

end FieldRegistry
