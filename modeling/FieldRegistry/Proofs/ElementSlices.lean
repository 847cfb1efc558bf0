import FieldRegistry.Proofs.DeclaredShapes

/-!
# Slices of arrays

An element of an array has the index at every dimension of its parent that equals the position, a colon at
the others, and the dimensions with a colon as its own. So it fixes as many dimensions as the position
stands among those of the parent, and exactly one if the position stands there once.
-/

namespace FieldRegistry

variable {catalog : Catalog} {d : Dictionary} {node : Node} {parent : Quantity} {e : Element}

/-! ## Lists between commas -/

namespace Text

theorem splitAll_join {ss : List String} (hne : ss ≠ []) (h : ∀ s ∈ ss, ',' ∉ s.toList) :
    splitAll ',' (join "," ss) = ss := by
  induction ss with
  | nil => exact absurd rfl hne
  | cons s ss ih =>
      obtain ⟨hfirst, hrest⟩ := List.forall_mem_cons.mp h
      cases ss with
      | nil => exact splitAll_of_notMem hfirst
      | cons t ss =>
          have hlist : (join "," (s :: t :: ss)).toList =
              s.toList ++ ',' :: (join "," (t :: ss)).toList := by
            simp [String.toList_append]
          have htail := ih (by simp) hrest
          have hhead := splitAll_of_notMem hfirst
          unfold splitAll at htail hhead ⊢
          rw [hlist, pieces_append_sep (by decide), List.map_append, hhead, htail]
          rfl

end Text

/-! ## Subscripts -/

namespace Element

/-- A colon for each dimension, but `index` at one place. -/
def subscriptsWith (rank place : Nat) (index : String) : List String :=
  (List.replicate rank ":").set place index

/-- A slice of the array `parent` as it is written. -/
def sliceText (parent : Quantity) (subscripts : List String) : String :=
  parent.localName ++ "(" ++ Text.join "," subscripts ++ ")"

/-- The subscripts in the text of a slice of `parent`. -/
def subscriptsIn (parent : Quantity) (text : String) : List String :=
  Text.splitAll ',' (String.ofList (text.toList.drop (parent.localName.toList.length + 1)).dropLast)

theorem subscriptsIn_sliceText {ss : List String} (hne : ss ≠ []) (h : ∀ s ∈ ss, ',' ∉ s.toList) :
    subscriptsIn parent (sliceText parent ss) = ss := by
  have hlist : (sliceText parent ss).toList =
      (parent.localName.toList ++ ['(']) ++ ((Text.join "," ss).toList ++ [')']) := by
    simp [sliceText, String.toList_append]
  have hdrop : ((sliceText parent ss).toList.drop (parent.localName.toList.length + 1)).dropLast =
      (Text.join "," ss).toList := by
    rw [hlist, List.drop_left' (by simp), List.dropLast_concat]
  rw [subscriptsIn, hdrop, String.ofList_toList, Text.splitAll_join hne h]

theorem subscriptsIn_subscriptsWith {place : Nat} {index : String}
    (hplace : place < parent.dimensions.length) (hcomma : ',' ∉ index.toList) :
    subscriptsIn parent (sliceText parent (subscriptsWith parent.dimensions.length place index)) =
      subscriptsWith parent.dimensions.length place index := by
  have hlength : (subscriptsWith parent.dimensions.length place index).length =
      parent.dimensions.length := by
    simp [subscriptsWith]
  refine subscriptsIn_sliceText (List.ne_nil_of_length_pos (by omega)) fun s hs => ?_
  rcases List.mem_or_eq_of_mem_set hs with hs | rfl
  · rw [List.eq_of_mem_replicate hs]
    decide
  · exact hcomma

theorem subscriptsAt_of_notMem {dimensions : List String} {position : String} (index : String)
    (h : position ∉ dimensions) :
    subscriptsAt dimensions position index = List.replicate dimensions.length ":" := by
  refine List.eq_replicate_iff.mpr ⟨List.length_map .., List.forall_mem_map.mpr fun token ht => ?_⟩
  have hne : (token == position) = false := beq_false_of_ne (ne_of_mem_of_not_mem ht h)
  rw [hne]
  rfl

theorem subscriptsAt_eq_subscriptsWith {before after : List String} {position : String} (index : String)
    (hb : position ∉ before) (ha : position ∉ after) :
    subscriptsAt (before ++ position :: after) position index =
      subscriptsWith (before ++ position :: after).length before.length index := by
  have hparts : subscriptsAt (before ++ position :: after) position index =
      subscriptsAt before position index ++ index :: subscriptsAt after position index := by
    simp [subscriptsAt]
  have hset : subscriptsWith (before ++ position :: after).length before.length index =
      List.replicate before.length ":" ++ index :: List.replicate after.length ":" := by
    simp [subscriptsWith, List.replicate_add, List.replicate_succ]
  rw [hparts, hset, subscriptsAt_of_notMem index hb, subscriptsAt_of_notMem index ha]

end Element

/-! ## Dimensions of a slice -/

theorem exists_split_of_count_eq_one {tokens : List String} {position : String}
    (h : tokens.count position = 1) :
    ∃ before after, tokens = before ++ position :: after ∧ position ∉ before ∧ position ∉ after := by
  have hmem : position ∈ tokens := List.count_pos_iff.mp (by omega)
  obtain ⟨before, after, rfl, hb⟩ := List.eq_append_cons_of_mem hmem
  refine ⟨before, after, rfl, hb, List.count_eq_zero.mp ?_⟩
  rw [List.count_append, List.count_cons_self] at h
  omega

theorem filter_ne_eq_eraseIdx {before after : List String} {position : String} (hb : position ∉ before)
    (ha : position ∉ after) :
    (before ++ position :: after).filter (· != position) =
      (before ++ position :: after).eraseIdx before.length := by
  have hkeep : ∀ {tokens : List String}, position ∉ tokens →
      tokens.filter (· != position) = tokens := fun {tokens} h =>
    List.filter_eq_self.mpr fun token ht => by simpa using ne_of_mem_of_not_mem ht h
  simp [List.eraseIdx_append_of_length_le, hkeep hb, hkeep ha]

theorem length_filter_ne_add_count (tokens : List String) (position : String) :
    (tokens.filter (· != position)).length + tokens.count position = tokens.length := by
  rw [List.length_eq_length_filter_add (· == position) (l := tokens), List.count,
    List.countP_eq_length_filter, Nat.add_comm]
  rfl

namespace Element

/-- `e` fixes the dimension of `parent` at `place`: it has the other dimensions, and the index stands at
this place and a colon at all others, by its standard name as written in the name of `e` and by its local
name in the target. -/
structure FixesAt (parent : Quantity) (position indexName indexLocalName : String) (e : Element)
    (place : Nat) : Prop where
  position : parent.dimensions[place]? = some position
  dimensions : e.dimensions = parent.dimensions.eraseIdx place
  localName : e.localName =
    sliceText parent (subscriptsWith parent.dimensions.length place indexName)
  target : e.target =
    sliceText parent (subscriptsWith parent.dimensions.length place indexLocalName)

theorem FixesAt.count_eq_one {position index indexLocal : String} {place : Nat}
    (h : e.FixesAt parent position index indexLocal place)
    (hdimensions : e.dimensions = parent.dimensions.filter (· != position)) :
    parent.dimensions.count position = 1 := by
  obtain ⟨hlt, -⟩ := List.getElem?_eq_some_iff.mp h.position
  have hlength := length_filter_ne_add_count parent.dimensions position
  rw [← hdimensions, h.dimensions, List.length_eraseIdx_of_lt hlt] at hlength
  omega

theorem FixesAt.of_count_eq_one {position index indexLocal : String}
    (hcount : parent.dimensions.count position = 1)
    (hdimensions : e.dimensions = parent.dimensions.filter (· != position))
    (hlocal : e.localName = sliceText parent (subscriptsAt parent.dimensions position index))
    (htarget : e.target = sliceText parent (subscriptsAt parent.dimensions position indexLocal)) :
    ∃ place, e.FixesAt parent position index indexLocal place := by
  obtain ⟨before, after, hsplit, hb, ha⟩ := exists_split_of_count_eq_one hcount
  rw [hsplit] at hdimensions hlocal htarget
  refine ⟨before.length, ?_, ?_, ?_, ?_⟩
  · simp [hsplit]
  · rw [hdimensions, hsplit, filter_ne_eq_eraseIdx hb ha]
  · rw [hlocal, hsplit, subscriptsAt_eq_subscriptsWith index hb ha]
  · rw [htarget, hsplit, subscriptsAt_eq_subscriptsWith indexLocal hb ha]

end Element

/-- An element has the dimensions of its parent but for those that equal the position. It fixes one
dimension if and only if the position stands once among them; and where the names of the index have no
comma, its name and its target then show a subscript for each dimension, the index at one place and a colon
at the others. -/
theorem element_fixes_one_iff (h : (Element.ofNode catalog d parent node).outcome = .ok e) :
    let position := node.get "index_pos"
    let index := node.get "index_name"
    let rank := parent.dimensions.length
    ∃ w, d.findStandard? index = some w ∧
      position ∈ parent.dimensions ∧
      e.dimensions = parent.dimensions.filter (· != position) ∧
      e.dimensions.length + parent.dimensions.count position = rank ∧
      ((∃ place, e.FixesAt parent position index w.localName place) ↔
        parent.dimensions.count position = 1) ∧
      ∀ place, e.FixesAt parent position index w.localName place →
        (',' ∉ index.toList →
          Element.subscriptsIn parent e.localName = Element.subscriptsWith rank place index) ∧
        (',' ∉ w.localName.toList →
          Element.subscriptsIn parent e.target = Element.subscriptsWith rank place w.localName) := by
  intro position index rank
  obtain ⟨w, hw, hposition, hread, hsubscripts, hparent⟩ := Element.ofNode_eq_ok h
  obtain ⟨hlocal, -, hdimensions, -⟩ := Quantity.read_eq_ok hread
  have htarget : e.target = Element.sliceText parent
      (Element.subscriptsAt parent.dimensions position w.localName) := by
    rw [Element.target, hparent, hsubscripts]
    rfl
  refine ⟨w, hw, hposition, hdimensions, ?_, ⟨?_, ?_⟩, ?_⟩
  · rw [hdimensions, length_filter_ne_add_count]
  · rintro ⟨place, hfixes⟩
    exact hfixes.count_eq_one hdimensions
  · intro hcount
    exact Element.FixesAt.of_count_eq_one hcount hdimensions hlocal htarget
  · intro place hfixes
    obtain ⟨hplace, -⟩ := List.getElem?_eq_some_iff.mp hfixes.position
    rw [hfixes.localName, hfixes.target]
    exact ⟨Element.subscriptsIn_subscriptsWith hplace, Element.subscriptsIn_subscriptsWith hplace⟩

/-! ## Constituents -/

def indexVariable : Node where
  tag := "variable"
  attributes := [("local_name", "ix_q"), ("standard_name", "index_of_water_vapor"), ("type", "integer")]

def waterVapor : Node where
  tag := "element"
  attributes := [("index_name", "index_of_water_vapor"), ("index_pos", "number_of_constituents"),
    ("standard_name", "water_vapor")]

/-- An array with an element for water vapor. -/
def constituentArray (dimensions : String) : Node where
  tag := "array"
  attributes := [("allocatable", "pointer"), ("local_name", "q"), ("standard_name", "constituents"),
    ("type", "real")]
  children := [{ tag := "dimensions", text := some dimensions }, waterVapor]

/-- An array over all pairs of constituents: the element is the diagonal entry of the index, and no
dimension is left. -/
theorem constituentArray_fixes_two :
    ∃ d v e, d.declared.map (·.localName) = ["ix_q"] ∧
      (Variable.ofNode .initial d
        (constituentArray "number_of_constituents number_of_constituents")).outcome = .ok v ∧
      (Element.ofNode .initial d v.toQuantity waterVapor).outcome = .ok e ∧ v.elements = [e] ∧
      e.dimensions = [] ∧ e.target = "q(ix_q,ix_q)" ∧
      ∀ place, ¬ e.FixesAt v.toQuantity "number_of_constituents" "index_of_water_vapor" "ix_q" place := by
  let d₀ := Dictionary.empty "physics_types" "module"
  have hread : (FileUnit.addVariable .initial d₀ indexVariable).outcome.toOption.any
      (fun d => d.declared.map (·.localName) = ["ix_q"] ∧
        (Variable.ofNode .initial d (constituentArray
          "number_of_constituents number_of_constituents")).outcome.toOption.any (fun v =>
            v.dimensions.length = 2 ∧
            (Element.ofNode .initial d v.toQuantity waterVapor).outcome.toOption.any (fun e =>
              v.elements = [e] ∧ e.dimensions = [] ∧ e.target = "q(ix_q,ix_q)") = true) = true) =
        true := by
    decide +kernel
  obtain ⟨d, -, hany⟩ := eq_ok_of_any hread
  obtain ⟨hdeclared, hany⟩ := of_decide_eq_true hany
  obtain ⟨v, hv, hany⟩ := eq_ok_of_any hany
  obtain ⟨hrank, hany⟩ := of_decide_eq_true hany
  obtain ⟨e, he, hany⟩ := eq_ok_of_any hany
  obtain ⟨helements, hdimensions, htarget⟩ := of_decide_eq_true hany
  refine ⟨d, v, e, hdeclared, hv, he, helements, hdimensions, htarget, fun place hfixes => ?_⟩
  obtain ⟨hlt, -⟩ := List.getElem?_eq_some_iff.mp hfixes.position
  have hlength := congrArg List.length hfixes.dimensions
  rw [hdimensions, List.length_eraseIdx_of_lt hlt, hrank] at hlength
  cases hlength

theorem constituentArray_fixes_last :
    ∃ d v e, (Variable.ofNode .initial d (constituentArray
        "horizontal_dimension vertical_layer_dimension number_of_constituents")).outcome = .ok v ∧
      v.elements = [e] ∧ e.dimensions = ["horizontal_dimension", "vertical_layer_dimension"] ∧
      e.target = "q(:,:,ix_q)" ∧
      ∃ place, e.FixesAt v.toQuantity "number_of_constituents" "index_of_water_vapor" "ix_q" place := by
  let d₀ := Dictionary.empty "physics_types" "module"
  have hread : (FileUnit.addVariable .initial d₀ indexVariable).outcome.toOption.any
      (fun d => (d.findStandard? "index_of_water_vapor").any (fun w => w.localName = "ix_q") = true ∧
        (Variable.ofNode .initial d (constituentArray
          "horizontal_dimension vertical_layer_dimension number_of_constituents")).outcome.toOption.any
            (fun v => v.dimensions.count "number_of_constituents" = 1 ∧
            (Element.ofNode .initial d v.toQuantity waterVapor).outcome.toOption.any (fun e =>
              v.elements = [e] ∧ e.dimensions = ["horizontal_dimension", "vertical_layer_dimension"] ∧
              e.target = "q(:,:,ix_q)") = true) = true) = true := by
    decide +kernel
  obtain ⟨d, -, hany⟩ := eq_ok_of_any hread
  obtain ⟨hindex, hany⟩ := of_decide_eq_true hany
  obtain ⟨v, hv, hany⟩ := eq_ok_of_any hany
  obtain ⟨hcount, hany⟩ := of_decide_eq_true hany
  obtain ⟨e, he, hany⟩ := eq_ok_of_any hany
  obtain ⟨helements, hdimensions, htarget⟩ := of_decide_eq_true hany
  obtain ⟨w, hw, -, -, -, hiff, -⟩ := element_fixes_one_iff he
  rw [show d.findStandard? "index_of_water_vapor" = some w from hw] at hindex
  have hlocal : w.localName = "ix_q" := of_decide_eq_true hindex
  rw [hlocal] at hiff
  exact ⟨d, v, e, hv, helements, hdimensions, htarget, hiff.mpr hcount⟩

end FieldRegistry
