import FieldRegistry.Document.Registry
import FieldRegistry.Proofs.JsonMembers
import FieldRegistry.Proofs.ReaderFaults

/-!
# What the schema of registries guarantees

A value that the built-in schema accepts can be read as a tree of elements, and the files, variables and
definitions in it have the attributes that the readers look for. The two say what an element is in
different ways: the schema by keywords about the members of objects, the reader by one round over these
members. Names of members must be distinct for this, as they are in all values that are read from text.
-/

namespace FieldRegistry

namespace Schema

variable {lookup : Lookup} {path : List String} {value : Json} {members : List (String × Json)}

/-! ## What the keywords ask for -/

theorem violations_keywords {all : List Keyword} :
    violations lookup (.keywords all) path value = [] ↔
      ∀ keyword ∈ all, keywordViolations lookup keyword path value = [] := by
  rw [violations]
  induction all with
  | nil => simp [keywordsViolations]
  | cons keyword rest ih => simp [keywordsViolations, ih]

theorem required_eq_nil {names : List String} :
    keywordViolations lookup (.required names) path (.object members) = [] ↔
      ∀ name ∈ names, ∃ v, (name, v) ∈ members := by
  simp [keywordViolations]

theorem properties_eq_nil {schemas : List (String × Schema)} :
    keywordViolations lookup (.properties schemas) path (.object members) = [] ↔
      ∀ p ∈ schemas, ∀ v, (p.1, v) ∈ members → violations lookup p.2 (path ++ [p.1]) v = [] := by
  rw [keywordViolations]
  induction schemas with
  | nil => simp [propertyViolations]
  | cons p rest ih =>
      rw [propertyViolations, List.append_eq_nil_iff, ih, List.forall_mem_cons,
        List.flatMap_eq_nil_iff]
      refine and_congr_left fun _ => ⟨fun h v hv => h (p.1, v) (by simp [hv]), ?_⟩
      rintro h ⟨name, v⟩ hv
      obtain ⟨hv, hname⟩ := List.mem_filter.mp hv
      cases (beq_iff_eq.mp hname : name = p.1)
      exact h v hv

theorem closed_eq_nil {known : List String} :
    keywordViolations lookup (.closed known) path (.object members) = [] ↔
      ∀ m ∈ members, m.1 ∈ known := by
  simp [keywordViolations]

theorem others_eq_nil {known : List String} {schema : Schema} :
    keywordViolations lookup (.others known schema) path (.object members) = [] ↔
      ∀ m ∈ members, m.1 ∉ known → violations lookup schema (path ++ [m.1]) m.2 = [] := by
  simp [keywordViolations]

theorem exists_path_of_items {schema : Schema} {items : List Json}
    (h : keywordViolations lookup (.items schema) path (.array items) = []) :
    ∀ item ∈ items, ∃ path, violations lookup schema path item = [] := by
  intro item hitem
  obtain ⟨i, hi⟩ := List.mem_iff_getElem?.mp hitem
  rw [keywordViolations, List.flatMap_eq_nil_iff] at h
  exact ⟨_, h (item, i) (List.mem_zipIdx_iff_getElem?.mpr hi)⟩

theorem exactly_eq_nil {wanted : String} :
    keywordViolations lookup (.exactly wanted) path value = [] ↔ value = .string wanted := by
  cases value <;> simp [keywordViolations]

theorem oneOf_eq_nil {options : List String} :
    keywordViolations lookup (.oneOf options) path value = [] ↔
      ∃ s ∈ options, value = .string s := by
  cases value <;> simp [keywordViolations]

theorem allOf_eq_nil {schemas : List Schema} :
    keywordViolations lookup (.allOf schemas) path value = [] ↔
      ∀ schema ∈ schemas, violations lookup schema path value = [] := by
  rw [keywordViolations]
  induction schemas with
  | nil => simp [allViolations]
  | cons schema rest ih => simp [allViolations, ih]

theorem whenThen_eq_nil {condition consequence : Schema} :
    keywordViolations lookup (.whenThen condition consequence) path value = [] ↔
      (violations lookup condition path value = [] →
        violations lookup consequence path value = []) := by
  simp [keywordViolations]

theorem string_of_kind (h : Json.Kind.holds .string value = true) : ∃ s, value = .string s := by
  cases value <;> simp [Json.Kind.holds] at h ⊢

theorem array_of_kind (h : Json.Kind.holds .array value = true) : ∃ items, value = .array items := by
  cases value <;> simp [Json.Kind.holds] at h ⊢

theorem object_of_kind (h : Json.Kind.holds .object value = true) :
    ∃ members, value = .object members := by
  cases value <;> simp [Json.Kind.holds] at h ⊢

/-! ## Elements -/

/-- A member that an element may have; `fits` says what its child elements are. -/
inductive ElementMember (fits : Json → Prop) : String → Json → Prop
  | tag (s : String) : ElementMember fits "tag" (.string s)
  | attributes {members : List (String × Json)} (h : ∀ m ∈ members, ∃ s, m.2 = .string s) :
      ElementMember fits "attributes" (.object members)
  | text (s : String) : ElementMember fits "text" (.string s)
  | children {items : List Json} (h : ∀ item ∈ items, fits item) :
      ElementMember fits "children" (.array items)

theorem members_of_node (h : violations lookup nodeSchema path value = []) :
    ∃ members, value = .object members ∧ (∃ v, ("tag", v) ∈ members) ∧
      ∀ m ∈ members, ElementMember (fun item => ∃ path, lookup "node" path item = []) m.1 m.2 := by
  simp only [nodeSchema, violations_keywords, List.forall_mem_cons, kind_eq_nil] at h
  obtain ⟨hobject, hrequired, hclosed, hproperties, -⟩ := h
  obtain ⟨members, rfl⟩ := object_of_kind hobject
  rw [required_eq_nil] at hrequired
  rw [closed_eq_nil] at hclosed
  simp only [properties_eq_nil, violations_keywords, List.forall_mem_cons, kind_eq_nil] at hproperties
  obtain ⟨htag, hattributes, htext, hchildren, -⟩ := hproperties
  refine ⟨members, rfl, hrequired "tag" (by simp), ?_⟩
  rintro ⟨name, v⟩ hm
  have hname : name = "tag" ∨ name = "attributes" ∨ name = "text" ∨ name = "children" := by
    simpa using hclosed _ hm
  rcases hname with rfl | rfl | rfl | rfl
  · obtain ⟨s, rfl⟩ := string_of_kind (htag v hm).1
    exact .tag s
  · obtain ⟨hkind, hothers, -⟩ := hattributes v hm
    obtain ⟨attributes, rfl⟩ := object_of_kind hkind
    simp only [others_eq_nil, violations_keywords, List.forall_mem_cons, kind_eq_nil] at hothers
    exact .attributes fun m hm => string_of_kind (hothers m hm (by simp)).1
  · obtain ⟨s, rfl⟩ := string_of_kind (htext v hm).1
    exact .text s
  · obtain ⟨hkind, hitems, -⟩ := hchildren v hm
    obtain ⟨items, rfl⟩ := array_of_kind hkind
    exact .children (exists_path_of_items hitems)

end Schema

/-! ## Reading elements -/

namespace Node

open Json (Flaw)
open Schema (ElementMember)

variable {members : List (String × Json)} {draft draft' : Draft} {name : String} {value : Json}
  {node : Node}

/-- One round over the members of an element. -/
def readMember (name : String) (value : Json) (draft : Draft) : Except Flaw Draft :=
  if name == "tag" then (asString value).map fun tag => { draft with tag := some tag }
  else if name == "attributes" then
    (asAttributes value).map fun attributes => { draft with attributes }
  else if name == "text" then (asText value).map fun text => { draft with text }
  else if name == "children" then (readChildren value).map fun children => { draft with children }
  else .error (unknownMember name)

theorem readMembers_cons (name : String) (value : Json) (rest : List (String × Json))
    (draft : Draft) :
    readMembers ((name, value) :: rest) draft =
      readMember name value draft >>= fun draft => readMembers rest draft := by
  rw [readMembers, readMember]
  cases name == "tag" with
  | true => cases asString value <;> rfl
  | false =>
      cases name == "attributes" with
      | true => cases asAttributes value <;> rfl
      | false =>
          cases name == "text" with
          | true => cases asText value <;> rfl
          | false =>
              cases name == "children" with
              | true => cases readChildren value <;> rfl
              | false => rfl

theorem exists_asAttributes (h : ∀ m ∈ members, ∃ s, m.2 = .string s) :
    ∃ attributes, asAttributes (.object members) = .ok attributes := by
  rw [asAttributes]
  induction members with
  | nil => exact ⟨[], rfl⟩
  | cons m rest ih =>
      obtain ⟨name, v⟩ := m
      obtain ⟨s, hs⟩ := h (name, v) (by simp)
      obtain ⟨attributes, hrest⟩ := ih fun m hm => h m (by simp [hm])
      cases hs
      refine ⟨(name, s) :: attributes, ?_⟩
      rw [List.mapM_cons, hrest]
      rfl

theorem exists_readItems {items : List Json} (h : ∀ item ∈ items, ∃ node, ofJson item = .ok node) :
    ∃ nodes, readItems items = .ok nodes := by
  induction items with
  | nil => exact ⟨[], rfl⟩
  | cons item rest ih =>
      obtain ⟨node, hnode⟩ := h item (by simp)
      obtain ⟨nodes, hrest⟩ := ih fun item hitem => h item (by simp [hitem])
      refine ⟨node :: nodes, ?_⟩
      rw [readItems, hnode, hrest]
      rfl

theorem exists_readMember
    (h : ElementMember (fun item => ∃ node, ofJson item = .ok node) name value) (draft : Draft) :
    ∃ draft', readMember name value draft = .ok draft' ∧
      (draft.tag.isSome ∨ name = "tag" → draft'.tag.isSome) := by
  cases h with
  | tag s => exact ⟨_, rfl, by simp⟩
  | text s => exact ⟨_, rfl, by simp⟩
  | attributes h =>
      obtain ⟨attributes, ha⟩ := exists_asAttributes h
      exact ⟨{ draft with attributes }, by rw [readMember, ha]; rfl, by simp⟩
  | children h =>
      obtain ⟨children, hc⟩ := exists_readItems h
      exact ⟨{ draft with children }, by rw [readMember, readChildren, hc]; rfl, by simp⟩

/-- Members of the right kinds can be read, and a tag among them is found. -/
theorem exists_readMembers
    (h : ∀ m ∈ members, ElementMember (fun item => ∃ node, ofJson item = .ok node) m.1 m.2)
    (draft : Draft) :
    ∃ draft', readMembers members draft = .ok draft' ∧
      ((draft.tag.isSome ∨ ∃ v, ("tag", v) ∈ members) → draft'.tag.isSome) := by
  induction members generalizing draft with
  | nil => exact ⟨draft, rfl, by simp⟩
  | cons m rest ih =>
      obtain ⟨name, v⟩ := m
      obtain ⟨draft₁, hstep, htag₁⟩ := exists_readMember (h (name, v) (by simp)) draft
      obtain ⟨draft₂, hrest, htag₂⟩ := ih (fun m hm => h m (by simp [hm])) draft₁
      refine ⟨draft₂, ?_, ?_⟩
      · rw [readMembers_cons, hstep]
        exact hrest
      · rintro (hd | ⟨w, hw⟩)
        · exact htag₂ (Or.inl (htag₁ (Or.inl hd)))
        · rcases List.mem_cons.mp hw with hw | hw
          · cases hw
            exact htag₂ (Or.inl (htag₁ (Or.inr rfl)))
          · exact htag₂ (Or.inr ⟨w, hw⟩)

/-! ### What was read -/

/-- The part of a draft that a member stands for is read from its value. -/
structure Draft.Holds (draft : Draft) (name : String) (value : Json) : Prop where
  tag : name = "tag" → ∃ tag, asString value = .ok tag ∧ draft.tag = some tag
  attributes : name = "attributes" → asAttributes value = .ok draft.attributes
  children : name = "children" → readChildren value = .ok draft.children

theorem holds_of_readMember (h : readMember name value draft = .ok draft') :
    draft'.Holds name value ∧
      (∀ other v, other ≠ name → draft.Holds other v → draft'.Holds other v) ∧
      (name ≠ "children" → draft'.children = draft.children) := by
  unfold readMember at h
  split at h
  · rename_i hname
    cases beq_iff_eq.mp hname
    obtain ⟨tag, htag, rfl⟩ := map_eq_ok h
    refine ⟨⟨fun _ => ⟨tag, htag, rfl⟩, by simp, by simp⟩, ?_, fun _ => rfl⟩
    rintro other v hother ⟨-, ha, hc⟩
    exact ⟨fun ht => absurd ht hother, ha, hc⟩
  split at h
  · rename_i hname
    cases beq_iff_eq.mp hname
    obtain ⟨attributes, hattributes, rfl⟩ := map_eq_ok h
    refine ⟨⟨by simp, fun _ => hattributes, by simp⟩, ?_, fun _ => rfl⟩
    rintro other v hother ⟨ht, -, hc⟩
    exact ⟨ht, fun ha => absurd ha hother, hc⟩
  split at h
  · rename_i hname
    cases beq_iff_eq.mp hname
    obtain ⟨text, -, rfl⟩ := map_eq_ok h
    exact ⟨⟨by simp, by simp, by simp⟩, fun other v _ ⟨ht, ha, hc⟩ => ⟨ht, ha, hc⟩, fun _ => rfl⟩
  split at h
  · rename_i hname
    cases beq_iff_eq.mp hname
    obtain ⟨children, hchildren, rfl⟩ := map_eq_ok h
    refine ⟨⟨by simp, by simp, fun _ => hchildren⟩, ?_, fun hc => absurd rfl hc⟩
    rintro other v hother ⟨ht, ha, -⟩
    exact ⟨ht, ha, fun hc => absurd hc hother⟩
  · cases h

theorem holds_of_readMembers (hnames : (members.map (·.1)).Nodup)
    (h : readMembers members draft = .ok draft') :
    (∀ m ∈ members, draft'.Holds m.1 m.2) ∧
      (∀ other v, other ∉ members.map (·.1) → draft.Holds other v → draft'.Holds other v) ∧
      ("children" ∉ members.map (·.1) → draft'.children = draft.children) := by
  induction members generalizing draft with
  | nil => cases h; exact ⟨by simp, fun _ _ _ h => h, fun _ => rfl⟩
  | cons m rest ih =>
      obtain ⟨name, v⟩ := m
      rw [readMembers_cons] at h
      obtain ⟨draft₁, hstep, h⟩ := bind_eq_ok h
      obtain ⟨hnew, hrest⟩ := List.nodup_cons.mp hnames
      obtain ⟨hheld, hkept, hchildren⟩ := ih hrest h
      obtain ⟨hheld₁, hkept₁, hchildren₁⟩ := holds_of_readMember hstep
      refine ⟨?_, ?_, ?_⟩
      · exact List.forall_mem_cons.mpr ⟨hkept name v hnew hheld₁, hheld⟩
      · intro other w hother hw
        obtain ⟨hne, hother⟩ := not_or.mp fun h => hother (List.mem_cons.mpr h)
        exact hkept other w hother (hkept₁ other w hne hw)
      · intro hother
        obtain ⟨hne, hother⟩ := not_or.mp fun h => hother (List.mem_cons.mpr h)
        rw [hchildren hother, hchildren₁ (Ne.symm hne)]

/-- An element and the members that it was read from. -/
structure ReadFrom (node : Node) (members : List (String × Json)) : Prop where
  tag : ∀ v, ("tag", v) ∈ members → v = .string node.tag
  attributes : ∀ v, ("attributes", v) ∈ members → asAttributes v = .ok node.attributes
  children : ∀ child ∈ node.children, ∃ items, ("children", Json.array items) ∈ members ∧
    ∃ item ∈ items, ofJson item = .ok child

theorem exists_of_readItems {items : List Json} {nodes : List Node}
    (h : readItems items = .ok nodes) : ∀ node ∈ nodes, ∃ item ∈ items, ofJson item = .ok node := by
  induction items generalizing nodes with
  | nil => cases h; simp
  | cons item rest ih =>
      rw [readItems] at h
      obtain ⟨first, hfirst, h⟩ := bind_eq_ok h
      obtain ⟨others, hothers, rfl⟩ := map_eq_ok h
      refine List.forall_mem_cons.mpr ⟨⟨item, by simp, hfirst⟩, fun node hnode => ?_⟩
      obtain ⟨item', hitem, hread⟩ := ih hothers node hnode
      exact ⟨item', by simp [hitem], hread⟩

theorem items_of_readChildren {nodes : List Node} (h : readChildren value = .ok nodes) :
    ∃ items, value = .array items ∧ readItems items = .ok nodes := by
  cases value with
  | array items => exact ⟨items, rfl, h⟩
  | _ => cases h

theorem eq_string_of_asString {text : String} (h : asString value = .ok text) :
    value = .string text := by
  cases value with
  | string s => cases h; rfl
  | _ => cases h

theorem eq_object_of_asAttributes {attributes : List (String × String)}
    (h : asAttributes value = .ok attributes) :
    value = .object (attributes.map fun a => (a.1, .string a.2)) := by
  cases value with
  | object ms =>
      rw [asAttributes] at h
      congr 1
      induction ms generalizing attributes with
      | nil => cases h; rfl
      | cons m rest ih =>
          rw [List.mapM_cons] at h
          obtain ⟨a, ha, h⟩ := bind_eq_ok h
          obtain ⟨others, hothers, h⟩ := bind_eq_ok h
          obtain ⟨text, htext, rfl⟩ := map_eq_ok ha
          cases h
          rw [List.map_cons, ← ih hothers, ← eq_string_of_asString htext]
  | _ => cases h

theorem readFrom_of_ofJson (hnames : (members.map (·.1)).Nodup)
    (h : ofJson (.object members) = .ok node) : node.ReadFrom members := by
  rw [ofJson] at h
  obtain ⟨draft, hdraft, h⟩ := bind_eq_ok h
  obtain ⟨hheld, -, hchildren⟩ := holds_of_readMembers hnames hdraft
  unfold Draft.finish at h
  split at h
  · rename_i tag htag
    cases h
    refine ⟨?_, fun v hv => (hheld _ hv).attributes rfl, ?_⟩
    · intro v hv
      obtain ⟨s, hs, heq⟩ := (hheld _ hv).tag rfl
      cases htag.symm.trans heq
      exact eq_string_of_asString hs
    · intro child hchild
      by_cases hmem : "children" ∈ members.map (·.1)
      · obtain ⟨⟨name, v⟩, hv, rfl⟩ := List.mem_map.mp hmem
        obtain ⟨items, rfl, hitems⟩ := items_of_readChildren ((hheld _ hv).children rfl)
        exact ⟨items, hv, exists_of_readItems hitems child hchild⟩
      · rw [show draft.children = [] from hchildren hmem] at hchild
        cases hchild
  · cases h

/-! ### Attributes under the schema -/

open Schema (Lookup keywordViolations violations)

variable {lookup : Lookup} {path : List String}

theorem get?_of_mem {name value : String} (h : (name, value) ∈ node.attributes) :
    ∃ value, node.get? name = some value := by
  unfold Node.get?
  cases hfind : node.attributes.find? (·.1 == name) with
  | some a => exact ⟨a.2, rfl⟩
  | none => exact absurd (List.find?_eq_none.mp hfind _ h) (by simp)

theorem mem_of_get? {name value : String} (h : node.get? name = some value) :
    (name, value) ∈ node.attributes := by
  obtain ⟨a, ha, rfl⟩ := Option.map_eq_some_iff.mp h
  have hname := List.find?_some ha
  rw [← beq_iff_eq.mp hname]
  exact List.mem_of_find?_eq_some ha

/-- Attributes that the schema requires are there. -/
theorem ReadFrom.get?_required (h : node.ReadFrom members) {v : Json} {names : List String}
    (hv : ("attributes", v) ∈ members)
    (hrequired : keywordViolations lookup (.required names) path v = []) :
    ∀ name ∈ names, ∃ value, node.get? name = some value := by
  intro name hname
  rw [eq_object_of_asAttributes (h.attributes v hv), Schema.required_eq_nil] at hrequired
  obtain ⟨w, hw⟩ := hrequired name hname
  obtain ⟨⟨n, value⟩, ha, heq⟩ := List.mem_map.mp hw
  cases heq
  exact get?_of_mem ha

/-- Attributes with options have one of them. -/
theorem ReadFrom.get?_oneOf (h : node.ReadFrom members) {v : Json} {name value : String}
    {schemas : List (String × Schema)} {options : List String}
    (hv : ("attributes", v) ∈ members)
    (hproperties : keywordViolations lookup (.properties schemas) path v = [])
    (hname : (name, .keywords [.oneOf options]) ∈ schemas) (hget : node.get? name = some value) :
    value ∈ options := by
  rw [eq_object_of_asAttributes (h.attributes v hv), Schema.properties_eq_nil] at hproperties
  have hvalue := hproperties _ hname (.string value)
    (List.mem_map.mpr ⟨(name, value), mem_of_get? hget, rfl⟩)
  simp only [Schema.violations_keywords, List.forall_mem_cons, Schema.oneOf_eq_nil] at hvalue
  obtain ⟨⟨s, hs, heq⟩, -⟩ := hvalue
  cases heq
  exact hs

/-- A schema for elements with certain tags applies to those that are read with such a tag: attributes are
there and accepted, and so are the other members. -/
theorem ReadFrom.accepted_of_whenTag (h : node.ReadFrom members) {tag : Schema.Keyword}
    {attributes : List Schema.Keyword} {others : List (String × Schema)}
    (hwhen : violations lookup (Schema.whenTag tag [.required ["attributes"],
      .properties (("attributes", .keywords attributes) :: others)]) path (.object members) = [])
    (htag : keywordViolations lookup tag (path ++ ["tag"]) (.string node.tag) = []) :
    (∃ v, ("attributes", v) ∈ members ∧ ∀ keyword ∈ attributes,
        keywordViolations lookup keyword (path ++ ["attributes"]) v = []) ∧
      ∀ p ∈ others, ∀ v, (p.1, v) ∈ members → violations lookup p.2 (path ++ [p.1]) v = [] := by
  simp only [Schema.whenTag, Schema.violations_keywords, List.forall_mem_cons,
    Schema.whenThen_eq_nil, Schema.properties_eq_nil, Schema.required_eq_nil] at hwhen
  obtain ⟨hrequired, ⟨hattributes, hothers⟩, -⟩ := hwhen.1 ⟨⟨fun v hv => by
    rw [h.tag v hv]
    exact ⟨htag, by simp⟩, by simp⟩, by simp⟩
  obtain ⟨v, hv⟩ := hrequired.1
  exact ⟨⟨v, hv, hattributes v hv⟩, hothers⟩

end Node

/-! ## The schema of registries -/

namespace Json

theorem depth_le_of_mem_items {items : List Json} {item : Json} (h : item ∈ items) :
    item.depth + 1 ≤ (Json.array items).depth := by
  rw [depth, Nat.add_le_add_iff_right]
  induction items with
  | nil => cases h
  | cons first rest ih =>
      rw [depthItems]
      rcases List.mem_cons.mp h with rfl | h
      · exact Nat.le_max_left ..
      · exact Nat.le_trans (ih h) (Nat.le_max_right ..)

theorem depth_le_of_mem_members {members : List (String × Json)} {m : String × Json}
    (h : m ∈ members) : m.2.depth + 1 ≤ (Json.object members).depth := by
  rw [depth, Nat.add_le_add_iff_right]
  induction members with
  | nil => cases h
  | cons first rest ih =>
      rw [depthMembers]
      rcases List.mem_cons.mp h with rfl | h
      · exact Nat.le_max_left ..
      · exact Nat.le_trans (ih h) (Nat.le_max_right ..)

end Json

namespace Schema

open Node (ofJson)

variable {lookup : Lookup} {path : List String} {value : Json} {node : Node}

/-- Between two elements the depth falls, so with as many lookups as there are levels every element is
looked at. -/
theorem exists_ofJson {fuel : Nat} (hdepth : value.depth ≤ fuel)
    (h : registrySchema.lookup (fuel + 1) "node" path value = []) : ∃ node, ofJson value = .ok node := by
  induction fuel generalizing value path with
  | zero =>
      obtain ⟨members, rfl, -, -⟩ := members_of_node h
      simp [Json.depth] at hdepth
  | succ fuel ih =>
      obtain ⟨members, rfl, htag, hmembers⟩ := members_of_node h
      have hread : ∀ m ∈ members,
          ElementMember (fun item => ∃ node, ofJson item = .ok node) m.1 m.2 := by
        rintro ⟨name, v⟩ hm
        have hv : v.depth + 1 ≤ _ := Json.depth_le_of_mem_members hm
        cases hmembers _ hm with
        | tag s => exact .tag s
        | attributes h => exact .attributes h
        | text s => exact .text s
        | children h =>
            refine .children fun item hitem => ?_
            obtain ⟨path, hnode⟩ := h item hitem
            have hdeeper := Json.depth_le_of_mem_items hitem
            exact ih (by omega) hnode
      obtain ⟨draft, hdraft, hsome⟩ := Node.exists_readMembers hread {}
      obtain ⟨tag, htag⟩ := Option.isSome_iff_exists.mp (hsome (Or.inr htag))
      refine ⟨⟨tag, draft.attributes, draft.text, draft.children⟩, ?_⟩
      rw [ofJson, hdraft]
      simp only [Except.bind, Node.Draft.finish, htag]

/-- What an item of a file has: a variable its names, a type and an access and a storage that exist, a
definition its name. -/
structure SoundItem (node : Node) : Prop where
  named : node.tag = "variable" ∨ node.tag = "array" →
    ∀ name ∈ ["local_name", "standard_name", "type"], ∃ text, node.get? name = some text
  access : node.tag = "variable" ∨ node.tag = "array" →
    ∀ text, node.get? "access" = some text → (Variable.accessOf? text).isSome
  storage : node.tag = "variable" ∨ node.tag = "array" →
    ∀ text, node.get? "allocatable" = some text → (Storage.parse? text).isSome
  defined : node.tag = "ddt" → ∃ text, node.get? "type" = some text

/-- What a file has: a name, one of the two types and items that are in order. -/
structure SoundFile (file : Node) : Prop where
  named : ∃ text, file.get? "name" = some text
  type : file.get? "type" = some "module" ∨ file.get? "type" = some "host"
  items : ∀ node ∈ file.children, SoundItem node

/-- The members of an element that the schema accepts, and the further schemas that hold of them. -/
theorem members_of_accepted {fuel : Nat} {schemas : List Schema} (hdistinct : value.Distinct)
    (hnode : ofJson value = .ok node)
    (h : violations (registrySchema.lookup (fuel + 1)) (.keywords [.allOf (.named "node" :: schemas)])
      path value = []) :
    ∃ members, value = .object members ∧ (∃ v, ("tag", v) ∈ members) ∧ node.ReadFrom members ∧
      ∀ schema ∈ schemas,
        violations (registrySchema.lookup (fuel + 1)) schema path (.object members) = [] := by
  simp only [violations_keywords, List.forall_mem_cons, allOf_eq_nil] at h
  obtain ⟨⟨hbase, hschemas⟩, -⟩ := h
  obtain ⟨members, rfl, htag, -⟩ := members_of_node hbase
  exact ⟨members, rfl, htag, Node.readFrom_of_ofJson (Json.distinct_object.mp hdistinct).1 hnode,
    hschemas⟩

theorem soundItem_of_accepted {fuel : Nat} (hdistinct : value.Distinct)
    (hnode : ofJson value = .ok node)
    (h : registrySchema.lookup (fuel + 2) "file_item" path value = []) : SoundItem node := by
  obtain ⟨members, rfl, -, hread, hschemas⟩ := members_of_accepted hdistinct hnode h
  simp only [List.forall_mem_cons] at hschemas
  obtain ⟨hvariable, hdefinition, -⟩ := hschemas
  have haccepted (htag : node.tag = "variable" ∨ node.tag = "array") :=
    (hread.accepted_of_whenTag hvariable
      (oneOf_eq_nil.mpr ⟨node.tag, by simpa using htag, rfl⟩)).1
  simp only [List.forall_mem_cons] at haccepted
  refine ⟨fun htag => ?_, fun htag text htext => ?_, fun htag text htext => ?_, fun htag => ?_⟩
  · obtain ⟨v, hv, hrequired, -⟩ := haccepted htag
    exact hread.get?_required hv hrequired
  · obtain ⟨v, hv, -, hoptions, -⟩ := haccepted htag
    have hmem : text ∈ ["public", "private", "protected"] :=
      hread.get?_oneOf hv hoptions (by simp) htext
    have hall : ∀ s ∈ ["public", "private", "protected"], (Variable.accessOf? s).isSome := by decide
    exact hall text hmem
  · obtain ⟨v, hv, -, hoptions, -⟩ := haccepted htag
    have hmem : text ∈ ["none", "target", "parameter", "allocatable", "pointer"] :=
      hread.get?_oneOf hv hoptions (by simp) htext
    have hall : ∀ s ∈ ["none", "target", "parameter", "allocatable", "pointer"],
        (Storage.parse? s).isSome := by decide
    exact hall text hmem
  · obtain ⟨v, hv, hkeywords⟩ := (hread.accepted_of_whenTag hdefinition
      (exactly_eq_nil.mpr (congrArg _ htag))).1
    exact hread.get?_required hv (hkeywords _ (List.mem_singleton_self _)) "type" (by simp)

theorem soundFile_of_accepted {fuel : Nat} (hdistinct : value.Distinct)
    (hnode : ofJson value = .ok node) (htag : node.tag = "file")
    (h : registrySchema.lookup (fuel + 3) "file" path value = []) : SoundFile node := by
  obtain ⟨members, rfl, -, hread, hschemas⟩ := members_of_accepted hdistinct hnode h
  obtain ⟨⟨v, hv, hkeywords⟩, hothers⟩ := hread.accepted_of_whenTag
    (hschemas _ (List.mem_singleton_self _)) (exactly_eq_nil.mpr (congrArg _ htag))
  simp only [List.forall_mem_cons] at hkeywords hothers
  obtain ⟨hrequired, hoptions, -⟩ := hkeywords
  have hgiven := hread.get?_required hv hrequired
  refine ⟨hgiven "name" (by simp), ?_, ?_⟩
  · obtain ⟨text, htext⟩ := hgiven "type" (by simp)
    have hmem : text ∈ ["module", "host"] := hread.get?_oneOf hv hoptions (by simp) htext
    rw [htext]
    simpa using hmem
  · intro child hchild
    obtain ⟨items, hitems, item, hitem, hread⟩ := hread.children child hchild
    have hkind := hothers.1 _ hitems
    simp only [violations_keywords, List.forall_mem_cons] at hkind
    obtain ⟨path, haccepted⟩ := exists_path_of_items hkind.2.1 item hitem
    have harray := (Json.distinct_object.mp hdistinct).2 _ hitems
    exact soundItem_of_accepted (Json.distinct_array.mp harray item hitem) hread haccepted

theorem violations_of_check (h : check value ⟨1, 0⟩ = .ok []) :
    violations (registrySchema.lookup (4 * (value.depth + 2))) registrySchema.root [] value = [] := by
  have hmessages : registrySchema.messages value = [] := Except.ok.inj h
  have hlength := congrArg List.length hmessages
  rw [Document.messages, report, List.length_mergeSort, List.length_map] at hlength
  exact List.length_eq_zero_iff.mp hlength

/-- A value that is accepted is a registry whose files are in order. -/
theorem soundFiles_of_check (hdistinct : value.Distinct) (h : check value ⟨1, 0⟩ = .ok []) :
    ∃ root, ofJson value = .ok root ∧ root.tag = "registry" ∧
      ∀ file ∈ root.children, file.tag = "file" → SoundFile file := by
  have hroot := violations_of_check h
  obtain ⟨fuel, hfuel, hdepth⟩ : ∃ fuel, 4 * (value.depth + 2) = fuel + 3 ∧ value.depth ≤ fuel + 2 :=
    ⟨4 * value.depth + 5, by omega, by omega⟩
  rw [hfuel] at hroot
  have hbase : registrySchema.lookup (fuel + 3) "node" [] value = [] := by
    simp only [registrySchema, violations_keywords, List.forall_mem_cons, allOf_eq_nil] at hroot
    exact hroot.1.1
  obtain ⟨root, hread⟩ := exists_ofJson hdepth hbase
  obtain ⟨members, rfl, ⟨v, hv⟩, hfrom, hschemas⟩ := members_of_accepted hdistinct hread hroot
  simp only [List.forall_mem_cons, violations_keywords, properties_eq_nil] at hschemas
  obtain ⟨⟨⟨htag, -, hchildren, -⟩, -⟩, -⟩ := hschemas
  refine ⟨root, hread, ?_, ?_⟩
  · have hregistry := exactly_eq_nil.mp (htag v hv).1
    rw [hfrom.tag v hv] at hregistry
    exact Json.string.inj hregistry
  · intro file hfile hfileTag
    obtain ⟨items, hitems, item, hitem, hreadItem⟩ := hfrom.children file hfile
    obtain ⟨path, haccepted⟩ := exists_path_of_items (hchildren _ hitems).2.1 item hitem
    have harray := (Json.distinct_object.mp hdistinct).2 _ hitems
    exact soundFile_of_accepted (Json.distinct_array.mp harray item hitem) hreadItem hfileTag haccepted

/-- Names of members are distinct in every value that is read from text. Of such values the built-in schema
accepts only registries that can be read as elements, whose files have a name and a type, whose variables
have their names and a type, and whose definitions have a name. A compilation of such a registry, from
whatever state, never refuses an access, and it refuses a storage only where an array element asks for
it: that of a variable itself always exists. -/
theorem accepted_registry_sound :
    (∀ text value, Json.parse text = .ok value → value.Distinct) ∧
    ∀ value : Json, value.Distinct → check value ⟨1, 0⟩ = .ok [] →
      ∃ root, ofJson value = .ok root ∧ root.tag = "registry" ∧
        (∀ file ∈ root.children, file.tag = "file" → SoundFile file) ∧
        ∀ c c' name text element scope,
          (Compilation.compile root).outcome c =
            (.error (.invalidAttributeValue name text element scope), c') →
          name ≠ "access" ∧ (name = "allocatable" →
            ∃ file ∈ root.children, file.tag = "file" ∧ ∃ node ∈ FileUnit.variableChildren file,
              (Storage.parse? (node.get "allocatable")).isSome ∧
              ∃ child ∈ node.children, child.tag = "element" ∧ child.BadStorage name text ∧
                ∃ subscripts, element = node.get "local_name" ++ "(" ++ subscripts ++ ")") := by
  refine ⟨fun text value => Json.distinct_parse, fun value hdistinct hcheck => ?_⟩
  obtain ⟨root, hread, hregistry, hfiles⟩ := soundFiles_of_check hdistinct hcheck
  refine ⟨root, hread, hregistry, hfiles, fun c c' name text element scope hfault => ?_⟩
  have hraises := Compilation.raises_compile root c
  rw [hfault] at hraises
  obtain ⟨file, hfile, htag, hbad⟩ := hraises _ rfl
  rcases hbad with hmark | ⟨node, hnode, hbad⟩
  · rcases hmark with rfl | rfl <;> simp
  obtain ⟨hmem, hkind⟩ := List.mem_filter.mp hnode
  have hvariable : node.tag = "variable" ∨ node.tag = "array" := by simpa using hkind
  have hitem := (hfiles file hfile htag).items node hmem
  have hown : (Storage.parse? (node.get "allocatable")).isSome := by
    rw [Node.get]
    cases hget : node.get? "allocatable" with
    | none => decide
    | some own => exact hitem.storage hvariable own hget
  rcases hbad with ⟨-, hget, hnone⟩ | ⟨-, hget, hnone⟩ | ⟨child, hchild, helement, hbad, hnamed⟩
  · have hsome := hitem.access hvariable text hget
    simp [hnone] at hsome
  · have hsome := hitem.storage hvariable text hget
    simp [hnone] at hsome
  · refine ⟨?_, fun _ => ⟨file, hfile, htag, node, hnode, hown, child, hchild, helement, hbad, hnamed⟩⟩
    rw [hbad.1]
    decide

/-- A registry with an array element that asks for a storage that does not exist. -/
def heapRegistry : Node where
  tag := "registry"
  attributes := [("name", "sample"), ("version", "1.0")]
  children :=
    [{ tag := "file"
       attributes := [("name", "constituents"), ("type", "module")]
       children :=
        [{ tag := "variable"
           attributes := [("access", "protected"), ("local_name", "ixq"),
             ("standard_name", "index_of_water_vapor"), ("type", "integer")] },
         { tag := "array"
           attributes := [("allocatable", "pointer"), ("local_name", "q"),
             ("standard_name", "constituent_mixing_ratio"), ("type", "real")]
           children :=
            [{ tag := "dimensions", text := some "horizontal_dimension number_of_constituents" },
             { tag := "element"
               attributes := [("allocatable", "heap"), ("index_name", "index_of_water_vapor"),
                 ("index_pos", "number_of_constituents"), ("standard_name", "water_vapor")] }] }] }]

theorem heapRegistry_refused :
    heapRegistry.json.Distinct ∧ check heapRegistry.json ⟨1, 0⟩ = .ok [] ∧
      ofJson heapRegistry.json = .ok heapRegistry ∧
      (∀ file ∈ heapRegistry.children, SoundFile file) ∧
      ∃ element scope c', (Compilation.compile heapRegistry).outcome (.start "se" []) =
          (.error (.invalidAttributeValue "allocatable" "heap" element scope), c') ∧
        ∃ file ∈ heapRegistry.children, ∃ node ∈ FileUnit.variableChildren file,
          ∃ child ∈ node.children, child.tag = "element" ∧ child.BadStorage "allocatable" "heap" := by
  have hdistinct : heapRegistry.json.Distinct := by
    simp [heapRegistry, Node.json, Node.jsonItems, Json.Distinct, Json.DistinctItems,
      Json.DistinctMembers]
  have hmessages : registrySchema.messages heapRegistry.json = [] := by decide +kernel
  have hcheck : check heapRegistry.json ⟨1, 0⟩ = .ok [] := congrArg Except.ok hmessages
  have hread : ofJson heapRegistry.json = .ok heapRegistry := rfl
  have hfault : ((Compilation.compile heapRegistry).outcome (.start "se" [])).1 =
      .error (.invalidAttributeValue "allocatable" "heap"
        "q(:,index_of_water_vapor)" "constituents") := by decide +kernel
  obtain ⟨root, hroot, -, hfiles, hrefused⟩ := accepted_registry_sound.2 _ hdistinct hcheck
  cases hread.symm.trans hroot
  obtain ⟨-, hstorage⟩ := hrefused _ _ _ _ _ _ (Prod.ext hfault rfl)
  obtain ⟨file, hfile, -, node, hnode, -, child, hchild, helement, hbad, -⟩ := hstorage rfl
  exact ⟨hdistinct, hcheck, hread, fun file hfile => hfiles file hfile (by simp_all [heapRegistry]),
    _, _, _, Prod.ext hfault rfl, file, hfile, node, hnode, child, hchild, helement, hbad⟩

end Schema

end FieldRegistry
