import FieldRegistry.Document.NodeReader
import FieldRegistry.Proofs.Outcome
import Mathlib.Data.String.Basic

/-!
# Elements as JSON values

An element is written as the object of its members, without those that are empty, or as the array of all
its parts; each of its children may have either form. Reading gives the element back from whatever form
it has, so different elements have no form in common.
-/

namespace FieldRegistry.Node

variable {node : Node} {items : List Json} {shown : List (String × Json)}

/-- The attributes of an element as a value. -/
def attributeObject (node : Node) : Json :=
  .object (node.attributes.map fun a => (a.1, .string a.2))

/-- The members in the object of an element whose children have the values `items`. -/
inductive Shows (node : Node) (items : List Json) : String × Json → Prop
  | tag : Shows node items ("tag", .string node.tag)
  | attributes : node.attributes ≠ [] → Shows node items ("attributes", node.attributeObject)
  | text {s : String} : node.text = some s → Shows node items ("text", .string s)
  | children : items ≠ [] → Shows node items ("children", .array items)

mutual

/-- A value that an element is written as: an object of its members in the order of their names, or an
array of tag, attributes, text and children. -/
inductive Written : Node → Json → Prop
  | object {node : Node} {items : List Json} {members : List (String × Json)} :
      WrittenAll node.children items → (members.Pairwise fun a b => a.1 < b.1) →
      (∀ member, member ∈ members ↔ node.Shows items member) → Written node (.object members)
  | array {node : Node} {items : List Json} : WrittenAll node.children items →
      Written node (.array [.string node.tag, node.attributeObject,
        node.text.elim .null .string, .array items])

/-- The values of some elements, each in its own form. -/
inductive WrittenAll : List Node → List Json → Prop
  | nil : WrittenAll [] []
  | cons {node : Node} {nodes : List Node} {value : Json} {items : List Json} :
      Written node value → WrittenAll nodes items → WrittenAll (node :: nodes) (value :: items)

end

/-! ## The members of the object -/

/-- The members of the object, as a list. -/
def members (node : Node) (items : List Json) : List (String × Json) :=
  (if node.attributes.isEmpty then [] else [("attributes", node.attributeObject)]) ++
    (if items.isEmpty then [] else [("children", .array items)]) ++
    [("tag", .string node.tag)] ++ (node.text.elim [] fun s => [("text", .string s)])

theorem mem_members {member : String × Json} :
    member ∈ node.members items ↔ node.Shows items member := by
  constructor
  · intro h
    simp only [members, List.mem_append, List.mem_singleton] at h
    rcases h with ((h | h) | rfl) | h
    · split at h
      · cases h
      · rename_i hne
        cases List.mem_singleton.mp h
        exact .attributes (by simpa using hne)
    · split at h
      · cases h
      · rename_i hne
        cases List.mem_singleton.mp h
        exact .children (by simpa using hne)
    · exact .tag
    · cases htext : node.text with
      | none => simp [htext] at h
      | some s =>
          rw [htext, Option.elim_some] at h
          cases List.mem_singleton.mp h
          exact .text htext
  · rintro (_ | hne | htext | hne)
    · simp [members]
    · simp [members, hne]
    · simp [members, htext]
    · simp [members, hne]

theorem sorted_members (node : Node) (items : List Json) :
    (node.members items).Pairwise fun a b => a.1 < b.1 := by
  have hall : (["attributes"] ++ ["children"] ++ ["tag"] ++ ["text"]).Pairwise (· < ·) := by decide
  have hsub : List.Sublist ((node.members items).map (·.1))
      (["attributes"] ++ ["children"] ++ ["tag"] ++ ["text"]) := by
    simp only [members, List.map_append]
    refine ((List.Sublist.append ?_ ?_).append ?_).append ?_
    · split <;> simp
    · split <;> simp
    · simp
    · cases node.text <;> simp
  exact List.pairwise_map.mp (hall.sublist hsub)

/-- The rule for the members leaves one list only. -/
theorem eq_members_of_shows (hsorted : shown.Pairwise fun a b => a.1 < b.1)
    (hshows : ∀ member, member ∈ shown ↔ node.Shows items member) : shown = node.members items := by
  refine List.Perm.eq_of_pairwise (fun a b _ _ hab hba => absurd hab hba.asymm) hsorted
    (sorted_members node items) ?_
  have hnodup : ∀ {l : List (String × Json)}, (l.Pairwise fun a b => a.1 < b.1) → l.Nodup :=
    fun h => h.imp fun hlt heq => absurd (heq ▸ hlt) (lt_irrefl _)
  rw [List.perm_ext_iff_of_nodup (hnodup hsorted) (hnodup (sorted_members node items))]
  exact fun member => (hshows member).trans mem_members.symm

/-! ## Reading the forms -/

theorem asAttributes_attributeObject (node : Node) :
    asAttributes node.attributeObject = .ok node.attributes := by
  have hall : ∀ attributes : List (String × String),
      (attributes.map fun a => (a.1, Json.string a.2)).mapM
        (fun a : String × Json => (asString a.2).map (a.1, ·)) = .ok attributes := by
    intro attributes
    induction attributes with
    | nil => rfl
    | cons a rest ih =>
        rw [List.map_cons, List.mapM_cons, ih]
        rfl
  exact hall node.attributes

theorem asText_textValue (text : Option String) : asText (text.elim .null .string) = .ok text := by
  cases text <;> rfl

theorem readMembers_append (front back : List (String × Json)) (draft : Draft) :
    readMembers (front ++ back) draft = (readMembers front draft).bind (readMembers back) := by
  induction front generalizing draft with
  | nil => rfl
  | cons member front ih =>
      obtain ⟨name, value⟩ := member
      simp only [List.cons_append, readMembers, ih]
      split
      · cases asString value <;> rfl
      split
      · cases asAttributes value <;> rfl
      split
      · cases asText value <;> rfl
      split
      · cases readChildren value <;> rfl
      · rfl

/-- A member that is left out is what a draft has without it. -/
theorem readMembers_members (h : readItems items = .ok node.children) :
    readMembers (node.members items) {} =
      .ok ⟨some node.tag, node.attributes, node.text, node.children⟩ := by
  have hattributes : readMembers
      (if node.attributes.isEmpty then [] else [("attributes", node.attributeObject)]) {} =
      .ok { attributes := node.attributes } := by
    split
    · rename_i hnone
      rw [List.isEmpty_iff.mp hnone]
      rfl
    · simp [readMembers, asAttributes_attributeObject, Except.bind]
  have hchildren : readMembers (if items.isEmpty then [] else [("children", .array items)])
      { attributes := node.attributes } =
      .ok { attributes := node.attributes, children := node.children } := by
    split
    · rename_i hnone
      rw [List.isEmpty_iff.mp hnone] at h
      rw [← Except.ok.inj h]
      rfl
    · simp [readMembers, readChildren, h, Except.bind]
  have htag : ∀ draft, readMembers [("tag", .string node.tag)] draft =
      .ok { draft with tag := some node.tag } := fun _ => rfl
  have htext : readMembers (node.text.elim [] fun s => [("text", .string s)])
      { tag := some node.tag, attributes := node.attributes, children := node.children } =
      .ok ⟨some node.tag, node.attributes, node.text, node.children⟩ := by
    cases node.text <;> rfl
  simp only [members, readMembers_append, hattributes, hchildren, htag, htext, Except.bind]

mutual

theorem Written.ofJson_eq {node : Node} {value : Json} (h : Written node value) :
    ofJson value = .ok node := by
  match h with
  | .object hitems hsorted hshows =>
      rw [eq_members_of_shows hsorted hshows, ofJson, readMembers_members hitems.readItems_eq]
      cases node
      rfl
  | .array hitems =>
      simp only [ofJson, readSlots, asString, asAttributes_attributeObject, asText_textValue,
        readChildren, hitems.readItems_eq, Except.bind]
      cases node
      rfl

theorem WrittenAll.readItems_eq {nodes : List Node} {items : List Json} (h : WrittenAll nodes items) :
    readItems items = .ok nodes := by
  match h with
  | .nil => rfl
  | .cons hvalue hitems =>
      rw [readItems, hvalue.ofJson_eq, hitems.readItems_eq]
      rfl

end

/-! ## Writing -/

theorem jsonItems_eq_nil : ∀ {nodes : List Node}, jsonItems nodes = [] ↔ nodes = []
  | [] => by simp [jsonItems]
  | _ :: _ => by simp [jsonItems]

theorem json_eq (node : Node) : node.json = .object (node.members (jsonItems node.children)) := by
  obtain ⟨tag, attributes, text, children⟩ := node
  have hempty : (jsonItems children).isEmpty = children.isEmpty := by
    rw [Bool.eq_iff_iff, List.isEmpty_iff, List.isEmpty_iff, jsonItems_eq_nil]
  rw [json, members, hempty]
  rfl

mutual

/-- The object that an element is written as has one of its forms. -/
theorem written_json : ∀ node : Node, Written node node.json
  | ⟨tag, attributes, text, children⟩ => by
      rw [json_eq]
      exact .object (writtenAll_jsonItems children) (sorted_members _ _) fun _ => mem_members

theorem writtenAll_jsonItems : ∀ nodes : List Node, WrittenAll nodes (jsonItems nodes)
  | [] => .nil
  | node :: nodes => .cons (written_json node) (writtenAll_jsonItems nodes)

end

/-- Reading undoes writing: the object of an element follows the rule for its members, and from this form
as from any other, with children in either form down the whole tree, the same element is read. Hence
different elements never have the same object. -/
theorem reading_undoes_writing (node : Node) :
    Written node node.json ∧ ofJson node.json = .ok node ∧
      (∀ value, Written node value → ofJson value = .ok node) ∧
      ∀ other : Node, other.json = node.json → other = node := by
  have hread := (written_json node).ofJson_eq
  refine ⟨written_json node, hread, fun value h => h.ofJson_eq, fun other h => ?_⟩
  have hother := (written_json other).ofJson_eq
  rw [h, hread] at hother
  exact (Except.ok.inj hother).symm

/-- A file whose text is there but empty, with a child that has nothing but a tag and another one. -/
def mixedFile : Node where
  tag := "file"
  attributes := [("name", "fields"), ("type", "module")]
  text := some ""
  children :=
    [{ tag := "use" },
     { tag := "variable", attributes := [("local_name", "t")], text := some "air temperature" }]

/-- The file as an array, its children as an array and as an object. -/
def mixedForm : Json :=
  .array [.string "file", .object [("name", .string "fields"), ("type", .string "module")], .string "",
    .array [.array [.string "use", .object [], .null, .array []],
      .object [("attributes", .object [("local_name", .string "t")]), ("tag", .string "variable"),
        ("text", .string "air temperature")]]]

theorem mixedForm_read : Written mixedFile mixedForm ∧ ofJson mixedForm = .ok mixedFile := by
  have huse : Written { tag := "use" } (.array [.string "use", .object [], .null, .array []]) :=
    .array .nil
  have hvariable := written_json
    { tag := "variable", attributes := [("local_name", "t")], text := some "air temperature" }
  have hfile : Written mixedFile mixedForm := .array (.cons huse (.cons hvariable .nil))
  exact ⟨hfile, (reading_undoes_writing mixedFile).2.2.1 mixedForm hfile⟩

end FieldRegistry.Node
