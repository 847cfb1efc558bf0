import FieldRegistry.Layout.Declaration
import Mathlib.Data.List.Forall2

/-!
# Aligned declarations

What a block writes before the `::` of its declarations is a table with four columns: the type and three
attributes. Attributes are measured without their commas, over those declarations only that have a
value, and the column of an attribute is left out where no value has a text. The lines are nevertheless
those of the plain table, where each column is as wide as its widest cell, so all rows have one length.
-/

namespace FieldRegistry.Layout

/-! ## Widths -/

section Widths

variable {cells : List String} {width : Nat}

theorem columnWidth_le_iff : columnWidth cells ≤ width ↔ ∀ cell ∈ cells, cell.length ≤ width := by
  induction cells with
  | nil => simp
  | cons cell cells ih => rw [columnWidth_cons, Nat.max_le, ih, List.forall_mem_cons]

theorem columnWidth_eq_zero_iff : columnWidth cells = 0 ↔ ∀ cell ∈ cells, cell = "" := by
  rw [← Nat.le_zero, columnWidth_le_iff]
  simp

theorem columnWidth_eq_of_mem {cell : String} (hmem : cell ∈ cells)
    (hmax : ∀ other ∈ cells, other.length ≤ cell.length) : columnWidth cells = cell.length :=
  Nat.le_antisymm (columnWidth_le_iff.mpr hmax) (length_le_columnWidth hmem)

end Widths

/-! ## Rows of a table -/

/-- A text is made of cells in their order, each of them whole and followed by spaces up to the width
of its column. -/
inductive Row : List Nat → List String → String → Prop
  | nil : Row [] [] ""
  | cons {widths : List Nat} {cells : List String} {rest : String} (cell : String) (gap : Nat)
      (h : Row widths cells rest) :
      Row ((cell.length + gap) :: widths) (cell :: cells) (cell ++ Text.repeated gap ' ' ++ rest)

theorem Row.length_eq {widths : List Nat} {cells : List String} {text : String}
    (h : Row widths cells text) : text.length = widths.foldr (· + ·) 0 := by
  induction h with
  | nil => rfl
  | cons cell gap _ ih =>
      rw [String.length_append, String.length_append, Text.length_repeated, ih, List.foldr_cons]

theorem Row.cons_padRight {widths : List Nat} {cells : List String} {cell rest : String} {width : Nat}
    (hfit : cell.length ≤ width) (h : Row widths cells rest) :
    Row (width :: widths) (cell :: cells) (padRight cell width ++ rest) := by
  have hrow := h.cons cell (width - cell.length)
  rwa [Nat.add_sub_cancel' hfit] at hrow

section Tables

variable {α : Type} {as : List α} {a : α}

/-- The row of `a` in a table over `as` in which each column is as wide as its widest cell. -/
def tableRow (columns : List (α → String)) (as : List α) (a : α) : String :=
  String.join (columns.map fun column => padRight (column a) (columnWidth (as.map column)))

theorem row_tableRow (columns : List (α → String)) (ha : a ∈ as) :
    Row (columns.map fun column => columnWidth (as.map column)) (columns.map fun column => column a)
      (tableRow columns as a) := by
  induction columns with
  | nil => exact .nil
  | cons column columns ih =>
      simp only [tableRow, List.map_cons, String.join_cons]
      exact ih.cons_padRight (length_le_columnWidth (List.mem_map_of_mem ha))

/-- A column without text takes no room. -/
theorem padRight_of_forall_empty {column : α → String} (h : ∀ a ∈ as, column a = "") (ha : a ∈ as) :
    padRight (column a) (columnWidth (as.map column)) = "" := by
  rw [columnWidth_eq_zero_iff.mpr (List.forall_mem_map.mpr h), h a ha]
  rfl

/-! ## Attributes -/

/-- An attribute after its comma. -/
def attributeText (value : Option String) : String := value.elim "" (", " ++ ·)

theorem length_attributeText_some (text : String) :
    (attributeText (some text)).length = text.length + 2 := by
  rw [attributeText, Option.elim_some, String.length_append, Nat.add_comm]
  rfl

variable {value : α → Option String}

/-- The attribute has a text for some element. -/
def Occurs (value : α → Option String) (as : List α) : Prop :=
  ∃ a ∈ as, ∃ text ∈ value a, text ≠ ""

instance (value : α → Option String) (as : List α) : Decidable (Occurs value as) :=
  inferInstanceAs (Decidable (∃ a ∈ as, ∃ text ∈ value a, text ≠ ""))

theorem not_occurs_iff : ¬ Occurs value as ↔ columnWidth (as.filterMap value) = 0 := by
  rw [columnWidth_eq_zero_iff]
  constructor
  · intro h text htext
    obtain ⟨a, ha, htext⟩ := List.mem_filterMap.mp htext
    by_contra hne
    exact h ⟨a, ha, text, htext, hne⟩
  · rintro h ⟨a, ha, text, htext, hne⟩
    exact hne (h text (List.mem_filterMap.mpr ⟨a, ha, htext⟩))

/-- The commas make the column of an attribute wider by two. -/
theorem columnWidth_attributeText (h : Occurs value as) :
    columnWidth (as.map fun a => attributeText (value a)) = columnWidth (as.filterMap value) + 2 := by
  have hcell : ∀ a ∈ as, ∀ text, value a = some text →
      text.length + 2 ≤ columnWidth (as.map fun a => attributeText (value a)) := by
    intro a ha text htext
    rw [← length_attributeText_some, ← htext]
    exact length_le_columnWidth (List.mem_map_of_mem ha)
  refine Nat.le_antisymm (columnWidth_le_iff.mpr (List.forall_mem_map.mpr fun a ha => ?_)) ?_
  · cases htext : value a with
    | none => exact Nat.zero_le _
    | some text =>
        rw [length_attributeText_some]
        exact Nat.add_le_add_right (length_le_columnWidth (List.mem_filterMap.mpr ⟨a, ha, htext⟩)) 2
  · -- the difference below does not stop at zero, since some cell has a comma
    obtain ⟨a, ha, text, htext, -⟩ := h
    have hroom := hcell a ha text htext
    have hvalues : columnWidth (as.filterMap value) ≤
        columnWidth (as.map fun a => attributeText (value a)) - 2 := by
      refine columnWidth_le_iff.mpr fun text htext => ?_
      obtain ⟨a, ha, htext⟩ := List.mem_filterMap.mp htext
      exact Nat.le_sub_of_add_le (hcell a ha text htext)
    omega

/-- The cells of an attribute in a plain table. One that does not occur is not written. -/
def attributeColumn (value : α → Option String) (as : List α) (a : α) : String :=
  if Occurs value as then attributeText (value a) else ""

theorem columnCell_eq (value : α → Option String) (ha : a ∈ as) :
    DeclarationBlock.columnCell (value a) (columnWidth (as.filterMap value)) =
      padRight (attributeColumn value as a) (columnWidth (as.map (attributeColumn value as))) := by
  by_cases hoccurs : Occurs value as
  · have hcolumn : attributeColumn value as = fun a => attributeText (value a) :=
      funext fun a => if_pos hoccurs
    have hwidth : ¬ (columnWidth (as.filterMap value) == 0) = true := by
      simpa using fun h => not_occurs_iff.mpr h hoccurs
    rw [hcolumn, columnWidth_attributeText hoccurs, DeclarationBlock.columnCell, if_neg hwidth]
    rfl
  · have hempty : ∀ a ∈ as, attributeColumn value as a = "" := fun a _ => if_neg hoccurs
    rw [not_occurs_iff.mp hoccurs, padRight_of_forall_empty hempty ha]
    rfl

end Tables

namespace DeclarationBlock

/-! ## Blocks -/

/-- `, access` where the access is not the default, in a block where such an access has a text. -/
def accessText (block : DeclarationBlock) (d : Declaration) : String :=
  if d.access ≠ block.defaultAccess ∧
      ∃ e ∈ block.declarations, e.access ≠ block.defaultAccess ∧ e.access ≠ "" then
    ", " ++ d.access
  else ""

/-- `, storage` where there is one, in a block where some storage has a text. -/
def storageText (block : DeclarationBlock) (d : Declaration) : String :=
  if ∃ e ∈ block.declarations, ∃ text ∈ e.storage, text ≠ "" then attributeText d.storage else ""

/-- `, protected` where the block allows it. -/
def protectedText (block : DeclarationBlock) (d : Declaration) : String :=
  if d.isProtected ∧ block.allowProtected then ", protected" else ""

variable {block : DeclarationBlock} {d : Declaration}

theorem accessText_eq (block : DeclarationBlock) :
    block.accessText = attributeColumn block.shownAccess block.declarations := by
  have hoccurs : Occurs block.shownAccess block.declarations ↔
      ∃ e ∈ block.declarations, e.access ≠ block.defaultAccess ∧ e.access ≠ "" := by
    simp [Occurs, shownAccess]
  funext d
  simp only [accessText, attributeColumn, hoccurs]
  by_cases hdefault : d.access = block.defaultAccess
  · simp [hdefault, shownAccess, attributeText]
  · simp [hdefault, shownAccess, attributeText]

theorem protected_cell_eq (h : d ∈ block.declarations) :
    (if block.columns.isProtected then
      attributeCell (if d.isProtected then some "protected" else none) "protected".length
    else "") =
      padRight (block.protectedText d) (columnWidth (block.declarations.map block.protectedText)) := by
  by_cases hcolumn : block.columns.isProtected = true
  · obtain ⟨hallow, hany⟩ := Bool.and_eq_true_iff.mp hcolumn
    obtain ⟨e, he, hprotected⟩ := List.any_eq_true.mp hany
    have htext : ∀ d : Declaration, block.protectedText d =
        attributeText (if d.isProtected then some "protected" else none) := by
      intro d
      rw [protectedText, hallow]
      cases d.isProtected <;> rfl
    have hwidth : columnWidth (block.declarations.map block.protectedText) = ", protected".length := by
      refine columnWidth_eq_of_mem (List.mem_map.mpr ⟨e, he, if_pos ⟨hprotected, hallow⟩⟩) ?_
      refine List.forall_mem_map.mpr fun d _ => ?_
      rw [protectedText]
      split
      · exact Nat.le_refl _
      · exact Nat.zero_le _
    rw [if_pos hcolumn, hwidth, htext]
    rfl
  · have hempty : ∀ d ∈ block.declarations, block.protectedText d = "" := by
      intro d hd
      refine if_neg fun hprotected => hcolumn ?_
      exact Bool.and_eq_true_iff.mpr ⟨hprotected.2, List.any_eq_true.mpr ⟨d, hd, hprotected.1⟩⟩
    rw [if_neg hcolumn, padRight_of_forall_empty hempty h]

/-- The columns of the table, from left to right. -/
def textColumns (block : DeclarationBlock) : List (Declaration → String) :=
  [(·.typeSpec), block.accessText, block.storageText, block.protectedText]

/-- What stands before the `::` is the row of the declaration in the table. -/
theorem lead_eq_tableRow (h : d ∈ block.declarations) :
    block.lead block.columns d = tableRow block.textColumns block.declarations d := by
  have haccess : columnCell (block.shownAccess d) block.columns.access =
      padRight (block.accessText d) (columnWidth (block.declarations.map block.accessText)) := by
    rw [accessText_eq]
    exact columnCell_eq block.shownAccess h
  have hstorage : columnCell d.storage block.columns.storage =
      padRight (block.storageText d) (columnWidth (block.declarations.map block.storageText)) :=
    columnCell_eq (·.storage) h
  rw [lead, haccess, hstorage, protected_cell_eq h]
  simp [tableRow, textColumns, columns, String.append_assoc]

/-- In every block, each declaration has a line that consists of a text before the `::` and of what is
declared. The texts before the `::` have one length. Each is a row of the type and of the attributes
that are written, whole and in this order, with spaces only after them, and the columns of all rows
have the same widths. -/
theorem declaration_lines_aligned (block : DeclarationBlock) :
    ∃ (widths : List Nat) (width : Nat), List.Forall₂ (fun d line => ∃ lead : String,
        line = lead ++ " :: " ++ entity d ∧ lead.length = width ∧
        Row widths [d.typeSpec, block.accessText d, block.storageText d, block.protectedText d] lead)
      block.declarations block.declarationLines := by
  have hrows : ∀ d ∈ block.declarations,
      Row (block.textColumns.map fun column => columnWidth (block.declarations.map column))
        (block.textColumns.map fun column => column d) (block.lead block.columns d) := by
    intro d hd
    rw [lead_eq_tableRow hd]
    exact row_tableRow block.textColumns hd
  exact ⟨_, _, List.forall₂_map_right_iff.mpr (List.forall₂_same.mpr fun d hd =>
    ⟨block.lead block.columns d, rfl, (hrows d hd).length_eq, hrows d hd⟩)⟩

-- where a declaration does not write an attribute, its column is a gap
example : declarationLines
    { defaultAccess := "private"
      allowProtected := true
      declarations :=
        [{ typeSpec := "real(kind_phys)", access := "public", storage := some "allocatable",
           name := "u", shape := "(:, :)" },
         { typeSpec := "integer", access := "public", isProtected := true, name := "ncol" },
         { typeSpec := "type(physics_state)", storage := some "pointer", name := "phys_state",
           initializer := some (.pointer "NULL()") }] } =
    ["real(kind_phys)    , public, allocatable            :: u(:, :)",
     "integer            , public             , protected :: ncol",
     "type(physics_state)        , pointer                :: phys_state => NULL()"] := by
  decide +kernel

end DeclarationBlock

end FieldRegistry.Layout
