import FieldRegistry.Text.Pieces

/-!
Columns of text. Widths count characters.
-/

namespace FieldRegistry.Layout

/-- Fills a text with spaces up to `width` characters. -/
def padRight (text : String) (width : Nat) : String :=
  text ++ Text.repeated (width - text.length) ' '

/-- The width of the widest cell. -/
def columnWidth (cells : List String) : Nat :=
  cells.foldr (fun cell width => max cell.length width) 0

/-- The spaces in front of a line at nesting level `depth`. -/
def indentation (depth size : Nat) : String := Text.repeated (depth * size) ' '

@[simp] theorem columnWidth_nil : columnWidth [] = 0 := rfl

@[simp] theorem columnWidth_cons (cell : String) (cells : List String) :
    columnWidth (cell :: cells) = max cell.length (columnWidth cells) := rfl

theorem length_le_columnWidth {cell : String} {cells : List String} (h : cell ∈ cells) :
    cell.length ≤ columnWidth cells := by
  induction cells with
  | nil => simp at h
  | cons head tail ih =>
    rw [columnWidth_cons]
    rcases List.mem_cons.1 h with rfl | h
    · exact Nat.le_max_left ..
    · exact Nat.le_trans (ih h) (Nat.le_max_right ..)

theorem length_padRight (text : String) (width : Nat) :
    (padRight text width).length = max text.length width := by
  simp only [padRight, String.length_append, Text.length_repeated]
  omega

theorem length_padRight_of_le {text : String} {width : Nat} (h : text.length ≤ width) :
    (padRight text width).length = width := by
  rw [length_padRight, Nat.max_eq_right h]

end FieldRegistry.Layout
