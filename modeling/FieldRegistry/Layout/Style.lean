import FieldRegistry.Json.Writer

/-!
How generated source is laid out.
-/

namespace FieldRegistry

structure Style where
  /-- Spaces for one level of nesting. -/
  indentSize : Nat := 3
  /-- Imports are sorted. -/
  sortImports : Bool := true
  /-- A blank line stands between type definitions. -/
  separateBlocks : Bool := true
deriving DecidableEq

def Style.json (style : Style) : Json :=
  .object [("indent_size", .number (.natural style.indentSize)),
    ("sort_imports", .bool style.sortImports), ("separate_blocks", .bool style.separateBlocks)]

end FieldRegistry
