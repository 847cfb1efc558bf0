import FieldRegistry.Layout.Align

/-!
Pages of generated text. A line knows how deep it is nested; the width of one level is chosen when
the page is rendered.
-/

namespace FieldRegistry.Layout

structure Line where
  depth : Nat
  text : String
deriving DecidableEq

def Line.blank : Line := ⟨0, ""⟩

/-- The lines that a text with line feeds stands for. Empty ones carry no indentation. -/
def Line.render (line : Line) (indent : Nat) : String :=
  String.join ((Text.splitAll '\n' line.text).map fun piece =>
    if piece.isEmpty then "\n" else indentation line.depth indent ++ piece ++ "\n")

/-- The text of a page. -/
def render (lines : List Line) (indent : Nat) : String :=
  String.join (lines.map fun line => line.render indent)

end FieldRegistry.Layout
