/-!
Cutting text at separators and joining it again. A text with `n` separators has `n + 1` pieces, and
joining the pieces with the separator gives the text back.
-/

namespace FieldRegistry.Text

/-- The first piece of a text and the pieces after it. -/
def cutAll (isSep : Char → Bool) : List Char → List Char × List (List Char)
  | [] => ([], [])
  | c :: cs =>
    let (piece, rest) := cutAll isSep cs
    if isSep c then ([], piece :: rest) else (c :: piece, rest)

/-- The pieces between separators, empty ones included. -/
def pieces (isSep : Char → Bool) (s : List Char) : List (List Char) :=
  (cutAll isSep s).1 :: (cutAll isSep s).2

/-- Splits a text at every occurrence of `sep`. -/
def splitAll (sep : Char) (s : String) : List String :=
  (pieces (· == sep) s.toList).map String.ofList

/-- Splits a text at the first occurrence of `sep`, if there is one. -/
def splitFirst (sep : Char) (s : String) : Option (String × String) :=
  match s.toList.dropWhile (· != sep) with
  | [] => none
  | _ :: rest => some (String.ofList (s.toList.takeWhile (· != sep)), String.ofList rest)

/-- Joins texts with a separator between them. -/
def join (sep : String) : List String → String
  | [] => ""
  | [s] => s
  | s :: t :: rest => s ++ sep ++ join sep (t :: rest)

@[simp] theorem join_nil (sep : String) : join sep [] = "" := rfl

@[simp] theorem join_singleton (sep s : String) : join sep [s] = s := rfl

@[simp] theorem join_cons_cons (sep s t : String) (rest : List String) :
    join sep (s :: t :: rest) = s ++ sep ++ join sep (t :: rest) := rfl

@[simp] theorem pieces_nil (isSep : Char → Bool) : pieces isSep [] = [[]] := rfl

theorem pieces_cons_sep {isSep : Char → Bool} {c : Char} (h : isSep c = true) (cs : List Char) :
    pieces isSep (c :: cs) = [] :: pieces isSep cs := by
  simp [pieces, cutAll, h]

theorem pieces_cons_other {isSep : Char → Bool} {c : Char} (h : isSep c = false) (cs : List Char) :
    pieces isSep (c :: cs) = (c :: (cutAll isSep cs).1) :: (cutAll isSep cs).2 := by
  simp [pieces, cutAll, h]

/-- A character repeated `n` times. -/
def repeated (n : Nat) (c : Char) : String := String.ofList (List.replicate n c)

@[simp] theorem length_repeated (n : Nat) (c : Char) : (repeated n c).length = n := by
  simp [repeated]

end FieldRegistry.Text
