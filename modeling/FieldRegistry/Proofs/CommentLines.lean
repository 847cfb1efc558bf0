import FieldRegistry.Proofs.WrittenFiles

/-!
# Comments in generated modules

Above its declaration, a variable is described in a comment that holds its local name and its long name.
A page cuts the texts of its lines at line feeds, after the mark of the comment was put in front of the
whole text. So all lines of a comment are marked if and only if each of its line feeds is followed by a
mark of its own.
-/

namespace FieldRegistry

namespace Text

/-- Every line feed in a text has a `!` after it. -/
def MarkedBreaks (text : String) : Prop :=
  ∀ before after, text.toList = before ++ '\n' :: after → after.head? = some '!'

variable {cs : List Char}

theorem head?_cutAll (cs : List Char) :
    (cutAll (· == '\n') cs).1.head? = some '!' ↔ cs.head? = some '!' := by
  cases cs with
  | nil => rfl
  | cons c cs =>
      by_cases hc : c = '\n'
      · simp [cutAll, hc]
      · simp [cutAll, hc]

/-- The pieces after the first one start where the line feeds end. -/
theorem forall_cutAll_iff : (∀ piece ∈ (cutAll (· == '\n') cs).2, piece.head? = some '!') ↔
    ∀ before after, cs = before ++ '\n' :: after → after.head? = some '!' := by
  induction cs with
  | nil => simp [cutAll]
  | cons c cs ih =>
      have hshift : (∀ before after, c :: cs = before ++ '\n' :: after → after.head? = some '!') ↔
          (c = '\n' → cs.head? = some '!') ∧
            ∀ before after, cs = before ++ '\n' :: after → after.head? = some '!' := by
        constructor
        · intro h
          exact ⟨fun hc => h [] cs (by rw [hc]; rfl),
            fun before after hsplit => h (c :: before) after (by rw [hsplit]; rfl)⟩
        · rintro ⟨hfirst, hrest⟩ before after hsplit
          cases before with
          | nil =>
              obtain ⟨hc, rfl⟩ := List.cons.inj hsplit
              exact hfirst hc
          | cons b before => exact hrest before after (List.cons.inj hsplit).2
      rw [hshift, ← ih, cutAll]
      by_cases hc : c = '\n'
      · simp [hc, head?_cutAll]
      · simp [hc]

instance (text : String) : Decidable (MarkedBreaks text) := decidable_of_iff _ forall_cutAll_iff

theorem splitAll_feeds {texts : List String} (h : ∀ text ∈ texts, OneLine text) :
    splitAll '\n' (String.join (texts.map (· ++ "\n"))) = texts ++ [""] := by
  induction texts with
  | nil => rfl
  | cons text texts ih =>
      obtain ⟨hfirst, hrest⟩ := List.forall_mem_cons.mp h
      have hpiece : ∀ c ∈ text.toList, (c == '\n') = false :=
        fun c hc => beq_false_of_ne (ne_of_mem_of_not_mem hc hfirst)
      have hlist : (String.join ((text :: texts).map (· ++ "\n"))).toList =
          text.toList ++ '\n' :: (String.join (texts.map (· ++ "\n"))).toList := by
        simp
      rw [splitAll, hlist, pieces_append_sep (by decide), pieces_of_forall hpiece, List.map_append,
        List.map_singleton, String.ofList_toList]
      exact congrArg (text :: ·) (ih hrest)

end Text

namespace Layout

/-! ## Lines of text -/

/-- The lines of text that a line of a page becomes. -/
def Line.shown (line : Line) (indent : Nat) : List String :=
  (Text.splitAll '\n' line.text).map fun piece =>
    if piece.isEmpty then "" else indentation line.depth indent ++ piece

theorem Line.render_eq (line : Line) (indent : Nat) :
    line.render indent = String.join ((line.shown indent).map (· ++ "\n")) := by
  have hpiece : ∀ piece : String,
      (if piece.isEmpty then "\n" else indentation line.depth indent ++ piece ++ "\n") =
        (if piece.isEmpty then "" else indentation line.depth indent ++ piece) ++ "\n" := by
    intro piece
    split
    · rfl
    · rfl
  simp only [Line.render, Line.shown, List.map_map, Function.comp_def, hpiece]

theorem oneLine_indentation {depth indent : Nat} : Text.OneLine (indentation depth indent) := by
  simp [Text.OneLine, indentation, Text.repeated]

theorem Line.oneLine_of_mem_shown {line : Line} {indent : Nat} {text : String}
    (h : text ∈ line.shown indent) : Text.OneLine text := by
  obtain ⟨piece, hpiece, rfl⟩ := List.mem_map.mp h
  obtain ⟨cs, hcs, rfl⟩ := List.mem_map.mp hpiece
  split
  · decide
  · refine Text.oneLine_append.mpr ⟨oneLine_indentation, ?_⟩
    intro hmem
    rw [String.toList_ofList] at hmem
    simpa using Text.isSep_of_mem_pieces hcs _ hmem

/-- The lines of the text of a page are those that its lines become, one after the other. -/
theorem splitAll_render (lines : List Line) (indent : Nat) :
    Text.splitAll '\n' (render lines indent) = lines.flatMap (·.shown indent) ++ [""] := by
  have htext : render lines indent =
      String.join ((lines.flatMap (·.shown indent)).map (· ++ "\n")) := by
    rw [← String.toList_inj]
    simp [render, Line.render_eq, String.toList_join, List.flatMap_def, List.map_flatten,
      List.flatten_flatten, Function.comp_def]
  rw [htext]
  refine Text.splitAll_feeds fun text ht => ?_
  obtain ⟨line, -, ht⟩ := List.mem_flatMap.mp ht
  exact Line.oneLine_of_mem_shown ht

/-- Indentation, and then text that starts with `!`. -/
def IsComment (depth indent : Nat) (text : String) : Prop :=
  (indentation depth indent ++ "!").toList <+: text.toList

instance (depth indent : Nat) (text : String) : Decidable (IsComment depth indent text) :=
  inferInstanceAs (Decidable ((indentation depth indent ++ "!").toList <+: text.toList))

theorem isComment_iff {depth indent : Nat} {piece : String} :
    IsComment depth indent (if piece.isEmpty then "" else indentation depth indent ++ piece) ↔
      piece.toList.head? = some '!' := by
  have hmark : "!".toList = ['!'] := by decide
  split
  · rename_i hempty
    simp [IsComment, hmark, String.isEmpty_iff.mp hempty]
  · rw [IsComment, String.toList_append, String.toList_append, hmark, List.prefix_append_right_inj]
    cases piece.toList with
    | nil => simp
    | cons c cs => simp [eq_comm]

end Layout

namespace SourceModule

open Layout (DeclarationBlock IsComment Line indentation)

/-! ## Comments of variables -/

/-- The lines of text for the comment of a variable. -/
def commentLines (depth indent : Nat) (v : Variable) : List String :=
  (Line.mk depth ("! " ++ commentOf v)).shown indent

theorem splitAll_comment (text : String) : Text.splitAll '\n' ("! " ++ text) =
    (Text.pieces (· == '\n') ('!' :: ' ' :: text.toList)).map String.ofList := by
  rw [Text.splitAll, String.toList_append]
  rfl

theorem forall_commentLines_iff {depth indent : Nat} {v : Variable} :
    (∀ line ∈ commentLines depth indent v, IsComment depth indent line) ↔
      Text.MarkedBreaks (commentOf v) := by
  have hpieces : Text.pieces (· == '\n') ('!' :: ' ' :: (commentOf v).toList) =
      ('!' :: ' ' :: (Text.cutAll (· == '\n') (commentOf v).toList).1) ::
        (Text.cutAll (· == '\n') (commentOf v).toList).2 := rfl
  simp only [commentLines, Line.shown, List.forall_mem_map, Layout.isComment_iff, splitAll_comment,
    String.toList_ofList, hpieces, List.forall_mem_cons, Text.forall_cutAll_iff, List.head?_cons,
    true_and]
  rfl

theorem commentLines_of_oneLine {depth indent : Nat} {v : Variable}
    (h : Text.OneLine (commentOf v)) :
    commentLines depth indent v = [indentation depth indent ++ "! " ++ commentOf v] := by
  have hline : Text.OneLine ("! " ++ commentOf v) := Text.oneLine_append.mpr ⟨by decide, h⟩
  rw [commentLines, Line.shown, Text.splitAll_of_notMem hline, List.map_singleton, if_neg,
    String.append_assoc]
  intro hempty
  have hlength := congrArg String.length (String.isEmpty_iff.mp hempty)
  simp at hlength

/-! ## Blocks of declarations -/

/-- Variables that a module declares together at one nesting level. -/
structure Block where
  depth : Nat
  declared : List Variable
  layout : DeclarationBlock

/-- Each variable has the lines of its comment and then those of its declaration. -/
def Block.lines (block : Block) (indent : Nat) : List String :=
  block.declared.flatMap fun v => commentLines block.depth indent v ++
    (Line.mk block.depth (block.layout.declarationLine block.layout.columns
      (declarationOf v))).shown indent

/-- The blocks of a module: one for each type that the file defines, and one for its own variables. -/
def blocks (unit : FileUnit) (own : List Aggregate) : List Block :=
  own.map (fun a => ⟨2, a.members, memberBlock a⟩) ++
    [⟨1, unit.dictionary.declared, variableBlock unit⟩]

variable {unit : FileUnit} {catalog : Catalog} {style : Style} {own : List Aggregate} {block : Block}

theorem Block.lines_eq (h : block ∈ blocks unit own) (indent : Nat) :
    (block.layout.lines block.depth).flatMap (·.shown indent) = block.lines indent := by
  have hdeclarations : block.layout.declarations = block.declared.map declarationOf := by
    rcases List.mem_append.mp h with h | h
    · obtain ⟨a, -, rfl⟩ := List.mem_map.mp h
      rfl
    · rw [List.mem_singleton.mp h]
      rfl
  rw [DeclarationBlock.lines, hdeclarations, List.flatMap_map, List.flatMap_assoc, Block.lines]
  simp [declarationOf, commentLines]

theorem typeDefinition_block {a : Aggregate} {definition : List Line}
    (h : typeDefinition style a = .ok definition) : (memberBlock a).lines 2 <:+: definition := by
  obtain ⟨-, -, h⟩ := bind_eq_ok h
  cases h
  iterate 2 refine List.infix_append_of_infix_left ?_
  exact List.infix_append_of_infix_right List.infix_rfl

/-- Every block of a module stands on its page. -/
theorem exists_blocks {routine : AllocationRoutine} {page : List Line}
    (h : (lines unit catalog style routine).outcome = .ok page) :
    ∃ own, unit.aggregates catalog = .ok own ∧
      ∀ block ∈ blocks unit own, block.layout.lines block.depth <:+: page := by
  simp only [lines, Checked.outcome_bind, Checked.outcome_ofExcept] at h
  obtain ⟨imports, -, h⟩ := bind_eq_ok h
  obtain ⟨own, hown, h⟩ := bind_eq_ok h
  obtain ⟨definitions, hdefinitions, h⟩ := bind_eq_ok h
  obtain ⟨table, -, h⟩ := bind_eq_ok h
  cases h
  refine ⟨own, hown, List.forall_mem_append.mpr ⟨List.forall_mem_map.mpr fun a ha => ?_, ?_⟩⟩
  · obtain ⟨definition, hdefinition, hblock⟩ :=
      exists_left_of_forall₂ (forall₂_of_mapM_eq_ok hdefinitions).flip ha
    have hall := (typeDefinition_block hblock).trans (List.infix_of_mem_flatten hdefinition)
    iterate 6 refine List.infix_append_of_infix_left ?_
    exact List.infix_append_of_infix_right hall
  · refine List.forall_mem_singleton.mpr ?_
    iterate 3 refine List.infix_append_of_infix_left ?_
    exact List.infix_append_of_infix_right List.infix_rfl

theorem exists_blocks_of_text {ranking : Ranking} {source : String}
    (h : ((text unit catalog style).outcome ranking).1 = .ok source) :
    ∃ own, unit.aggregates catalog = .ok own ∧
      ∀ block ∈ blocks unit own, block.lines style.indentSize <:+: Text.splitAll '\n' source := by
  rw [Compilation.outcome_text] at h
  obtain ⟨leaves, -, h⟩ := bind_eq_ok h
  obtain ⟨page, hpage, h⟩ := bind_eq_ok h
  cases h
  obtain ⟨own, hown, hblocks⟩ := exists_blocks hpage
  refine ⟨own, hown, fun block hblock => ?_⟩
  rw [Layout.splitAll_render, ← Block.lines_eq hblock]
  exact List.infix_append_of_infix_left ((hblocks block hblock).flatMap _)

end SourceModule

namespace Generation

open SourceModule (Block blocks commentLines commentOf)

/-- A registry that generates compiles, and the blocks of each file stand in its source text. -/
theorem exists_blocks_of_outputs {run : Generation} {root : Node} {outputs : List Output}
    (h : (run.outputs root).outcome = .ok outputs) :
    ∃ (compiled : Compilation) (rendered : List RenderedUnit),
      (Compilation.compile root).outcome run.fresh = (.ok (), compiled) ∧
      rendered.map (·.unit) = compiled.units ∧ rendered.flatMap (·.outputs) = outputs ∧
      ∀ r ∈ rendered, ∃ own, r.unit.aggregates compiled.context.catalog = .ok own ∧
        ∀ block ∈ blocks r.unit own,
          block.lines run.style.indentSize <:+: Text.splitAll '\n' r.source := by
  obtain ⟨compiled, rendered, hcompile, -, hunits, hall, hgenerated⟩ := exists_rendered_of_outputs h
  refine ⟨compiled, rendered, hcompile, hunits, hall, fun r hr => ?_⟩
  obtain ⟨ranking, hsource⟩ := (hgenerated r hr).source
  exact SourceModule.exists_blocks_of_text hsource

/-- For every registry that compiles and generates, the source text of each file has the blocks of
declarations of the file, and there all lines for the comment of a variable are comments if and only if
every line feed in the comment has a `!` after it. A comment without line feeds is one line. -/
theorem comment_lines_marked_iff {run : Generation} {root : Node} {outputs : List Output}
    (houtputs : (run.outputs root).outcome = .ok outputs) :
    ∃ (compiled : Compilation) (rendered : List RenderedUnit),
      (Compilation.compile root).outcome run.fresh = (.ok (), compiled) ∧
      rendered.map (·.unit) = compiled.units ∧ rendered.flatMap (·.outputs) = outputs ∧
      ∀ r ∈ rendered, ∃ own, r.unit.aggregates compiled.context.catalog = .ok own ∧
        ∀ block ∈ blocks r.unit own,
          block.lines run.style.indentSize <:+: Text.splitAll '\n' r.source ∧
          ∀ v ∈ block.declared,
            ((∀ line ∈ commentLines block.depth run.style.indentSize v,
              Layout.IsComment block.depth run.style.indentSize line) ↔
              Text.MarkedBreaks (commentOf v)) ∧
            (Text.OneLine (commentOf v) → commentLines block.depth run.style.indentSize v =
              [Layout.indentation block.depth run.style.indentSize ++ "! " ++ commentOf v]) := by
  obtain ⟨compiled, rendered, hcompile, hunits, hall, hblocks⟩ := exists_blocks_of_outputs houtputs
  refine ⟨compiled, rendered, hcompile, hunits, hall, fun r hr => ?_⟩
  obtain ⟨own, hown, hblocks⟩ := hblocks r hr
  refine ⟨own, hown, fun block hblock => ⟨hblocks block hblock, fun v _ => ?_⟩⟩
  exact ⟨SourceModule.forall_commentLines_iff, SourceModule.commentLines_of_oneLine⟩

/-! ## Long names with line feeds -/

/-- Two pressures with one long name, of which one becomes a member of a type. -/
def pressureRegistry (longName : String) : Node where
  tag := "registry"
  children :=
    [{ tag := "file"
       attributes := [("name", "physics_types"), ("type", "module")]
       children :=
         [{ tag := "variable"
            attributes := [("local_name", "ps"), ("standard_name", "surface_air_pressure"),
              ("type", "real")]
            children := [{ tag := "long_name", text := some longName }] },
          { tag := "variable"
            attributes := [("local_name", "pmid"), ("standard_name", "air_pressure"),
              ("type", "real")]
            children := [{ tag := "long_name", text := some longName }] },
          { tag := "ddt"
            attributes := [("type", "pressures")]
            children := [{ tag := "data", text := some "air_pressure" }] }] }]

def pressureRun : Generation where
  dycore := "se"
  settings := ""
  outputDirectory := "out"
  validator := constantSchemas

/-- The second line of a long name becomes a statement of the module. -/
theorem pressureRegistry_unmarked : ∃ outputs compiled unit v source,
    (pressureRun.outputs (pressureRegistry "Pressure\nstop")).outcome = .ok outputs ∧
      (Compilation.compile (pressureRegistry "Pressure\nstop")).outcome pressureRun.fresh =
        (.ok (), compiled) ∧
      unit ∈ compiled.units ∧ v ∈ unit.dictionary.declared ∧
      commentLines 1 3 v = ["   ! ps: Pressure", "   stop"] ∧
      ¬ Layout.IsComment 1 3 "   stop" ∧
      ⟨unit.name ++ ".F90", source⟩ ∈ outputs ∧ "   stop" ∈ Text.splitAll '\n' source := by
  have hrun : (pressureRun.outputs (pressureRegistry "Pressure\nstop")).outcome.toOption.any
      (fun _ => true) = true := by decide +kernel
  have hstop : ((Compilation.compile (pressureRegistry "Pressure\nstop")).outcome
      pressureRun.fresh).2.units.any (fun unit => unit.dictionary.declared.any fun v =>
        commentLines 1 3 v == ["   ! ps: Pressure", "   stop"]) = true := by decide +kernel
  obtain ⟨outputs, houtputs, -⟩ := eq_ok_of_any hrun
  obtain ⟨compiled, rendered, hcompile, hunits, hall, hblocks⟩ := exists_blocks_of_outputs houtputs
  rw [hcompile, ← hunits] at hstop
  obtain ⟨unit, hunit, hstop⟩ := List.any_eq_true.mp hstop
  obtain ⟨r, hr, rfl⟩ := List.mem_map.mp hunit
  obtain ⟨v, hv, hlines⟩ := List.any_eq_true.mp hstop
  rw [beq_iff_eq] at hlines
  have hline : "   stop" ∈ commentLines 1 3 v := by rw [hlines]; simp
  obtain ⟨own, -, hblocks⟩ := hblocks r hr
  have hblock := hblocks ⟨1, r.unit.dictionary.declared, SourceModule.variableBlock r.unit⟩
    (List.mem_append_right _ List.mem_cons_self)
  refine ⟨outputs, compiled, r.unit, v, r.source, houtputs, hcompile, hunits ▸ hunit, hv, hlines,
    by decide, ?_, ?_⟩
  · rw [← hall]
    exact List.mem_flatMap.mpr ⟨r, hr, by simp [RenderedUnit.outputs]⟩
  · exact hblock.subset (List.mem_flatMap.mpr ⟨v, hv, List.mem_append_left _ hline⟩)

/-- Where the second line has a mark of its own, all lines of the comments are comments, in the type and
among the variables. -/
theorem pressureRegistry_marked : ∃ outputs compiled unit own,
    (pressureRun.outputs (pressureRegistry "Pressure\n! in Pa")).outcome = .ok outputs ∧
      (Compilation.compile (pressureRegistry "Pressure\n! in Pa")).outcome pressureRun.fresh =
        (.ok (), compiled) ∧
      unit ∈ compiled.units ∧ unit.aggregates compiled.context.catalog = .ok own ∧
      (blocks unit own).map (fun block => block.declared.map commentOf) =
        [["pmid: Pressure\n! in Pa"], ["ps: Pressure\n! in Pa"]] ∧
      ∀ block ∈ blocks unit own, ∀ v ∈ block.declared, ∀ line ∈ commentLines block.depth 3 v,
        Layout.IsComment block.depth 3 line := by
  have hrun : (pressureRun.outputs (pressureRegistry "Pressure\n! in Pa")).outcome.toOption.any
      (fun _ => true) = true := by decide +kernel
  have hfound : let compiled := ((Compilation.compile (pressureRegistry "Pressure\n! in Pa")).outcome
        pressureRun.fresh).2
      compiled.units.any (fun unit => (unit.aggregates compiled.context.catalog).toOption.any fun own =>
        (blocks unit own).map (fun block => block.declared.map commentOf) ==
          [["pmid: Pressure\n! in Pa"], ["ps: Pressure\n! in Pa"]]) = true := by decide +kernel
  have hmarked : ∀ text ∈ ["pmid: Pressure\n! in Pa", "ps: Pressure\n! in Pa"],
      Text.MarkedBreaks text := by decide +kernel
  obtain ⟨outputs, houtputs, -⟩ := eq_ok_of_any hrun
  obtain ⟨compiled, rendered, hcompile, hunits, -, hblocks⟩ := comment_lines_marked_iff houtputs
  simp only [hcompile] at hfound
  obtain ⟨unit, hunit, hfound⟩ := List.any_eq_true.mp hfound
  obtain ⟨own, hown, hcomments⟩ := eq_ok_of_any hfound
  rw [beq_iff_eq] at hcomments
  have hmem : unit ∈ rendered.map (·.unit) := hunits ▸ hunit
  obtain ⟨r, hr, rfl⟩ := List.mem_map.mp hmem
  obtain ⟨own', hown', hblocks⟩ := hblocks r hr
  rw [hown, Except.ok.injEq] at hown'
  subst hown'
  refine ⟨outputs, compiled, r.unit, own, houtputs, hcompile, hunit, hown, hcomments, ?_⟩
  intro block hblock v hv
  have htext : commentOf v ∈ ((blocks r.unit own).map fun block => block.declared.map commentOf).flatten :=
    List.mem_flatten.mpr ⟨_, List.mem_map_of_mem hblock, List.mem_map_of_mem hv⟩
  rw [hcomments] at htext
  exact (((hblocks block hblock).2 v hv).1).mpr (hmarked _ htext)

end Generation

end FieldRegistry
