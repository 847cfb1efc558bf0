import FieldRegistry.Proofs.Lockstep
import FieldRegistry.Proofs.Runs
import Mathlib.Data.List.DropRight

/-!
# What source texts depend on

A source text shows dimensions and the names that lead to array elements in one spelling only. Variables
that differ in how their dimensions or the names of their elements are written are alike, and alike
variables, types and files have the same source text.
-/

namespace FieldRegistry

/-! ## Tokens -/

namespace Text

theorem length_pieces (isSep : Char → Bool) (s : List Char) :
    (pieces isSep s).length = s.countP isSep + 1 := by
  induction s with
  | nil => rfl
  | cons c cs ih =>
      cases h : isSep c with
      | true => rw [pieces_cons_sep h, List.length_cons, ih, List.countP_cons_of_pos h]
      | false =>
          rw [pieces_cons_other h, List.countP_cons_of_neg (by simp [h]), ← ih]
          rfl

theorem trim_trim (s : String) : trim (trim s) = trim s := by
  have hhead : (dropTailWhile isBlank (s.toList.dropWhile isBlank)).dropWhile isBlank =
      dropTailWhile isBlank (s.toList.dropWhile isBlank) := by
    rw [List.dropWhile_eq_self_iff]
    intro hpos
    have hprefix : dropTailWhile isBlank (s.toList.dropWhile isBlank) <+:
        s.toList.dropWhile isBlank := List.rdropWhile_prefix ..
    have hfirst := List.dropWhile_get_zero_not isBlank s.toList (hpos.trans_le hprefix.length_le)
    rw [List.get_eq_getElem, ← hprefix.getElem hpos] at hfirst
    exact hfirst
  rw [trim, trim, String.toList_ofList, hhead]
  exact congrArg String.ofList (List.rdropWhile_idempotent ..)

end Text

namespace Dimension

/-- The names in a token in lower case. -/
def spelling (token : String) : List String := (components token).map Text.lower

theorem constant?_of_mem {token name : String} (h : name ∈ components token) :
    constant? name = constants.lookup (Text.lower name) := by
  obtain ⟨piece, -, rfl⟩ := List.mem_map.mp h
  rw [constant?, Text.trim_trim]

theorem named_eq (token : String) :
    named token = (spelling token).filter fun name => (constants.lookup name).isNone := by
  rw [named, spelling, List.filter_map]
  refine congrArg (List.map Text.lower) (List.filter_congr fun name hname => ?_)
  rw [constant?_of_mem hname, Function.comp_apply]

/-- A name in lower case as an extent. -/
def nameExtent (name : String) : String :=
  match constants.lookup name with
  | some n => Text.decimal n
  | none => name

theorem extent_eq (token : String) : extent token = Text.join ":" ((spelling token).map nameExtent) := by
  rw [extent, spelling, List.map_map]
  refine congrArg (Text.join ":") (List.map_congr_left fun name hname => ?_)
  rw [componentExtent, constant?_of_mem hname, Function.comp_apply]
  unfold nameExtent
  cases constants.lookup (Text.lower name) <;> rfl

theorem hasStep_eq (token : String) : hasStep token = decide (2 < (spelling token).length) := by
  rw [spelling, components, List.length_map, List.length_map, Text.splitAll, List.length_map,
    Text.length_pieces, hasStep]
  exact decide_eq_decide.mpr (Nat.succ_lt_succ_iff).symm

end Dimension

/-! ## Variables -/

/-- An element without the text that leads to it. -/
def Element.outline (e : Element) : Element := { e with localName := "" }

/-- Two variables that differ at most in how dimensions are written and in the names of their elements. -/
structure Variable.Alike (v v' : Variable) : Prop where
  rest : { v with dimensions := [], elements := [] } = { v' with dimensions := [], elements := [] }
  dimensions : v.dimensions.map Dimension.spelling = v'.dimensions.map Dimension.spelling
  elements : v.elements.map Element.outline = v'.elements.map Element.outline

namespace Variable.Alike

variable {v v' : Variable}

theorem refl (v : Variable) : Alike v v := ⟨rfl, rfl, rfl⟩

/-- What looks at neither dimensions nor elements is the same. -/
theorem congr {γ : Type} (h : Alike v v') (f : Variable → γ)
    (hf : ∀ w : Variable, f { w with dimensions := [], elements := [] } = f w) : f v = f v' := by
  rw [← hf v, h.rest, hf v']

theorem localName (h : Alike v v') : v.localName = v'.localName :=
  h.congr (·.localName) fun _ => rfl

theorem standardName (h : Alike v v') : v.standardName = v'.standardName :=
  h.congr (·.standardName) fun _ => rfl

theorem type (h : Alike v v') : v.type = v'.type := h.congr (·.type) fun _ => rfl

theorem storage (h : Alike v v') : v.storage = v'.storage := h.congr (·.storage) fun _ => rfl

theorem isEmpty_dimensions (h : Alike v v') : v.dimensions.isEmpty = v'.dimensions.isEmpty := by
  have hlength := congrArg List.length h.dimensions
  rw [List.length_map, List.length_map] at hlength
  cases hv : v.dimensions <;> cases hv' : v'.dimensions <;> simp_all

theorem dimensionNames (h : Alike v v') :
    Dictionary.dimensionNames v = Dictionary.dimensionNames v' := by
  have hnames (w : Variable) : Dictionary.dimensionNames w =
      (w.dimensions.map Dimension.spelling).flatMap fun names =>
        names.filter fun name => (Dimension.constants.lookup name).isNone := by
    rw [Dictionary.dimensionNames, List.flatMap_map]
    exact List.flatMap_congr fun token _ => Dimension.named_eq token
  rw [hnames, hnames, h.dimensions]

theorem extentsText (h : Alike v v') :
    Leaf.extentsText v.dimensions = Leaf.extentsText v'.dimensions := by
  have hextents (w : Variable) : w.dimensions.map Dimension.extent =
      (w.dimensions.map Dimension.spelling).map fun names =>
        Text.join ":" (names.map Dimension.nameExtent) := by
    rw [List.map_map]
    refine List.map_congr_left fun token _ => ?_
    rw [Function.comp_apply, Dimension.extent_eq]
  rw [Leaf.extentsText, Leaf.extentsText, hextents, hextents, h.dimensions, h.isEmpty_dimensions]

theorem steps (h : Alike v v') (path : String) : (Leaf.mk path v).steps = (Leaf.mk path v').steps := by
  have hallocations : (Leaf.mk path v).allocations = (Leaf.mk path v').allocations := by
    unfold Leaf.allocations
    dsimp only
    rw [h.storage, h.localName, h.extentsText]
  have helements (w : Variable) :
      (w.elements.filter (·.declaresInitialValue)).flatMap (fun e =>
          Leaf.initialization path e.target e.runtimeInitialValue?) =
        ((w.elements.map Element.outline).filter (·.declaresInitialValue)).flatMap fun e =>
          Leaf.initialization path e.target e.runtimeInitialValue? := by
    rw [List.filter_map, List.flatMap_map]
    rfl
  have hvalue : v.runtimeInitialValue? = v'.runtimeInitialValue? :=
    h.congr (·.runtimeInitialValue?) fun _ => rfl
  rw [Leaf.steps, Leaf.steps, hallocations, Leaf.initializations, Leaf.initializations]
  dsimp only
  rw [helements, helements, h.elements, h.storage, hvalue, target, target, h.localName]

/-- Names in files are listed alike. -/
theorem entriesOf {vs vs' : List Variable} (h : List.Forall₂ Alike vs vs') :
    NameTable.entriesOf
        (vs.map (·.toQuantity) ++ vs.flatMap fun v => v.elements.map (·.toQuantity)) =
      NameTable.entriesOf
        (vs'.map (·.toQuantity) ++ vs'.flatMap fun v => v.elements.map (·.toQuantity)) := by
  refine congrArg (Layout.firstByKey _ []) ?_
  rw [List.filterMap_append, List.filterMap_append, List.filterMap_map, List.filterMap_map,
    List.filterMap_flatMap, List.filterMap_flatMap]
  refine congrArg₂ _ (filterMap_eq_of_forall₂ h fun v v' hv => ?_)
    (flatMap_eq_of_forall₂ h fun v v' hv => ?_)
  · exact hv.congr (fun w => NameTable.entryOf? w.toQuantity) fun _ => rfl
  · have houtline (es : List Element) : (es.map (·.toQuantity)).filterMap NameTable.entryOf? =
        (es.map Element.outline).filterMap fun e => NameTable.entryOf? e.toQuantity := by
      rw [List.filterMap_map, List.filterMap_map]
      rfl
    rw [houtline, houtline, hv.elements]

end Variable.Alike

/-! ## Types -/

structure Aggregate.Alike (a a' : Aggregate) : Prop where
  rest : { a with members := [] } = { a' with members := [] }
  members : List.Forall₂ Variable.Alike a.members a'.members

theorem Aggregate.Alike.refl (a : Aggregate) : a.Alike a :=
  ⟨rfl, List.forall₂_same.mpr fun v _ => .refl v⟩

structure TypeEntry.Alike (entry entry' : TypeEntry) : Prop where
  name : entry.name = entry'.name
  scope : entry.scope = entry'.scope
  aggregate : Option.Rel Aggregate.Alike entry.aggregate entry'.aggregate

theorem TypeEntry.Alike.refl (entry : TypeEntry) : entry.Alike entry := by
  refine ⟨rfl, rfl, ?_⟩
  cases entry.aggregate with
  | none => exact .none
  | some a => exact .some (.refl a)

def Catalog.Alike (catalog catalog' : Catalog) : Prop :=
  List.Forall₂ TypeEntry.Alike catalog.entries catalog'.entries

namespace Catalog.Alike

variable {catalog catalog' : Catalog} {name name' : String}

theorem refl (catalog : Catalog) : catalog.Alike catalog :=
  List.forall₂_same.mpr fun entry _ => .refl entry

theorem lookup? (h : catalog.Alike catalog') (hname : Text.lower name = Text.lower name') :
    Option.Rel TypeEntry.Alike (catalog.lookup? name) (catalog'.lookup? name') := by
  refine rel_find? h fun entry entry' hentry => ?_
  rw [Text.sameLetters, Text.sameLetters, hentry.name, hname]

theorem aggregate? (h : catalog.Alike catalog') (hname : Text.lower name = Text.lower name') :
    Option.Rel Aggregate.Alike (catalog.aggregate? name) (catalog'.aggregate? name') :=
  rel_bind (h.lookup? hname) fun _ _ hentry => hentry.aggregate

theorem flattenWithin (h : catalog.Alike catalog') (fuel : Nat) {a a' : Aggregate}
    (ha : a.Alike a') :
    List.Forall₂ Variable.Alike (catalog.flattenWithin fuel a) (catalog'.flattenWithin fuel a') := by
  induction fuel generalizing a a' with
  | zero => exact ha.members
  | succ fuel ih =>
      rw [Catalog.flattenWithin, Catalog.flattenWithin]
      refine List.rel_append ha.members ?_
      have hparents : Option.Rel Aggregate.Alike (a.parent.bind catalog.aggregate?)
          (a'.parent.bind catalog'.aggregate?) := by
        rw [show a.parent = a'.parent from congrArg (·.parent) ha.rest]
        cases a'.parent with
        | none => exact .none
        | some parent => exact h.aggregate? rfl
      rcases rel_cases hparents with ⟨hx, hx'⟩ | ⟨b, b', hx, hx', hb⟩
      · rw [hx, hx']
        exact .nil
      · rw [hx, hx']
        exact ih hb

theorem flatten (h : catalog.Alike catalog') {a a' : Aggregate} (ha : a.Alike a') :
    List.Forall₂ Variable.Alike (catalog.flatten a) (catalog'.flatten a') := by
  rw [Catalog.flatten, Catalog.flatten, List.Forall₂.length_eq h]
  exact h.flattenWithin _ ha

/-- Stored variables are found alike, and their steps are the same. -/
theorem leavesWithin (h : catalog.Alike catalog') (scope : String) (fuel : Nat) (path : String)
    {v v' : Variable} (hv : v.Alike v') :
    Matched (List.Forall₂ fun leaf leaf' => leaf.steps = leaf'.steps)
      (catalog.leavesWithin scope fuel path v) (catalog'.leavesWithin scope fuel path v') := by
  induction fuel generalizing path v v' with
  | zero =>
      rw [Catalog.leavesWithin, Catalog.leavesWithin, hv.type, hv.isEmpty_dimensions]
      cases v'.type.isAggregate with
      | false => exact .ok (.cons (hv.steps path) .nil)
      | true => cases !v'.dimensions.isEmpty <;> exact .error rfl
  | succ fuel ih =>
      rw [Catalog.leavesWithin, Catalog.leavesWithin, hv.type, hv.isEmpty_dimensions]
      cases v'.type.isAggregate with
      | false => exact .ok (.cons (hv.steps path) .nil)
      | true =>
          cases !v'.dimensions.isEmpty with
          | true => exact .error rfl
          | false =>
              simp only [Bool.false_eq_true, if_false, if_true, hv.localName]
              rcases rel_cases (h.aggregate? (rfl : Text.lower v'.type.name = _)) with
                ⟨hx, hx'⟩ | ⟨a, a', hx, hx', ha⟩
              · rw [hx, hx']
                exact .error rfl
              · rw [hx, hx']
                exact (matched_mapM (h.flatten ha) fun w w' hw => ih _ hw).map fun _ _ hleaves =>
                  List.rel_flatten hleaves

end Catalog.Alike

/-! ## Files -/

structure Dictionary.Alike (d d' : Dictionary) : Prop where
  rest : { d with byLocalName := .empty } = { d' with byLocalName := .empty }
  entries : List.Forall₂ (fun entry entry' => entry.1 = entry'.1 ∧ entry.2.Alike entry'.2)
    d.byLocalName.entries d'.byLocalName.entries

theorem Dictionary.Alike.declared {d d' : Dictionary} (h : d.Alike d') :
    List.Forall₂ Variable.Alike d.declared d'.declared :=
  List.rel_map (fun _ _ he => he.2) h.entries

structure FileUnit.Alike (unit unit' : FileUnit) : Prop where
  rest : { unit with dictionary := .empty "" "" } = { unit' with dictionary := .empty "" "" }
  dictionary : unit.dictionary.Alike unit'.dictionary

theorem FileUnit.Alike.refl (unit : FileUnit) : unit.Alike unit :=
  ⟨rfl, rfl, List.forall₂_same.mpr fun entry _ => ⟨rfl, .refl entry.2⟩⟩

/-! ## Types in a source text -/

namespace Aggregate.Alike

variable {a a' : Aggregate}

theorem typeDefinition (h : a.Alike a') (style : Style) :
    Matched Eq (SourceModule.typeDefinition style a) (SourceModule.typeDefinition style a') := by
  obtain ⟨name, scope, members, parent, isPrivate, isBindC⟩ := a
  obtain ⟨name', scope', members', parent', isPrivate', isBindC'⟩ := a'
  obtain ⟨hrest, hmembers⟩ := h
  cases hrest
  dsimp only at hmembers
  have hdeclarations : members.map SourceModule.declarationOf =
      members'.map SourceModule.declarationOf :=
    map_eq_of_forall₂ hmembers fun v v' hv => hv.congr SourceModule.declarationOf fun _ => rfl
  unfold SourceModule.typeDefinition Aggregate.checkMembers SourceModule.memberBlock
  dsimp only
  rw [hdeclarations]
  cases hmembers with
  | nil => exact .error rfl
  | cons => exact .ok rfl

end Aggregate.Alike

namespace FileUnit.Alike

variable {unit unit' : FileUnit} {catalog catalog' : Catalog}

theorem name (h : unit.Alike unit') : unit.name = unit'.name := congrArg (·.name) h.rest

theorem aggregates (h : unit.Alike unit') (hc : catalog.Alike catalog') :
    Matched (List.Forall₂ Aggregate.Alike) (unit.aggregates catalog) (unit'.aggregates catalog') := by
  have hnames : unit.aggregateNames = unit'.aggregateNames := congrArg (·.aggregateNames) h.rest
  rw [FileUnit.aggregates, FileUnit.aggregates, hnames]
  refine matched_mapM (List.forall₂_same.mpr fun _ _ => rfl) ?_
  rintro name _ rfl
  rcases rel_cases (hc.aggregate? (rfl : Text.lower name = _)) with ⟨hx, hx'⟩ | ⟨a, a', hx, hx', ha⟩
  · rw [hx, hx']
    exact .error rfl
  · rw [hx, hx']
    exact .ok ha

/-- Metadata exist for both files or for none. -/
theorem metadata (h : unit.Alike unit') (hc : catalog.Alike catalog') :
    Matched (fun _ _ => True) (Metadata.text unit catalog) (Metadata.text unit' catalog') := by
  refine Matched.map (R := fun _ _ => True) ?_ fun _ _ _ => trivial
  exact (h.aggregates hc).bind fun _ _ _ _ _ => .ok trivial

theorem leaves (h : unit.Alike unit') (hc : catalog.Alike catalog') :
    Matched (List.Forall₂ fun leaf leaf' => leaf.steps = leaf'.steps)
      (AllocationRoutine.leaves unit catalog) (AllocationRoutine.leaves unit' catalog') := by
  unfold AllocationRoutine.leaves Catalog.leaves
  rw [h.name, List.Forall₂.length_eq hc]
  exact (matched_mapM h.dictionary.declared fun v v' hv => hc.leavesWithin _ _ _ hv).map
    fun _ _ hleaves => List.rel_flatten hleaves

theorem imports (h : unit.Alike unit') (hc : catalog.Alike catalog') :
    Matched Eq (unit.imports catalog) (unit'.imports catalog') := by
  have huses : unit.uses = unit'.uses := congrArg (·.uses) h.rest
  have himport (v v' : Variable) (hv : v.Alike v') : unit.importOf? v = unit'.importOf? v' := by
    rw [importOf?, importOf?, hv.type, h.name]
  refine (h.aggregates hc).bind fun as as' _ _ has => .ok ?_
  have hmembers : List.Forall₂ Variable.Alike (as.flatMap catalog.flatten)
      (as'.flatMap catalog'.flatten) := List.rel_flatMap has fun _ _ ha => hc.flatten ha
  rw [filterMap_eq_of_forall₂ h.dictionary.declared himport, filterMap_eq_of_forall₂ hmembers himport,
    huses]

theorem nameTable (h : unit.Alike unit') (hc : catalog.Alike catalog') :
    Matched Eq (NameTable.build unit catalog).outcome (NameTable.build unit' catalog').outcome := by
  unfold NameTable.build
  rw [Checked.outcome_bind, Checked.outcome_bind, Checked.outcome_ofExcept, Checked.outcome_ofExcept]
  refine (h.aggregates hc).bind fun as as' _ _ has => ?_
  have hcandidates : List.Forall₂ Variable.Alike (as.flatMap catalog.flatten ++ unit.dictionary.declared)
      (as'.flatMap catalog'.flatten ++ unit'.dictionary.declared) :=
    List.rel_append (List.rel_flatMap has fun _ _ ha => hc.flatten ha) h.dictionary.declared
  have hentries : NameTable.entriesOf (NameTable.candidates unit catalog as) =
      NameTable.entriesOf (NameTable.candidates unit' catalog' as') :=
    Variable.Alike.entriesOf hcandidates
  rw [hentries, h.name]
  exact matched_self _

theorem lines (h : unit.Alike unit') (hc : catalog.Alike catalog') (style : Style)
    (routine : AllocationRoutine) :
    Matched Eq (SourceModule.lines unit catalog style routine).outcome
      (SourceModule.lines unit' catalog' style routine).outcome := by
  have hdeclarations : unit.dictionary.declared.map SourceModule.declarationOf =
      unit'.dictionary.declared.map SourceModule.declarationOf :=
    map_eq_of_forall₂ h.dictionary.declared fun v v' hv =>
      hv.congr SourceModule.declarationOf fun _ => rfl
  have hname : unit.dictionary.name = unit'.dictionary.name := congrArg (·.name) h.dictionary.rest
  unfold SourceModule.lines SourceModule.variableBlock
  simp only [Checked.outcome_bind, Checked.outcome_ofExcept]
  rw [h.name, hname, hdeclarations]
  refine (h.imports hc).bind fun imports _ _ _ himports => ?_
  refine (h.aggregates hc).bind fun as as' _ _ has => ?_
  refine (matched_mapM has fun a a' ha => ha.typeDefinition style).bind fun ds ds' _ _ hds => ?_
  refine (h.nameTable hc).bind fun table _ _ _ htable => ?_
  rw [List.forall₂_eq_eq_eq] at hds
  subst himports hds htable
  exact .ok rfl

/-- The source texts are the same. -/
theorem source (h : unit.Alike unit') (hc : catalog.Alike catalog') (style : Style)
    (dimensions : List String) :
    Matched Eq (Compilation.source style catalog unit dimensions)
      (Compilation.source style catalog' unit' dimensions) := by
  unfold Compilation.source
  refine (h.leaves hc).bind fun leaves leaves' _ _ hleaves => ?_
  rw [h.name, flatMap_eq_of_forall₂ hleaves fun _ _ hsteps => hsteps]
  refine (h.lines hc style _).bind fun lines _ _ _ hlines => ?_
  subst hlines
  exact .ok rfl

end FileUnit.Alike

/-! ## Compilations -/

structure Compilation.Alike (c c' : Compilation) : Prop where
  catalog : c.context.catalog.Alike c'.context.catalog
  ranking : c.context.ranking = c'.context.ranking
  dycore : c.context.dycore = c'.context.dycore
  settings : c.context.settings = c'.context.settings
  units : List.Forall₂ FileUnit.Alike c.units c'.units

/-- Two files of one name, with the same contents unless they are metadata. -/
structure Output.Alike (output output' : Output) : Prop where
  fileName : output.fileName = output'.fileName
  contents : ∀ name, output.fileName = name ++ ".F90" → output.contents = output'.contents

theorem Output.Alike.metadata (name text text' : String) :
    Alike ⟨name ++ ".meta", text⟩ ⟨name ++ ".meta", text'⟩ := by
  refine ⟨rfl, fun other hother => ?_⟩
  have hlast := congrArg (fun s : String => s.toList.getLast?) hother
  simp [String.toList_append] at hlast

namespace Compilation.Alike

theorem refl (c : Compilation) : c.Alike c :=
  ⟨.refl _, rfl, rfl, rfl, List.forall₂_same.mpr fun unit _ => .refl unit⟩

theorem generateUnit {unit unit' : FileUnit} (h : unit.Alike unit') (style : Style) :
    Action.Matched (List.Forall₂ Output.Alike) Alike (generateUnit style unit)
      (generateUnit style unit') := by
  have hdimensions : unit.dictionary.knownDimensions = unit'.dictionary.knownDimensions :=
    congrArg (·.knownDimensions) h.dictionary.rest
  refine Action.matched_get.bind fun c c' hc => ?_
  refine (Action.matched_lift (h.metadata hc.catalog)).bind fun metadata metadata' _ => ?_
  refine Action.Matched.bind (R := Eq) ?_ fun text _ htext => ?_
  · intro d d' hd
    rw [onRanking, onRanking, Action.outcome_focus, Action.outcome_focus, outcome_text, outcome_text,
      hdimensions, hd.ranking]
    exact ⟨h.source hc.catalog style _, hd.catalog, rfl, hd.dycore, hd.settings, hd.units⟩
  · subst htext
    rw [h.name]
    exact Action.matched_pure
      (.cons (.metadata ..) (.cons ⟨rfl, fun _ _ => rfl⟩ .nil))

/-- From alike compilations the generated source texts are the same. -/
theorem generate (style : Style) :
    Action.Matched (List.Forall₂ Output.Alike) Alike (generate style) (generate style) := by
  refine Action.matched_get.bind fun c c' hc => ?_
  refine (Action.matched_mapM hc.units fun unit unit' h => generateUnit h style).bind
    fun outputs outputs' houtputs => ?_
  exact Action.matched_pure (List.rel_flatten houtputs)

end Compilation.Alike

end FieldRegistry
