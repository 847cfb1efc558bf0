import FieldRegistry.NameTable
import FieldRegistry.Proofs.ReaderSteps
import FieldRegistry.Proofs.Separators
import FieldRegistry.Proofs.TypeGraph
import FieldRegistry.Proofs.VariableHistory
import Mathlib.Data.List.TakeWhile
import Mathlib.Data.String.Basic

/-!
# Name tables

A standard name has at most one entry in the name table of a file, whatever the letter case: that of the
first candidate with names in files. The cells of a table have fixed widths, which are taken in bytes and
filled in characters. As no text has fewer bytes than characters, everything fits, and the entry can be
read back from its cells.
-/

namespace FieldRegistry

/-! ## First occurrences -/

section FirstByKey

variable {α κ : Type} [BEq κ] [LawfulBEq κ] {key : α → κ}

theorem Layout.notMem_of_mem_firstByKey {a : α} {seen : List κ} {as : List α}
    (h : a ∈ firstByKey key seen as) : key a ∉ seen := by
  induction as generalizing seen with
  | nil => cases h
  | cons b rest ih =>
      rw [firstByKey] at h
      split at h
      · exact ih h
      · rename_i hnew
        rcases List.mem_cons.mp h with rfl | h
        · simpa using hnew
        · exact List.not_mem_of_not_mem_cons (ih h)

theorem Layout.nodup_firstByKey (key : α → κ) (seen : List κ) (as : List α) :
    ((firstByKey key seen as).map key).Nodup := by
  induction as generalizing seen with
  | nil => exact List.nodup_nil
  | cons b rest ih =>
      rw [firstByKey]
      split
      · exact ih seen
      · refine List.nodup_cons.mpr ⟨fun hmem => ?_, ih (key b :: seen)⟩
        obtain ⟨a, ha, hkey⟩ := List.mem_map.mp hmem
        exact notMem_of_mem_firstByKey ha (hkey ▸ List.mem_cons_self)

/-- Place by place, an element stays if its key is new. -/
theorem Layout.firstByKey_filterMap {γ : Type} (f : γ → Option α) (key : α → κ) (seen : List κ)
    (cs : List γ) :
    firstByKey key seen (cs.filterMap f) = (List.range cs.length).filterMap fun i =>
      (cs[i]?.bind f).filter fun a =>
        !(seen.contains (key a) || ((cs.take i).filterMap f).any fun b => key b == key a) := by
  induction cs generalizing seen with
  | nil => rfl
  | cons c cs ih =>
      rw [List.length_cons, List.range_succ_eq_map, List.filterMap_cons, List.filterMap_cons,
        List.filterMap_map]
      simp only [Function.comp_def, Nat.succ_eq_add_one, List.getElem?_cons_zero,
        List.getElem?_cons_succ, List.take_zero, List.take_succ_cons, Option.bind_some,
        List.filterMap_nil, List.filterMap_cons, List.any_nil, Bool.or_false]
      cases f c with
      | none => exact ih seen
      | some b =>
          simp only [firstByKey, Option.filter_some, List.any_cons]
          -- a new key joins `seen`, and a key that is there already hides nothing more
          cases hseen : seen.contains (key b) with
          | true =>
              have hkeep : ∀ a, (seen.contains (key a) || key b == key a) = seen.contains (key a) := by
                grind
              simp only [← Bool.or_assoc, hkeep, ih seen]
              rfl
          | false =>
              have hkeep : ∀ a, (seen.contains (key a) || key b == key a) =
                  (key b :: seen).contains (key a) := by
                grind
              simp only [← Bool.or_assoc, hkeep, ih (key b :: seen)]
              rfl

end FirstByKey

namespace NameTable

/-- What the candidate at place `i` contributes: its entry, unless an earlier candidate has an entry for
the standard name in any letter case. -/
def contribution? (candidates : List Quantity) (i : Nat) : Option NameEntry :=
  (candidates[i]?.bind entryOf?).filter fun entry =>
    !((candidates.take i).filterMap entryOf?).any fun earlier =>
      Text.sameLetters earlier.standardName entry.standardName

theorem entriesOf_eq (candidates : List Quantity) :
    entriesOf candidates = (List.range candidates.length).filterMap (contribution? candidates) := by
  rw [entriesOf, Layout.firstByKey_filterMap]
  simp only [List.contains_nil, Bool.false_or]
  rfl

theorem nodup_entriesOf (candidates : List Quantity) :
    ((entriesOf candidates).map fun entry => Text.lower entry.standardName).Nodup := by
  rw [entriesOf]
  exact Layout.nodup_firstByKey _ _ _

end NameTable

/-! ## Cells of fixed width -/

theorem Text.length_le_utf8ByteSize (s : String) : s.length ≤ s.utf8ByteSize := by
  rw [← String.ofList_toList (s := s), String.utf8ByteSize_ofList, String.length_ofList]
  induction s.toList with
  | nil => exact Nat.le_refl 0
  | cons c cs ih =>
      have hc := c.utf8Size_pos
      rw [List.length_cons, String.utf8Len_cons]
      omega

theorem le_foldr_max {n : Nat} {ns : List Nat} (h : n ∈ ns) : n ≤ ns.foldr max 0 := by
  induction ns with
  | nil => cases h
  | cons m ms ih =>
      rw [List.foldr_cons]
      rcases List.mem_cons.mp h with rfl | h
      · exact Nat.le_max_left ..
      · exact Nat.le_trans (ih h) (Nat.le_max_right ..)

theorem Text.dropTailWhile_spaces {text : List Char} (h : ' ' ∉ text) (n : Nat) :
    dropTailWhile (· == ' ') (text ++ List.replicate n ' ') = text := by
  have hspaces : ∀ c ∈ List.replicate n ' ', (c == ' ') = true := by simp
  have htext : text.reverse.dropWhile (· == ' ') = text.reverse := by
    rw [List.dropWhile_eq_self_iff]
    intro hpos hspace
    exact h (List.mem_reverse.mp (beq_iff_eq.mp hspace ▸ List.getElem_mem hpos))
  rw [dropTailWhile, List.reverse_append, List.reverse_replicate,
    List.dropWhile_append_of_pos hspaces, htext, List.reverse_reverse]

/-- Cells of one width start at multiples of that width and of the separator. -/
theorem Text.exists_drop_join {width : Nat} {cells : List String}
    (h : ∀ cell ∈ cells, cell.length = width) {j : Nat} {cell : String} (hj : cells[j]? = some cell) :
    ∃ rest, (join ", " cells).toList.drop (j * (width + 2)) = cell.toList ++ rest := by
  induction cells generalizing j with
  | nil => cases hj
  | cons first cells ih =>
      obtain ⟨hfirst, h⟩ := List.forall_mem_cons.mp h
      cases cells with
      | nil =>
          cases j with
          | zero => cases hj; exact ⟨[], by simp⟩
          | succ j => cases hj
      | cons second cells =>
          rw [toList_join_cons_cons]
          cases j with
          | zero =>
              cases hj
              exact ⟨',' :: ' ' :: (join ", " (second :: cells)).toList, by simp⟩
          | succ j =>
              obtain ⟨rest, hrest⟩ := ih h hj
              refine ⟨rest, ?_⟩
              have hsplit : (first.toList ++ [',']) ++ ' ' :: (join ", " (second :: cells)).toList =
                  (first.toList ++ [',', ' ']) ++ (join ", " (second :: cells)).toList := by simp
              have hoffset : (j + 1) * (width + 2) =
                  (first.toList ++ [',', ' ']).length + j * (width + 2) := by
                rw [List.length_append, String.length_toList, hfirst, Nat.succ_mul, Nat.add_comm]
                rfl
              rw [hsplit, hoffset, List.drop_length_add_append, hrest]

namespace NameTable

/-- What a reader finds in the `j`-th cell of a row: the characters between the quotes, without the spaces
at their end. -/
def readCell (width : Nat) (row : String) (j : Nat) : String :=
  String.ofList (Text.dropTailWhile (· == ' ') ((row.toList.drop (j * (width + 4) + 1)).take width))

variable {text : String} {width : Nat}

theorem cell_eq (h : text.length ≤ width) :
    ∃ spaces, cell text width = "'" ++ (text ++ Text.repeated spaces ' ') ++ "'" ∧
      text.length + spaces = width :=
  ⟨width - text.length, rfl, Nat.add_sub_of_le h⟩

theorem length_cell (h : text.length ≤ width) : (cell text width).length = width + 2 := by
  rw [cell, String.length_append, String.length_append, Layout.length_padRight_of_le h]
  exact Nat.add_comm 1 (width + 1)

theorem readCell_join {texts : List String} (h : ∀ text ∈ texts, text.length ≤ width) {j : Nat}
    (hj : texts[j]? = some text) (hspace : ' ' ∉ text.toList) :
    readCell width (Text.join ", " (texts.map fun text => cell text width)) j = text := by
  have hwidth : ∀ c ∈ texts.map (fun text => cell text width), c.length = width + 2 :=
    List.forall_mem_map.mpr fun text ht => length_cell (h text ht)
  have hcell : (texts.map fun text => cell text width)[j]? = some (cell text width) := by
    rw [List.getElem?_map, hj]
    rfl
  obtain ⟨rest, hrest⟩ := Text.exists_drop_join hwidth hcell
  have hquote : "'".toList.length = 1 := by decide
  have hfit : text.length ≤ width := h text (List.mem_of_getElem? hj)
  rw [readCell, ← List.drop_drop, hrest, cell, String.toList_append, String.toList_append,
    List.append_assoc, List.append_assoc, List.drop_left' hquote,
    List.take_left' (by rw [String.length_toList, Layout.length_padRight_of_le hfit]),
    Layout.padRight, String.toList_append, Text.repeated, String.toList_ofList,
    Text.dropTailWhile_spaces hspace, String.ofList_toList]

variable {table : NameTable} {entry : NameEntry}

theorem standardName_fits (h : entry ∈ table.entries) :
    entry.standardName.length ≤ table.standardNameLength :=
  Nat.le_trans (Text.length_le_utf8ByteSize _)
    (le_foldr_max (List.mem_map_of_mem (f := (·.standardName.utf8ByteSize)) h))

theorem alias_fits (h : entry ∈ table.entries) {name : String} (hname : name ∈ entry.aliases) :
    name.length ≤ table.aliasLength :=
  Nat.le_trans (Text.length_le_utf8ByteSize _)
    (le_foldr_max (List.mem_flatMap.mpr ⟨entry, h, List.mem_map_of_mem hname⟩))

theorem aliases_fit (h : entry ∈ table.entries) : entry.aliases.length ≤ table.maxAliases :=
  le_foldr_max (List.mem_map_of_mem (f := (·.aliases.length)) h)

theorem readCell_aliasRow (h : entry ∈ table.entries)
    (hwords : ∀ name ∈ entry.aliases, Text.IsWord name) {j : Nat} (hj : j < table.maxAliases) :
    readCell table.aliasLength (Text.join ", " ((List.range table.maxAliases).map fun i =>
      cell (entry.aliases[i]?.getD "") table.aliasLength)) j = entry.aliases[j]?.getD "" := by
  have hname : ∀ i : Nat, entry.aliases[i]?.getD "" = "" ∨ entry.aliases[i]?.getD "" ∈ entry.aliases := by
    intro i
    cases hi : entry.aliases[i]? with
    | none => exact Or.inl rfl
    | some name => exact Or.inr (List.mem_of_getElem? hi)
  have hrow : (List.range table.maxAliases).map (fun i =>
        cell (entry.aliases[i]?.getD "") table.aliasLength) =
      ((List.range table.maxAliases).map fun i => entry.aliases[i]?.getD "").map fun text =>
        cell text table.aliasLength := by
    rw [List.map_map]
    rfl
  rw [hrow]
  refine readCell_join (List.forall_mem_map.mpr fun i _ => ?_) (by simp [hj]) ?_
  · rcases hname i with hblank | hmem
    · rw [hblank]
      exact Nat.zero_le _
    · exact alias_fits h hmem
  · rcases hname j with hblank | hmem
    · rw [hblank]
      decide
    · exact (hwords _ hmem).notMem (by decide)

theorem build_eq_some {unit : FileUnit} {catalog : Catalog}
    (h : (build unit catalog).outcome = .ok (some table)) :
    ∃ own, unit.aggregates catalog = .ok own ∧
      table.entries = entriesOf (candidates unit catalog own) := by
  rw [build, Checked.outcome_bind, Checked.outcome_ofExcept] at h
  obtain ⟨own, hown, h⟩ := bind_eq_ok h
  refine ⟨own, hown, ?_⟩
  rw [Checked.outcome_ite, Checked.outcome_ite] at h
  split at h
  · cases h
  · split at h
    · cases h
    · cases h
      rfl

end NameTable

/-! ## Names in files -/

/-- The names of a quantity in files are words. -/
def Quantity.NamedByWords (q : Quantity) : Prop :=
  ∀ names, q.inputNames = some names → ∀ name ∈ names, Text.IsWord name

theorem Quantity.namedByWords_of_read {catalog : Catalog} {node : Node} {scope localName : String}
    {dimensions : List String} {defaults : Defaults} {q : Quantity}
    (h : read catalog scope node localName dimensions defaults = .ok q) : q.NamedByWords := by
  rw [read_eq] at h
  obtain ⟨type, -, h⟩ := bind_eq_ok h
  obtain ⟨-, -, h⟩ := bind_eq_ok h
  obtain ⟨storage, -, h⟩ := bind_eq_ok h
  cases h
  intro names hnames name hname
  obtain ⟨child, -, hwords⟩ := Option.bind_eq_some_iff.mp hnames
  dsimp only at hwords
  split at hwords
  · cases hwords
  · cases hwords
    exact Text.isWord_of_mem_words hname

theorem Variable.namedByWords_ofNode {catalog : Catalog} {d : Dictionary} {node : Node} {v : Variable}
    (h : (Variable.ofNode catalog d node).outcome = .ok v) :
    v.NamedByWords ∧ ∀ e ∈ v.elements, e.NamedByWords := by
  obtain ⟨storage, shape, -, -, hread, helements, -⟩ := Variable.ofNode_eq_ok h
  refine ⟨Quantity.namedByWords_of_read hread, fun e he => ?_⟩
  obtain ⟨child, -, hchild⟩ := exists_left_of_forall₂ (forall₂_of_mapM_eq_ok helements) he
  obtain ⟨-, -, -, hread, -⟩ := Element.ofNode_eq_ok hchild
  exact Quantity.namedByWords_of_read hread

theorem NameTable.words_of_mem_entriesOf {candidates : List Quantity} {entry : NameEntry}
    (hwords : ∀ q ∈ candidates, q.NamedByWords) (h : entry ∈ entriesOf candidates) :
    ∀ name ∈ entry.aliases, Text.IsWord name := by
  rw [entriesOf_eq] at h
  obtain ⟨i, -, hi⟩ := List.mem_filterMap.mp h
  obtain ⟨hentry, -⟩ := Option.filter_eq_some_iff.mp hi
  obtain ⟨q, hq, hentry⟩ := Option.bind_eq_some_iff.mp hentry
  obtain ⟨names, hnames, rfl⟩ := Option.map_eq_some_iff.mp hentry
  exact hwords q (List.mem_of_getElem? hq) names hnames

theorem Compilation.namedByWords (dycore : String) (settings : Settings) (requests : List Request) :
    let run := (start dycore settings).after requests
    ∀ unit ∈ run.units, ∀ own, unit.aggregates run.context.catalog = .ok own →
      ∀ q ∈ NameTable.candidates unit run.context.catalog own, q.NamedByWords := by
  intro run unit hu own hown
  have hs : run.Sound := ((sound_start dycore settings).after requests).1
  obtain ⟨hmembers, hdeclared⟩ :=
    member_invariant (memberInvariant_forall Variable.namedByWords_ofNode) dycore settings requests
  have hvariables : ∀ v ∈ own.flatMap run.context.catalog.flatten ++ unit.dictionary.declared,
      v.NamedByWords ∧ ∀ e ∈ v.elements, e.NamedByWords := by
    refine List.forall_mem_append.mpr ⟨List.forall_mem_flatMap.mpr fun a ha v hv => ?_, hdeclared unit hu⟩
    obtain ⟨name, -, hname⟩ := exists_left_of_forall₂ (FileUnit.aggregates_eq_ok_iff.mp hown) ha
    obtain ⟨n, b, hb, hmem⟩ := hs.built.member_of_mem_flatten hname hv
    exact hmembers.of_aggregate? hb v hmem
  exact List.forall_mem_append.mpr
    ⟨List.forall_mem_map.mpr fun v hv => (hvariables v hv).1,
      List.forall_mem_flatMap.mpr fun v hv => List.forall_mem_map.mpr (hvariables v hv).2⟩

/-- The name table of a file has one entry for every standard name that a candidate has names in files
for, in the order of the candidates. Its cells are as wide as it says, and from its rows the names in
files can be read back. -/
theorem name_tables_decodable (dycore : String) (settings : Settings) (requests : List Request) :
    let run := (Compilation.start dycore settings).after requests
    let catalog := run.context.catalog
    ∀ unit ∈ run.units, ∀ table, (NameTable.build unit catalog).outcome = .ok (some table) →
      ∃ own, unit.aggregates catalog = .ok own ∧
        let sources := own.flatMap catalog.flatten ++ unit.dictionary.declared
        let candidates := sources.map (·.toQuantity) ++
          sources.flatMap fun v => v.elements.map (·.toQuantity)
        (table.entries.map fun entry => Text.lower entry.standardName).Nodup ∧
        table.entries =
          (List.range candidates.length).filterMap (NameTable.contribution? candidates) ∧
        List.Forall₂ (fun entry cell => ∃ spaces,
            cell = "'" ++ (entry.standardName ++ Text.repeated spaces ' ') ++ "'" ∧
            entry.standardName.length + spaces = table.standardNameLength)
          table.entries table.standardNameCells ∧
        List.Forall₂ (fun entry row => entry.aliases.length ≤ table.maxAliases ∧
            ∀ j < table.maxAliases,
              NameTable.readCell table.aliasLength row j = entry.aliases[j]?.getD "")
          table.entries table.aliasRows := by
  intro run catalog unit hu table hbuild
  obtain ⟨own, hown, hentries⟩ := NameTable.build_eq_some hbuild
  have hwords : ∀ entry ∈ table.entries, ∀ name ∈ entry.aliases, Text.IsWord name := by
    rw [hentries]
    exact fun entry => NameTable.words_of_mem_entriesOf
      (Compilation.namedByWords dycore settings requests unit hu own hown)
  refine ⟨own, hown, ?_, ?_, ?_, ?_⟩
  · rw [hentries]
    exact NameTable.nodup_entriesOf _
  · rw [hentries]
    exact NameTable.entriesOf_eq _
  · rw [NameTable.standardNameCells, List.forall₂_map_right_iff, List.forall₂_same]
    exact fun entry he => NameTable.cell_eq (NameTable.standardName_fits he)
  · rw [NameTable.aliasRows, List.forall₂_map_right_iff, List.forall₂_same]
    exact fun entry he => ⟨NameTable.aliases_fit he,
      fun j => NameTable.readCell_aliasRow he (hwords entry he)⟩

/-- A member and an element of one standard name in two spellings, and names of different lengths, one of
which has fewer characters than bytes. -/
def spellingsRegistry : Node where
  tag := "registry"
  children :=
    [{ tag := "file"
       attributes := [("name", "physics_types"), ("type", "module")]
       children :=
         [{ tag := "variable"
            attributes := [("local_name", "ix_q"), ("standard_name", "index_of_water_vapor"),
              ("type", "integer")] },
          { tag := "array"
            attributes := [("allocatable", "allocatable"), ("local_name", "q"),
              ("standard_name", "mixing_ratio"), ("type", "real")]
            children :=
              [{ tag := "dimensions", text := some "number_of_constituents" },
               { tag := "element"
                 attributes := [("index_name", "index_of_water_vapor"),
                   ("index_pos", "number_of_constituents"), ("standard_name", "Air_Temperature")]
                 children := [{ tag := "ic_file_input_names", text := some "theta" }] },
               { tag := "element"
                 attributes := [("index_name", "index_of_water_vapor"),
                   ("index_pos", "number_of_constituents"), ("standard_name", "water_vapor")]
                 children := [{ tag := "ic_file_input_names", text := some "q Q" }] }] },
          { tag := "variable"
            attributes := [("local_name", "t"), ("standard_name", "air_temperature"), ("type", "real")]
            children := [{ tag := "ic_file_input_names", text := some " température " }] },
          { tag := "ddt"
            attributes := [("type", "physics_state")]
            children := [{ tag := "data", text := some "air_temperature" }] }] }]

/-- The member comes first, and each row has a second name or a blank one. -/
def spellingsTable : NameTable :=
  ⟨[⟨"air_temperature", ["température"]⟩, ⟨"water_vapor", ["q", "Q"]⟩]⟩

theorem spellingsRegistry_table :
    let run := (Compilation.start "se" []).after [.compile spellingsRegistry]
    (∃ unit ∈ run.units,
      (NameTable.build unit run.context.catalog).outcome = .ok (some spellingsTable)) ∧
    spellingsTable.standardNameCells = ["'air_temperature'", "'water_vapor    '"] ∧
    spellingsTable.aliasRows =
      ["'température ', '            '", "'q           ', 'Q           '"] ∧
    (spellingsTable.entries.map fun entry => Text.lower entry.standardName).Nodup ∧
    List.Forall₂ (fun entry row => ∀ j < 2, NameTable.readCell 12 row j = entry.aliases[j]?.getD "")
      spellingsTable.entries spellingsTable.aliasRows := by
  have hunit :
      let run := (Compilation.start "se" []).after [.compile spellingsRegistry]
      ∃ unit ∈ run.units, (NameTable.build unit run.context.catalog).outcome.toOption.any
        (fun table => table = some spellingsTable) = true := by
    decide +kernel
  have hcells : spellingsTable.standardNameCells = ["'air_temperature'", "'water_vapor    '"] ∧
      spellingsTable.aliasRows =
        ["'température ', '            '", "'q           ', 'Q           '"] ∧
      spellingsTable.maxAliases = 2 ∧ spellingsTable.aliasLength = 12 := by
    decide +kernel
  have hmain := name_tables_decodable "se" [] [.compile spellingsRegistry]
  generalize (Compilation.start "se" []).after [.compile spellingsRegistry] = run at hunit hmain ⊢
  obtain ⟨unit, hu, hany⟩ := hunit
  obtain ⟨table, hbuild, htable⟩ := eq_ok_of_any hany
  rw [of_decide_eq_true htable] at hbuild
  obtain ⟨hstandard, hrows, haliases, hlength⟩ := hcells
  obtain ⟨own, -, hnodup, -, -, hread⟩ := hmain unit hu spellingsTable hbuild
  rw [haliases, hlength] at hread
  exact ⟨⟨unit, hu, hbuild⟩, hstandard, hrows, hnodup, hread.imp fun entry row h => h.2⟩

end FieldRegistry
