import FieldRegistry.Proofs.DiskRuns
import FieldRegistry.Proofs.Runs
import FieldRegistry.Proofs.Separators

/-!
# Files after a run

A run writes the files of its units one after another, under names that the registry gives. Writing a file
changes nothing but the place that its path leads to, so a place holds what was written there last: the
files of every unit are there after the run if and only if no two units of one name have different texts.
-/

namespace FieldRegistry

open Disk (Cause)

theorem foldlM_eq_ok_congr {ε α β : Type} {f g : β → α → Except ε β}
    (h : ∀ b a b', f b a = .ok b' ↔ g b a = .ok b') (as : List α) {b c : β} :
    as.foldlM f b = .ok c ↔ as.foldlM g b = .ok c := by
  induction as generalizing b with
  | nil => exact Iff.rfl
  | cons a as ih => simp only [List.foldlM_cons, bind_eq_ok_iff, h, ih]

/-! ## Writing a file -/

namespace FileTree

variable {tree tree' : FileTree} {path contents : String} {location l l' : List String}

theorem writeText_eq_ok (h : tree.writeText path contents = .ok tree') :
    ∃ location, tree.locate path = .ok location ∧ tree.get? location ≠ some .directory ∧
      tree' = tree.put location (.text contents) := by
  obtain ⟨location, hlocation, h⟩ := bind_eq_ok h
  refine ⟨location, hlocation, ?_⟩
  split at h
  · cases h
  · rename_i hget
    cases h
    exact ⟨hget, rfl⟩

theorem get?_of_step_eq_ok {piece : String} (h : tree.step l piece = .ok l') :
    tree.get? l = some .directory := by
  unfold step at h
  split at h
  · cases h
  · cases h
  · cases h
  · assumption

theorem step_congr (h : tree.get? l = tree'.get? l) (piece : String) :
    tree.step l piece = tree'.step l piece := by
  rw [step, step, h]

section Put

variable (hfile : tree.get? location ≠ some .directory)

include hfile

theorem get?_put_text (contents : String) (l : List String) :
    (tree.put location (.text contents)).get? l =
      if l = location then some (.text contents) else tree.get? l := by
  refine get?_put ?_ l _
  rintro rfl
  exact hfile rfl

/-- A file that is written leads no path elsewhere. -/
theorem step_put_eq_ok_iff (l : List String) (piece : String) (l' : List String) :
    (tree.put location (.text contents)).step l piece = .ok l' ↔ tree.step l piece = .ok l' := by
  have hget := get?_put_text hfile contents l
  constructor
  · intro h
    have hdirectory := get?_of_step_eq_ok h
    rw [hget] at hdirectory
    split at hdirectory
    · cases hdirectory
    · rename_i hne
      rwa [step_congr (hget.trans (if_neg hne))] at h
  · intro h
    have hne : l ≠ location := by
      rintro rfl
      exact hfile (get?_of_step_eq_ok h)
    rwa [step_congr (hget.trans (if_neg hne))]

theorem locate_put_eq_ok_iff :
    (tree.put location (.text contents)).locate path = .ok l ↔ tree.locate path = .ok l := by
  unfold locate
  rw [bind_eq_ok_iff, bind_eq_ok_iff]
  refine exists_congr fun ends => and_congr Iff.rfl ?_
  exact foldlM_eq_ok_congr (step_put_eq_ok_iff hfile) _

end Put

/-- The file at a path holds a text. -/
theorem readText_eq_ok_iff :
    tree.readText path = .ok contents ↔
      ∃ location, tree.locate path = .ok location ∧ tree.get? location = some (.text contents) := by
  constructor
  · intro h
    obtain ⟨entry, hentry, h⟩ := bind_eq_ok h
    obtain ⟨location, hlocation, hentry⟩ := bind_eq_ok hentry
    refine ⟨location, hlocation, ?_⟩
    split at hentry
    · rename_i hget
      cases hentry
      split at h
      · cases h
        exact hget
      · cases h
      · cases h
    · cases hentry
  · rintro ⟨location, hlocation, hget⟩
    unfold readText find
    rw [hlocation, ok_bind, hget]
    rfl

/-! ## Writing several files -/

/-- Writes files by their paths, one after another. -/
def writeFiles (tree : FileTree) (files : List (String × String)) : Except Cause FileTree :=
  files.foldlM (fun tree file => tree.writeText file.1 file.2) tree

variable {files before after : List (String × String)}

theorem locate_writeFiles (h : tree.writeFiles files = .ok tree') :
    ∀ path l, tree'.locate path = .ok l ↔ tree.locate path = .ok l := by
  refine foldlM_ok_invariant
    (P := fun t : FileTree => ∀ path l, t.locate path = .ok l ↔ tree.locate path = .ok l) ?_
    (fun _ _ => Iff.rfl) h
  intro t file t' ht hwrite path l
  obtain ⟨location, -, hfile, rfl⟩ := writeText_eq_ok hwrite
  exact (locate_put_eq_ok_iff hfile).trans (ht path l)

/-- A text stays where it is as long as only the same text is written there. -/
theorem get?_writeFiles (h : tree.writeFiles files = .ok tree')
    (hl : tree.get? l = some (.text contents))
    (hsame : ∀ file ∈ files, tree.locate file.1 = .ok l → file.2 = contents) :
    tree'.get? l = some (.text contents) := by
  induction files generalizing tree with
  | nil => cases h; exact hl
  | cons file files ih =>
      obtain ⟨tree₁, hwrite, h⟩ := foldlM_cons_eq_ok h
      obtain ⟨location, hlocation, hfile, rfl⟩ := writeText_eq_ok hwrite
      obtain ⟨hfirst, hsame⟩ := List.forall_mem_cons.mp hsame
      refine ih h ?_ fun file' hmem hlocate => hsame file' hmem ((locate_put_eq_ok_iff hfile).mp hlocate)
      rw [get?_put_text hfile]
      split
      · rename_i heq
        rw [hfirst (heq ▸ hlocation)]
      · exact hl

/-- A file holds the text that was written to it, unless a later one overwrote it. -/
theorem readText_of_writeFiles {file : String × String}
    (h : tree.writeFiles (before ++ file :: after) = .ok tree')
    (hsame : ∀ later ∈ after, ∀ l, tree'.locate later.1 = .ok l → tree'.locate file.1 = .ok l →
      later.2 = file.2) :
    tree'.readText file.1 = .ok file.2 := by
  rw [writeFiles, List.foldlM_append] at h
  obtain ⟨tree₁, -, h⟩ := bind_eq_ok h
  obtain ⟨tree₂, hwrite, hafter⟩ := foldlM_cons_eq_ok h
  obtain ⟨location, hlocation, hfile, htree₂⟩ := writeText_eq_ok hwrite
  have hlocate₂ := locate_writeFiles hafter
  have hplace : tree'.locate file.1 = .ok location := by
    rw [hlocate₂, htree₂, locate_put_eq_ok_iff hfile]
    exact hlocation
  refine readText_eq_ok_iff.mpr ⟨location, hplace, get?_writeFiles hafter ?_ ?_⟩
  · rw [htree₂, get?_put_text hfile, if_pos rfl]
  · intro later hlater hlocate
    exact hsame later hlater location ((hlocate₂ _ _).mpr hlocate) hplace

/-- All files hold their texts if and only if files at one place have one text. -/
theorem readText_writeFiles_iff (h : tree.writeFiles files = .ok tree') :
    (∀ file ∈ files, tree'.readText file.1 = .ok file.2) ↔
      ∀ file ∈ files, ∀ file' ∈ files, ∀ l, tree'.locate file.1 = .ok l →
        tree'.locate file'.1 = .ok l → file.2 = file'.2 := by
  constructor
  · intro hall file hfile file' hfile' l hl hl'
    obtain ⟨l₁, hl₁, hget⟩ := readText_eq_ok_iff.mp (hall file hfile)
    obtain ⟨l₂, hl₂, hget'⟩ := readText_eq_ok_iff.mp (hall file' hfile')
    cases hl.symm.trans hl₁
    cases hl'.symm.trans hl₂
    simpa using hget.symm.trans hget'
  · intro hsame file hfile
    obtain ⟨before, after, rfl⟩ := List.append_of_mem hfile
    refine readText_of_writeFiles h fun later hlater l hl hl' => ?_
    exact hsame later (by simp [hlater]) file (by simp) l hl hl'

end FileTree

/-! ## Names in a directory -/

/-- A name of a file: not empty, without slashes, and no way to this or the next directory. -/
structure Path.IsFileName (name : String) : Prop where
  slash : '/' ∉ name.toList
  ne_empty : name ≠ ""
  ne_dot : name ≠ "."
  ne_dots : name ≠ ".."

namespace Path

variable {name : String}

theorem splitAll_append (front : List Char) (h : IsFileName name) :
    (Text.splitAll '/' (String.ofList (front ++ '/' :: name.toList))).reverse =
      name :: (Text.splitAll '/' (String.ofList front)).reverse := by
  have hname : Text.pieces (· == '/') name.toList = [name.toList] :=
    Text.pieces_of_forall fun c hc => beq_false_of_ne (ne_of_mem_of_not_mem hc h.slash)
  rw [Text.splitAll, Text.splitAll, String.toList_ofList, String.toList_ofList,
    Text.pieces_append_sep (by decide), hname, List.map_append, List.reverse_append]
  simp

theorem Parts.ofText_slash {rest : List Char} {text : String} (h : text.toList = '/' :: rest) :
    Parts.ofText text = ⟨true, (Text.splitAll '/' (String.ofList rest)).reverse⟩ := by
  simp only [Parts.ofText, h]

theorem Parts.ofText_of_ne {text : String} (h : text.toList.head? ≠ some '/') :
    Parts.ofText text = ⟨false, (Text.splitAll '/' text).reverse⟩ := by
  unfold Parts.ofText
  split
  · rename_i htext
    simp [htext] at h
  · rfl

theorem IsFileName.head?_ne (h : IsFileName name) : name.toList.head? ≠ some '/' := fun hhead =>
  h.slash (List.mem_of_mem_head? hhead)

/-- Below a directory that has a name, a path has a slash before the last name. -/
theorem exists_toList_below {directory : String} (hdirectory : directory ≠ "") :
    ∃ front, ∀ name, IsFileName name →
      (below directory name).toList = front ++ '/' :: name.toList := by
  have hopen : ∀ {name}, IsFileName name →
      ¬ (name.toList.head? = some '/' ∨ directory.isEmpty = true) := fun h hor => by
    simp [h.head?_ne, hdirectory] at hor
  by_cases hlast : directory.toList.getLast? = some '/'
  · obtain ⟨front, hfront⟩ := List.getLast?_eq_some_iff.mp hlast
    refine ⟨front, fun name h => ?_⟩
    rw [below, if_neg (hopen h), if_pos hlast, String.toList_append, hfront, List.append_assoc]
    rfl
  · refine ⟨directory.toList, fun name h => ?_⟩
    have hslash : "/".toList = ['/'] := by decide
    rw [below, if_neg (hopen h), if_neg hlast, String.toList_append, String.toList_append, hslash,
      List.append_assoc]
    rfl

/-- The pieces of a path below a directory are those of the directory and the last name. -/
theorem exists_ofText_below (directory : String) :
    ∃ isAbsolute front, ∀ name, IsFileName name →
      Parts.ofText (below directory name) = ⟨isAbsolute, name :: front⟩ := by
  by_cases hdirectory : directory = ""
  · refine ⟨false, [], fun name h => ?_⟩
    have hbelow : below directory name = name := if_pos (Or.inr (by simp [hdirectory]))
    rw [hbelow, Parts.ofText_of_ne h.head?_ne, Text.splitAll_of_notMem h.slash]
    rfl
  · obtain ⟨front, hfront⟩ := exists_toList_below hdirectory
    -- the first slash of the path makes it absolute, whether it is of the directory or the last one
    match front, hfront with
    | [], hfront =>
        refine ⟨true, [], fun name h => ?_⟩
        rw [Parts.ofText_slash (hfront name h), String.ofList_toList, Text.splitAll_of_notMem h.slash]
        rfl
    | c :: cs, hfront =>
        by_cases hc : c = '/'
        · refine ⟨true, (Text.splitAll '/' (String.ofList cs)).reverse, fun name h => ?_⟩
          have hpath : (below directory name).toList = '/' :: (cs ++ '/' :: name.toList) := by
            rw [hfront name h, hc]
            rfl
          rw [Parts.ofText_slash hpath, splitAll_append cs h]
        · refine ⟨false, (Text.splitAll '/' (String.ofList (c :: cs))).reverse, fun name h => ?_⟩
          have hhead : (below directory name).toList.head? ≠ some '/' := by
            simp [hfront name h, hc]
          rw [Parts.ofText_of_ne hhead, ← String.ofList_toList (s := below directory name),
            hfront name h, splitAll_append (c :: cs) h]

end Path

namespace FileTree

open FieldRegistry.Path (IsFileName below)

variable {tree : FileTree} {directory name name' : String} {l l' : List String}

theorem start_eq_ok {path : String} {ends : List String × List String}
    (h : tree.start path = .ok ends) :
    ends = (if (Path.Parts.ofText path).isAbsolute then [] else tree.home,
      (Path.Parts.ofText path).reversed) := by
  unfold start at h
  split at h
  · cases h
  · split at h
    · cases h
    · split at h
      · cases h
      · exact (Except.ok.inj h).symm

theorem step_of_isFileName (hname : IsFileName name) (h : tree.step l name = .ok l') :
    l' = l ++ [name] := by
  unfold step at h
  split at h
  · cases h
  · cases h
  · cases h
  · rw [if_neg (by simp [hname.ne_empty, hname.ne_dot]), if_neg (by simp [hname.ne_dots])] at h
    split at h
    · cases h
    · exact (Except.ok.inj h).symm

/-- Paths to names in one directory lead to one place and the names below it. -/
theorem exists_locate_below (directory : String) (tree : FileTree) :
    ∃ base : Except Cause (List String), ∀ name l, IsFileName name →
      tree.locate (below directory name) = .ok l → base.map (· ++ [name]) = .ok l := by
  obtain ⟨isAbsolute, front, hparts⟩ := Path.exists_ofText_below directory
  refine ⟨front.reverse.foldlM tree.step (if isAbsolute then [] else tree.home), fun name l hname h => ?_⟩
  obtain ⟨ends, hstart, h⟩ := bind_eq_ok h
  have hends := start_eq_ok hstart
  rw [hparts name hname] at hends
  subst hends
  dsimp only at h
  rw [List.reverse_cons, List.foldlM_append] at h
  obtain ⟨base, hbase, h⟩ := bind_eq_ok h
  obtain ⟨l₁, hstep, h⟩ := foldlM_cons_eq_ok h
  cases h
  rw [hbase, step_of_isFileName hname hstep]
  rfl

theorem name_eq_of_locate_eq (hname : IsFileName name) (hname' : IsFileName name')
    (h : tree.locate (below directory name) = .ok l)
    (h' : tree.locate (below directory name') = .ok l) : name = name' := by
  obtain ⟨base, hbase⟩ := exists_locate_below directory tree
  have hmap := (hbase name l hname h).trans (hbase name' l hname' h').symm
  cases base with
  | error cause => cases hbase name l hname h
  | ok base => simpa [Except.map] using hmap

end FileTree

/-! ## The files of units -/

/-- A unit with the two texts that were generated for it. -/
structure RenderedUnit where
  unit : FileUnit
  metadata : String
  source : String

namespace RenderedUnit

def metadataPath (directory : String) (r : RenderedUnit) : String :=
  Path.below directory (r.unit.name ++ ".meta")

def sourcePath (directory : String) (r : RenderedUnit) : String :=
  Path.below directory (r.unit.name ++ ".F90")

def outputs (r : RenderedUnit) : List Output :=
  [⟨r.unit.name ++ ".meta", r.metadata⟩, ⟨r.unit.name ++ ".F90", r.source⟩]

def files (directory : String) (r : RenderedUnit) : List (String × String) :=
  [(r.metadataPath directory, r.metadata), (r.sourcePath directory, r.source)]

/-- The texts are those that the unit has in a catalog, the source under some ranking of dimensions. -/
structure Generated (style : Style) (catalog : Catalog) (r : RenderedUnit) : Prop where
  metadata : Metadata.text r.unit catalog = .ok r.metadata
  source : ∃ ranking, ((SourceModule.text r.unit catalog style).outcome ranking).1 = .ok r.source

/-- The files of a unit in a directory hold its texts. -/
structure Intact (tree : FileTree) (directory : String) (r : RenderedUnit) : Prop where
  metadata : tree.readText (r.metadataPath directory) = .ok r.metadata
  source : tree.readText (r.sourcePath directory) = .ok r.source

end RenderedUnit

namespace Compilation

variable {style : Style} {catalog : Catalog}

theorem exists_rendered_of_render {unit : FileUnit} {ranking : Ranking} {files : List Output}
    (h : render style catalog unit (ranking.sort unit.dictionary.knownDimensions).1 = .ok files) :
    ∃ r : RenderedUnit, r.unit = unit ∧ r.outputs = files ∧ r.Generated style catalog := by
  obtain ⟨metadata, hmetadata, h⟩ := bind_eq_ok h
  obtain ⟨source, hsource, h⟩ := bind_eq_ok h
  cases h
  refine ⟨⟨unit, metadata, source⟩, rfl, rfl, hmetadata, ranking, ?_⟩
  rw [outcome_text]
  exact hsource

theorem exists_rendered_of_emit {units : List FileUnit} {ranking : Ranking}
    {files : List (List Output)} (h : emit style catalog ranking units = .ok files) :
    ∃ rendered : List RenderedUnit, rendered.map (·.unit) = units ∧
      rendered.map (·.outputs) = files ∧ ∀ r ∈ rendered, r.Generated style catalog := by
  induction units generalizing ranking files with
  | nil => cases h; exact ⟨[], rfl, rfl, by simp⟩
  | cons unit units ih =>
      obtain ⟨first, hfirst, h⟩ := bind_eq_ok h
      obtain ⟨rest, hrest, h⟩ := bind_eq_ok h
      cases h
      obtain ⟨r, rfl, rfl, hr⟩ := exists_rendered_of_render hfirst
      obtain ⟨rendered, rfl, rfl, hall⟩ := ih hrest
      exact ⟨r :: rendered, rfl, rfl, List.forall_mem_cons.mpr ⟨hr, hall⟩⟩

end Compilation

namespace Generation

open FieldRegistry.Action (outcome)

variable {run : Generation} {root : Node} {outputs : List Output} {tree tree' : FileTree}
  {directory : String}

theorem exists_rendered_of_outputs (h : (run.outputs root).outcome = .ok outputs) :
    ∃ (compiled : Compilation) (rendered : List RenderedUnit),
      (Compilation.compile root).outcome run.fresh = (.ok (), compiled) ∧
      ((Compilation.generate run.style).outcome compiled).1 = .ok outputs ∧
      rendered.map (·.unit) = compiled.units ∧ rendered.flatMap (·.outputs) = outputs ∧
      ∀ r ∈ rendered, r.Generated run.style compiled.context.catalog := by
  rw [outcome_outputs] at h
  split at h
  · cases h
  · rename_i compiled hcompile
    cases hgenerate : (Compilation.generate run.style).outcome compiled with
    | mk result compiled' =>
        rw [hgenerate] at h
        obtain ⟨hresult, -⟩ := Compilation.generate_cases hgenerate
        obtain ⟨files, hfiles, hflat⟩ := map_eq_ok (hresult.symm.trans h)
        obtain ⟨rendered, hunits, hrendered, hall⟩ := Compilation.exists_rendered_of_emit hfiles
        refine ⟨compiled, rendered, hcompile, by rw [hgenerate, h], hunits, ?_, hall⟩
        rw [← hflat, ← hrendered, List.flatMap_def]

theorem value_commit (change : FileTree → Except Cause FileTree) :
    ((FileTree.commit change : StateT FileTree Logged (Except Cause Unit)).run tree).value =
      match change tree with
      | .ok written => (.ok (), written)
      | .error cause => (.error cause, tree) := by
  have h : ((FileTree.commit change : StateT FileTree Logged (Except Cause Unit)).run tree).value =
      ((match change tree with
        | .ok written => (do set written; return .ok ())
        | .error cause => return .error cause :
          StateT FileTree Logged (Except Cause Unit)).run tree).value := rfl
  rw [h]
  cases change tree <;> rfl

theorem outcome_write (path contents : String) :
    outcome (liftM (Disk.write path contents : StateT FileTree Logged (Except Cause Unit)) :
        DiskAction (Except Cause Unit)) tree =
      match tree.writeText path contents with
      | .ok written => (.ok (.ok ()), written)
      | .error cause => (.ok (.error cause), tree) := by
  have h : outcome (liftM (Disk.write path contents : StateT FileTree Logged (Except Cause Unit)) :
        DiskAction (Except Cause Unit)) tree =
      ((FileTree.commit (·.writeText path contents) :
        StateT FileTree Logged (Except Cause Unit)).run tree).value.map .ok id := rfl
  rw [h, value_commit]
  cases tree.writeText path contents <;> rfl

theorem writeText_of_writeOutput {output : Output} {done : Unit}
    (h : outcome (writeOutput directory output : DiskAction Unit) tree = (.ok done, tree')) :
    tree.writeText (Path.below directory output.fileName) output.contents = .ok tree' := by
  unfold writeOutput at h
  rw [Action.outcome_bind_of_ok (outcome_journal _), Action.outcome_bind, outcome_write] at h
  cases hwrite : tree.writeText (Path.below directory output.fileName) output.contents with
  | error cause => rw [hwrite] at h; cases h
  | ok written => rw [hwrite] at h; cases h; rfl

theorem writeFiles_of_forM {done : Unit}
    (h : outcome (outputs.forM (writeOutput directory) : DiskAction Unit) tree = (.ok done, tree')) :
    tree.writeFiles (outputs.map fun output =>
      (Path.below directory output.fileName, output.contents)) = .ok tree' := by
  induction outputs generalizing tree with
  | nil => cases h; rfl
  | cons output outputs ih =>
      rw [List.forM_eq_forM, List.forM_cons] at h
      obtain ⟨_, tree₁, hfirst, h⟩ := Action.outcome_bind_eq_ok h
      rw [FileTree.writeFiles, List.map_cons, List.foldlM_cons, writeText_of_writeOutput hfirst]
      exact ih h

theorem exists_writeFiles_of_writeOutputs
    (h : outcome (writeOutputs directory outputs : DiskAction Unit) tree = (.ok (), tree')) :
    ∃ tree₁ : FileTree, tree₁.writeFiles (outputs.map fun output =>
      (Path.below directory output.fileName, output.contents)) = .ok tree' := by
  obtain ⟨result, tree₁, -, h⟩ := Action.outcome_bind_eq_ok h
  cases result with
  | error cause => cases h
  | ok done => exact ⟨tree₁, writeFiles_of_forM h⟩

end Generation

namespace RenderedUnit

variable {r r' : RenderedUnit} {tree tree' : FileTree} {directory : String} {l : List String}

theorem isFileName_append {name extension : String} (hname : '/' ∉ name.toList)
    (hextension : '/' ∉ extension.toList) (hlength : 2 < extension.length) :
    Path.IsFileName (name ++ extension) := by
  have hlong : ∀ text : String, text.length ≤ 2 → name ++ extension ≠ text := by
    intro text htext heq
    have hcount := congrArg String.length heq
    rw [String.length_append] at hcount
    omega
  refine ⟨?_, hlong "" (by decide), hlong "." (by decide), hlong ".." (by decide)⟩
  rw [String.toList_append, List.mem_append, not_or]
  exact ⟨hname, hextension⟩

/-- Names without slashes give every unit two places of its own. -/
theorem name_eq_of_place (hr : '/' ∉ r.unit.name.toList) (hr' : '/' ∉ r'.unit.name.toList)
    {file file' : String × String} (hfile : file ∈ r.files directory)
    (hfile' : file' ∈ r'.files directory) (hl : tree.locate file.1 = .ok l)
    (hl' : tree.locate file'.1 = .ok l) :
    r.unit.name = r'.unit.name ∧
      (file = (r.metadataPath directory, r.metadata) ∧
          file' = (r'.metadataPath directory, r'.metadata) ∨
        file = (r.sourcePath directory, r.source) ∧
          file' = (r'.sourcePath directory, r'.source)) := by
  have hmeta : ∀ {name : String}, '/' ∉ name.toList → Path.IsFileName (name ++ ".meta") := fun h =>
    isFileName_append h (by decide) (by decide)
  have hsource : ∀ {name : String}, '/' ∉ name.toList → Path.IsFileName (name ++ ".F90") := fun h =>
    isFileName_append h (by decide) (by decide)
  have hends : ∀ name name' : String, name ++ ".meta" ≠ name' ++ ".F90" := by
    intro name name' heq
    have hlast := congrArg (fun s : String => s.toList.getLast?) heq
    simp at hlast
  simp only [files, List.mem_cons, List.not_mem_nil, or_false] at hfile hfile'
  rcases hfile with rfl | rfl <;> rcases hfile' with rfl | rfl
  · have heq := FileTree.name_eq_of_locate_eq (hmeta hr) (hmeta hr') hl hl'
    exact ⟨(String.append_left_inj _).mp heq, Or.inl ⟨rfl, rfl⟩⟩
  · exact absurd (FileTree.name_eq_of_locate_eq (hmeta hr) (hsource hr') hl hl') (hends _ _)
  · exact absurd (FileTree.name_eq_of_locate_eq (hsource hr) (hmeta hr') hl hl').symm (hends _ _)
  · have heq := FileTree.name_eq_of_locate_eq (hsource hr) (hsource hr') hl hl'
    exact ⟨(String.append_left_inj _).mp heq, Or.inr ⟨rfl, rfl⟩⟩

theorem intact_iff : r.Intact tree directory ↔
    ∀ file ∈ r.files directory, tree.readText file.1 = .ok file.2 := by
  simp only [files, List.forall_mem_cons, List.not_mem_nil, false_implies, implies_true, and_true]
  exact ⟨fun h => ⟨h.metadata, h.source⟩, fun h => ⟨h.1, h.2⟩⟩

variable {rendered before after : List RenderedUnit}

theorem intact_all_iff : (∀ r ∈ rendered, r.Intact tree directory) ↔
    ∀ file ∈ rendered.flatMap (·.files directory), tree.readText file.1 = .ok file.2 := by
  simp only [List.forall_mem_flatMap, intact_iff]

/-- Units of one name share their paths, so their files can only hold the same texts. -/
theorem texts_eq_of_intact (hr : r.Intact tree directory) (hr' : r'.Intact tree directory)
    (hname : r.unit.name = r'.unit.name) : r.metadata = r'.metadata ∧ r.source = r'.source := by
  have hmetadata := hr'.metadata
  have hsource := hr'.source
  rw [metadataPath, ← hname] at hmetadata
  rw [sourcePath, ← hname] at hsource
  exact ⟨Except.ok.inj (hr.metadata.symm.trans hmetadata),
    Except.ok.inj (hr.source.symm.trans hsource)⟩

theorem intact_of_texts_eq (hplain : ∀ r ∈ rendered, '/' ∉ r.unit.name.toList)
    (hwrite : tree.writeFiles (rendered.flatMap (·.files directory)) = .ok tree')
    (hsame : ∀ r ∈ rendered, ∀ r' ∈ rendered, r.unit.name = r'.unit.name →
      r.metadata = r'.metadata ∧ r.source = r'.source) :
    ∀ r ∈ rendered, r.Intact tree' directory := by
  refine intact_all_iff.mpr ((FileTree.readText_writeFiles_iff hwrite).mpr ?_)
  intro file hfile file' hfile' l hl hl'
  obtain ⟨r, hr, hfile⟩ := List.mem_flatMap.mp hfile
  obtain ⟨r', hr', hfile'⟩ := List.mem_flatMap.mp hfile'
  obtain ⟨hname, ⟨rfl, rfl⟩ | ⟨rfl, rfl⟩⟩ :=
    name_eq_of_place (hplain r hr) (hplain r' hr') hfile hfile' hl hl'
  · exact (hsame r hr r' hr' hname).1
  · exact (hsame r hr r' hr' hname).2

/-- The last unit of a name keeps its files. -/
theorem intact_of_last (hplain : ∀ r' ∈ before ++ r :: after, '/' ∉ r'.unit.name.toList)
    (hwrite : tree.writeFiles ((before ++ r :: after).flatMap (·.files directory)) = .ok tree')
    (hlast : ∀ r' ∈ after, r'.unit.name ≠ r.unit.name) : r.Intact tree' directory := by
  have hown : '/' ∉ r.unit.name.toList := hplain r (by simp)
  have hlater : ∀ file ∈ r.files directory, ∀ later ∈ after.flatMap (·.files directory), ∀ l,
      tree'.locate later.1 = .ok l → tree'.locate file.1 = .ok l → later.2 = file.2 := by
    intro file hfile later hmem l hl hl'
    obtain ⟨r', hr', hmem⟩ := List.mem_flatMap.mp hmem
    have hname := (name_eq_of_place (hplain r' (by simp [hr'])) hown hmem hfile hl hl').1
    exact absurd hname (hlast r' hr')
  have hmetadata : (r.metadataPath directory, r.metadata) ∈ r.files directory := by simp [files]
  have hsource : (r.sourcePath directory, r.source) ∈ r.files directory := by simp [files]
  constructor
  · -- the source of the unit itself comes after its metadata, then later units
    have hfiles : tree.writeFiles (before.flatMap (·.files directory) ++
        (r.metadataPath directory, r.metadata) ::
          (r.sourcePath directory, r.source) :: after.flatMap (·.files directory)) = .ok tree' := by
      simpa [files] using hwrite
    have hnext : ∀ l, tree'.locate (r.sourcePath directory) = .ok l →
        tree'.locate (r.metadataPath directory) = .ok l → r.source = r.metadata := by
      intro l hl hl'
      rcases (name_eq_of_place hown hown hsource hmetadata hl hl').2 with ⟨h, -⟩ | ⟨-, h⟩
      · exact congrArg Prod.snd h
      · exact (congrArg Prod.snd h).symm
    exact (FileTree.readText_of_writeFiles hfiles
      (List.forall_mem_cons.mpr ⟨hnext, hlater _ hmetadata⟩) :)
  · have hfiles : tree.writeFiles ((before.flatMap (·.files directory) ++
        [(r.metadataPath directory, r.metadata)]) ++
          (r.sourcePath directory, r.source) :: after.flatMap (·.files directory)) = .ok tree' := by
      simpa [files] using hwrite
    exact (FileTree.readText_of_writeFiles hfiles (hlater _ hsource) :)

end RenderedUnit

namespace Generation

open FieldRegistry.Action (outcome)

/-- After a run that wrote its files, a place holds what was written there last. So all units have their
texts in their files if and only if files at one place have one text; where names have no slashes, if and
only if units of one name have the same texts. The last unit of each name has its texts in any case. -/
theorem written_units_intact_iff {run : Generation} {root : Node} {outputs : List Output}
    {tree tree' : FileTree} (houtputs : (run.outputs root).outcome = .ok outputs)
    (hwritten : outcome (writeOutputs run.outputDirectory outputs : DiskAction Unit) tree =
      (.ok (), tree')) :
    ∃ (compiled : Compilation) (rendered : List RenderedUnit),
      (Compilation.compile root).outcome run.fresh = (.ok (), compiled) ∧
      ((Compilation.generate run.style).outcome compiled).1 = .ok (rendered.flatMap (·.outputs)) ∧
      rendered.map (·.unit) = compiled.units ∧
      (∀ r ∈ rendered, r.Generated run.style compiled.context.catalog) ∧
      ((∀ r ∈ rendered, r.Intact tree' run.outputDirectory) ↔
        ∀ file ∈ rendered.flatMap (·.files run.outputDirectory),
          ∀ file' ∈ rendered.flatMap (·.files run.outputDirectory), ∀ place,
            tree'.locate file.1 = .ok place → tree'.locate file'.1 = .ok place →
            file.2 = file'.2) ∧
      ((∀ r ∈ rendered, '/' ∉ r.unit.name.toList) →
        ((∀ r ∈ rendered, r.Intact tree' run.outputDirectory) ↔
          ∀ r ∈ rendered, ∀ r' ∈ rendered, r.unit.name = r'.unit.name →
            r.metadata = r'.metadata ∧ r.source = r'.source) ∧
        ∀ before r after, rendered = before ++ r :: after →
          (∀ r' ∈ after, r'.unit.name ≠ r.unit.name) → r.Intact tree' run.outputDirectory) := by
  obtain ⟨compiled, rendered, hcompile, hgenerate, hunits, rfl, hgenerated⟩ :=
    exists_rendered_of_outputs houtputs
  obtain ⟨tree₁, hwrite⟩ := exists_writeFiles_of_writeOutputs hwritten
  rw [List.map_flatMap] at hwrite
  have hwrite : tree₁.writeFiles (rendered.flatMap (·.files run.outputDirectory)) = .ok tree' := hwrite
  refine ⟨compiled, rendered, hcompile, hgenerate, hunits, hgenerated,
    RenderedUnit.intact_all_iff.trans (FileTree.readText_writeFiles_iff hwrite),
    fun hplain => ⟨⟨?_, ?_⟩, ?_⟩⟩
  · intro hall r hr r' hr' hname
    exact RenderedUnit.texts_eq_of_intact (hall r hr) (hall r' hr') hname
  · exact RenderedUnit.intact_of_texts_eq hplain hwrite
  · rintro before r after rfl
    exact RenderedUnit.intact_of_last hplain hwrite

/-! ## Two files of one name -/

/-- An empty file `fields` and then a file of the given name with a variable. -/
def pairRegistry (name : String) : Node where
  tag := "registry"
  children :=
    [{ tag := "file"
       attributes := [("name", "fields"), ("type", "module")] },
     { tag := "file"
       attributes := [("name", name), ("type", "module")]
       children :=
         [{ tag := "variable"
            attributes := [("local_name", "t"), ("standard_name", "air_temperature"),
              ("type", "real")] }] }]

def pairRun : Generation where
  dycore := "se"
  settings := ""
  outputDirectory := "out"
  validator := constantSchemas

def emptyTree : FileTree := ⟨[], []⟩

/-- The run succeeds, but one of the units does not have its metadata in its file. -/
theorem pairRegistry_lost : ∃ outputs tree' compiled unit metadata,
    (pairRun.outputs (pairRegistry "fields")).outcome = .ok outputs ∧
      outcome (writeOutputs "out" outputs : DiskAction Unit) emptyTree = (.ok (), tree') ∧
      (Compilation.compile (pairRegistry "fields")).outcome pairRun.fresh = (.ok (), compiled) ∧
      unit ∈ compiled.units ∧ Metadata.text unit compiled.context.catalog = .ok metadata ∧
      tree'.readText (Path.below "out" (unit.name ++ ".meta")) ≠ .ok metadata := by
  have hcompile : ((Compilation.compile (pairRegistry "fields")).outcome pairRun.fresh).1.toOption.any
      (fun _ => true) = true := by decide +kernel
  have hlost : (pairRun.outputs (pairRegistry "fields")).outcome.toOption.any (fun outputs =>
      (outcome (writeOutputs "out" outputs : DiskAction Unit) emptyTree).1.toOption.any
        (fun _ => true) &&
      let compiled := ((Compilation.compile (pairRegistry "fields")).outcome pairRun.fresh).2
      compiled.units.any fun unit =>
        (Metadata.text unit compiled.context.catalog).toOption.any fun metadata =>
          (outcome (writeOutputs "out" outputs : DiskAction Unit) emptyTree).2.readText
            (Path.below "out" (unit.name ++ ".meta")) ≠ .ok metadata) = true := by
    decide +kernel
  obtain ⟨done, hcompile, -⟩ := Action.outcome_eq_ok_of_any hcompile
  obtain ⟨outputs, houtputs, hlost⟩ := eq_ok_of_any hlost
  obtain ⟨hwritten, hlost⟩ := Bool.and_eq_true_iff.mp hlost
  obtain ⟨done, hwritten, -⟩ := Action.outcome_eq_ok_of_any hwritten
  obtain ⟨unit, hunit, hlost⟩ := List.any_eq_true.mp hlost
  obtain ⟨metadata, hmetadata, hlost⟩ := eq_ok_of_any hlost
  exact ⟨outputs, _, _, unit, metadata, houtputs, hwritten, hcompile, hunit, hmetadata,
    of_decide_eq_true hlost⟩

/-- Under names of their own, both units have their texts. -/
theorem pairRegistry_intact : ∃ outputs tree',
    (pairRun.outputs (pairRegistry "more_fields")).outcome = .ok outputs ∧
      outcome (writeOutputs "out" outputs : DiskAction Unit) emptyTree = (.ok (), tree') ∧
      ∃ (compiled : Compilation) (rendered : List RenderedUnit),
        (Compilation.compile (pairRegistry "more_fields")).outcome pairRun.fresh = (.ok (), compiled) ∧
        rendered.map (·.unit) = compiled.units ∧
        rendered.map (·.unit.name) = ["fields", "more_fields"] ∧
        ∀ r ∈ rendered, r.Intact tree' "out" := by
  have hnames : ((Compilation.compile (pairRegistry "more_fields")).outcome
      pairRun.fresh).2.units.map (·.name) = ["fields", "more_fields"] := by decide +kernel
  have hrun : (pairRun.outputs (pairRegistry "more_fields")).outcome.toOption.any (fun outputs =>
      (outcome (writeOutputs "out" outputs : DiskAction Unit) emptyTree).1.toOption.any
        fun _ => true) = true := by
    decide +kernel
  obtain ⟨outputs, houtputs, hwritten⟩ := eq_ok_of_any hrun
  obtain ⟨done, hwritten, -⟩ := Action.outcome_eq_ok_of_any hwritten
  obtain ⟨compiled, rendered, hcompile, -, hunits, -, -, hplain⟩ :=
    written_units_intact_iff houtputs hwritten
  rw [hcompile, ← hunits, List.map_map] at hnames
  have hslash : ∀ r ∈ rendered, '/' ∉ r.unit.name.toList := by
    have hall : ∀ name ∈ ["fields", "more_fields"], '/' ∉ name.toList := by decide
    intro r hr
    exact hall _ (hnames ▸ List.mem_map_of_mem hr)
  have hnodup : (rendered.map fun r => r.unit.name).Nodup := by
    rw [show rendered.map (fun r => r.unit.name) = _ from hnames]
    decide
  refine ⟨outputs, _, houtputs, hwritten, compiled, rendered, hcompile, hunits, hnames,
    (hplain hslash).1.mpr fun r hr r' hr' hname => ?_⟩
  rw [List.inj_on_of_nodup_map hnodup hr hr' hname]
  exact ⟨rfl, rfl⟩

end Generation

end FieldRegistry
