import FieldRegistry.Disk.Tree
import FieldRegistry.Generation
import FieldRegistry.Proofs.Outcome

/-!
# Runs on a disk

A run first finds out all that can go wrong with its document: it reads the registry file, looks for a
schema, holds the document to it, compiles every section and renders every file. None of these steps
changes the disk, and nothing is assumed of the validator for schema files. Only a run that has all its
files goes on to write them, and what fails from then on is the disk itself.
-/

namespace FieldRegistry

/-- A step of a run, on a disk in memory. -/
abbrev DiskAction := Action Failure FileTree

/-- What fails when files are written. -/
def Failure.OnDisk : Failure → Prop
  | .document _ | .registry _ => False
  | .outputDirectory .. | .outputFile .. | .noWorkingDirectory _ => True

namespace Generation

open FieldRegistry.Action (ReadOnly outcome)

variable {run : Generation} {path : String} {tree : FileTree}
  {result : Except Failure Verdict}

/-! ## Steps that only look at the disk -/

@[simp] theorem outcome_journal {α : Type} (x : Logged α) :
    outcome (journal x : DiskAction α) tree = (.ok x.value, tree) := rfl

theorem outcome_read (path : String) :
    outcome (liftM (Disk.read path : StateT FileTree Logged _) : DiskAction _) tree =
      (.ok (tree.readText path), tree) := rfl

theorem outcome_ofChecked {ε α : Type} (report : ε → Failure) (x : Checked ε α) :
    outcome (ofChecked report x : DiskAction α) tree = (x.outcome.mapError report, tree) := by
  unfold ofChecked
  rw [Action.outcome_bind_of_ok (outcome_journal _)]
  unfold Checked.outcome
  cases x.run.value <;> rfl

/-- The document in the registry file at a path. -/
def documentAt (tree : FileTree) (path : String) : Except Failure RegistryDocument :=
  match tree.readText path with
  | .error cause => .error (.document (.unreadable path cause.text))
  | .ok text => (RegistryDocument.parse path text).outcome.mapError .document

theorem outcome_readDocument :
    outcome (readDocument path : DiskAction RegistryDocument) tree = (documentAt tree path, tree) := by
  unfold readDocument documentAt
  rw [Action.outcome_bind_of_ok (outcome_journal _),
    Action.outcome_bind_of_ok (outcome_read path)]
  cases tree.readText path with
  | error cause => rfl
  | ok text => exact outcome_ofChecked _ _

theorem readOnly_journal {α : Type} (x : Logged α) : ReadOnly (journal x : DiskAction α) :=
  fun _ => rfl

theorem readOnly_schemaFile? (version : Version) (directories : List String) :
    ReadOnly (schemaFile? version directories : DiskAction (Option String)) := by
  induction directories with
  | nil => exact Action.readOnly_pure none
  | cons directory others ih =>
      unfold schemaFile?
      refine (readOnly_journal _).bind fun _ => ReadOnly.bind (fun _ => rfl) fun found => ?_
      cases found with
      | true => exact Action.readOnly_pure _
      | false => exact ih

theorem readOnly_readSchema (version : Version) (path : String) :
    ReadOnly (run.readSchema version path : DiskAction Schema.Check) := by
  unfold readSchema
  refine (readOnly_journal _).bind fun _ => ReadOnly.bind (fun _ => rfl) fun result => ?_
  cases result with
  | error cause => exact Action.readOnly_throw _
  | ok text =>
      dsimp only
      cases (Json.parse text).toOption.bind run.validator with
      | none => exact Action.readOnly_throw _
      | some check => exact Action.readOnly_pure check

theorem readOnly_violations (document : RegistryDocument) :
    ReadOnly (run.violations document : DiskAction (List String)) := by
  unfold violations schemaFor
  refine ReadOnly.bind ((readOnly_schemaFile? _ _).bind fun found => ?_)
    fun check => Action.readOnly_pure _
  cases found with
  | some path => exact readOnly_readSchema _ _
  | none =>
      dsimp only
      cases Schema.builtIn? document.version with
      | none => exact Action.readOnly_throw _
      | some schema => exact Action.readOnly_pure schema.violations

/-- What the schema that a run finds says against a document, if it finds one. -/
def judgement (run : Generation) (tree : FileTree) (document : RegistryDocument) :
    Except Failure (List String) :=
  (outcome (run.violations document : DiskAction (List String)) tree).1

theorem outcome_violations (document : RegistryDocument) :
    outcome (run.violations document : DiskAction (List String)) tree =
      (run.judgement tree document, tree) :=
  (readOnly_violations document).outcome_eq rfl

/-- The compilation that a run starts from. -/
def fresh (run : Generation) : Compilation := .start run.dycore (.parse run.settings)

theorem outcome_outputs (root : Node) :
    (run.outputs root).outcome =
      match (Compilation.compile root).outcome run.fresh with
      | (.error fault, _) => .error fault
      | (.ok (), compiled) => ((Compilation.generate run.style).outcome compiled).1 := by
  have h : (run.outputs root).outcome =
      ((Compilation.compile root >>= fun _ => Compilation.generate run.style :
        Action Fault Compilation (List Output)).outcome run.fresh).1 := rfl
  rw [h, Action.outcome_bind]
  rcases (Compilation.compile root).outcome run.fresh with ⟨fault | done, compiled⟩ <;> rfl

/-- What comes of a document: its files, or the messages of the schema. -/
def examine (run : Generation) (path : String) (tree : FileTree) (document : RegistryDocument) :
    Except Failure (Except (List String) (List Output)) := do
  let messages ← run.judgement tree document
  if messages.isEmpty then
    let outputs ← (run.outputs document.root).outcome.mapError .registry
    return .ok outputs
  else if run.refuseInvalid then throw (.document (.invalid path messages))
  else return .error messages

/-- All that a run finds out before it writes, as a function of the disk. -/
def findings (run : Generation) (path : String) (tree : FileTree) :
    Except Failure (Except (List String) (List Output)) :=
  documentAt tree path >>= run.examine path tree

theorem outcome_prepare : outcome (run.prepare path) tree = (run.findings path tree, tree) := by
  unfold prepare findings
  rw [Action.outcome_bind, outcome_readDocument]
  cases documentAt tree path with
  | error failure => rfl
  | ok document =>
      dsimp only
      rw [Action.outcome_bind, outcome_violations, ok_bind, examine]
      cases run.judgement tree document with
      | error failure => rfl
      | ok messages =>
          dsimp only [ok_bind]
          cases messages.isEmpty with
          | true =>
              simp only [if_true]
              rw [Action.outcome_bind_of_ok (outcome_journal _), Action.outcome_bind, outcome_ofChecked]
              cases (run.outputs document.root).outcome <;> rfl
          | false => cases run.refuseInvalid <;> rfl

theorem outcome_perform :
    outcome (run.perform path) tree =
      match run.findings path tree with
      | .error failure => (.error failure, tree)
      | .ok (.error _) => (.ok .invalid, tree)
      | .ok (.ok outputs) =>
        ((outcome (writeOutputs run.outputDirectory outputs) tree).1.map fun _ => .written,
          (outcome (writeOutputs run.outputDirectory outputs) tree).2) := by
  unfold perform
  rw [Action.outcome_bind, outcome_prepare]
  rcases run.findings path tree with failure | messages | outputs
  · rfl
  · rfl
  · dsimp only
    rw [Action.outcome_bind]
    rcases outcome (writeOutputs run.outputDirectory outputs) tree with ⟨failure | done, tree'⟩ <;> rfl

/-! ## Failures while files are written -/

theorem raises_writeOutput (directory : String) (output : Output) :
    Action.Raises Failure.OnDisk (writeOutput directory output : DiskAction Unit) := by
  unfold writeOutput
  refine Action.Raises.bind (fun _ => raises_ok _) fun _ _ _ _ => ?_
  refine Action.Raises.bind (fun _ => raises_ok _) fun result _ _ _ => ?_
  cases result with
  | error cause => exact fun _ => raises_error trivial
  | ok done => exact fun _ => raises_ok _

theorem raises_writeOutputs (directory : String) (outputs : List Output) :
    Action.Raises Failure.OnDisk (writeOutputs directory outputs : DiskAction Unit) := by
  unfold writeOutputs
  refine Action.Raises.bind (fun _ => raises_ok _) fun result _ _ _ => ?_
  cases result with
  | error cause => exact fun _ => raises_error trivial
  | ok done => exact Action.raises_forM fun output _ => raises_writeOutput directory output

/-! ## Where a run ends before it writes -/

/-- The registry file at a path holds a document. -/
def Holds (tree : FileTree) (path : String) (document : RegistryDocument) : Prop :=
  ∃ text, tree.readText path = .ok text ∧ (RegistryDocument.parse path text).outcome = .ok document

/-- The ends of a run at which nothing was written. -/
inductive EndsEarly (run : Generation) (path : String) (tree : FileTree) :
    Except Failure Verdict → Prop
  | unreadable {cause : Disk.Cause} : tree.readText path = .error cause →
      EndsEarly run path tree (.error (.document (.unreadable path cause.text)))
  | noDocument {text : String} {fault : DocumentFault} : tree.readText path = .ok text →
      (RegistryDocument.parse path text).outcome = .error fault →
      EndsEarly run path tree (.error (.document fault))
  | noSchema {document : RegistryDocument} {failure : Failure} : Holds tree path document →
      run.judgement tree document = .error failure → EndsEarly run path tree (.error failure)
  | invalid {document : RegistryDocument} {messages : List String} : Holds tree path document →
      run.judgement tree document = .ok messages → messages ≠ [] →
      EndsEarly run path tree (if run.refuseInvalid then .error (.document (.invalid path messages))
        else .ok .invalid)
  | noCompilation {document : RegistryDocument} {compiled : Compilation} {fault : Fault} :
      Holds tree path document → run.judgement tree document = .ok [] →
      (Compilation.compile document.root).outcome run.fresh = (.error fault, compiled) →
      EndsEarly run path tree (.error (.registry fault))
  | noFiles {document : RegistryDocument} {compiled : Compilation} {fault : Fault} :
      Holds tree path document → run.judgement tree document = .ok [] →
      (Compilation.compile document.root).outcome run.fresh = (.ok (), compiled) →
      ((Compilation.generate run.style).outcome compiled).1 = .error fault →
      EndsEarly run path tree (.error (.registry fault))

theorem documentAt_eq_ok {document : RegistryDocument} (h : Holds tree path document) :
    documentAt tree path = .ok document := by
  obtain ⟨text, htext, hdocument⟩ := h
  rw [documentAt, htext]
  dsimp only
  rw [hdocument]
  rfl

/-- A run that ends early leaves the disk as it is. -/
theorem EndsEarly.outcome_eq (h : run.EndsEarly path tree result) :
    outcome (run.perform path) tree = (result, tree) := by
  rw [outcome_perform, findings]
  cases h with
  | unreadable htext =>
      rw [documentAt, htext]
      rfl
  | noDocument htext hdocument =>
      rw [documentAt, htext]
      dsimp only
      rw [hdocument]
      rfl
  | noSchema hholds hjudgement =>
      rw [documentAt_eq_ok hholds, ok_bind, examine, hjudgement]
      rfl
  | invalid hholds hjudgement hne =>
      rw [documentAt_eq_ok hholds, ok_bind, examine, hjudgement, ok_bind]
      cases run.refuseInvalid <;> simp [hne] <;> rfl
  | noCompilation hholds hjudgement hcompile =>
      rw [documentAt_eq_ok hholds, ok_bind, examine, hjudgement, ok_bind, outcome_outputs, hcompile]
      rfl
  | noFiles hholds hjudgement hcompile hgenerate =>
      rw [documentAt_eq_ok hholds, ok_bind, examine, hjudgement, ok_bind, outcome_outputs,
        hcompile]
      dsimp only
      rw [hgenerate]
      rfl

theorem endsEarly_or_writes (run : Generation) (path : String) (tree : FileTree) :
    (∃ result, run.EndsEarly path tree result) ∨
      ∃ outputs, run.findings path tree = .ok (.ok outputs) := by
  cases htext : tree.readText path with
  | error cause => exact Or.inl ⟨_, .unreadable htext⟩
  | ok text =>
      cases hdocument : (RegistryDocument.parse path text).outcome with
      | error fault => exact Or.inl ⟨_, .noDocument htext hdocument⟩
      | ok document =>
          have hholds : Holds tree path document := ⟨text, htext, hdocument⟩
          cases hjudgement : run.judgement tree document with
          | error failure => exact Or.inl ⟨_, .noSchema hholds hjudgement⟩
          | ok messages =>
              cases messages with
              | cons message rest =>
                  exact Or.inl ⟨_, .invalid hholds hjudgement (List.cons_ne_nil _ _)⟩
              | nil =>
                  have hfindings : run.findings path tree =
                      ((run.outputs document.root).outcome.mapError .registry).map .ok := by
                    rw [findings, documentAt_eq_ok hholds, ok_bind, examine, hjudgement, ok_bind]
                    rfl
                  rcases hcompile : (Compilation.compile document.root).outcome run.fresh with
                    ⟨fault | done, compiled⟩
                  · exact Or.inl ⟨_, .noCompilation hholds hjudgement hcompile⟩
                  · cases hgenerate : ((Compilation.generate run.style).outcome compiled).1 with
                    | error fault => exact Or.inl ⟨_, .noFiles hholds hjudgement hcompile hgenerate⟩
                    | ok outputs =>
                        refine Or.inr ⟨outputs, ?_⟩
                        rw [hfindings, outcome_outputs, hcompile]
                        dsimp only
                        rw [hgenerate]
                        rfl

/-- A run that ends with an invalid document, or fails for a document or for a registry, leaves the disk
as it was, at whatever point it ends and whatever its validator makes of a schema file: every end that
comes before writing is reported as it is, and the ends of these kinds are the ones that come before
writing. -/
theorem failed_run_writes_nothing (run : Generation) (path : String) (tree : FileTree) :
    (∀ result tree', outcome (run.perform path) tree = (result, tree') →
      (result = .ok .invalid ∨ (∃ fault, result = .error (.document fault)) ∨
        ∃ fault, result = .error (.registry fault)) →
      tree' = tree ∧ run.EndsEarly path tree result) ∧
    ∀ result, run.EndsEarly path tree result → outcome (run.perform path) tree = (result, tree) := by
  refine ⟨fun result tree' h hkind => ?_, fun result => EndsEarly.outcome_eq⟩
  rcases run.endsEarly_or_writes path tree with ⟨result', hends⟩ | ⟨outputs, houtputs⟩
  · rw [hends.outcome_eq] at h
    cases h
    exact ⟨rfl, hends⟩
  · -- a run with files ends with them or fails on the disk
    rw [outcome_perform, houtputs] at h
    have hraises := raises_writeOutputs run.outputDirectory outputs tree
    cases hwrite : (outcome (writeOutputs run.outputDirectory outputs : DiskAction Unit) tree).1 with
    | ok done =>
        simp only [hwrite, Except.map, Prod.mk.injEq] at h
        rcases hkind with rfl | ⟨fault, rfl⟩ | ⟨fault, rfl⟩ <;> cases h.1
    | error failure =>
        have hdisk := hraises failure hwrite
        simp only [hwrite, Except.map, Prod.mk.injEq] at h
        rcases hkind with rfl | ⟨fault, rfl⟩ | ⟨fault, rfl⟩ <;> cases h.1 <;> cases hdisk

/-- The lines of a registry with two files. The second one has an array of the type that the first one
defines, which can be compiled but not generated. -/
def columnsLines : List String :=
  ["\x7b\"tag\":\"registry\",",
   "\"attributes\":\x7b\"name\":\"sample\",", "\"version\":\"1.0\"\x7d,", "\"children\":[",
   "\x7b\"tag\":\"file\",",
   "\"attributes\":\x7b\"name\":\"state_types\",", "\"type\":\"module\"\x7d,", "\"children\":[",
   "\x7b\"tag\":\"variable\",", "\"attributes\":\x7b\"local_name\":\"t\",",
   "\"standard_name\":\"temperature\",", "\"type\":\"real\"\x7d\x7d,",
   "\x7b\"tag\":\"ddt\",", "\"attributes\":\x7b\"type\":\"state\"\x7d,",
   "\"children\":[\x7b\"tag\":\"data\",", "\"text\":\"temperature\"\x7d]\x7d]\x7d,",
   "\x7b\"tag\":\"file\",",
   "\"attributes\":\x7b\"name\":\"host_fields\",", "\"type\":\"module\"\x7d,", "\"children\":[",
   "\x7b\"tag\":\"array\",", "\"attributes\":\x7b\"allocatable\":\"pointer\",",
   "\"local_name\":\"columns\",", "\"standard_name\":\"columns\",", "\"type\":\"state\"\x7d,",
   "\"children\":[\x7b\"tag\":\"dimensions\",", "\"text\":\"columns\"\x7d]\x7d]\x7d]\x7d"]

def columnsTree : FileTree := ⟨[(["registry.json"], .text (String.join columnsLines))], []⟩

/-- The same registry next to a schema that allows nothing. -/
def closedTree : FileTree :=
  columnsTree.put ["registry_v1_0.schema.json"] (.text "false")

/-- A validator for the two constant schemas. -/
def constantSchemas : Schema.Validator
  | .bool true => some fun _ => []
  | .bool false => some fun value => [⟨"False schema does not allow " ++ value.text, []⟩]
  | _ => none

def columnsRun : Generation where
  dycore := "se"
  settings := ""
  outputDirectory := "out"
  validator := constantSchemas

/-- Both files are compiled and the first one is rendered before the fault is found. Next to a schema that
allows nothing the document is invalid. -/
theorem columnsTree_unchanged :
    let fault := Fault.unsupported "Arrays of DDT objects not implemented" "columns" "host_fields"
    (outcome (columnsRun.perform "registry.json") columnsTree =
        (.error (.registry fault), columnsTree) ∧
      columnsRun.EndsEarly "registry.json" columnsTree (.error (.registry fault))) ∧
    outcome (columnsRun.perform "registry.json") closedTree = (.ok .invalid, closedTree) := by
  intro fault
  have hjson : Json.parse (String.join columnsLines) =
      (Json.readValue .strict Json.maxDepth (columnsLines.flatMap String.toList)).bind Json.finish := by
    rw [Json.parse, String.toList_join]
  have hdocument : (RegistryDocument.parse "registry.json"
      (String.join columnsLines)).outcome.toOption.any (fun document =>
        (columnsRun.judgement columnsTree document).toOption.any List.isEmpty &&
        (columnsRun.judgement closedTree document).toOption.any (!·.isEmpty) &&
        match (Compilation.compile document.root).outcome columnsRun.fresh with
        | (.ok (), compiled) =>
          match ((Compilation.generate columnsRun.style).outcome compiled).1 with
          | .error found => decide (found = fault)
          | .ok _ => false
        | (.error _, _) => false) = true := by
    unfold RegistryDocument.parse
    rw [hjson]
    decide +kernel
  obtain ⟨document, hparse, hrest⟩ := eq_ok_of_any hdocument
  obtain ⟨hjudgements, hrest⟩ := Bool.and_eq_true_iff.mp hrest
  obtain ⟨hvalid, hinvalid⟩ := Bool.and_eq_true_iff.mp hjudgements
  constructor
  · obtain ⟨messages, hmessages, hempty⟩ := eq_ok_of_any hvalid
    rw [List.isEmpty_iff.mp hempty] at hmessages
    have hholds : Holds columnsTree "registry.json" document := ⟨_, rfl, hparse⟩
    have hends : columnsRun.EndsEarly "registry.json" columnsTree (.error (.registry fault)) := by
      split at hrest
      · rename_i compiled hcompile
        split at hrest
        · rename_i found hgenerate
          rw [of_decide_eq_true hrest] at hgenerate
          exact .noFiles hholds hmessages hcompile hgenerate
        · cases hrest
      · cases hrest
    have hrun := (failed_run_writes_nothing columnsRun "registry.json" columnsTree).2 _ hends
    exact ⟨hrun, ((failed_run_writes_nothing columnsRun "registry.json" columnsTree).1 _ _ hrun
      (Or.inr (Or.inr ⟨fault, rfl⟩))).2⟩
  · obtain ⟨messages, hmessages, hne⟩ := eq_ok_of_any hinvalid
    have hholds : Holds closedTree "registry.json" document := ⟨_, rfl, hparse⟩
    have hends := EndsEarly.invalid hholds hmessages (by simpa using hne)
    exact (failed_run_writes_nothing columnsRun "registry.json" closedTree).2 _ hends

end Generation

end FieldRegistry
