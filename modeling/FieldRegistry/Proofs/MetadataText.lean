import FieldRegistry.Metadata
import FieldRegistry.Proofs.DeclaredShapes
import FieldRegistry.Proofs.VariableHistory

/-!
# Metadata texts show the public variables

A metadata text has optional lines, three forms of the line with the type, a list of dimensions that may
have commas in them, and the same keys in the heads of tables and in their entries. It can be read back
nevertheless: files with the same text have the same tables with the same entries, as long as nothing
that is described has a line feed.
-/

namespace FieldRegistry

open Text (OneLine)

/-! ## What is described -/

namespace Metadata

/-- What metadata say about a variable or an array element. -/
@[ext] structure Description where
  localName : String
  standardName : String
  longName : Option String
  units : String
  typeName : String
  isAggregate : Bool
  kind : String
  dimensions : List String
  isProtected : Bool
deriving DecidableEq

/-- A scope or a derived type with its public variables. -/
@[ext] structure Listing where
  name : String
  kind : String
  descriptions : List Description
deriving DecidableEq

/-- The texts of a description that the registry may choose freely. -/
def Description.texts (x : Description) : List String :=
  [x.localName, x.standardName, x.units, x.typeName, x.kind] ++ x.longName.toList

/-- Nothing that is described has a line feed. -/
structure Listing.Plain (listing : Listing) : Prop where
  name : OneLine listing.name
  kind : OneLine listing.kind
  descriptions : ∀ x ∈ listing.descriptions, ∀ text ∈ x.texts, OneLine text

theorem Listing.plain_iff (listing : Listing) : listing.Plain ↔
    OneLine listing.name ∧ OneLine listing.kind ∧
      ∀ x ∈ listing.descriptions, ∀ text ∈ x.texts, OneLine text :=
  ⟨fun h => ⟨h.name, h.kind, h.descriptions⟩, fun h => ⟨h.1, h.2.1, h.2.2⟩⟩

instance (listing : Listing) : Decidable listing.Plain := decidable_of_iff' _ listing.plain_iff

end Metadata

open Metadata (Description Listing)

def Quantity.description (q : Quantity) (isProtected : Bool) : Description where
  localName := q.localName
  standardName := q.standardName
  longName := q.longName
  units := q.units
  typeName := q.type.name
  isAggregate := q.type.isAggregate
  kind := q.kind
  dimensions := q.dimensions
  isProtected := isProtected

/-- A variable and then its elements. Parameters are protected. -/
def Variable.descriptions (v : Variable) : List Description :=
  v.toQuantity.description (v.storage == .parameter || v.isProtected) ::
    v.elements.map fun e => e.toQuantity.description false

/-- The listings of the types `own` of a file and of the file itself. -/
def FileUnit.listings (unit : FileUnit) (own : List Aggregate) : List Listing :=
  let descriptions (vs : List Variable) :=
    (vs.filter fun v => v.access == .everywhere).flatMap (·.descriptions)
  own.map (fun a => ⟨a.name, "ddt", descriptions a.members⟩) ++
    [⟨unit.dictionary.name, unit.dictionary.kind, descriptions unit.dictionary.declared⟩]

namespace Metadata

/-! ## Lines of an entry -/

def Entry.description (entry : Entry) : Description :=
  entry.quantity.description entry.isProtected

/-- What holds of every description: a derived type has no kind, any other type is an intrinsic one, and
the dimensions are words. -/
structure Description.Regular (x : Description) : Prop where
  kind : x.isAggregate = true → x.kind = ""
  typeName : x.isAggregate = false → x.typeName ∈ Catalog.intrinsicNames
  dimensions : ∀ token ∈ x.dimensions, Text.IsWord token

def Listing.Regular (listing : Listing) : Prop := ∀ x ∈ listing.descriptions, x.Regular

variable {q q' : Quantity} {p p' : Bool} {e e' : Entry} {t t' : Table} {us us' : List String}

theorem typeText_of_aggregate (h : q.type.isAggregate = true) :
    typeText q = "  ddt_type = " ++ q.type.name := by
  simp [typeText, h]

theorem typeText_of_intrinsic (h : q.type.isAggregate = false) :
    typeText q = "  type = " ++ (q.type.name ++ if q.kind = "" then "" else " | kind = " ++ q.kind) := by
  by_cases hkind : q.kind = "" <;> simp [typeText, h, hkind, String.append_assoc]

/-- A kind follows the first space after an intrinsic type. -/
theorem kindText_inj {name name' kind kind' : String} (hname : ' ' ∉ name.toList)
    (hname' : ' ' ∉ name'.toList)
    (h : (name ++ if kind = "" then "" else " | kind = " ++ kind) =
      name' ++ if kind' = "" then "" else " | kind = " ++ kind') :
    name = name' ∧ kind = kind' := by
  have hmark : " | kind = ".toList = ' ' :: "| kind = ".toList := by decide
  have hlist := congrArg String.toList h
  by_cases hk : kind = "" <;> by_cases hk' : kind' = ""
  · simp only [hk, hk', if_true, String.append_empty] at h ⊢
    exact ⟨h, trivial⟩
  · simp only [hk, hk', if_true, if_false, String.append_empty, String.toList_append, hmark] at hlist
    exact absurd (by simp [hlist]) hname
  · simp only [hk, hk', if_true, if_false, String.append_empty, String.toList_append, hmark] at hlist
    exact absurd (by simp [← hlist]) hname'
  · simp only [hk, hk', if_false, String.toList_append, hmark, List.cons_append] at hlist
    obtain ⟨hn, hrest⟩ := append_cons_inj_of_first hname hname' hlist
    exact ⟨String.toList_inj.mp hn, String.toList_inj.mp (List.append_cancel_left hrest)⟩

theorem typeText_inj (hq : (q.description p).Regular) (hq' : (q'.description p').Regular)
    (h : typeText q = typeText q') :
    q.type.name = q'.type.name ∧ q.type.isAggregate = q'.type.isAggregate ∧ q.kind = q'.kind := by
  have hspace : ∀ name ∈ Catalog.intrinsicNames, ' ' ∉ name.toList := by decide
  have hapart : Text.Apart "  ddt_type = " "  type = " := by decide
  cases ha : q.type.isAggregate <;> cases ha' : q'.type.isAggregate
  · rw [typeText_of_intrinsic ha, typeText_of_intrinsic ha'] at h
    obtain ⟨hname, hkind⟩ := kindText_inj (hspace _ (hq.typeName ha)) (hspace _ (hq'.typeName ha'))
      ((String.append_right_inj _).mp h)
    exact ⟨hname, rfl, hkind⟩
  · rw [typeText_of_intrinsic ha, typeText_of_aggregate ha'] at h
    exact absurd h.symm (hapart.append_ne _ _)
  · rw [typeText_of_aggregate ha, typeText_of_intrinsic ha'] at h
    exact absurd h (hapart.append_ne _ _)
  · rw [typeText_of_aggregate ha, typeText_of_aggregate ha'] at h
    exact ⟨(String.append_right_inj _).mp h, rfl, (hq.kind ha).trans (hq'.kind ha').symm⟩

theorem listText_inj {ds ds' : List String} (h : ∀ d ∈ ds, Text.IsWord d) (h' : ∀ d ∈ ds', Text.IsWord d)
    (heq : Dimension.listText ds = Dimension.listText ds') : ds = ds' := by
  have hinner := (String.append_left_inj _).mp heq
  exact Text.join_comma_inj h h' ((String.append_right_inj _).mp hinner)

/-! ## Entries and tables -/

/-- What may follow an entry: nothing, or the head of another entry or table. -/
def OpensBlock (us : List String) : Prop := ∀ line ∈ us.head?, ∃ rest, line = "[" ++ rest

/-- What may follow a table: nothing, or another table. -/
def OpensTable (us : List String) : Prop := ∀ line ∈ us.head?, line = "[ccpp-arg-table]"

theorem longName_append_inj {longName longName' : Option String} {units units' : String}
    (h : (longName.elim [] fun longName => ["  long_name = " ++ longName]) ++
        ("  units = " ++ units) :: us =
      (longName'.elim [] fun longName => ["  long_name = " ++ longName]) ++
        ("  units = " ++ units') :: us') :
    longName = longName' ∧ units = units' ∧ us = us' := by
  have hapart : Text.Apart "  long_name = " "  units = " := by decide
  cases longName with
  | none =>
      cases longName' with
      | none =>
          obtain ⟨hunits, hrest⟩ := List.cons.inj h
          exact ⟨rfl, (String.append_right_inj _).mp hunits, hrest⟩
      | some text => exact absurd (List.cons.inj h).1.symm (hapart.append_ne _ _)
  | some text =>
      cases longName' with
      | none => exact absurd (List.cons.inj h).1 (hapart.append_ne _ _)
      | some text' =>
          obtain ⟨hlong, h⟩ := List.cons.inj h
          obtain ⟨hunits, hrest⟩ := List.cons.inj h
          exact ⟨congrArg some ((String.append_right_inj _).mp hlong),
            (String.append_right_inj _).mp hunits, hrest⟩

theorem protected_append_inj (hus : OpensBlock us) (hus' : OpensBlock us')
    (h : (if p then ["  protected = True"] else []) ++ us =
      (if p' then ["  protected = True"] else []) ++ us') : p = p' ∧ us = us' := by
  have hapart : Text.Apart "  protected = True" "[" := by decide
  have hno : ∀ {vs : List String}, OpensBlock vs → vs.head? ≠ some "  protected = True" := by
    intro vs hvs hhead
    obtain ⟨rest, hrest⟩ := hvs _ hhead
    exact hapart.append_ne "" rest (by rw [String.append_empty, hrest])
  cases p <;> cases p'
  · exact ⟨rfl, h⟩
  · exact absurd (by rw [show us = _ from h]; rfl) (hno hus)
  · exact absurd (by rw [show us' = _ from h.symm]; rfl) (hno hus')
  · exact ⟨rfl, (List.cons.inj h).2⟩

/-- An entry is read back from its lines and those that follow them. -/
theorem Entry.texts_append_inj (he : e.description.Regular) (he' : e'.description.Regular)
    (hus : OpensBlock us) (hus' : OpensBlock us') (h : e.texts ++ us = e'.texts ++ us') :
    e.description = e'.description ∧ us = us' := by
  simp only [Entry.texts, List.append_assoc, List.cons_append, List.nil_append, List.cons.injEq] at h
  obtain ⟨hlocal, hstandard, h⟩ := h
  obtain ⟨hlong, hunits, h⟩ := longName_append_inj h
  obtain ⟨htype, h⟩ := List.cons.inj h
  obtain ⟨hdimensions, h⟩ := List.cons.inj h
  obtain ⟨hprotected, hrest⟩ := protected_append_inj hus hus' h
  obtain ⟨hname, hagg, hkind⟩ := typeText_inj he he' htype
  rw [String.append_left_inj, String.append_right_inj] at hlocal
  rw [String.append_right_inj] at hstandard hdimensions
  have hdimensions := listText_inj he.dimensions he'.dimensions hdimensions
  exact ⟨Description.ext hlocal hstandard hlong hunits hname hagg hkind hdimensions hprotected, hrest⟩

def Table.listing (table : Table) : Listing :=
  ⟨table.name, table.kind, table.entries.map Entry.description⟩

theorem Table.regular_iff : t.listing.Regular ↔ ∀ e ∈ t.entries, e.description.Regular :=
  List.forall_mem_map

theorem opensBlock_entries (es : List Entry) (hus : OpensTable us) :
    OpensBlock (es.flatMap Entry.texts ++ us) := by
  intro line hline
  cases es with
  | nil =>
      refine ⟨"ccpp-arg-table]", ?_⟩
      rw [hus line hline]
      rfl
  | cons e es =>
      cases hline
      refine ⟨" " ++ e.quantity.localName ++ " ]", ?_⟩
      simp only [← String.append_assoc]
      rfl

theorem Entry.texts_append_ne (e : Entry) (us : List String) (hus' : OpensTable us') :
    e.texts ++ us ≠ us' := by
  rintro rfl
  have hapart : Text.Apart "[ " "[ccpp-arg-table]" := by decide
  have hhead : "[ " ++ e.quantity.localName ++ " ]" = "[ccpp-arg-table]" := hus' _ rfl
  rw [String.append_assoc] at hhead
  exact hapart.append_ne _ "" (hhead.trans String.append_empty.symm)

/-- A table is read back from its lines and those that follow them. -/
theorem Table.texts_append_inj (ht : t.listing.Regular) (ht' : t'.listing.Regular)
    (hus : OpensTable us) (hus' : OpensTable us') (h : t.texts ++ us = t'.texts ++ us') :
    t.listing = t'.listing ∧ us = us' := by
  simp only [Table.texts, List.cons_append, List.nil_append, List.cons.injEq,
    String.append_right_inj, true_and] at h
  obtain ⟨hname, hkind, h⟩ := h
  obtain ⟨hentries, hrest⟩ := flatMap_append_inj
    (fun _ _ _ _ => Entry.texts_append_inj) (fun es _ => opensBlock_entries es)
    (fun e us _ => e.texts_append_ne us) (regular_iff.mp ht) (regular_iff.mp ht') hus hus' h
  exact ⟨Listing.ext hname hkind hentries, hrest⟩

theorem opensTable_tables (ts : List Table) (hus : us = []) :
    OpensTable (ts.flatMap Table.texts ++ us) := by
  subst hus
  intro line hline
  cases ts with
  | nil => cases hline
  | cons t ts => cases hline; rfl

theorem oneLine_typeText (hname : OneLine q.type.name) (hkind : OneLine q.kind) :
    OneLine (typeText q) := by
  unfold typeText
  split
  · exact Text.oneLine_append.mpr ⟨by decide, hname⟩
  · split <;> simp only [Text.oneLine_append, hname, hkind, and_true] <;> decide

theorem Entry.oneLine_texts (hr : e.description.Regular)
    (hplain : ∀ text ∈ e.description.texts, OneLine text) : ∀ line ∈ e.texts, OneLine line := by
  simp only [Description.texts, List.forall_mem_append, List.forall_mem_cons] at hplain
  obtain ⟨⟨hlocal, hstandard, hunits, hname, hkind, -⟩, hlong⟩ := hplain
  have hdimensions : OneLine e.quantity.dimensionText := by
    have hjoin := Text.oneLine_join (by decide : OneLine ", ") fun d hd => (hr.dimensions d hd).oneLine
    exact Text.oneLine_append.mpr ⟨Text.oneLine_append.mpr ⟨by decide, hjoin⟩, by decide⟩
  have htype : OneLine (typeText e.quantity) := oneLine_typeText hname hkind
  have hkey : ∀ {key text}, OneLine key → OneLine text → OneLine (key ++ text) := fun hkey htext =>
    Text.oneLine_append.mpr ⟨hkey, htext⟩
  simp only [Entry.texts, List.forall_mem_append, List.forall_mem_cons]
  refine ⟨⟨⟨⟨?_, hkey (by decide) hstandard, by simp⟩, ?_⟩,
    hkey (by decide) hunits, htype, hkey (by decide) hdimensions, by simp⟩, ?_⟩
  · exact hkey (hkey (by decide) hlocal) (by decide)
  · intro line hline
    cases hl : e.quantity.longName with
    | none => simp [hl] at hline
    | some longName =>
        simp only [hl, Option.elim_some, List.mem_singleton] at hline
        subst hline
        exact hkey (by decide) (hlong longName (Option.mem_toList.mpr hl))
  · cases e.isProtected <;> decide

theorem Table.oneLine_texts (hr : t.listing.Regular) (hplain : t.listing.Plain) :
    ∀ line ∈ t.texts, OneLine line := by
  simp only [Table.texts, List.forall_mem_append, List.forall_mem_cons, List.forall_mem_flatMap]
  refine ⟨⟨by decide, Text.oneLine_append.mpr ⟨by decide, hplain.name⟩,
    Text.oneLine_append.mpr ⟨by decide, hplain.kind⟩, by simp⟩, fun e he => ?_⟩
  exact e.oneLine_texts (regular_iff.mp hr e he) (hplain.descriptions _ (List.mem_map_of_mem he))

theorem Entry.texts_congr (h : e.description = e'.description) : e.texts = e'.texts := by
  simp only [Entry.description, Quantity.description, Description.mk.injEq] at h
  simp only [Entry.texts, typeText, Quantity.dimensionText, h]

theorem Table.texts_congr (h : t.listing = t'.listing) : t.texts = t'.texts := by
  obtain ⟨hname, hkind, hentries⟩ := Listing.mk.inj h
  rw [Table.texts, Table.texts, hname, hkind,
    flatMap_eq_of_forall₂ (forall₂_of_map_eq hentries) fun _ _ => Entry.texts_congr]

/-- Tables are shown by their text. -/
theorem render_eq_iff {ts ts' : List Table} (hr : ∀ t ∈ ts, t.listing.Regular)
    (hr' : ∀ t ∈ ts', t.listing.Regular)
    (hplain : ∀ t ∈ ts, t.listing.Plain) (hplain' : ∀ t ∈ ts', t.listing.Plain) :
    render ts = render ts' ↔ ts.map Table.listing = ts'.map Table.listing := by
  constructor
  · intro h
    have hlines : ∀ line ∈ ts.flatMap Table.texts, OneLine line :=
      List.forall_mem_flatMap.mpr fun t ht => t.oneLine_texts (hr t ht) (hplain t ht)
    have hlines' : ∀ line ∈ ts'.flatMap Table.texts, OneLine line :=
      List.forall_mem_flatMap.mpr fun t ht => t.oneLine_texts (hr' t ht) (hplain' t ht)
    have heq := Layout.render_flat_inj hlines hlines' h
    rw [← List.append_nil (ts.flatMap _), ← List.append_nil (ts'.flatMap _)] at heq
    exact (flatMap_append_inj (fun _ _ _ _ => Table.texts_append_inj)
      (fun ts _ => opensTable_tables ts) (fun t us vs hvs heq => by simp [hvs, Table.texts] at heq)
      hr hr' rfl rfl heq).1
  · intro h
    rw [render, render, flatMap_eq_of_forall₂ (forall₂_of_map_eq h) fun _ _ => Table.texts_congr]

/-! ## Files -/

theorem description_entriesOf (vs : List Variable) :
    (vs.flatMap entriesOf).map Entry.description =
      (vs.filter fun v => v.access == .everywhere).flatMap (·.descriptions) := by
  induction vs with
  | nil => rfl
  | cons v vs ih =>
      rw [List.flatMap_cons, List.map_append, ih, entriesOf]
      cases hv : v.access with
      | inModule => simp [hv]
      | everywhere =>
          rw [List.filter_cons_of_pos (by simp [hv]), List.flatMap_cons]
          simp [Variable.descriptions, Entry.description]

theorem tables_eq_ok {unit : FileUnit} {catalog : Catalog} {own : List Aggregate}
    (h : unit.aggregates catalog = .ok own) :
    ∃ ts, tables unit catalog = .ok ts ∧ ts.map Table.listing = unit.listings own := by
  refine ⟨_, by rw [tables, h]; rfl, ?_⟩
  simp [FileUnit.listings, Table.listing, description_entriesOf]

end Metadata

/-! ## What is read is regular -/

section Reading

variable {catalog : Catalog} {d : Dictionary} {node : Node} {v : Variable}

theorem Catalog.Built.intrinsic_of_mem {entry : TypeEntry} (h : catalog.Built)
    (he : entry ∈ catalog.entries) (ha : entry.aggregate = none) : entry.name ∈ intrinsicNames := by
  induction h with
  | refl =>
      obtain ⟨name, hname, rfl⟩ := List.mem_map.mp he
      exact hname
  | define _ _ hr ih =>
      rw [(register_eq_ok hr).2, List.mem_append, List.mem_singleton] at he
      rcases he with he | rfl
      · exact ih he
      · cases ha

theorem Quantity.regular_of_read {scope localName : String} {dimensions : List String}
    {defaults : Quantity.Defaults} {q : Quantity} (hb : catalog.Built)
    (hd : ∀ token ∈ dimensions, Text.IsWord token)
    (h : Quantity.read catalog scope node localName dimensions defaults = .ok q) (isProtected : Bool) :
    (q.description isProtected).Regular where
  kind := (kind_and_storage_of_read h).1
  typeName hagg := by
    obtain ⟨-, -, -, entry, hentry, htype⟩ := Quantity.read_eq_ok h
    have hname := hb.intrinsic_of_mem (Catalog.mem_of_lookup? hentry)
    simp only [Quantity.description, htype, TypeEntry.ref] at hagg ⊢
    exact hname (by simpa using hagg)
  dimensions := by
    rw [show (q.description isProtected).dimensions = dimensions from (Quantity.read_eq_ok h).2.2.1]
    exact hd

theorem Variable.regular_ofNode (hb : catalog.Built)
    (h : (Variable.ofNode catalog d node).outcome = .ok v) : ∀ x ∈ v.descriptions, x.Regular := by
  obtain ⟨storage, shape, -, -, hread, helements, -⟩ := ofNode_eq_ok h
  have htokens := isWord_dimensions h
  rw [(Quantity.read_eq_ok hread).2.2.1] at htokens
  have hv := Quantity.regular_of_read hb htokens hread
  refine List.forall_mem_cons.mpr ⟨hv _, List.forall_mem_map.mpr fun e he => ?_⟩
  obtain ⟨child, -, he⟩ := exists_left_of_forall₂ (forall₂_of_mapM_eq_ok helements) he
  obtain ⟨-, -, -, he, -⟩ := Element.ofNode_eq_ok he
  exact Quantity.regular_of_read hb
    (fun token ht => (hv false).dimensions token (List.mem_of_mem_filter ht)) he false

end Reading

theorem FileUnit.regular_of_mem_listings {unit : FileUnit} {own : List Aggregate}
    (h : ∀ v ∈ unit.dictionary.declared ++ own.flatMap (·.members), ∀ x ∈ v.descriptions, x.Regular) :
    ∀ listing ∈ unit.listings own, listing.Regular := by
  obtain ⟨hdeclared, hmembers⟩ := List.forall_mem_append.mp h
  have hsome : ∀ {vs : List Variable}, (∀ v ∈ vs, ∀ x ∈ v.descriptions, x.Regular) →
      ∀ x ∈ (vs.filter fun v => v.access == .everywhere).flatMap (·.descriptions), x.Regular :=
    fun hvs => List.forall_mem_flatMap.mpr fun v hv => hvs v (List.mem_of_mem_filter hv)
  refine List.forall_mem_append.mpr ⟨List.forall_mem_map.mpr fun a ha => hsome fun v hv => ?_, ?_⟩
  · exact hmembers v (List.mem_flatMap.mpr ⟨a, ha, hv⟩)
  · exact List.forall_mem_singleton.mpr (hsome hdeclared)

theorem Compilation.metadata_eq_ok (dycore : String) (settings : Settings) (requests : List Request) :
    let run := (start dycore settings).after requests
    ∀ unit ∈ run.units, ∃ own ts, unit.aggregates run.context.catalog = .ok own ∧
      Metadata.text unit run.context.catalog = .ok (Metadata.render ts) ∧
      ts.map Metadata.Table.listing = unit.listings own ∧
      ∀ listing ∈ unit.listings own, listing.Regular := by
  intro run unit hu
  obtain ⟨own, hown, hregular⟩ := history_invariant
    (historyInvariant_forall Variable.regular_ofNode) dycore settings requests unit hu
  obtain ⟨ts, hts, hlistings⟩ := Metadata.tables_eq_ok hown
  refine ⟨own, ts, hown, ?_, hlistings, FileUnit.regular_of_mem_listings hregular⟩
  rw [Metadata.text, hts]
  rfl

/-- Every file has a metadata text, and the text shows the listings of the file: two files, of one
registry or of different ones, have the same text if and only if their derived types and scopes have the
same names, kinds and public variables with the same descriptions. -/
theorem metadata_texts_faithful (dycore dycore' : String) (settings settings' : Settings)
    (requests requests' : List Request) :
    let run := (Compilation.start dycore settings).after requests
    let run' := (Compilation.start dycore' settings').after requests'
    ∀ unit ∈ run.units, ∀ unit' ∈ run'.units, ∃ own own' text text',
      unit.aggregates run.context.catalog = .ok own ∧
      unit'.aggregates run'.context.catalog = .ok own' ∧
      Metadata.text unit run.context.catalog = .ok text ∧
      Metadata.text unit' run'.context.catalog = .ok text' ∧
      ((∀ listing ∈ unit.listings own, listing.Plain) →
        (∀ listing ∈ unit'.listings own', listing.Plain) →
        (text = text' ↔ unit.listings own = unit'.listings own')) := by
  intro run run' unit hu unit' hu'
  obtain ⟨own, ts, hown, htext, hts, hr⟩ := Compilation.metadata_eq_ok dycore settings requests unit hu
  obtain ⟨own', ts', hown', htext', hts', hr'⟩ :=
    Compilation.metadata_eq_ok dycore' settings' requests' unit' hu'
  refine ⟨own, own', _, _, hown, hown', htext, htext', fun hplain hplain' => ?_⟩
  rw [← hts] at hr hplain ⊢
  rw [← hts'] at hr' hplain' ⊢
  exact Metadata.render_eq_iff (List.forall_mem_map.mp hr) (List.forall_mem_map.mp hr')
    (List.forall_mem_map.mp hplain) (List.forall_mem_map.mp hplain')

/-! ## Commas and private variables -/

/-- An array with the given dimensions, and the variables `more`. -/
def fluxRegistry (dimensions : String) (more : List Node) : Node where
  tag := "registry"
  children :=
    [{ tag := "file"
       attributes := [("name", "surface_fluxes"), ("type", "module")]
       children :=
         { tag := "array"
           attributes := [("allocatable", "allocatable"), ("kind", "kind_phys"),
             ("local_name", "flux"), ("standard_name", "upward_heat_flux"), ("type", "real"),
             ("units", "W m-2")]
           children := [{ tag := "dimensions", text := some dimensions }] } :: more }]

def hiddenCount : Node where
  tag := "variable"
  attributes := [("access", "private"), ("local_name", "count"),
    ("standard_name", "number_of_fluxes"), ("type", "integer")]

/-- A private variable does not show in the text, but it shows which dimension has the comma. -/
theorem fluxRegistry_shown :
    let run (root : Node) := (Compilation.start "se" []).after [.compile root]
    let base := run (fluxRegistry "columns, levels" [])
    let hidden := run (fluxRegistry "columns, levels" [hiddenCount])
    let moved := run (fluxRegistry "columns ,levels" [])
    (∃ unit ∈ base.units, ∃ unit' ∈ hidden.units, ∃ text,
      unit.dictionary.declared.length ≠ unit'.dictionary.declared.length ∧
      Metadata.text unit base.context.catalog = .ok text ∧
      Metadata.text unit' hidden.context.catalog = .ok text) ∧
    ∃ unit ∈ base.units, ∃ unit' ∈ moved.units, ∃ text text',
      Metadata.text unit base.context.catalog = .ok text ∧
      Metadata.text unit' moved.context.catalog = .ok text' ∧ text ≠ text' := by
  intro run base hidden moved
  have hhidden : ∃ unit ∈ base.units, ∃ unit' ∈ hidden.units,
      unit.dictionary.declared.length ≠ unit'.dictionary.declared.length ∧
      (unit.aggregates base.context.catalog).toOption.any (fun own =>
        (unit'.aggregates hidden.context.catalog).toOption.any fun own' =>
          (∀ listing ∈ unit.listings own, listing.Plain) ∧
          (∀ listing ∈ unit'.listings own', listing.Plain) ∧
          unit.listings own = unit'.listings own') = true := by
    decide +kernel
  have hmoved : ∃ unit ∈ base.units, ∃ unit' ∈ moved.units,
      (unit.aggregates base.context.catalog).toOption.any (fun own =>
        (unit'.aggregates moved.context.catalog).toOption.any fun own' =>
          (∀ listing ∈ unit.listings own, listing.Plain) ∧
          (∀ listing ∈ unit'.listings own', listing.Plain) ∧
          unit.listings own ≠ unit'.listings own') = true := by
    decide +kernel
  have hfaithful (root : Node) := metadata_texts_faithful "se" "se" [] []
    [.compile (fluxRegistry "columns, levels" [])] [.compile root]
  have hshown := hfaithful (fluxRegistry "columns, levels" [hiddenCount])
  have hdiffers := hfaithful (fluxRegistry "columns ,levels" [])
  have hrun (root : Node) : (Compilation.start "se" []).after [.compile root] = run root := rfl
  have hruns : run (fluxRegistry "columns, levels" []) = base ∧
      run (fluxRegistry "columns, levels" [hiddenCount]) = hidden ∧
      run (fluxRegistry "columns ,levels" []) = moved := ⟨rfl, rfl, rfl⟩
  simp only [hrun, hruns] at hshown hdiffers
  -- from here on the registries are not compiled again
  clear_value base hidden moved
  constructor
  · obtain ⟨unit, hu, unit', hu', hlength, hany⟩ := hhidden
    obtain ⟨own, own', text, text', hown, hown', htext, htext', hiff⟩ := hshown unit hu unit' hu'
    rw [hown, hown'] at hany
    obtain ⟨hplain, hplain', heq⟩ := of_decide_eq_true hany
    rw [← (hiff hplain hplain').mpr heq] at htext'
    exact ⟨unit, hu, unit', hu', text, hlength, htext, htext'⟩
  · obtain ⟨unit, hu, unit', hu', hany⟩ := hmoved
    obtain ⟨own, own', text, text', hown, hown', htext, htext', hiff⟩ := hdiffers unit hu unit' hu'
    rw [hown, hown'] at hany
    obtain ⟨hplain, hplain', hne⟩ := of_decide_eq_true hany
    exact ⟨unit, hu, unit', hu', text, text', htext, htext',
      fun heq => hne ((hiff hplain hplain').mp heq)⟩

end FieldRegistry
