import FieldRegistry.Proofs.Inversion
import Mathlib.Data.List.Perm.Basic

/-!
# The history of a dictionary

A dictionary never forgets: every variable that was added is still there or was taken out, its standard
name stays reserved, and its dimension names stay known. `Dictionary.History` ties a dictionary to the
list of all variables that were added and the list of those that were taken out.
-/

namespace FieldRegistry.Dictionary

variable {d d' : Dictionary} {v : Variable} {name : String}

/-! ## Sets of names -/

theorem mem_insertName {names : List String} {x : String} :
    x ∈ insertName names name ↔ x ∈ names ∨ x = name := by
  unfold insertName
  split
  · rename_i h
    have hm : name ∈ names := by simpa using h
    constructor
    · exact Or.inl
    · rintro (hx | rfl)
      · exact hx
      · exact hm
  · simp

theorem mem_foldl_insertName {names known : List String} {x : String} :
    x ∈ names.foldl insertName known ↔ x ∈ known ∨ x ∈ names := by
  induction names generalizing known with
  | nil => simp
  | cons n names ih => rw [List.foldl_cons, ih, mem_insertName, List.mem_cons, or_assoc]

/-! ## Adding -/

theorem declared_eq (d : Dictionary) : d.declared = d.byLocalName.entries.map Prod.snd := rfl

/-- The dimension names that a variable uses. -/
def dimensionNames (v : Variable) : List String := v.dimensions.flatMap Dimension.named

/-- The dictionary after a variable has joined. -/
def extend (d : Dictionary) (v : Variable) : Dictionary := { d with
  byLocalName := d.byLocalName.insert (Text.lower v.localName) v
  reserved := insertName d.reserved (Text.lower v.standardName)
  knownDimensions := (dimensionNames v).foldl insertName d.knownDimensions }

theorem foldl_dimensions (tokens : List String) (d : Dictionary) :
    tokens.foldl (fun d token => { d with
      knownDimensions := (Dimension.named token).foldl insertName d.knownDimensions }) d =
    { d with
      knownDimensions := (tokens.flatMap Dimension.named).foldl insertName d.knownDimensions } := by
  induction tokens generalizing d with
  | nil => rfl
  | cons token tokens ih => rw [List.foldl_cons, ih, List.flatMap_cons, List.foldl_append]

/-- The two checks come before the first change. -/
theorem outcome_add (v : Variable) (d : Dictionary) :
    (add v).outcome d =
      match d.findLocal? v.localName with
      | some other =>
        (.error (.duplicateLocalName v.localName v.standardName d.name
          (if other.standardName == v.standardName then none else some other.standardName)), d)
      | none =>
        if d.reserved.contains (Text.lower v.standardName) then
          (.error (.duplicateStandardName v.standardName v.localName d.name
            ((d.findStandard? v.standardName).map (·.localName))), d)
        else (.ok (), d.extend v) := by
  unfold add
  rw [Action.outcome_bind_of_ok (Action.outcome_get d)]
  cases d.findLocal? v.localName with
  | some other => rfl
  | none =>
      dsimp only
      split
      · rfl
      · rw [Action.outcome_bind_of_ok (Action.outcome_forM_modify _ _ _), foldl_dimensions]
        rfl

/-- A refused variable changes nothing. -/
theorem eq_of_add_error {fault : Fault} (h : (add v).outcome d = (.error fault, d')) : d' = d := by
  rw [outcome_add] at h
  split at h
  · cases h; rfl
  · split at h
    · cases h; rfl
    · cases h

/-- `v` joins `d`, which becomes `d'`. -/
def Adds (d : Dictionary) (v : Variable) (d' : Dictionary) : Prop := (add v).outcome d = (.ok (), d')

theorem adds_iff : d.Adds v d' ↔
    d.findLocal? v.localName = none ∧ Text.lower v.standardName ∉ d.reserved ∧ d' = d.extend v := by
  rw [Adds, outcome_add]
  cases d.findLocal? v.localName with
  | some other => simp
  | none => by_cases hs : Text.lower v.standardName ∈ d.reserved <;> simp [hs, eq_comm]

theorem Adds.fresh (h : d.Adds v d') : d.findLocal? v.localName = none := (adds_iff.mp h).1

theorem Adds.unreserved (h : d.Adds v d') : Text.lower v.standardName ∉ d.reserved :=
  (adds_iff.mp h).2.1

theorem Adds.eq_extend (h : d.Adds v d') : d' = d.extend v := (adds_iff.mp h).2.2

theorem Adds.entries (h : d.Adds v d') :
    d'.byLocalName.entries = d.byLocalName.entries ++ [(Text.lower v.localName, v)] := by
  rw [h.eq_extend]
  exact OrderedMap.entries_insert (OrderedMap.get?_eq_none_iff.mp h.fresh) v

theorem Adds.declared (h : d.Adds v d') : d'.declared = d.declared ++ [v] := by
  simp [declared_eq, h.entries]

theorem Adds.reserved (h : d.Adds v d') :
    d'.reserved = d.reserved ++ [Text.lower v.standardName] := by
  rw [h.eq_extend, extend, insertName,
    if_neg fun hmem => h.unreserved (List.contains_iff_mem.mp hmem)]

theorem Adds.knownDimensions (h : d.Adds v d') :
    d'.knownDimensions = (dimensionNames v).foldl insertName d.knownDimensions := by
  rw [h.eq_extend, extend]

theorem Adds.name_eq (h : d.Adds v d') : d'.name = d.name := by rw [h.eq_extend, extend]

/-! ## Taking out -/

/-- The entry that is found is the one that leaves. -/
theorem take?_eq (d : Dictionary) (name : String) :
    d.take? name =
      (d.byLocalName.entries.find? fun entry => Text.sameLetters entry.2.standardName name).map
        fun entry => (entry.2, { d with byLocalName := d.byLocalName.erase entry.1 }) := by
  unfold take?
  cases hf : d.byLocalName.entries.find? fun entry => Text.sameLetters entry.2.standardName name with
  | none => rfl
  | some entry =>
      have hget : d.byLocalName.get? entry.1 = some entry.2 :=
        OrderedMap.get?_eq_some_iff.mpr (List.mem_of_find?_eq_some hf)
      simp [OrderedMap.remove?, hget]

theorem findStandard?_eq (d : Dictionary) (name : String) :
    d.findStandard? name =
      (d.byLocalName.entries.find? fun entry => Text.sameLetters entry.2.standardName name).map
        Prod.snd := by
  rw [findStandard?, declared_eq, List.find?_map]
  rfl

/-- A variable leaves its place, and the others keep theirs. -/
theorem exists_split_of_take? (h : d.take? name = some (v, d')) :
    Text.lower v.standardName = Text.lower name ∧
      ∃ before key after, d.byLocalName.entries = before ++ (key, v) :: after ∧
        d'.byLocalName.entries = before ++ after ∧
        d' = { d with byLocalName := d.byLocalName.erase key } := by
  rw [take?_eq] at h
  obtain ⟨entry, hf, h⟩ := Option.map_eq_some_iff.mp h
  cases h
  have hs := List.find?_some hf
  obtain ⟨before, after, hsplit⟩ := List.append_of_mem (List.mem_of_find?_eq_some hf)
  exact ⟨sameLetters_iff.mp hs, before, entry.1, after, hsplit, OrderedMap.entries_erase hsplit, rfl⟩

theorem take?_eq_some (h : d.take? name = some (v, d')) :
    Text.lower v.standardName = Text.lower name ∧
      (∃ entries, d' = { d with byLocalName := entries }) ∧ d.declared.Perm (v :: d'.declared) := by
  obtain ⟨hk, before, key, after, hsplit, hrest, hd⟩ := exists_split_of_take? h
  refine ⟨hk, ⟨_, hd⟩, ?_⟩
  simp only [declared_eq, hsplit, hrest, List.map_append, List.map_cons]
  exact List.perm_middle

/-- Some variable has the standard name, in any letter case. -/
def HasStandard (d : Dictionary) (name : String) : Prop :=
  ∃ v ∈ d.declared, Text.lower v.standardName = Text.lower name

theorem exists_findStandard?_iff : (∃ v, d.findStandard? name = some v) ↔ d.HasStandard name := by
  simp [findStandard?, HasStandard, ← Option.isSome_iff_exists, List.find?_isSome, sameLetters_iff]

theorem take?_eq_none_iff : d.take? name = none ↔ ¬ d.HasStandard name := by
  rw [take?_eq, Option.map_eq_none_iff, ← exists_findStandard?_iff, ← Option.isSome_iff_exists,
    Option.not_isSome_iff_eq_none, findStandard?_eq, Option.map_eq_none_iff]

/-! ## All operations so far -/

/-- `added` are all variables that were ever added, in order; `taken` are those that left. -/
structure History (d : Dictionary) (added taken : List Variable) : Prop where
  reserved : d.reserved = added.map fun v => Text.lower v.standardName
  distinct : d.reserved.Nodup
  dimensions : ∀ x, x ∈ d.knownDimensions ↔ ∃ v ∈ added, x ∈ dimensionNames v
  conserved : (d.declared ++ taken).Perm added

namespace History

variable {added taken : List Variable}

theorem empty (name kind : String) : History (.empty name kind) [] [] where
  reserved := rfl
  distinct := List.nodup_nil
  dimensions := by simp [Dictionary.empty]
  conserved := .refl []

theorem add (h : History d added taken) (ha : d.Adds v d') : History d' (added ++ [v]) taken := by
  refine ⟨?_, ?_, ?_, ?_⟩
  · simp only [ha.reserved, h.reserved, List.map_append, List.map_cons, List.map_nil]
  · rw [ha.reserved]
    exact List.nodup_append.mpr ⟨h.distinct, by simp,
      fun x hx y hy => by rintro rfl; exact ha.unreserved (List.mem_singleton.mp hy ▸ hx)⟩
  · intro x
    rw [ha.knownDimensions, mem_foldl_insertName, h.dimensions]
    constructor
    · rintro (⟨w, hw, hx⟩ | hx)
      · exact ⟨w, by simp [hw], hx⟩
      · exact ⟨v, by simp, hx⟩
    · rintro ⟨w, hw, hx⟩
      rcases List.mem_append.mp hw with hw | hw
      · exact Or.inl ⟨w, hw, hx⟩
      · cases List.mem_singleton.mp hw; exact Or.inr hx
  · -- the new variable stands before those that left, but the order does not matter
    calc d'.declared ++ taken
      _ = d.declared ++ ([v] ++ taken) := by rw [ha.declared, List.append_assoc]
      List.Perm _ (d.declared ++ (taken ++ [v])) := List.perm_append_comm.append_left _
      _ = d.declared ++ taken ++ [v] := (List.append_assoc ..).symm
      List.Perm _ (added ++ [v]) := h.conserved.append_right _

theorem take (h : History d added taken) (ht : d.take? name = some (v, d')) :
    History d' added (taken ++ [v]) := by
  obtain ⟨-, ⟨entries, hd⟩, hp⟩ := take?_eq_some ht
  have hc : (d'.declared ++ (taken ++ [v])).Perm added := by
    calc d'.declared ++ (taken ++ [v])
      List.Perm _ (taken ++ [v] ++ d'.declared) := List.perm_append_comm
      _ = taken ++ (v :: d'.declared) := by simp
      List.Perm _ (taken ++ d.declared) := hp.symm.append_left _
      List.Perm _ (d.declared ++ taken) := List.perm_append_comm
      List.Perm _ added := h.conserved
  subst hd
  exact ⟨h.reserved, h.distinct, h.dimensions, hc⟩

theorem moves {vs : List Variable} (hm : d.Moves vs d') (h : History d added taken) :
    History d' added (taken ++ vs) := by
  induction hm generalizing taken with
  | refl => simpa using h
  | take ht _ ih => simpa using ih (h.take ht)

theorem standardNames_nodup (h : History d added taken) :
    ((d.declared ++ taken).map fun v => Text.lower v.standardName).Nodup := by
  rw [(h.conserved.map _).nodup_iff, ← h.reserved]
  exact h.distinct

/-- The known dimensions are those of the variables that are there or were taken out. -/
theorem mem_knownDimensions (h : History d added taken) (x : String) :
    x ∈ d.knownDimensions ↔ ∃ v ∈ d.declared ++ taken, x ∈ dimensionNames v := by
  rw [h.dimensions]
  constructor
  · rintro ⟨v, hv, hx⟩
    exact ⟨v, h.conserved.mem_iff.mpr hv, hx⟩
  · rintro ⟨v, hv, hx⟩
    exact ⟨v, h.conserved.mem_iff.mp hv, hx⟩

end History

/-! ## What stays -/

theorem Adds.mem_declared (h : d.Adds v d') {w : Variable} (hw : w ∈ d'.declared) :
    w ∈ d.declared ∨ w = v := by
  simpa [h.declared] using hw

theorem Moves.name_eq {vs : List Variable} (h : d.Moves vs d') : d'.name = d.name := by
  induction h with
  | refl => rfl
  | take ht _ ih =>
      obtain ⟨-, ⟨entries, hd⟩, -⟩ := take?_eq_some ht
      rw [ih, hd]

theorem Moves.perm {vs : List Variable} (h : d.Moves vs d') :
    d.declared.Perm (vs ++ d'.declared) := by
  induction h with
  | refl => exact .refl _
  | take ht _ ih =>
      obtain ⟨-, -, hp⟩ := take?_eq_some ht
      exact hp.trans (ih.cons _)

theorem Moves.invariant {P : Dictionary → Prop} {vs : List Variable}
    (htake : ∀ d name v d', P d → d.take? name = some (v, d') → P d') (hd : P d)
    (h : d.Moves vs d') : P d' := by
  induction h with
  | refl => exact hd
  | take ht _ ih => exact ih (htake _ _ _ _ hd ht)

end FieldRegistry.Dictionary
