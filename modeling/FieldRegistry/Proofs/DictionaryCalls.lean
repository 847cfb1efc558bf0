import FieldRegistry.Proofs.DictionaryHistory
import Mathlib.Data.List.Nodup

/-!
# Dictionaries under any sequence of calls

Adding and removing update different parts of a dictionary, and either may fail. A session keeps, next to
the dictionary, the variables that its calls added and took out; the invariant says how each part of the
dictionary follows from these two lists.
-/

namespace FieldRegistry.Dictionary

variable {d d' : Dictionary} {v w : Variable} {name : String} {added taken : List Variable}

/-! ## Names by first use -/

theorem insertName_eraseDups (names : List String) (name : String) :
    insertName names.eraseDups name = (names ++ [name]).eraseDups := by
  rw [List.eraseDups_append, insertName]
  by_cases h : name ∈ names
  · simp [h, List.removeAll]
  · simp [h, List.removeAll, List.eraseDups_cons]

theorem foldl_insertName_eraseDups (names more : List String) :
    more.foldl insertName names.eraseDups = (names ++ more).eraseDups := by
  induction more generalizing names with
  | nil => simp
  | cons name more ih => rw [List.foldl_cons, insertName_eraseDups, ih, List.append_assoc]; rfl

theorem nodup_insertName {names : List String} (h : names.Nodup) : (insertName names name).Nodup := by
  unfold insertName
  split
  · exact h
  · rename_i hn
    exact List.nodup_append.mpr ⟨h, by simp, fun x hx y hy => by
      rintro rfl
      exact hn (by simpa [← List.mem_singleton.mp hy] using hx)⟩

theorem nodup_foldl_insertName {names more : List String} (h : names.Nodup) :
    (more.foldl insertName names).Nodup := by
  induction more generalizing names with
  | nil => exact h
  | cons name more ih => exact ih (nodup_insertName h)

/-! ## Keys -/

/-- Every variable is held under its local name in lower case. -/
def Keyed (d : Dictionary) : Prop :=
  ∀ entry ∈ d.byLocalName.entries, entry.1 = Text.lower entry.2.localName

theorem keyed_empty (name kind : String) : (empty name kind).Keyed :=
  fun _ he => absurd he List.not_mem_nil

theorem Keyed.add (h : d.Keyed) (ha : d.Adds v d') : d'.Keyed := by
  intro entry he
  rw [ha.entries, List.mem_append, List.mem_singleton] at he
  rcases he with he | rfl
  · exact h entry he
  · rfl

theorem Keyed.take (h : d.Keyed) (ht : d.take? name = some (v, d')) : d'.Keyed := by
  obtain ⟨-, before, key, after, -, -, rfl⟩ := exists_split_of_take? ht
  exact fun entry he => h entry (List.mem_of_mem_filter he)

theorem Keyed.keys_eq (h : d.Keyed) :
    d.byLocalName.keys = d.declared.map fun v => Text.lower v.localName := by
  rw [OrderedMap.keys, declared_eq, List.map_map]
  exact List.map_congr_left h

theorem Keyed.localNames_nodup (h : d.Keyed) :
    (d.declared.map fun v => Text.lower v.localName).Nodup :=
  h.keys_eq ▸ d.byLocalName.distinct

/-- The lookup by key finds what a search through the variables would find. -/
theorem Keyed.findLocal?_eq_some (h : d.Keyed) :
    d.findLocal? name = some v ↔ v ∈ d.declared ∧ Text.lower v.localName = Text.lower name := by
  rw [findLocal?, OrderedMap.get?_eq_some_iff, declared_eq, List.mem_map]
  constructor
  · intro he
    exact ⟨⟨_, he, rfl⟩, (h _ he).symm⟩
  · rintro ⟨⟨entry, he, rfl⟩, hk⟩
    rwa [← hk, ← h entry he]

def standardKeys (d : Dictionary) : List String := d.declared.map fun v => Text.lower v.standardName

/-- Where standard names differ, a search finds the variable with the name that is asked for. -/
theorem findStandard?_eq_some (h : d.standardKeys.Nodup) :
    d.findStandard? name = some v ↔
      v ∈ d.declared ∧ Text.lower v.standardName = Text.lower name := by
  constructor
  · intro hf
    have hs := List.find?_some hf
    exact ⟨List.mem_of_find?_eq_some hf, sameLetters_iff.mp hs⟩
  · rintro ⟨hv, hk⟩
    obtain ⟨w, hf⟩ := exists_findStandard?_iff.mpr ⟨v, hv, hk⟩
    have hw := List.find?_some hf
    have hsame : Text.lower w.standardName = Text.lower v.standardName :=
      (sameLetters_iff.mp hw).trans hk.symm
    rw [hf, List.inj_on_of_nodup_map h (List.mem_of_find?_eq_some hf) hv hsame]

/-- Where standard names differ, taking a variable out drops that variable and nothing else. -/
theorem entries_of_take? (h : d.standardKeys.Nodup) (ht : d.take? name = some (v, d')) :
    d'.byLocalName.entries = d.byLocalName.entries.filter (fun entry => entry.2 ≠ v) := by
  obtain ⟨-, before, key, after, hsplit, hrest, -⟩ := exists_split_of_take? ht
  rw [standardKeys, declared_eq, hsplit, List.map_map, List.map_append, List.map_cons,
    List.nodup_middle, List.nodup_cons, ← List.map_append] at h
  have hothers : ∀ entry ∈ before ++ after, decide (entry.2 ≠ v) = true := by
    intro entry he
    rw [decide_eq_true_eq]
    rintro rfl
    exact h.1 (List.mem_map.mpr ⟨entry, he, rfl⟩)
  rw [hrest, hsplit, List.filter_append, List.filter_cons_of_neg (by simp), ← List.filter_append,
    List.filter_eq_self.mpr hothers]

theorem declared_of_take? (h : d.standardKeys.Nodup) (ht : d.take? name = some (v, d')) :
    d'.declared = d.declared.filter (fun w => w ≠ v) := by
  rw [declared_eq, declared_eq, entries_of_take? h ht, List.filter_map]
  rfl

/-! ## Sessions -/

inductive Call where
  | add (v : Variable)
  | remove (standardName : String)

/-- A dictionary with the variables that were added and those that were taken out so far. -/
structure Session where
  dictionary : Dictionary
  added : List Variable
  taken : List Variable

namespace Session

variable {s : Session}

def start (name kind : String) : Session := ⟨.empty name kind, [], []⟩

/-- One call, with the dictionary that it leaves behind. -/
def call (s : Session) : Call → Session
  | .add v =>
    match (Dictionary.add v).outcome s.dictionary with
    | (.ok (), d) => ⟨d, s.added ++ [v], s.taken⟩
    | (.error _, d) => ⟨d, s.added, s.taken⟩
  | .remove name =>
    match (Dictionary.remove name : Action Fault Dictionary _).outcome s.dictionary with
    | (.ok (some v), d) => ⟨d, s.added, s.taken ++ [v]⟩
    | (_, d) => ⟨d, s.added, s.taken⟩

def after (s : Session) (calls : List Call) : Session := calls.foldl call s

/-- A variable that is refused and a name that is not found change nothing. -/
theorem call_cases (s : Session) (c : Call) :
    s.call c = s ∨
    (∃ v d, s.dictionary.Adds v d ∧ s.call c = ⟨d, s.added ++ [v], s.taken⟩) ∨
    ∃ name v d, s.dictionary.take? name = some (v, d) ∧ s.call c = ⟨d, s.added, s.taken ++ [v]⟩ := by
  cases c with
  | add v =>
      cases ha : (Dictionary.add v).outcome s.dictionary with
      | mk result d =>
          cases result with
          | error fault => exact Or.inl (by rw [call, ha, eq_of_add_error ha])
          | ok done => exact Or.inr (Or.inl ⟨v, d, ha, by rw [call, ha]⟩)
  | remove name =>
      cases ht : s.dictionary.take? name with
      | none => exact Or.inl (by rw [call, outcome_remove, ht])
      | some found =>
          obtain ⟨v, d⟩ := found
          exact Or.inr (Or.inr ⟨name, v, d, ht, by rw [call, outcome_remove, ht]⟩)

/-- Every part of the dictionary follows from what was added and what was taken out. -/
structure Faithful (s : Session) : Prop extends s.dictionary.History s.added s.taken where
  keyed : s.dictionary.Keyed
  declared : s.dictionary.declared = s.added.filter (fun v => v ∉ s.taken)
  knownDimensions : s.dictionary.knownDimensions = (s.added.flatMap dimensionNames).eraseDups
  knownDimensions_nodup : s.dictionary.knownDimensions.Nodup

theorem faithful_start (name kind : String) : (start name kind).Faithful :=
  ⟨.empty name kind, keyed_empty name kind, rfl, rfl, List.nodup_nil⟩

theorem Faithful.standardKeys (h : s.Faithful) : s.dictionary.standardKeys.Nodup := by
  have hnodup := h.standardNames_nodup
  rw [List.map_append, List.nodup_append] at hnodup
  exact hnodup.1

theorem Faithful.add (h : s.Faithful) (ha : s.dictionary.Adds v d) :
    Faithful ⟨d, s.added ++ [v], s.taken⟩ := by
  refine ⟨h.toHistory.add ha, h.keyed.add ha, ?_, ?_, ?_⟩
  · -- the new variable was not taken out before, because its standard name is new
    have hv : v ∉ s.taken := by
      intro hv
      have hold : v ∈ s.added := h.conserved.mem_iff.mp (List.mem_append_right _ hv)
      exact ha.unreserved (h.reserved ▸ List.mem_map.mpr ⟨v, hold, rfl⟩)
    rw [ha.declared, List.filter_append, List.filter_cons_of_pos (by simpa using hv), List.filter_nil,
      ← h.declared]
  · simp only [ha.knownDimensions, h.knownDimensions, foldl_insertName_eraseDups, List.flatMap_append,
      List.flatMap_cons, List.flatMap_nil, List.append_nil]
  · rw [ha.knownDimensions]
    exact nodup_foldl_insertName h.knownDimensions_nodup

theorem Faithful.take (h : s.Faithful) (ht : s.dictionary.take? name = some (v, d)) :
    Faithful ⟨d, s.added, s.taken ++ [v]⟩ := by
  obtain ⟨-, ⟨entries, hd⟩, -⟩ := take?_eq_some ht
  have hdimensions : d.knownDimensions = s.dictionary.knownDimensions := by rw [hd]
  refine ⟨h.toHistory.take ht, h.keyed.take ht, ?_, hdimensions.trans h.knownDimensions,
    hdimensions ▸ h.knownDimensions_nodup⟩
  rw [declared_of_take? h.standardKeys ht, h.declared, List.filter_filter]
  refine List.filter_congr fun w _ => ?_
  by_cases hw : w = v <;> simp [hw]

theorem Faithful.call (h : s.Faithful) (c : Call) : (s.call c).Faithful := by
  rcases call_cases s c with hc | ⟨v, d, ha, hc⟩ | ⟨name, v, d, ht, hc⟩
  · rw [hc]; exact h
  · rw [hc]; exact h.add ha
  · rw [hc]; exact h.take ht

theorem Faithful.after (h : s.Faithful) (calls : List Call) : (s.after calls).Faithful := by
  induction calls generalizing s with
  | nil => exact h
  | cons c calls ih => exact ih (h.call c)

theorem added_prefix_call (s : Session) (c : Call) : s.added <+: (s.call c).added := by
  rcases call_cases s c with hc | ⟨v, d, -, hc⟩ | ⟨name, v, d, -, hc⟩ <;>
    have hadded := congrArg Session.added hc
  · exact ⟨[], by rw [hadded, List.append_nil]⟩
  · exact ⟨[v], hadded.symm⟩
  · exact ⟨[], by rw [hadded, List.append_nil]⟩

theorem added_prefix_after (s : Session) (calls : List Call) : s.added <+: (s.after calls).added := by
  induction calls generalizing s with
  | nil => exact List.prefix_rfl
  | cons c calls ih => exact (added_prefix_call s c).trans (ih (s.call c))

theorem Faithful.refused (h : s.Faithful) {u : Variable} (hu : u ∈ s.added)
    (hk : Text.lower v.standardName = Text.lower u.standardName) :
    ∃ fault, (Dictionary.add v).outcome s.dictionary = (.error fault, s.dictionary) := by
  cases ha : (Dictionary.add v).outcome s.dictionary with
  | mk result d =>
      cases result with
      | error fault => exact ⟨fault, by rw [eq_of_add_error ha]⟩
      | ok done =>
          have hnew := Adds.unreserved ha
          exact absurd (h.reserved ▸ List.mem_map.mpr ⟨u, hu, hk.symm⟩) hnew

/-- The representation of a dictionary after any calls. Each key that it stores is the local name of its
variable in lower case, and the keys differ; so do the standard names. Reserved are the standard names of
all variables that were ever added, so that none of them is accepted again, whatever is called in between.
The known dimensions are the names that these variables use, by first use; and the variables are those that
were not taken out, in the order in which they were added. -/
theorem dictionary_represents_calls (name kind : String) (calls : List Call) :
    let s := (start name kind).after calls
    let d := s.dictionary
    (∀ entry ∈ d.byLocalName.entries, entry.1 = Text.lower entry.2.localName) ∧
    d.byLocalName.keys.Nodup ∧
    (∀ key v, d.findLocal? key = some v ↔
      v ∈ d.declared ∧ Text.lower v.localName = Text.lower key) ∧
    d.standardKeys.Nodup ∧
    (∀ v ∈ d.declared, Text.lower v.standardName ∈ d.reserved) ∧
    d.reserved = s.added.map (fun v => Text.lower v.standardName) ∧
    d.reserved.Nodup ∧
    (∀ u ∈ s.added, ∀ more v, Text.lower v.standardName = Text.lower u.standardName →
      let later := (s.after more).dictionary
      ∃ fault, (add v).outcome later = (.error fault, later)) ∧
    d.knownDimensions.Nodup ∧
    d.knownDimensions = (s.added.flatMap fun v => v.dimensions.flatMap Dimension.named).eraseDups ∧
    d.declared = s.added.filter (fun v => v ∉ s.taken) := by
  intro s d
  have h : s.Faithful := (faithful_start name kind).after calls
  refine ⟨h.keyed, d.byLocalName.distinct, fun key v => h.keyed.findLocal?_eq_some, h.standardKeys, ?_,
    h.reserved, h.distinct, ?_, h.knownDimensions_nodup, h.knownDimensions, h.declared⟩
  · intro v hv
    have hadded : v ∈ s.added := h.conserved.mem_iff.mp (List.mem_append_left _ hv)
    rw [h.reserved]
    exact List.mem_map.mpr ⟨v, hadded, rfl⟩
  · intro u hu more v hk
    exact (h.after more).refused ((added_prefix_after s more).subset hu) hk

def allocatableReal (localName standardName : String) (dimensions : List String) : Variable where
  localName := localName
  standardName := standardName
  type := ⟨"real", none, false⟩
  kind := ""
  units := ""
  dimensions := dimensions
  storage := .allocatable
  longName := none
  initialValue := none
  inputNames := none
  access := .everywhere
  isProtected := false
  extents := dimensions.map fun _ => ":"
  elements := []

/-- A variable that was taken out leaves its local name to another one, its standard name to none. -/
theorem removed_standardName_refused :
    let east := allocatableReal "u" "east_wind" ["Horizontal_Dimension", "pver:horizontal_dimension"]
    let north := allocatableReal "U" "north_wind" ["pver"]
    let s := (start "physics_types" "module").after [.add east, .remove "EAST_WIND"]
    let later := (s.after [.add north]).dictionary
    east ∈ s.added ∧ s.dictionary.declared = [] ∧
      s.dictionary.knownDimensions = ["horizontal_dimension", "pver"] ∧
      later.byLocalName.entries = [("u", north)] ∧
      ∃ fault, (add (allocatableReal "v" "East_Wind" [])).outcome later = (.error fault, later) := by
  intro east north s later
  have hadded : east ∈ s.added := by decide +kernel
  have hrefused := (dictionary_represents_calls "physics_types" "module"
    [.add east, .remove "EAST_WIND"]).2.2.2.2.2.2.2.1
  exact ⟨hadded, by decide +kernel, by decide +kernel, by decide +kernel,
    hrefused east hadded [.add north] (allocatableReal "v" "East_Wind" []) (by decide +kernel)⟩

end Session

end FieldRegistry.Dictionary
