/-!
Keyed entries, and maps that list their keys in the order in which they came in.
-/

namespace FieldRegistry

section Entries

variable {κ α : Type} [BEq κ] [LawfulBEq κ]

/-- Puts a value into a list of entries in place of the one with its key, or at the end. -/
def putEntry (key : κ) (a : α) : List (κ × α) → List (κ × α)
  | [] => [(key, a)]
  | (other, b) :: rest =>
    if key == other then (key, a) :: rest else (other, b) :: putEntry key a rest

theorem lookup_putEntry (key other : κ) (a : α) (entries : List (κ × α)) :
    (putEntry key a entries).lookup other =
      if other == key then some a else entries.lookup other := by
  induction entries with
  | nil => cases h : other == key <;> simp [putEntry, List.lookup_cons, h]
  | cons head rest ih =>
    obtain ⟨here, b⟩ := head
    cases hk : key == here with
    | true =>
      cases eq_of_beq hk
      cases h : other == key <;> simp [putEntry, List.lookup_cons, h]
    | false =>
      cases h : other == here with
      | true =>
        cases eq_of_beq h
        have hne : (other == key) = false := by rwa [BEq.comm]
        simp [putEntry, hk, hne]
      | false => simp [putEntry, List.lookup_cons, hk, h, ih]

/-- A key that is new comes last. -/
theorem putEntry_of_notMem {key : κ} {entries : List (κ × α)} (h : key ∉ entries.map Prod.fst)
    (a : α) : putEntry key a entries = entries ++ [(key, a)] := by
  induction entries with
  | nil => rfl
  | cons head rest ih =>
    rw [List.map_cons, List.mem_cons, not_or] at h
    simp [putEntry, h.1, ih h.2]

theorem map_fst_putEntry_of_mem {key : κ} {entries : List (κ × α)}
    (h : key ∈ entries.map Prod.fst) (a : α) :
    (putEntry key a entries).map Prod.fst = entries.map Prod.fst := by
  induction entries with
  | nil => cases h
  | cons head rest ih =>
    obtain ⟨here, b⟩ := head
    cases hk : key == here with
    | true => simp [putEntry, eq_of_beq hk]
    | false =>
      have hrest : key ∈ rest.map Prod.fst := by simpa [ne_of_beq_false hk] using h
      simp [putEntry, hk, ih hrest]

theorem nodup_putEntry {entries : List (κ × α)} (h : (entries.map Prod.fst).Nodup) (key : κ)
    (a : α) : ((putEntry key a entries).map Prod.fst).Nodup := by
  cases hk : (entries.map Prod.fst).contains key with
  | true => rwa [map_fst_putEntry_of_mem (by simpa using hk)]
  | false =>
    have hnew : key ∉ entries.map Prod.fst := by simpa using hk
    rw [putEntry_of_notMem hnew, List.map_append]
    refine List.nodup_append.mpr ⟨h, by simp, ?_⟩
    intro x hx y hy hxy
    have hy : y = key := List.mem_singleton.mp hy
    exact hnew (hy ▸ hxy ▸ hx)

end Entries

/-- Values by key. A key has one entry. -/
@[ext]
structure OrderedMap (α : Type) where
  entries : List (String × α)
  distinct : (entries.map Prod.fst).Nodup
deriving DecidableEq

namespace OrderedMap

variable {α : Type}

def empty : OrderedMap α := ⟨[], .nil⟩

def keys (m : OrderedMap α) : List String := m.entries.map Prod.fst

def values (m : OrderedMap α) : List α := m.entries.map Prod.snd

def get? (m : OrderedMap α) (key : String) : Option α := m.entries.lookup key

/-- Sets the value of a key. A key that is there keeps its place, a new one comes last. -/
def insert (m : OrderedMap α) (key : String) (a : α) : OrderedMap α :=
  ⟨putEntry key a m.entries, nodup_putEntry m.distinct key a⟩

/-- Drops the entry of a key. The others keep their order. -/
def erase (m : OrderedMap α) (key : String) : OrderedMap α :=
  ⟨m.entries.filter (·.1 != key), m.distinct.sublist (List.filter_sublist.map _)⟩

/-- The value of a key, and the map without it. -/
def remove? (m : OrderedMap α) (key : String) : Option (α × OrderedMap α) :=
  (m.get? key).map (·, m.erase key)

variable {m : OrderedMap α} {key other : String} {a : α}

theorem get?_eq_some_iff : m.get? key = some a ↔ (key, a) ∈ m.entries := by
  obtain ⟨entries, hdistinct⟩ := m
  rw [get?]
  induction entries with
  | nil => simp
  | cons head rest ih =>
    obtain ⟨here, b⟩ := head
    obtain ⟨hhere, hrest⟩ := List.nodup_cons.mp hdistinct
    cases h : key == here with
    | true =>
      cases eq_of_beq h
      have hno : (key, a) ∉ rest := fun ha => hhere (List.mem_map.mpr ⟨_, ha, rfl⟩)
      simp [hno, eq_comm]
    | false => simp [List.lookup_cons, h, ne_of_beq_false h, ih hrest]

theorem get?_eq_none_iff : m.get? key = none ↔ key ∉ m.keys := by
  rw [get?, keys, List.lookup_eq_none_iff]
  simp only [List.mem_map, bne_iff_ne]
  exact ⟨fun h ⟨entry, he, hk⟩ => h entry he hk.symm, fun h entry he hk => h ⟨entry, he, hk.symm⟩⟩

theorem get?_insert (m : OrderedMap α) (key : String) (a : α) (other : String) :
    (m.insert key a).get? other = if other = key then some a else m.get? other := by
  simp [get?, insert, lookup_putEntry]

theorem entries_insert (h : key ∉ m.keys) (a : α) :
    (m.insert key a).entries = m.entries ++ [(key, a)] :=
  putEntry_of_notMem h a

theorem get?_erase (m : OrderedMap α) (key other : String) :
    (m.erase key).get? other = if other = key then none else m.get? other := by
  refine Option.ext fun a => ?_
  rw [get?_eq_some_iff, erase, List.mem_filter, bne_iff_ne]
  split
  · rename_i h; simp [h]
  · rename_i h; simp [h, get?_eq_some_iff]

theorem entries_erase {before after : List (String × α)}
    (h : m.entries = before ++ (key, a) :: after) : (m.erase key).entries = before ++ after := by
  have hkeys := m.distinct
  rw [h, (List.perm_middle.map Prod.fst).nodup_iff, List.map_cons, List.nodup_cons] at hkeys
  have hothers : ∀ entry ∈ before ++ after, (entry.1 != key) = true := by
    intro entry he
    rw [bne_iff_ne]
    rintro rfl
    exact hkeys.1 (List.mem_map.mpr ⟨entry, he, rfl⟩)
  calc (m.erase key).entries
    _ = (before ++ (key, a) :: after).filter (·.1 != key) := by rw [← h]; rfl
    _ = (before ++ after).filter (·.1 != key) := by simp
    _ = before ++ after := List.filter_eq_self.mpr hothers

end OrderedMap

end FieldRegistry
