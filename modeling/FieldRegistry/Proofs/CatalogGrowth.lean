import FieldRegistry.Catalog
import FieldRegistry.Proofs.Outcome

/-!
# How the catalog of a run grows

A run changes its catalog in one way only: a derived type is added at the end, under a name that no
entry has, when the type it extends and the types of its members are known. `Catalog.Grows` says so
once; what lookups keep under it and what it makes of the entries is derived here.
-/

namespace FieldRegistry

theorem sameLetters_iff {s t : String} : Text.sameLetters s t = true ↔ Text.lower s = Text.lower t := by
  simp only [Text.sameLetters, beq_iff_eq]

namespace Catalog

variable {c c' : Catalog} {name scope : String} {entry : TypeEntry} {a : Aggregate}

/-! ## Lookups -/

theorem lower_name_of_lookup? (h : c.lookup? name = some entry) :
    Text.lower entry.name = Text.lower name := by
  have hs := List.find?_some h
  exact sameLetters_iff.mp hs

theorem lookup?_congr {name' : String} (h : Text.lower name = Text.lower name') :
    c.lookup? name = c.lookup? name' := by
  simp only [lookup?, Text.sameLetters, h]

theorem lookup?_name (h : c.lookup? name = some entry) : c.lookup? entry.name = some entry := by
  rw [lookup?_congr (lower_name_of_lookup? h), h]

/-- Later entries are added at the end. -/
def Extended (c c' : Catalog) : Prop := c.entries <+: c'.entries

theorem Extended.trans {c₁ c₂ : Catalog} (h : c.Extended c₁) (h' : c₁.Extended c₂) : c.Extended c₂ :=
  List.IsPrefix.trans h h'

theorem lookup?_of_extended (hp : c.Extended c') (h : c.lookup? name = some entry) :
    c'.lookup? name = some entry := by
  obtain ⟨rest, hr⟩ := hp
  unfold lookup? at h ⊢
  rw [← hr, List.find?_append, h, Option.some_or]

theorem aggregate?_eq_some :
    c.aggregate? name = some a ↔ ∃ entry, c.lookup? name = some entry ∧ entry.aggregate = some a := by
  rw [aggregate?, Option.bind_eq_some_iff]

theorem aggregate?_of_extended (hp : c.Extended c') (h : c.aggregate? name = some a) :
    c'.aggregate? name = some a := by
  obtain ⟨entry, he, ha⟩ := aggregate?_eq_some.mp h
  exact aggregate?_eq_some.mpr ⟨entry, lookup?_of_extended hp he, ha⟩

theorem aggregate?_congr_of_extended (hp : c.Extended c') (h : c.lookup? name = some entry) :
    c'.aggregate? name = c.aggregate? name := by
  rw [aggregate?, aggregate?, h, lookup?_of_extended hp h]

/-! ## Registration -/

theorem register_eq_ok {aggregate : Option Aggregate} (h : c.register name scope aggregate = .ok c') :
    c.lookup? name = none ∧ c'.entries = c.entries ++ [⟨name, some scope, aggregate⟩] := by
  unfold register at h
  split at h
  · cases h
  · rename_i hn; cases h; exact ⟨hn, rfl⟩

theorem extended_of_register {aggregate : Option Aggregate}
    (h : c.register name scope aggregate = .ok c') : c.Extended c' :=
  ⟨_, (register_eq_ok h).2.symm⟩

theorem lookup?_register {aggregate : Option Aggregate}
    (h : c.register name scope aggregate = .ok c') :
    c'.lookup? name = some ⟨name, some scope, aggregate⟩ := by
  obtain ⟨hn, he⟩ := register_eq_ok h
  unfold lookup? at hn ⊢
  rw [he, List.find?_append, hn, Option.none_or]
  simp [Text.sameLetters]

/-- What a larger catalog finds is old, or it is the new type. -/
theorem aggregate?_register_cases {b : Aggregate} {name' : String}
    (h : c.register name scope (some a) = .ok c') (hb : c'.aggregate? name' = some b) :
    c.aggregate? name' = some b ∨ (Text.lower name' = Text.lower name ∧ b = a) := by
  obtain ⟨hn, he⟩ := register_eq_ok h
  obtain ⟨entry, hl, ha⟩ := aggregate?_eq_some.mp hb
  unfold lookup? at hl
  rw [he, List.find?_append, Option.or_eq_some_iff] at hl
  rcases hl with hl | ⟨-, hl⟩
  · exact Or.inl (aggregate?_eq_some.mpr ⟨entry, hl, ha⟩)
  · obtain ⟨hs, hm⟩ := List.find?_eq_some_iff_append.mp hl
    obtain ⟨_, _, hm, -⟩ := hm
    have hm : entry = ⟨name, some scope, some a⟩ := by
      have : entry ∈ [(⟨name, some scope, some a⟩ : TypeEntry)] := by rw [hm]; simp
      exact List.mem_singleton.mp this
    subst hm
    exact Or.inr ⟨(sameLetters_iff.mp hs).symm, (Option.some.inj ha).symm⟩

/-! ## References to known types -/

/-- A reference that a variable keeps is what the catalog now says about the type. -/
def Resolves (c : Catalog) (ref : TypeRef) : Prop :=
  ∃ entry, c.lookup? ref.name = some entry ∧ entry.ref = ref

theorem Resolves.of_lookup? (h : c.lookup? name = some entry) : c.Resolves entry.ref :=
  ⟨entry, lookup?_name h, rfl⟩

theorem Resolves.mono {ref : TypeRef} (hp : c.Extended c') (h : c.Resolves ref) :
    c'.Resolves ref := by
  obtain ⟨entry, he, hr⟩ := h
  exact ⟨entry, lookup?_of_extended hp he, hr⟩

theorem Resolves.aggregate? {ref : TypeRef} (h : c.Resolves ref) (ha : ref.isAggregate = true) :
    ∃ a, c.aggregate? ref.name = some a := by
  obtain ⟨entry, he, rfl⟩ := h
  obtain ⟨a, ha⟩ := Option.isSome_iff_exists.mp ha
  exact ⟨a, aggregate?_eq_some.mpr ⟨entry, he, ha⟩⟩

/-- All types that a definition mentions are known; the one it extends is a derived type under the
spelling that the definition keeps. -/
structure Knows (c : Catalog) (a : Aggregate) : Prop where
  parent : ∀ p, a.parent = some p → ∃ b, c.aggregate? p = some b ∧ b.name = p
  members : ∀ v ∈ a.members, c.Resolves v.type

theorem Knows.mono (hp : c.Extended c') (h : c.Knows a) : c'.Knows a where
  parent p hp' := by
    obtain ⟨b, hb, hn⟩ := h.parent p hp'
    exact ⟨b, aggregate?_of_extended hp hb, hn⟩
  members v hv := (h.members v hv).mono hp

/-! ## Growth -/

/-- The catalogs that definitions lead to from `c`. -/
inductive Grows (c : Catalog) : Catalog → Prop
  | refl : Grows c c
  | define {c₁ c₂ : Catalog} {a : Aggregate} : Grows c c₁ → c₁.Knows a →
      c₁.register a.name a.scope (some a) = .ok c₂ → Grows c c₂

theorem Grows.trans {c₁ c₂ : Catalog} (h : Grows c c₁) (h' : Grows c₁ c₂) : Grows c c₂ := by
  induction h' with
  | refl => exact h
  | define _ hk hr ih => exact .define ih hk hr

theorem Grows.extended (h : Grows c c') : c.Extended c' := by
  induction h with
  | refl => exact List.prefix_rfl
  | define _ _ hr ih => exact ih.trans (extended_of_register hr)

/-- A catalog of a run: definitions lead to it from the intrinsic types. -/
def Built (c : Catalog) : Prop := Grows .initial c

theorem Built.grows (h : Built c) (h' : Grows c c') : Built c' := Grows.trans h h'

theorem Built.of_mem (h : Built c) (he : entry ∈ c.entries) (ha : entry.aggregate = some a) :
    entry = ⟨a.name, some a.scope, some a⟩ ∧ c.Knows a := by
  induction h with
  | refl =>
      obtain ⟨name, -, rfl⟩ := List.mem_map.mp he
      cases ha
  | define _ hk hr ih =>
      have hp := extended_of_register hr
      rw [(register_eq_ok hr).2, List.mem_append, List.mem_singleton] at he
      rcases he with he | rfl
      · exact ⟨(ih he).1, (ih he).2.mono hp⟩
      · cases ha; exact ⟨rfl, hk.mono hp⟩

theorem mem_of_lookup? (h : c.lookup? name = some entry) : entry ∈ c.entries :=
  List.mem_of_find?_eq_some h

theorem Built.of_aggregate? (h : Built c) (ha : c.aggregate? name = some a) :
    c.lookup? name = some ⟨a.name, some a.scope, some a⟩ ∧ c.Knows a := by
  obtain ⟨entry, he, ha⟩ := aggregate?_eq_some.mp ha
  obtain ⟨rfl, hk⟩ := h.of_mem (mem_of_lookup? he) ha
  exact ⟨he, hk⟩

end Catalog

end FieldRegistry
