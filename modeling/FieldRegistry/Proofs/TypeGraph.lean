import FieldRegistry.Proofs.Runs
import Mathlib.Data.List.Chain

/-!
# The graph of derived types

Types are referred to by name only, and neither the flattening of a type nor the walk to its leaves shows
what makes it end. In a catalog that definitions built, references lead backwards, so both end within as
many nested calls as there are derived types, and the bounds in `flatten` and `leaves` are never met.
-/

namespace FieldRegistry.Catalog

variable {c c' : Catalog} {a b : Aggregate} {name scope path : String} {v w : Variable}

def aggregateCount (c : Catalog) : Nat := (c.entries.filter (·.aggregate.isSome)).length

theorem aggregateCount_le (c : Catalog) : c.aggregateCount ≤ c.entries.length :=
  List.length_filter_le ..

theorem aggregateCount_register (h : c.register name scope (some a) = .ok c') :
    c'.aggregateCount = c.aggregateCount + 1 := by
  unfold aggregateCount
  rw [(register_eq_ok h).2, List.filter_append, List.length_append]
  rfl

theorem Built.aggregateCount_lt (h : Built c) : c.aggregateCount < c.entries.length := by
  induction h with
  | refl => decide
  | define _ _ hr ih =>
      rw [aggregateCount_register hr, (register_eq_ok hr).2, List.length_append]
      simpa using ih

/-! ## Ancestors -/

/-- A type and its ancestors, nearest first: the calls that flattening it makes, each inside the one
before. -/
inductive Lineage (c : Catalog) : Aggregate → List Aggregate → Prop
  | root {a : Aggregate} : a.parent = none → Lineage c a [a]
  | extend {a b : Aggregate} {p : String} {line : List Aggregate} : a.parent = some p →
      c.aggregate? p = some b → Lineage c b line → Lineage c a (a :: line)

variable {line : List Aggregate}

theorem Lineage.mono (hp : c.Extended c') (h : c.Lineage a line) : c'.Lineage a line := by
  induction h with
  | root ha => exact .root ha
  | extend ha hb _ ih => exact .extend ha (aggregate?_of_extended hp hb) ih

theorem Lineage.length_pos (h : c.Lineage a line) : 0 < line.length := by
  cases h <;> exact Nat.succ_pos _

theorem Lineage.flattenWithin_eq (h : c.Lineage a line) {fuel : Nat} (hf : line.length ≤ fuel + 1) :
    c.flattenWithin fuel a = line.flatMap (·.members) := by
  induction h generalizing fuel with
  | root ha => cases fuel <;> simp [flattenWithin, ha]
  | extend ha hb hl ih =>
      have hpos := hl.length_pos
      rw [List.length_cons] at hf
      obtain ⟨fuel, rfl⟩ : ∃ n, fuel = n + 1 := ⟨fuel - 1, by omega⟩
      have hrest : c.flattenWithin fuel _ = _ := ih (by omega)
      simp [flattenWithin, ha, hb, hrest]

theorem Built.exists_lineage (h : Built c) (ha : c.aggregate? name = some a) :
    ∃ line, c.Lineage a line ∧ line.length ≤ c.aggregateCount ∧
      ∀ b ∈ line, ∃ n, c.aggregate? n = some b := by
  induction h generalizing name a with
  | refl =>
      obtain ⟨entry, he, ha⟩ := aggregate?_eq_some.mp ha
      obtain ⟨n, -, rfl⟩ := List.mem_map.mp (mem_of_lookup? he)
      cases ha
  | @define c₁ c₂ new hg hk hr ih =>
      have hp := extended_of_register hr
      have hcount := aggregateCount_register hr
      rcases aggregate?_register_cases hr ha with ha | ⟨-, rfl⟩
      · obtain ⟨line, hl, hlen, hline⟩ := ih ha
        refine ⟨line, hl.mono hp, by omega, ?_⟩
        intro b hb
        obtain ⟨n, hn⟩ := hline b hb
        exact ⟨n, aggregate?_of_extended hp hn⟩
      · cases hparent : a.parent with
        | none =>
            refine ⟨[a], .root hparent, by simp [hcount], ?_⟩
            intro b hb
            cases List.mem_singleton.mp hb
            exact ⟨name, ha⟩
        | some p =>
            obtain ⟨b, hb, -⟩ := hk.parent p hparent
            obtain ⟨line, hl, hlen, hline⟩ := ih hb
            refine ⟨a :: line, .extend hparent (aggregate?_of_extended hp hb) (hl.mono hp),
              by simp [hcount, hlen], ?_⟩
            intro b' hb'
            rcases List.mem_cons.mp hb' with rfl | hb'
            · exact ⟨name, ha⟩
            · obtain ⟨n, hn⟩ := hline b' hb'
              exact ⟨n, aggregate?_of_extended hp hn⟩

theorem Lineage.flatten_eq (h : c.Lineage a line) (hlen : line.length ≤ c.aggregateCount) :
    c.flatten a = line.flatMap (·.members) :=
  h.flattenWithin_eq (by have := c.aggregateCount_le; omega)

theorem Built.flatten_congr (h : Built c) (hp : c.Extended c') (ha : c.aggregate? name = some a) :
    c'.flatten a = c.flatten a := by
  obtain ⟨line, hl, hlen, -⟩ := h.exists_lineage ha
  have hle : c.entries.length ≤ c'.entries.length := hp.length_le
  have hcount := c.aggregateCount_le
  rw [hl.flatten_eq hlen]
  exact (hl.mono hp).flattenWithin_eq (by omega)

/-- Flattening follows the parents: own members first, then all members of the type extended. -/
theorem Built.flatten_eq (h : Built c) (ha : c.aggregate? name = some a) :
    c.flatten a = a.members ++ ((a.parent.bind c.aggregate?).elim [] c.flatten) := by
  obtain ⟨line, hl, hlen, -⟩ := h.exists_lineage ha
  rw [hl.flatten_eq hlen]
  cases hl with
  | root hparent => simp [hparent]
  | extend hparent hb hl' =>
      rw [List.length_cons] at hlen
      rw [hparent, Option.bind_some, hb, Option.elim_some, List.flatMap_cons,
        hl'.flatten_eq (by omega)]

theorem Built.member_of_mem_flatten (h : Built c) (ha : c.aggregate? name = some a)
    (hw : w ∈ c.flatten a) : ∃ n b, c.aggregate? n = some b ∧ w ∈ b.members := by
  obtain ⟨line, hl, hlen, hline⟩ := h.exists_lineage ha
  rw [hl.flatten_eq hlen] at hw
  obtain ⟨b, hb, hw⟩ := List.mem_flatMap.mp hw
  obtain ⟨n, hn⟩ := hline b hb
  exact ⟨n, b, hn, hw⟩

theorem Built.resolves_of_mem_flatten (h : Built c) (ha : c.aggregate? name = some a)
    (hw : w ∈ c.flatten a) : c.Resolves w.type := by
  obtain ⟨n, b, hn, hw⟩ := h.member_of_mem_flatten ha hw
  exact (h.of_aggregate? hn).2.members w hw

/-- A name that a definition makes known leads to members of types known before, or it was known
before. -/
theorem Built.define_cases {new : Aggregate} (h : Built c) (hk : c.Knows new)
    (hr : c.register new.name new.scope (some new) = .ok c') (ha : c'.aggregate? name = some a) :
    c.aggregate? name = some a ∨ ∀ w ∈ c'.flatten a, c.Resolves w.type := by
  rcases aggregate?_register_cases hr ha with ha' | ⟨-, rfl⟩
  · exact Or.inl ha'
  · refine Or.inr fun w hw => ?_
    have hp := extended_of_register hr
    have h' : Built c' := h.grows (.define .refl hk hr)
    rw [h'.flatten_eq ha, List.mem_append] at hw
    rcases hw with hw | hw
    · exact hk.members w hw
    · cases hparent : a.parent with
      | none => simp [hparent] at hw
      | some p =>
          obtain ⟨b, hb, -⟩ := hk.parent p hparent
          rw [hparent, Option.bind_some, aggregate?_of_extended hp hb, Option.elim_some,
            h.flatten_congr hp hb] at hw
          exact h.resolves_of_mem_flatten hb hw

/-! ## Members of members -/

/-- A walk to the leaves of `v` visits `w`: `v` is a scalar of a derived type that has `w`, or inherits
it. -/
def Descends (c : Catalog) (v w : Variable) : Prop :=
  v.type.isAggregate = true ∧ v.dimensions = [] ∧
    ∃ a, c.aggregate? v.type.name = some a ∧ w ∈ c.flatten a

theorem Built.descends_of_extended (h : Built c) (hp : c.Extended c') (hv : c.Resolves v.type)
    (hd : c'.Descends v w) : c.Descends v w ∧ c.Resolves w.type := by
  obtain ⟨hagg, hdim, a, ha, hw⟩ := hd
  obtain ⟨b, hb⟩ := hv.aggregate? hagg
  rw [aggregate?_of_extended hp hb] at ha
  cases ha
  rw [h.flatten_congr hp hb] at hw
  exact ⟨⟨hagg, hdim, a, hb, hw⟩, h.resolves_of_mem_flatten hb hw⟩

theorem Built.chain_of_extended (h : Built c) (hp : c.Extended c') {ws : List Variable}
    (hv : c.Resolves v.type) (hc : List.IsChain c'.Descends (v :: ws)) :
    List.IsChain c.Descends (v :: ws) := by
  induction ws generalizing v with
  | nil => exact .singleton v
  | cons w ws ih =>
      obtain ⟨hd, hc⟩ := List.isChain_cons_cons.mp hc
      obtain ⟨hd, hw⟩ := h.descends_of_extended hp hv hd
      exact List.isChain_cons_cons.mpr ⟨hd, ih hw hc⟩

theorem Built.chain_length (h : Built c) {ws : List Variable}
    (hc : List.IsChain c.Descends (v :: ws)) : ws.length ≤ c.aggregateCount := by
  induction h generalizing v ws with
  | refl =>
      cases ws with
      | nil => exact Nat.zero_le _
      | cons w ws =>
          obtain ⟨⟨-, -, a, ha, -⟩, -⟩ := List.isChain_cons_cons.mp hc
          obtain ⟨entry, he, ha⟩ := aggregate?_eq_some.mp ha
          obtain ⟨n, -, rfl⟩ := List.mem_map.mp (mem_of_lookup? he)
          cases ha
  | @define c₁ c₂ new hg hk hr ih =>
      have hb : Built c₁ := hg
      have hp := extended_of_register hr
      rw [aggregateCount_register hr]
      cases ws with
      | nil => exact Nat.zero_le _
      | cons w ws =>
          obtain ⟨⟨hagg, hdim, a, ha, hw⟩, hc'⟩ := List.isChain_cons_cons.mp hc
          rcases hb.define_cases hk hr ha with ha | hnew
          · -- an old type: the whole chain was there before
            rw [hb.flatten_congr hp ha] at hw
            have hchain := hb.chain_of_extended hp (hb.resolves_of_mem_flatten ha hw) hc'
            have hlen := ih (List.isChain_cons_cons.mpr ⟨⟨hagg, hdim, a, ha, hw⟩, hchain⟩)
            omega
          · have hlen := ih (hb.chain_of_extended hp (hnew w hw) hc')
            rw [List.length_cons]
            omega

theorem Built.wellFounded_descends (h : Built c) : WellFounded fun w v => c.Descends v w := by
  -- `n` is how much longer a chain that leads to `v` can still become
  have hacc : ∀ n us v, List.IsChain c.Descends (us ++ [v]) → c.aggregateCount < us.length + n →
      Acc (fun w v => c.Descends v w) v := by
    intro n
    induction n with
    | zero =>
        intro us v hc hn
        cases us with
        | nil => cases hn
        | cons u us =>
            rw [List.cons_append] at hc
            have hlen := h.chain_length hc
            rw [List.length_append, List.length_singleton] at hlen
            rw [List.length_cons] at hn
            omega
    | succ n ih =>
        intro us v hc hn
        refine Acc.intro v fun w hw => ih (us ++ [v]) w ?_ ?_
        · rw [List.append_assoc]
          exact List.isChain_append_cons_cons.mpr ⟨hc, hw, .singleton w⟩
        · rw [List.length_append, List.length_singleton]
          omega
  exact ⟨fun v => hacc (c.aggregateCount + 1) [] v (.singleton v) (by simp)⟩

/-! ## Leaves -/

/-- One visit of the walk to the leaves, where `walk` visits the members. -/
def visit (c : Catalog) (scope : String) (walk : String → Variable → Except Fault (List Leaf))
    (path : String) (v : Variable) : Except Fault (List Leaf) :=
  if v.type.isAggregate then
    if !v.dimensions.isEmpty then
      .error (.unsupported "Arrays of DDT objects not implemented" v.localName scope)
    else match c.aggregate? v.type.name with
      | some a =>
        ((c.flatten a).mapM fun member => walk (path ++ v.localName ++ "%") member).map List.flatten
      | none =>
        .error (.unsupported ("DDT " ++ v.type.name ++ " missing from the type catalog")
          v.localName scope)
  else .ok [⟨path, v⟩]

theorem leavesWithin_succ (fuel : Nat) :
    c.leavesWithin scope (fuel + 1) path v = c.visit scope (c.leavesWithin scope fuel) path v := by
  rw [leavesWithin, visit]
  split
  · split
    · rfl
    · cases c.aggregate? v.type.name <;> rfl
  · rfl

theorem leavesWithin_of_intrinsic (hv : v.type.isAggregate = false) (fuel : Nat) :
    c.leavesWithin scope fuel path v = .ok [⟨path, v⟩] := by
  rw [leavesWithin]
  simp [hv]

/-- A walk that succeeds is over at once or has followed all members, whatever its bound was. -/
theorem leavesWithin_eq_ok {fuel : Nat} {leaves : List Leaf}
    (h : c.leavesWithin scope fuel path v = .ok leaves) :
    (v.type.isAggregate = false ∧ leaves = [⟨path, v⟩]) ∨
    ∃ n a parts, fuel = n + 1 ∧ v.type.isAggregate = true ∧ c.aggregate? v.type.name = some a ∧
      List.Forall₂ (fun w part => c.leavesWithin scope n (path ++ v.localName ++ "%") w = .ok part)
        (c.flatten a) parts ∧ leaves = parts.flatten := by
  cases hagg : v.type.isAggregate with
  | false =>
      rw [leavesWithin_of_intrinsic hagg] at h
      exact Or.inl ⟨rfl, (Except.ok.inj h).symm⟩
  | true =>
      cases fuel with
      | zero =>
          rw [leavesWithin, if_pos hagg] at h
          split at h <;> cases h
      | succ n =>
          rw [leavesWithin_succ, visit, if_pos hagg] at h
          split at h
          · cases h
          split at h
          · rename_i a ha
            obtain ⟨parts, hparts, hleaves⟩ := map_eq_ok h
            exact Or.inr ⟨n, a, parts, rfl, rfl, ha, forall₂_of_mapM_eq_ok hparts, hleaves.symm⟩
          · cases h

theorem visit_congr {walk walk' : String → Variable → Except Fault (List Leaf)}
    (hl : c'.aggregate? v.type.name = c.aggregate? v.type.name)
    (hf : ∀ a, c.aggregate? v.type.name = some a → c'.flatten a = c.flatten a)
    (hw : ∀ a w path, c.aggregate? v.type.name = some a → w ∈ c.flatten a →
      walk' path w = walk path w) :
    c'.visit scope walk' path v = c.visit scope walk path v := by
  unfold visit
  rw [hl]
  cases ha : c.aggregate? v.type.name with
  | none => rfl
  | some a =>
      have hm : ((c'.flatten a).mapM fun member => walk' (path ++ v.localName ++ "%") member) =
          (c.flatten a).mapM fun member => walk (path ++ v.localName ++ "%") member := by
        rw [hf a ha]
        exact mapM_congr_left fun w h => hw a w _ ha h
      simp only [hm]

/-- Neither types that come later nor a larger bound change the leaves of a variable. -/
theorem Built.leavesWithin_congr (h : Built c) (hp : c.Extended c') (hv : c.Resolves v.type)
    {fuel : Nat} (hf : c.aggregateCount ≤ fuel) :
    c'.leavesWithin scope fuel path v = c.leavesWithin scope c.aggregateCount path v := by
  induction h generalizing c' fuel path v with
  | refl =>
      obtain ⟨entry, he, hr⟩ := hv
      obtain ⟨n, -, rfl⟩ := List.mem_map.mp (mem_of_lookup? he)
      rw [leavesWithin_of_intrinsic (by rw [← hr]; rfl), leavesWithin_of_intrinsic (by rw [← hr]; rfl)]
  | @define c₁ c₂ new hg hk hr ih =>
      have hb : Built c₁ := hg
      have hb₂ : Built c₂ := .define hg hk hr
      have hp₁ := extended_of_register hr
      rw [aggregateCount_register hr] at hf ⊢
      cases hagg : v.type.isAggregate with
      | false => rw [leavesWithin_of_intrinsic hagg, leavesWithin_of_intrinsic hagg]
      | true =>
          obtain ⟨a, ha⟩ := hv.aggregate? hagg
          obtain ⟨entry, he, href⟩ := hv
          rcases hb.define_cases hk hr ha with hold | hnew
          · have hv₁ : c₁.Resolves v.type := by
              obtain ⟨entry', he', -⟩ := aggregate?_eq_some.mp hold
              rw [lookup?_of_extended hp₁ he'] at he
              cases he
              exact ⟨entry, he', href⟩
            rw [ih (hp₁.trans hp) hv₁ (by omega), ih hp₁ hv₁ (by omega)]
          · obtain ⟨fuel, rfl⟩ : ∃ n, fuel = n + 1 := ⟨fuel - 1, by omega⟩
            rw [leavesWithin_succ, leavesWithin_succ]
            refine visit_congr (aggregate?_congr_of_extended hp he)
              (fun b hb' => hb₂.flatten_congr hp hb') ?_
            intro b w path hb' hw
            rw [ha] at hb'
            cases hb'
            rw [ih (hp₁.trans hp) (hnew w hw) (by omega), ih hp₁ (hnew w hw) (Nat.le_refl _)]

def leavesAt (c : Catalog) (scope path : String) (v : Variable) : Except Fault (List Leaf) :=
  c.leavesWithin scope c.entries.length path v

theorem Built.leavesAt_congr (h : Built c) (hp : c.Extended c') (hv : c.Resolves v.type) :
    c'.leavesAt scope path v = c.leavesAt scope path v := by
  have hle : c.entries.length ≤ c'.entries.length := hp.length_le
  have hcount := c.aggregateCount_le
  unfold leavesAt
  rw [h.leavesWithin_congr hp hv (by omega), h.leavesWithin_congr (List.prefix_rfl) hv hcount]

/-- The walk follows the members without any bound. -/
theorem Built.leavesAt_eq (h : Built c) :
    c.leavesAt scope path v = c.visit scope (c.leavesAt scope) path v := by
  have hcount := h.aggregateCount_lt
  obtain ⟨n, hn⟩ : ∃ n, c.entries.length = n + 1 := ⟨c.entries.length - 1, by omega⟩
  unfold leavesAt
  rw [hn, leavesWithin_succ]
  refine visit_congr rfl (fun _ _ => rfl) ?_
  intro a w path ha hw
  have hr := h.resolves_of_mem_flatten ha hw
  have hfree : ∀ m, c.aggregateCount ≤ m →
      c.leavesWithin scope m path w = c.leavesWithin scope c.aggregateCount path w :=
    fun m hm => h.leavesWithin_congr List.prefix_rfl hr hm
  rw [hfree n (by omega), hfree (n + 1) (by omega)]

/-! ## References lead backwards -/

/-- A name leads to a derived type that was registered before place `i`. -/
def DefinedBefore (c : Catalog) (i : Nat) (name : String) : Prop :=
  ∃ j < i, ∃ entry, c.entries[j]? = some entry ∧ entry.aggregate.isSome = true ∧
    entry.name = name ∧ c.lookup? name = some entry

theorem definedBefore_length {entry : TypeEntry} (h : c.lookup? name = some entry)
    (ha : entry.aggregate.isSome = true) (hn : entry.name = name) :
    c.DefinedBefore c.entries.length name := by
  obtain ⟨j, hj, he⟩ := List.mem_iff_getElem.mp (mem_of_lookup? h)
  exact ⟨j, hj, entry, by rw [List.getElem?_eq_getElem hj, he], ha, hn, h⟩

theorem getElem?_of_extended {i : Nat} {entry : TypeEntry} (hp : c.Extended c')
    (h : c.entries[i]? = some entry) : c'.entries[i]? = some entry := by
  obtain ⟨rest, hr⟩ := hp
  rw [← hr, List.getElem?_append_left (List.getElem?_eq_some_iff.mp h).1, h]

theorem DefinedBefore.mono {i : Nat} (hp : c.Extended c') (h : c.DefinedBefore i name) :
    c'.DefinedBefore i name := by
  obtain ⟨j, hj, entry, he, ha, hn, hl⟩ := h
  exact ⟨j, hj, entry, getElem?_of_extended hp he, ha, hn, lookup?_of_extended hp hl⟩

theorem Built.definedBefore_of_knows (h : Built c) (hk : c.Knows a) :
    (∀ p, a.parent = some p → c.DefinedBefore c.entries.length p) ∧
      ∀ v ∈ a.members, v.type.isAggregate = true →
        c.DefinedBefore c.entries.length v.type.name := by
  constructor
  · intro p hp
    obtain ⟨b, hb, rfl⟩ := hk.parent p hp
    exact definedBefore_length (h.of_aggregate? hb).1 rfl rfl
  · intro v hv hagg
    obtain ⟨entry, he, hr⟩ := hk.members v hv
    exact definedBefore_length he (by rw [← hr] at hagg; exact hagg) (by rw [← hr]; rfl)

theorem Built.backward (h : Built c) {i : Nat} {entry : TypeEntry} (he : c.entries[i]? = some entry)
    (ha : entry.aggregate = some a) :
    (∀ p, a.parent = some p → c.DefinedBefore i p) ∧
      ∀ v ∈ a.members, v.type.isAggregate = true → c.DefinedBefore i v.type.name := by
  induction h with
  | refl =>
      obtain ⟨n, -, rfl⟩ := List.mem_map.mp (List.mem_of_getElem? he)
      cases ha
  | @define c₁ c₂ new hg hk hr ih =>
      have hp := extended_of_register hr
      rw [(register_eq_ok hr).2] at he
      by_cases hi : i < c₁.entries.length
      · rw [List.getElem?_append_left hi] at he
        obtain ⟨hparent, hmembers⟩ := ih he
        exact ⟨fun p hp' => (hparent p hp').mono hp, fun v hv hagg => (hmembers v hv hagg).mono hp⟩
      · -- the new entry is the last one
        have hlast : i = c₁.entries.length := by
          have hlen := (List.getElem?_eq_some_iff.mp he).1
          rw [List.length_append, List.length_singleton] at hlen
          omega
        rw [List.getElem?_append_right (by omega), hlast, Nat.sub_self] at he
        cases he
        cases ha
        obtain ⟨hparent, hmembers⟩ := Built.definedBefore_of_knows hg hk
        rw [hlast]
        exact ⟨fun p hp' => (hparent p hp').mono hp, fun v hv hagg => (hmembers v hv hagg).mono hp⟩

/-! ## Types of a run -/

/-- The type graph of a run is well-founded. What a derived type extends, and the derived types of its own
members, were registered before it. So flattening a type makes one call inside another for each ancestor,
the walk to the leaves of a variable is the recursion over members, and neither nests deeper than there
are derived types. -/
theorem types_wellFounded (dycore : String) (settings : Settings) (requests : List Request) :
    let catalog := ((Compilation.start dycore settings).after requests).context.catalog
    (∀ (i : Nat) (entry : TypeEntry) (a : Aggregate),
      catalog.entries[i]? = some entry → entry.aggregate = some a →
        (∀ p, a.parent = some p → catalog.DefinedBefore i p) ∧
          ∀ v ∈ a.members, v.type.isAggregate = true → catalog.DefinedBefore i v.type.name) ∧
    (∀ name a, catalog.aggregate? name = some a →
      ∃ line, catalog.Lineage a line ∧ line.length ≤ catalog.aggregateCount ∧
        catalog.flatten a = line.flatMap (·.members)) ∧
    (WellFounded fun w v => catalog.Descends v w) ∧
    (∀ v ws, List.IsChain catalog.Descends (v :: ws) → ws.length ≤ catalog.aggregateCount) ∧
    (∀ scope v, catalog.leaves scope v = catalog.leavesAt scope "" v) ∧
    (∀ scope path v,
      catalog.leavesAt scope path v = catalog.visit scope (catalog.leavesAt scope) path v) ∧
    catalog.aggregateCount < catalog.entries.length := by
  intro catalog
  have h : catalog.Built := ((Compilation.sound_start dycore settings).after requests).1.built
  refine ⟨fun i entry a he ha => h.backward he ha, ?_, h.wellFounded_descends,
    fun v ws hc => h.chain_length hc, fun scope v => rfl, fun scope path v => h.leavesAt_eq,
    h.aggregateCount_lt⟩
  intro name a ha
  obtain ⟨line, hl, hlen, -⟩ := h.exists_lineage ha
  exact ⟨line, hl, hlen, hl.flatten_eq hlen⟩

instance : Decidable (c.Descends v w) :=
  decidable_of_iff (v.type.isAggregate = true ∧ v.dimensions = [] ∧
    w ∈ (c.aggregate? v.type.name).elim [] c.flatten) (by
      unfold Descends
      cases c.aggregate? v.type.name <;> simp)

/-- A registry with a type inside another and a variable of the outer one. -/
def nestedRegistry : Node where
  tag := "registry"
  children :=
    [{ tag := "file"
       attributes := [("name", "state_types"), ("type", "module")]
       children :=
         [{ tag := "variable"
            attributes := [("local_name", "t"), ("standard_name", "air_temperature"),
              ("type", "real")] },
          { tag := "variable"
            attributes := [("local_name", "inner"), ("standard_name", "inner_instance"),
              ("type", "inner_state")] },
          { tag := "variable"
            attributes := [("local_name", "outer"), ("standard_name", "outer_instance"),
              ("type", "outer_state")] },
          { tag := "ddt"
            attributes := [("type", "inner_state")]
            children := [{ tag := "data", text := some "air_temperature" }] },
          { tag := "ddt"
            attributes := [("type", "outer_state")]
            children := [{ tag := "data", text := some "inner_instance" }] }] }]

/-- Visits can nest as deep as there are derived types. -/
theorem nestedRegistry_depth :
    let catalog := ((Compilation.start "se" []).after [.compile nestedRegistry]).context.catalog
    ∃ v w x, List.IsChain catalog.Descends [v, w, x] ∧ [w, x].length = catalog.aggregateCount ∧
      [w, x].length ≤ catalog.aggregateCount := by
  intro catalog
  have hchain : ∃ v ∈ ((Compilation.start "se" []).after [.compile nestedRegistry]).units.flatMap
      (·.dictionary.declared), ∃ w ∈ catalog.entries.flatMap (fun e => e.aggregate.elim [] (·.members)),
      ∃ x ∈ catalog.entries.flatMap (fun e => e.aggregate.elim [] (·.members)),
        catalog.Descends v w ∧ catalog.Descends w x := by decide +kernel
  obtain ⟨v, -, w, -, x, -, hvw, hwx⟩ := hchain
  have hc : List.IsChain catalog.Descends [v, w, x] :=
    List.isChain_cons_cons.mpr ⟨hvw, List.isChain_cons_cons.mpr ⟨hwx, .singleton x⟩⟩
  have hcount : catalog.aggregateCount = 2 := by decide +kernel
  obtain ⟨-, -, -, hbound, -⟩ := types_wellFounded "se" [] [.compile nestedRegistry]
  exact ⟨v, w, x, hc, hcount.symm, hbound v [w, x] hc⟩

end FieldRegistry.Catalog
