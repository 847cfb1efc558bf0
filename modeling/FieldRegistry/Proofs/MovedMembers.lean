import FieldRegistry.Proofs.DictionaryCalls
import FieldRegistry.Proofs.LowerCase
import FieldRegistry.Proofs.ReaderSteps

/-!
# What a derived type takes out of its dictionary

Each member changes the dictionary that the next one is looked up in, and a reading may stop between any two
of them. `Dictionary.Moved` says what the names of members stand for and what they leave behind, without the
order of the removals; a reading ends with the members of all its children moved, or with those of the
children before the one that stops it.
-/

namespace FieldRegistry

/-! ## Variables that leave -/

namespace Dictionary

variable {d d₁ d' : Dictionary} {v : Variable} {name : String} {names more : List String}
  {members others : List Variable}

/-- The variable is the only one with the standard name, in any letter case. -/
def Identifies (d : Dictionary) (name : String) (v : Variable) : Prop :=
  ∀ w, (w ∈ d.declared ∧ Text.lower w.standardName = Text.lower name) ↔ w = v

/-- The members are the variables with the given names, and all that the second dictionary lacks. -/
structure Moved (d : Dictionary) (names : List String) (members : List Variable) (d' : Dictionary) :
    Prop where
  named : List.Forall₂ d.Identifies names members
  distinct : members.Nodup
  entries : d'.byLocalName.entries = d.byLocalName.entries.filter fun entry => entry.2 ∉ members
  rest : d' = { d with byLocalName := d'.byLocalName }

theorem identifies_of_mem (hkeys : d.standardKeys.Nodup) (hv : v ∈ d.declared)
    (hk : Text.lower v.standardName = Text.lower name) : d.Identifies name v := by
  intro w
  rw [← findStandard?_eq_some hkeys, (findStandard?_eq_some hkeys).mpr ⟨hv, hk⟩, Option.some.injEq,
    eq_comm]

theorem Moved.refl (d : Dictionary) : d.Moved [] [] d := ⟨.nil, List.nodup_nil, by simp, rfl⟩

theorem Moved.declared (h : d.Moved names members d') :
    d'.declared = d.declared.filter (· ∉ members) := by
  rw [declared_eq, declared_eq, h.entries, List.filter_map]
  rfl

theorem Moved.mem_iff (h : d.Moved names members d') :
    v ∈ d'.declared ↔ v ∈ d.declared ∧ v ∉ members := by
  rw [h.declared]
  simp

/-- The next variable that is taken out is the one with its name in the dictionary at the start. -/
theorem Moved.take (h : d.Moved names members d₁) (hkeys : d.standardKeys.Nodup)
    (ht : d₁.take? name = some (v, d')) : d.Moved (names ++ [name]) (members ++ [v]) d' := by
  obtain ⟨hk, ⟨entries, hd'⟩, hp⟩ := take?_eq_some ht
  have hv₁ : v ∈ d₁.declared := hp.mem_iff.mpr List.mem_cons_self
  obtain ⟨hv, hnew⟩ := h.mem_iff.mp hv₁
  have hkeys₁ : d₁.standardKeys.Nodup := by
    rw [standardKeys, h.declared]
    exact hkeys.sublist (List.filter_sublist.map _)
  refine ⟨List.rel_append h.named (.cons (identifies_of_mem hkeys hv hk) .nil), ?_, ?_, ?_⟩
  · exact List.nodup_append.mpr ⟨h.distinct, List.nodup_singleton v, fun w hw u hu hwu =>
      hnew (List.mem_singleton.mp hu ▸ hwu ▸ hw)⟩
  · rw [entries_of_take? hkeys₁ ht, h.entries, List.filter_filter]
    simp [and_comm]
  · rw [hd', h.rest]

theorem Moved.forall₂_rest (h : d.Moved names members d₁)
    (hall : d.Moved (names ++ more) (members ++ others) d') : List.Forall₂ d.Identifies more others := by
  have hdrop := List.forall₂_drop_append _ _ _ hall.named
  rwa [← h.named.length_eq, List.drop_left] at hdrop

/-- Of the names that are still to come, the first is that of a variable that is still there. -/
theorem Moved.take_next (h : d.Moved names members d₁) (hkeys : d.standardKeys.Nodup)
    (hall : d.Moved (names ++ name :: more) (members ++ others) d') :
    ∃ v d₂ others', others = v :: others' ∧ d₁.take? name = some (v, d₂) ∧
      d.Moved (names ++ [name]) (members ++ [v]) d₂ := by
  obtain ⟨v, others', hv, -, rfl⟩ := List.forall₂_cons_left_iff.mp (h.forall₂_rest hall)
  obtain ⟨hmem, hk⟩ := (hv v).mpr rfl
  have hv₁ : v ∈ d₁.declared :=
    h.mem_iff.mpr ⟨hmem, fun hold =>
      (List.nodup_append.mp hall.distinct).2.2 v hold v List.mem_cons_self rfl⟩
  cases ht : d₁.take? name with
  | none => exact absurd ⟨v, hv₁, hk⟩ (take?_eq_none_iff.mp ht)
  | some found =>
      obtain ⟨w, d₂⟩ := found
      have hnext := h.take hkeys ht
      -- the name has one variable only
      have hwv : w = v := by
        obtain ⟨hkw, -, hp⟩ := take?_eq_some ht
        have hw₁ : w ∈ d₁.declared := hp.mem_iff.mpr List.mem_cons_self
        exact (hv w).mp ⟨(h.mem_iff.mp hw₁).1, hkw⟩
      subst hwv
      exact ⟨w, d₂, others', rfl, rfl, hnext⟩

theorem Moved.eq_of_append_nil (h : d.Moved names members d₁)
    (hall : d.Moved names (members ++ others) d') :
    others = [] ∧ d' = d₁ := by
  have hlength := hall.named.length_eq
  rw [h.named.length_eq, List.length_append] at hlength
  obtain rfl : others = [] := List.eq_nil_of_length_eq_zero (by omega)
  rw [List.append_nil] at hall
  have hentries : d'.byLocalName = d₁.byLocalName :=
    OrderedMap.ext (hall.entries.trans h.entries.symm)
  exact ⟨rfl, hall.rest.trans (hentries ▸ h.rest.symm)⟩

/-- No variable that is left has the name of one that moved. -/
theorem Moved.not_hasStandard {earlier : String} (h : d.Moved names members d') (hearlier : earlier ∈ names)
    (hk : Text.lower earlier = Text.lower name) : ¬ d'.HasStandard name := by
  rintro ⟨v, hv, hkv⟩
  obtain ⟨w, hw, hid⟩ := exists_left_of_forall₂ h.named.flip hearlier
  obtain ⟨hmem, hnew⟩ := h.mem_iff.mp hv
  exact hnew ((hid v).mp ⟨hmem, hkv.trans hk.symm⟩ ▸ hw)

end Dictionary

/-! ## Children that name members -/

namespace Aggregate

variable {typeName dycore : String} {child : Node} {children before after : List Node}
  {d d₁ d' : Dictionary} {names : List String} {members others : List Variable} {fault : Fault}

/-- A list without items other than blanks means every core; other lists mean the cores that they
contain, in any letter case. -/
def MeantFor (child : Node) (dycore : String) : Prop :=
  let items := (Text.splitAll ',' (child.get "dycore")).map Text.trim
  (∀ item ∈ items, item = "") ∨ ∃ item ∈ items, item ≠ "" ∧ Text.lower item = Text.lower dycore

instance (child : Node) (dycore : String) : Decidable (MeantFor child dycore) :=
  inferInstanceAs (Decidable (_ ∨ _))

theorem listItems_eq_map_lower (text : String) :
    listItems text =
      (((Text.splitAll ',' text).map Text.trim).filter (· ≠ "")).map Text.lower := by
  rw [listItems, List.filter_map, List.filter_map, List.map_map]
  refine congrArg _ (List.filter_congr fun item _ => ?_)
  rw [Function.comp_apply, Function.comp_apply, Bool.eq_iff_iff]
  simp [Text.lower_eq_empty_iff]

theorem isFor_iff : isFor child dycore = true ↔ MeantFor child dycore := by
  rw [isFor, listItems_eq_map_lower, Bool.or_eq_true, List.isEmpty_iff, List.map_eq_nil_iff,
    List.filter_eq_nil_iff, List.contains_iff_mem, List.mem_map]
  simp [MeantFor, and_assoc]

/-- The standard names in the children that are meant for a core. -/
def memberNames (dycore : String) (children : List Node) : List String :=
  (children.filter (MeantFor · dycore)).map fun child => Text.trim child.body

/-- What stops a reading at a child, in the dictionary that it finds. -/
inductive Stops (typeName dycore : String) (d : Dictionary) (child : Node) : Fault → Prop
  | element (htag : child.tag ≠ "data") :
      Stops typeName dycore d child (.unknownElement child.tag typeName d.name)
  | member (htag : child.tag = "data") (hfor : MeantFor child dycore)
      (hnone : ¬ d.HasStandard (Text.trim child.body)) :
      Stops typeName dycore d child (.unknownMember (Text.trim child.body) typeName d.name)

theorem memberNames_cons_of_meantFor (hfor : MeantFor child dycore) :
    memberNames dycore (child :: children) = Text.trim child.body :: memberNames dycore children := by
  simp [memberNames, hfor]

theorem memberNames_cons_of_not_meantFor (hfor : ¬ MeantFor child dycore) :
    memberNames dycore (child :: children) = memberNames dycore children := by
  simp [memberNames, hfor]

theorem memberNames_append :
    memberNames dycore (before ++ after) = memberNames dycore before ++ memberNames dycore after := by
  simp [memberNames]

/-! ### One child -/

theorem outcome_takeMember_of_stops (h : Stops typeName dycore d child fault) :
    (takeMember typeName dycore child).outcome d = (.error fault, d) := by
  rw [outcome_takeMember]
  cases h with
  | element htag => rw [if_pos (by simpa using htag)]
  | member htag hfor hnone =>
      rw [if_neg (by simp [htag]), if_pos (isFor_iff.mpr hfor), Dictionary.take?_eq_none_iff.mpr hnone]

theorem outcome_takeMember_of_skipped (htag : child.tag = "data") (hfor : ¬ MeantFor child dycore) :
    (takeMember typeName dycore child).outcome d = (.ok none, d) := by
  rw [outcome_takeMember, if_neg (by simp [htag]), if_neg (fun h => hfor (isFor_iff.mp h))]

theorem outcome_takeMember_of_taken {v : Variable} (htag : child.tag = "data")
    (hfor : MeantFor child dycore) (ht : d.take? (Text.trim child.body) = some (v, d')) :
    (takeMember typeName dycore child).outcome d = (.ok (some v), d') := by
  rw [outcome_takeMember, if_neg (by simp [htag]), if_pos (isFor_iff.mpr hfor), ht]

theorem stops_or_moved (hkeys : d.standardKeys.Nodup) (h : d.Moved names members d₁) (child : Node) :
    (∃ fault, Stops typeName dycore d₁ child fault) ∨
      child.tag = "data" ∧
        ∃ moved d', d.Moved (names ++ memberNames dycore [child]) (members ++ moved) d' := by
  by_cases htag : child.tag = "data"
  · by_cases hfor : MeantFor child dycore
    · cases ht : d₁.take? (Text.trim child.body) with
      | none => exact .inl ⟨_, .member htag hfor (Dictionary.take?_eq_none_iff.mp ht)⟩
      | some found =>
          obtain ⟨v, d'⟩ := found
          rw [memberNames_cons_of_meantFor hfor]
          exact .inr ⟨htag, [v], d', h.take hkeys ht⟩
    · rw [memberNames_cons_of_not_meantFor hfor]
      exact .inr ⟨htag, [], d₁, by simpa [memberNames] using h⟩
  · exact .inl ⟨_, .element htag⟩

/-! ### All children -/

/-- Children whose members can move are read one after another, and what comes after them is read in the
dictionary that they leave. -/
theorem outcome_takeMembers (typeName : String) (after : List Node) (hkeys : d.standardKeys.Nodup)
    (htags : ∀ child ∈ before, child.tag = "data") (h : d.Moved names members d₁)
    (hall : d.Moved (names ++ memberNames dycore before) (members ++ others) d') :
    ∃ taken : List (Option Variable), taken.filterMap id = others ∧
      Action.outcome ((before ++ after).mapM (takeMember typeName dycore)) d₁ =
        let rest := Action.outcome (after.mapM (takeMember typeName dycore)) d'
        (rest.1.map (taken ++ ·), rest.2) := by
  induction before generalizing names members others d₁ with
  | nil =>
      rw [memberNames, List.filter_nil, List.map_nil, List.append_nil] at hall
      obtain ⟨rfl, rfl⟩ := h.eq_of_append_nil hall
      refine ⟨[], rfl, ?_⟩
      rw [List.nil_append]
      cases Action.outcome (after.mapM (takeMember typeName dycore)) d' with
      | mk result rest => cases result <;> rfl
  | cons child before ih =>
      obtain ⟨htag, htags⟩ := List.forall_mem_cons.mp htags
      -- what one child gives stands before what the others give
      have hcons : ∀ {taken : List (Option Variable)} (r : Option Variable)
          (rest : Except Fault (List (Option Variable))),
          (rest.map (taken ++ ·)).map (r :: ·) = rest.map (r :: taken ++ ·) := by
        intro taken r rest
        cases rest <;> rfl
      by_cases hfor : MeantFor child dycore
      · rw [memberNames_cons_of_meantFor hfor] at hall
        obtain ⟨v, d₂, others', rfl, ht, hnext⟩ := h.take_next hkeys hall
        obtain ⟨taken, rfl, hrun⟩ := ih htags hnext (by simpa using hall)
        refine ⟨some v :: taken, rfl, ?_⟩
        rw [List.cons_append, Action.outcome_mapM_cons_of_ok (outcome_takeMember_of_taken htag hfor ht),
          hrun, hcons]
      · rw [memberNames_cons_of_not_meantFor hfor] at hall
        obtain ⟨taken, rfl, hrun⟩ := ih htags h hall
        refine ⟨none :: taken, rfl, ?_⟩
        rw [List.cons_append, Action.outcome_mapM_cons_of_ok (outcome_takeMember_of_skipped htag hfor),
          hrun, hcons]

/-- Either all members can move, or one of the children stops the reading after those before it. -/
theorem moved_or_stops (hkeys : d.standardKeys.Nodup) (h : d.Moved names members d₁)
    (children : List Node) :
    ((∀ child ∈ children, child.tag = "data") ∧
      ∃ others d', d.Moved (names ++ memberNames dycore children) (members ++ others) d') ∨
    ∃ before child after others d' fault, children = before ++ child :: after ∧
      (∀ child ∈ before, child.tag = "data") ∧
      d.Moved (names ++ memberNames dycore before) (members ++ others) d' ∧
      Stops typeName dycore d' child fault := by
  induction children generalizing names members d₁ with
  | nil => exact .inl ⟨by simp, [], d₁, by simpa [memberNames] using h⟩
  | cons child children ih =>
      rcases stops_or_moved hkeys h child with ⟨fault, hstops⟩ | ⟨htag, moved, d₂, h₂⟩
      · exact .inr ⟨[], child, children, [], d₁, fault, rfl, by simp, by simpa [memberNames] using h,
          hstops⟩
      -- the names of the child stand before those of the others
      have hnames : ∀ more, names ++ memberNames dycore (child :: more) =
          names ++ memberNames dycore [child] ++ memberNames dycore more := fun more => by
        rw [List.append_assoc, ← memberNames_append, List.singleton_append]
      rcases ih h₂ with ⟨htags, others, d', hall⟩ |
        ⟨before, stop, after, others, d', fault, rfl, htags, hall, hstops⟩
      · refine .inl ⟨List.forall_mem_cons.mpr ⟨htag, htags⟩, moved ++ others, d', ?_⟩
        rwa [hnames, ← List.append_assoc]
      · refine .inr ⟨child :: before, stop, after, moved ++ others, d', fault, rfl,
          List.forall_mem_cons.mpr ⟨htag, htags⟩, ?_, hstops⟩
        rwa [hnames, ← List.append_assoc]

/-! ### Whole definitions -/

/-- The definition that a header and a list of members make. -/
def Header.define (header : Header) (scope : String) (members : List Variable) : Aggregate where
  name := header.name
  scope := scope
  members := members
  parent := header.parent
  isPrivate := header.isPrivate
  isBindC := header.isBindC

section Definitions

variable {catalog : Catalog} {node : Node} {header : Header}

theorem outcome_ofNode_of_header (hheader : readHeader catalog d.name node = .error fault) :
    (ofNode catalog dycore node).outcome d = (.error fault, d) := by
  rw [outcome_ofNode, hheader]

theorem outcome_ofNode_of_moved (hkeys : d.standardKeys.Nodup)
    (hheader : readHeader catalog d.name node = .ok header)
    (htags : ∀ child ∈ node.children, child.tag = "data")
    (h : d.Moved (memberNames dycore node.children) members d') :
    (ofNode catalog dycore node).outcome d = (.ok (header.define d.name members), d') := by
  obtain ⟨taken, rfl, hrun⟩ := outcome_takeMembers header.name [] hkeys htags (.refl d) h
  rw [List.append_nil] at hrun
  rw [outcome_ofNode, hheader]
  dsimp only
  rw [hrun]
  simp [Header.define, Except.map]

theorem outcome_ofNode_of_stops (hkeys : d.standardKeys.Nodup)
    (hheader : readHeader catalog d.name node = .ok header)
    (hchildren : node.children = before ++ child :: after)
    (htags : ∀ child ∈ before, child.tag = "data")
    (h : d.Moved (memberNames dycore before) members d')
    (hstops : Stops (node.get "type") dycore d' child fault) :
    (ofNode catalog dycore node).outcome d = (.error fault, d') := by
  rw [← (readHeader_eq_ok hheader).1] at hstops
  obtain ⟨taken, -, hrun⟩ := outcome_takeMembers header.name (child :: after) hkeys htags (.refl d) h
  rw [Action.outcome_mapM_cons_of_error (outcome_takeMember_of_stops hstops)] at hrun
  rw [outcome_ofNode, hheader]
  dsimp only
  rw [hchildren, hrun]
  rfl

/-- The three ways in which a reading can end. -/
theorem header_or_moved_or_stops (hkeys : d.standardKeys.Nodup) :
    (∃ fault, readHeader catalog d.name node = .error fault) ∨
    (∃ header members d', readHeader catalog d.name node = .ok header ∧
      (∀ child ∈ node.children, child.tag = "data") ∧
      d.Moved (memberNames dycore node.children) members d') ∨
    ∃ header before child after members d' fault, readHeader catalog d.name node = .ok header ∧
      node.children = before ++ child :: after ∧ (∀ child ∈ before, child.tag = "data") ∧
      d.Moved (memberNames dycore before) members d' ∧
      Stops (node.get "type") dycore d' child fault := by
  cases hheader : readHeader catalog d.name node with
  | error fault => exact .inl ⟨fault, rfl⟩
  | ok header =>
      rcases moved_or_stops hkeys (.refl d) node.children with ⟨htags, members, d', h⟩ |
        ⟨before, child, after, members, d', fault, hchildren, htags, h, hstops⟩
      · exact .inr (.inl ⟨header, members, d', rfl, htags, h⟩)
      · exact .inr (.inr ⟨header, before, child, after, members, d', fault, rfl, hchildren, htags, h,
          hstops⟩)

end Definitions

end Aggregate

open Aggregate in
/-- A definition is read from a dictionary after any calls if and only if its attributes are right, all its
children name members and these members can move; and then they have moved, in the order of the children. A
reading that fails leaves the dictionary as it is where the attributes are wrong. Otherwise it has moved the
members of the children before the first one that is no member, or names a variable that is not there any
more, as each child does that repeats a name. -/
theorem definition_moves_members (name kind : String) (calls : List Dictionary.Call) (catalog : Catalog)
    (dycore : String) (node : Node) :
    let d := ((Dictionary.Session.start name kind).after calls).dictionary
    let result := (Aggregate.ofNode catalog dycore node).outcome d
    (∀ a d', result = (.ok a, d') ↔
      ∃ header, readHeader catalog d.name node = .ok header ∧
        (∀ child ∈ node.children, child.tag = "data") ∧
        d.Moved (memberNames dycore node.children) a.members d' ∧
        a = header.define d.name a.members) ∧
    (∀ fault d', result = (.error fault, d') ↔
      (readHeader catalog d.name node = .error fault ∧ d' = d) ∨
      ∃ header before child after members, readHeader catalog d.name node = .ok header ∧
        node.children = before ++ child :: after ∧
        (∀ child ∈ before, child.tag = "data") ∧
        d.Moved (memberNames dycore before) members d' ∧
        Stops (node.get "type") dycore d' child fault) ∧
    ∀ header before child after members d', readHeader catalog d.name node = .ok header →
      node.children = before ++ child :: after →
      (∀ child ∈ before, child.tag = "data") →
      d.Moved (memberNames dycore before) members d' →
      child.tag = "data" → MeantFor child dycore →
      (∃ earlier ∈ memberNames dycore before, Text.lower earlier = Text.lower (Text.trim child.body)) →
      result = (.error (.unknownMember (Text.trim child.body) (node.get "type") d.name), d') := by
  intro d result
  have hkeys : d.standardKeys.Nodup := by
    have hnodup := ((Dictionary.Session.faithful_start name kind).after calls).standardNames_nodup
    rw [List.map_append, List.nodup_append] at hnodup
    exact hnodup.1
  refine ⟨fun a d' => ⟨fun hresult => ?_, ?_⟩, fun fault d' => ⟨fun hresult => ?_, ?_⟩, ?_⟩
  · rcases header_or_moved_or_stops hkeys with ⟨fault, hheader⟩ |
      ⟨header, members, d'', hheader, htags, h⟩ | ⟨header, before, child, after, members, d'', fault, hheader,
        hchildren, htags, h, hstops⟩
    · cases hresult.symm.trans (outcome_ofNode_of_header hheader)
    · cases hresult.symm.trans (outcome_ofNode_of_moved hkeys hheader htags h)
      exact ⟨header, hheader, htags, h, rfl⟩
    · cases hresult.symm.trans (outcome_ofNode_of_stops hkeys hheader hchildren htags h hstops)
  · rintro ⟨header, hheader, htags, h, ha⟩
    rw [ha]
    exact outcome_ofNode_of_moved hkeys hheader htags h
  · rcases header_or_moved_or_stops hkeys with ⟨fault, hheader⟩ |
      ⟨header, members, d'', hheader, htags, h⟩ | ⟨header, before, child, after, members, d'', fault, hheader,
        hchildren, htags, h, hstops⟩
    · cases hresult.symm.trans (outcome_ofNode_of_header hheader)
      exact .inl ⟨hheader, rfl⟩
    · cases hresult.symm.trans (outcome_ofNode_of_moved hkeys hheader htags h)
    · cases hresult.symm.trans (outcome_ofNode_of_stops hkeys hheader hchildren htags h hstops)
      exact .inr ⟨header, before, child, after, members, hheader, hchildren, htags, h, hstops⟩
  · rintro (⟨hheader, rfl⟩ | ⟨header, before, child, after, members, hheader, hchildren, htags, h, hstops⟩)
    · exact outcome_ofNode_of_header hheader
    · exact outcome_ofNode_of_stops hkeys hheader hchildren htags h hstops
  · intro header before child after members d' hheader hchildren htags h htag hfor ⟨earlier, hearlier, hk⟩
    have hname : d'.name = d.name := by rw [h.rest]
    rw [← hname]
    exact outcome_ofNode_of_stops hkeys hheader hchildren htags h
      (.member htag hfor (h.not_hasStandard hearlier hk))

def repeatedWind : Node where
  tag := "data"
  attributes := [("dycore", " SE ,fv3")]
  text := some "EAST_WIND"

/-- A definition that lists one wind twice, and one that only other cores have. -/
def windsElement : Node where
  tag := "ddt"
  attributes := [("type", "winds_t")]
  children :=
    [{ tag := "data", text := some " East_Wind" },
     { tag := "data", attributes := [("dycore", "fv3, MPAS")], text := some "south_wind" },
     repeatedWind]

theorem windsElement_stops :
    let east := Dictionary.Session.allocatableReal "u" "east_wind" ["horizontal_dimension"]
    let north := Dictionary.Session.allocatableReal "v" "north_wind" ["horizontal_dimension"]
    let d := ((Dictionary.Session.start "physics_types" "module").after
      [.add east, .add north]).dictionary
    ∃ d', d.Moved ["East_Wind"] [east] d' ∧ d'.declared = [north] ∧
      (Aggregate.ofNode .initial "se" windsElement).outcome d =
        (.error (.unknownMember "EAST_WIND" "winds_t" "physics_types"), d') := by
  intro east north d
  have hkeys : d.standardKeys.Nodup := by decide +kernel
  have heast : east ∈ d.declared := by decide +kernel
  have hmoved : d.Moved ["East_Wind"] [east] { d with byLocalName := d.byLocalName.erase "u" } :=
    ⟨.cons (Dictionary.identifies_of_mem hkeys heast (by decide +kernel)) .nil,
      List.nodup_singleton east, by decide +kernel, rfl⟩
  have hnames : Aggregate.memberNames "se" (windsElement.children.take 2) = ["East_Wind"] := by
    decide +kernel
  have hheader : (Aggregate.readHeader .initial d.name windsElement).toOption.any (fun _ => true) =
      true := by
    decide +kernel
  obtain ⟨header, hheader, -⟩ := eq_ok_of_any hheader
  have hfault : Fault.unknownMember (Text.trim repeatedWind.body) (windsElement.get "type") d.name =
      .unknownMember "EAST_WIND" "winds_t" "physics_types" := by
    decide +kernel
  have hstop := (definition_moves_members "physics_types" "module" [.add east, .add north] .initial "se"
    windsElement).2.2 header (windsElement.children.take 2) repeatedWind [] [east] _ hheader rfl
    (by decide +kernel) (hnames ▸ hmoved) rfl (by decide +kernel)
    ⟨"East_Wind", by decide +kernel, by decide +kernel⟩
  exact ⟨_, hmoved, by decide +kernel, hstop.trans (by rw [hfault])⟩

end FieldRegistry
