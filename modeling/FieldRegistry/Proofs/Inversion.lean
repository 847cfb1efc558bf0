import FieldRegistry.AggregateReader
import FieldRegistry.Proofs.CatalogGrowth

/-!
# What a successful reading tells

Inversion of the readers of variables and derived types: from a result one gets back the attributes it
came from, the catalog entry of its type and the variables that left the dictionary.
-/

namespace FieldRegistry

variable {catalog : Catalog} {dictionary dictionary' : Dictionary} {node : Node}

/-! ## Variables -/

theorem Quantity.read_eq_ok {scope localName : String} {dimensions : List String}
    {defaults : Quantity.Defaults} {q : Quantity}
    (h : Quantity.read catalog scope node localName dimensions defaults = .ok q) :
    q.localName = localName ∧ q.standardName = node.get "standard_name" ∧
      q.dimensions = dimensions ∧
      ∃ entry, catalog.lookup? ((node.get? "type").getD defaults.typeName) = some entry ∧
        q.type = entry.ref := by
  unfold Quantity.read at h
  dsimp only at h
  split at h
  · rename_i entry he
    obtain ⟨type, ht, h⟩ := bind_eq_ok h
    cases ht
    split at h
    · cases h
    split at h
    all_goals
      obtain ⟨storage, -, h⟩ := bind_eq_ok h
      cases h
      exact ⟨rfl, rfl, rfl, entry, he, rfl⟩
  · cases h

/-- The parts of a variable that was read: its shape, what it has in common with array elements, and
its elements. -/
theorem Variable.ofNode_eq_ok {v : Variable}
    (h : (Variable.ofNode catalog dictionary node).outcome = .ok v) :
    ∃ storage shape,
      Quantity.readStorage (node.get "allocatable") (node.get "local_name") dictionary.name =
        .ok storage ∧
      node.children.foldlM (fun shape child =>
        (readShape dictionary storage (node.get "local_name") shape child).outcome) {} = .ok shape ∧
      Quantity.read catalog dictionary.name node (node.get "local_name") shape.tokens { storage } =
        .ok v.toQuantity ∧
      (node.children.filter (·.tag == "element")).mapM (fun child =>
        (Element.ofNode catalog dictionary v.toQuantity child).outcome) = .ok v.elements ∧
      v.extents = shape.extents := by
  unfold Variable.ofNode at h
  dsimp only at h
  split at h
  · rw [Checked.outcome_bind] at h; cases h
  split at h
  · simp only [Checked.outcome_bind, Checked.outcome_ofExcept, Checked.outcome_foldlM,
      Checked.outcome_mapM, Checked.outcome_ite] at h
    obtain ⟨storage, hstorage, h⟩ := bind_eq_ok h
    obtain ⟨shape, hshape, h⟩ := bind_eq_ok h
    obtain ⟨q, hq, h⟩ := bind_eq_ok h
    obtain ⟨elements, helements, h⟩ := bind_eq_ok h
    split at h
    · cases h
    · cases h
      exact ⟨storage, shape, hstorage, hshape, hq, helements, rfl⟩
  · cases h

theorem Variable.ofNode_names {v : Variable}
    (h : (Variable.ofNode catalog dictionary node).outcome = .ok v) :
    v.localName = node.get "local_name" ∧ v.standardName = node.get "standard_name" ∧
      catalog.Resolves v.type := by
  obtain ⟨storage, shape, -, -, hq, -, -⟩ := Variable.ofNode_eq_ok h
  obtain ⟨hl, hs, -, entry, he, ht⟩ := Quantity.read_eq_ok hq
  exact ⟨hl, hs, ht ▸ .of_lookup? he⟩

/-! ## Derived types -/

/-- Variables that leave a dictionary one after another, each by its standard name. -/
inductive Dictionary.Moves : Dictionary → List Variable → Dictionary → Prop
  | refl {d : Dictionary} : Moves d [] d
  | take {d d₁ d₂ : Dictionary} {name : String} {v : Variable} {vs : List Variable} :
      d.take? name = some (v, d₁) → Moves d₁ vs d₂ → Moves d (v :: vs) d₂

theorem Dictionary.outcome_remove {ε : Type} (name : String) (d : Dictionary) :
    (Dictionary.remove name : Action ε Dictionary (Option Variable)).outcome d =
      match d.take? name with
      | some (v, rest) => (.ok (some v), rest)
      | none => (.ok none, d) := by
  unfold Dictionary.remove
  rw [Action.outcome_bind_of_ok (Action.outcome_get d)]
  cases d.take? name with
  | none => rfl
  | some taken => rfl

theorem Aggregate.takeMember_eq_ok {name dycore : String} {r : Option Variable}
    (h : (takeMember name dycore node).outcome dictionary = (.ok r, dictionary')) :
    (r = none ∧ dictionary' = dictionary) ∨
      ∃ v, r = some v ∧ dictionary.take? (Text.trim node.body) = some (v, dictionary') := by
  unfold takeMember at h
  rw [Action.outcome_bind_of_ok (Action.outcome_get dictionary)] at h
  dsimp only at h
  split at h
  · rw [Action.outcome_bind_of_error (Action.outcome_throw _ _)] at h; cases h
  split at h
  · rw [Action.outcome_bind, Dictionary.outcome_remove] at h
    cases ht : dictionary.take? (Text.trim node.body) with
    | none => rw [ht] at h; cases h
    | some taken =>
        obtain ⟨v, rest⟩ := taken
        rw [ht] at h
        cases h
        exact Or.inr ⟨v, rfl, rfl⟩
  · rw [Action.outcome_bind_of_ok (Action.outcome_lift _ _)] at h
    cases h
    exact Or.inl ⟨rfl, rfl⟩

theorem Aggregate.moves_of_takeMembers {name dycore : String} {children : List Node}
    {taken : List (Option Variable)}
    (h : Action.outcome (children.mapM (takeMember name dycore)) dictionary =
      (.ok taken, dictionary')) :
    dictionary.Moves (taken.filterMap id) dictionary' := by
  induction children generalizing dictionary taken with
  | nil => cases h; exact .refl
  | cons child children ih =>
      rw [List.mapM_cons] at h
      obtain ⟨r, d₁, hr, h⟩ := Action.outcome_bind_eq_ok h
      obtain ⟨rs, d₂, hrs, h⟩ := Action.outcome_bind_eq_ok h
      cases h
      rcases takeMember_eq_ok hr with ⟨rfl, rfl⟩ | ⟨v, rfl, ht⟩
      · simpa using ih hrs
      · simpa using Dictionary.Moves.take ht (ih hrs)

theorem Aggregate.readParent_eq_ok {name scope : String} {parent : Option String}
    (h : readParent catalog node name scope = .ok parent) :
    ∀ p, parent = some p → ∃ b written, catalog.aggregate? written = some b ∧ b.name = p := by
  unfold readParent at h
  intro p hp
  subst hp
  split at h
  · cases h
  · split at h
    · rename_i written _ _ b hb
      cases h
      exact ⟨b, written, hb, rfl⟩
    · cases h

theorem Aggregate.readHeader_eq_ok {scope : String} {header : Header}
    (h : readHeader catalog scope node = .ok header) :
    header.name = node.get "type" ∧
      readParent catalog node header.name scope = .ok header.parent := by
  unfold readHeader at h
  obtain ⟨parent, hparent, h⟩ := bind_eq_ok h
  obtain ⟨isBindC, -, h⟩ := bind_eq_ok h
  dsimp only at h
  split at h
  · cases h
  obtain ⟨isPrivate, -, h⟩ := bind_eq_ok h
  cases h
  exact ⟨rfl, hparent⟩

/-- A definition takes its name from its element, its scope from the dictionary and its members out of
the dictionary; the type that it extends is known. -/
theorem Aggregate.ofNode_eq_ok {dycore : String} {a : Aggregate}
    (h : (Aggregate.ofNode catalog dycore node).outcome dictionary = (.ok a, dictionary')) :
    a.name = node.get "type" ∧ a.scope = dictionary.name ∧
      (∀ p, a.parent = some p → ∃ b written, catalog.aggregate? written = some b ∧ b.name = p) ∧
      dictionary.Moves a.members dictionary' := by
  unfold Aggregate.ofNode at h
  rw [Action.outcome_bind_of_ok (Action.outcome_get dictionary)] at h
  dsimp only at h
  split at h
  · rename_i header hheader
    rw [Action.outcome_bind_of_ok (Action.outcome_pure header dictionary)] at h
    obtain ⟨taken, d, htaken, h⟩ := Action.outcome_bind_eq_ok h
    cases h
    obtain ⟨hname, hparent⟩ := readHeader_eq_ok hheader
    exact ⟨hname, rfl, readParent_eq_ok hparent, moves_of_takeMembers htaken⟩
  · cases h

end FieldRegistry
