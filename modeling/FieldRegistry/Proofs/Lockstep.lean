import FieldRegistry.Proofs.ReaderSteps

/-!
# Two runs side by side

Two results match if both are faults of one kind or both are values in a relation. Programs match if they
take matching steps from related states, so a law about two runs is proved along the program.
-/

namespace FieldRegistry

variable {α α' β β' σ σ' : Type} {R : α → α' → Prop} {S : β → β' → Prop}

/-- Two faults match if they have the same code; every kind of fault has its own. -/
inductive Matched (R : α → α' → Prop) : Except Fault α → Except Fault α' → Prop
  | ok {a : α} {a' : α'} : R a a' → Matched R (.ok a) (.ok a')
  | error {fault fault' : Fault} : fault.code = fault'.code →
      Matched R (.error fault) (.error fault')

theorem Matched.refl {R : α → α → Prop} (hR : ∀ a, R a a) (x : Except Fault α) : Matched R x x := by
  cases x with
  | error fault => exact .error rfl
  | ok a => exact .ok (hR a)

theorem matched_self (x : Except Fault α) : Matched Eq x x := .refl (fun _ => rfl) x

theorem Matched.eq_ok {x : Except Fault α} {x' : Except Fault α'} {a : α} (h : Matched R x x')
    (hx : x = .ok a) : ∃ a', x' = .ok a' ∧ R a a' := by
  cases h with
  | ok h =>
      cases hx
      exact ⟨_, rfl, h⟩
  | error h => cases hx

theorem Matched.bind {x : Except Fault α} {x' : Except Fault α'} {f : α → Except Fault β}
    {f' : α' → Except Fault β'} (hx : Matched R x x')
    (hf : ∀ a a', x = .ok a → x' = .ok a' → R a a' → Matched S (f a) (f' a')) :
    Matched S (x >>= f) (x' >>= f') := by
  cases hx with
  | ok h => exact hf _ _ rfl rfl h
  | error h => exact .error h

theorem Matched.map {x : Except Fault α} {x' : Except Fault α'} {f : α → β} {f' : α' → β'}
    (hx : Matched R x x') (hf : ∀ a a', R a a' → S (f a) (f' a')) :
    Matched S (x.map f) (x'.map f') := by
  cases hx with
  | ok h => exact .ok (hf _ _ h)
  | error h => exact .error h

/-! ## Searches -/

theorem rel_bind {x : Option α} {x' : Option α'} {f : α → Option β} {f' : α' → Option β'}
    (hx : Option.Rel R x x') (hf : ∀ a a', R a a' → Option.Rel S (f a) (f' a')) :
    Option.Rel S (x.bind f) (x'.bind f') := by
  cases hx with
  | none => exact .none
  | some h => exact hf _ _ h

theorem rel_map {x : Option α} {x' : Option α'} {f : α → β} {f' : α' → β'}
    (hx : Option.Rel R x x') (hf : ∀ a a', R a a' → S (f a) (f' a')) :
    Option.Rel S (x.map f) (x'.map f') := by
  cases hx with
  | none => exact .none
  | some h => exact .some (hf _ _ h)

theorem rel_cases {x : Option α} {x' : Option α'} (h : Option.Rel R x x') :
    (x = none ∧ x' = none) ∨ ∃ a a', x = some a ∧ x' = some a' ∧ R a a' := by
  cases h with
  | none => exact Or.inl ⟨rfl, rfl⟩
  | some h => exact Or.inr ⟨_, _, rfl, rfl, h⟩

theorem rel_lookup {es : List (String × α)} {es' : List (String × α')}
    (h : List.Forall₂ (fun e e' => e.1 = e'.1 ∧ R e.2 e'.2) es es') (key : String) :
    Option.Rel R (es.lookup key) (es'.lookup key) := by
  induction h with
  | nil => exact .none
  | @cons e e' es es' he hrest ih =>
      rw [List.lookup_cons, List.lookup_cons, he.1]
      cases key == e'.1 with
      | true => exact .some he.2
      | false => exact ih

theorem rel_find? {p : α → Bool} {p' : α' → Bool} {as : List α} {as' : List α'}
    (h : List.Forall₂ R as as') (hp : ∀ a a', R a a' → p a = p' a') :
    Option.Rel R (as.find? p) (as'.find? p') := by
  induction h with
  | nil => exact .none
  | @cons a a' as as' ha _ ih =>
      rw [List.find?_cons, List.find?_cons, ← hp a a' ha]
      cases p a with
      | true => exact .some ha
      | false => exact ih

/-! ## Steps -/

theorem matched_refuse {x x' : Option Fault} (h : x.map Fault.code = x'.map Fault.code) :
    Matched (fun _ _ => True) (refuse x) (refuse x') := by
  cases x with
  | none =>
      cases x' with
      | none => exact .ok trivial
      | some fault => cases h
  | some fault =>
      cases x' with
      | none => cases h
      | some fault' => exact .error (Option.some.inj h)

theorem matched_refuse_map {x x' : Option α} {f f' : α → Fault} (h : x = x')
    (hf : ∀ a, (f a).code = (f' a).code) :
    Matched (fun _ _ => True) (refuse (x.map f)) (refuse (x'.map f')) := by
  refine matched_refuse ?_
  subst h
  cases x with
  | none => rfl
  | some a => exact congrArg some (hf a)

theorem matched_refuse_ite {b b' : Bool} {fault fault' : Fault} (h : b = b')
    (hcode : fault.code = fault'.code) :
    Matched (fun _ _ => True) (refuse (if b then some fault else none))
      (refuse (if b' then some fault' else none)) := by
  refine matched_refuse ?_
  subst h
  cases b with
  | false => rfl
  | true => exact congrArg some hcode

theorem matched_demand {x : Option α} {x' : Option α'} {fault fault' : Fault} (h : Option.Rel R x x')
    (hcode : fault.code = fault'.code) : Matched R (demand fault x) (demand fault' x') := by
  cases h with
  | none => exact .error hcode
  | some h => exact .ok h

/-! ## Loops -/

theorem matched_mapM {Q : β → β' → Prop} {f : β → Except Fault α} {f' : β' → Except Fault α'}
    {bs : List β} {bs' : List β'} (h : List.Forall₂ Q bs bs')
    (hf : ∀ b b', Q b b' → Matched R (f b) (f' b')) :
    Matched (List.Forall₂ R) (bs.mapM f) (bs'.mapM f') := by
  induction h with
  | nil => exact .ok .nil
  | cons hb _ ih =>
      rw [List.mapM_cons, List.mapM_cons]
      exact (hf _ _ hb).bind fun a a' _ _ ha => ih.bind fun as as' _ _ has => .ok (.cons ha has)

theorem matched_foldlM {Q : β → β' → Prop} {f : α → β → Except Fault α}
    {f' : α' → β' → Except Fault α'} {bs : List β} {bs' : List β'} (h : List.Forall₂ Q bs bs')
    (hf : ∀ a a' b b', R a a' → Q b b' → Matched R (f a b) (f' a' b')) {a : α} {a' : α'}
    (ha : R a a') : Matched R (bs.foldlM f a) (bs'.foldlM f' a') := by
  induction h generalizing a a' with
  | nil => exact .ok ha
  | cons hb _ ih =>
      rw [List.foldlM_cons, List.foldlM_cons]
      exact (hf _ _ _ _ ha hb).bind fun _ _ _ _ hnext => ih hnext

/-! ## Actions -/

/-- Two ends of actions: the results match and the states are related, also after a fault. -/
structure MatchedEnd (R : α → α' → Prop) (T : σ → σ' → Prop) (p : Except Fault α × σ)
    (p' : Except Fault α' × σ') : Prop where
  result : Matched R p.1 p'.1
  state : T p.2 p'.2

namespace Action

variable {T : σ → σ' → Prop}

/-- From related states two actions come to matching ends. -/
def Matched (R : α → α' → Prop) (T : σ → σ' → Prop) (x : Action Fault σ α)
    (x' : Action Fault σ' α') : Prop :=
  ∀ s s', T s s' → MatchedEnd R T (x.outcome s) (x'.outcome s')

theorem matched_pure {a : α} {a' : α'} (h : R a a') :
    Matched R T (pure a : Action Fault σ α) (pure a' : Action Fault σ' α') :=
  fun _ _ hs => ⟨.ok h, hs⟩

theorem matched_get : Matched T T (get : Action Fault σ σ) (get : Action Fault σ' σ') :=
  fun _ _ hs => ⟨.ok hs, hs⟩

theorem matched_lift {x : Checked Fault α} {x' : Checked Fault α'}
    (h : FieldRegistry.Matched R x.outcome x'.outcome) :
    Matched R T (liftM x : Action Fault σ α) (liftM x' : Action Fault σ' α') :=
  fun _ _ hs => ⟨h, hs⟩

theorem matched_alone {τ τ' : Type} {P : τ → τ' → Prop} {x : Action Fault τ α}
    {x' : Action Fault τ' α'} (h : Matched R P x x') {t : τ} {t' : τ'} (ht : P t t') :
    FieldRegistry.Matched (fun p p' => R p.1 p'.1 ∧ P p.2 p'.2) (alone t x).outcome
      (alone t' x').outcome :=
  (h t t' ht).result.map fun _ _ ha => ⟨ha, (h t t' ht).state⟩

theorem matched_within {τ τ' : Type} {P : τ → τ' → Prop} {x : Action Fault τ α}
    {x' : Action Fault τ' α'} (h : Matched R P x x') {t : τ} {t' : τ'} (ht : P t t') :
    Matched (fun p p' => R p.1 p'.1 ∧ P p.2 p'.2) T (within t x : Action Fault σ (α × τ))
      (within t' x' : Action Fault σ' (α' × τ')) :=
  fun _ _ hs => ⟨matched_alone h ht, hs⟩

theorem Matched.bind {x : Action Fault σ α} {x' : Action Fault σ' α'} {f : α → Action Fault σ β}
    {f' : α' → Action Fault σ' β'} (hx : Matched R T x x')
    (hf : ∀ a a', R a a' → Matched S T (f a) (f' a')) : Matched S T (x >>= f) (x' >>= f') := by
  intro s s' hs
  obtain ⟨hresult, hstate⟩ := hx s s' hs
  rw [outcome_bind, outcome_bind]
  cases ho : x.outcome s with
  | mk result t =>
      cases ho' : x'.outcome s' with
      | mk result' t' =>
          rw [ho, ho'] at hresult hstate
          cases hresult with
          | ok h => exact hf _ _ h t t' hstate
          | error h => exact ⟨.error h, hstate⟩

theorem matched_mapM {Q : β → β' → Prop} {f : β → Action Fault σ α} {f' : β' → Action Fault σ' α'}
    {bs : List β} {bs' : List β'} (h : List.Forall₂ Q bs bs')
    (hf : ∀ b b', Q b b' → Matched R T (f b) (f' b')) :
    Matched (List.Forall₂ R) T (bs.mapM f) (bs'.mapM f') := by
  induction h with
  | nil => exact matched_pure .nil
  | cons hb _ ih =>
      rw [List.mapM_cons, List.mapM_cons]
      exact (hf _ _ hb).bind fun a a' ha => ih.bind fun as as' has => matched_pure (.cons ha has)

theorem matched_foldlM {Q : β → β' → Prop} {f : α → β → Action Fault σ α}
    {f' : α' → β' → Action Fault σ' α'} {bs : List β} {bs' : List β'} (h : List.Forall₂ Q bs bs')
    (hf : ∀ a a' b b', R a a' → Q b b' → Matched R T (f a b) (f' a' b')) {a : α} {a' : α'}
    (ha : R a a') : Matched R T (bs.foldlM f a) (bs'.foldlM f' a') := by
  induction h generalizing a a' with
  | nil => exact matched_pure ha
  | cons hb _ ih =>
      rw [List.foldlM_cons, List.foldlM_cons]
      exact (hf _ _ _ _ ha hb).bind fun _ _ hnext => ih hnext

theorem matched_forM {Q : β → β' → Prop} {f : β → Action Fault σ Unit}
    {f' : β' → Action Fault σ' Unit} {bs : List β} {bs' : List β'} (h : List.Forall₂ Q bs bs')
    (hf : ∀ b b', Q b b' → Matched (fun _ _ => True) T (f b) (f' b')) :
    Matched (fun _ _ => True) T (bs.forM f) (bs'.forM f') := by
  induction h with
  | nil => exact matched_pure trivial
  | cons hb _ ih =>
      rw [List.forM_eq_forM, List.forM_eq_forM, List.forM_cons, List.forM_cons]
      exact (hf _ _ hb).bind fun _ _ _ => ih

end Action

end FieldRegistry
