import FieldRegistry.Journal
import Mathlib.Data.List.Forall2

/-!
# Outcomes of checked computations and actions

Messages never decide what a computation does, so the laws below leave them out. The outcome of a
checked computation is an `Except`; the outcome of an action is an `Except` together with the state
after it. Programs are taken apart with the equations for `pure`, `throw`, `>>=` and the state
operations, loops with `mapM`, `foldlM` and `forM`.
-/

namespace FieldRegistry

variable {ε σ τ α β : Type}

/-! ## Lists in relation -/

section Related

variable {γ : Type} {R : α → β → Prop} {as : List α} {bs : List β}

theorem exists_left_of_forall₂ {b : β} (h : List.Forall₂ R as bs) (hb : b ∈ bs) :
    ∃ a ∈ as, R a b := by
  induction h with
  | nil => cases hb
  | cons hR _ ih =>
      rcases List.mem_cons.mp hb with rfl | hb
      · exact ⟨_, List.mem_cons_self, hR⟩
      · obtain ⟨a, ha, hR⟩ := ih hb
        exact ⟨a, List.mem_cons_of_mem _ ha, hR⟩

/-- Where each pair has something that both sides are in relation to, so have the two lists. -/
theorem exists_common_of_forall₂ {R : α → γ → Prop} {S : β → γ → Prop}
    (h : List.Forall₂ (fun a b => ∃ c, R a c ∧ S b c) as bs) :
    ∃ cs, List.Forall₂ R as cs ∧ List.Forall₂ S bs cs := by
  induction h with
  | nil => exact ⟨[], .nil, .nil⟩
  | cons hc _ ih =>
      obtain ⟨c, hR, hS⟩ := hc
      obtain ⟨cs, hRs, hSs⟩ := ih
      exact ⟨c :: cs, .cons hR hRs, .cons hS hSs⟩

theorem map_eq_of_forall₂ {f : α → γ} {g : β → γ} (h : List.Forall₂ R as bs)
    (hfg : ∀ a b, R a b → f a = g b) : as.map f = bs.map g := by
  induction h with
  | nil => rfl
  | cons hab _ ih => rw [List.map_cons, List.map_cons, hfg _ _ hab, ih]

theorem forall₂_of_map_eq {f : α → γ} {g : β → γ} (h : as.map f = bs.map g) :
    List.Forall₂ (fun a b => f a = g b) as bs := by
  rwa [← List.forall₂_map_right_iff, ← List.forall₂_map_left_iff, List.forall₂_eq_eq_eq]

theorem filterMap_eq_of_forall₂ {f : α → Option γ} {g : β → Option γ} (h : List.Forall₂ R as bs)
    (hfg : ∀ a b, R a b → f a = g b) : as.filterMap f = bs.filterMap g := by
  have hmap := congrArg (List.filterMap id) (map_eq_of_forall₂ h hfg)
  rwa [List.filterMap_map, List.filterMap_map, Function.id_comp, Function.id_comp] at hmap

theorem flatMap_eq_of_forall₂ {f : α → List γ} {g : β → List γ} (h : List.Forall₂ R as bs)
    (hfg : ∀ a b, R a b → f a = g b) : as.flatMap f = bs.flatMap g := by
  rw [List.flatMap_def, List.flatMap_def, map_eq_of_forall₂ h hfg]

end Related

/-! ## Results that may fail -/

@[simp] theorem ok_bind (a : α) (f : α → Except ε β) : Except.ok a >>= f = f a := rfl

theorem bind_eq_ok {x : Except ε α} {f : α → Except ε β} {b : β} (h : x >>= f = .ok b) :
    ∃ a, x = .ok a ∧ f a = .ok b := by
  cases x with
  | error e => cases h
  | ok a => exact ⟨a, rfl, h⟩

theorem bind_eq_ok_iff {x : Except ε α} {f : α → Except ε β} {b : β} :
    x >>= f = .ok b ↔ ∃ a, x = .ok a ∧ f a = .ok b := by
  constructor
  · exact bind_eq_ok
  · rintro ⟨a, rfl, h⟩
    exact h

theorem exists_bind_eq_ok_iff {x : Except ε α} {f : α → Except ε β} :
    (∃ b, x >>= f = .ok b) ↔ ∃ a, x = .ok a ∧ ∃ b, f a = .ok b := by
  simp only [bind_eq_ok_iff]
  exact ⟨fun ⟨b, a, ha, hb⟩ => ⟨a, ha, b, hb⟩, fun ⟨a, ha, b, hb⟩ => ⟨b, a, ha, hb⟩⟩

theorem map_eq_ok {x : Except ε α} {f : α → β} {b : β} (h : x.map f = .ok b) :
    ∃ a, x = .ok a ∧ f a = b := by
  cases x with
  | error e => cases h
  | ok a => exact ⟨a, rfl, Except.ok.inj h⟩

theorem foldlM_cons_eq_ok {f : β → α → Except ε β} {b c : β} {a : α} {as : List α}
    (h : (a :: as).foldlM f b = .ok c) : ∃ b', f b a = .ok b' ∧ as.foldlM f b' = .ok c := by
  rw [List.foldlM_cons] at h
  exact bind_eq_ok h

/-- What every step keeps, a loop that succeeds keeps. -/
theorem foldlM_ok_invariant {P : β → Prop} {f : β → α → Except ε β}
    (step : ∀ b a b', P b → f b a = .ok b' → P b') {as : List α} {b c : β} (hb : P b)
    (h : as.foldlM f b = .ok c) : P c := by
  induction as generalizing b with
  | nil => cases h; exact hb
  | cons a as ih =>
      obtain ⟨b', hb', h⟩ := foldlM_cons_eq_ok h
      exact ih (step b a b' hb hb') h

/-- Where it does not depend on the steps before whether a step succeeds, a loop succeeds if and only if
all its steps do. -/
theorem exists_foldlM_eq_ok_iff {f : β → α → Except ε β} {P : α → Prop}
    (hstep : ∀ b a, (∃ b', f b a = .ok b') ↔ P a) {as : List α} {b : β} :
    (∃ c, as.foldlM f b = .ok c) ↔ ∀ a ∈ as, P a := by
  induction as generalizing b with
  | nil => simp [pure, Except.pure]
  | cons a as ih =>
      rw [List.foldlM_cons, exists_bind_eq_ok_iff, List.forall_mem_cons, ← hstep b a]
      constructor
      · rintro ⟨b', hb', hrest⟩
        exact ⟨⟨b', hb'⟩, ih.mp hrest⟩
      · rintro ⟨⟨b', hb'⟩, hrest⟩
        exact ⟨b', hb', ih.mpr hrest⟩

/-- A loop that succeeds has handled every item, and its results stand in the order of the items. -/
theorem forall₂_of_mapM_eq_ok {f : α → Except ε β} {as : List α} {bs : List β}
    (h : as.mapM f = .ok bs) : List.Forall₂ (fun a b => f a = .ok b) as bs := by
  induction as generalizing bs with
  | nil => cases h; exact .nil
  | cons a as ih =>
      rw [List.mapM_cons] at h
      obtain ⟨b, hb, h⟩ := bind_eq_ok h
      obtain ⟨bs', hbs, h⟩ := bind_eq_ok h
      cases h
      exact .cons hb (ih hbs)

theorem exists_of_mapM_eq_ok {f : α → Except ε β} {as : List α} {bs : List β}
    (h : as.mapM f = .ok bs) {a : α} (ha : a ∈ as) : ∃ b, f a = .ok b := by
  obtain ⟨i, hi, rfl⟩ := List.mem_iff_getElem.mp ha
  obtain ⟨hlen, hall⟩ := List.forall₂_iff_get.mp (forall₂_of_mapM_eq_ok h)
  exact ⟨_, hall i hi (hlen ▸ hi)⟩

/-- A loop fails only where one of its items does. -/
theorem exists_of_mapM_eq_error {f : α → Except ε β} {as : List α} {e : ε}
    (h : as.mapM f = .error e) : ∃ a ∈ as, f a = .error e := by
  induction as with
  | nil => cases h
  | cons a as ih =>
      rw [List.mapM_cons] at h
      cases ha : f a with
      | error e' =>
          rw [ha] at h
          cases h
          exact ⟨a, by simp, ha⟩
      | ok b =>
          rw [ha] at h
          cases has : as.mapM f with
          | error e' =>
              rw [has] at h
              cases h
              obtain ⟨a', ha', he⟩ := ih has
              exact ⟨a', by simp [ha'], he⟩
          | ok bs => rw [has] at h; cases h

theorem exists_mapM_eq_ok_iff {f : α → Except ε β} {as : List α} :
    (∃ bs, as.mapM f = .ok bs) ↔ ∀ a ∈ as, ∃ b, f a = .ok b := by
  constructor
  · rintro ⟨bs, h⟩ a ha
    exact exists_of_mapM_eq_ok h ha
  · intro h
    cases hm : as.mapM f with
    | ok bs => exact ⟨bs, rfl⟩
    | error e =>
        obtain ⟨a, ha, he⟩ := exists_of_mapM_eq_error hm
        obtain ⟨b, hb⟩ := h a ha
        cases he.symm.trans hb

theorem eq_ok_of_any {x : Except ε α} {p : α → Bool} (h : x.toOption.any p = true) :
    ∃ a, x = .ok a ∧ p a = true := by
  cases x with
  | error e => cases h
  | ok a => exact ⟨a, rfl, h⟩

theorem map_eq_error {x : Except ε α} {f : α → β} {e : ε} (h : x.map f = .error e) :
    x = .error e := by
  cases x with
  | error e' => cases h; rfl
  | ok a => cases h

theorem mapM_map_right {f : α → Except ε β} {γ : Type} (g : β → γ) (as : List α) :
    (as.mapM fun a => (f a).map g) = (as.mapM f).map (List.map g) := by
  induction as with
  | nil => rfl
  | cons a as ih =>
      rw [List.mapM_cons, List.mapM_cons, ih]
      cases f a with
      | error e => rfl
      | ok b => cases as.mapM f <;> rfl

theorem flatten_of_mapM_eq_ok {f : α → Except ε (List β)} {as : List α} {parts : List (List β)}
    (h : as.mapM f = .ok parts) : parts.flatten = as.flatMap fun a => (f a).toOption.getD [] := by
  induction as generalizing parts with
  | nil => cases h; rfl
  | cons a as ih =>
      rw [List.mapM_cons] at h
      obtain ⟨part, hpart, h⟩ := bind_eq_ok h
      obtain ⟨rest, hrest, h⟩ := bind_eq_ok h
      cases h
      rw [List.flatten_cons, List.flatMap_cons, ih hrest, hpart]
      rfl

theorem mapM_congr_left {f g : α → Except ε β} {as : List α} (h : ∀ a ∈ as, f a = g a) :
    as.mapM f = as.mapM g := by
  induction as with
  | nil => rfl
  | cons a as ih =>
      rw [List.mapM_cons, List.mapM_cons, h a (by simp), ih fun a' ha' => h a' (by simp [ha'])]

/-! ## Checked computations -/

def Checked.outcome (x : Checked ε α) : Except ε α := x.run.value

namespace Checked

@[simp] theorem outcome_pure (a : α) : outcome (pure a : Checked ε α) = .ok a := rfl

@[simp] theorem outcome_throw (e : ε) : outcome (throw e : Checked ε α) = .error e := rfl

@[simp] theorem outcome_ofExcept (x : Except ε α) : outcome (ofExcept x) = x := rfl

@[simp] theorem outcome_lift (x : Logged α) : outcome (liftM x : Checked ε α) = .ok x.value := rfl

@[simp] theorem outcome_bind (x : Checked ε α) (f : α → Checked ε β) :
    outcome (x >>= f) = outcome x >>= fun a => outcome (f a) := by
  have h : outcome (x >>= f) = (ExceptT.bindCont f x.run.value).value := rfl
  rw [h, outcome]
  cases x.run.value <;> rfl

@[simp] theorem outcome_ite (p : Prop) [Decidable p] (x y : Checked ε α) :
    outcome (if p then x else y) = if p then outcome x else outcome y := by
  split <;> rfl

@[simp] theorem outcome_foldlM (f : β → α → Checked ε β) (as : List α) (b : β) :
    outcome (as.foldlM f b) = as.foldlM (fun b a => outcome (f b a)) b := by
  induction as generalizing b with
  | nil => rfl
  | cons a as ih => simp only [List.foldlM_cons, outcome_bind, ih]

@[simp] theorem outcome_mapM (f : α → Checked ε β) (as : List α) :
    outcome (as.mapM f) = as.mapM fun a => outcome (f a) := by
  induction as with
  | nil => rfl
  | cons a as ih => simp only [List.mapM_cons, outcome_bind, outcome_pure, ih]; rfl

end Checked

/-! ## Actions -/

/-- The result of an action from a state, and the state after it. -/
def Action.outcome (x : Action ε σ α) (s : σ) : Except ε α × σ := (x.perform s).value

namespace Action

@[simp] theorem outcome_pure (a : α) (s : σ) : outcome (pure a : Action ε σ α) s = (.ok a, s) := rfl

@[simp] theorem outcome_throw (e : ε) (s : σ) :
    outcome (throw e : Action ε σ α) s = (.error e, s) := rfl

@[simp] theorem outcome_get (s : σ) : outcome (get : Action ε σ σ) s = (.ok s, s) := rfl

@[simp] theorem outcome_set (s s' : σ) : outcome (set s' : Action ε σ Unit) s = (.ok (), s') := rfl

@[simp] theorem outcome_modify (f : σ → σ) (s : σ) :
    outcome (modify f : Action ε σ Unit) s = (.ok (), f s) := rfl

@[simp] theorem outcome_lift (x : Logged α) (s : σ) :
    outcome (liftM x : Action ε σ α) s = (.ok x.value, s) := rfl

@[simp] theorem outcome_liftChecked (x : Checked ε α) (s : σ) :
    outcome (liftM x : Action ε σ α) s = (x.outcome, s) := rfl

@[simp] theorem outcome_alone (t : τ) (x : Action ε τ α) :
    (alone t x).outcome = (outcome x t).1.map (·, (outcome x t).2) := rfl

@[simp] theorem outcome_within (t : τ) (x : Action ε τ α) (s : σ) :
    outcome (within t x : Action ε σ (α × τ)) s = ((outcome x t).1.map (·, (outcome x t).2), s) :=
  rfl

@[simp] theorem outcome_focus (part : σ → τ) (replace : σ → τ → σ) (x : Action ε τ α) (s : σ) :
    outcome (focus part replace x) s =
      ((outcome x (part s)).1, replace s (outcome x (part s)).2) := rfl

theorem outcome_bind (x : Action ε σ α) (f : α → Action ε σ β) (s : σ) :
    outcome (x >>= f) s =
      match outcome x s with
      | (.ok a, s') => outcome (f a) s'
      | (.error e, s') => (.error e, s') := by
  have h : outcome (x >>= f) s =
      ((ExceptT.bindCont f (x.run.run s).value.1).run (x.run.run s).value.2).value := rfl
  rw [h, outcome, perform]
  rcases (x.run.run s).value with ⟨e | a, s'⟩ <;> rfl

theorem outcome_bind_of_ok {x : Action ε σ α} {f : α → Action ε σ β} {s s' : σ} {a : α}
    (h : outcome x s = (.ok a, s')) : outcome (x >>= f) s = outcome (f a) s' := by
  rw [outcome_bind, h]

theorem outcome_bind_of_error {x : Action ε σ α} {f : α → Action ε σ β} {s s' : σ} {e : ε}
    (h : outcome x s = (.error e, s')) : outcome (x >>= f) s = (.error e, s') := by
  rw [outcome_bind, h]

theorem outcome_bind_eq_ok {x : Action ε σ α} {f : α → Action ε σ β} {s s' : σ} {b : β}
    (h : outcome (x >>= f) s = (.ok b, s')) :
    ∃ a s₁, outcome x s = (.ok a, s₁) ∧ outcome (f a) s₁ = (.ok b, s') := by
  rw [outcome_bind] at h
  split at h
  · rename_i a s₁ hx; exact ⟨a, s₁, hx, h⟩
  · cases h

/-- A loop that only changes the state reaches its end. -/
theorem outcome_forM_modify (f : α → σ → σ) (as : List α) (s : σ) :
    outcome (as.forM fun a => (modify (f a) : Action ε σ Unit)) s =
      (.ok (), as.foldl (fun s a => f a s) s) := by
  induction as generalizing s with
  | nil => rfl
  | cons a as ih =>
      rw [List.forM_eq_forM, List.forM_cons, outcome_bind_of_ok (outcome_modify (f a) s)]
      exact ih (f a s)

theorem outcome_mapM_cons_of_ok {f : α → Action ε σ β} {a : α} {as : List α} {b : β} {s s₁ : σ}
    (h : outcome (f a) s = (.ok b, s₁)) :
    outcome ((a :: as).mapM f) s =
      ((outcome (as.mapM f) s₁).1.map (b :: ·), (outcome (as.mapM f) s₁).2) := by
  rw [List.mapM_cons, outcome_bind_of_ok h, outcome_bind]
  cases outcome (as.mapM f) s₁ with
  | mk result s' => cases result <;> rfl

theorem outcome_mapM_cons_of_error {f : α → Action ε σ β} {a : α} {as : List α} {e : ε} {s s₁ : σ}
    (h : outcome (f a) s = (.error e, s₁)) : outcome ((a :: as).mapM f) s = (.error e, s₁) := by
  rw [List.mapM_cons, outcome_bind_of_error h]

/-- What every step keeps, a loop keeps, whether it reaches its end or not. -/
theorem forM_invariant {P : σ → Prop} {f : α → Action ε σ Unit}
    (step : ∀ a s, P s → P (outcome (f a) s).2) (as : List α) {s : σ} (h : P s) :
    P (outcome (as.forM f) s).2 := by
  induction as generalizing s with
  | nil => exact h
  | cons a as ih =>
      have h₁ := step a s h
      rw [List.forM_eq_forM, List.forM_cons, outcome_bind]
      cases hf : outcome (f a) s with
      | mk result s₁ =>
          rw [hf] at h₁
          cases result with
          | error e => exact h₁
          | ok done => exact ih h₁

/-- A loop that hands a value on keeps `P` of the value and the state as long as no step fails, and `Q` of
the state in any case. -/
theorem foldlM_invariant {P : β → σ → Prop} {Q : σ → Prop} {f : β → α → Action ε σ β}
    (weaken : ∀ b s, P b s → Q s)
    (step : ∀ b a s result s', P b s → outcome (f b a) s = (result, s') →
      Q s' ∧ ∀ b', result = .ok b' → P b' s')
    {as : List α} {b : β} {s s' : σ} {result : Except ε β} (h : P b s)
    (hloop : outcome (as.foldlM f b) s = (result, s')) :
    Q s' ∧ ∀ b', result = .ok b' → P b' s' := by
  induction as generalizing b s with
  | nil =>
      cases hloop
      exact ⟨weaken _ _ h, fun b' hb => by cases hb; exact h⟩
  | cons a as ih =>
      rw [List.foldlM_cons, outcome_bind] at hloop
      cases h₁ : outcome (f b a) s with
      | mk first s₁ =>
          obtain ⟨hq, hp⟩ := step b a s first s₁ h h₁
          rw [h₁] at hloop
          cases first with
          | error e => cases hloop; exact ⟨hq, fun b' hb => by cases hb⟩
          | ok b₁ => exact ih (hp b₁ rfl) hloop

theorem outcome_eq_ok_of_any {x : Action ε σ α} {s : σ} {p : α → Bool}
    (h : (outcome x s).1.toOption.any p = true) :
    ∃ a, outcome x s = (.ok a, (outcome x s).2) ∧ p a = true := by
  cases hx : outcome x s with
  | mk result s' =>
      rw [hx] at h
      cases result with
      | error e => cases h
      | ok a => exact ⟨a, rfl, h⟩

/-- An action that only looks at the state. -/
def ReadOnly (x : Action ε σ α) : Prop := ∀ s, (outcome x s).2 = s

theorem readOnly_pure (a : α) : (pure a : Action ε σ α).ReadOnly := fun _ => rfl

theorem readOnly_throw (e : ε) : (throw e : Action ε σ α).ReadOnly := fun _ => rfl

theorem ReadOnly.bind {x : Action ε σ α} {f : α → Action ε σ β} (hx : x.ReadOnly)
    (hf : ∀ a, (f a).ReadOnly) : (x >>= f).ReadOnly := by
  intro s
  have hs := hx s
  rw [outcome_bind]
  cases ho : outcome x s with
  | mk result s' =>
      rw [ho] at hs
      obtain rfl : s' = s := hs
      cases result with
      | error e => rfl
      | ok a => exact hf a s'

theorem ReadOnly.outcome_eq {x : Action ε σ α} (h : x.ReadOnly) {s : σ} {result : Except ε α}
    (hx : (outcome x s).1 = result) : outcome x s = (result, s) :=
  Prod.ext hx (h s)

end Action

/-! ## What can be reported -/

section Raises

variable {P Q : ε → Prop}

/-- The fault of a result, if it has one, has a property. -/
def Raises (P : ε → Prop) (x : Except ε α) : Prop := ∀ e, x = .error e → P e

theorem raises_ok (a : α) : Raises P (.ok a) := nofun

theorem raises_error {e : ε} (h : P e) : Raises P (.error e : Except ε α) := by
  rintro _ ⟨⟩
  exact h

theorem Raises.mono {x : Except ε α} (hPQ : ∀ e, P e → Q e) (h : Raises P x) : Raises Q x :=
  fun e he => hPQ e (h e he)

theorem Raises.bind {x : Except ε α} {f : α → Except ε β} (hx : Raises P x)
    (hf : ∀ a, x = .ok a → Raises P (f a)) : Raises P (x >>= f) := by
  cases x with
  | error e => exact raises_error (hx e rfl)
  | ok a => exact hf a rfl

theorem Raises.map {x : Except ε α} (f : α → β) (hx : Raises P x) : Raises P (x.map f) :=
  fun e he => hx e (map_eq_error he)

theorem raises_ite {p : Prop} [Decidable p] {x y : Except ε α} (hx : Raises P x) (hy : Raises P y) :
    Raises P (if p then x else y) := by
  split
  · exact hx
  · exact hy

theorem raises_mapM {f : α → Except ε β} {as : List α} (h : ∀ a ∈ as, Raises P (f a)) :
    Raises P (as.mapM f) := by
  intro e he
  obtain ⟨a, ha, he⟩ := exists_of_mapM_eq_error he
  exact h a ha e he

theorem raises_foldlM {f : β → α → Except ε β} {as : List α} {b : β}
    (h : ∀ b, ∀ a ∈ as, Raises P (f b a)) : Raises P (as.foldlM f b) := by
  induction as generalizing b with
  | nil => exact raises_ok b
  | cons a as ih =>
      rw [List.foldlM_cons]
      exact (h b a (by simp)).bind fun b' _ => ih fun b a ha => h b a (by simp [ha])

/-- What an action can report, from whatever state. -/
def Action.Raises (P : ε → Prop) (x : Action ε σ α) : Prop :=
  ∀ s, FieldRegistry.Raises P (x.outcome s).1

namespace Action

theorem raises_pure (a : α) : (pure a : Action ε σ α).Raises P := fun _ => raises_ok a

theorem raises_lift {x : Checked ε α} (h : FieldRegistry.Raises P x.outcome) :
    (liftM x : Action ε σ α).Raises P := fun _ => h

theorem Raises.bind {x : Action ε σ α} {f : α → Action ε σ β} (hx : x.Raises P)
    (hf : ∀ a s s', x.outcome s = (.ok a, s') → (f a).Raises P) : (x >>= f).Raises P := by
  intro s
  have hs := hx s
  rw [outcome_bind]
  cases ho : x.outcome s with
  | mk result s' =>
      rw [ho] at hs
      cases result with
      | error e => exact raises_error (hs e rfl)
      | ok a => exact hf a s s' ho s'

theorem raises_mapM {f : α → Action ε σ β} {as : List α} (h : ∀ a ∈ as, (f a).Raises P) :
    (as.mapM f : Action ε σ (List β)).Raises P := by
  induction as with
  | nil => exact raises_pure []
  | cons a as ih =>
      rw [List.mapM_cons]
      exact (h a (by simp)).bind fun b _ _ _ =>
        (ih fun a ha => h a (by simp [ha])).bind fun bs _ _ _ => raises_pure _

theorem raises_foldlM {f : β → α → Action ε σ β} {as : List α} {b : β}
    (h : ∀ b, ∀ a ∈ as, (f b a).Raises P) : (as.foldlM f b : Action ε σ β).Raises P := by
  induction as generalizing b with
  | nil => exact raises_pure b
  | cons a as ih =>
      rw [List.foldlM_cons]
      exact (h b a (by simp)).bind fun b' _ _ _ => ih fun b a ha => h b a (by simp [ha])

theorem raises_forM {f : α → Action ε σ Unit} {as : List α} (h : ∀ a ∈ as, (f a).Raises P) :
    (as.forM f : Action ε σ Unit).Raises P := by
  induction as with
  | nil => exact raises_pure ()
  | cons a as ih =>
      rw [List.forM_eq_forM, List.forM_cons]
      exact (h a (by simp)).bind fun _ _ _ _ => ih fun a ha => h a (by simp [ha])

end Action

end Raises

end FieldRegistry
