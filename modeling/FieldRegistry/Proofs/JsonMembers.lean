import FieldRegistry.Json.Reader
import FieldRegistry.Proofs.Outcome
import Mathlib.Data.String.Basic

/-!
# Names of members

In a value that has been read no object has two members of one name.
-/

namespace FieldRegistry.Json

mutual

/-- No object in a value has a name twice. -/
def Distinct : Json → Prop
  | .array items => DistinctItems items
  | .object members => (members.map (·.1)).Nodup ∧ DistinctMembers members
  | .null | .bool _ | .number _ | .string _ => True
termination_by structural value => value

def DistinctItems : List Json → Prop
  | [] => True
  | value :: rest => value.Distinct ∧ DistinctItems rest
termination_by structural items => items

def DistinctMembers : List (String × Json) → Prop
  | [] => True
  | (_, value) :: rest => value.Distinct ∧ DistinctMembers rest
termination_by structural members => members

end

theorem distinct_array {items : List Json} :
    (Json.array items).Distinct ↔ ∀ value ∈ items, value.Distinct := by
  rw [Distinct]
  induction items with
  | nil => simp [DistinctItems]
  | cons value rest ih => simp [DistinctItems, ih]

theorem distinct_object {members : List (String × Json)} :
    (Json.object members).Distinct ↔
      (members.map (·.1)).Nodup ∧ ∀ member ∈ members, member.2.Distinct := by
  have hmembers : DistinctMembers members ↔ ∀ member ∈ members, member.2.Distinct := by
    induction members with
    | nil => simp [DistinctMembers]
    | cons member rest ih => rw [DistinctMembers, ih, List.forall_mem_cons]
  rw [Distinct, hmembers]

/-! ## Sorted members -/

theorem mem_insertMember {name : String} {value : Json} {members : List (String × Json)}
    {member : String × Json} (h : member ∈ insertMember name value members) :
    member = (name, value) ∨ member ∈ members := by
  induction members with
  | nil => simpa [insertMember] using h
  | cons other rest ih =>
      rw [insertMember] at h
      split at h
      · simpa using h
      split at h
      · rcases List.mem_cons.mp h with h | h
        · exact Or.inl h
        · exact Or.inr (by simp [h])
      · rcases List.mem_cons.mp h with h | h
        · exact Or.inr (by simp [h])
        · exact (ih h).imp_right fun h => by simp [h]

theorem sorted_insertMember {name : String} {value : Json} {members : List (String × Json)}
    (h : members.Pairwise fun a b => a.1 < b.1) :
    (insertMember name value members).Pairwise fun a b => a.1 < b.1 := by
  induction members with
  | nil => exact List.pairwise_singleton _ _
  | cons other rest ih =>
      obtain ⟨first, later⟩ := List.pairwise_cons.mp h
      rw [insertMember]
      split
      · rename_i hlt
        refine List.pairwise_cons.mpr ⟨fun b hb => ?_, h⟩
        rcases List.mem_cons.mp hb with rfl | hb
        · exact hlt
        · exact lt_trans hlt (first b hb)
      split
      · rename_i heq
        rw [beq_iff_eq.mp heq]
        exact List.pairwise_cons.mpr ⟨first, later⟩
      · rename_i hlt heq
        refine List.pairwise_cons.mpr ⟨fun b hb => ?_, ih later⟩
        rcases mem_insertMember hb with rfl | hb
        · exact lt_of_le_of_ne (not_lt.mp hlt) fun he => heq (beq_iff_eq.mpr he.symm)
        · exact first b hb

theorem distinct_ofMembers {members : List (String × Json)}
    (h : ∀ member ∈ members, member.2.Distinct) : (ofMembers members).Distinct := by
  have hfold : ∀ sorted : List (String × Json), (sorted.Pairwise fun a b => a.1 < b.1) →
      (∀ member ∈ sorted, member.2.Distinct) →
      (Json.object (members.foldl (fun sorted member => insertMember member.1 member.2 sorted)
        sorted)).Distinct := by
    induction members with
    | nil =>
        intro sorted hsorted hdistinct
        refine distinct_object.mpr ⟨?_, hdistinct⟩
        exact List.pairwise_map.mpr (hsorted.imp ne_of_lt)
    | cons member members ih =>
        intro sorted hsorted hdistinct
        refine ih (fun m hm => h m (by simp [hm])) _ (sorted_insertMember hsorted) fun m hm => ?_
        rcases mem_insertMember hm with rfl | hm
        · exact h member (by simp)
        · exact hdistinct m hm
  exact hfold [] .nil (by simp)

/-! ## Values that are read -/

section Sequences

variable {σ α : Type} {close : Char} {item : σ → Reader σ} {P : σ → Prop}

theorem foldMore_invariant (step : ∀ s cs t rest, P s → item s cs = .ok (t, rest) → P t) {fuel : Nat}
    {s t : σ} {cs rest : List Char} (hs : P s) (h : foldMore close item fuel s cs = .ok (t, rest)) :
    P t := by
  induction fuel generalizing s cs with
  | zero => cases h
  | succ fuel ih =>
      rw [foldMore] at h
      split at h
      · cases h
      split at h
      · cases h; exact hs
      split at h
      · cases h
      split at h
      · cases h
      split at h
      · cases h
      split at h
      · cases h
      · rename_i hitem
        exact ih (step _ _ _ _ hs hitem) h

theorem foldSequence_invariant (step : ∀ s cs t rest, P s → item s cs = .ok (t, rest) → P t)
    {s t : σ} {cs rest : List Char} (hs : P s) (h : foldSequence close item s cs = .ok (t, rest)) :
    P t := by
  unfold foldSequence at h
  split at h
  · cases h
  split at h
  · cases h; exact hs
  split at h
  · cases h
  · rename_i hitem
    exact foldMore_invariant step (step _ _ _ _ hs hitem) h

theorem forall_of_readSequence {read : Reader α} {Q : α → Prop}
    (hread : ∀ cs a rest, read cs = .ok (a, rest) → Q a) {cs rest : List Char} {as : List α}
    (h : readSequence close read cs = .ok (as, rest)) : ∀ a ∈ as, Q a := by
  obtain ⟨⟨done, rest'⟩, hfold, heq⟩ := map_eq_ok h
  cases heq
  have hdone : ∀ a ∈ done, Q a := by
    refine foldSequence_invariant (P := fun done => ∀ a ∈ done, Q a) ?_ (by simp) hfold
    intro done cs done' rest hdone hitem
    obtain ⟨⟨a, after⟩, ha, heq⟩ := map_eq_ok hitem
    cases heq
    exact List.forall_mem_cons.mpr ⟨hread _ _ _ ha, hdone⟩
  exact fun a ha => hdone a (List.mem_reverse.mp ha)

end Sequences

theorem distinct_readLayer {policy : Policy} {inner : Option (Reader Json)}
    (hinner : ∀ read, inner = some read → ∀ cs value rest, read cs = .ok (value, rest) →
      value.Distinct)
    {cs rest : List Char} {value : Json} (h : readLayer policy inner cs = .ok (value, rest)) :
    value.Distinct := by
  unfold readLayer at h
  split at h
  · cases h
  -- the branches before the last two give values without parts
  iterate 6
    split at h
    · obtain ⟨_, -, heq⟩ := map_eq_ok h
      cases heq
      simp [Distinct]
  split at h
  · cases h
  · rename_i read
    have hread := hinner read rfl
    split at h
    · obtain ⟨⟨items, after⟩, hitems, heq⟩ := map_eq_ok h
      cases heq
      exact distinct_array.mpr (forall_of_readSequence hread hitems)
    split at h
    · obtain ⟨⟨members, after⟩, hmembers, heq⟩ := map_eq_ok h
      cases heq
      refine distinct_ofMembers (forall_of_readSequence (Q := fun m => m.2.Distinct) ?_ hmembers)
      intro cs member rest hmember
      obtain ⟨_, -, h⟩ := bind_eq_ok hmember
      obtain ⟨_, -, h⟩ := bind_eq_ok h
      obtain ⟨⟨value, after⟩, hvalue, h⟩ := bind_eq_ok h
      cases h
      exact hread _ _ _ hvalue
    · cases h

theorem distinct_readValue {policy : Policy} {depth : Nat} {cs rest : List Char} {value : Json}
    (h : readValue policy depth cs = .ok (value, rest)) : value.Distinct := by
  induction depth generalizing cs value rest with
  | zero => exact distinct_readLayer (fun read hread => by cases hread) h
  | succ depth ih =>
      refine distinct_readLayer (fun read hread cs value rest h => ?_) h
      cases hread
      exact ih h

theorem distinct_parse {text : String} {value : Json} (h : parse text = .ok value) :
    value.Distinct := by
  obtain ⟨⟨first, rest⟩, hfirst, h⟩ := bind_eq_ok h
  rw [finish] at h
  split at h
  · cases h; exact distinct_readValue hfirst
  · cases h

end FieldRegistry.Json
