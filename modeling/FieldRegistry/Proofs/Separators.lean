import FieldRegistry.Layout.Page
import FieldRegistry.Text.Blank
import Mathlib.Data.List.Infix

/-!
# Separators

A text is recovered from what it was put together of wherever a separator marks the ends of its parts:
a character that the parts do not have ends a part where it first stands, and lines of which none has a
line feed can be read off a page.
-/

namespace FieldRegistry

/-! ## Pieces -/

namespace Text

variable {isSep : Char → Bool}

theorem pieces_of_forall {s : List Char} (h : ∀ c ∈ s, isSep c = false) : pieces isSep s = [s] := by
  induction s with
  | nil => rfl
  | cons c cs ih =>
      obtain ⟨hc, hcs⟩ := List.forall_mem_cons.mp h
      have hrest := ih hcs
      rw [pieces, List.cons.injEq] at hrest
      rw [pieces_cons_other hc, hrest.1, hrest.2]

theorem pieces_append_sep {c : Char} (h : isSep c = true) (s t : List Char) :
    pieces isSep (s ++ c :: t) = pieces isSep s ++ pieces isSep t := by
  induction s with
  | nil => exact pieces_cons_sep h t
  | cons b bs ih =>
      rw [List.cons_append]
      cases hb : isSep b with
      | true => rw [pieces_cons_sep hb, pieces_cons_sep hb, ih, List.cons_append]
      | false =>
          rw [pieces, pieces, List.cons_append, List.cons.injEq] at ih
          rw [pieces_cons_other hb, pieces_cons_other hb, ih.1, ih.2, List.cons_append]

/-- No piece has a separator. -/
theorem isSep_of_mem_pieces {s piece : List Char} (h : piece ∈ pieces isSep s) :
    ∀ c ∈ piece, isSep c = false := by
  induction s generalizing piece with
  | nil =>
      rw [pieces_nil, List.mem_singleton] at h
      simp [h]
  | cons b bs ih =>
      cases hb : isSep b with
      | true =>
          rw [pieces_cons_sep hb, List.mem_cons] at h
          rcases h with rfl | h
          · simp
          · exact ih h
      | false =>
          rw [pieces_cons_other hb, List.mem_cons] at h
          rcases h with rfl | h
          · exact List.forall_mem_cons.mpr ⟨hb, ih List.mem_cons_self⟩
          · exact ih (List.mem_cons_of_mem _ h)

theorem subset_of_mem_pieces {s piece : List Char} (h : piece ∈ pieces isSep s) : piece ⊆ s := by
  induction s generalizing piece with
  | nil =>
      rw [pieces_nil, List.mem_singleton] at h
      exact h ▸ List.Subset.refl _
  | cons b bs ih =>
      cases hb : isSep b with
      | true =>
          rw [pieces_cons_sep hb, List.mem_cons] at h
          rcases h with rfl | h
          · exact List.nil_subset _
          · exact List.subset_cons_of_subset b (ih h)
      | false =>
          rw [pieces_cons_other hb, List.mem_cons] at h
          rcases h with rfl | h
          · exact List.cons_subset_cons b (ih List.mem_cons_self)
          · exact List.subset_cons_of_subset b (ih (List.mem_cons_of_mem _ h))

theorem trim_subset (s : String) : (trim s).toList ⊆ s.toList := by
  rw [trim, String.toList_ofList, dropTailWhile]
  intro c hc
  exact (List.dropWhile_sublist _).subset
    (List.mem_reverse.mp ((List.dropWhile_sublist _).subset (List.mem_reverse.mp hc)))

theorem splitAll_of_notMem {sep : Char} {s : String} (h : sep ∉ s.toList) : splitAll sep s = [s] := by
  have hs : ∀ c ∈ s.toList, (c == sep) = false := fun c hc => beq_false_of_ne (ne_of_mem_of_not_mem hc h)
  rw [splitAll, pieces_of_forall hs, List.map_singleton, String.ofList_toList]

/-- A word of a text. -/
def IsWord (s : String) : Prop := s ≠ "" ∧ ∀ c ∈ s.toList, isBlank c = false

theorem isWord_of_mem_words {s word : String} (h : word ∈ words s) : IsWord word := by
  obtain ⟨piece, hpiece, rfl⟩ := List.mem_map.mp h
  obtain ⟨hpiece, hne⟩ := List.mem_filter.mp hpiece
  refine ⟨fun hempty => ?_, ?_⟩
  · rw [← String.toList_inj, String.toList_ofList, String.toList_empty] at hempty
    simp [hempty] at hne
  · rw [String.toList_ofList]
    exact isSep_of_mem_pieces hpiece

theorem IsWord.notMem {s : String} (h : IsWord s) {c : Char} (hc : isBlank c = true) : c ∉ s.toList :=
  fun hmem => Bool.false_ne_true ((h.2 c hmem).symm.trans hc)

end Text

/-! ## Where a part ends -/

/-- Lists are cut in one way only before the first `a`. -/
theorem append_cons_inj_of_first {α : Type} {a : α} {xs ys us vs : List α} (hx : a ∉ xs) (hy : a ∉ ys)
    (h : xs ++ a :: us = ys ++ a :: vs) : xs = ys ∧ us = vs := by
  induction xs generalizing ys with
  | nil =>
      cases ys with
      | nil => exact ⟨rfl, (List.cons.inj h).2⟩
      | cons y ys => exact absurd (List.cons.inj h).1 (List.ne_of_not_mem_cons hy)
  | cons x xs ih =>
      cases ys with
      | nil => exact absurd (List.cons.inj h).1.symm (List.ne_of_not_mem_cons hx)
      | cons y ys =>
          obtain ⟨rfl, htail⟩ := List.cons.inj h
          obtain ⟨rfl, hrest⟩ := ih (List.not_mem_of_not_mem_cons hx) (List.not_mem_of_not_mem_cons hy) htail
          exact ⟨rfl, hrest⟩

/-- Encodings of items, put one after another and followed by something that no item starts like, can be
read back item by item. `Good` items are those that their encoding shows, `Ends` is what may follow an
item and `Stops` what may follow the last one. -/
theorem flatMap_append_inj {α β γ : Type} {encode : α → List β} {view : α → γ} {Good : α → Prop}
    {Ends Stops : List β → Prop}
    (hitem : ∀ a b us vs, Good a → Good b → Ends us → Ends vs → encode a ++ us = encode b ++ vs →
      view a = view b ∧ us = vs)
    (hends : ∀ as us, Stops us → Ends (List.flatMap encode as ++ us))
    (hstops : ∀ a us vs, Stops vs → encode a ++ us ≠ vs) {as bs : List α} {us vs : List β}
    (ha : ∀ a ∈ as, Good a) (hb : ∀ b ∈ bs, Good b) (hus : Stops us) (hvs : Stops vs)
    (h : as.flatMap encode ++ us = bs.flatMap encode ++ vs) :
    as.map view = bs.map view ∧ us = vs := by
  induction as generalizing bs with
  | nil =>
      cases bs with
      | nil => exact ⟨rfl, h⟩
      | cons b bs =>
          rw [List.flatMap_cons, List.append_assoc] at h
          exact absurd h.symm (hstops b _ _ hus)
  | cons a as ih =>
      cases bs with
      | nil =>
          rw [List.flatMap_cons, List.append_assoc] at h
          exact absurd h (hstops a _ _ hvs)
      | cons b bs =>
          rw [List.flatMap_cons, List.flatMap_cons, List.append_assoc, List.append_assoc] at h
          obtain ⟨hgood, ha⟩ := List.forall_mem_cons.mp ha
          obtain ⟨hgood', hb⟩ := List.forall_mem_cons.mp hb
          obtain ⟨hview, h⟩ :=
            hitem a b _ _ hgood hgood' (hends as us hus) (hends bs vs hvs) h
          obtain ⟨hviews, hrest⟩ := ih ha hb h
          exact ⟨by rw [List.map_cons, List.map_cons, hview, hviews], hrest⟩

/-- Neither text is the beginning of the other. -/
def Text.Apart (s t : String) : Prop := ¬ s.toList <+: t.toList ∧ ¬ t.toList <+: s.toList

instance (s t : String) : Decidable (Text.Apart s t) :=
  inferInstanceAs (Decidable (¬ s.toList <+: t.toList ∧ ¬ t.toList <+: s.toList))

theorem Text.Apart.append_ne {s t : String} (h : Text.Apart s t) (u v : String) : s ++ u ≠ t ++ v := by
  intro heq
  have hlist : s.toList ++ u.toList = t.toList ++ v.toList := by
    rw [← String.toList_append, heq, String.toList_append]
  have hs : s.toList <+: t.toList ++ v.toList := hlist ▸ List.prefix_append _ _
  rcases List.prefix_or_prefix_of_prefix hs (List.prefix_append _ _) with hp | hp
  · exact h.1 hp
  · exact h.2 hp

/-! ## Words in a list -/

namespace Text

theorem notMem_join {c : Char} {sep : String} {ss : List String} (hsep : c ∉ sep.toList)
    (hs : ∀ s ∈ ss, c ∉ s.toList) : c ∉ (join sep ss).toList := by
  induction ss with
  | nil => exact List.not_mem_nil
  | cons s ss ih =>
      obtain ⟨hfirst, hrest⟩ := List.forall_mem_cons.mp hs
      cases ss with
      | nil => exact hfirst
      | cons t ss =>
          rw [join_cons_cons, String.toList_append, String.toList_append, List.mem_append,
            List.mem_append]
          rintro ((hmem | hmem) | hmem)
          · exact hfirst hmem
          · exact hsep hmem
          · exact ih hrest hmem

theorem toList_join_cons_cons (s t : String) (rest : List String) :
    (join ", " (s :: t :: rest)).toList =
      (s.toList ++ [',']) ++ ' ' :: (join ", " (t :: rest)).toList := by
  have hsep : ", ".toList = [',', ' '] := by decide
  rw [join_cons_cons, String.toList_append, String.toList_append, hsep]
  simp only [List.append_assoc, List.cons_append, List.nil_append]

theorem IsWord.join_ne_empty {s : String} (h : IsWord s) (rest : List String) :
    join ", " (s :: rest) ≠ "" := by
  cases rest with
  | nil => exact h.1
  | cons t rest =>
      intro hempty
      have hlist := toList_join_cons_cons s t rest
      rw [hempty] at hlist
      simp at hlist

theorem IsWord.ne_join_cons_cons {w : String} (h : IsWord w) (s t : String) (rest : List String) :
    w ≠ join ", " (s :: t :: rest) := by
  intro heq
  refine h.notMem (c := ' ') (by decide) ?_
  rw [heq, toList_join_cons_cons]
  simp

/-- A list of words is recovered from the text that has a comma and a space between them, though the
words may have commas themselves. -/
theorem join_comma_inj {ss ts : List String} (hs : ∀ s ∈ ss, IsWord s) (ht : ∀ t ∈ ts, IsWord t)
    (h : join ", " ss = join ", " ts) : ss = ts := by
  induction ss generalizing ts with
  | nil =>
      cases ts with
      | nil => rfl
      | cons t ts => exact absurd h.symm ((ht t List.mem_cons_self).join_ne_empty ts)
  | cons s ss ih =>
      have hword := hs s List.mem_cons_self
      cases ts with
      | nil => exact absurd h (hword.join_ne_empty ss)
      | cons t ts =>
          have hword' := ht t List.mem_cons_self
          cases ss with
          | nil =>
              cases ts with
              | nil => rw [← join_singleton ", " s, h, join_singleton]
              | cons t' ts => exact absurd h (hword.ne_join_cons_cons t t' ts)
          | cons s' ss =>
              cases ts with
              | nil => exact absurd h.symm (hword'.ne_join_cons_cons s s' ss)
              | cons t' ts =>
                  have hlist := congrArg String.toList h
                  rw [toList_join_cons_cons, toList_join_cons_cons] at hlist
                  -- the first space ends the first word and its comma
                  have hfirst : ∀ {w}, IsWord w → ' ' ∉ w.toList ++ [','] := fun {w} hw => by
                    simpa using hw.notMem (c := ' ') (by decide)
                  obtain ⟨hhead, hrest⟩ :=
                    append_cons_inj_of_first (hfirst hword) (hfirst hword') hlist
                  rw [String.toList_inj.mp (List.append_cancel_right hhead),
                    ih (List.forall_mem_cons.mp hs).2 (List.forall_mem_cons.mp ht).2
                      (String.toList_inj.mp hrest)]

end Text

/-! ## Pages -/

namespace Text

/-- A text without line feeds. -/
def OneLine (s : String) : Prop := '\n' ∉ s.toList

instance (s : String) : Decidable (OneLine s) := inferInstanceAs (Decidable ('\n' ∉ s.toList))

theorem oneLine_append {s t : String} : OneLine (s ++ t) ↔ OneLine s ∧ OneLine t := by
  simp only [OneLine, String.toList_append, List.mem_append, not_or]

theorem IsWord.oneLine {s : String} (h : IsWord s) : OneLine s := h.notMem (by decide)

theorem oneLine_join {sep : String} {ss : List String} (hsep : OneLine sep)
    (hs : ∀ s ∈ ss, OneLine s) : OneLine (join sep ss) :=
  notMem_join hsep hs

end Text

namespace Layout

/-- A page of lines that are not indented. -/
def flat (texts : List String) : List Line := texts.map fun text => ⟨0, text⟩

theorem Line.render_of_notMem {text : String} (h : Text.OneLine text) :
    Line.render ⟨0, text⟩ 0 = text ++ "\n" := by
  rw [Line.render, Text.splitAll_of_notMem h, List.map_singleton, String.join_cons]
  split
  · rename_i hempty
    rw [String.isEmpty_iff.mp hempty]
    rfl
  · have hindent : indentation 0 0 = "" := rfl
    rw [hindent, String.empty_append, String.join_nil, String.append_empty]

theorem toList_render_cons {text : String} (h : Text.OneLine text) (texts : List String) :
    (render (flat (text :: texts)) 0).toList =
      text.toList ++ '\n' :: (render (flat texts) 0).toList := by
  have hpage : render (flat (text :: texts)) 0 = text ++ "\n" ++ render (flat texts) 0 := by
    rw [render, flat, List.map_cons, List.map_cons, String.join_cons, Line.render_of_notMem h]
    rfl
  have hfeed : "\n".toList = ['\n'] := by decide
  rw [hpage, String.toList_append, String.toList_append, hfeed, List.append_assoc]
  rfl

/-- Lines without line feeds are recovered from their page. -/
theorem render_flat_inj {texts texts' : List String} (h : ∀ text ∈ texts, Text.OneLine text)
    (h' : ∀ text ∈ texts', Text.OneLine text)
    (heq : render (flat texts) 0 = render (flat texts') 0) : texts = texts' := by
  rw [← String.toList_inj] at heq
  induction texts generalizing texts' with
  | nil =>
      cases texts' with
      | nil => rfl
      | cons text texts' =>
          rw [toList_render_cons (List.forall_mem_cons.mp h').1] at heq
          exact absurd heq.symm (by simp [flat, render])
  | cons text texts ih =>
      obtain ⟨hfirst, h⟩ := List.forall_mem_cons.mp h
      rw [toList_render_cons hfirst] at heq
      cases texts' with
      | nil => exact absurd heq (by simp [flat, render])
      | cons text' texts' =>
          obtain ⟨hfirst', h'⟩ := List.forall_mem_cons.mp h'
          rw [toList_render_cons hfirst'] at heq
          obtain ⟨hhead, hrest⟩ := append_cons_inj_of_first hfirst hfirst' heq
          rw [String.toList_inj.mp hhead, ih h h' hrest]

end Layout

end FieldRegistry
