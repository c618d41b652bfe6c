import Mathlib.Computability.Language
import Mathlib.Data.List.Induction

/-! # Languages of words over character classes

Three shapes that patterns for names are made of: words over one class, parts
with a separator between them, and words over one class in which single
separators stand between other letters.
-/
namespace OpenJobSpec.WordLanguages
open Computability
variable {α : Type*} {l : Language α} {x y : List α}

/-- The words of one letter, of a class. -/
def oneOf (P : α → Prop) : Language α := {x | ∃ a, P a ∧ x = [a]}

theorem singleton_mem_oneOf {P : α → Prop} {a : α} : [a] ∈ oneOf P ↔ P a := by
  constructor
  · rintro ⟨b, hb, h⟩
    cases h
    exact hb
  · exact fun h => ⟨a, h, rfl⟩

theorem append_mem_kstar (hx : x ∈ l) (hy : y ∈ l∗) : x ++ y ∈ l∗ := by
  obtain ⟨L, rfl, hL⟩ := Language.mem_kstar.mp hy
  exact Language.mem_kstar.mpr ⟨x :: L, rfl, List.forall_mem_cons.mpr ⟨hx, hL⟩⟩

/-- What holds of the empty word and is kept when a word of the language is put in front, holds of
all of the star. -/
theorem kstar_induction {p : List α → Prop} (hnil : p [])
    (happend : ∀ x y, x ∈ l → p y → p (x ++ y)) (h : x ∈ l∗) : p x := by
  obtain ⟨L, rfl, hL⟩ := Language.mem_kstar.mp h
  clear h
  induction L with
  | nil => exact hnil
  | cons x L ih =>
    rw [List.forall_mem_cons] at hL
    exact happend x L.flatten hL.1 (ih hL.2)

theorem mem_kstar_oneOf {P : α → Prop} : x ∈ (oneOf P)∗ ↔ ∀ a ∈ x, P a := by
  constructor
  · intro h
    apply kstar_induction (p := fun x => ∀ a ∈ x, P a) _ _ h
    · exact List.forall_mem_nil P
    · rintro _ y ⟨a, ha, rfl⟩ hy
      exact List.forall_mem_cons.mpr ⟨ha, hy⟩
  · intro h
    induction x with
    | nil => exact Language.nil_mem_kstar _
    | cons a x ih =>
      rw [List.forall_mem_cons] at h
      exact append_mem_kstar (singleton_mem_oneOf.mpr h.1) (ih h.2)

theorem cons_mem_oneOf_mul {P : α → Prop} :
    x ∈ oneOf P * l ↔ ∃ a y, x = a :: y ∧ P a ∧ y ∈ l := by
  rw [Language.mem_mul]
  constructor
  · rintro ⟨_, ⟨a, ha, rfl⟩, y, hy, rfl⟩
    exact ⟨a, y, rfl, ha, hy⟩
  · rintro ⟨a, y, rfl, ha, hy⟩
    exact ⟨[a], singleton_mem_oneOf.mpr ha, y, hy, rfl⟩

/-! ## Parts with a separator between them -/

theorem mem_separated (sep : α) :
    x ∈ l * (oneOf (· = sep) * l)∗ ↔
      ∃ parts, parts ≠ [] ∧ (∀ part ∈ parts, part ∈ l) ∧ x = [sep].intercalate parts := by
  constructor
  · rintro ⟨first, hfirst, rest, hrest, rfl⟩
    -- what follows the first part is parts with a separator before each
    have hparts : ∃ parts, (∀ part ∈ parts, part ∈ l) ∧
        ∀ first, first ++ rest = [sep].intercalate (first :: parts) := by
      apply kstar_induction (p := fun rest => ∃ parts, (∀ part ∈ parts, part ∈ l) ∧
        ∀ first, first ++ rest = [sep].intercalate (first :: parts)) _ _ hrest
      · exact ⟨[], List.forall_mem_nil _, fun first => by simp⟩
      · rintro _ rest hchunk ⟨parts, hmem, heq⟩
        obtain ⟨_, part, rfl, rfl, hpart⟩ := cons_mem_oneOf_mul.mp hchunk
        refine ⟨part :: parts, List.forall_mem_cons.mpr ⟨hpart, hmem⟩, fun first => ?_⟩
        rw [List.intercalate_cons_cons, ← heq part]
        simp
    obtain ⟨parts, hmem, heq⟩ := hparts
    exact ⟨first :: parts, List.cons_ne_nil _ _, List.forall_mem_cons.mpr ⟨hfirst, hmem⟩,
      heq first⟩
  · rintro ⟨parts, hne, hmem, rfl⟩
    induction parts with
    | nil => exact absurd rfl hne
    | cons first parts ih =>
      rw [List.forall_mem_cons] at hmem
      cases parts with
      | nil =>
        rw [List.intercalate_singleton]
        have hself := Language.append_mem_mul hmem.1 (Language.nil_mem_kstar (oneOf (· = sep) * l))
        rwa [List.append_nil] at hself
      | cons part parts =>
        rw [List.intercalate_cons_cons]
        obtain ⟨part', hpart', rest, hrest, heq⟩ := ih (List.cons_ne_nil _ _) hmem.2
        have hchunk : [sep] ++ part' ∈ oneOf (· = sep) * l :=
          Language.append_mem_mul (singleton_mem_oneOf.mpr rfl) hpart'
        have hwhole := Language.append_mem_mul hmem.1 (append_mem_kstar hchunk hrest)
        simpa [← heq] using hwhole

/-! ## Single separators between letters -/

section Interspersed
variable {P Q : α → Prop}

/-- A word over letters and separators that begins and ends with a letter and has no two separators
next to each other. -/
structure Interspersed (P Q : α → Prop) (x : List α) : Prop where
  letters : ∀ a ∈ x, P a ∨ Q a
  first : ∀ a ∈ x.head?, P a
  last : ∀ a ∈ x.getLast?, P a
  apart : x.IsChain fun a b => ¬ (Q a ∧ Q b)

/-- A run of letters, at most one separator, and at least one letter. -/
def group (P Q : α → Prop) : Language α :=
  (oneOf P)∗ * (1 + oneOf Q) * (oneOf P * (oneOf P)∗)

theorem mem_group :
    x ∈ group P Q ↔ ∃ before sep b after, (∀ c ∈ before, P c) ∧
      (sep = [] ∨ ∃ q, Q q ∧ sep = [q]) ∧ P b ∧ (∀ c ∈ after, P c) ∧
      x = before ++ sep ++ b :: after := by
  constructor
  · intro h
    obtain ⟨_, hfront, _, hletters, rfl⟩ := Language.mem_mul.mp h
    obtain ⟨before, hbefore, sep, hsep, rfl⟩ := Language.mem_mul.mp hfront
    obtain ⟨b, after, rfl, hb, hafter⟩ := cons_mem_oneOf_mul.mp hletters
    refine ⟨before, sep, b, after, mem_kstar_oneOf.mp hbefore, ?_, hb, mem_kstar_oneOf.mp hafter,
      rfl⟩
    exact (Language.mem_add _ _ _).mp hsep
  · rintro ⟨before, sep, b, after, hbefore, hsep, hb, hafter, rfl⟩
    have hfront : before ++ sep ∈ (oneOf P)∗ * (1 + oneOf Q) :=
      Language.append_mem_mul (mem_kstar_oneOf.mpr hbefore) ((Language.mem_add _ _ _).mpr hsep)
    apply Language.append_mem_mul hfront
    exact cons_mem_oneOf_mul.mpr ⟨b, after, rfl, hb, mem_kstar_oneOf.mpr hafter⟩

theorem interspersed_cons_letter {a b : α} (h : ∀ c, P c → ¬ Q c) (ha : P a) (hb : P b) :
    Interspersed P Q (a :: b :: x) ↔ Interspersed P Q (b :: x) := by
  constructor
  · rintro ⟨hletters, -, hlast, hapart⟩
    refine ⟨(List.forall_mem_cons.mp hletters).2, ?_, ?_, (List.isChain_cons_cons.mp hapart).2⟩
    · rintro _ ⟨⟩
      exact hb
    · simpa using hlast
  · rintro ⟨hletters, -, hlast, hapart⟩
    refine ⟨List.forall_mem_cons.mpr ⟨.inl ha, hletters⟩, ?_, ?_,
      List.isChain_cons_cons.mpr ⟨fun hq => h a ha hq.1, hapart⟩⟩
    · rintro _ ⟨⟩
      exact ha
    · simpa using hlast

theorem interspersed_cons_separator {a b c : α} (h : ∀ c, P c → ¬ Q c) (ha : P a) (hb : Q b) :
    Interspersed P Q (a :: b :: c :: x) ↔ P c ∧ Interspersed P Q (c :: x) := by
  constructor
  · rintro ⟨hletters, -, hlast, hapart⟩
    have hrest := (List.isChain_cons_cons.mp hapart).2
    have hletters' := (List.forall_mem_cons.mp (List.forall_mem_cons.mp hletters).2).2
    have hc : P c := by
      apply (hletters' c List.mem_cons_self).resolve_right
      exact fun hq => (List.isChain_cons_cons.mp hrest).1 ⟨hb, hq⟩
    refine ⟨hc, hletters', ?_, ?_, (List.isChain_cons_cons.mp hrest).2⟩
    · rintro _ ⟨⟩
      exact hc
    · simpa using hlast
  · rintro ⟨hc, hletters, -, hlast, hapart⟩
    refine ⟨?_, ?_, ?_, ?_⟩
    · exact List.forall_mem_cons.mpr ⟨.inl ha, List.forall_mem_cons.mpr ⟨.inr hb, hletters⟩⟩
    · rintro _ ⟨⟩
      exact ha
    · simpa using hlast
    · apply List.isChain_cons_cons.mpr
      refine ⟨fun hq => h a ha hq.1, List.isChain_cons_cons.mpr ⟨fun hq => h c hc hq.2, hapart⟩⟩

/-- A group after a letter, and before what may follow a letter, may follow a letter. -/
theorem interspersed_group_append (h : ∀ c, P c → ¬ Q c) (hx : x ∈ group P Q)
    (hy : ∀ a, P a → Interspersed P Q (a :: y)) (a : α) (ha : P a) :
    Interspersed P Q (a :: (x ++ y)) := by
  obtain ⟨before, sep, b, after, hbefore, hsep, hb, hafter, rfl⟩ := mem_group.mp hx
  -- letters may be put in front
  have hrun : ∀ (run y : List α), (∀ c ∈ run, P c) → (∀ a, P a → Interspersed P Q (a :: y)) →
      ∀ a, P a → Interspersed P Q (a :: (run ++ y)) := by
    intro run y hall hy
    induction run with
    | nil => exact hy
    | cons c run ih =>
      rw [List.forall_mem_cons] at hall
      exact fun a ha => (interspersed_cons_letter h ha hall.1).mpr (ih hall.2 c hall.1)
  have htail : ∀ a, P a → Interspersed P Q (a :: (b :: after ++ y)) := by
    apply hrun (b :: after) y _ hy
    exact List.forall_mem_cons.mpr ⟨hb, hafter⟩
  have hmiddle : ∀ a, P a → Interspersed P Q (a :: (sep ++ (b :: after ++ y))) := by
    rcases hsep with rfl | ⟨q, hq, rfl⟩
    · exact htail
    · intro a ha
      apply (interspersed_cons_separator h ha hq).mpr
      exact ⟨hb, hrun after y hafter hy b hb⟩
  have hwhole := hrun before _ hbefore hmiddle a ha
  simpa using hwhole

theorem interspersed_singleton {a : α} (ha : P a) : Interspersed P Q [a] := by
  refine ⟨?_, ?_, ?_, .singleton a⟩
  · exact List.forall_mem_singleton.mpr (.inl ha)
  · rintro _ ⟨⟩
    exact ha
  · rintro _ ⟨⟩
    exact ha

theorem groups_of_interspersed (h : ∀ c, P c → ¬ Q c) {a : α} (ha : P a)
    (hx : Interspersed P Q (a :: x)) : x ∈ (group P Q)∗ := by
  have hnone : ∀ c ∈ ([] : List α), P c := List.forall_mem_nil P
  have hletter : ∀ b, P b → [b] ∈ group P Q := fun b hb =>
    mem_group.mpr ⟨[], [], b, [], hnone, .inl rfl, hb, hnone, rfl⟩
  have hpair : ∀ b c, Q b → P c → [b, c] ∈ group P Q := fun b c hb hc =>
    mem_group.mpr ⟨[], [b], c, [], hnone, .inr ⟨b, hb, rfl⟩, hc, hnone, rfl⟩
  induction x using List.twoStepInduction generalizing a with
  | nil => exact Language.nil_mem_kstar _
  | singleton b =>
    have hlast : P b := hx.last b rfl
    exact append_mem_kstar (hletter b hlast) (Language.nil_mem_kstar _)
  | cons_cons b c x ihskip ih =>
    rcases hx.letters b (by simp) with hb | hb
    · have hrest := (interspersed_cons_letter h ha hb).mp hx
      exact append_mem_kstar (hletter b hb) (ih c hb hrest)
    · obtain ⟨hc, hrest⟩ := (interspersed_cons_separator h ha hb).mp hx
      exact append_mem_kstar (hpair b c hb hc) (ihskip hc hrest)

/-- A letter and groups: the words that begin and end with a letter and have no two separators next
to each other. -/
theorem mem_letter_groups (h : ∀ c, P c → ¬ Q c) :
    x ∈ oneOf P * (group P Q)∗ ↔ x ≠ [] ∧ Interspersed P Q x := by
  rw [cons_mem_oneOf_mul]
  constructor
  · rintro ⟨a, y, rfl, ha, hy⟩
    refine ⟨List.cons_ne_nil _ _, ?_⟩
    have hfollows : ∀ a, P a → Interspersed P Q (a :: y) := by
      apply kstar_induction (p := fun y => ∀ a, P a → Interspersed P Q (a :: y)) _ _ hy
      · exact fun a ha => interspersed_singleton ha
      · exact fun _ _ hgroup hrest => interspersed_group_append h hgroup hrest
    exact hfollows a ha
  · rintro ⟨hne, hx⟩
    cases x with
    | nil => exact absurd rfl hne
    | cons a y =>
      have ha : P a := hx.first a rfl
      exact ⟨a, y, rfl, ha, groups_of_interspersed h ha hx⟩

end Interspersed

end OpenJobSpec.WordLanguages
