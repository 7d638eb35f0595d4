import Mathlib.Data.List.TakeWhile
import Sortie.Text.Blank

/-!
# Trimming

What trimming leaves of a text has no blank at its ends, and stands in the text
with nothing but blanks around it.
-/

namespace Sortie.Text

variable {s piece before after : List Char}

theorem trimChars_eq_nil_iff : trimChars s = [] ↔ ∀ c ∈ s, isBlank c := by
  rw [trimChars, List.reverse_eq_nil_iff, List.dropWhile_eq_nil_iff]
  simp only [List.mem_reverse]
  constructor
  · intro h c hc
    rw [← List.takeWhile_append_dropWhile (p := isBlank) (l := s), List.mem_append] at hc
    rcases hc with hc | hc
    · exact List.all_eq_true.mp List.all_takeWhile c hc
    · exact h c hc
  · intro h c hc
    exact h c ((List.dropWhile_sublist isBlank).subset hc)

theorem trim_eq_empty_iff {line : String} : trim line = "" ↔ ∀ c ∈ line.toList, isBlank c := by
  rw [trim, String.ofList_eq_empty_iff, trimChars_eq_nil_iff]

def Tight (s : List Char) : Prop :=
  (∀ c ∈ s.head?, ¬ isBlank c) ∧ ∀ c ∈ s.getLast?, ¬ isBlank c

theorem Tight.reverse (h : Tight s) : Tight s.reverse := by
  rw [Tight, List.head?_reverse, List.getLast?_reverse]
  exact ⟨h.2, h.1⟩

theorem dropWhile_pad (hBefore : ∀ c ∈ before, isBlank c) (h : ∀ c ∈ s.head?, ¬ isBlank c)
    (hs : s ≠ []) (after : List Char) :
    (before ++ (s ++ after)).dropWhile isBlank = s ++ after := by
  rw [List.dropWhile_append_of_pos hBefore]
  cases s with
  | nil => exact absurd rfl hs
  | cons c s => exact List.dropWhile_cons_of_neg (h c rfl)

theorem trimChars_pad (hTight : Tight s) (hBefore : ∀ c ∈ before, isBlank c)
    (hAfter : ∀ c ∈ after, isBlank c) : trimChars (before ++ (s ++ after)) = s := by
  by_cases hs : s = []
  · subst hs
    rw [trimChars_eq_nil_iff]
    simpa [or_imp, forall_and] using ⟨hBefore, hAfter⟩
  · have hAfter' : ∀ c ∈ after.reverse, isBlank c := fun c hc => hAfter c (List.mem_reverse.mp hc)
    have hEnd := dropWhile_pad hAfter' hTight.reverse.1 (mt List.reverse_eq_nil_iff.mp hs) []
    rw [List.append_nil, ← List.reverse_append] at hEnd
    rw [trimChars, dropWhile_pad hBefore hTight.1 hs, hEnd, List.reverse_reverse]

theorem not_isBlank_of_mem_head? (s : List Char) : ∀ c ∈ (s.dropWhile isBlank).head?, ¬ isBlank c := by
  intro c hc
  have h := List.head?_dropWhile_not isBlank s
  rw [Option.mem_def.mp hc] at h
  simpa using h

theorem dropWhile_eq_trimChars_append (s : List Char) :
    s.dropWhile isBlank = trimChars s ++ ((s.dropWhile isBlank).reverse.takeWhile isBlank).reverse := by
  rw [trimChars, ← List.reverse_append, List.takeWhile_append_dropWhile, List.reverse_reverse]

theorem exists_pad (s : List Char) :
    ∃ before after, s = before ++ (trimChars s ++ after) ∧
      (∀ c ∈ before, isBlank c) ∧ ∀ c ∈ after, isBlank c := by
  refine ⟨s.takeWhile isBlank, ((s.dropWhile isBlank).reverse.takeWhile isBlank).reverse, ?_, ?_, ?_⟩
  · rw [← dropWhile_eq_trimChars_append, List.takeWhile_append_dropWhile]
  · exact List.all_eq_true.mp List.all_takeWhile
  · intro c hc
    exact List.all_eq_true.mp List.all_takeWhile c (List.mem_reverse.mp hc)

theorem tight_trimChars (s : List Char) : Tight (trimChars s) := by
  constructor
  · intro c hc
    apply not_isBlank_of_mem_head? s c
    rw [dropWhile_eq_trimChars_append, List.head?_append, Option.mem_def.mp hc]
    rfl
  · intro c hc
    rw [trimChars, List.getLast?_reverse] at hc
    exact not_isBlank_of_mem_head? _ c hc

/-- Trimming finds the one tight text that stands in a piece with nothing but blanks around it. -/
theorem trimChars_eq_iff : trimChars piece = s ↔ Tight s ∧
    ∃ before after, piece = before ++ (s ++ after) ∧
      (∀ c ∈ before, isBlank c) ∧ ∀ c ∈ after, isBlank c := by
  constructor
  · rintro rfl
    exact ⟨tight_trimChars piece, exists_pad piece⟩
  · rintro ⟨hTight, before, after, rfl, hBefore, hAfter⟩
    exact trimChars_pad hTight hBefore hAfter

end Sortie.Text
