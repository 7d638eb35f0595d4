import Sortie.Proofs.Text.Trim
import Sortie.Command

/-!
# The tokens of a command
-/

namespace Sortie.Command

open Text

variable {piece cs : List Char} {token text : String} {ts : List String}

def Spaced (piece : List Char) (token : String) : Prop :=
  ',' ∉ token.toList ∧ Tight token.toList ∧
    ∃ before after, piece = before ++ (token.toList ++ after) ∧
      (∀ c ∈ before, isBlank c) ∧ ∀ c ∈ after, isBlank c

/-- Tokens with commas between them and blanks around each; there is at least one, perhaps empty. -/
inductive Written : List Char → List String → Prop where
  | last {piece : List Char} {token : String} (h : Spaced piece token) : Written piece [token]
  | cons {piece cs : List Char} {token : String} {ts : List String} (h : Spaced piece token)
      (rest : Written cs ts) : Written (piece ++ ',' :: cs) (token :: ts)

theorem not_mem_of_mem_splitOn (c : Char) (cs : List Char) : ∀ piece ∈ cs.splitOn c, c ∉ piece := by
  induction cs with
  | nil => simp
  | cons d cs ih =>
    intro piece hPiece
    rw [List.splitOn_cons_eq_if_modifyHead] at hPiece
    split at hPiece
    · rcases List.mem_cons.mp hPiece with rfl | hPiece
      · exact List.not_mem_nil
      · exact ih piece hPiece
    · rename_i hd
      obtain ⟨first, rest, hSplit⟩ := List.exists_cons_of_ne_nil (List.splitOn_ne_nil c cs)
      rw [hSplit] at hPiece ih
      rcases List.mem_cons.mp hPiece with rfl | hPiece
      · rw [List.mem_cons, not_or]
        exact ⟨fun hEq => hd (by simp [hEq]), ih first List.mem_cons_self⟩
      · exact ih piece (List.mem_cons_of_mem first hPiece)

theorem spaced_iff :
    Spaced piece token ↔ ',' ∉ piece ∧ String.ofList (trimChars piece) = token := by
  have hTrim : trimChars piece = token.toList ↔ String.ofList (trimChars piece) = token := by
    constructor
    · intro h
      rw [h, String.ofList_toList]
    · rintro rfl
      rw [String.toList_ofList]
  have hBlank : ∀ {s : List Char}, (∀ c ∈ s, isBlank c) → ',' ∉ s := by
    intro s hs hMem
    exact absurd (hs ',' hMem) (by decide)
  rw [Spaced, ← hTrim, trimChars_eq_iff]
  constructor
  · rintro ⟨hComma, hTight, before, after, rfl, hBefore, hAfter⟩
    refine ⟨?_, hTight, before, after, rfl, hBefore, hAfter⟩
    simp [hComma, hBlank hBefore, hBlank hAfter]
  · rintro ⟨hComma, hTight, before, after, rfl, hPad⟩
    refine ⟨?_, hTight, before, after, rfl, hPad⟩
    simp only [List.mem_append, not_or] at hComma
    exact hComma.2.1

theorem written_intercalate (pieces : List (List Char)) (hPieces : pieces ≠ [])
    (h : ∀ piece ∈ pieces, ',' ∉ piece) :
    Written ([','].intercalate pieces) (pieces.map fun piece => String.ofList (trimChars piece)) := by
  induction pieces with
  | nil => exact absurd rfl hPieces
  | cons piece rest ih =>
    have hSpaced : Spaced piece (String.ofList (trimChars piece)) :=
      spaced_iff.mpr ⟨h piece List.mem_cons_self, rfl⟩
    cases rest with
    | nil =>
      rw [List.intercalate_singleton]
      exact .last hSpaced
    | cons next rest =>
      rw [List.intercalate_cons_cons, List.append_assoc]
      exact .cons hSpaced (ih (List.cons_ne_nil _ _) fun q hq => h q (List.mem_cons_of_mem piece hq))

/-- A text is written with exactly one list of tokens. -/
theorem written_iff : Written text.toList ts ↔ tokens text = ts := by
  constructor
  · rw [tokens]
    generalize text.toList = cs
    intro h
    induction h with
    | last hSpaced =>
      obtain ⟨hComma, rfl⟩ := spaced_iff.mp hSpaced
      rw [List.splitOn_eq_singleton hComma]
      rfl
    | cons hSpaced _ ih =>
      obtain ⟨hComma, rfl⟩ := spaced_iff.mp hSpaced
      rw [List.splitOn_append_cons_self_of_not_mem hComma, List.map_cons, ih]
  · rintro rfl
    have hPieces := written_intercalate (text.toList.splitOn ',') (List.splitOn_ne_nil ',' _)
      (not_mem_of_mem_splitOn ',' text.toList)
    rwa [List.intercalate_splitOn] at hPieces

end Sortie.Command
