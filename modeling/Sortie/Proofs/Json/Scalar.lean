import Sortie.Json.Document
import Sortie.Proofs.Json.Numeral

/-!
# Scalars that are read back

Each character of a text is read back from its escape, so every text is. Of a
number this is said by `Number.ReadsBack`, as a text does not always round to the
double for which it was written.
-/

namespace Sortie.Json

namespace Text

theorem hexValue?_hexDigit : ∀ n < 16, hexValue? (hexDigit n) = some n := by
  decide

/-- A character is written as itself, as a letter behind a backslash, or by its number. -/
theorem escape_cases (a : Char) :
    (∃ letter, escape a = ['\\', letter] ∧ letter ≠ 'u' ∧ unescape? letter = some a) ∨
    (escape a = ['\\', 'u', '0', '0', hexDigit (a.toNat / 16), hexDigit (a.toNat % 16)] ∧
      a.toNat < 0x20) ∨
    (escape a = [a] ∧ a ≠ '"' ∧ a ≠ '\\' ∧ ¬ a.toNat < 0x20) := by
  by_cases hLetter : a ∈ ['"', '\\', '\x08', '\x0c', '\n', '\r', '\t']
  · left
    simp only [List.mem_cons, List.not_mem_nil, or_false] at hLetter
    rcases hLetter with rfl | rfl | rfl | rfl | rfl | rfl | rfl <;>
      exact ⟨_, rfl, by decide, rfl⟩
  · right
    simp only [List.mem_cons, List.not_mem_nil, or_false, not_or] at hLetter
    by_cases hControl : a.toNat < 0x20
    · exact .inl ⟨by simp [escape, hLetter, hControl], hControl⟩
    · exact .inr ⟨by simp [escape, hLetter, hControl], hLetter.1, hLetter.2.1, hControl⟩

/-- The two digits of a control character stand for no half of a pair. -/
theorem control_value {a : Char} (h : a.toNat < 0x20) :
    isLow (16 * (a.toNat / 16) + a.toNat % 16) = false ∧
    isHigh (16 * (a.toNat / 16) + a.toNat % 16) = false ∧
    Char.ofNat (16 * (a.toNat / 16) + a.toNat % 16) = a := by
  rw [Nat.div_add_mod, Char.ofNat_toNat]
  refine ⟨?_, ?_, rfl⟩
  · simp [isLow]
    omega
  · simp [isHigh]
    omega

/-- The escape of a character is read as this character. -/
theorem scanFrom_escape (a : Char) (read cs : List Char) (index : Nat) :
    ∃ i, scanFrom index read .plain (escape a ++ cs) = scanFrom i (a :: read) .plain cs := by
  obtain ⟨letter, hEscape, hUnicode, hLetter⟩ | ⟨hEscape, hControl⟩ |
    ⟨hEscape, hQuote, hBackslash, hControl⟩ := escape_cases a
  · exact ⟨index + 2, by simp [hEscape, scanFrom, hUnicode, hLetter]⟩
  · have hZero : hexValue? '0' = some 0 := by decide
    have hHigh := hexValue?_hexDigit (a.toNat / 16) (by omega)
    have hLow := hexValue?_hexDigit (a.toNat % 16) (by omega)
    exact ⟨index + 6, by simp [hEscape, scanFrom, hZero, hHigh, hLow, control_value hControl]⟩
  · exact ⟨index + a.utf8Size, by simp [hEscape, scanFrom, hQuote, hBackslash, hControl]⟩

theorem scanFrom_quoted (cs read after : List Char) (index : Nat) :
    ∃ i, scanFrom index read .plain (cs.flatMap escape ++ '"' :: after) =
      .ok (String.ofList (read.reverse ++ cs), ⟨after, i⟩) := by
  induction cs generalizing read index with
  | nil => exact ⟨index + 1, by simp [scanFrom]⟩
  | cons a cs ih =>
    obtain ⟨i, hHead⟩ := scanFrom_escape a read (cs.flatMap escape ++ '"' :: after) index
    obtain ⟨j, hTail⟩ := ih (a :: read) i
    refine ⟨j, ?_⟩
    rw [List.flatMap_cons, List.append_assoc, hHead, hTail]
    simp

theorem scan_quoted (s : String) (after : List Char) (index : Nat) :
    ∃ i, scan ⟨s.toList.flatMap escape ++ '"' :: after, index⟩ = .ok (s, ⟨after, i⟩) := by
  obtain ⟨i, hScan⟩ := scanFrom_quoted s.toList [] after index
  refine ⟨i, ?_⟩
  rw [scan, hScan, List.reverse_nil, List.nil_append, String.ofList_toList]

end Text

theorem toList_renderText (s : String) :
    (renderText s).toList = '"' :: (s.toList.flatMap escape ++ ['"']) := by
  simp [renderText]

theorem Cursor.word_append (w after : List Char) (index : Nat) :
    word w ⟨w ++ after, index⟩ = .ok ⟨after, index + w.length⟩ := by
  induction w generalizing index with
  | nil => rfl
  | cons a w ih =>
    rw [List.cons_append, word]
    simp only [if_true]
    rw [ih, List.length_cons, Nat.add_assoc, Nat.add_comm 1]

namespace Doc

variable {c d : Cursor} {n : Number} {s : Scalar} {before : Nat} {after : List Char}

theorem scanScalar_of_digit {a : Char} {rest : List Char} {index : Nat} (h : Decimal.isDigit a) :
    scanScalar ⟨a :: rest, index⟩ =
      (Number.scan false ⟨a :: rest, index⟩).map (Prod.map Scalar.number id) := by
  have hOther : a ≠ 'n' ∧ a ≠ 't' ∧ a ≠ 'f' ∧ a ≠ '"' ∧ a ≠ '-' := by
    refine ⟨?_, ?_, ?_, ?_, ?_⟩ <;> (rintro rfl; exact absurd h (by decide))
  obtain ⟨hNull, hTrue, hFalse, hQuote, hMinus⟩ := hOther
  simp only [scanScalar, h, if_true]
  rfl

theorem number_of_map {r : Scan Number}
    (h : r.map (Prod.map Scalar.number id) = .ok (.number n, d)) : r = .ok (n, d) := by
  cases r with
  | error => cases h
  | ok =>
    cases h
    rfl

/-- What is a number starts with a minus or a digit. -/
theorem head_of_number {a : Char} {rest : List Char} {index : Nat}
    (h : scanScalar ⟨a :: rest, index⟩ = .ok (.number n, d)) : a = '-' ∨ Decimal.isDigit a := by
  have hOther : ∀ {α : Type} {r : Except Fault α} {f : α → Scalar × Cursor},
      (∀ x, (f x).1 ≠ .number n) → r.map f ≠ .ok (.number n, d) := by
    intro α r f hf hMap
    cases r with
    | error => cases hMap
    | ok x => exact hf x (congrArg Prod.fst (Except.ok.inj hMap))
  rw [scanScalar] at h
  split at h
  · cases h
  · exact absurd h (hOther (by simp))
  · exact absurd h (hOther (by simp))
  · exact absurd h (hOther (by simp))
  · exact absurd h (hOther (by simp))
  · rename_i hRest
    exact .inl (List.cons.inj hRest).1
  · rename_i hRest
    obtain ⟨rfl, -⟩ := List.cons.inj hRest
    right
    by_cases hDigit : Decimal.isDigit a
    · exact hDigit
    · rw [if_neg hDigit] at h
      cases h

theorem scanScalar_within (hAfter : Follows after) (h : scanScalar c = .ok (.number n, d)) :
    scanScalar (c.within before after) = .ok (.number n, d.within before after) := by
  obtain ⟨rest, index⟩ := c
  cases rest with
  | nil => cases h
  | cons a rest =>
    rcases head_of_number h with rfl | hDigit
    · exact congrArg (Except.map (Prod.map Scalar.number id))
        (Number.scan_local hAfter (number_of_map h))
    · rw [scanScalar_of_digit hDigit] at h
      rw [Cursor.within, List.cons_append, scanScalar_of_digit hDigit]
      exact congrArg (Except.map (Prod.map Scalar.number id))
        (Number.scan_local hAfter (number_of_map h))

end Doc

def Number.ReadsBack (n : Number) : Prop :=
  ∃ stop, Doc.scanScalar ⟨n.render.toList, 0⟩ = .ok (.number n, ⟨[], stop⟩)

/-- The text of this double is read as its neighbour. -/
example : ¬ (Number.real 0.09908692141034921).ReadsBack := by
  rintro ⟨stop, hScan⟩
  have hRead : (Doc.scanScalar ⟨(Number.real 0.09908692141034921).render.toList, 0⟩).toOption.map
      Prod.fst = some (.number (.real 0.09908692141034921)) := by
    rw [hScan]
    rfl
  exact absurd hRead (by decide +kernel)

def Scalar.ReadsBack : Scalar → Prop
  | .number n => n.ReadsBack
  | _ => True

namespace Doc

variable {s : Scalar} {after : List Char}

theorem scanScalar_render (h : s.ReadsBack) (hAfter : Follows after) (index : Nat) :
    ∃ i, scanScalar ⟨s.render.toList ++ after, index⟩ = .ok (s, ⟨after, i⟩) := by
  cases s with
  | null =>
    have hWord := Cursor.word_append ['n', 'u', 'l', 'l'] after index
    exact ⟨index + 4, congrArg (Except.map fun c => (Scalar.null, c)) hWord⟩
  | bool b =>
    cases b with
    | false =>
      have hWord := Cursor.word_append ['f', 'a', 'l', 's', 'e'] after index
      exact ⟨index + 5, congrArg (Except.map fun c => (Scalar.bool false, c)) hWord⟩
    | true =>
      have hWord := Cursor.word_append ['t', 'r', 'u', 'e'] after index
      exact ⟨index + 4, congrArg (Except.map fun c => (Scalar.bool true, c)) hWord⟩
  | number n =>
    obtain ⟨stop, hScan⟩ := h
    exact ⟨index + stop, scanScalar_within hAfter hScan⟩
  | text s =>
    obtain ⟨i, hScan⟩ := Text.scan_quoted s after (index + 1)
    refine ⟨i, ?_⟩
    rw [Scalar.render, toList_renderText, List.cons_append, List.append_assoc]
    exact congrArg (Except.map (Prod.map Scalar.text id)) hScan

/-- What a scalar starts with is neither a blank nor a bracket. -/
theorem head_of_scalar {c : Cursor} {r : Scalar × Cursor} (h : scanScalar c = .ok r) :
    ∃ a rest, c.rest = a :: rest ∧ Cursor.isBlank a = false ∧ a ≠ '[' ∧ a ≠ ']' ∧ a ≠ '{' := by
  obtain ⟨rest, index⟩ := c
  cases rest with
  | nil => cases h
  | cons a rest =>
    have hHead : a ∉ [' ', '\n', '\t', '\r', '[', ']', '{'] := by
      intro hMem
      simp only [List.mem_cons, List.not_mem_nil, or_false] at hMem
      rcases hMem with rfl | rfl | rfl | rfl | rfl | rfl | rfl <;> cases h
    simp only [List.mem_cons, List.not_mem_nil, or_false, not_or] at hHead
    exact ⟨a, rest, rfl, by simp [Cursor.isBlank, hHead], hHead.2.2.2.2⟩

end Doc

end Sortie.Json
