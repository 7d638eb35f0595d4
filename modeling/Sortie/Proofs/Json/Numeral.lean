import Sortie.Json.Number
import Sortie.Json.Writer

/-!
# Numbers in a longer text

A number ends with the text, or before a comma or a closing bracket. So a number
that takes up a whole text is read in the same way wherever this text stands before
such a character, and the reading stops right behind it.
-/

namespace Sortie.Json

def Follows (t : List Char) : Prop := ∀ c ∈ t.head?, c = ',' ∨ c = ']' ∨ c = '}'

namespace Follows

variable {t : List Char} {c : Char}

theorem nil : Follows [] := by
  intro c hc
  cases hc

theorem cons (h : c = ',' ∨ c = ']' ∨ c = '}') : Follows (c :: t) := by
  intro d hd
  cases hd
  exact h

theorem not_digit (h : Follows (c :: t)) : Decimal.isDigit c = false := by
  rcases h c rfl with rfl | rfl | rfl <;> decide

theorem not_mark (h : Follows (c :: t)) : c ≠ '.' ∧ c ≠ 'e' ∧ c ≠ 'E' := by
  rcases h c rfl with rfl | rfl | rfl <;> decide

end Follows

namespace Cursor

variable {before : Nat} {after : List Char}

/-- The same place in a longer text: so many bytes more stand before it, and more text behind it. -/
def within (before : Nat) (after : List Char) (c : Cursor) : Cursor where
  rest := c.rest ++ after
  index := before + c.index

/-- The next character is the same, unless the text has ended. -/
theorem head_within (hAfter : Follows after) {c : Cursor} {P : Char → Prop}
    (h : ∀ a ∈ c.rest.head?, P a) (hFollows : ∀ {a t}, Follows (a :: t) → P a) :
    ∀ a ∈ (c.within before after).rest.head?, P a := by
  obtain ⟨rest, index⟩ := c
  cases rest with
  | cons => exact h
  | nil =>
    intro a ha
    obtain ⟨t, rfl⟩ := List.head?_eq_some_iff.mp ha
    exact hFollows hAfter

theorem isDigitNext_within (hAfter : Follows after) (c : Cursor) :
    (c.within before after).isDigitNext = c.isDigitNext := by
  obtain ⟨rest, index⟩ := c
  cases rest with
  | cons => rfl
  | nil =>
    cases after with
    | nil => rfl
    | cons => exact hAfter.not_digit

theorem skipDigits_within (hAfter : Follows after) (c : Cursor) :
    (c.within before after).skipDigits = c.skipDigits.within before after := by
  obtain ⟨rest, index⟩ := c
  induction rest generalizing index with
  | nil =>
    cases after with
    | nil => rfl
    | cons => simp [within, skipDigits, hAfter.not_digit]
  | cons d rest ih =>
    cases hDigit : Decimal.isDigit d with
    | false => simp [within, skipDigits, hDigit]
    | true =>
      have hTail := ih (index + 1)
      simp only [within, skipDigits, List.cons_append, List.dropWhile_cons, List.takeWhile_cons,
        hDigit, if_true, List.length_cons, Cursor.mk.injEq] at hTail ⊢
      exact ⟨hTail.1, by omega⟩

end Cursor

namespace Number

variable {negative : Bool} {m n dropped before : Nat} {e : Int} {c : Cursor} {after : List Char}

/-- A reading that finds the same number in a longer text, and stops at the same place. -/
def Local (before : Nat) (after : List Char) (read : Cursor → Scan Number) : Prop :=
  ∀ {c x d}, read c = .ok (x, d) → read (c.within before after) = .ok (x, d.within before after)

theorem absorb_within (hAfter : Follows after) (m n index : Nat) (cs : List Char) :
    absorb m n (before + index) (cs ++ after) =
      ((absorb m n index cs).1, (absorb m n index cs).2.1,
        (absorb m n index cs).2.2.within before after) := by
  induction cs generalizing m n index with
  | nil =>
    cases after with
    | nil => rfl
    | cons => simp [absorb, Cursor.within, hAfter.not_digit]
  | cons d cs ih =>
    rw [List.cons_append, absorb, absorb]
    split
    · exact ih _ _ (index + 1)
    · rfl

theorem exponentDigits_within (hAfter : Follows after) (n index : Nat) (cs : List Char) :
    exponentDigits n (before + index) (cs ++ after) =
      ((exponentDigits n index cs).1, (exponentDigits n index cs).2.within before after) := by
  induction cs generalizing n index with
  | nil =>
    cases after with
    | nil => rfl
    | cons => simp [exponentDigits, Cursor.within, hAfter.not_digit]
  | cons d cs ih =>
    rw [List.cons_append, exponentDigits, exponentDigits]
    split
    · dsimp only
      split
      · exact ih _ (index + 1)
      · rfl
    · rfl

theorem scaled_local : Local before after (scaled negative m e) := by
  intro c x d h
  rw [scaled] at h ⊢
  cases hScale : scale? (Float.ofNat m) e with
  | none =>
    rw [hScale] at h
    cases h
  | some y =>
    rw [hScale] at h
    cases h
    rfl

/-- Takes the sign of an exponent off; the flag says that it was a minus. -/
def takeSign (c : Cursor) : Bool × Cursor :=
  match c.rest with
  | '+' :: rest => (false, ⟨rest, c.index + 1⟩)
  | '-' :: rest => (true, ⟨rest, c.index + 1⟩)
  | _ => (false, c)

def signedExponent (negative : Bool) (m : Nat) (e : Int) (down : Bool) (c : Cursor) : Scan Number :=
  match c.rest with
  | [] => .error (.flaw (.endOfText .value) c.index)
  | d :: _ =>
    if !Decimal.isDigit d then .error (.flaw .invalidNumber (c.index + 1))
    else match exponentDigits 0 c.index c.rest with
      | (some n, c) => scaled negative m (if down then e - n else e + n) c
      | (none, c) =>
        if m ≠ 0 ∧ !down then .error (.flaw .numberOutOfRange c.index)
        else .ok (.real (signed negative 0), c.skipDigits)

theorem exponent_eq (negative : Bool) (m : Nat) (e : Int) (c : Cursor) :
    exponent negative m e c = signedExponent negative m e (takeSign c).1 (takeSign c).2 := rfl

theorem takeSign_within (h : c.rest ≠ []) :
    takeSign (c.within before after) = ((takeSign c).1, (takeSign c).2.within before after) := by
  obtain ⟨rest, index⟩ := c
  cases rest with
  | nil => exact absurd rfl h
  | cons d rest =>
    by_cases hPlus : d = '+'
    · subst hPlus
      rfl
    · by_cases hMinus : d = '-'
      · subst hMinus
        rfl
      · simp [takeSign, Cursor.within, hPlus, hMinus]

theorem signedExponent_local (hAfter : Follows after) {down : Bool} :
    Local before after (signedExponent negative m e down) := by
  intro c x d h
  obtain ⟨rest, index⟩ := c
  cases rest with
  | nil => cases h
  | cons digit rest =>
    simp only [signedExponent, Cursor.within, List.cons_append] at h ⊢
    rw [← List.cons_append, exponentDigits_within hAfter]
    cases hDigit : Decimal.isDigit digit with
    | false => simp [hDigit] at h
    | true =>
      simp only [hDigit, Bool.not_true, Bool.false_eq_true, if_false] at h ⊢
      generalize exponentDigits 0 index (digit :: rest) = digits at h ⊢
      obtain ⟨value, stop⟩ := digits
      cases value with
      | some k => exact scaled_local h
      | none =>
        by_cases hLarge : m ≠ 0 ∧ !down
        · simp only [if_pos hLarge] at h
          cases h
        · simp only [if_neg hLarge] at h ⊢
          cases h
          exact congrArg (fun c => Except.ok (_, c)) (Cursor.skipDigits_within hAfter stop)

theorem exponent_local (hAfter : Follows after) : Local before after (exponent negative m e) := by
  intro c x d h
  rw [exponent_eq] at h ⊢
  have hRest : c.rest ≠ [] := by
    obtain ⟨rest, index⟩ := c
    rintro rfl
    cases h
  rw [takeSign_within hRest]
  exact signedExponent_local hAfter h

theorem exponentOrEnd_of_end (h : ∀ a ∈ c.rest.head?, a ≠ 'e' ∧ a ≠ 'E') :
    exponentOrEnd negative m e c = scaled negative m e c := by
  obtain ⟨rest, index⟩ := c
  cases rest with
  | nil => rfl
  | cons a rest =>
    obtain ⟨hLower, hUpper⟩ := h a rfl
    simp [exponentOrEnd, hLower, hUpper]

theorem exponentOrEnd_local (hAfter : Follows after) :
    Local before after (exponentOrEnd negative m e) := by
  intro c x d h
  by_cases hEnd : ∀ a ∈ c.rest.head?, a ≠ 'e' ∧ a ≠ 'E'
  · rw [exponentOrEnd_of_end hEnd] at h
    rw [exponentOrEnd_of_end (Cursor.head_within hAfter hEnd fun hFollows => hFollows.not_mark.2)]
    exact scaled_local h
  · obtain ⟨rest, index⟩ := c
    cases rest with
    | nil => exact absurd (by simp) hEnd
    | cons a rest =>
      have hMark : a = 'e' ∨ a = 'E' := by
        simpa [Classical.or_iff_not_imp_left] using hEnd
      rcases hMark with rfl | rfl
      · exact exponent_local (c := ⟨rest, index + 1⟩) hAfter h
      · exact exponent_local (c := ⟨rest, index + 1⟩) hAfter h

/-- What follows the digits behind the point of which `n` are in the significand. -/
def endFraction (negative : Bool) (m n : Nat) (e : Int) (c : Cursor) : Scan Number :=
  if c.isDigitNext then exponentOrEnd negative m (e - n) c.skipDigits
  else if n = 0 then
    .error (.flaw (if c.rest = [] then .endOfText .value else .invalidNumber) c.ahead)
  else exponentOrEnd negative m (e - n) c

theorem fraction_eq (negative : Bool) (m : Nat) (e : Int) (c : Cursor) :
    fraction negative m e c =
      let absorbed := absorb m 0 c.index c.rest
      endFraction negative absorbed.1 absorbed.2.1 e absorbed.2.2 := rfl

theorem endFraction_local (hAfter : Follows after) :
    Local before after (endFraction negative m n e) := by
  intro c x d h
  rw [endFraction] at h ⊢
  rw [Cursor.isDigitNext_within hAfter, Cursor.skipDigits_within hAfter]
  by_cases hDigit : c.isDigitNext
  · rw [if_pos hDigit] at h ⊢
    exact exponentOrEnd_local hAfter h
  · rw [if_neg hDigit] at h ⊢
    by_cases hNone : n = 0
    · rw [if_pos hNone] at h
      cases h
    · rw [if_neg hNone] at h ⊢
      exact exponentOrEnd_local hAfter h

theorem fraction_local (hAfter : Follows after) : Local before after (fraction negative m e) := by
  intro c x d h
  have hAbsorb : absorb m 0 (c.within before after).index (c.within before after).rest = _ :=
    absorb_within hAfter m 0 c.index c.rest
  rw [fraction_eq] at h ⊢
  rw [hAbsorb]
  exact endFraction_local hAfter h

theorem afterInteger_of_end (h : ∀ a ∈ c.rest.head?, a ≠ '.' ∧ a ≠ 'e' ∧ a ≠ 'E') :
    afterInteger negative m dropped c =
      if dropped = 0 then .ok (integral negative m, c) else scaled negative m dropped c := by
  obtain ⟨rest, index⟩ := c
  cases rest with
  | nil => rfl
  | cons a rest =>
    obtain ⟨hPoint, hLower, hUpper⟩ := h a rfl
    simp [afterInteger, hPoint, hLower, hUpper]

theorem endInteger_local : Local before after fun c =>
    if dropped = 0 then .ok (integral negative m, c) else scaled negative m dropped c := by
  intro c x d h
  by_cases hDropped : dropped = 0
  · simp only [if_pos hDropped] at h ⊢
    cases h
    rfl
  · simp only [if_neg hDropped] at h ⊢
    exact scaled_local h

theorem afterInteger_local (hAfter : Follows after) :
    Local before after (afterInteger negative m dropped) := by
  intro c x d h
  by_cases hEnd : ∀ a ∈ c.rest.head?, a ≠ '.' ∧ a ≠ 'e' ∧ a ≠ 'E'
  · rw [afterInteger_of_end hEnd] at h
    rw [afterInteger_of_end (Cursor.head_within hAfter hEnd fun hFollows => hFollows.not_mark)]
    exact endInteger_local h
  · obtain ⟨rest, index⟩ := c
    cases rest with
    | nil => exact absurd (by simp) hEnd
    | cons a rest =>
      have hMark : a = '.' ∨ a = 'e' ∨ a = 'E' := by
        simpa [Classical.or_iff_not_imp_left] using hEnd
      rcases hMark with rfl | rfl | rfl
      · exact fraction_local (c := ⟨rest, index + 1⟩) hAfter h
      · exact exponent_local (c := ⟨rest, index + 1⟩) hAfter h
      · exact exponent_local (c := ⟨rest, index + 1⟩) hAfter h

def afterZero (negative : Bool) (c : Cursor) : Scan Number :=
  if c.isDigitNext then .error (.flaw .invalidNumber c.ahead) else afterInteger negative 0 0 c

theorem afterZero_local (hAfter : Follows after) : Local before after (afterZero negative) := by
  intro c x d h
  rw [afterZero] at h ⊢
  rw [Cursor.isDigitNext_within hAfter]
  by_cases hDigit : c.isDigitNext
  · rw [if_pos hDigit] at h
    cases h
  · rw [if_neg hDigit] at h ⊢
    exact afterInteger_local hAfter h

def fromDigit (negative : Bool) (c : Cursor) : Scan Number :=
  let absorbed := absorb 0 0 c.index c.rest
  let stop := absorbed.2.2.skipDigits
  afterInteger negative absorbed.1 (stop.index - absorbed.2.2.index) stop

theorem scan_of_digit {a : Char} {rest : List Char} {index : Nat} (hZero : a ≠ '0')
    (hDigit : Decimal.isDigit a) :
    scan negative ⟨a :: rest, index⟩ = fromDigit negative ⟨a :: rest, index⟩ := by
  simp [scan, fromDigit, hDigit]

theorem fromDigit_local (hAfter : Follows after) : Local before after (fromDigit negative) := by
  intro c x d h
  have hAbsorb : absorb 0 0 (c.within before after).index (c.within before after).rest = _ :=
    absorb_within hAfter 0 0 c.index c.rest
  rw [fromDigit] at h ⊢
  rw [hAbsorb]
  dsimp only at h ⊢
  rw [Cursor.skipDigits_within hAfter]
  -- how many digits are left out does not depend on where they stand
  have hDropped : ∀ c d : Cursor, (c.within before after).index - (d.within before after).index =
      c.index - d.index := fun c d => Nat.add_sub_add_left before c.index d.index
  rw [hDropped]
  exact afterInteger_local hAfter h

theorem scan_local (hAfter : Follows after) : Local before after (scan negative) := by
  intro c x d h
  obtain ⟨rest, index⟩ := c
  cases rest with
  | nil => cases h
  | cons a rest =>
    by_cases hZero : a = '0'
    · subst hZero
      exact afterZero_local (c := ⟨rest, index + 1⟩) hAfter h
    · cases hDigit : Decimal.isDigit a with
      | false => simp [scan, hDigit] at h
      | true =>
        rw [scan_of_digit hZero hDigit] at h
        rw [Cursor.within, List.cons_append, scan_of_digit hZero hDigit]
        exact fromDigit_local hAfter h

end Number

end Sortie.Json
