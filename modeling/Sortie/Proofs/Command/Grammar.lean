import Mathlib.Data.List.Basic
import Sortie.Proofs.Command.Tokens

/-!
# The grammar of commands

A phrase is a verb with its arguments. A text is a command exactly if its tokens
are a phrase, perhaps after one `task`; every other text is refused for the first
thing that is wrong with it: the number of its tokens, its verb, the number of
its arguments, and its numerals.
-/

namespace Sortie.Command

variable {verb token text : String} {args ts body : List String} {c : Command} {e : CommandError}

def Reads (token : String) (x : Float) : Prop := Decimal.float? token = some x ∧ x.isFinite

def Reads32 (token : String) (x : Float32) : Prop := Decimal.float32? token = some x ∧ x.isFinite

inductive Phrase : List String → Command → Prop where
  | home : Phrase ["home"] home
  | circleHere : Phrase ["circle"] (circle none)
  | circle {lon lat : String} {x y : Float} (hLon : Reads lon x) (hLat : Reads lat y) :
      Phrase ["circle", lon, lat] (circle (some { lon := x, lat := y }))
  | idle : Phrase ["idle"] idle
  | resume : Phrase ["resume"] resume
  | landUpwind : Phrase ["land"] (land none)
  | land {heading : String} {x : Float32} (h : Reads32 heading x) :
      Phrase ["land", heading] (land (some x))
  | preflight {duration : String} {x : Float32} (h : Reads32 duration x) :
      Phrase ["preflight", duration] (preflight x)
  | calibrate : Phrase ["calibrate"] calibrate
  | route : Phrase ["route"] route
  | parametric : Phrase ["parametric"] parametric
  | pop : Phrase ["pop"] pop

/-- A text whose tokens are a phrase, perhaps framed by a leading `task`. -/
inductive Sentence (text : String) (c : Command) : Prop where
  | plain {ts : List String} (hText : Written text.toList ts) (h : Phrase ts c)
  | framed {ts : List String} (hText : Written text.toList ("task" :: ts)) (h : Phrase ts c)

def arities : String → List Nat
  | "circle" => [0, 2]
  | "land" => [0, 1]
  | "preflight" => [1]
  | "home" | "idle" | "resume" | "calibrate" | "route" | "parametric" | "pop" => [0]
  | _ => []

def Fails (body : List String) : CommandError → Prop
  | .empty => body = [] ∨ ∃ args, body = "" :: args
  | .unknownVerb => ∃ verb args, body = verb :: args ∧ verb ≠ "" ∧ arities verb = []
  | .badArity => ∃ verb args, body = verb :: args ∧ arities verb ≠ [] ∧ args.length ∉ arities verb
  | .badNumber =>
    ∃ verb args, body = verb :: args ∧ args.length ∈ arities verb ∧ ∀ c, ¬ Phrase body c

/-! ## Numerals -/

section

variable {α : Type} {finite : α → Bool} {x : α} {read : Option α}

def checked (finite : α → Bool) : Option α → Except CommandError α
  | some x => if finite x then .ok x else .error .badNumber
  | none => .error .badNumber

theorem checked_of_eq (hRead : read = some x) (hFinite : finite x) : checked finite read = .ok x := by
  rw [hRead, checked, if_pos hFinite]

theorem checked_cases (finite : α → Bool) (read : Option α) :
    (∃ x, read = some x ∧ finite x) ∨ checked finite read = .error .badNumber := by
  cases read with
  | none => exact .inr rfl
  | some x =>
    by_cases hFinite : finite x
    · exact .inl ⟨x, rfl, hFinite⟩
    · exact .inr (by rw [checked, if_neg hFinite])

end

theorem number_eq_checked (token : String) :
    number token = checked Float.isFinite (Decimal.float? token) := by
  rw [number]
  cases Decimal.float? token <;> rfl

theorem number32_eq_checked (token : String) :
    number32 token = checked Float32.isFinite (Decimal.float32? token) := by
  rw [number32]
  cases Decimal.float32? token <;> rfl

theorem Reads.number_eq {x : Float} (h : Reads token x) : number token = .ok x := by
  rw [number_eq_checked, checked_of_eq h.1 h.2]

theorem Reads32.number32_eq {x : Float32} (h : Reads32 token x) : number32 token = .ok x := by
  rw [number32_eq_checked, checked_of_eq h.1 h.2]

theorem number_cases (token : String) : (∃ x, Reads token x) ∨ number token = .error .badNumber := by
  rw [number_eq_checked]
  exact checked_cases Float.isFinite (Decimal.float? token)

theorem number32_cases (token : String) :
    (∃ x, Reads32 token x) ∨ number32 token = .error .badNumber := by
  rw [number32_eq_checked]
  exact checked_cases Float32.isFinite (Decimal.float32? token)

/-! ## Verbs -/

theorem mem_verbs_iff : verb ∈ verbs ↔ arities verb ≠ [] := by
  constructor
  · intro h
    simp only [verbs, List.mem_cons, List.not_mem_nil, or_false] at h
    rcases h with rfl | rfl | rfl | rfl | rfl | rfl | rfl | rfl | rfl | rfl <;> decide
  · intro h
    unfold arities at h
    split at h
    all_goals first | decide | exact absurd rfl h

theorem ofVerb_of_phrase (h : Phrase (verb :: args) c) : ofVerb verb args = .ok c := by
  cases h with
  | circle hLon hLat =>
    rw [ofVerb, hLon.number_eq, hLat.number_eq]
    rfl
  | land h =>
    rw [ofVerb, h.number32_eq]
    rfl
  | preflight h =>
    rw [ofVerb, h.number32_eq]
    rfl
  | _ => rfl

theorem ofVerb_empty (args : List String) : ofVerb "" args = .error .empty := by
  cases args <;> rfl

theorem ofVerb_of_not_mem (hVerb : verb ≠ "") (hArgs : args.length ∉ arities verb) :
    ofVerb verb args = .error (if verb ∈ verbs then .badArity else .unknownVerb) := by
  unfold ofVerb
  split
  -- every arm but the last two is a verb with a number of arguments that it may have
  all_goals first | rfl | simp [arities] at hArgs
  exact absurd rfl hVerb

theorem ofVerb_of_mem (hArgs : args.length ∈ arities verb) :
    (∃ c, Phrase (verb :: args) c) ∨ ofVerb verb args = .error .badNumber := by
  unfold arities at hArgs
  split at hArgs
  · rw [List.mem_pair, List.length_eq_zero_iff, List.length_eq_two] at hArgs
    obtain rfl | ⟨lon, lat, rfl⟩ := hArgs
    · exact .inl ⟨_, .circleHere⟩
    · obtain ⟨x, hLon⟩ | hLon := number_cases lon
      · obtain ⟨y, hLat⟩ | hLat := number_cases lat
        · exact .inl ⟨_, .circle hLon hLat⟩
        · rw [ofVerb, hLon.number_eq, hLat]
          exact .inr rfl
      · rw [ofVerb, hLon]
        exact .inr rfl
  · rw [List.mem_pair, List.length_eq_zero_iff, List.length_eq_one_iff] at hArgs
    obtain rfl | ⟨heading, rfl⟩ := hArgs
    · exact .inl ⟨_, .landUpwind⟩
    · obtain ⟨x, h⟩ | h := number32_cases heading
      · exact .inl ⟨_, .land h⟩
      · rw [ofVerb, h]
        exact .inr rfl
  · rw [List.mem_singleton, List.length_eq_one_iff] at hArgs
    obtain ⟨duration, rfl⟩ := hArgs
    obtain ⟨x, h⟩ | h := number32_cases duration
    · exact .inl ⟨_, .preflight h⟩
    · rw [ofVerb, h]
      exact .inr rfl
  -- the other verbs take no arguments
  iterate 7
    · rw [List.mem_singleton, List.length_eq_zero_iff] at hArgs
      subst hArgs
      exact .inl ⟨_, by constructor⟩
  · exact absurd hArgs List.not_mem_nil

/-! ## Phrases and what is none -/

theorem Phrase.length_le (h : Phrase ts c) : ts.length ≤ 3 := by
  cases h <;> simp

theorem Phrase.head_ne (h : Phrase ts c) : ts.head? ≠ some "task" := by
  cases h <;> simp

theorem ofTokens_of_phrase (h : Phrase ts c) : ofTokens ts = .ok c := by
  cases ts with
  | nil => cases h
  | cons verb args => exact ofVerb_of_phrase h

theorem ofTokens_of_fails (h : Fails body e) : ofTokens body = .error e := by
  cases e with
  | empty =>
    obtain rfl | ⟨args, rfl⟩ := h
    · rfl
    · exact ofVerb_empty args
  | unknownVerb =>
    obtain ⟨verb, args, rfl, hVerb, hNone⟩ := h
    rw [ofTokens, ofVerb_of_not_mem hVerb (by simp [hNone]), if_neg (by simpa [mem_verbs_iff] using hNone)]
  | badArity =>
    obtain ⟨verb, args, rfl, hVerb, hArgs⟩ := h
    have hNe : verb ≠ "" := by
      rintro rfl
      exact hVerb rfl
    rw [ofTokens, ofVerb_of_not_mem hNe hArgs, if_pos (mem_verbs_iff.mpr hVerb)]
  | badNumber =>
    obtain ⟨verb, args, rfl, hArgs, hNone⟩ := h
    obtain ⟨c, hPhrase⟩ | hBad := ofVerb_of_mem hArgs
    · exact absurd hPhrase (hNone c)
    · exact hBad

theorem phrase_or_fails (body : List String) : (∃ c, Phrase body c) ∨ ∃ e, Fails body e := by
  by_cases hPhrase : ∃ c, Phrase body c
  · exact .inl hPhrase
  · have hNone := not_exists.mp hPhrase
    right
    cases body with
    | nil => exact ⟨.empty, .inl rfl⟩
    | cons verb args =>
      by_cases hEmpty : verb = ""
      · exact ⟨.empty, .inr ⟨args, by rw [hEmpty]⟩⟩
      · by_cases hVerb : arities verb = []
        · exact ⟨.unknownVerb, verb, args, rfl, hEmpty, hVerb⟩
        · by_cases hArgs : args.length ∈ arities verb
          · exact ⟨.badNumber, verb, args, rfl, hArgs, hNone⟩
          · exact ⟨.badArity, verb, args, rfl, hVerb, hArgs⟩

theorem ofTokens_eq_ok_iff : ofTokens body = .ok c ↔ Phrase body c := by
  constructor
  · intro h
    obtain ⟨d, hPhrase⟩ | ⟨e, hFails⟩ := phrase_or_fails body
    · rw [ofTokens_of_phrase hPhrase, Except.ok.injEq] at h
      rwa [← h]
    · rw [ofTokens_of_fails hFails] at h
      cases h
  · exact ofTokens_of_phrase

theorem ofTokens_eq_error_iff : ofTokens body = .error e ↔ Fails body e := by
  constructor
  · intro h
    obtain ⟨c, hPhrase⟩ | ⟨d, hFails⟩ := phrase_or_fails body
    · rw [ofTokens_of_phrase hPhrase] at h
      cases h
    · rw [ofTokens_of_fails hFails, Except.error.injEq] at h
      rwa [← h]
  · exact ofTokens_of_fails

/-! ## Texts -/

theorem dropFraming_eq (ts : List String) :
    dropFraming ts = if ts.head? = some "task" then ts.tail else ts := by
  unfold dropFraming
  split
  · rfl
  · rename_i hTask
    rw [if_neg]
    intro hHead
    obtain ⟨rest, rfl⟩ := List.head?_eq_some_iff.mp hHead
    exact hTask rest rfl

theorem sentence_iff : Sentence text c ↔ Phrase (dropFraming (tokens text)) c := by
  constructor
  · intro h
    cases h with
    | plain hText h =>
      rw [written_iff.mp hText, dropFraming_eq, if_neg h.head_ne]
      exact h
    | framed hText h =>
      rw [written_iff.mp hText]
      exact h
  · intro h
    rw [dropFraming_eq] at h
    split at h
    · rename_i hHead
      obtain ⟨rest, hTokens⟩ := List.head?_eq_some_iff.mp hHead
      rw [hTokens] at h
      exact .framed (written_iff.mpr hTokens) h
    · exact .plain (written_iff.mpr rfl) h

theorem length_tokens_le (text : String) :
    (tokens text).length ≤ (dropFraming (tokens text)).length + 1 := by
  rw [dropFraming_eq]
  split
  · rw [List.length_tail]
    omega
  · omega

theorem parse_eq_ok_iff : parse text = .ok c ↔ Sentence text c := by
  rw [sentence_iff, parse]
  split
  · rename_i hLength
    simp only [reduceCtorEq, false_iff]
    intro h
    have hPhrase := h.length_le
    have hTokens := length_tokens_le text
    simp only [maxTokens] at hLength
    omega
  · exact ofTokens_eq_ok_iff

theorem parse_of_lt (h : maxTokens < (tokens text).length) : parse text = .error .badArity := by
  rw [parse, if_pos h]

theorem parse_of_le (h : (tokens text).length ≤ maxTokens) :
    parse text = ofTokens (dropFraming (tokens text)) := by
  rw [parse, if_neg (Nat.not_lt.mpr h)]

theorem tokens_framed (text : String) : tokens ("task," ++ text) = "task" :: tokens text := by
  have hTask : Spaced "task".toList "task" := spaced_iff.mpr ⟨by decide, by decide⟩
  have hText : ("task," ++ text).toList = "task".toList ++ ',' :: text.toList := by
    rw [String.toList_append]
    rfl
  rw [← written_iff, hText]
  exact .cons hTask (written_iff.mpr rfl)

/--
A text is a command exactly if it is a sentence of the grammar, and no sentence has
too many tokens. Every text has one list of tokens, and those of any other text
decide what is wrong with it. Framing a text that is not framed yet changes nothing
as long as there is room for one more token.
-/
theorem parse_classifies (text : String) :
    (∀ c, parse text = .ok c ↔ Sentence text c) ∧
    ∃ ts, (∀ us, Written text.toList us ↔ us = ts) ∧
      let body := if ts.head? = some "task" then ts.tail else ts
      (∀ c, Sentence text c → ts.length ≤ 4) ∧
      (8 < ts.length → parse text = .error .badArity) ∧
      (ts.length ≤ 8 → ∀ e, parse text = .error e ↔ Fails body e) ∧
      (ts.length ≤ 7 → ts.head? ≠ some "task" → parse ("task," ++ text) = parse text) := by
  refine ⟨fun c => parse_eq_ok_iff, tokens text, fun us => ?_, fun c h => ?_, parse_of_lt, ?_, ?_⟩
  · rw [written_iff, eq_comm]
  · have hPhrase := (sentence_iff.mp h).length_le
    have hTokens := length_tokens_le text
    omega
  · intro hLength e
    rw [parse_of_le hLength, ← dropFraming_eq, ofTokens_eq_error_iff]
  · intro hLength hHead
    have hFramed : (tokens ("task," ++ text)).length ≤ maxTokens := by
      rw [tokens_framed, List.length_cons]
      exact Nat.succ_le_succ hLength
    rw [parse_of_le hFramed, parse_of_le (Nat.le_succ_of_le hLength), tokens_framed,
      dropFraming_eq (tokens text), if_neg hHead]
    rfl

end Sortie.Command
