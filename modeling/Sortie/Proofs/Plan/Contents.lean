import Mathlib.Data.List.Forall2
import Sortie.Plan.Grouped
import Sortie.Proofs.Json.Distinct

/-!
# What a value gives of a record

A record is written as a map of its fields, or as a list of them in their order. Fields may
be missing, but there are no others. A task and a nickname are texts or null, and parameters
are flags, numbers and texts. The reader accepts what is so written and nothing else, and
the record that it makes is the one that is given there.
-/

namespace Sortie

open Json (Value Mismatch bind_eq_ok_iff)

namespace Record

/-! ## Values and what they give -/

/-- The value of a field that may be missing, and the text that it holds. -/
inductive GivesText : Option Value → Option String → Prop
  | missing : GivesText none none
  | null : GivesText (some (.scalar .null)) none
  | text (s : String) : GivesText (some (.scalar (.text s))) (some s)

inductive GivesParam : Value → Param → Prop
  | flag (b : Bool) : GivesParam (.scalar (.bool b)) (.flag b)
  | integer (n : Int) : GivesParam (.scalar (.number (.integer n))) (.number (Float.ofInt n))
  | real (x : Float) : GivesParam (.scalar (.number (.real x))) (.number x)
  | text (s : String) : GivesParam (.scalar (.text s)) (.text s)

/-- Every pair gives one parameter, under its own key; they are kept in the order of their keys. -/
inductive GivesParams : Option Value → Params → Prop
  | missing : GivesParams none ∅
  | map {pairs : List (String × Value)} {entries : List (String × Param)} {p : Params}
    (hPairs : List.Forall₂ (fun f e => f.1 = e.1 ∧ GivesParam f.2 e.2) pairs entries)
    (hEntries : entries.Perm p.entries) : GivesParams (some (.map pairs)) p

inductive Gives : Value → Record → Prop
  | map {fields : List (String × Value)} {r : Record}
    (hKnown : ∀ f ∈ fields, f.1 = "task" ∨ f.1 = "nickname" ∨ f.1 = "params")
    (hTask : GivesText (fields.lookup "task") r.task)
    (hNickname : GivesText (fields.lookup "nickname") r.nickname)
    (hParams : GivesParams (fields.lookup "params") r.params) : Gives (.map fields) r
  | list {items : List Value} {r : Record} (hLength : items.length ≤ 3)
    (hTask : GivesText items[0]? r.task)
    (hNickname : GivesText items[1]? r.nickname)
    (hParams : GivesParams items[2]? r.params) : Gives (.list items) r

/-! ## One field -/

variable {α : Type} {read : Value → Except Mismatch α} {old new : α} {v : Value} {key : String}
  {fields : List (String × Value)}

def field (read : Value → Except Mismatch α) (old : α) : Option Value → Except Mismatch α
  | none => .ok old
  | some v => read v

/-- Where keys are distinct, a field is read from the only place where it stands. -/
theorem field_cons (hNew : key ∉ fields.map Prod.fst) (wanted : String) :
    field read old (((key, v) :: fields).lookup wanted) = .ok new ↔
      ∃ a, field read old ([(key, v)].lookup wanted) = .ok a ∧
        field read a (fields.lookup wanted) = .ok new := by
  by_cases hWanted : wanted = key
  · subst hWanted
    have hLater : fields.lookup wanted = none := by
      rw [List.lookup_eq_none_iff]
      intro f hf
      rw [bne_iff_ne]
      exact fun hSame => hNew (hSame ▸ List.mem_map_of_mem hf)
    simp [hLater, field]
  · have hOther : (wanted == key) = false := beq_eq_false_iff_ne.mpr hWanted
    simp [List.lookup_cons, hOther, field]

theorem field_text_iff {v? : Option Value} {s : Option String} :
    field text none v? = .ok s ↔ GivesText v? s := by
  constructor
  · intro h
    cases v? with
    | none =>
      cases h
      exact .missing
    | some v =>
      rw [field, text.eq_def] at h
      split at h <;> cases h
      · exact .null
      · exact .text _
  · rintro (_ | _ | _) <;> rfl

end Record

/-! ## Parameters -/

namespace Params

theorem insertEntry_perm {value : Param} {key : String} {entries : List (String × Param)}
    (h : key ∉ entries.map Prod.fst) : (insertEntry key value entries).Perm ((key, value) :: entries) := by
  induction entries with
  | nil => exact .refl _
  | cons e entries ih =>
    obtain ⟨k, v⟩ := e
    rw [List.map_cons, List.mem_cons, not_or] at h
    rw [insertEntry, if_neg h.1]
    split
    · exact .refl _
    · exact ((ih h.2).cons _).trans (.swap _ _ _)

theorem eq_of_perm {p q : Params} (h : p.entries.Perm q.entries) : p = q := by
  refine Params.ext (h.eq_of_pairwise (fun a b _ _ hLess hMore => ?_) p.sorted q.sorted)
  exact absurd hMore (String.lt_asymm hLess)

end Params

theorem Param.ofValue?_eq_some_iff {v : Value} {x : Param} :
    ofValue? v = some x ↔ Record.GivesParam v x := by
  constructor
  · intro h
    rw [ofValue?.eq_def] at h
    split at h
    · cases h
      exact .flag _
    · rename_i n
      cases h
      cases n with
      | integer n => exact .integer n
      | real x => exact .real x
    · cases h
      exact .text _
    · cases h
  · rintro (_ | _ | _ | _) <;> rfl

namespace Record

variable {v : Value} {d r : Record} {fields pairs : List (String × Value)} {p q : Params}

theorem addParams_eq_ok_iff (hKeys : (pairs.map Prod.fst).Nodup)
    (hFresh : ∀ f ∈ pairs, f.1 ∉ p.entries.map Prod.fst) :
    addParams p pairs = .ok q ↔
      ∃ entries, List.Forall₂ (fun f e => f.1 = e.1 ∧ GivesParam f.2 e.2) pairs entries ∧
        (entries ++ p.entries).Perm q.entries := by
  induction pairs generalizing p with
  | nil =>
    rw [addParams, Except.ok.injEq]
    constructor
    · rintro rfl
      exact ⟨[], .nil, .refl _⟩
    · rintro ⟨_, ⟨⟩, hPerm⟩
      exact Params.eq_of_perm hPerm
  | cons f pairs ih =>
    obtain ⟨key, v⟩ := f
    obtain ⟨hNew, hKeysRest⟩ := List.nodup_cons.mp hKeys
    obtain ⟨hFreshKey, hFreshRest⟩ := List.forall_mem_cons.mp hFresh
    rw [addParams]
    cases hValue : Param.ofValue? v with
    | none =>
      refine iff_of_false nofun ?_
      rintro ⟨_, hPairs, -⟩
      cases hPairs with
      | cons hHead _ => exact Option.some_ne_none _ ((Param.ofValue?_eq_some_iff.mpr hHead.2).symm.trans hValue)
    | some x =>
      have hInsert : (p.insert key x).entries.Perm ((key, x) :: p.entries) :=
        Params.insertEntry_perm hFreshKey
      have hFresh' : ∀ f ∈ pairs, f.1 ∉ (p.insert key x).entries.map Prod.fst := by
        intro f hf hMem
        rcases List.mem_cons.mp ((hInsert.map Prod.fst).mem_iff.mp hMem) with hSame | hOld
        · exact hNew (hSame ▸ List.mem_map_of_mem hf)
        · exact hFreshRest f hf hOld
      have hMoves : ∀ entries, (entries ++ (p.insert key x).entries).Perm
          ((key, x) :: entries ++ p.entries) := fun entries =>
        (hInsert.append_left entries).trans List.perm_middle
      refine (ih hKeysRest hFresh').trans ?_
      constructor
      · rintro ⟨entries, hPairs, hPerm⟩
        exact ⟨(key, x) :: entries, .cons ⟨rfl, Param.ofValue?_eq_some_iff.mp hValue⟩ hPairs,
          (hMoves entries).symm.trans hPerm⟩
      · rintro ⟨_, hPairs, hPerm⟩
        cases hPairs with
        | @cons _ e _ entries hHead hTail =>
          obtain ⟨k, y⟩ := e
          obtain ⟨rfl, hGives⟩ := hHead
          cases (Param.ofValue?_eq_some_iff.mpr hGives).symm.trans hValue
          exact ⟨entries, hTail, (hMoves entries).trans hPerm⟩

theorem field_paramsOf_iff {v? : Option Value} (h : ∀ v ∈ v?, v.Distinct) :
    field paramsOf ∅ v? = .ok p ↔ GivesParams v? p := by
  cases v? with
  | none =>
    rw [field, Except.ok.injEq]
    constructor
    · rintro rfl
      exact .missing
    · rintro ⟨⟩
      rfl
  | some v =>
    cases v with
    | scalar | list => exact iff_of_false nofun nofun
    | map pairs =>
      have hKeys := (h _ rfl).of_map.1
      rw [field, paramsOf, addParams_eq_ok_iff hKeys fun _ _ => List.not_mem_nil]
      simp only [Params.entries_empty, List.append_nil]
      constructor
      · rintro ⟨entries, hPairs, hPerm⟩
        exact .map hPairs hPerm
      · intro h
        cases h with
        | map hPairs hPerm => exact ⟨_, hPairs, hPerm⟩

/-! ## All fields -/

/-- What a record comes to from what its fields held before. -/
structure Reads (d : Record) (fields : List (String × Value)) (r : Record) : Prop where
  known : ∀ f ∈ fields, f.1 = "task" ∨ f.1 = "nickname" ∨ f.1 = "params"
  task : field text d.task (fields.lookup "task") = .ok r.task
  nickname : field text d.nickname (fields.lookup "nickname") = .ok r.nickname
  params : field paramsOf d.params (fields.lookup "params") = .ok r.params

theorem reads_nil_iff : Reads d [] r ↔ d = r := by
  constructor
  · rintro ⟨-, hTask, hNickname, hParams⟩
    cases d
    cases r
    cases hTask
    cases hNickname
    cases hParams
    rfl
  · rintro rfl
    exact ⟨List.forall_mem_nil _, rfl, rfl, rfl⟩

theorem set_eq_ok_iff {key : String} : d.set key v = .ok r ↔ Reads d [(key, v)] r := by
  rw [set.eq_def]
  -- a field that is known takes what is read, and the other two stay
  split
  · rw [bind_eq_ok_iff]
    constructor
    · rintro ⟨s, hText, ⟨⟩⟩
      exact ⟨by simp, hText, rfl, rfl⟩
    · rintro ⟨-, hTask, hNickname, hParams⟩
      cases r
      cases hNickname
      cases hParams
      exact ⟨_, hTask, rfl⟩
  · rw [bind_eq_ok_iff]
    constructor
    · rintro ⟨s, hText, ⟨⟩⟩
      exact ⟨by simp, rfl, hText, rfl⟩
    · rintro ⟨-, hTask, hNickname, hParams⟩
      cases r
      cases hTask
      cases hParams
      exact ⟨_, hNickname, rfl⟩
  · rw [bind_eq_ok_iff]
    constructor
    · rintro ⟨p, hMap, ⟨⟩⟩
      exact ⟨by simp, rfl, rfl, hMap⟩
    · rintro ⟨-, hTask, hNickname, hParams⟩
      cases r
      cases hTask
      cases hNickname
      exact ⟨_, hParams, rfl⟩
  · rename_i hTask hNickname hParams
    refine iff_of_false nofun fun hReads => ?_
    rcases hReads.known _ List.mem_cons_self with h | h | h
    · exact hTask h
    · exact hNickname h
    · exact hParams h

theorem ofFields_eq_ok_iff (hKeys : (fields.map Prod.fst).Nodup) :
    ofFields d fields = .ok r ↔ Reads d fields r := by
  induction fields generalizing d with
  | nil => rw [ofFields, Except.ok.injEq, reads_nil_iff]
  | cons f fields ih =>
    obtain ⟨key, v⟩ := f
    obtain ⟨hNew, hRest⟩ := List.nodup_cons.mp hKeys
    simp only [ofFields, bind_eq_ok_iff, set_eq_ok_iff, ih hRest]
    constructor
    · rintro ⟨d', hHead, hTail⟩
      exact ⟨List.forall_mem_cons.mpr ⟨hHead.known _ List.mem_cons_self, hTail.known⟩,
        (field_cons hNew _).mpr ⟨_, hHead.task, hTail.task⟩,
        (field_cons hNew _).mpr ⟨_, hHead.nickname, hTail.nickname⟩,
        (field_cons hNew _).mpr ⟨_, hHead.params, hTail.params⟩⟩
    · intro h
      obtain ⟨hKnown, hKnownRest⟩ := List.forall_mem_cons.mp h.known
      obtain ⟨task, hTask, hTaskRest⟩ := (field_cons hNew _).mp h.task
      obtain ⟨nickname, hNickname, hNicknameRest⟩ := (field_cons hNew _).mp h.nickname
      obtain ⟨params, hParams, hParamsRest⟩ := (field_cons hNew _).mp h.params
      exact ⟨⟨task, nickname, params⟩,
        ⟨fun f hf => List.mem_singleton.mp hf ▸ hKnown, hTask, hNickname, hParams⟩,
        ⟨hKnownRest, hTaskRest, hNicknameRest, hParamsRest⟩⟩

theorem reads_iff_gives (h : (Value.map fields).Distinct) :
    Reads {} fields r ↔ Gives (.map fields) r := by
  have hDistinct : ∀ v ∈ fields.lookup "params", v.Distinct := by
    intro v hv
    obtain ⟨before, after, hFields, -⟩ := List.lookup_eq_some_iff.mp hv
    exact h.of_map.2 ("params", v) (hFields ▸ List.mem_append_right _ List.mem_cons_self)
  constructor
  · rintro ⟨hKnown, hTask, hNickname, hParams⟩
    exact .map hKnown (field_text_iff.mp hTask) (field_text_iff.mp hNickname)
      ((field_paramsOf_iff hDistinct).mp hParams)
  · rintro ⟨hKnown, hTask, hNickname, hParams⟩
    exact ⟨hKnown, field_text_iff.mpr hTask, field_text_iff.mpr hNickname,
      (field_paramsOf_iff hDistinct).mpr hParams⟩

/-! ## Both forms -/

theorem ofItems_eq_ofFields (keys : List String) (items : List Value) :
    ofItems d keys items = ofFields d (keys.zip items) := by
  induction keys generalizing d items with
  | nil => cases items <;> rfl
  | cons key keys ih =>
    cases items with
    | nil => rfl
    | cons v items =>
      rw [ofItems, List.zip_cons_cons, ofFields]
      exact congrArg _ (funext fun d => ih items)

theorem ofList_eq_ok_iff {items : List Value} :
    ofValue (.list items) = .ok r ↔
      items.length ≤ 3 ∧ ofFields {} (fieldNames.zip items) = .ok r := by
  rw [ofValue, ofItems_eq_ofFields, bind_eq_ok_iff]
  constructor
  · rintro ⟨r', hFields, hLength⟩
    split at hLength
    · cases hLength
    · cases hLength
      exact ⟨Nat.not_lt.mp ‹_›, hFields⟩
  · rintro ⟨hLength, hFields⟩
    exact ⟨r, hFields, if_neg (Nat.not_lt.mpr hLength)⟩

theorem lookup_zip (items : List Value) :
    (fieldNames.zip items).lookup "task" = items[0]? ∧
    (fieldNames.zip items).lookup "nickname" = items[1]? ∧
    (fieldNames.zip items).lookup "params" = items[2]? := by
  match items with
  | [] | [_] | [_, _] | _ :: _ :: _ :: _ => exact ⟨rfl, rfl, rfl⟩

theorem distinct_zip {items : List Value} (h : (Value.list items).Distinct) :
    (Value.map (fieldNames.zip items)).Distinct := by
  refine .map ?_ fun f hf => ?_
  · match items with
    | [] | [_] | [_, _] | _ :: _ :: _ :: _ => simp [fieldNames]
  · cases h with
    | list hItems => exact hItems _ (List.of_mem_zip hf).2

/-- A list gives what a map gives in which its items stand under the names of the fields. -/
theorem gives_list_iff {items : List Value} :
    Gives (.list items) r ↔ items.length ≤ 3 ∧ Gives (.map (fieldNames.zip items)) r := by
  obtain ⟨hTask, hNickname, hParams⟩ := lookup_zip items
  constructor
  · intro h
    cases h with
    | list hLength h₀ h₁ h₂ =>
      refine ⟨hLength, .map (fun f hf => ?_) (hTask ▸ h₀) (hNickname ▸ h₁) (hParams ▸ h₂)⟩
      simpa [fieldNames] using (List.of_mem_zip hf).1
  · rintro ⟨hLength, h⟩
    cases h with
    | map _ h₀ h₁ h₂ => exact .list hLength (hTask ▸ h₀) (hNickname ▸ h₁) (hParams ▸ h₂)

/-- Just the values that give a record are read, and what is read is what they give. -/
theorem ofValue_eq_ok_iff (h : v.Distinct) : ofValue v = .ok r ↔ Gives v r := by
  have hMap : ∀ {fields}, (Value.map fields).Distinct →
      (ofFields {} fields = .ok r ↔ Gives (.map fields) r) := fun hFields =>
    (ofFields_eq_ok_iff hFields.of_map.1).trans (reads_iff_gives hFields)
  cases v with
  | scalar => exact iff_of_false nofun nofun
  | map fields => exact hMap h
  | list items => rw [ofList_eq_ok_iff, gives_list_iff, hMap (distinct_zip h)]

end Record

end Sortie
