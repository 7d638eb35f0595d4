import Sortie.Plan.Listed
import Sortie.Proofs.Plan.Shape

/-!
# Stored plans are read back

Every plan is read back as it was written: the fields that are left out of an entry
are those whose default is meant, the parameters come in the order in which they
are kept, and each of them is of the kind that its value shows. The one thing that
is needed of a plan is that the doubles in it survive their texts.
-/

namespace Sortie

open Json (Doc Members Fields Fault Value)

namespace Json.Doc.Spells

variable {d : Doc} {s : String}

theorem value?_scalar {s : Scalar} (h : d.Spells (.scalar s)) : d.value? = .ok (.scalar s) := by
  cases h
  rfl

theorem text? (h : d.Spells (.scalar (.text s))) : d.text? = .ok s := by
  cases h
  rfl

theorem optionalText? (h : d.Spells (.scalar (.text s))) : d.optionalText? = .ok (some s) := by
  cases h
  rfl

end Json.Doc.Spells

namespace Params

theorem insertEntry_of_lt {key : String} {value : Param} {entries : List (String × Param)}
    (h : ∀ e ∈ entries, e.1 < key) : insertEntry key value entries = entries ++ [(key, value)] := by
  induction entries with
  | nil => rfl
  | cons e entries ih =>
    obtain ⟨k, v⟩ := e
    obtain ⟨hHead, hTail⟩ := List.forall_mem_cons.mp h
    have hBelow : ¬ key < k := String.lt_asymm hHead
    have hNe : key ≠ k := (String.ne_of_lt hHead).symm
    rw [insertEntry, if_neg hBelow, if_neg hNe, ih hTail, List.cons_append]

theorem entries_insert_of_lt {key : String} {value : Param} {p : Params}
    (h : ∀ e ∈ p.entries, e.1 < key) : (p.insert key value).entries = p.entries ++ [(key, value)] :=
  insertEntry_of_lt h

end Params

namespace Param

theorem ofValue?_toValue (x : Param) : ofValue? x.toValue = some x := by
  cases x <;> rfl

theorem value?_of_spells {x : Param} {d : Doc} (h : d.Spells x.toValue) : d.value? = .ok x.toValue := by
  cases x <;> exact h.value?_scalar

end Param

namespace Entry

variable {d d' d'' : Draft} {pairs more : List (String × Value)} {fields : Fields}

/-- Parameters that ascend are added one behind the other. -/
theorem addParams_of_spell {p : Params} {l : List (String × Param)}
    (hSpell : fields.Spell (l.map fun e => (e.1, e.2.toValue)))
    (hSorted : (p.entries ++ l).Pairwise fun a b => a.1 < b.1) :
    ∃ q, addParams p fields = .ok q ∧ q.entries = p.entries ++ l := by
  induction l generalizing p fields with
  | nil =>
    cases hSpell
    exact ⟨p, rfl, (List.append_nil _).symm⟩
  | cons e l ih =>
    obtain ⟨key, x⟩ := e
    cases hSpell with
    | field hValue hRest =>
      have hLast : ∀ f ∈ p.entries, f.1 < key := fun f hf =>
        (List.pairwise_append.mp hSorted).2.2 f hf (key, x) List.mem_cons_self
      have hInsert : (p.insert key x).entries ++ l = p.entries ++ (key, x) :: l := by
        rw [Params.entries_insert_of_lt hLast, List.append_assoc, List.singleton_append]
      obtain ⟨q, hRead, hEntries⟩ := ih (p := p.insert key x) hRest (hInsert ▸ hSorted)
      refine ⟨q, ?_, hEntries.trans hInsert⟩
      rw [addParams, Param.value?_of_spells hValue]
      simp only [bind, Except.bind, Param.ofValue?_toValue, hRead]

theorem paramsOf_of_spells {p : Params} {d : Doc}
    (h : d.Spells (.map (p.entries.map fun e => (e.1, e.2.toValue)))) : paramsOf d = .ok p := by
  cases h with
  | map hSpell =>
    obtain ⟨q, hRead, hEntries⟩ := addParams_of_spell (p := ∅) hSpell p.sorted
    rw [paramsOf, hRead, Params.ext hEntries]

theorem Draft.set_params (d : Draft) (doc : Doc) :
    d.set "params" doc = do return { d with record.params := ← paramsOf doc } := rfl

/-- How fields, in any spelling, fill a draft. -/
inductive Fills : Draft → List (String × Value) → Draft → Prop
  | nil (d : Draft) : Fills d [] d
  | cons {d d' d'' : Draft} {key : String} {v : Value} {pairs : List (String × Value)}
    (hSet : ∀ doc : Doc, doc.Spells v → d.set key doc = .ok d') (hRest : Fills d' pairs d'') :
    Fills d ((key, v) :: pairs) d''

theorem Fills.append (h : Fills d pairs d') (hMore : Fills d' more d'') :
    Fills d (pairs ++ more) d'' := by
  induction h with
  | nil => exact hMore
  | cons hSet _ ih => exact .cons hSet (ih hMore)

/-- Known fields with distinct keys are read one after the other. -/
theorem ofFields_of_fills {seen : List String} {name : String} (h : Fills d pairs d')
    (hName : d'.name = some name) (hSpell : fields.Spell pairs)
    (hKnown : ∀ f ∈ pairs, f.1 ∈ fieldNames ∧ f.1 ∉ seen) (hNodup : (pairs.map Prod.fst).Nodup) :
    ofFields d seen fields = .ok (d'.record.entry name) := by
  induction h generalizing seen fields with
  | nil =>
    cases hSpell
    rw [ofFields, Draft.finish, hName]
  | @cons d d₁ d'' key v pairs hSet _ ih =>
    cases hSpell with
    | field hValue hRest =>
      obtain ⟨⟨hKey, hFresh⟩, hKnownRest⟩ := List.forall_mem_cons.mp hKnown
      obtain ⟨hNotLater, hNodupRest⟩ := List.nodup_cons.mp hNodup
      have hLater : ∀ f ∈ pairs, f.1 ∈ fieldNames ∧ f.1 ∉ key :: seen := fun f hf =>
        ⟨(hKnownRest f hf).1, fun hMem => by
          rcases List.mem_cons.mp hMem with hEq | hSeen
          · exact hNotLater (List.mem_map.mpr ⟨f, hf, hEq⟩)
          · exact (hKnownRest f hf).2 hSeen⟩
      rw [ofFields, if_pos hKey, if_neg hFresh, hSet _ hValue]
      exact ih hName hRest hLater hNodupRest

def written (e : Entry) : List (String × Value) :=
  ("name", .scalar (.text e.name)) ::
    (textField "task" e.task ++ textField "nickname" e.nickname ++ paramsField e.params)

theorem toValue_eq (e : Entry) : e.toValue = .map e.written := rfl

theorem fills_written (e : Entry) :
    Fills {} e.written ⟨some e.name, ⟨e.task, e.nickname, e.params⟩⟩ := by
  have hName : Fills {} [("name", .scalar (.text e.name))] ⟨some e.name, {}⟩ :=
    .cons (fun doc h => by rw [Draft.set, h.text?]; rfl) (.nil _)
  have hTask : Fills ⟨some e.name, {}⟩ (textField "task" e.task) ⟨some e.name, ⟨e.task, none, ∅⟩⟩ := by
    cases e.task with
    | none => exact .nil _
    | some s => exact .cons (fun doc h => by rw [Draft.set, h.optionalText?]; rfl) (.nil _)
  have hNickname : Fills ⟨some e.name, ⟨e.task, none, ∅⟩⟩ (textField "nickname" e.nickname)
      ⟨some e.name, ⟨e.task, e.nickname, ∅⟩⟩ := by
    cases e.nickname with
    | none => exact .nil _
    | some s => exact .cons (fun doc h => by rw [Draft.set, h.optionalText?]; rfl) (.nil _)
  have hParams : Fills ⟨some e.name, ⟨e.task, e.nickname, ∅⟩⟩ (paramsField e.params)
      ⟨some e.name, ⟨e.task, e.nickname, e.params⟩⟩ := by
    rw [paramsField]
    -- an empty map is not written, and the draft starts with one
    by_cases hEmpty : e.params.entries = []
    · have hDefault : e.params = ∅ := Params.ext hEmpty
      rw [if_pos hEmpty, hDefault]
      exact .nil _
    · rw [if_neg hEmpty]
      exact .cons (fun doc h => by rw [Draft.set_params, paramsOf_of_spells h]; rfl) (.nil _)
  exact hName.append ((hTask.append hNickname).append hParams)

theorem keys_textField (key : String) (s : Option String) :
    ((textField key s).map Prod.fst).Sublist [key] := by
  cases s with
  | none => exact List.nil_sublist _
  | some s => exact List.Sublist.refl _

theorem keys_paramsField (p : Params) : ((paramsField p).map Prod.fst).Sublist ["params"] := by
  rw [paramsField]
  split
  · exact List.nil_sublist _
  · exact List.Sublist.refl _

/-- What is written comes in the order of the known fields, none of them twice. -/
theorem keys_written (e : Entry) : (e.written.map Prod.fst).Sublist fieldNames := by
  rw [written, List.map_cons, List.map_append, List.map_append]
  exact (((keys_textField "task" _).append (keys_textField "nickname" _)).append
    (keys_paramsField _)).cons_cons "name"

theorem ofDoc_of_spells {e : Entry} {d : Doc} (h : d.Spells e.toValue) : ofDoc d = .ok e := by
  rw [toValue_eq] at h
  cases h with
  | map hSpell =>
    have hKnown : ∀ f ∈ e.written, f.1 ∈ fieldNames ∧ f.1 ∉ ([] : List String) := fun f hf =>
      ⟨e.keys_written.subset (List.mem_map_of_mem hf), List.not_mem_nil⟩
    have hNodup : (e.written.map Prod.fst).Nodup := e.keys_written.nodup (by decide)
    exact ofFields_of_fills e.fills_written rfl hSpell hKnown hNodup

end Entry

namespace Plan

def numbers (p : Plan) : List Float :=
  Group.all.flatMap fun g => (p.get g).flatMap fun e => e.params.entries.filterMap (·.2.number?)

namespace Listed

theorem entriesOf_of_spell {es : List Entry} {members : Members}
    (h : members.Spell (es.map Entry.toValue)) : entriesOf members = .ok es := by
  induction es generalizing members with
  | nil =>
    cases h
    rfl
  | cons e es ih =>
    cases h with
    | member hValue hRest =>
      rw [entriesOf, Entry.ofDoc_of_spells hValue, ih hRest]
      rfl

/-- Whatever spells the value of a plan is read as this plan. -/
theorem ofDoc_of_spells {p : Plan} {d : Doc} (h : d.Spells (toValue p)) : ofDoc d = .ok p := by
  have hGroup : ∀ g d, d.Spells (.list ((p.get g).map Entry.toValue)) →
      Agree (entries d) (.ok (p.get g) : Except Fault (List Entry)) := by
    intro g d hSpells
    cases hSpells with
    | list hSpell =>
      rw [entries, entriesOf_of_spell hSpell]
      exact .refl _
  exact (Groups.ofDoc_eq_ok_iff hGroup (.refl Group.all) h).mpr fun _ => rfl

variable {p : Plan} {depth : Nat}

theorem legible_param {x : Param} (h : ∀ y ∈ x.number?, (Json.Number.real y).ReadsBack) :
    x.toValue.Legible False interest depth := by
  cases x with
  | flag | text => exact .scalar trivial
  | number y => exact .scalar (h y rfl)

/-- An entry is written two brackets deep, its parameters three. -/
theorem legible_entry {e : Entry}
    (h : ∀ f ∈ e.params.entries, ∀ y ∈ f.2.number?, (Json.Number.real y).ReadsBack) :
    e.toValue.Legible False interest 2 := by
  have hText : ∀ key s, ∀ f ∈ Entry.textField key s, f.2.Legible False interest 3 := by
    intro key s f hf
    cases s with
    | none => cases hf
    | some s =>
      obtain rfl := List.mem_singleton.mp hf
      exact .scalar trivial
  have hParams : ∀ f ∈ Entry.paramsField e.params, f.2.Legible False interest 3 := by
    intro f hf
    rw [Entry.paramsField] at hf
    split at hf
    · cases hf
    · obtain rfl := List.mem_singleton.mp hf
      refine .map (.inl (by decide)) (fun _ _ => rfl) fun f hf => ?_
      obtain ⟨e, he, rfl⟩ := List.mem_map.mp hf
      exact legible_param (h e he)
  rw [Entry.toValue_eq]
  refine .map (.inl (by decide)) (fun f hf => ?_) fun f hf => ?_
  · exact decide_eq_true (e.keys_written.subset (List.mem_map_of_mem hf))
  · simp only [Entry.written, List.mem_cons, List.mem_append] at hf
    rcases hf with rfl | (hTask | hNickname) | hf
    · exact .scalar trivial
    · exact hText _ _ f hTask
    · exact hText _ _ f hNickname
    · exact hParams f hf

theorem legible_toValue (h : ∀ y ∈ p.numbers, (Json.Number.real y).ReadsBack) :
    (toValue p).Legible False interest 0 := by
  refine .map (.inl (by decide)) (fun f hf => ?_) fun f hf => ?_
  · obtain ⟨g, hg, rfl⟩ := List.mem_map.mp hf
    exact decide_eq_true (List.mem_map_of_mem hg)
  · obtain ⟨g, hg, rfl⟩ := List.mem_map.mp hf
    refine .list (.inl (by decide)) fun v hv => ?_
    obtain ⟨e, he, rfl⟩ := List.mem_map.mp hv
    refine legible_entry fun f hf y hy => h y ?_
    have hEntry : y ∈ e.params.entries.filterMap (·.2.number?) :=
      List.mem_filterMap.mpr ⟨f, hf, hy⟩
    exact List.mem_flatMap.mpr ⟨g, hg, List.mem_flatMap.mpr ⟨e, he, hEntry⟩⟩

/--
A plan that is written and read again is the same plan: the same entries in the same
order under each group, with all that they declare, be it absent, empty or repeated.
So it is in whatever document holds what is written; in the text of the plan, as
soon as the doubles in it survive their texts.
-/
theorem round_trip (p : Plan) :
    (∀ d : Doc, d.Spells (toValue p) → ofDoc d = .ok p) ∧
    ((∀ x ∈ p.numbers, (Json.Number.real x).ReadsBack) → parse (render p) = .ok p) := by
  have hDoc : ∀ d : Doc, d.Spells (toValue p) → ofDoc d = .ok p := fun _ => ofDoc_of_spells
  exact ⟨hDoc, fun hNumbers => (legible_toValue hNumbers).read_render hDoc⟩

/-- Names that repeat, an empty nickname, a quote in a text, and each kind of parameter. -/
theorem round_trip_sample :
    let p : Plan := {
      sequence := [{ name := "route" }, { name := "route", task := some "", nickname := some "" }]
      standby := [{
        name := "circle-coord", task := some "circle", nickname := some "circle_target"
        params := .ofList [("radius", .number 80.5), ("mode", .text "\"low\"\n"),
          ("descent", .flag true)] }] }
    (∀ x ∈ p.numbers, (Json.Number.real x).ReadsBack) ∧ parse (render p) = .ok p := by
  intro p
  have hNumbers : p.numbers = [80.5] := by decide +kernel
  have hReadsBack : ∀ x ∈ p.numbers, (Json.Number.real x).ReadsBack := by
    rw [hNumbers]
    intro x hx
    obtain rfl := List.mem_singleton.mp hx
    exact ⟨4, rfl⟩
  exact ⟨hReadsBack, (round_trip p).2 hReadsBack⟩

end Listed

end Plan

end Sortie
