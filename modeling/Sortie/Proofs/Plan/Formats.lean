import Sortie.Proofs.Plan.Agreement
import Sortie.Proofs.Plan.Thoroughness

/-!
# Texts in the two formats

What is read as a plan nests only a few brackets deep, since a record holds texts and
numbers and a map of them. So whatever nests deeper than a reader follows is refused in
either format, and the two agree on all texts that are written of the same records.
-/

namespace Sortie

open Json (Doc Members Fields Fault Interest Value bind_eq_ok_iff)

namespace Json

variable {wanted : Interest} {depth : Nat} {mayFail : Prop}

inductive Value.Exact : Value → Prop
  | scalar {s : Scalar} (h : s.ReadsBack) : Exact (.scalar s)
  | list {items : List Value} (h : ∀ v ∈ items, v.Exact) : Exact (.list items)
  | map {pairs : List (String × Value)} (h : ∀ f ∈ pairs, f.2.Exact) : Exact (.map pairs)

/-- Such a value is legible but for its depth. -/
theorem Value.Exact.legible {v : Value} (h : v.Exact) (hWanted : ∀ n > depth, ∀ key, wanted n key) :
    v.Legible True wanted depth := by
  induction h generalizing depth with
  | scalar h => exact .scalar h
  | list _ ih => exact .list (.inr trivial) fun v hv => ih v hv fun n hn => hWanted n (by omega)
  | map _ ih =>
    exact .map (.inr trivial) (fun f _ => hWanted (depth + 1) (by omega) f.1)
      fun f hf => ih f hf fun n hn => hWanted n (by omega)

theorem Doc.read_of_ofText {α : Type} {reader : Doc → Except Fault α} {text : String} {d : Doc}
    (h : ofText wanted text = (d, none)) : read wanted reader text = reader d := by
  simp only [read, h]
  cases reader d <;> rfl

/-- What a thorough reader finds in the text of a value it finds in a document that spells it. -/
theorem Value.Legible.exists_spells {α : Type} {v : Value} {reader : Doc → Except Fault α} {a : α}
    (h : v.Legible mayFail wanted 0) (hThorough : ∀ d, reader d = .ok a → d.Flawless)
    (hRead : Doc.read wanted reader v.render = .ok a) : ∃ d, d.Spells v ∧ reader d = .ok a := by
  obtain ⟨d, hText, hSpells⟩ := h.ofText_cases
  rw [Doc.read_of_ofText hText] at hRead
  rcases hSpells with hSpells | ⟨-, fuel, c, f, hScan⟩
  · exact ⟨d, hSpells, hRead⟩
  · exact absurd (hThorough d hRead) (Doc.not_flawless_of_scan hScan)

end Json

/-! ## Records -/

namespace Record

variable {wanted : Interest} {depth : Nat} {r r' : Record} {pairs : List (String × Value)} {v : Value}

theorem legible_of_addParams {p q : Params} (h : addParams p pairs = .ok q)
    (hExact : ∀ f ∈ pairs, f.2.Exact) : ∀ f ∈ pairs, f.2.Legible False wanted depth := by
  induction pairs generalizing p with
  | nil => simp
  | cons f pairs ih =>
    obtain ⟨key, v⟩ := f
    obtain ⟨hValue, hPairs⟩ := List.forall_mem_cons.mp hExact
    rw [addParams] at h
    cases hValue with
    | list | map => cases h
    | scalar hScalar =>
      split at h
      · exact List.forall_mem_cons.mpr ⟨.scalar hScalar, ih h hPairs⟩
      · cases h

theorem legible_of_text {s : Option String} (h : text v = .ok s) (hExact : v.Exact) :
    v.Legible False wanted depth := by
  cases hExact with
  | scalar hScalar => exact .scalar hScalar
  | list | map => cases h

theorem legible_of_set {key : String} (h : r.set key v = .ok r') (hExact : v.Exact)
    (hDepth : depth < Json.maxDepth) (hWanted : ∀ key, wanted (depth + 1) key) :
    v.Legible False wanted depth := by
  unfold set at h
  split at h
  · obtain ⟨s, hText, -⟩ := bind_eq_ok_iff.mp h
    exact legible_of_text hText hExact
  · obtain ⟨s, hText, -⟩ := bind_eq_ok_iff.mp h
    exact legible_of_text hText hExact
  · obtain ⟨p, hParams, -⟩ := bind_eq_ok_iff.mp h
    cases hExact with
    | scalar | list => cases hParams
    | map hFields =>
      exact .map (.inl hDepth) (fun f _ => hWanted f.1) (legible_of_addParams hParams hFields)
  · cases h

theorem legible_of_ofFields (h : ofFields r pairs = .ok r') (hExact : ∀ f ∈ pairs, f.2.Exact)
    (hDepth : depth < Json.maxDepth) (hWanted : ∀ key, wanted (depth + 1) key) :
    ∀ f ∈ pairs, f.2.Legible False wanted depth := by
  induction pairs generalizing r with
  | nil => simp
  | cons f pairs ih =>
    obtain ⟨key, v⟩ := f
    obtain ⟨hValue, hPairs⟩ := List.forall_mem_cons.mp hExact
    obtain ⟨next, hSet, hRest⟩ := bind_eq_ok_iff.mp h
    exact List.forall_mem_cons.mpr ⟨legible_of_set hSet hValue hDepth hWanted, ih hRest hPairs⟩

end Record

namespace Plan

variable {mayFail : Prop} {gs : Groups Declaration} {p : Plan} {v : Value}

theorem exists_record_of_entries {g : Group} {xs : List Declaration} {es : List Entry}
    (h : Grouped.entries g (xs.map Declaration.item) = .ok es) :
    ∀ x ∈ xs, ∃ r, Record.ofFields {} x.record = .ok r := by
  induction xs generalizing es with
  | nil => simp
  | cons x xs ih =>
    rw [List.map_cons, Declaration.item, Grouped.entries] at h
    split at h
    · rename_i r hRecord
      obtain ⟨more, hRest, -⟩ := bind_eq_ok_iff.mp h
      exact List.forall_mem_cons.mpr ⟨⟨r, hRecord⟩, ih hRest⟩
    · cases h

/-- What nests too deep is no record. -/
theorem Declares.legible {wanted : Interest} (h : Declares gs p)
    (hExact : ∀ g, ∀ x ∈ gs.get g, ∀ f ∈ x.record, f.2.Exact) (hWanted : ∀ key, wanted 4 key) :
    ∀ g, ∀ x ∈ gs.get g, ∀ f ∈ x.record, f.2.Legible False wanted 3 := by
  intro g x hx
  obtain ⟨r, hRecord⟩ := exists_record_of_entries (h g) x hx
  exact Record.legible_of_ofFields hRecord (hExact g x hx) (by decide) hWanted

theorem Grouped.Writes.legible (h : Grouped.Writes gs v)
    (hFields : ∀ g, ∀ x ∈ gs.get g, ∀ f ∈ x.record, f.2.Legible mayFail (fun _ _ => true) 3) :
    v.Legible mayFail (fun _ _ => true) 0 := by
  obtain ⟨order, -, rfl⟩ := h
  refine .map (.inl (by decide)) (fun _ _ => rfl) fun f hf => ?_
  obtain ⟨g, -, rfl⟩ := List.mem_map.mp hf
  refine .map (.inl (by decide)) (fun _ _ => rfl) fun f hf => ?_
  obtain ⟨x, hx, rfl⟩ := List.mem_map.mp hf
  exact .map (.inl (by decide)) (fun _ _ => rfl) (hFields g x hx)

theorem Listed.interest_of_lt (n : Nat) (h : 3 < n) (key : String) : interest n key = true := by
  rw [interest] <;> omega

theorem legible_of_lists {x : Declaration} (h : x.Lists v)
    (hFields : ∀ f ∈ x.record, f.2.Legible mayFail Listed.interest 3) :
    v.Legible mayFail Listed.interest 2 := by
  obtain ⟨before, after, hRecord, rfl⟩ := h
  have hKnown : ∀ f ∈ x.record, f.1 ∈ Entry.fieldNames := fun f hf =>
    List.mem_cons_of_mem _ (x.known f hf)
  rw [hRecord] at hKnown hFields
  have hCases : ∀ f ∈ before ++ ("name", .scalar (.text x.name)) :: after,
      f = ("name", .scalar (.text x.name)) ∨ f ∈ before ++ after := by
    intro f hf
    simp only [List.mem_append, List.mem_cons] at hf ⊢
    tauto
  refine .map (.inl (by decide)) (fun f hf => ?_) fun f hf => ?_
  · rcases hCases f hf with rfl | hMem
    · rfl
    · exact decide_eq_true (hKnown f hMem)
  · rcases hCases f hf with rfl | hMem
    · exact .scalar trivial
    · exact hFields f hMem

theorem Listed.Writes.legible (h : Listed.Writes gs v)
    (hFields : ∀ g, ∀ x ∈ gs.get g, ∀ f ∈ x.record, f.2.Legible mayFail interest 3) :
    v.Legible mayFail interest 0 := by
  obtain ⟨order, lists, -, hLists, rfl⟩ := h
  have hEntries : ∀ {xs vs}, List.Forall₂ Declaration.Lists xs vs →
      (∀ x ∈ xs, ∀ f ∈ x.record, f.2.Legible mayFail interest 3) →
      ∀ v ∈ vs, v.Legible mayFail interest 2 := by
    intro xs vs h
    induction h with
    | nil => simp
    | cons hHead _ ih =>
      intro hRecords
      obtain ⟨hRecord, hLater⟩ := List.forall_mem_cons.mp hRecords
      exact List.forall_mem_cons.mpr ⟨legible_of_lists hHead hRecord, ih hLater⟩
  refine .map (.inl (by decide)) (fun f hf => ?_) fun f hf => ?_
  · obtain ⟨g, -, rfl⟩ := List.mem_map.mp hf
    exact decide_eq_true (List.mem_map_of_mem (by cases g <;> decide))
  · obtain ⟨g, -, rfl⟩ := List.mem_map.mp hf
    exact .list (.inl (by decide)) (hEntries (hLists g) (hFields g))

/-- The text in which records stand under names is read as what they declare, or refused. -/
theorem Grouped.parse_render_iff (hNames : ∀ g, ((gs.get g).map Declaration.name).Nodup)
    (h : Grouped.Writes gs v) (hExact : ∀ g, ∀ x ∈ gs.get g, ∀ f ∈ x.record, f.2.Exact) :
    Grouped.parse v.render = .ok p ↔ Declares gs p := by
  have hParse : Grouped.parse v.render = .ok p ↔
      ∃ items, Doc.read (fun _ _ => true) Grouped.groups v.render = .ok items ∧
        Grouped.ofGroups items = .ok p := by
    rw [Grouped.parse]
    split <;> simp [*]
  rw [hParse]
  constructor
  · rintro ⟨items, hRead, hItems⟩
    have hLegible : v.Legible True (fun _ _ => true) 0 := h.legible fun g x hx f hf =>
      (hExact g x hx f hf).legible fun _ _ _ => rfl
    obtain ⟨d, hSpells, hGroups⟩ :=
      hLegible.exists_spells (fun _ => Grouped.flawless_of_groups) hRead
    exact (Grouped.reads_iff hNames h hSpells).mp ⟨items, hGroups, hItems⟩
  · intro hDeclares
    obtain ⟨d, hSpells, hText⟩ :=
      (h.legible (hDeclares.legible hExact fun _ => rfl)).ofText_render
    rw [Doc.read_of_ofText hText]
    exact (Grouped.reads_iff hNames h hSpells).mpr hDeclares

/-- So is the text in which they stand in lists. -/
theorem Listed.parse_render_iff (h : Listed.Writes gs v)
    (hExact : ∀ g, ∀ x ∈ gs.get g, ∀ f ∈ x.record, f.2.Exact) :
    Listed.parse v.render = .ok p ↔ Declares gs p := by
  constructor
  · intro hRead
    have hLegible : v.Legible True interest 0 := h.legible fun g x hx f hf =>
      (hExact g x hx f hf).legible interest_of_lt
    obtain ⟨d, hSpells, hPlan⟩ := hLegible.exists_spells (fun _ => Listed.flawless_of_ofDoc) hRead
    exact (Listed.reads_iff h hSpells).mp hPlan
  · intro hDeclares
    obtain ⟨d, hSpells, hText⟩ :=
      (h.legible (hDeclares.legible hExact fun _ => rfl)).ofText_render
    rw [Listed.parse, Doc.read_of_ofText hText]
    exact (Listed.reads_iff h hSpells).mpr hDeclares

/--
The same tasks may be declared under their names as keys or in lists with their names
among the fields. Either both are refused or both are read as the same plan: whatever
documents spell the two; whatever texts are read as such documents; and, however deep
they nest, the texts that are written of them, as soon as the numbers in them survive
their texts.
-/
theorem formats_agree (gs : Groups Declaration)
    (hNames : ∀ g, ((gs.get g).map Declaration.name).Nodup) {byName listed : Value}
    (hByName : Grouped.Writes gs byName) (hListed : Listed.Writes gs listed) :
    (∀ d d' : Doc, d.Spells byName → d'.Spells listed →
      ∀ p, (∃ items, Grouped.groups d = .ok items ∧ Grouped.ofGroups items = .ok p) ↔
        Listed.ofDoc d' = .ok p) ∧
    (∀ (text text' : String) (d d' : Doc), d.Spells byName → d'.Spells listed →
      Doc.ofText (fun _ _ => true) text = (d, none) → Doc.ofText Listed.interest text' = (d', none) →
      ∀ p, Grouped.parse text = .ok p ↔ Listed.parse text' = .ok p) ∧
    ((∀ g, ∀ x ∈ gs.get g, ∀ f ∈ x.record, f.2.Exact) →
      ∀ p, Grouped.parse byName.render = .ok p ↔ Listed.parse listed.render = .ok p) := by
  have hDocs : ∀ d d' : Doc, d.Spells byName → d'.Spells listed →
      ∀ p, (∃ items, Grouped.groups d = .ok items ∧ Grouped.ofGroups items = .ok p) ↔
        Listed.ofDoc d' = .ok p := by
    intro d d' hSpells hSpells' p
    rw [Grouped.reads_iff hNames hByName hSpells, Listed.reads_iff hListed hSpells']
  refine ⟨hDocs, fun text text' d d' hSpells hSpells' hText hText' p => ?_, fun hExact p => ?_⟩
  · rw [Listed.parse, Doc.read_of_ofText hText', ← hDocs d d' hSpells hSpells' p, Grouped.parse,
      Doc.read_of_ofText hText]
    cases Grouped.groups d with
    | ok items => simp
    | error f => simp
  · rw [Grouped.parse_render_iff hNames hByName hExact, Listed.parse_render_iff hListed hExact]

/-- A route that is limited to half a minute; its name stands last in the list. -/
theorem formats_agree_route :
    let route : Declaration := {
      name := "route"
      record := [("params", .map [("duration_sec", .scalar (.number (.integer 30)))])]
      known := List.forall_mem_singleton.mpr (by decide)
      distinct := .map (List.pairwise_singleton _ _) (List.forall_mem_singleton.mpr
        (.map (List.pairwise_singleton _ _) (List.forall_mem_singleton.mpr (.scalar _)))) }
    let gs : Groups Declaration := { sequence := [route] }
    let byName : Value := .map [("global_tasks", .map []), ("sequential_tasks", .map [route.item]),
      ("standby_tasks", .map [])]
    let listed : Value := .map [("standby_tasks", .list []), ("global_tasks", .list []),
      ("sequential_tasks", .list [.map (route.record ++ [("name", .scalar (.text "route"))])])]
    Grouped.Writes gs byName ∧ Listed.Writes gs listed ∧
      ∀ p, Grouped.parse byName.render = .ok p ↔ Listed.parse listed.render = .ok p := by
  intro route gs byName listed
  have hByName : Grouped.Writes gs byName := ⟨Group.all, .refl _, rfl⟩
  have hListed : Listed.Writes gs listed := by
    refine ⟨[.standby, .global, .sequential], fun g => match g with
      | .sequential => [.map (route.record ++ [("name", .scalar (.text "route"))])]
      | _ => [], by decide, ?_, rfl⟩
    intro g
    cases g with
    | sequential => exact .cons ⟨route.record, [], (List.append_nil _).symm, rfl⟩ .nil
    | _ => exact .nil
  have hNames : ∀ g, ((gs.get g).map Declaration.name).Nodup := by
    intro g
    cases g <;> decide
  have hExact : ∀ g, ∀ x ∈ gs.get g, ∀ f ∈ x.record, f.2.Exact := by
    have hRoute : ∀ f ∈ route.record, f.2.Exact := List.forall_mem_singleton.mpr
      (.map (List.forall_mem_singleton.mpr (.scalar ⟨2, by rfl⟩)))
    intro g
    cases g with
    | sequential => exact List.forall_mem_singleton.mpr hRoute
    | _ => exact nofun
  exact ⟨hByName, hListed, (formats_agree gs hNames hByName hListed).2.2 hExact⟩

end Plan

end Sortie
