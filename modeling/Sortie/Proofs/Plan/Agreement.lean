import Mathlib.Data.List.Forall2
import Sortie.Proofs.Json.Distinct
import Sortie.Proofs.Json.Flaws
import Sortie.Proofs.Plan.RoundTrip

/-!
# The two formats agree

A plan may be written with its records under the names of their tasks, or with its
entries in lists. The two are read by different readers, one of which walks through the
document while the other gathers its values first. Where both are given the same
records, either both find a flaw or both find the same plan.
-/

namespace Sortie

open Json (Doc Members Fields Fault Value bind_eq_ok_iff)

/-! ## Fields -/

namespace Entry

variable {d : Draft} {doc : Doc} {v : Value} {key name : String} {seen : List String} {fields : Fields}
  {pairs before after : List (String × Value)}

theorem optionalText?_agree (h : doc.Spells v) : Agree doc.optionalText? (Record.text v) := by
  cases h with
  | scalar s =>
    cases s with
    | null => exact .pure none
    | text s => exact .pure (some s)
    | bool | number => exact .error _ _
  | list | map => exact .error _ _

theorem addParams_agree {p : Params} (hDistinct : ∀ f ∈ pairs, f.2.Distinct) (hSpell : fields.Spell pairs) :
    Agree (addParams p fields) (Record.addParams p pairs) := by
  induction pairs generalizing p fields with
  | nil =>
    cases hSpell
    exact .pure p
  | cons f pairs ih =>
    obtain ⟨key, v⟩ := f
    obtain ⟨hValue, hPairs⟩ := List.forall_mem_cons.mp hDistinct
    cases hSpell with
    | field hSpells hRest =>
      rw [addParams, Record.addParams, hValue.value? hSpells]
      simp only [Except.bind, Bind.bind]
      cases Param.ofValue? v with
      | none => exact .error _ _
      | some x => exact ih hPairs hRest

theorem paramsOf_agree (hDistinct : v.Distinct) (h : doc.Spells v) :
    Agree (paramsOf doc) (Record.paramsOf v) := by
  cases h with
  | scalar | list => exact .error _ _
  | map hSpell => exact addParams_agree hDistinct.of_map.2 hSpell

theorem Draft.set_agree (hKey : key ∈ Record.fieldNames) (hDistinct : v.Distinct) (h : doc.Spells v) :
    Agree (d.set key doc) ((fun r => { d with record := r }) <$> d.record.set key v) := by
  simp only [Record.fieldNames, List.mem_cons, List.not_mem_nil, or_false] at hKey
  rcases hKey with rfl | rfl | rfl <;> simp only [Record.set, map_bind, map_pure]
  · exact (optionalText?_agree h).bind fun s => .pure { d with record.task := s }
  · exact (optionalText?_agree h).bind fun s => .pure { d with record.nickname := s }
  · exact (paramsOf_agree hDistinct h).bind fun p => .pure { d with record.params := p }

def Fits (seen : List String) (f : String × Value) : Prop :=
  f.1 ∈ Record.fieldNames ∧ f.1 ∉ seen ∧ f.2.Distinct

theorem ofFields_cons_agree {r : Record → Except Json.Mismatch Entry} {keyEnd valueEnd : Nat}
    (hFits : Fits seen (key, v)) (h : doc.Spells v)
    (hRest : ∀ record, Agree (ofFields { d with record } (key :: seen) fields) (r record)) :
    Agree (ofFields d seen (.field key keyEnd doc valueEnd fields)) (d.record.set key v >>= r) := by
  obtain ⟨hKey, hFresh, hDistinct⟩ := hFits
  have hKnown : key ∈ fieldNames := List.mem_cons_of_mem _ hKey
  rw [ofFields, if_pos hKnown, if_neg hFresh]
  exact (Draft.set_agree hKey hDistinct h).bind_map hRest

theorem fits_cons (hNew : key ∉ pairs.map Prod.fst) (h : ∀ f ∈ pairs, Fits seen f) :
    ∀ f ∈ pairs, Fits (key :: seen) f := by
  intro f hf
  obtain ⟨hKey, hFresh, hDistinct⟩ := h f hf
  refine ⟨hKey, fun hMem => ?_, hDistinct⟩
  rcases List.mem_cons.mp hMem with rfl | hSeen
  · exact hNew (List.mem_map_of_mem hf)
  · exact hFresh hSeen

theorem name_not_mem (h : ∀ f ∈ pairs, Fits seen f) : "name" ∉ pairs.map Prod.fst := by
  intro hMem
  obtain ⟨f, hf, hName⟩ := List.mem_map.mp hMem
  have hKey := (h f hf).1
  rw [hName] at hKey
  exact absurd hKey (by decide)

/-- Behind the name, the fields of an entry are those of a record. -/
theorem ofFields_named_agree (hName : d.name = some name) (hSpell : fields.Spell pairs)
    (hKeys : (pairs.map Prod.fst).Nodup) (hFits : ∀ f ∈ pairs, Fits seen f) :
    Agree (ofFields d seen fields) (do return (← Record.ofFields d.record pairs).entry name) := by
  induction pairs generalizing d seen fields with
  | nil =>
    cases hSpell
    rw [ofFields, Draft.finish, hName]
    exact .pure (d.record.entry name)
  | cons f pairs ih =>
    obtain ⟨key, v⟩ := f
    obtain ⟨hHead, hTail⟩ := List.forall_mem_cons.mp hFits
    cases hSpell with
    | field hSpells hRest =>
      obtain ⟨hNew, hLater⟩ := List.nodup_cons.mp hKeys
      rw [Record.ofFields, bind_assoc]
      exact ofFields_cons_agree hHead hSpells fun record =>
        ih hName hRest hLater (fits_cons hNew hTail)

/-- So they are in front of it. -/
theorem ofFields_agree (hFresh : "name" ∉ seen)
    (hSpell : fields.Spell (before ++ ("name", .scalar (.text name)) :: after))
    (hKeys : ((before ++ after).map Prod.fst).Nodup) (hFits : ∀ f ∈ before ++ after, Fits seen f) :
    Agree (ofFields d seen fields)
      (do return (← Record.ofFields d.record (before ++ after)).entry name) := by
  induction before generalizing d seen fields with
  | nil =>
    cases hSpell with
    | field hSpells hRest =>
      rw [ofFields, if_pos (by decide), if_neg hFresh, Draft.set, hSpells.text?]
      exact ofFields_named_agree (d := { d with name := some name }) rfl hRest hKeys
        (fits_cons (name_not_mem hFits) hFits)
  | cons f before ih =>
    obtain ⟨key, v⟩ := f
    obtain ⟨hHead, hTail⟩ := List.forall_mem_cons.mp hFits
    obtain ⟨hNew, hLater⟩ := List.nodup_cons.mp hKeys
    have hOther : "name" ∉ key :: seen := by
      rw [List.mem_cons, not_or]
      exact ⟨fun hName => name_not_mem hFits (hName ▸ List.mem_cons_self), hFresh⟩
    cases hSpell with
    | field hSpells hRest =>
      rw [List.cons_append, Record.ofFields, bind_assoc]
      exact ofFields_cons_agree hHead hSpells fun record =>
        ih hOther hRest hLater (fits_cons hNew hTail)

end Entry

/-! ## Groups -/

structure Declaration where
  name : String
  record : List (String × Value)
  known : ∀ f ∈ record, f.1 ∈ Record.fieldNames
  distinct : (Value.map record).Distinct

namespace Declaration

def item (x : Declaration) : Plan.Grouped.Item := (x.name, .map x.record)

/-- The record with the name among its fields, wherever it stands there. -/
def Lists (x : Declaration) (v : Value) : Prop :=
  ∃ before after, x.record = before ++ after ∧
    v = .map (before ++ ("name", .scalar (.text x.name)) :: after)

theorem ofDoc_agree {x : Declaration} {v : Value} {doc : Doc} (h : x.Lists v) (hSpells : doc.Spells v) :
    Agree (Entry.ofDoc doc) (do return (← Record.ofValue (.map x.record)).entry x.name) := by
  obtain ⟨before, after, hRecord, rfl⟩ := h
  obtain ⟨hKeys, hDistinct⟩ := x.distinct.of_map
  have hFits : ∀ f ∈ x.record, Entry.Fits [] f := fun f hf =>
    ⟨x.known f hf, List.not_mem_nil, hDistinct f hf⟩
  rw [hRecord] at hKeys hFits ⊢
  cases hSpells with
  | map hSpell => exact Entry.ofFields_agree List.not_mem_nil hSpell hKeys hFits

end Declaration

namespace Plan

variable {xs : List Declaration} {vs : List Value}

theorem entriesOf_agree (g : Group) {members : Members} (h : List.Forall₂ Declaration.Lists xs vs)
    (hSpell : members.Spell vs) :
    Agree (Listed.entriesOf members) (Grouped.entries g (xs.map Declaration.item)) := by
  induction h generalizing members with
  | nil =>
    cases hSpell
    exact .pure []
  | @cons x v xs vs hHead _ ih =>
    cases hSpell with
    | @member _ doc _ _ _ hSpells hRest =>
      have hEntry := Declaration.ofDoc_agree hHead hSpells
      rw [Listed.entriesOf, List.map_cons, Declaration.item, Grouped.entries]
      cases hRecord : Record.ofValue (.map x.record) with
      | ok r =>
        rw [hRecord] at hEntry
        rw [(hEntry (r.entry x.name)).mpr rfl]
        exact (ih hRest).bind fun es => .pure (r.entry x.name :: es)
      | error reason =>
        rw [hRecord] at hEntry
        obtain ⟨e, hError⟩ := hEntry.exists_error
        rw [hError]
        exact .error _ _

theorem items_agree (hNames : (xs.map Declaration.name).Nodup) {doc : Doc}
    (hSpells : doc.Spells (.map (xs.map Declaration.item))) :
    Grouped.items doc = .ok (xs.map Declaration.item) := by
  have hKeys : ((xs.map Declaration.item).map Prod.fst).Nodup := by
    rw [List.map_map]
    exact hNames
  cases hSpells with
  | map hSpell =>
    refine Json.Fields.values?_of_spell (fun f hf d => ?_) [] hKeys hSpell
    obtain ⟨x, -, rfl⟩ := List.mem_map.mp hf
    exact x.distinct.value?

end Plan

/-! ## Plans -/

namespace Plan

variable {gs : Groups Declaration} {p : Plan} {v : Value} {d : Doc}

/-- The groups as maps from names to records, in any order. -/
def Grouped.Writes (gs : Groups Declaration) (v : Value) : Prop :=
  ∃ order : List Group, order.Perm Group.all ∧
    v = .map (order.map fun g => (g.label, .map ((gs.get g).map Declaration.item)))

/-- The groups as lists of records with the names added, in any order. -/
def Listed.Writes (gs : Groups Declaration) (v : Value) : Prop :=
  ∃ (order : List Group) (lists : Group → List Value), order.Perm Group.all ∧
    (∀ g, List.Forall₂ Declaration.Lists (gs.get g) (lists g)) ∧
    v = .map (order.map fun g => (g.label, .list (lists g)))

/-- The declarations are records throughout, and this is the plan that they make. -/
def Declares (gs : Groups Declaration) (p : Plan) : Prop :=
  ∀ g, Grouped.entries g ((gs.get g).map Declaration.item) = .ok (p.get g)

theorem Grouped.ofGroups_eq_ok_iff {items : Groups Grouped.Item} :
    Grouped.ofGroups items = .ok p ↔ ∀ g, Grouped.entries g (items.get g) = .ok (p.get g) := by
  simp only [Grouped.ofGroups, bind_eq_ok_iff]
  constructor
  · rintro ⟨globals, hGlobals, sequence, hSequence, standby, hStandby, ⟨⟩⟩ g
    cases g <;> assumption
  · intro h
    exact ⟨p.globals, h .global, p.sequence, h .sequential, p.standby, h .standby, rfl⟩

theorem Grouped.reads_iff (hNames : ∀ g, ((gs.get g).map Declaration.name).Nodup)
    (h : Grouped.Writes gs v) (hSpells : d.Spells v) :
    (∃ items, Grouped.groups d = .ok items ∧ Grouped.ofGroups items = .ok p) ↔ Declares gs p := by
  obtain ⟨order, hOrder, rfl⟩ := h
  have hGroup : ∀ g d, Doc.Spells d (.map ((gs.get g).map Declaration.item)) →
      Agree (Grouped.items d) (.ok ((gs.get g).map Declaration.item) : Except Fault _) := by
    intro g d hSpells
    rw [items_agree (hNames g) hSpells]
    exact .refl _
  simp only [Grouped.groups, Groups.ofDoc_eq_ok_iff hGroup hOrder hSpells, Grouped.ofGroups_eq_ok_iff]
  constructor
  · rintro ⟨items, hItems, hEntries⟩ g
    rw [Except.ok.inj (hItems g)]
    exact hEntries g
  · intro hEntries
    let items : Groups Grouped.Item :=
      { globals := gs.globals.map Declaration.item, sequence := gs.sequence.map Declaration.item
        standby := gs.standby.map Declaration.item }
    have hItems : ∀ g, items.get g = (gs.get g).map Declaration.item := by
      intro g
      cases g <;> rfl
    exact ⟨items, fun g => by rw [hItems], fun g => by rw [hItems, hEntries]⟩

theorem Listed.reads_iff (h : Listed.Writes gs v) (hSpells : d.Spells v) :
    Listed.ofDoc d = .ok p ↔ Declares gs p := by
  obtain ⟨order, lists, hOrder, hLists, rfl⟩ := h
  refine Groups.ofDoc_eq_ok_iff (fun g d hSpells => ?_) hOrder hSpells
  cases hSpells with
  | list hSpell => exact entriesOf_agree g (hLists g) hSpell

end Plan

end Sortie
