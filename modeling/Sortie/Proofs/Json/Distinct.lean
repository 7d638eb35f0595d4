import Sortie.Proofs.Json.Flaws
import Sortie.Proofs.Json.Reading

/-!
# Values without repeated keys

The fields of a document are gathered under their keys, where a later value takes the
place of an earlier one, so that no value that is read repeats a key. Where none is
repeated in the document nothing is lost, and every document that spells the value
yields it.
-/

namespace Sortie.Json

variable {v : Value} {items : List Value} {pairs : List (String × Value)}

inductive Value.Distinct : Value → Prop
  | scalar (s : Scalar) : Distinct (.scalar s)
  | list {items : List Value} (hItems : ∀ v ∈ items, v.Distinct) : Distinct (.list items)
  | map {pairs : List (String × Value)} (hKeys : (pairs.map Prod.fst).Nodup)
    (hFields : ∀ f ∈ pairs, f.2.Distinct) : Distinct (.map pairs)

theorem Value.Distinct.of_map (h : (Value.map pairs).Distinct) :
    (pairs.map Prod.fst).Nodup ∧ ∀ f ∈ pairs, f.2.Distinct := by
  cases h with
  | map hKeys hFields => exact ⟨hKeys, hFields⟩

theorem Value.Distinct.empty : (Value.map []).Distinct := .map .nil (List.forall_mem_nil _)

/-! ## Values that are read -/

theorem nodup_setField {α : Type} {key : String} {value : α} {fields : List (String × α)}
    (h : (fields.map Prod.fst).Nodup) : ((setField key value fields).map Prod.fst).Nodup := by
  by_cases hMem : key ∈ fields.map Prod.fst
  · rwa [keys_setField_of_mem hMem]
  · rw [setField_of_not_mem hMem, List.map_append, List.nodup_append]
    refine ⟨h, List.pairwise_singleton _ key, fun a ha b hb hab => ?_⟩
    rw [List.map_singleton, List.mem_singleton] at hb
    rw [hab, hb] at ha
    exact hMem ha

theorem mem_setField {α : Type} {key : String} {value : α} {fields : List (String × α)} {f : String × α}
    (h : f ∈ setField key value fields) (hKeys : (fields.map Prod.fst).Nodup) :
    f = (key, value) ∨ f ∈ fields ∧ f.1 ≠ key := by
  induction fields with
  | nil => exact .inl (List.mem_singleton.mp h)
  | cons head rest ih =>
    obtain ⟨k, v⟩ := head
    obtain ⟨hNew, hRest⟩ := List.nodup_cons.mp hKeys
    rw [setField] at h
    split at h
    · rename_i hSame
      refine (List.mem_cons.mp h).imp_right fun hMem => ⟨List.mem_cons_of_mem _ hMem, ?_⟩
      rintro rfl
      exact hNew (List.mem_map.mpr ⟨f, hMem, hSame.symm⟩)
    · rename_i hOther
      rcases List.mem_cons.mp h with rfl | hMem
      · exact .inr ⟨List.mem_cons_self, hOther⟩
      · exact (ih hMem hRest).imp_right fun hOld => ⟨List.mem_cons_of_mem _ hOld.1, hOld.2⟩

mutual

theorem Doc.distinct_of_value? {d : Doc} {v : Value} (h : d.value? = .ok v) : v.Distinct := by
  cases d with
  | scalar s stop =>
    cases h
    exact .scalar s
  | skipped =>
    cases h
    exact .scalar .null
  | list start members =>
    obtain ⟨items, hItems, ⟨⟩⟩ := bind_eq_ok_iff.mp h
    exact .list (Members.distinct_of_values? hItems)
  | map start fields =>
    obtain ⟨pairs, hPairs, ⟨⟩⟩ := bind_eq_ok_iff.mp h
    exact Fields.distinct_of_values? hPairs .empty
  | broken f => cases h

theorem Members.distinct_of_values? {members : Members} {items : List Value}
    (h : members.values? = .ok items) : ∀ v ∈ items, v.Distinct := by
  cases members with
  | done stop =>
    cases h
    exact List.forall_mem_nil _
  | gap g => cases h
  | member start value rest =>
    obtain ⟨v, hValue, hRest⟩ := bind_eq_ok_iff.mp h
    obtain ⟨items, hItems, ⟨⟩⟩ := bind_eq_ok_iff.mp hRest
    exact List.forall_mem_cons.mpr
      ⟨Doc.distinct_of_value? hValue, Members.distinct_of_values? hItems⟩

theorem Fields.distinct_of_values? {fields : Fields} {before pairs : List (String × Value)}
    (h : fields.values? before = .ok pairs) (hBefore : (Value.map before).Distinct) :
    (Value.map pairs).Distinct := by
  cases fields with
  | done stop => exact Except.ok.inj h ▸ hBefore
  | gap f => cases h
  | field key keyEnd value valueEnd rest =>
    obtain ⟨v, hValue, hRest⟩ := bind_eq_ok_iff.mp h
    obtain ⟨hKeys, hFields⟩ := hBefore.of_map
    refine Fields.distinct_of_values? hRest (.map (nodup_setField hKeys) fun f hf => ?_)
    rcases mem_setField hf hKeys with rfl | hOld
    · exact Doc.distinct_of_value? hValue
    · exact hFields f hOld.1

end

/-! ## Fields under their keys -/

def Fields.keys : Fields → List String
  | .done _ | .gap _ => []
  | .field key _ _ _ rest => key :: rest.keys

def Fields.named (key : String) : Fields → List Doc
  | .field k _ value _ rest => if k = key then value :: rest.named key else rest.named key
  | _ => []

/-- Each key stands where it first comes, and has the value that comes last under it. -/
structure Fields.Gathers (fields : Fields) (pairs : List (String × Value)) : Prop where
  keys : pairs.map Prod.fst = fields.keys.eraseDups
  last : ∀ f ∈ pairs, ∃ d ∈ (fields.named f.1).getLast?, d.value? = .ok f.2

theorem eraseDups_of_nodup {l : List String} (h : l.Nodup) : l.eraseDups = l := by
  induction l with
  | nil => rfl
  | cons a l ih =>
    obtain ⟨hNew, hRest⟩ := List.nodup_cons.mp h
    have hOthers : l.filter (fun b => !b == a) = l := by
      rw [List.filter_eq_self]
      intro b hb
      have hNe : b ≠ a := fun hSame => hNew (hSame ▸ hb)
      simpa using hNe
    rw [List.eraseDups_cons, hOthers, ih hRest]

theorem eraseDups_append_cons {key : String} {l more : List String} (h : key ∈ l) :
    (l ++ key :: more).eraseDups = (l ++ more).eraseDups := by
  have hKnown : ¬ l.contains key = false := by simpa using h
  rw [List.eraseDups_append, List.eraseDups_append, List.cons_removeAll, if_neg hKnown]

theorem Fields.keys_of_values? {fields : Fields} {before pairs : List (String × Value)}
    (h : fields.values? before = .ok pairs) (hBefore : (before.map Prod.fst).Nodup) :
    pairs.map Prod.fst = (before.map Prod.fst ++ fields.keys).eraseDups := by
  cases fields with
  | done stop =>
    cases h
    rw [keys, List.append_nil, eraseDups_of_nodup hBefore]
  | gap f => cases h
  | field key keyEnd value valueEnd rest =>
    obtain ⟨v, -, hRest⟩ := bind_eq_ok_iff.mp h
    rw [Fields.keys_of_values? hRest (nodup_setField hBefore), keys]
    by_cases hMem : key ∈ before.map Prod.fst
    · rw [keys_setField_of_mem hMem, eraseDups_append_cons hMem]
    · rw [setField_of_not_mem hMem, List.map_append, List.append_assoc]
      rfl

theorem Fields.last_of_values? {fields : Fields} {before pairs : List (String × Value)}
    (h : fields.values? before = .ok pairs) (hBefore : (before.map Prod.fst).Nodup)
    {f : String × Value} (hf : f ∈ pairs) :
    (∃ d ∈ (fields.named f.1).getLast?, d.value? = .ok f.2) ∨
      fields.named f.1 = [] ∧ f ∈ before := by
  cases fields with
  | done stop =>
    cases h
    exact .inr ⟨rfl, hf⟩
  | gap g => cases h
  | field key keyEnd value valueEnd rest =>
    obtain ⟨v, hValue, hRest⟩ := bind_eq_ok_iff.mp h
    rcases Fields.last_of_values? hRest (nodup_setField hBefore) hf with ⟨d, hLast, hd⟩ | ⟨hNone, hMem⟩
    · refine .inl ⟨d, ?_, hd⟩
      rw [named]
      split
      · rw [List.getLast?_cons, Option.mem_def.mp hLast]
        rfl
      · exact hLast
    · rw [named]
      rcases mem_setField hMem hBefore with rfl | ⟨hOld, hOther⟩
      · rw [if_pos rfl, hNone]
        exact .inl ⟨value, rfl, hValue⟩
      · rw [if_neg (Ne.symm hOther), hNone]
        exact .inr ⟨rfl, hOld⟩

theorem Fields.gathers_of_values? {fields : Fields} (h : fields.values? [] = .ok pairs) :
    fields.Gathers pairs where
  keys := Fields.keys_of_values? h .nil
  last _ hf := (Fields.last_of_values? h .nil hf).resolve_right fun hNone => List.not_mem_nil hNone.2

/-! ## Documents that spell a value -/

theorem Members.values?_of_spell (h : ∀ v ∈ items, ∀ d : Doc, d.Spells v → d.value? = .ok v)
    {members : Members} (hSpell : members.Spell items) : members.values? = .ok items := by
  induction items generalizing members with
  | nil =>
    cases hSpell
    rfl
  | cons v items ih =>
    obtain ⟨hValue, hItems⟩ := List.forall_mem_cons.mp h
    cases hSpell with
    | member hSpells hRest =>
      rw [Members.values?, hValue _ hSpells, ih hItems hRest]
      rfl

theorem Fields.values?_of_spell (h : ∀ f ∈ pairs, ∀ d : Doc, d.Spells f.2 → d.value? = .ok f.2)
    (before : List (String × Value)) (hKeys : ((before ++ pairs).map Prod.fst).Nodup)
    {fields : Fields} (hSpell : fields.Spell pairs) :
    fields.values? before = .ok (before ++ pairs) := by
  induction pairs generalizing before fields with
  | nil =>
    cases hSpell
    rw [List.append_nil]
    rfl
  | cons f pairs ih =>
    obtain ⟨key, v⟩ := f
    obtain ⟨hValue, hFields⟩ := List.forall_mem_cons.mp h
    cases hSpell with
    | field hSpells hRest =>
      have hNew : key ∉ before.map Prod.fst := by
        rw [List.map_append, List.map_cons] at hKeys
        intro hMem
        exact (List.nodup_append.mp hKeys).2.2 key hMem key List.mem_cons_self rfl
      have hLater : ((before ++ [(key, v)] ++ pairs).map Prod.fst).Nodup := by
        rwa [List.append_assoc, List.singleton_append]
      have hFound := ih hFields _ hLater hRest
      rw [List.append_assoc, List.singleton_append] at hFound
      rw [Fields.values?, hValue _ hSpells]
      simp only [bind, Except.bind, setField_of_not_mem hNew, hFound]

theorem Value.Distinct.value? (h : v.Distinct) {d : Doc} (hSpells : d.Spells v) : d.value? = .ok v := by
  induction h generalizing d with
  | scalar s =>
    cases hSpells
    rfl
  | list _ ih =>
    cases hSpells with
    | list hSpell =>
      rw [Doc.value?, Members.values?_of_spell (fun v hv d => ih v hv) hSpell]
      rfl
  | map hKeys _ ih =>
    cases hSpells with
    | map hSpell =>
      rw [Doc.value?, Fields.values?_of_spell (fun f hf d => ih f hf) [] hKeys hSpell]
      rfl

end Sortie.Json
