import Sortie.Proofs.Plan.Agreement
import Sortie.Proofs.Plan.Contents

/-!
# All records or none

The groups of a plan may stand in any order in its text, but their records are looked at
in one order. Either all values are records, and each becomes an entry under its name, or
the first that is none is the error, whatever stands behind it.
-/

namespace Sortie

open Json

/-! ## Groups -/

namespace Groups

variable {α : Type} {strict : Bool} {expected : String} {group : Doc → Except Fault (List α)}
  {gs target : Groups α} {P : List α → Prop}

theorem ofLabel?_eq_some_iff {key : String} {g : Group} : Group.ofLabel? key = some g ↔ g.label = key := by
  constructor
  · intro h
    simpa using List.find?_some h
  · rintro rfl
    exact ofLabel?_label g

theorem forall_get_set {g : Group} {l : List α} (hl : P l) (h : ∀ g, P (gs.get g)) (g' : Group) :
    P ((gs.set g l).get g') := by
  rcases Decidable.em (g = g') with rfl | hNe
  · rwa [get_set_self]
  · rw [get_set_of_ne l gs hNe]
    exact h g'

theorem forall_get_of_ofFields (hGroup : ∀ d l, group d = .ok l → P l) {seen : List Group}
    {fields : Fields} (h : ofFields strict group gs seen fields = .ok target)
    (hStart : ∀ g, P (gs.get g)) : ∀ g, P (target.get g) := by
  fun_induction ofFields strict group gs seen fields with
  | case1 => exact Except.ok.inj h ▸ hStart
  | case2 | case3 | case5 => cases h
  | case4 _ _ _ _ _ _ _ _ _ _ ih =>
    obtain ⟨l, hValue, hRest⟩ := bind_eq_ok_iff.mp h
    exact ih l hRest (forall_get_set (hGroup _ l hValue) hStart)
  | case6 _ _ _ _ _ _ _ _ _ ih =>
    obtain ⟨-, -, hRest⟩ := bind_eq_ok_iff.mp h
    exact ih hRest hStart

theorem forall_get_of_ofMembers (hGroup : ∀ d l, group d = .ok l → P l) {left : List Group}
    {members : Members} (h : ofMembers group gs left members = .ok target)
    (hStart : ∀ g, P (gs.get g)) : ∀ g, P (target.get g) := by
  fun_induction ofMembers group gs left members with
  | case1 =>
    obtain ⟨-, -, hTarget⟩ := bind_eq_ok_iff.mp h
    exact Except.ok.inj hTarget ▸ hStart
  | case2 => exact Except.ok.inj h ▸ hStart
  | case3 => cases h
  | case4 _ _ _ _ _ _ ih =>
    obtain ⟨l, hValue, hRest⟩ := bind_eq_ok_iff.mp h
    exact ih l hRest (forall_get_set (hGroup _ l hValue) hStart)

/-- What holds of every group that is read, and of an empty one, holds of the groups of a document. -/
theorem forall_get_of_ofDoc (hGroup : ∀ d l, group d = .ok l → P l) (hNil : P []) {d : Doc}
    (h : ofDoc strict expected group d = .ok target) : ∀ g, P (target.get g) := by
  have hStart : ∀ g, P (({} : Groups α).get g) := by
    intro g
    cases g <;> exact hNil
  cases d with
  | list start members => exact forall_get_of_ofMembers hGroup h hStart
  | map start fields => exact forall_get_of_ofFields hGroup h hStart
  | scalar | skipped | broken => cases h

/-- A group that was not seen before is read from the one field with its label, wherever it stands. -/
theorem named_of_ofFields {seen : List Group} {fields : Fields}
    (h : ofFields strict group gs seen fields = .ok target) (g : Group) :
    (fields.named g.label = [] ∧ target.get g = gs.get g) ∨
      g ∉ seen ∧ ∃ d, fields.named g.label = [d] ∧ group d = .ok (target.get g) := by
  fun_induction ofFields strict group gs seen fields with
  | case1 => exact .inl ⟨rfl, by rw [Except.ok.inj h]⟩
  | case2 | case3 | case5 => cases h
  | case4 gs seen key keyEnd value valueEnd rest g' hLabel hNew ih =>
    obtain ⟨l, hValue, hRest⟩ := bind_eq_ok_iff.mp h
    rw [ofLabel?_eq_some_iff] at hLabel
    subst hLabel
    rcases Decidable.em (g' = g) with rfl | hNe
    · obtain ⟨hNamed, hTarget⟩ := (ih l hRest).resolve_right fun hLater => hLater.1 List.mem_cons_self
      rw [get_set_self] at hTarget
      exact .inr ⟨hNew, value, by rw [Fields.named, if_pos rfl, hNamed], by rw [hTarget, hValue]⟩
    · have hOther : g'.label ≠ g.label := fun hSame =>
        hNe (Option.some.inj ((ofLabel?_label g').symm.trans (hSame ▸ ofLabel?_label g)))
      rw [Fields.named, if_neg hOther, ← get_set_of_ne l gs hNe]
      exact (ih l hRest).imp_right fun hLater =>
        ⟨fun hMem => hLater.1 (List.mem_cons_of_mem _ hMem), hLater.2⟩
  | case6 gs seen key keyEnd value valueEnd rest hLabel _ ih =>
    obtain ⟨-, -, hRest⟩ := bind_eq_ok_iff.mp h
    have hOther : key ≠ g.label := by
      rintro rfl
      cases (ofLabel?_label g).symm.trans hLabel
    rw [Fields.named, if_neg hOther]
    exact ih hRest

end Groups

/-! ## Records -/

namespace Plan.Grouped

def IsRecord (v : Value) : Prop := ∃ r, Record.Gives v r

def Makes (x : Item) (e : Entry) : Prop :=
  e.name = x.1 ∧ Record.Gives x.2 { task := e.task, nickname := e.nickname, params := e.params }

/-- The items of all groups in the order in which they are looked at. -/
def inOrder (gs : Groups Item) : List (Group × Item) :=
  Group.all.flatMap fun g => (gs.get g).map (g, ·)

def flaw? (x : Group × Item) : Option PlanError :=
  match Record.ofValue x.2.2 with
  | .ok _ => none
  | .error reason => some (.invalidEntry x.1 x.2.1 reason)

variable {g : Group} {l : List Item} {es : List Entry} {gs : Groups Item} {e : PlanError} {p : Plan}

theorem isRecord_iff {v : Value} (h : v.Distinct) : IsRecord v ↔ ∃ r, Record.ofValue v = .ok r :=
  exists_congr fun _ => (Record.ofValue_eq_ok_iff h).symm

theorem not_isRecord_of_error {v : Value} {reason : Mismatch} (h : v.Distinct)
    (hError : Record.ofValue v = .error reason) : ¬ IsRecord v := by
  rw [isRecord_iff h, hError]
  exact nofun

theorem flaw?_eq_none_iff {x : Group × Item} (h : x.2.2.Distinct) :
    flaw? x = none ↔ IsRecord x.2.2 := by
  rw [flaw?, isRecord_iff h]
  cases Record.ofValue x.2.2 <;> simp

theorem flaw?_eq_some_iff {x : Group × Item} :
    flaw? x = some e ↔ ∃ reason, Record.ofValue x.2.2 = .error reason ∧
      e = .invalidEntry x.1 x.2.1 reason := by
  rw [flaw?]
  cases Record.ofValue x.2.2 <;> simp [eq_comm]

theorem makes_iff {x : Item} {e : Entry} (h : x.2.Distinct) :
    Makes x e ↔ ∃ r, Record.ofValue x.2 = .ok r ∧ e = r.entry x.1 := by
  rw [Makes, ← Record.ofValue_eq_ok_iff h]
  constructor
  · rintro ⟨hName, hRecord⟩
    exact ⟨_, hRecord, by rw [← hName, Record.entry]⟩
  · rintro ⟨r, hRecord, rfl⟩
    exact ⟨rfl, hRecord⟩

theorem entries_eq_ok_iff (h : ∀ x ∈ l, x.2.Distinct) :
    entries g l = .ok es ↔ List.Forall₂ Makes l es := by
  induction l generalizing es with
  | nil =>
    rw [List.forall₂_nil_left_iff, entries, Except.ok.injEq]
    exact eq_comm
  | cons x l ih =>
    obtain ⟨name, v⟩ := x
    obtain ⟨hHead, hTail⟩ := List.forall_mem_cons.mp h
    rw [List.forall₂_cons_left_iff, entries]
    cases hRecord : Record.ofValue v with
    | error reason => simp [makes_iff hHead, hRecord]
    | ok r =>
      simp only [makes_iff hHead, hRecord, bind_eq_ok_iff, ih hTail]
      constructor
      · rintro ⟨more, hMore, ⟨⟩⟩
        exact ⟨r.entry name, more, ⟨r, rfl, rfl⟩, hMore, rfl⟩
      · rintro ⟨e, more, ⟨r', ⟨⟩, rfl⟩, hMore, rfl⟩
        exact ⟨more, hMore, rfl⟩

theorem entries_eq_error_iff : entries g l = .error e ↔ (l.map (g, ·)).findSome? flaw? = some e := by
  induction l with
  | nil => simp [entries]
  | cons x l ih =>
    obtain ⟨name, v⟩ := x
    rw [entries, List.map_cons, List.findSome?_cons, flaw?]
    cases hRecord : Record.ofValue v with
    | error reason => simp
    | ok r =>
      simp only
      rw [← ih]
      cases entries g l <;> simp [bind, Except.bind, pure, Except.pure]

theorem exists_entries_iff :
    (∃ es, entries g l = .ok es) ↔ (l.map (g, ·)).findSome? flaw? = none :=
  exists_ok_iff fun _ => entries_eq_error_iff

theorem inOrder_eq (gs : Groups Item) : inOrder gs = gs.globals.map (.global, ·) ++
    (gs.sequence.map (.sequential, ·) ++ gs.standby.map (.standby, ·)) := by
  simp [inOrder, Group.all, Groups.get]

theorem mem_inOrder {x : Group × Item} : x ∈ inOrder gs ↔ x.2 ∈ gs.get x.1 := by
  obtain ⟨g, x⟩ := x
  simp only [inOrder, List.mem_flatMap, List.mem_map, Prod.mk.injEq]
  constructor
  · rintro ⟨g, -, x, hx, rfl, rfl⟩
    exact hx
  · intro hx
    exact ⟨g, by cases g <;> decide, x, hx, rfl, rfl⟩

/-- The first flawed item is the error. -/
theorem ofGroups_eq_error_iff : ofGroups gs = .error e ↔ (inOrder gs).findSome? flaw? = some e := by
  simp only [inOrder_eq, List.findSome?_append, Option.or_eq_some_iff, ofGroups, bind_eq_error_iff,
    entries_eq_error_iff, ← exists_entries_iff, exists_and_right, pure, Except.pure, reduceCtorEq,
    and_false, exists_false, or_false]

def FirstFlaw (gs : Groups Item) (g : Group) (name : String) (reason : Mismatch) : Prop :=
  ∃ before v after, inOrder gs = before ++ (g, name, v) :: after ∧
    (∀ x ∈ before, IsRecord x.2.2) ∧ ¬ IsRecord v ∧ Record.ofValue v = .error reason

section

variable (hDistinct : ∀ g, ∀ x ∈ gs.get g, x.2.Distinct)

include hDistinct

theorem exists_ofGroups_iff : (∃ p, ofGroups gs = .ok p) ↔ ∀ g, ∀ x ∈ gs.get g, IsRecord x.2 := by
  rw [exists_ok_iff fun _ => ofGroups_eq_error_iff, List.findSome?_eq_none_iff]
  constructor
  · intro h g x hx
    exact (flaw?_eq_none_iff (hDistinct g x hx)).mp (h (g, x) (mem_inOrder.mpr hx))
  · rintro h ⟨g, x⟩ hMem
    have hx := mem_inOrder.mp hMem
    exact (flaw?_eq_none_iff (hDistinct g x hx)).mpr (h g x hx)

theorem findSome?_flaw?_iff : (inOrder gs).findSome? flaw? = some e ↔
    ∃ g name reason, FirstFlaw gs g name reason ∧ e = .invalidEntry g name reason := by
  have hAll : ∀ x ∈ inOrder gs, x.2.2.Distinct := fun x hx => hDistinct x.1 x.2 (mem_inOrder.mp hx)
  rw [List.findSome?_eq_some_iff]
  constructor
  · rintro ⟨before, ⟨g, name, v⟩, after, hSplit, hFlaw, hBefore⟩
    obtain ⟨reason, hReason, rfl⟩ := flaw?_eq_some_iff.mp hFlaw
    rw [hSplit, List.forall_mem_append, List.forall_mem_cons] at hAll
    obtain ⟨hEarlier, hHere, -⟩ := hAll
    exact ⟨g, name, reason, ⟨before, v, after, hSplit,
      fun x hx => (flaw?_eq_none_iff (hEarlier x hx)).mp (hBefore x hx),
      not_isRecord_of_error hHere hReason, hReason⟩, rfl⟩
  · rintro ⟨g, name, reason, ⟨before, v, after, hSplit, hBefore, -, hReason⟩, rfl⟩
    rw [hSplit, List.forall_mem_append] at hAll
    exact ⟨before, (g, name, v), after, hSplit, flaw?_eq_some_iff.mpr ⟨reason, hReason, rfl⟩,
      fun x hx => (flaw?_eq_none_iff (hAll.1 x hx)).mpr (hBefore x hx)⟩

end

theorem names_eq (h : List.Forall₂ Makes l es) : es.map Entry.name = l.map Prod.fst := by
  induction h with
  | nil => rfl
  | cons hHead _ ih => rw [List.map_cons, List.map_cons, hHead.1, ih]

theorem distinct_of_items {d : Doc} (h : items d = .ok l) : (Value.map l).Distinct := by
  cases d with
  | map start fields => exact Fields.distinct_of_values? h .empty
  | scalar | list | skipped | broken => cases h

theorem exists_map_of_items {d : Doc} (h : items d = .ok l) :
    ∃ start members, d = .map start members ∧ members.Gathers l := by
  cases d with
  | map start members => exact ⟨start, members, rfl, Fields.gathers_of_values? h⟩
  | scalar | list | skipped | broken => cases h

theorem named_of_groups {start : Nat} {fields : Fields} (h : groups (.map start fields) = .ok gs)
    (g : Group) : (fields.named g.label = [] ∧ gs.get g = []) ∨
      ∃ start members, fields.named g.label = [.map start members] ∧
        items (.map start members) = .ok (gs.get g) ∧ members.Gathers (gs.get g) := by
  rcases Groups.named_of_ofFields h g with ⟨hNone, hGroup⟩ | ⟨-, d, hNamed, hItems⟩
  · refine .inl ⟨hNone, ?_⟩
    rw [hGroup]
    cases g <;> rfl
  · obtain ⟨start, members, rfl, hGathers⟩ := exists_map_of_items hItems
    exact .inr ⟨start, members, hNamed, hItems, hGathers⟩

theorem groups_of_read {text : String} (h : Doc.read (fun _ _ => true) groups text = .ok gs) :
    groups (Doc.ofText (fun _ _ => true) text).1 = .ok gs := by
  obtain ⟨gs', hGroups, hRest⟩ := bind_eq_ok_iff.mp h
  split at hRest
  · cases hRest
  · exact hGroups.trans hRest

theorem parse_of_read {text : String} (h : Doc.read (fun _ _ => true) groups text = .ok gs) :
    parse text = ofGroups gs := by
  rw [parse, h]

/--
The groups are read by their labels, not by their places, and in each of them a repeated name
keeps its first place and its last value. Once this is done, either every item of all groups
makes an entry under its name, or the first that is no record is the error.
-/
theorem all_or_nothing {text : String} (h : Doc.read (fun _ _ => true) groups text = .ok gs) :
    (∀ start fields, (Doc.ofText (fun _ _ => true) text).1 = .map start fields →
      ∀ g, (fields.named g.label = [] ∧ gs.get g = []) ∨
        ∃ start members, fields.named g.label = [.map start members] ∧
          items (.map start members) = .ok (gs.get g) ∧ members.Gathers (gs.get g)) ∧
    ((∃ p, parse text = .ok p) ↔ ∀ g, ∀ x ∈ gs.get g, IsRecord x.2) ∧
    (∀ p, parse text = .ok p → ∀ g, List.Forall₂ Makes (gs.get g) (p.get g) ∧
      (p.get g).map Entry.name = (gs.get g).map Prod.fst ∧ ((p.get g).map Entry.name).Nodup) ∧
    ∀ e, parse text = .error e ↔
      ∃ g name reason, FirstFlaw gs g name reason ∧ e = .invalidEntry g name reason := by
  have hGroups := groups_of_read h
  have hDistinct : ∀ g, (Value.map (gs.get g)).Distinct :=
    Groups.forall_get_of_ofDoc (P := fun l => (Value.map l).Distinct)
      (fun d l hItems => distinct_of_items hItems) .empty hGroups
  have hValues : ∀ g, ∀ x ∈ gs.get g, x.2.Distinct := fun g => (hDistinct g).of_map.2
  rw [parse_of_read h]
  refine ⟨fun start fields hMap => named_of_groups (hMap ▸ hGroups), exists_ofGroups_iff hValues,
    fun p hPlan g => ?_, fun e => ofGroups_eq_error_iff.trans (findSome?_flaw?_iff hValues)⟩
  have hMakes := (entries_eq_ok_iff (hValues g)).mp (ofGroups_eq_ok_iff.mp hPlan g)
  refine ⟨hMakes, names_eq hMakes, ?_⟩
  rw [names_eq hMakes]
  exact (hDistinct g).of_map.1

/-- Neither the other group in front of it nor the flaw in there hides the first flaw. -/
theorem all_or_nothing_two_flaws :
    let text := "\x7b\"standby_tasks\":\x7b\"rest\":0\x7d,\"global_tasks\":\x7b\"watch\":\x7b\x7d,\"look\":1\x7d\x7d"
    ∃ gs, Doc.read (fun _ _ => true) groups text = .ok gs ∧
      FirstFlaw gs .global "look" (.kind (.scalar (.number (.integer 1))) "struct RawEntry") := by
  intro text
  have hParse : parse text = .error (.invalidEntry .global "look"
      (.kind (.scalar (.number (.integer 1))) "struct RawEntry")) := by decide +kernel
  cases hRead : Doc.read (fun _ _ => true) groups text with
  | error f =>
    rw [parse, hRead] at hParse
    cases hParse
  | ok gs =>
    obtain ⟨g, name, reason, hFirst, hError⟩ := ((all_or_nothing hRead).2.2.2 _).mp hParse
    cases hError
    exact ⟨gs, rfl, hFirst⟩

end Plan.Grouped

end Sortie
