import Sortie.Plan.Listed
import Sortie.Proofs.Json.Flaws

/-!
# Readers of plans are thorough

Neither reader of plans finds one in a document with a flaw, wherever the flaw stands
and whatever else the document holds.
-/

namespace Sortie

open Json (Doc Members Fields Fault Value bind_eq_ok_iff)

variable {d : Doc} {members : Members} {fields : Fields}

theorem Json.Doc.flawless_of_text? {s : String} (h : d.text? = .ok s) : d.Flawless := by
  cases d with
  | scalar s stop => exact .scalar s stop
  | list | map | skipped | broken => cases h

theorem Json.Doc.flawless_of_optionalText? {s : Option String} (h : d.optionalText? = .ok s) :
    d.Flawless := by
  cases d with
  | scalar s stop => exact .scalar s stop
  | list | map | skipped | broken => cases h

theorem Json.Members.flawless_of_finish {u : Unit} (h : members.finish = .ok u) :
    members.Flawless := by
  cases members with
  | done stop => exact .done stop
  | gap | member => cases h

namespace Groups

variable {α : Type} {strict : Bool} {expected : String} {group : Doc → Except Fault (List α)}
  {gs target : Groups α}

theorem flawless_of_passOver {u : Unit} (h : passOver d = .ok u) : d.Flawless := by
  cases d with
  | scalar s stop => exact .scalar s stop
  | skipped => exact .skipped
  | list | map =>
    obtain ⟨v, hValue, -⟩ := bind_eq_ok_iff.mp h
    exact Doc.flawless_of_value? hValue
  | broken => cases h

theorem flawless_of_ofFields (hGroup : ∀ d l, group d = .ok l → d.Flawless) {seen : List Group}
    (h : ofFields strict group gs seen fields = .ok target) : fields.Flawless := by
  fun_induction ofFields strict group gs seen fields with
  | case1 => exact .done _
  | case2 | case3 | case5 => cases h
  | case4 _ _ _ _ _ _ _ _ _ _ ih =>
    obtain ⟨l, hValue, hRest⟩ := bind_eq_ok_iff.mp h
    exact .field _ _ _ (hGroup _ l hValue) (ih l hRest)
  | case6 _ _ _ _ _ _ _ _ _ ih =>
    obtain ⟨u, hValue, hRest⟩ := bind_eq_ok_iff.mp h
    exact .field _ _ _ (flawless_of_passOver hValue) (ih hRest)

theorem flawless_of_ofMembers (hGroup : ∀ d l, group d = .ok l → d.Flawless) {left : List Group}
    (h : ofMembers group gs left members = .ok target) : members.Flawless := by
  fun_induction ofMembers group gs left members with
  | case1 =>
    obtain ⟨u, hFinish, -⟩ := bind_eq_ok_iff.mp h
    exact Members.flawless_of_finish hFinish
  | case2 => exact .done _
  | case3 => cases h
  | case4 _ _ _ _ _ _ ih =>
    obtain ⟨l, hValue, hRest⟩ := bind_eq_ok_iff.mp h
    exact .member _ (hGroup _ l hValue) (ih l hRest)

theorem flawless_of_ofDoc (hGroup : ∀ d l, group d = .ok l → d.Flawless)
    (h : ofDoc strict expected group d = .ok target) : d.Flawless := by
  cases d with
  | list start members => exact .list start (flawless_of_ofMembers hGroup h)
  | map start fields => exact .map start (flawless_of_ofFields hGroup h)
  | scalar | skipped | broken => cases h

end Groups

namespace Entry

variable {draft draft' : Draft} {e : Entry}

theorem flawless_of_addParams {p q : Params} (h : addParams p fields = .ok q) : fields.Flawless := by
  fun_induction addParams p fields with
  | case1 => exact .done _
  | case2 => cases h
  | case3 _ _ _ _ _ _ ih =>
    obtain ⟨v, hValue, hNext⟩ := bind_eq_ok_iff.mp h
    cases hParam : Param.ofValue? v with
    | none =>
      rw [hParam] at hNext
      cases hNext
    | some x =>
      rw [hParam] at hNext
      exact .field _ _ _ (Doc.flawless_of_value? hValue) (ih x hNext)

theorem flawless_of_paramsOf {p : Params} (h : paramsOf d = .ok p) : d.Flawless := by
  cases d with
  | map start fields => exact .map start (flawless_of_addParams h)
  | scalar | list | skipped | broken => cases h

theorem Draft.flawless_of_set {key : String} (h : draft.set key d = .ok draft') : d.Flawless := by
  unfold Draft.set at h
  split at h
  · obtain ⟨s, hText, -⟩ := bind_eq_ok_iff.mp h
    exact Doc.flawless_of_text? hText
  · obtain ⟨s, hText, -⟩ := bind_eq_ok_iff.mp h
    exact Doc.flawless_of_optionalText? hText
  · obtain ⟨s, hText, -⟩ := bind_eq_ok_iff.mp h
    exact Doc.flawless_of_optionalText? hText
  · obtain ⟨p, hParams, -⟩ := bind_eq_ok_iff.mp h
    exact flawless_of_paramsOf hParams

theorem flawless_of_ofFields {seen : List String} (h : ofFields draft seen fields = .ok e) :
    fields.Flawless := by
  fun_induction ofFields draft seen fields with
  | case1 => exact .done _
  | case2 | case3 => cases h
  | case4 _ _ _ _ _ _ _ _ _ ih =>
    obtain ⟨next, hValue, hRest⟩ := bind_eq_ok_iff.mp h
    exact .field _ _ _ (Draft.flawless_of_set hValue) (ih next hRest)
  | case5 _ _ _ _ _ _ _ _ ih =>
    obtain ⟨u, hValue, hRest⟩ := bind_eq_ok_iff.mp h
    exact .field _ _ _ (Groups.flawless_of_passOver hValue) (ih hRest)

theorem flawless_of_ofMembers {left : List String} (h : ofMembers draft left members = .ok e) :
    members.Flawless := by
  fun_induction ofMembers draft left members with
  | case1 => exact .done _
  | case2 => cases h
  | case3 _ _ _ _ _ _ ih =>
    obtain ⟨next, hValue, hRest⟩ := bind_eq_ok_iff.mp h
    exact .member _ (Draft.flawless_of_set hValue) (ih next hRest)
  | case4 =>
    obtain ⟨u, hFinish, -⟩ := bind_eq_ok_iff.mp h
    exact Members.flawless_of_finish hFinish

theorem flawless_of_ofDoc (h : ofDoc d = .ok e) : d.Flawless := by
  cases d with
  | list start members => exact .list start (flawless_of_ofMembers h)
  | map start fields => exact .map start (flawless_of_ofFields h)
  | scalar | skipped | broken => cases h

end Entry

namespace Plan

theorem Grouped.flawless_of_items {l : List Grouped.Item} (h : Grouped.items d = .ok l) :
    d.Flawless := by
  cases d with
  | map start fields => exact .map start (Fields.flawless_of_values? h)
  | scalar | list | skipped | broken => cases h

theorem Grouped.flawless_of_groups {items : Groups Grouped.Item} (h : Grouped.groups d = .ok items) :
    d.Flawless :=
  Groups.flawless_of_ofDoc (fun _ _ => Grouped.flawless_of_items) h

theorem Listed.flawless_of_entriesOf {es : List Entry} (h : Listed.entriesOf members = .ok es) :
    members.Flawless := by
  fun_induction Listed.entriesOf members generalizing es with
  | case1 => exact .done _
  | case2 => cases h
  | case3 _ _ _ ih =>
    obtain ⟨e, hValue, hMore⟩ := bind_eq_ok_iff.mp h
    obtain ⟨more, hRest, -⟩ := bind_eq_ok_iff.mp hMore
    exact .member _ (Entry.flawless_of_ofDoc hValue) (ih hRest)

theorem Listed.flawless_of_entries {es : List Entry} (h : Listed.entries d = .ok es) :
    d.Flawless := by
  cases d with
  | list start members => exact .list start (Listed.flawless_of_entriesOf h)
  | scalar | map | skipped | broken => cases h

theorem Listed.flawless_of_ofDoc {p : Plan} (h : Listed.ofDoc d = .ok p) : d.Flawless :=
  Groups.flawless_of_ofDoc (fun _ _ => Listed.flawless_of_entries) h

end Plan

end Sortie
