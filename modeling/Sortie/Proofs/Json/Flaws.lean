import Sortie.Json.Document

/-!
# Documents without flaws

A scan that fails leaves a flaw in the document, and a document that has a value has
none. So a reader that wants the values of all parts fails where the scan did.
-/

namespace Sortie.Json

mutual

inductive Doc.Flawless : Doc → Prop
  | scalar (s : Scalar) (stop : Nat) : Doc.Flawless (.scalar s stop)
  | list (start : Nat) {members : Members} (h : Members.Flawless members) :
    Doc.Flawless (.list start members)
  | map (start : Nat) {fields : Fields} (h : Fields.Flawless fields) : Doc.Flawless (.map start fields)
  | skipped : Doc.Flawless .skipped

inductive Members.Flawless : Members → Prop
  | done (stop : Nat) : Members.Flawless (.done stop)
  | member (start : Nat) {value : Doc} {rest : Members} (hValue : Doc.Flawless value)
    (hRest : Members.Flawless rest) : Members.Flawless (.member start value rest)

inductive Fields.Flawless : Fields → Prop
  | done (stop : Nat) : Fields.Flawless (.done stop)
  | field (key : String) (keyEnd : Nat) {value : Doc} (valueEnd : Nat) {rest : Fields}
    (hValue : Doc.Flawless value) (hRest : Fields.Flawless rest) :
    Fields.Flawless (.field key keyEnd value valueEnd rest)

end

theorem bind_eq_ok_iff {ε α β : Type} {x : Except ε α} {f : α → Except ε β} {b : β} :
    x >>= f = .ok b ↔ ∃ a, x = .ok a ∧ f a = .ok b := by
  cases x <;> simp [bind, Except.bind]

theorem bind_eq_error_iff {ε α β : Type} {x : Except ε α} {f : α → Except ε β} {e : ε} :
    x >>= f = .error e ↔ x = .error e ∨ ∃ a, x = .ok a ∧ f a = .error e := by
  cases x <;> simp [bind, Except.bind]

theorem exists_ok_iff {ε α : Type} {x : Except ε α} {o : Option ε}
    (h : ∀ e, x = .error e ↔ o = some e) : (∃ a, x = .ok a) ↔ o = none := by
  rw [Option.eq_none_iff_forall_ne_some]
  simp only [ne_eq, ← h]
  cases x <;> simp

mutual

theorem Doc.flawless_of_value? {d : Doc} {v : Value} (h : d.value? = .ok v) : d.Flawless := by
  cases d with
  | scalar s stop => exact .scalar s stop
  | list start members =>
    obtain ⟨items, hItems, -⟩ := bind_eq_ok_iff.mp h
    exact .list start (Members.flawless_of_values? hItems)
  | map start fields =>
    obtain ⟨pairs, hPairs, -⟩ := bind_eq_ok_iff.mp h
    exact .map start (Fields.flawless_of_values? hPairs)
  | skipped => exact .skipped
  | broken f => cases h

theorem Members.flawless_of_values? {members : Members} {items : List Value}
    (h : members.values? = .ok items) : members.Flawless := by
  cases members with
  | done stop => exact .done stop
  | gap g => cases h
  | member start value rest =>
    obtain ⟨v, hValue, hMore⟩ := bind_eq_ok_iff.mp h
    obtain ⟨more, hRest, -⟩ := bind_eq_ok_iff.mp hMore
    exact .member start (Doc.flawless_of_value? hValue) (Members.flawless_of_values? hRest)

theorem Fields.flawless_of_values? {fields : Fields} {before pairs : List (String × Value)}
    (h : fields.values? before = .ok pairs) : fields.Flawless := by
  cases fields with
  | done stop => exact .done stop
  | gap f => cases h
  | field key keyEnd value valueEnd rest =>
    obtain ⟨v, hValue, hRest⟩ := bind_eq_ok_iff.mp h
    exact .field key keyEnd valueEnd (Doc.flawless_of_value? hValue) (Fields.flawless_of_values? hRest)

end

/-- A scan that left no flaw has not failed. -/
def Shows {α : Type} (flawless : α → Prop) (o : α × Except Fault Cursor) : Prop :=
  flawless o.1 → ∃ c, o.2 = .ok c

namespace Doc

section

variable {o : Members × Except Fault Cursor} {o' : Fields × Except Fault Cursor}
  {value : Doc} {start keyEnd valueEnd : Nat} {key : String} {g : Gap} {f f' : Fault}

theorem shows_ok {α : Type} {flawless : α → Prop} (a : α) (c : Cursor) : Shows flawless (a, .ok c) :=
  fun _ => ⟨c, rfl⟩

theorem shows_broken : Shows Flawless (.broken f, .error f') := nofun

theorem shows_list (h : Shows Members.Flawless o) : Shows Flawless (.list start o.1, o.2) := by
  rintro (_ | ⟨_, hMembers⟩)
  exact h hMembers

theorem shows_map (h : Shows Fields.Flawless o') : Shows Flawless (.map start o'.1, o'.2) := by
  rintro (_ | _ | ⟨_, hFields⟩)
  exact h hFields

theorem shows_gap : Shows Members.Flawless (.gap g, .error f) := nofun

theorem shows_member (h : Shows Members.Flawless o) :
    Shows Members.Flawless (.member start value o.1, o.2) := by
  rintro (_ | ⟨_, _, hRest⟩)
  exact h hRest

theorem shows_fieldGap : Shows Fields.Flawless (.gap f, .error f') := nofun

theorem shows_field (h : Shows Fields.Flawless o') :
    Shows Fields.Flawless (.field key keyEnd value valueEnd o'.1, o'.2) := by
  rintro (_ | ⟨_, _, _, _, hRest⟩)
  exact h hRest

theorem shows_ofScalar (c : Cursor) : Shows Flawless (ofScalar c) := by
  rw [ofScalar]
  split
  · exact shows_ok _ _
  · exact shows_broken

end

theorem shows_scan (wanted : Interest) (fuel : Nat) :
    (∀ depth c, Shows Flawless (scan wanted fuel depth c)) ∧
    (∀ depth first c, Shows Members.Flawless (scanMembers wanted fuel depth first c)) ∧
    ∀ depth first c, Shows Fields.Flawless (scanFields wanted fuel depth first c) := by
  induction fuel with
  | zero => exact ⟨fun _ _ => shows_broken, fun _ _ _ => shows_gap, fun _ _ _ => shows_fieldGap⟩
  | succ fuel ih =>
    obtain ⟨-, hMembers, hFields⟩ := ih
    refine ⟨fun depth c => ?_, fun depth first c => ?_, fun depth first c => ?_⟩
    · rw [scan]
      dsimp only
      split
      · split
        · exact shows_broken
        · exact shows_list (hMembers _ _ _)
      · split
        · exact shows_broken
        · exact shows_map (hFields _ _ _)
      · exact shows_ofScalar _
    · -- where a member cannot be read, a gap follows it
      rw [scanMembers]
      dsimp only
      repeat' split
      all_goals first
        | exact shows_gap
        | exact shows_ok _ _
        | exact shows_member (hMembers depth false _)
        | exact shows_member shows_gap
    · rw [scanFields]
      dsimp only
      repeat' split
      all_goals first
        | exact shows_fieldGap
        | exact shows_ok _ _
        | exact shows_field (hFields depth false _)
        | exact shows_field shows_fieldGap

theorem not_flawless_of_scan {wanted : Interest} {fuel depth : Nat} {c : Cursor} {d : Doc} {f : Fault}
    (hScan : scan wanted fuel depth c = (d, .error f)) : ¬ d.Flawless := by
  intro hFlawless
  have hShows := (shows_scan wanted fuel).1 depth c
  rw [hScan] at hShows
  obtain ⟨next, hNext⟩ := hShows hFlawless
  cases hNext

end Doc

end Sortie.Json
