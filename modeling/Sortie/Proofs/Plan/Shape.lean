import Sortie.Plan.Shape
import Sortie.Proofs.Json.Reading

/-!
# Groups in any order

A plan that is written as a map is read group by group. Each group is read on its own,
so that the order in which they are written does not matter.
-/

namespace Sortie

open Json (Doc Fields Fault Value)

/-- Two readings that both fail, or both succeed with the same result. -/
def Agree {ε ε' α : Type} (x : Except ε α) (y : Except ε' α) : Prop :=
  ∀ a, x = .ok a ↔ y = .ok a

namespace Agree

variable {ε ε' α β γ : Type} {x : Except ε α} {y : Except ε' α}

theorem refl (x : Except ε α) : Agree x x := fun _ => Iff.rfl

theorem pure (a : α) : Agree (pure a : Except ε α) (pure a : Except ε' α) := by
  intro b
  constructor <;> rintro ⟨⟩ <;> rfl

theorem error (e : ε) (e' : ε') : Agree (.error e : Except ε α) (.error e' : Except ε' α) :=
  fun _ => ⟨nofun, nofun⟩

theorem exists_error {e : ε'} (h : Agree x (.error e : Except ε' α)) : ∃ e', x = .error e' := by
  cases x with
  | ok a => cases (h a).mp rfl
  | error e' => exact ⟨e', rfl⟩

/-- What follows a reading may take another view of its result on either side. -/
theorem bind_map {w : Except ε' γ} {φ : γ → α} (h : Agree x (φ <$> w)) {f : α → Except ε β}
    {g : γ → Except ε' β} (hNext : ∀ c, Agree (f (φ c)) (g c)) : Agree (x >>= f) (w >>= g) := by
  cases w with
  | ok c =>
    rw [(h (φ c)).mpr rfl]
    exact hNext c
  | error e =>
    obtain ⟨e', rfl⟩ := h.exists_error
    exact error e' e

theorem bind (h : Agree x y) {f : α → Except ε β} {g : α → Except ε' β}
    (hNext : ∀ a, Agree (f a) (g a)) : Agree (x >>= f) (y >>= g) := by
  apply bind_map (φ := id) _ hNext
  rwa [id_map]

end Agree

namespace Groups

variable {α ε : Type} {strict : Bool} {group : Doc → Except Fault (List α)} {written : Group → Value}
  {read : Group → Except ε (List α)} {gs target : Groups α}

theorem ofLabel?_label (g : Group) : Group.ofLabel? g.label = some g := by
  cases g <;> decide

theorem eq_iff_get : gs = target ↔ ∀ g, target.get g = gs.get g := by
  constructor
  · rintro rfl _
    rfl
  · intro h
    have hGlobals := h .global
    have hSequence := h .sequential
    have hStandby := h .standby
    cases gs
    cases target
    simp_all [get]

/-- The order in which groups are written does not matter. -/
theorem ofFields_eq_ok_iff {order seen : List Group} {fields : Fields}
    (hGroup : ∀ g d, d.Spells (written g) → Agree (group d) (read g))
    (hSpell : fields.Spell (order.map fun g => (g.label, written g)))
    (hOrder : order.Nodup) (hFresh : ∀ g ∈ order, g ∉ seen) :
    ofFields strict group gs seen fields = .ok target ↔
      (∀ g ∈ order, read g = .ok (target.get g)) ∧ ∀ g, g ∉ order → target.get g = gs.get g := by
  induction order generalizing gs seen fields with
  | nil =>
    cases hSpell
    rw [ofFields, Except.ok.injEq, eq_iff_get]
    simp
  | cons g order ih =>
    cases hSpell with
    | field hValue hRest =>
      obtain ⟨hNotLater, hOrderRest⟩ := List.nodup_cons.mp hOrder
      obtain ⟨hNew, hFreshRest⟩ := List.forall_mem_cons.mp hFresh
      have hLater : ∀ g' ∈ order, g' ∉ g :: seen := by
        intro g' hg'
        rw [List.mem_cons, not_or]
        exact ⟨fun hSame => hNotLater (hSame ▸ hg'), hFreshRest g' hg'⟩
      have hRead := hGroup g _ hValue
      rw [ofFields, ofLabel?_label, List.forall_mem_cons]
      simp only [if_neg hNew]
      cases hCase : read g with
      | error e =>
        rw [hCase] at hRead
        obtain ⟨e', hError⟩ := hRead.exists_error
        rw [hError]
        simp [bind, Except.bind]
      | ok l =>
        rw [hCase] at hRead
        rw [(hRead l).mpr rfl]
        refine (ih hRest hOrderRest hLater).trans ?_
        constructor
        · rintro ⟨hTarget, hOther⟩
          have hHead := hOther g hNotLater
          rw [get_set_self] at hHead
          refine ⟨⟨by rw [hHead], hTarget⟩, fun g' hg' => ?_⟩
          rw [List.mem_cons, not_or] at hg'
          rw [hOther g' hg'.2, get_set_of_ne l gs (Ne.symm hg'.1)]
        · rintro ⟨⟨hHead, hTarget⟩, hOther⟩
          refine ⟨hTarget, fun g' hg' => ?_⟩
          rcases Decidable.em (g = g') with rfl | hNe
          · rw [get_set_self, Except.ok.inj hHead]
          · have hNotMem : g' ∉ g :: order := by
              rw [List.mem_cons, not_or]
              exact ⟨Ne.symm hNe, hg'⟩
            rw [get_set_of_ne l gs hNe, hOther g' hNotMem]

theorem ofDoc_eq_ok_iff {expected : String} {order : List Group} {d : Doc}
    (hGroup : ∀ g d, d.Spells (written g) → Agree (group d) (read g))
    (hOrder : order.Perm Group.all)
    (hSpells : d.Spells (.map (order.map fun g => (g.label, written g)))) :
    ofDoc strict expected group d = .ok target ↔ ∀ g, read g = .ok (target.get g) := by
  have hAll : ∀ g, g ∈ order := by
    intro g
    rw [hOrder.mem_iff]
    cases g <;> decide
  have hNodup : order.Nodup := hOrder.nodup_iff.mpr (by decide)
  cases hSpells with
  | map hSpell =>
    rw [ofDoc, ofFields_eq_ok_iff hGroup hSpell hNodup (by simp)]
    simp [hAll]

end Groups

end Sortie
