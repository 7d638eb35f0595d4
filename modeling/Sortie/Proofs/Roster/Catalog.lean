import Sortie.Mission.Request

/-!
# What the standby catalog answers

A look-up finds the first standby task that bears the wanted name or nickname,
and an order pushes exactly this task unless the front fits already. The answer
depends on nothing but the catalog and the profiles of its tasks.
-/

namespace Sortie

theorem Target.fits_congr {x y : Task} (h : y.profile = x.profile) (t : Target) :
    t.fits y = t.fits x := by
  cases t with
  | name => simp only [fits, Task.name, h]
  | nickname => simp only [fits, Task.nickname, h]

namespace Roster

variable {r s : Roster} {t : Target} {id : TaskId}

theorem exists_task?_iff : (∃ x, r.task? id = some x) ↔ id < r.size := by
  rw [← Option.isSome_iff_exists, task?, size]
  simp

def IsFirst (r : Roster) (t : Target) (id : TaskId) : Prop :=
  ∃ before after, r.standby = before ++ id :: after ∧ (r.task? id).any t.fits ∧
    ∀ j ∈ before, ¬ (r.task? j).any t.fits

theorem IsFirst.mem (h : r.IsFirst t id) : id ∈ r.standby := by
  obtain ⟨before, after, hStandby, -⟩ := h
  simp [hStandby]

theorem IsFirst.fits (h : r.IsFirst t id) : ∃ x, r.task? id = some x ∧ t.fits x := by
  obtain ⟨-, -, -, hFits, -⟩ := h
  simpa [Option.any_eq_true] using hFits

theorem find?_eq_some_iff : r.find? t = some id ↔ t.key ≠ "" ∧ r.IsFirst t id := by
  rw [find?, firstMatch]
  split
  · simp_all
  · rename_i hKey
    rw [List.find?_eq_some_iff_append]
    constructor
    · rintro ⟨hFits, before, after, hStandby, hBefore⟩
      exact ⟨hKey, before, after, hStandby, hFits, by simpa using hBefore⟩
    · rintro ⟨-, before, after, hStandby, hFits, hBefore⟩
      exact ⟨hFits, before, after, hStandby, by simpa using hBefore⟩

theorem find?_eq_none_iff :
    r.find? t = none ↔ t.key = "" ∨ ∀ j ∈ r.standby, ¬ (r.task? j).any t.fits := by
  rw [find?, firstMatch]
  split
  · simp_all
  · rename_i hKey
    rw [List.find?_eq_none]
    simp [hKey]

theorem seek_eq_standby_iff :
    r.seek t = .standby id ↔ ¬ r.frontTask?.any t.fits ∧ r.find? t = some id := by
  rw [seek]
  split
  · simp_all
  · split <;> simp_all

theorem frontTask?_eq_none (hStack : r.stack = []) : r.frontTask? = none := by
  simp [frontTask?, front?, hStack]

theorem seek_eq_standby_of_nil (hStack : r.stack = []) (h : r.find? t = some id) :
    r.seek t = .standby id := by
  simp [seek, frontTask?_eq_none hStack, h]

theorem seek_eq_nowhere_of_nil (hStack : r.stack = []) (h : r.find? t = none) :
    r.seek t = .nowhere := by
  simp [seek, frontTask?_eq_none hStack, h]

theorem isFirst_of_seek (h : r.seek t = .standby id) : r.IsFirst t id :=
  (find?_eq_some_iff.mp (seek_eq_standby_iff.mp h).2).2

theorem mem_standby_of_seek (h : r.seek t = .standby id) : id ∈ r.standby :=
  (isFirst_of_seek h).mem

/-- Two rosters that agree in everything that a run leaves alone. -/
structure Akin (r s : Roster) : Prop where
  size : s.size = r.size
  globals : s.globals = r.globals
  standby : s.standby = r.standby
  profile : ∀ id, (s.task? id).map Task.profile = (r.task? id).map Task.profile

namespace Akin

theorem refl (r : Roster) : Akin r r := ⟨rfl, rfl, rfl, fun _ => rfl⟩

theorem symm (h : Akin r s) : Akin s r :=
  ⟨h.size.symm, h.globals.symm, h.standby.symm, fun id => (h.profile id).symm⟩

theorem trans {u : Roster} (h : Akin r s) (h' : Akin s u) : Akin r u :=
  ⟨h'.size.trans h.size, h'.globals.trans h.globals, h'.standby.trans h.standby,
    fun id => (h'.profile id).trans (h.profile id)⟩

theorem of_modify {f : Task → Task} (hf : ∀ x, (f x).profile = x.profile) :
    Akin r (r.modify id f) where
  size := size_modify r id f
  globals := rfl
  standby := rfl
  profile j := by
    rw [task?_modify]
    split
    · cases r.task? j <;> simp [hf]
    · rfl

theorem exists_task? (h : Akin r s) {x : Task} (hx : r.task? id = some x) :
    ∃ y, s.task? id = some y ∧ y.profile = x.profile := by
  have hProfile := h.profile id
  rw [hx, Option.map_some] at hProfile
  exact Option.map_eq_some_iff.mp hProfile

theorem any_fits (h : Akin r s) (t : Target) (id : TaskId) :
    (s.task? id).any t.fits = (r.task? id).any t.fits := by
  cases hr : r.task? id with
  | none =>
    have hProfile := h.profile id
    rw [hr, Option.map_none, Option.map_eq_none_iff] at hProfile
    rw [hProfile]
  | some x =>
    obtain ⟨y, hy, hProfile⟩ := h.exists_task? hr
    rw [hy, Option.any_some, Option.any_some, Target.fits_congr hProfile]

theorem map_frontTask? (h : Akin r s) (hStack : s.stack = r.stack) :
    s.frontTask?.map Task.profile = r.frontTask?.map Task.profile := by
  rw [frontTask?, frontTask?, front?, front?, hStack]
  cases r.stack with
  | nil => rfl
  | cons id rest => exact h.profile id

theorem names (h : Akin r s) (ids : List TaskId) : s.names ids = r.names ids := by
  have hName : ∀ id, (s.task? id).map Task.name = (r.task? id).map Task.name := by
    intro id
    have hProfile := congrArg (Option.map Profile.name) (h.profile id)
    rwa [Option.map_map, Option.map_map] at hProfile
  rw [Roster.names, Roster.names, funext hName]

theorem isFirst_iff (h : Akin r s) : s.IsFirst t id ↔ r.IsFirst t id := by
  simp only [IsFirst, h.standby, h.any_fits]

theorem find? (h : Akin r s) (t : Target) : s.find? t = r.find? t := by
  apply Option.ext
  intro id
  rw [find?_eq_some_iff, find?_eq_some_iff, h.isFirst_iff]

end Akin

end Roster

end Sortie
