import Sortie.Proofs.Mission.Targeting

/-!
# Orders that are repeated

An order leaves a front that fits its target, or its target is nowhere. In both
cases a further order for the same target finds what the first one left, so it
touches neither a task nor the stack. What it can still do is to move the center
of the orbit, or to report once more that the task is missing.
-/

namespace Sortie

namespace Order

variable {o : Order} {os : List Order} {t : Target}

/-- Only an order to circle a point wants the task that circles it. -/
theorem target_eq_circle_iff :
    o.target = .nickname circleNickname ↔ ∃ center, o = circle center := by
  constructor
  · intro h
    cases o with
    | circle center => exact ⟨center, rfl⟩
    | home | descent => exact absurd (Target.nickname.inj h) (by decide)
    | idle | land | preflight | named => cases h
  · rintro ⟨center, rfl⟩
    rfl

theorem publish_atFront (h : o.target ≠ .nickname circleNickname) (b : Board) :
    o.publish .atFront b = b := by
  cases o with
  | circle center => exact absurd rfl h
  | _ => rfl

/-- What orders write whose target is at the front all the time. -/
def publishAll (os : List Order) (b : Board) : Board :=
  os.foldl (fun b o => o.publish .atFront b) b

/-- What is left of orders for one target is what the last of them writes. -/
theorem publishAll_eq (hSame : ∀ o ∈ os, o.target = t) (b : Board) :
    publishAll os b = match os.getLast? with
      | some (circle center) => b.setCircleTarget (center.getD b.position)
      | _ => b := by
  induction os generalizing b with
  | nil => rfl
  | cons o os ih =>
    obtain ⟨hHead, hTail⟩ := List.forall_mem_cons.mp hSame
    have hStep : publishAll (o :: os) b = publishAll os (o.publish .atFront b) := rfl
    rw [hStep, ih hTail, List.getLast?_cons]
    cases hLast : os.getLast? with
    | none => cases o <;> rfl
    | some last =>
      have hTarget : last.target = o.target :=
        (hTail last (List.mem_of_getLast? hLast)).trans hHead.symm
      -- a later order for the orbit overwrites the center, and any other wrote nothing
      by_cases hCircle : o.target = .nickname circleNickname
      · obtain ⟨_, rfl⟩ := target_eq_circle_iff.mp hCircle
        obtain ⟨_, rfl⟩ := target_eq_circle_iff.mp (hTarget.trans hCircle)
        rfl
      · rw [publish_atFront hCircle]
        rfl

end Order

namespace Roster

variable {r : Roster} {t : Target} {id : TaskId}

theorem seek_eq_atFront_iff : r.seek t = .atFront ↔ r.AtFront t := by
  refine ⟨fun h => ?_, seek_of_atFront⟩
  rw [atFront_iff]
  by_cases hFits : r.frontTask?.any t.fits
  · exact hFits
  · rw [seek, if_neg hFits] at h
    cases hFind : r.find? t <;> rw [hFind] at h <;> cases h

theorem atFront_raise (h : r.seek t = .standby id) : (r.raise id).AtFront t := by
  obtain ⟨x, hTask, hFits⟩ := (isFirst_of_seek h).fits
  refine ⟨id, x.activate, rfl, ?_, ?_⟩
  · rw [task?_raise, if_pos rfl, hTask, Option.map_some]
  · rwa [Target.fits_congr x.profile_activate]

end Roster

namespace Mission

open Roster

variable {m : Mission} {o : Order} {os : List Order} {t : Target}

theorem roster_order (m : Mission) (o : Order) :
    (m.order o).mission.roster = match m.roster.seek o.target with
      | .standby id => m.roster.raise id
      | _ => m.roster :=
  roster_engage (m.write (o.publish (m.roster.seek o.target))) o.target

/-- Whatever an order finds or pushes is at the front afterwards. -/
theorem atFront_order (h : m.roster.seek o.target ≠ .nowhere) :
    (m.order o).mission.roster.AtFront o.target := by
  rw [roster_order]
  cases hSeek : m.roster.seek o.target with
  | nowhere => exact absurd hSeek h
  | atFront => exact seek_eq_atFront_iff.mp hSeek
  | standby id => exact atFront_raise hSeek

theorem order_of_atFront (h : m.roster.AtFront o.target) :
    m.order o = (m.write (o.publish .atFront)).stay := by
  have hSeek := seek_of_atFront h
  simp only [order, engage, roster_write, hSeek]

theorem order_of_nowhere (h : m.roster.seek o.target = .nowhere) :
    m.order o = (m.write (o.publish .nowhere)).emit (.missing o.target) := by
  simp only [order, engage, roster_write, h]

def requests (os : List Order) : List Op := os.map fun o => .request (.order o)

theorem run_requests_of_atFront (hSame : ∀ o ∈ os, o.target = t) (h : m.roster.AtFront t) :
    m.run (requests os) = (m.write (Order.publishAll os)).stay := by
  induction os generalizing m with
  | nil => rfl
  | cons o os ih =>
    obtain ⟨rfl, hTail⟩ := List.forall_mem_cons.mp hSame
    have hStep : m.run (requests (o :: os)) = (m.order o).andThen (run (requests os)) := rfl
    rw [hStep, order_of_atFront h, Outcome.andThen, mission_stay,
      ih (m := m.write (o.publish .atFront)) hTail h]
    rfl

theorem run_requests_of_nowhere (hSame : ∀ o ∈ os, o.target = t) (h : m.roster.seek t = .nowhere) :
    (m.run (requests os)).mission.roster = m.roster ∧ (m.run (requests os)).report.calls = [] := by
  induction os generalizing m with
  | nil => exact ⟨rfl, rfl⟩
  | cons o os ih =>
    obtain ⟨rfl, hTail⟩ := List.forall_mem_cons.mp hSame
    have hStep : m.run (requests (o :: os)) = (m.order o).andThen (run (requests os)) := rfl
    rw [hStep, order_of_nowhere h]
    exact ih (m := m.write (o.publish .nowhere)) hTail h

/--
Once an order has been carried out, further orders for the same target change no
task and no list of the roster and call no hook, whatever else they ask for. If
the first one found its task, at the front or in the catalog, the front fits the
target; then the further ones report nothing, and only a last order to circle a
point leaves a trace, which is its center.
-/
theorem repeated_order (m : Mission) (o : Order) (more : List Order)
    (hSame : ∀ o' ∈ more, o'.target = o.target) :
    let first := (m.order o).mission
    let again := first.run (requests more)
    again.mission.roster = first.roster ∧ again.report.calls = [] ∧
    (m.roster.seek o.target ≠ .nowhere → first.roster.AtFront o.target) ∧
    (first.roster.AtFront o.target → again.report.events = [] ∧
      again.mission.board = match more.getLast? with
        | some (.circle center) =>
          { first.board with circle :=
            { first.board.circle with target := center.getD first.board.position } }
        | _ => first.board) := by
  intro first again
  have hFits : first.roster.AtFront o.target → again = (first.write (Order.publishAll more)).stay :=
    run_requests_of_atFront hSame
  have hRoster : again.mission.roster = first.roster ∧ again.report.calls = [] := by
    by_cases hSeek : m.roster.seek o.target = .nowhere
    · have hKept : first.roster = m.roster := by
        rw [roster_order, hSeek]
      exact run_requests_of_nowhere hSame (hKept ▸ hSeek)
    · rw [hFits (atFront_order hSeek)]
      exact ⟨rfl, rfl⟩
  refine ⟨hRoster.1, hRoster.2, atFront_order, fun hFront => ?_⟩
  rw [hFits hFront]
  exact ⟨rfl, Order.publishAll_eq hSame first.board⟩

/-- The first order pushes the orbit, and the further ones only move its center. -/
theorem repeated_order_circle :
    let p : Plan := {
      globals := [{ name := "camera" }]
      sequence := [{ name := "route" }]
      standby := [{ name := "circle-coord", task := some "circle", nickname := some "circle_target" }] }
    let m := (launch p {}).mission
    let more : List Order := [.circle none, .circle (some { lon := -93.5, lat := 45.25 })]
    let first := (m.order (.circle (some { lon := 1, lat := 2 }))).mission
    let again := first.run (requests more)
    (∀ o' ∈ more, o'.target = (Order.circle (some { lon := 1, lat := 2 })).target) ∧
      first.roster.stack = [2, 1] ∧ again.mission.roster = first.roster ∧
      again.report.calls = [] ∧ again.report.events = [] ∧
      again.mission.board.circle.target = { lon := -93.5, lat := 45.25 } := by
  intro p m more
  have hSame : ∀ o' ∈ more, o'.target = (Order.circle (some { lon := 1, lat := 2 })).target := by
    decide
  obtain ⟨hRoster, hCalls, hFound, hFront⟩ := repeated_order m _ more hSame
  obtain ⟨hEvents, hBoard⟩ := hFront (hFound (by decide +kernel))
  refine ⟨hSame, by decide +kernel, hRoster, hCalls, hEvents, ?_⟩
  rw [hBoard]
  rfl

end Mission

end Sortie
