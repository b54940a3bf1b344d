import BleClientHid.Component.CourseRefinement

/-! # The outcomes of the planned operations

An operation that leaves its queue is counted, unless a deadline drops it with
others: the deadline counts once.
-/

namespace BleClientHid

open Setup BLEClientHID

/-- When the deadline passes, at most one operation of the phase is queued or under way. -/
def DropsOne (s : BLEClientHID) : Event → Prop
  | .loop env => (s.loopPhase env).overdue env = true → (s.loopPhase env).course.outstanding ≤ 1
  | .gattc .. => True

instance (s : BLEClientHID) (event : Event) : Decidable (DropsOne s event) :=
  match event with
  | .loop env => inferInstanceAs (Decidable ((s.loopPhase env).overdue env = true → _ ≤ 1))
  | .gattc .. => inferInstanceAs (Decidable True)

section

variable {s t : BLEClientHID}

theorem beside_course (h : Beside s t) : t.course = s.course := by
  unfold course counted
  rw [h.setup, h.succeeded, h.failed]

/-- A step accounts for what leaves the queues, or begins or ends the connection. -/
theorem step_accounts_or_starts (h : Reachable s) {event : Event} (hone : (step s event).OneSearch)
    (hdrops : DropsOne s event) :
    Course.Accounts s.course (step s event).course ∨
      event.resetsConnection = true ∧ ∃ phase, (step s event).course = .start phase := by
  obtain ⟨haligned, hphased⟩ := reachable_phased h
  have hcourse := reachable_onCourse h
  have hturn := step_turn s haligned event
  generalize step s event = t at hturn hone
  cases hturn with
  | acts hacts => exact .inl (Acts.onCourse_accounts hacts haligned hphased hcourse).2
  | deadline hacts hoverdue hdeadline hbeside =>
    rw [beside_course hbeside]
    have haccounts := (Acts.onCourse_accounts hacts haligned hphased hcourse).2
    exact .inl (haccounts.trans (hdeadline.follows.step.accounts_iff.mpr (hdrops hoverdue)))
  | connect hreset => exact .inr ⟨hreset, _, (start_course s event.env).1⟩
  | disconnect hreset => exact .inr ⟨hreset, _, (start_course s event.env).2⟩
  | search status => exact .inl (search_follows event.env status (search_first h hone)).step.accounts

/-- Every planned operation is counted or outstanding, in every run whose deadlines drop one operation at most. -/
theorem reachable_counted (h : ReachableWhen DropsOne s) : s.course.Counted := by
  induction h with
  | initial => exact Nat.zero_le _
  | step event h hone hdrops ih =>
    rcases step_accounts_or_starts h.reachable hone hdrops with haccounts | ⟨-, phase, heq⟩
    · exact haccounts.counted ih
    · rw [heq]
      exact Nat.zero_le _

theorem outstanding_final {c : Course} (h : c.phase = .ready ∨ c.phase = .degraded) : c.outstanding = 0 := by
  unfold Course.outstanding
  rcases h with h | h <;> rw [h]

theorem overdue_deadline {env : Env} (h : s.overdue env = true) : Deadline env s (s.handlePhaseTimeout env) := by
  unfold overdue at h
  rw [Bool.and_eq_true, Bool.not_eq_true'] at h
  exact handlePhaseTimeout_deadline env (by rw [h.1, h.2]; rfl)

end

/-! ## The law -/

/-- `final` holds whenever `finalize_setup_` has run, and `step` tells the operations apart: each is
counted by the step in which it leaves. -/
structure OutcomesKnown (s : BLEClientHID) : Prop where
  final : s.setupPhase = .ready ∨ s.setupPhase = .degraded →
    s.setup.plannedReads.length + s.setup.plannedWrites.length + s.setup.plannedSubscriptions.length ≤
      s.operationsSucceeded + s.operationsFailed
  step : ∀ event, event.resetsConnection = false → (step s event).OneSearch → DropsOne s event →
    Course.Accounts s.course (step s event).course
  deadline : ∀ env, s.overdue env = true →
    (Course.Accounts s.course (s.handlePhaseTimeout env).course ↔ s.course.outstanding ≤ 1)

theorem outcomes_known {s : BLEClientHID} (h : ReachableWhen DropsOne s) : OutcomesKnown s where
  final := by
    intro hfinal
    have hcounted := reachable_counted h
    unfold Course.Counted at hcounted
    rw [outstanding_final hfinal] at hcounted
    exact hcounted
  step := by
    intro event hstays hone hdrops
    rcases step_accounts_or_starts h.reachable hone hdrops with haccounts | ⟨hreset, -⟩
    · exact haccounts
    · simp [hstays] at hreset
  deadline := fun env hover => (overdue_deadline hover).follows.step.accounts_iff

/-! ## Deadlines of a keyboard -/

/-- The `loop()` of a keyboard when the time of its phase is over. -/
def lateLoop : Event := .loop { exampleEnv keyboardServices with timeoutMs := 60000 }

/-- The Report Map is read, the Report Reference is asked for and given up. -/
def referenceTimedOut : List Event :=
  keyboardSetup.take 5 ++ [lateLoop] ++ exampleRun keyboardServices ([none, none] ++ subscribe)

theorem outcomes_known_reference :
    let s := run (initial .standard .unchanged 0) referenceTimedOut
    s.setupPhase = .degraded ∧ s.course.planned = 3 ∧ s.counted = 3 ∧ OutcomesKnown s :=
  ⟨by decide +kernel, by decide +kernel, by decide +kernel,
    outcomes_known (reachableWhen_run (.initial ..) _ (by decide +kernel) (by decide +kernel))⟩

/-- Both reads are given up at once. -/
def readsTimedOut : List Event :=
  keyboardSetup.take 3 ++ [lateLoop] ++ exampleRun keyboardServices ([none, none] ++ subscribe)

theorem readsTimedOut_unknown :
    let s := run (initial .standard .unchanged 0) readsTimedOut
    Reachable s ∧ s.setupPhase = .degraded ∧ s.operationsSucceeded + s.operationsFailed = 2 ∧
      s.setup.plannedReads.length + s.setup.plannedWrites.length + s.setup.plannedSubscriptions.length = 3 :=
  ⟨reachable_run (.initial ..) _ (by decide +kernel), by decide +kernel, by decide +kernel, by decide +kernel⟩

end BleClientHid
