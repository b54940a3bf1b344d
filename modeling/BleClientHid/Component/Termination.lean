import BleClientHid.Component.CourseRefinement

/-! # Setup terminates

Every transition is paid from the budget of its phase, and a `loop()` after the
deadline makes one.
-/

namespace BleClientHid

open Setup BLEClientHID

/-! ## The clock of a phase -/

/-- The phase and its clock are the same, or there was a transition. -/
def Ticks (s t : BLEClientHID) : Prop :=
  t.setupPhase = s.setupPhase ∧ t.phaseStartedMs = s.phaseStartedMs ∨ s.course.turns < t.course.turns

section

variable {env : Env} {fails : Bool} {s t u : BLEClientHID}

theorem Ticks.refl (s : BLEClientHID) : Ticks s s := .inl ⟨rfl, rfl⟩

theorem Ticks.trans (h : Ticks s t) (h' : Ticks t u) (hle : s.course.turns ≤ t.course.turns)
    (hle' : t.course.turns ≤ u.course.turns) : Ticks s u := by
  rcases h with ⟨hphase, hstarted⟩ | hlt
  · rcases h' with ⟨hphase', hstarted'⟩ | hlt'
    · exact .inl ⟨hphase'.trans hphase, hstarted'.trans hstarted⟩
    · exact .inr (hle.trans_lt hlt')
  · exact .inr (hlt.trans_le hle')

theorem transition_turns (env : Env) (phase : SetupPhase) {entries : List TraceEntry}
    (h : t.trace = s.trace ++ entries) :
    s.course.turns < (t.transition env phase).course.turns := by
  change (transitions s.trace).length < (transitions (t.trace ++ [.transition phase])).length
  rw [h, transitions_append, transitions_append, List.length_append, List.length_append]
  exact Nat.lt_succ_of_le (Nat.le_add_right ..)

theorem finalizeSetup_turns (env : Env) {entries : List TraceEntry} (h : t.trace = s.trace ++ entries) :
    s.course.turns < (t.finalizeSetup env).course.turns := by
  rw [finalizeSetup_eq]
  change (transitions s.trace).length < (transitions (t.trace ++ _ ++ [.transition t.finalPhase])).length
  rw [h, transitions_append, transitions_append, transitions_append]
  simp only [List.length_append, transitions_params]
  exact Nat.lt_succ_of_le (Nat.le_add_right ..)

theorem inventoryGattDatabase_started (env : Env) (s : BLEClientHID) :
    (s.inventoryGattDatabase env).1.phaseStartedMs = s.phaseStartedMs := by
  obtain ⟨t, services, hash, ⟨reasons, rfl⟩, -, heq⟩ := inventoryGattDatabase_spec env s
  rw [heq]
  rfl

theorem Act.ticks (hact : Act env fails s t) : Ticks s t := by
  cases hact with
  -- first the acts that stay in the phase
  | beside h => exact .inl ⟨congrArg Setup.setupPhase h.setup, h.started⟩
  | inventory =>
    refine .inl ⟨?_, inventoryGattDatabase_started env s⟩
    obtain ⟨t, services, hash, ⟨reasons, rfl⟩, -, heq⟩ := inventoryGattDatabase_spec env s
    rw [heq]
    rfl
  | finishRead operation status value hactive =>
    obtain ⟨contexts, sources, d, reasons, n, hsetup, -, hstarted⟩ :=
      finishActiveRead_finished env status value hactive
    exact .inl ⟨congrArg Setup.setupPhase hsetup, hstarted⟩
  | request | startRead | begin | registrationIgnored | cccdIgnored | retry | writeCccd => exact .inl ⟨rfl, rfl⟩
  | readNotScheduled =>
    rw [operationFailed_eq]
    exact .inl ⟨rfl, rfl⟩
  | beginWithoutCccd | notScheduled =>
    rw [giveUp_eq]
    exact .inl ⟨rfl, rfl⟩
  | writeMode handle rest hphase hhandles =>
    rw [nextProtocolModeWrite_eq env hhandles]
    exact .inl ⟨rfl, rfl⟩
  -- then those that turn it, with a `transition_` in the log
  | inventoryFailed => exact .inr (finalizeSetup_turns env rfl)
  | noHid | readsDone => exact .inr (transition_turns env _ (List.append_nil _).symm)
  | planReads =>
    obtain ⟨u, queue, handles, ⟨reasons, rfl⟩, -, heq⟩ := planReads_spec s
    rw [heq]
    exact .inr (transition_turns env _ rfl)
  | buildProfiles =>
    obtain ⟨d, contexts, sources, heq⟩ := s.buildHidProfiles_profiles
    exact .inr (transition_turns env _ ((congrArg Setup.trace heq).trans (List.append_nil _).symm))
  | planSubscriptions =>
    obtain ⟨queue, battery, changed, u, ⟨reasons, rfl⟩, -, heq⟩ := planSubscriptions_spec s
    rw [heq]
    exact .inr (transition_turns env _ rfl)
  | registered | complete =>
    exact .inr (transition_turns env _ (by simp [log, resetSubscription]; rfl))
  | registrationFailed | writeRejected | cccdFailed =>
    rw [giveUp_eq]
    exact .inr (transition_turns env _ (by simp [log]; rfl))
  | finish => exact .inr (finalizeSetup_turns env (List.append_nil _).symm)

theorem Acts.ticks (hacts : Acts env fails s t) (haligned : Aligned s.setup) (hphased : Phased s.setup)
    (h : OnCourse s) : Ticks s t ∧ s.course.turns ≤ t.course.turns ∧ rank s.setupPhase ≤ rank t.setupPhase := by
  induction hacts with
  | refl => exact ⟨.refl s, le_refl _, le_refl _⟩
  | tail hacts hact ih =>
    obtain ⟨hticks, hle, hrank⟩ := ih
    have hcourse := (Acts.onCourse_accounts hacts haligned hphased h).1
    obtain ⟨haligned, hphased⟩ := Acts.aligned_phased hacts haligned hphased
    have hfollows := hact.follows hphased hcourse.staged hcourse.forward
    have hle' := hfollows.step.turns_le
    exact ⟨hticks.trans hact.ticks hle hle', hle.trans hle', hrank.trans hfollows.enters.rank_le⟩

/-! ## Steps -/

theorem beside_turns (h : Beside s t) : t.course.turns = s.course.turns :=
  congrArg (fun u : Setup => (transitions u.trace).length) h.setup

theorem Deadline.turns_lt (hdeadline : Deadline env s t) : s.course.turns < t.course.turns :=
  hdeadline.follows.step.turns_lt

theorem step_goes_on (h : Reachable s) (event : Event) (hsearched : beforeSearch s.setupPhase = false)
    (hstays : event.resetsConnection = false) (hone : (step s event).OneSearch) :
    s.course.turns ≤ (step s event).course.turns ∧ rank s.setupPhase ≤ rank (step s event).setupPhase := by
  obtain ⟨haligned, hphased⟩ := reachable_phased h
  have hcourse := reachable_onCourse h
  have hturn := step_turn s haligned event
  generalize step s event = t at hturn hone
  cases hturn with
  | acts hacts => exact (Acts.ticks hacts haligned hphased hcourse).2
  | @deadline env u _ hacts hoverdue hdeadline hbeside =>
    obtain ⟨-, hle, hrank⟩ := Acts.ticks hacts haligned hphased hcourse
    rw [beside_turns hbeside, show t.setupPhase = u.setupPhase from congrArg Setup.setupPhase hbeside.setup]
    exact ⟨hle.trans hdeadline.turns_lt.le, hrank.trans hdeadline.follows.enters.rank_le⟩
  | connect hreset | disconnect hreset => simp [hstays] at hreset
  | search status => simp [search_first h hone] at hsearched

theorem loop_progress (h : Reachable s) (env : Env) (hphase : waits s.setupPhase = false)
    (hdue : elapsed env.timeoutMs s.phaseStartedMs phaseTimeoutMs = true) :
    s.course.turns < (step s (.loop env)).course.turns := by
  obtain ⟨haligned, hphased⟩ := reachable_phased h
  have hacts : Acts env false s (s.loopPhase env) := loopPhase_acts env s
  obtain ⟨hticks, hle, -⟩ := Acts.ticks hacts haligned hphased (reachable_onCourse h)
  have hbeside : s.loopSetup env |>.Beside (s.loop env) := loop_beside env s
  change s.course.turns < (s.loop env).course.turns
  rw [beside_turns hbeside]
  cases hover : waits (s.loopPhase env).setupPhase ||
      !elapsed env.timeoutMs (s.loopPhase env).phaseStartedMs phaseTimeoutMs with
  | true =>
    rw [show s.loopSetup env = s.loopPhase env from handlePhaseTimeout_of_not_due env hover]
    rcases hticks with ⟨hsame, hstarted⟩ | hlt
    · -- the same phase with the same clock is still overdue
      rw [hsame, hstarted, hphase, hdue] at hover
      simp at hover
    · exact hlt
  | false => exact hle.trans_lt (handlePhaseTimeout_deadline env hover).turns_lt

end

/-! ## Schedules -/

/-- The states along an endless schedule. -/
def stateAt (s : BLEClientHID) (schedule : ℕ → Event) : ℕ → BLEClientHID
  | 0 => s
  | n + 1 => step (stateAt s schedule n) (schedule n)

/-- One connection, with one search completion. -/
structure OneConnection (s : BLEClientHID) (schedule : ℕ → Event) : Prop where
  stays : ∀ n, (schedule n).resetsConnection = false
  oneSearch : ∀ n, (stateAt s schedule n).OneSearch

/-- Again and again `loop()` runs when the time of the phase is over. -/
def LoopRuns (s : BLEClientHID) (schedule : ℕ → Event) : Prop :=
  ∀ n, ∃ m ≥ n, ∃ env, schedule m = .loop env ∧
    elapsed env.timeoutMs (stateAt s schedule m).phaseStartedMs phaseTimeoutMs = true

section

variable {s : BLEClientHID} {schedule : ℕ → Event}

theorem stateAt_reachable (h : Reachable s) (hone : OneConnection s schedule) (n : ℕ) :
    Reachable (stateAt s schedule n) := by
  induction n with
  | zero => exact h
  | succ n ih => exact .step (schedule n) ih (hone.oneSearch (n + 1))

theorem rank_pos_iff (phase : SetupPhase) : 0 < rank phase ↔ beforeSearch phase = false := by
  cases phase <;> simp [rank, beforeSearch]

theorem stateAt_searched (h : Reachable s) (hone : OneConnection s schedule)
    (hsearched : beforeSearch s.setupPhase = false) (n : ℕ) :
      beforeSearch (stateAt s schedule n).setupPhase = false := by
  induction n with
  | zero => exact hsearched
  | succ n ih =>
    obtain ⟨-, hrank⟩ := step_goes_on (stateAt_reachable h hone n) (schedule n) ih (hone.stays n)
      (hone.oneSearch (n + 1))
    rw [← rank_pos_iff] at ih ⊢
    exact ih.trans_le hrank

theorem stateAt_goes_on (h : Reachable s) (hone : OneConnection s schedule)
    (hsearched : beforeSearch s.setupPhase = false) :
    Monotone (fun n => (stateAt s schedule n).course.turns) ∧
      Monotone fun n => rank (stateAt s schedule n).setupPhase := by
  have hstep (n : ℕ) := step_goes_on (stateAt_reachable h hone n) (schedule n) (stateAt_searched h hone hsearched n)
    (hone.stays n) (hone.oneSearch (n + 1))
  exact ⟨monotone_nat_of_le_succ fun n => (hstep n).1, monotone_nat_of_le_succ fun n => (hstep n).2⟩

theorem turns_le (h : Reachable s) : s.course.turns ≤ 7 + 2 * s.setup.plannedSubscriptions.length := by
  have hbounded := (reachable_onCourse h).bounded
  unfold Course.Bounded at hbounded
  exact (Nat.le_add_right ..).trans hbounded

theorem plannedSubscriptions_le (s : Setup) : s.plannedSubscriptions.length ≤ maxSubscriptions := by
  unfold plannedSubscriptions
  split
  · exact List.length_take_le ..
  · exact Nat.zero_le _

theorem settled_iff (phase : SetupPhase) : settled phase = true ↔ 6 ≤ rank phase := by
  cases phase <;> simp [settled, rank]

theorem waits_of_unsettled {phase : SetupPhase} (hsearched : beforeSearch phase = false)
    (h : settled phase = false) :
    waits phase = false := by
  revert hsearched h
  cases phase <;> simp [settled, waits, beforeSearch]

/-- Without an end, the turns would grow for ever. -/
theorem eventually_settled (h : Reachable s) (hone : OneConnection s schedule)
    (hsearched : beforeSearch s.setupPhase = false) (hruns : LoopRuns s schedule) :
    ∃ n, settled (stateAt s schedule n).setupPhase = true := by
  by_contra hnever
  simp only [not_exists, Bool.not_eq_true] at hnever
  obtain ⟨hmono, -⟩ := stateAt_goes_on h hone hsearched
  have hgrows (k : ℕ) : ∃ n, k ≤ (stateAt s schedule n).course.turns := by
    induction k with
    | zero => exact ⟨0, Nat.zero_le _⟩
    | succ k ih =>
      obtain ⟨n, hn⟩ := ih
      obtain ⟨m, hm, env, hloop, hdue⟩ := hruns n
      have hphase := waits_of_unsettled (stateAt_searched h hone hsearched m) (hnever m)
      have hlt := loop_progress (stateAt_reachable h hone m) env hphase hdue
      rw [← hloop] at hlt
      exact ⟨m + 1, (hn.trans (hmono hm)).trans_lt hlt⟩
  obtain ⟨n, hn⟩ := hgrows (8 + 2 * maxSubscriptions)
  have hle := turns_le (stateAt_reachable h hone n)
  have hplanned := plannedSubscriptions_le (stateAt s schedule n).setup
  omega

end

/-! ## The law -/

/-- `ends` is about a connection whose search has completed. -/
structure Terminates (s : BLEClientHID) : Prop where
  bounded : ∀ after, transitions s.trace = .waitingForDiscovery :: after →
    after.length ≤ 6 + 2 * s.setup.plannedSubscriptions.length
  deadline : ∀ env, waits s.setupPhase = false → elapsed env.timeoutMs s.phaseStartedMs phaseTimeoutMs = true →
    (transitions s.trace).length < (transitions (step s (.loop env)).trace).length
  ends : ∀ schedule, beforeSearch s.setupPhase = false → OneConnection s schedule → LoopRuns s schedule →
    ∃ n, ∀ m ≥ n, settled (stateAt s schedule m).setupPhase = true

theorem terminates {s : BLEClientHID} (h : Reachable s) : Terminates s where
  bounded := by
    intro after hafter
    have hle : (transitions s.trace).length ≤ _ := turns_le h
    rw [hafter, List.length_cons] at hle
    omega
  deadline := fun env hphase hdue => loop_progress h env hphase hdue
  ends := by
    intro schedule hsearched hone hruns
    obtain ⟨n, hn⟩ := eventually_settled h hone hsearched hruns
    refine ⟨n, fun m hm => ?_⟩
    rw [settled_iff] at hn ⊢
    exact hn.trans ((stateAt_goes_on h hone hsearched).2 hm)

/-- A keyboard whose Report Map is never answered, at the deadline of its reads. -/
theorem terminates_keyboard :
    let s := run (initial .standard .unchanged 0) (keyboardSetup.take 4)
    s.setupPhase = .reading ∧ transitions s.trace = [.waitingForDiscovery, .inventory, .reading] ∧ Terminates s :=
  ⟨by decide +kernel, by decide +kernel, terminates (reachable_run (.initial ..) _ (by decide +kernel))⟩

end BleClientHid
