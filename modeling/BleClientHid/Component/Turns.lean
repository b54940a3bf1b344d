import BleClientHid.Component.Phases

/-! # Whole steps

A step is a chain of acts, maybe with a deadline at its end, or a new connection,
or the answer of the service search.
-/

namespace BleClientHid

open Setup BLEClientHID

/-- The setup part of `loop()` up to the deadline. -/
def BLEClientHID.loopPhase (env : Env) (s : BLEClientHID) : BLEClientHID := s.requestPendingRediscovery.runPhase env

/-- The deadline of the phase has passed. -/
def BLEClientHID.overdue (env : Env) (s : BLEClientHID) : Bool :=
  !waits s.setupPhase && elapsed env.timeoutMs s.phaseStartedMs phaseTimeoutMs

/-- What one event does to the component. -/
inductive Turn (s : BLEClientHID) : Event → BLEClientHID → Prop where
  | acts {event : Event} {t : BLEClientHID} (h : Acts event.env (event.failsCccd s) s t) : Turn s event t
  | deadline {env : Env} {t u : BLEClientHID} (h : Acts env false s (s.loopPhase env))
      (hoverdue : (s.loopPhase env).overdue env = true) (hdeadline : Deadline env (s.loopPhase env) t)
      (hbeside : Beside t u) : Turn s (.loop env) u
  | connect {event : Event} (hreset : event.resetsConnection = true) :
      Turn s event ((s.resetConnectionState.transition event.env .waitingForDiscovery).log .setEncryption)
  | disconnect {event : Event} (hreset : event.resetsConnection = true) :
      Turn s event (s.resetConnectionState.transition event.env .disconnected)
  | search {event : Event} (status : GattStatus) : Turn s event (s.handleSearchComplete event.env status)

theorem loopPhase_acts (env : Env) (s : BLEClientHID) {fails : Bool} : Acts env fails s (s.loopPhase env) :=
  (requestPendingRediscovery_acts env s).trans (runPhase_acts env _)

theorem loop_turn (env : Env) (s : BLEClientHID) : Turn s (.loop env) (s.loop env) := by
  have hacts : Acts env false s (s.loopPhase env) := loopPhase_acts env s
  have hbeside := loop_beside env s
  cases hdue : waits (s.loopPhase env).setupPhase ||
      !elapsed env.timeoutMs (s.loopPhase env).phaseStartedMs phaseTimeoutMs with
  | true =>
    have hsame : s.loopSetup env = s.loopPhase env := handlePhaseTimeout_of_not_due env hdue
    rw [hsame] at hbeside
    exact .acts (hacts.tail (.beside hbeside))
  | false =>
    refine .deadline hacts ?_ (handlePhaseTimeout_deadline env hdue) hbeside
    rw [Bool.or_eq_false_iff, Bool.not_eq_false'] at hdue
    rw [overdue, hdue.1, hdue.2]
    rfl

theorem handleGattcEvent_turn (env : Env) (event : GattcEvent) (gattcIf : Option Nat) (s : BLEClientHID)
    (h : Aligned s.setup)
    (hpassed : Event.resetsConnection (.gattc env event gattcIf) = BLEClientHID.resetsConnection env event) :
    Turn s (.gattc env event gattcIf) (s.handleGattcEvent env event) := by
  have hbeside {t : BLEClientHID} (h : Beside s t) : Turn s (.gattc env event gattcIf) t :=
    .acts (.single (.beside h))
  cases event with
  | connect remoteBda =>
    rw [handleGattcEvent]
    split
    · rename_i hbda
      exact .connect (hpassed.trans (by simp [BLEClientHID.resetsConnection, hbda]))
    · exact .acts .refl
  | disconnect remoteBda =>
    rw [handleGattcEvent]
    split
    · rename_i hbda
      exact .disconnect (hpassed.trans (by simp [BLEClientHID.resetsConnection, hbda]))
    · exact .acts .refl
  | searchCmpl connId status =>
    rw [handleGattcEvent]
    split
    · exact .search status
    · exact .acts .refl
  | read connId handle status value =>
    rw [handleGattcEvent]
    split
    · exact .acts (handleRead_acts env s handle status value)
    · exact .acts .refl
  | regForNotify handle status => exact .acts (handleRegistrationResult_acts env h handle status)
  | writeDescr connId handle status =>
    rw [handleGattcEvent]
    split
    · -- a failed attempt is an act of its own, the other answers are acts that fail nothing
      by_cases hfailed : (s.subscriptionState.cccdResult handle (status == .ok)).2 = .failed
      · obtain ⟨sub, hactive, hstage, hown, heq⟩ := handleCccdResult_failed env h handle status hfailed
        have hfails : s.failsCccd (.writeDescr connId handle status) = true := by
          rw [BLEClientHID.failsCccd, hfailed]
          rfl
        rw [heq]
        exact .acts (.single (.cccdFailed sub hfails hactive hstage hown))
      · exact .acts (handleCccdResult_acts env h handle status hfailed)
    · exact .acts .refl
  | notify connId remoteBda handle value isNotify =>
    rw [handleGattcEvent]
    split
    · exact hbeside (handleNotification_beside env handle value isNotify s)
    · exact .acts .refl
  | srvcChg | congest | queueFull =>
    -- flags beside the setup
    rw [handleGattcEvent]
    split
    · exact hbeside ⟨rfl, rfl, rfl, rfl⟩
    · exact .acts .refl
  | other => exact .acts .refl

theorem step_turn (s : BLEClientHID) (h : Aligned s.setup) (event : Event) : Turn s event (step s event) := by
  cases event with
  | loop env => exact loop_turn env s
  | gattc env event gattcIf =>
    cases gattcIf with
    | none => exact handleGattcEvent_turn env event none s h rfl
    | some gattcIf =>
      rw [step, gattcEventHandler]
      split
      · rename_i hif
        exact handleGattcEvent_turn env event (some gattcIf) s h (by simp [Event.resetsConnection, hif])
      · exact .acts .refl

/-! ## Invariants -/

variable {fails : Bool}

theorem Acts.aligned_phased {env : Env} {s t : BLEClientHID} (hacts : Acts env fails s t) (h : Aligned s.setup)
    (hphased : Phased s.setup) : Aligned t.setup ∧ Phased t.setup := by
  have hmoves := acts_moves env h hacts
  exact ⟨Moves.aligned hmoves h,
    moves_invariant Phased (fun _ _ _ _ hphased hmove => hmove.phased hphased) h hphased hmoves⟩

theorem acts_invariant (inv : BLEClientHID → Prop) {env : Env}
    (hact : ∀ s t, Aligned s.setup → Phased s.setup → inv s → Act env fails s t → inv t) {s t : BLEClientHID}
    (h : Aligned s.setup) (hphased : Phased s.setup) (hinv : inv s) (hacts : Acts env fails s t) : inv t := by
  induction hacts with
  | refl => exact hinv
  | tail hacts hlast ih =>
    obtain ⟨haligned, hphased⟩ := Acts.aligned_phased hacts h hphased
    exact hact _ _ haligned hphased ih hlast

theorem reachable_phased {s : BLEClientHID} (h : Reachable s) : Aligned s.setup ∧ Phased s.setup := by
  obtain ⟨haligned, hphased, -⟩ := reachable_invariant (fun _ => True) (fun _ _ => trivial)
    (fun _ _ _ _ _ _ _ => trivial) (fun _ _ _ _ _ => trivial) (fun _ _ _ _ _ _ _ => trivial) h
  exact ⟨haligned, hphased⟩

theorem search_first {s : BLEClientHID} (h : Reachable s) {env : Env} {status : GattStatus}
    (hone : (s.handleSearchComplete env status).OneSearch) : beforeSearch s.setupPhase = true := by
  obtain ⟨entries, -, heq⟩ := handleSearchComplete_searched env s status
  exact beforeSearch_of_oneSearch (reachable_phased h).2 heq hone

/-- An invariant of the acts, of deadlines, of new connections and of a search before everything else,
where every answer of the outside satisfies `p`. -/
theorem reachableWhen_turns {p : Env → Prop} (inv : BLEClientHID → Prop)
    (hinit : ∀ discoveryMode policy interval, inv (initial discoveryMode policy interval))
    (hact : ∀ env fails s t, p env → Aligned s.setup → Phased s.setup → inv s → Act env fails s t → inv t)
    (hdeadline : ∀ env s t, Aligned s.setup → Phased s.setup → inv s → Deadline env s t → inv t)
    (hreset : ∀ (s : BLEClientHID) env, inv ((s.resetConnectionState.transition env .waitingForDiscovery).log
      .setEncryption) ∧ inv (s.resetConnectionState.transition env .disconnected))
    (hsearch : ∀ (s : BLEClientHID) env status, Aligned s.setup → Phased s.setup →
      beforeSearch s.setupPhase = true →
      inv s → inv (s.handleSearchComplete env status)) {s : BLEClientHID}
    (h : ReachableWhen (fun _ event => p event.env) s) : inv s := by
  induction h with
  | initial discoveryMode policy interval => exact hinit discoveryMode policy interval
  | @step s event hreached hone hok ih =>
    obtain ⟨haligned, hphased⟩ := reachable_phased hreached.reachable
    have hturn := step_turn s haligned event
    generalize step s event = t at hturn hone
    cases hturn with
    | acts hacts => exact acts_invariant inv (fun s t => hact _ _ s t hok) haligned hphased ih hacts
    | @deadline env u _ hacts _ hlast hbeside =>
      have hinv := acts_invariant inv (fun s t => hact _ _ s t hok) haligned hphased ih hacts
      obtain ⟨haligned', hphased'⟩ := Acts.aligned_phased hacts haligned hphased
      have hmove : Move false _ _ := deadline_move env hlast
      exact hact env false _ _ hok (hmove.aligned haligned') (hmove.phased hphased')
        (hdeadline env _ _ haligned' hphased' hinv hlast) (.beside hbeside)
    | connect => exact (hreset s _).1
    | disconnect => exact (hreset s _).2
    | search status => exact hsearch s _ status haligned hphased (search_first hreached.reachable hone) ih

theorem reachable_turns (inv : BLEClientHID → Prop)
    (hinit : ∀ discoveryMode policy interval, inv (initial discoveryMode policy interval))
    (hact : ∀ env fails s t, Aligned s.setup → Phased s.setup → inv s → Act env fails s t → inv t)
    (hdeadline : ∀ env s t, Aligned s.setup → Phased s.setup → inv s → Deadline env s t → inv t)
    (hreset : ∀ (s : BLEClientHID) env, inv ((s.resetConnectionState.transition env .waitingForDiscovery).log
      .setEncryption) ∧ inv (s.resetConnectionState.transition env .disconnected))
    (hsearch : ∀ (s : BLEClientHID) env status, Aligned s.setup → Phased s.setup →
      beforeSearch s.setupPhase = true →
      inv s → inv (s.handleSearchComplete env status)) {s : BLEClientHID} (h : Reachable s) : inv s :=
  reachableWhen_turns (p := fun _ => True) inv hinit (fun env fails s t _ => hact env fails s t) hdeadline
    hreset hsearch
    h.always

end BleClientHid
