import BleClientHid.Component.Routing

/-! # Requests to the link

A disconnect is asked for by a pending rediscovery only, and new connection parameters at the end
of the setup only.
-/

namespace BleClientHid

open Lib Setup BLEClientHID

namespace TraceEntry

def isLink : TraceEntry → Bool
  | .disconnect | .updateConnParams => true
  | _ => false

end TraceEntry

namespace BLEClientHID

/-- How often this connection has asked for it. -/
def asked (entry : TraceEntry) (s : BLEClientHID) : Nat := s.trace.count entry

section

variable {entry : TraceEntry} (hentry : entry.isLink = true) {s t : BLEClientHID}

theorem asked_of_trace (h : t.trace = s.trace) : t.asked entry = s.asked entry := by
  unfold asked
  rw [h]

include hentry

theorem asked_append {entries : List TraceEntry} (h : ∀ other ∈ entries, other.isLink = false)
    (htrace : t.trace = s.trace ++ entries) : t.asked entry = s.asked entry := by
  unfold asked
  have hnone : entries.count entry = 0 := by
    apply List.count_eq_zero.mpr
    intro hmem
    rw [h entry hmem] at hentry
    cases hentry
  rw [htrace, List.count_append, hnone, Nat.add_zero]

theorem log_asked {other : TraceEntry} (h : other.isLink = false) (s : BLEClientHID) :
    (s.log other).asked entry = s.asked entry :=
  asked_append hentry (by simpa using h) rfl

theorem transition_asked (env : Env) (phase : SetupPhase) (s : BLEClientHID) :
    (s.transition env phase).asked entry = s.asked entry :=
  asked_append hentry (by simp [TraceEntry.isLink]) rfl

theorem markDegraded_asked (reason : String) (s : BLEClientHID) :
    (s.markDegraded reason).asked entry = s.asked entry :=
  asked_append hentry (by simp [TraceEntry.isLink]) rfl

theorem operationFailed_asked (required : Bool) (reason : String) (s : BLEClientHID) :
    (s.operationFailed required reason).asked entry = s.asked entry := by
  rw [operationFailed_eq]
  refine asked_append hentry ?_ rfl
  cases required <;> simp [TraceEntry.isLink]

theorem resetSubscription_asked (s : BLEClientHID) : s.resetSubscription.asked entry = s.asked entry :=
  asked_append hentry (by simp [TraceEntry.isLink]) rfl

theorem giveUp_asked (required : Bool) (reason : String) (s : BLEClientHID) :
    (s.operationFailed required reason).resetSubscription.asked entry = s.asked entry :=
  (resetSubscription_asked hentry _).trans (operationFailed_asked hentry required reason s)

theorem marks_asked {u : BLEClientHID} (h : OnlyMarks s t) (hu : u.trace = t.trace) :
    u.asked entry = s.asked entry := by
  obtain ⟨reasons, rfl⟩ := h
  refine asked_append hentry ?_ hu
  intro other hother
  obtain ⟨reason, -, rfl⟩ := List.mem_map.mp hother
  rfl

/-! ## Before the subscriptions -/

theorem inventoryGattDatabase_asked (env : Env) (s : BLEClientHID) :
    (s.inventoryGattDatabase env).1.asked entry = s.asked entry := by
  obtain ⟨t, services, hash, hmarks, -, heq⟩ := inventoryGattDatabase_spec env s
  rw [heq]
  exact marks_asked hentry hmarks rfl

theorem planReads_asked (s : BLEClientHID) : s.planReads.asked entry = s.asked entry := by
  obtain ⟨t, queue, handles, hmarks, -, heq⟩ := planReads_spec s
  rw [heq]
  exact marks_asked hentry hmarks rfl

theorem planSubscriptions_asked (s : BLEClientHID) : s.planSubscriptions.asked entry = s.asked entry := by
  obtain ⟨queue, battery, changed, t, hmarks, -, heq⟩ := planSubscriptions_spec s
  rw [heq]
  exact marks_asked hentry hmarks rfl

theorem startNextRead_asked (env : Env) (s : BLEClientHID) :
    (s.startNextRead env).asked entry = s.asked entry := by
  unfold startNextRead
  split
  · rfl
  · split
    · exact transition_asked hentry env _ s
    · rename_i operation rest _
      dsimp only
      have hrequest : (if operation.descriptor then TraceEntry.readDescr operation.handle env.readAccepted
          else .readChar operation.handle env.readAccepted).isLink = false := by
        split <;> rfl
      split
      · exact log_asked hentry hrequest _
      · rw [operationFailed_asked hentry]
        exact log_asked hentry hrequest _

theorem readValue_asked (env : Env) (operation : GattReadOperation) (value : List UInt8) (s : BLEClientHID) :
    (readValue env operation value s).asked entry = s.asked entry := by
  have hmark (u : BLEClientHID) (htrace : u.trace = s.trace) (reason : String) :
      (u.markDegraded reason).asked entry = s.asked entry :=
    (markDegraded_asked hentry reason u).trans (asked_of_trace htrace)
  unfold readValue
  generalize operation.purpose = purpose
  cases purpose with
  | preferredConnectionParameters =>
    dsimp only
    unfold readPreferredConnectionParameters
    split
    · rfl
    · exact hmark s rfl _
  | batteryLevel =>
    cases value with
    | nil => exact hmark { s with batteryHandles := _ } rfl _
    | cons level rest =>
      dsimp only
      rw [readBatteryLevel, publishBattery_eq]
      rfl
  | hidInformation =>
    dsimp only
    unfold readHidInformation
    split
    · rfl
    · exact hmark s rfl _
  | hidProtocolMode =>
    dsimp only
    unfold readProtocolMode
    split
    · rfl
    · exact hmark s rfl _
  | hidReportMap =>
    dsimp only
    unfold readReportMap
    split
    · exact hmark s rfl _
    · dsimp only
      split
      · exact hmark { s with hidServices := _ } rfl _
      · rfl
  | hidReportReference =>
    dsimp only
    unfold readReportReference
    dsimp only
    split
    · split
      · exact hmark { s with handleReportSource := _ } rfl _
      · rfl
    · exact hmark { s with handleReportSource := _ } rfl _
  | appearance | pnpId | hidExternalReportReference =>
    dsimp only
    split
    · rfl
    · exact hmark s rfl _
  | _ => rfl

theorem finishActiveRead_asked (env : Env) (status : GattStatus) (value : Buffer) (s : BLEClientHID) :
    (s.finishActiveRead env status value).asked entry = s.asked entry := by
  unfold finishActiveRead
  split
  · rfl
  · split
    · exact operationFailed_asked hentry _ _ _
    · split
      · exact operationFailed_asked hentry _ _ _
      · unfold processReadValue
        split
        · split
          · exact markDegraded_asked hentry _ _
          · rfl
        · exact readValue_asked hentry env _ _ _
        · exact readValue_asked hentry env _ _ _

theorem nextProtocolModeWrite_asked (env : Env) (s : BLEClientHID) :
    (s.nextProtocolModeWrite env).asked entry = s.asked entry := by
  unfold nextProtocolModeWrite
  split
  · exact (transition_asked hentry env _ _).trans (planSubscriptions_asked hentry s)
  · dsimp only
    split
    · exact log_asked hentry rfl _
    · rw [markDegraded_asked hentry]
      exact log_asked hentry rfl _

/-! ## Subscriptions -/

theorem startNextSubscription_asked (env : Env) (s : BLEClientHID) :
    s.startNextSubscription env = s.finalizeSetup env ∨
      (s.startNextSubscription env).asked entry = s.asked entry ∧
        (s.startNextSubscription env).setupPhase = s.setupPhase := by
  unfold startNextSubscription
  split
  · exact .inr ⟨rfl, rfl⟩
  · split
    · exact .inl rfl
    · dsimp only
      right
      split
      · rw [giveUp_asked hentry, operationFailed_eq]
        exact ⟨log_asked hentry rfl _, rfl⟩
      · split
        · rw [log_asked hentry rfl]
          exact ⟨log_asked hentry rfl _, rfl⟩
        · rw [giveUp_asked hentry, log_asked hentry rfl, operationFailed_eq]
          exact ⟨log_asked hentry rfl _, rfl⟩

theorem writeCurrentCccd_asked (env : Env) (s : BLEClientHID) :
    (s.writeCurrentCccd env).asked entry = s.asked entry := by
  unfold writeCurrentCccd
  split
  · rfl
  · dsimp only
    split
    · exact log_asked hentry rfl _
    · rw [transition_asked hentry, giveUp_asked hentry]
      exact log_asked hentry rfl _

theorem handleRegistrationResult_asked (env : Env) (handle : Nat) (status : GattStatus) (s : BLEClientHID) :
    (s.handleRegistrationResult env handle status).asked entry = s.asked entry := by
  unfold handleRegistrationResult
  dsimp only
  split
  · exact log_asked hentry rfl _
  · split
    · exact log_asked hentry rfl _
    · split
      · rw [transition_asked hentry, giveUp_asked hentry]
        exact log_asked hentry rfl _
      · rw [transition_asked hentry]
        exact log_asked hentry rfl _

theorem handleCccdResult_asked (env : Env) (handle : Nat) (status : GattStatus) (s : BLEClientHID) :
    (s.handleCccdResult env handle status).asked entry = s.asked entry := by
  unfold handleCccdResult
  dsimp only
  split
  · exact log_asked hentry rfl _
  · split
    · exact log_asked hentry rfl _
    · split
      · rw [transition_asked hentry, resetSubscription_asked hentry]
        exact log_asked hentry rfl _
      · split
        · rw [writeCurrentCccd_asked hentry]
          exact log_asked hentry rfl _
        · rw [transition_asked hentry, giveUp_asked hentry]
          exact log_asked hentry rfl _

theorem handlePhaseTimeout_asked (env : Env) (s : BLEClientHID) :
    s.handlePhaseTimeout env = s ∨ waits s.setupPhase = false ∧
      ((s.handlePhaseTimeout env).asked entry = s.asked entry ∧
          (s.handlePhaseTimeout env).setupPhase = .buildingProfile ∨
        ∃ t : BLEClientHID, t.fixture = s.fixture ∧ t.setupPhase = s.setupPhase ∧ t.asked entry = s.asked entry ∧
          s.handlePhaseTimeout env = t.finalizeSetup env) := by
  have htimedOut : s.timedOut.asked entry = s.asked entry := by
    unfold timedOut
    rw [markDegraded_asked hentry]
    exact log_asked hentry rfl s
  cases hdue : waits s.setupPhase || !elapsed env.timeoutMs s.phaseStartedMs phaseTimeoutMs with
  | true => exact .inl (handlePhaseTimeout_of_not_due env hdue)
  | false =>
    have hwaits : waits s.setupPhase = false := (Bool.or_eq_false_iff.mp hdue).1
    have hdeadline := handlePhaseTimeout_deadline env hdue
    right
    refine ⟨hwaits, ?_⟩
    generalize s.handlePhaseTimeout env = t at hdeadline
    cases hdeadline with
    | reading => exact .inl ⟨(transition_asked hentry env _ _).trans htimedOut, rfl⟩
    | subscribing =>
      exact .inr ⟨{ s.timedOut with subscriptionQueue := [] }.resetSubscription, rfl, rfl,
        (resetSubscription_asked hentry _).trans htimedOut, rfl⟩
    | other => exact .inr ⟨s.timedOut, rfl, rfl, htimedOut, rfl⟩

end

end BLEClientHID

end BleClientHid
