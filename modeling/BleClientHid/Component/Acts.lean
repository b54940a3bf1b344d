import BleClientHid.Component.Frames

/-! # Every act of the setup

The moves of the setup as acts of the whole component, with the counters, the
clocks and the plans.
-/

namespace BleClientHid

open Setup

namespace BLEClientHID

/-! ## Building blocks -/

def readRequest (env : Env) (operation : GattReadOperation) : TraceEntry :=
  if operation.descriptor then .readDescr operation.handle env.readAccepted
  else .readChar operation.handle env.readAccepted

/-- The read is taken from the queue and asked for. -/
def startRead (env : Env) (operation : GattReadOperation) (rest : List GattReadOperation) (s : BLEClientHID) :
    BLEClientHID :=
  { s with readQueue := rest, activeRead := some operation }.log (readRequest env operation)

def beginAttempt (sub : SubscriptionInfo) (rest : List SubscriptionInfo) (s : BLEClientHID) : BLEClientHID :=
  { s with
    subscriptionQueue := rest
    activeSubscription := some sub
    subscriptionState := .begin sub.characteristicHandle sub.cccdHandle }.log (.begin sub)

/-- The attempt has failed, and is counted. -/
def giveUp (sub : SubscriptionInfo) (reason : String) (s : BLEClientHID) : BLEClientHID :=
  (s.operationFailed sub.required reason).resetSubscription

def timedOut (s : BLEClientHID) : BLEClientHID :=
  (s.log (.timeout s.setupPhase)).markDegraded ("timeout in " ++ phaseName s.setupPhase)

/-! ### The blocks as updates -/

theorem operationFailed_eq (required : Bool) (reason : String) (s : BLEClientHID) :
    s.operationFailed required reason = { s with
      degraded := s.degraded || required
      operationsFailed := s.operationsFailed + 1
      trace := s.trace ++ if required then [.degraded reason] else [] } := by
  cases required <;> simp [operationFailed, markDegraded]

theorem giveUp_eq (sub : SubscriptionInfo) (reason : String) (s : BLEClientHID) :
    s.giveUp sub reason = { s with
      activeSubscription := none
      subscriptionState := {}
      degraded := s.degraded || sub.required
      operationsFailed := s.operationsFailed + 1
      trace := s.trace ++ (if sub.required then [.degraded reason] else []) ++ [.subscriptionReset] } := by
  unfold giveUp
  rw [operationFailed_eq]
  rfl

/-- The phase that the setup ends in. -/
def finalPhase (s : BLEClientHID) : SetupPhase := if s.degraded then .degraded else .ready

theorem finalizeSetup_eq (env : Env) (s : BLEClientHID) :
    s.finalizeSetup env = { s with
      setupPhase := s.finalPhase
      phaseStartedMs := env.enterMs s.finalPhase
      trace := s.trace ++ (if s.preferredConnParamsValid then [.updateConnParams] else []) ++
        [.transition s.finalPhase] } := by
  unfold finalizeSetup finalPhase
  cases hparams : s.preferredConnParamsValid <;> cases hdegraded : s.degraded <;>
    simp [log, transition, hdegraded, hparams]

theorem nextProtocolModeWrite_eq (env : Env) {s : BLEClientHID} {handle : Nat} {rest : List Nat}
    (h : s.protocolWriteHandles = handle :: rest) :
    s.nextProtocolModeWrite env = { s with
      protocolWriteHandles := rest
      operationsSucceeded := s.operationsSucceeded + env.writeCharAccepted.toNat
      operationsFailed := s.operationsFailed + (!env.writeCharAccepted).toNat
      degraded := s.degraded || !env.writeCharAccepted
      trace := s.trace ++ [.writeChar handle (requestedMode s.protocolModePolicy) env.writeCharAccepted] ++
        if env.writeCharAccepted then [] else [.degraded "Protocol Mode write failed"] } := by
  unfold nextProtocolModeWrite
  rw [h]
  cases env.writeCharAccepted <;> simp [log, markDegraded]

end BLEClientHID

namespace TraceEntry

/-- A request or a note that changes nothing else. -/
def isRequest : TraceEntry → Bool
  | .registerForNotify .. | .disconnect => true
  | _ => false

end TraceEntry

/-! ## Acts -/

open BLEClientHID in
/-- `fails` tells whether a CCCD result can fail the attempt. -/
inductive Act (env : Env) (fails : Bool) : BLEClientHID → BLEClientHID → Prop where
  | beside {s t : BLEClientHID} (h : Beside s t) : Act env fails s t
  | request {s : BLEClientHID} (entry : TraceEntry) (h : entry.isRequest = true) : Act env fails s (s.log entry)
  -- The inventory
  | inventory {s : BLEClientHID} (hphase : s.setupPhase = .inventory) :
      Act env fails s (s.inventoryGattDatabase env).1
  | inventoryFailed {s : BLEClientHID} (hphase : s.setupPhase = .inventory) :
      Act env fails s ((s.markDegraded "GATT inventory failed").finalizeSetup env)
  | noHid {s : BLEClientHID} (hphase : s.setupPhase = .inventory) : Act env fails s (s.transition env .noHid)
  | planReads {s : BLEClientHID} (hphase : s.setupPhase = .inventory) :
      Act env fails s (s.planReads.transition env .reading)
  -- Reads
  | startRead {s : BLEClientHID} (operation : GattReadOperation) (rest : List GattReadOperation)
      (hphase : s.setupPhase = .reading) (hfree : s.congested = false) (hidle : s.activeRead = none)
      (hqueue : s.readQueue = operation :: rest) (haccepted : env.readAccepted = true) :
      Act env fails s (s.startRead env operation rest)
  | readNotScheduled {s : BLEClientHID} (operation : GattReadOperation) (rest : List GattReadOperation)
      (hphase : s.setupPhase = .reading) (hfree : s.congested = false) (hidle : s.activeRead = none)
      (hqueue : s.readQueue = operation :: rest) (hrejected : env.readAccepted = false) :
      Act env fails s ({ s.startRead env operation rest with activeRead := none }.operationFailed operation.required
        "required GATT read could not be scheduled")
  | finishRead {s : BLEClientHID} (operation : GattReadOperation) (status : GattStatus) (value : Buffer)
      (hactive : s.activeRead = some operation) : Act env fails s (s.finishActiveRead env status value)
  | readsDone {s : BLEClientHID} (hphase : s.setupPhase = .reading) (hidle : s.activeRead = none)
      (hqueue : s.readQueue = []) : Act env fails s (s.transition env .buildingProfile)
  -- Profiles and Protocol Mode
  | buildProfiles {s : BLEClientHID} (hphase : s.setupPhase = .buildingProfile) :
      Act env fails s (s.buildHidProfiles.collectProtocolWrites env)
  | writeMode {s : BLEClientHID} (handle : Nat) (rest : List Nat) (hphase : s.setupPhase = .writingProtocolMode)
      (hhandles : s.protocolWriteHandles = handle :: rest) :
      Act env fails s (s.nextProtocolModeWrite env)
  | planSubscriptions {s : BLEClientHID} (hphase : s.setupPhase = .writingProtocolMode)
      (hhandles : s.protocolWriteHandles = []) :
      Act env fails s (s.planSubscriptions.transition env .registering)
  -- Subscriptions
  | begin {s : BLEClientHID} (sub : SubscriptionInfo) (rest : List SubscriptionInfo)
      (hphase : s.setupPhase = .registering) (hfree : s.congested = false) (hidle : s.activeSubscription = none)
      (hqueue : s.subscriptionQueue = sub :: rest) (hcccd : sub.cccdHandle ≠ 0) :
      Act env fails s (s.beginAttempt sub rest)
  | beginWithoutCccd {s : BLEClientHID} (sub : SubscriptionInfo) (rest : List SubscriptionInfo)
      (hphase : s.setupPhase = .registering) (hfree : s.congested = false) (hidle : s.activeSubscription = none)
      (hqueue : s.subscriptionQueue = sub :: rest) (hcccd : sub.cccdHandle = 0) :
      Act env fails s ((s.beginAttempt sub rest).giveUp sub "required notification has no CCCD")
  | notScheduled {s : BLEClientHID} (sub : SubscriptionInfo) (hphase : s.setupPhase = .registering)
      (hactive : s.activeSubscription = some sub) :
      Act env fails s (s.giveUp sub "required notification registration failed")
  | registrationIgnored {s : BLEClientHID} (handle : Nat) (success : Bool)
      (hskip : s.subscriptionState.stage ≠ .registering ∨ handle ≠ s.subscriptionState.characteristicHandle) :
      Act env fails s (s.log (.registrationResult s.activeSubscription handle success .unmatched))
  | registered {s : BLEClientHID} (sub : SubscriptionInfo) (hactive : s.activeSubscription = some sub)
      (hstage : s.subscriptionState.stage = .registering) :
      Act env fails s ({ s with subscriptionState := { s.subscriptionState with
        stage := .waitingForCccd, fallbackAtMs := env.registrationMs + cccdFallbackDelayMs } }.log
          (.registrationResult (some sub) sub.characteristicHandle true .waitForCccd)
            |>.transition env .waitingForCccd)
  | registrationFailed {s : BLEClientHID} (sub : SubscriptionInfo) (hactive : s.activeSubscription = some sub)
      (hstage : s.subscriptionState.stage = .registering) :
      Act env fails s ((s.log (.registrationResult (some sub) sub.characteristicHandle false .failed)).giveUp sub
        "required notification registration failed" |>.transition env .registering)
  | cccdIgnored {s : BLEClientHID} (handle : Nat) (success : Bool)
      (hskip : s.subscriptionState.stage ≠ .waitingForCccd ∨ handle ≠ s.subscriptionState.cccdHandle) :
      Act env fails s (s.log (.cccdResult s.activeSubscription handle success .unmatched))
  | retry {s : BLEClientHID} (sub : SubscriptionInfo) (hactive : s.activeSubscription = some sub)
      (hstage : s.subscriptionState.stage = .waitingForCccd)
      (hown : s.subscriptionState.ownCccdWriteAttempted = false) :
      Act env fails s (s.log (.cccdResult (some sub) sub.cccdHandle false .retryCccd))
  | writeCccd {s : BLEClientHID} (sub : SubscriptionInfo) (hactive : s.activeSubscription = some sub)
      (hstage : s.subscriptionState.stage = .waitingForCccd)
      (hown : s.subscriptionState.ownCccdWriteAttempted = false) (haccepted : env.writeDescrAccepted = true) :
      Act env fails s ({ s with subscriptionState := s.subscriptionState.markOwnCccdWriteAttempted }.log
        (.writeDescr sub.cccdHandle (cccdValue sub) true))
  | writeRejected {s : BLEClientHID} (sub : SubscriptionInfo) (hactive : s.activeSubscription = some sub)
      (hstage : s.subscriptionState.stage = .waitingForCccd)
      (hown : s.subscriptionState.ownCccdWriteAttempted = false) (hrejected : env.writeDescrAccepted = false) :
      Act env fails s ((s.log (.writeDescr sub.cccdHandle (cccdValue sub) false)).giveUp sub
        "required CCCD write failed" |>.transition env .registering)
  | complete {s : BLEClientHID} (sub : SubscriptionInfo) (hactive : s.activeSubscription = some sub)
      (hstage : s.subscriptionState.stage = .waitingForCccd) :
      Act env fails s ({ s.log (.cccdResult (some sub) sub.cccdHandle true .complete) with
        operationsSucceeded := s.operationsSucceeded + 1 }.resetSubscription.transition env .registering)
  | cccdFailed {s : BLEClientHID} (sub : SubscriptionInfo) (hfails : fails = true)
      (hactive : s.activeSubscription = some sub) (hstage : s.subscriptionState.stage = .waitingForCccd)
      (hown : s.subscriptionState.ownCccdWriteAttempted = true) :
      Act env fails s ((s.log (.cccdResult (some sub) sub.cccdHandle false .failed)).giveUp sub
        "required CCCD write failed" |>.transition env .registering)
  | finish {s : BLEClientHID} (hphase : s.setupPhase = .registering) (hidle : s.activeSubscription = none)
      (hqueue : s.subscriptionQueue = []) : Act env fails s (s.finalizeSetup env)

abbrev Acts (env : Env) (fails : Bool) : BLEClientHID → BLEClientHID → Prop := Relation.ReflTransGen (Act env fails)

open BLEClientHID in
/-- The end of a phase that has taken too long. -/
inductive Deadline (env : Env) (s : BLEClientHID) : BLEClientHID → Prop where
  | reading (hphase : s.setupPhase = .reading) :
      Deadline env s ({ s.timedOut with activeRead := none, readQueue := [] }.transition env .buildingProfile)
  | subscribing (hphase : s.setupPhase = .registering ∨ s.setupPhase = .waitingForCccd) :
      Deadline env s ({ s.timedOut with subscriptionQueue := [] }.resetSubscription.finalizeSetup env)
  | other (hphase : s.setupPhase ≠ .registering) (hphase' : s.setupPhase ≠ .waitingForCccd)
      (hphase'' : s.setupPhase ≠ .reading) (hwaits : waits s.setupPhase = false) :
      Deadline env s (s.timedOut.finalizeSetup env)

/-- The attempt is that of the active subscription. -/
structure Aligned (s : Setup) : Prop where
  idle : s.activeSubscription = none → s.subscriptionState.stage = .idle
  running : ∀ sub, s.activeSubscription = some sub → s.subscriptionState.stage ≠ .idle ∧
    s.subscriptionState.characteristicHandle = sub.characteristicHandle ∧
    s.subscriptionState.cccdHandle = sub.cccdHandle

theorem Aligned.of_none {s : Setup} (h : s.activeSubscription = none)
    (hstage : s.subscriptionState.stage = .idle) : Aligned s where
  idle := fun _ => hstage
  running := by simp [h]

theorem Aligned.congr {s t : Setup} (h : Aligned s) (hactive : t.activeSubscription = s.activeSubscription)
    (hstate : t.subscriptionState = s.subscriptionState) : Aligned t := by
  obtain ⟨hidle, hrunning⟩ := h
  exact ⟨by rwa [hactive, hstate], by rwa [hactive, hstate]⟩

theorem Aligned.active {s : Setup} (h : Aligned s) (hstage : s.subscriptionState.stage ≠ .idle) :
    ∃ sub, s.activeSubscription = some sub ∧
      s.subscriptionState.characteristicHandle = sub.characteristicHandle ∧
      s.subscriptionState.cccdHandle = sub.cccdHandle := by
  cases hactive : s.activeSubscription with
  | none => exact absurd (h.idle hactive) hstage
  | some sub => exact ⟨sub, rfl, (h.running sub hactive).2⟩

namespace BLEClientHID

variable (env : Env) {fails : Bool} {s t : BLEClientHID}

/-! ## `loop()` -/

theorem requestPendingRediscovery_acts (s : BLEClientHID) : Acts env fails s s.requestPendingRediscovery := by
  unfold requestPendingRediscovery
  split
  · have hbeside : Act env fails s { s with rediscoveryRequested := false } := .beside ⟨rfl, rfl, rfl, rfl⟩
    exact .tail (.single hbeside) (.request .disconnect rfl)
  · exact .refl

theorem inventoryGattDatabase_phase (s : BLEClientHID) : (s.inventoryGattDatabase env).1.setupPhase =
    s.setupPhase := by
  obtain ⟨t, services, hash, ⟨reasons, rfl⟩, -, heq⟩ := inventoryGattDatabase_spec env s
  rw [heq]
  rfl

theorem runInventory_acts (hphase : s.setupPhase = .inventory) : Acts env fails s (s.runInventory env) := by
  have hinventory : Act env fails s (s.inventoryGattDatabase env).1 := .inventory hphase
  have hphase' : (s.inventoryGattDatabase env).1.setupPhase = .inventory :=
    (inventoryGattDatabase_phase env s).trans hphase
  unfold runInventory
  generalize s.inventoryGattDatabase env = out at hinventory hphase'
  obtain ⟨t, found⟩ := out
  dsimp only at hinventory hphase' ⊢
  apply Relation.ReflTransGen.head hinventory
  split
  · exact .single (.inventoryFailed hphase')
  · split
    · exact .single (.noHid hphase')
    · exact .single (.planReads hphase')

theorem startNextRead_acts (hphase : s.setupPhase = .reading) : Acts env fails s (s.startNextRead env) := by
  unfold startNextRead
  split
  · exact .refl
  · rename_i hbusy
    rw [Bool.not_eq_true, Bool.or_eq_false_iff, Option.isSome_eq_false_iff, Option.isNone_iff_eq_none] at hbusy
    obtain ⟨hidle, hfree⟩ := hbusy
    split
    · rename_i hqueue
      exact .single (.readsDone hphase hidle hqueue)
    · rename_i operation rest hqueue
      dsimp only
      split
      · rename_i haccepted
        exact .single (.startRead operation rest hphase hfree hidle hqueue haccepted)
      · rename_i hrejected
        exact .single (.readNotScheduled operation rest hphase hfree hidle hqueue (Bool.eq_false_iff.mpr hrejected))

theorem nextProtocolModeWrite_acts (hphase : s.setupPhase = .writingProtocolMode) :
    Acts env fails s (s.nextProtocolModeWrite env) := by
  cases hhandles : s.protocolWriteHandles with
  | nil =>
    have hplan : s.nextProtocolModeWrite env = s.planSubscriptions.transition env .registering := by
      unfold nextProtocolModeWrite
      rw [hhandles]
    rw [hplan]
    exact .single (.planSubscriptions hphase hhandles)
  | cons handle rest => exact .single (.writeMode handle rest hphase hhandles)

theorem buildHidProfiles_phase (s : BLEClientHID) : s.buildHidProfiles.setupPhase = s.setupPhase := by
  obtain ⟨d, contexts, sources, heq⟩ := s.buildHidProfiles_profiles
  exact congrArg Setup.setupPhase heq

theorem buildHidProfiles_acts (hphase : s.setupPhase = .buildingProfile) :
    Acts env fails s (s.buildHidProfiles.startProtocolModeWrite env) := by
  unfold startProtocolModeWrite
  rw [if_pos ((buildHidProfiles_phase s).trans hphase)]
  exact .head (.buildProfiles hphase) (nextProtocolModeWrite_acts env rfl)

theorem startProtocolModeWrite_acts (hphase : s.setupPhase = .writingProtocolMode) :
    Acts env fails s (s.startProtocolModeWrite env) := by
  unfold startProtocolModeWrite
  rw [if_neg (by simp [hphase])]
  exact nextProtocolModeWrite_acts env hphase

theorem startNextSubscription_acts (hphase : s.setupPhase = .registering) :
    Acts env fails s (s.startNextSubscription env) := by
  unfold startNextSubscription
  split
  · exact .refl
  · rename_i hbusy
    rw [Bool.not_eq_true, Bool.or_eq_false_iff, Option.isSome_eq_false_iff, Option.isNone_iff_eq_none] at hbusy
    obtain ⟨hidle, hfree⟩ := hbusy
    split
    · rename_i hqueue
      exact .single (.finish hphase hidle hqueue)
    · rename_i sub rest hqueue
      dsimp only
      split
      · rename_i hcccd
        exact .single (.beginWithoutCccd sub rest hphase hfree hidle hqueue hcccd)
      · rename_i hcccd
        have hbegin : Act env fails s (s.beginAttempt sub rest) := .begin sub rest hphase hfree hidle hqueue hcccd
        have hrequest : Acts env fails s ((s.beginAttempt sub rest).log _) :=
          .tail (.single hbegin) (.request (.registerForNotify sub.characteristicHandle env.registerAccepted) rfl)
        split
        · exact hrequest
        · exact hrequest.tail (.notScheduled sub hphase rfl)

theorem giveUp_state (state : SubscriptionAttemptState) (sub : SubscriptionInfo) (reason : String)
    (s : BLEClientHID) : { s with subscriptionState := state }.giveUp sub reason = s.giveUp sub reason := by
  unfold giveUp operationFailed
  split <;> rfl

theorem writeCurrentCccd_acts {sub : SubscriptionInfo} (hactive : s.activeSubscription = some sub)
    (hstage : s.subscriptionState.stage = .waitingForCccd)
    (hown : s.subscriptionState.ownCccdWriteAttempted = false) : Acts env fails s (s.writeCurrentCccd env) := by
  rw [writeCurrentCccd.eq_def]
  split
  · rename_i hnone
    simp [hactive] at hnone
  · rename_i sub' hsub
    obtain rfl := Option.some.inj (hactive.symm.trans hsub)
    dsimp only
    split
    · rename_i haccepted
      rw [haccepted]
      exact .single (.writeCccd sub hactive hstage hown haccepted)
    · rename_i hrejected
      rw [Bool.not_eq_true] at hrejected
      rw [hrejected]
      have hact : Act env fails s _ := .writeRejected sub hactive hstage hown hrejected
      rw [← giveUp_state s.subscriptionState.markOwnCccdWriteAttempted] at hact
      exact .single hact

theorem runPhase_acts (s : BLEClientHID) : Acts env fails s (s.runPhase env) := by
  unfold runPhase
  split <;> rename_i hphase
  · exact runInventory_acts env hphase
  · exact startNextRead_acts env hphase
  · exact buildHidProfiles_acts env hphase
  · exact startProtocolModeWrite_acts env hphase
  · exact startNextSubscription_acts env hphase
  · split
    · rename_i hdue
      simp only [SubscriptionAttemptState.fallbackDue, Bool.and_eq_true, beq_iff_eq, Bool.not_eq_true'] at hdue
      obtain ⟨hsome, ⟨hstage, hown⟩, -⟩ := hdue
      obtain ⟨sub, hactive⟩ := Option.isSome_iff_exists.mp hsome
      exact writeCurrentCccd_acts env hactive hstage hown
    · exact .refl
  · exact .refl

theorem handlePhaseTimeout_deadline (hdue : (waits s.setupPhase || !elapsed env.timeoutMs s.phaseStartedMs
    phaseTimeoutMs) = false) : Deadline env s (s.handlePhaseTimeout env) := by
  unfold handlePhaseTimeout
  rw [hdue, if_neg (by simp)]
  dsimp only
  split
  · rename_i hreading
    exact .reading hreading
  · rename_i hreading
    split
    · rename_i hphase
      exact .subscribing hphase
    · rename_i hphase
      exact .other (fun h => hphase (.inl h)) (fun h => hphase (.inr h)) hreading (Bool.or_eq_false_iff.mp hdue).1

theorem handlePhaseTimeout_of_not_due (hdue : (waits s.setupPhase || !elapsed env.timeoutMs s.phaseStartedMs
    phaseTimeoutMs) = true) : s.handlePhaseTimeout env = s := by
  unfold handlePhaseTimeout
  rw [if_pos hdue]

/-! ## Callbacks -/

theorem handleRead_acts (s : BLEClientHID) (handle : Nat) (status : GattStatus) (value : Buffer) :
    Acts env fails s (s.handleRead env handle status value) := by
  unfold handleRead
  split
  · exact .refl
  · rename_i operation hactive
    split
    · exact .single (.finishRead operation status value hactive)
    · exact .refl

section

variable {sub : SubscriptionInfo} {handle : Nat} {status : GattStatus} {state : SubscriptionAttemptState}
  {decision : SubscriptionDecision}

/-- A registration result that does not match is only logged. -/
theorem handleRegistrationResult_unmatched
    (hskip : s.subscriptionState.stage ≠ .registering ∨ handle ≠ s.subscriptionState.characteristicHandle) :
    s.handleRegistrationResult env handle status =
      s.log (.registrationResult s.activeSubscription handle (status == GattStatus.ok) .unmatched) := by
  rw [handleRegistrationResult, SubscriptionAttemptState.registrationResult, if_pos hskip]
  dsimp only
  split
  · rfl
  · rw [if_pos rfl]

theorem handleRegistrationResult_matched (hactive : s.activeSubscription = some sub)
    (hresult : s.subscriptionState.registrationResult handle (status == GattStatus.ok) env.registrationMs
      cccdFallbackDelayMs = (state, decision)) (hmatched : decision ≠ .unmatched) :
    s.handleRegistrationResult env handle status =
      let t := { s with subscriptionState := state }.log
        (.registrationResult (some sub) handle (status == GattStatus.ok) decision)
      if decision = .failed then
        (t.operationFailed sub.required "required notification registration failed").resetSubscription
          |>.transition env .registering
      else t.transition env .waitingForCccd := by
  simp [handleRegistrationResult, hresult, hactive, log, hmatched]

theorem handleCccdResult_unmatched
    (hskip : s.subscriptionState.stage ≠ .waitingForCccd ∨ handle ≠ s.subscriptionState.cccdHandle) :
    s.handleCccdResult env handle status =
      s.log (.cccdResult s.activeSubscription handle (status == GattStatus.ok) .unmatched) := by
  rw [handleCccdResult, SubscriptionAttemptState.cccdResult, if_pos hskip]
  dsimp only
  split
  · rfl
  · rw [if_pos rfl]

theorem handleCccdResult_matched (hactive : s.activeSubscription = some sub)
    (hresult : s.subscriptionState.cccdResult handle (status == GattStatus.ok) = (state, decision))
    (hmatched : decision ≠ .unmatched) :
    s.handleCccdResult env handle status =
      let t := { s with subscriptionState := state }.log
        (.cccdResult (some sub) handle (status == GattStatus.ok) decision)
      if decision = .complete then
        { t with operationsSucceeded := t.operationsSucceeded + 1 }.resetSubscription.transition env .registering
      else if decision = .retryCccd then t.writeCurrentCccd env
      else (t.operationFailed sub.required "required CCCD write failed").resetSubscription
        |>.transition env .registering := by
  simp [handleCccdResult, hresult, hactive, log, hmatched]

end

theorem handleRegistrationResult_acts (h : Aligned s.setup) (handle : Nat) (status : GattStatus) :
    Acts env fails s (s.handleRegistrationResult env handle status) := by
  generalize hresult : s.subscriptionState.registrationResult handle (status == .ok) env.registrationMs
    cccdFallbackDelayMs = result
  obtain ⟨state, decision⟩ := result
  obtain ⟨-, -, hskip⟩ | ⟨rfl, hsuccess, hstage, hhandle, rfl⟩ | ⟨rfl, hsuccess, hstage, hhandle, rfl⟩ :=
    SubscriptionAttemptState.registrationResult_cases hresult
  · rw [handleRegistrationResult_unmatched env hskip]
    exact .single (.registrationIgnored handle (status == .ok) hskip)
  · obtain ⟨sub, hactive, hchar, -⟩ := h.active (ne_of_eq_of_ne hstage (by simp))
    have hact : Act env fails s _ := .registrationFailed sub hactive hstage
    rw [← giveUp_state { s.subscriptionState with stage := .idle }, ← hchar] at hact
    rw [handleRegistrationResult_matched env hactive hresult (by simp), hsuccess, hhandle]
    exact .single hact
  · obtain ⟨sub, hactive, hchar, -⟩ := h.active (ne_of_eq_of_ne hstage (by simp))
    have hact : Act env fails s _ := .registered sub hactive hstage
    rw [← hchar] at hact
    rw [handleRegistrationResult_matched env hactive hresult (by simp), hsuccess, hhandle]
    exact .single hact

theorem handleCccdResult_failed (h : Aligned s.setup) (handle : Nat) (status : GattStatus)
    (hfailed : (s.subscriptionState.cccdResult handle (status == .ok)).2 = .failed) :
    ∃ sub, s.activeSubscription = some sub ∧ s.subscriptionState.stage = .waitingForCccd ∧
      s.subscriptionState.ownCccdWriteAttempted = true ∧
      s.handleCccdResult env handle status =
        ((s.log (.cccdResult (some sub) sub.cccdHandle false .failed)).giveUp sub
          "required CCCD write failed" |>.transition env .registering) := by
  generalize hresult : s.subscriptionState.cccdResult handle (status == .ok) = result at hfailed
  obtain ⟨state, decision⟩ := result
  obtain rfl : decision = .failed := hfailed
  obtain ⟨hd, -⟩ | ⟨hd, -⟩ | ⟨hd, -⟩ | ⟨-, hsuccess, hstage, hhandle, hown, rfl⟩ :=
    SubscriptionAttemptState.cccdResult_cases hresult
  · simp at hd
  · simp at hd
  · simp at hd
  · obtain ⟨sub, hactive, -, hcccd⟩ := h.active (ne_of_eq_of_ne hstage (by simp))
    refine ⟨sub, hactive, hstage, hown, ?_⟩
    rw [← giveUp_state { s.subscriptionState with stage := .idle }, ← hcccd,
      handleCccdResult_matched env hactive hresult (by simp), hsuccess, hhandle]
    rfl

theorem handleCccdResult_acts (h : Aligned s.setup) (handle : Nat) (status : GattStatus)
    (hnot : (s.subscriptionState.cccdResult handle (status == .ok)).2 ≠ .failed) :
    Acts env fails s (s.handleCccdResult env handle status) := by
  generalize hresult : s.subscriptionState.cccdResult handle (status == .ok) = result at hnot
  obtain ⟨state, decision⟩ := result
  obtain ⟨-, -, hskip⟩ | ⟨rfl, hsuccess, hstage, hhandle, rfl⟩ | ⟨rfl, hsuccess, hstage, hhandle, hown, rfl⟩ |
    ⟨hd, -⟩ := SubscriptionAttemptState.cccdResult_cases hresult
  · rw [handleCccdResult_unmatched env hskip]
    exact .single (.cccdIgnored handle (status == .ok) hskip)
  · obtain ⟨sub, hactive, -, hcccd⟩ := h.active (ne_of_eq_of_ne hstage (by simp))
    rw [handleCccdResult_matched env hactive hresult (by simp), hsuccess, hhandle,
      show s.subscriptionState.cccdHandle = _ from hcccd]
    exact .single (.complete sub hactive hstage)
  · obtain ⟨sub, hactive, -, hcccd⟩ := h.active (ne_of_eq_of_ne hstage (by simp))
    rw [handleCccdResult_matched env hactive hresult (by simp), hsuccess, hhandle,
      show s.subscriptionState.cccdHandle = _ from hcccd]
    have hretry : Act env fails s _ := .retry sub hactive hstage hown
    exact .head hretry (writeCurrentCccd_acts env hactive hstage hown)
  · exact absurd hd hnot

end BLEClientHID

end BleClientHid
