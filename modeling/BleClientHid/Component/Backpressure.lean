import BleClientHid.Component.Fifo

/-! # Back-pressure

The last congestion and queue-full reports of a connection, and what the
component starts while one of them stands.
-/

namespace BleClientHid

/-! ## What the stack reports -/

/-- The last report of each kind in this connection. -/
structure Backpressure where
  congested : Bool := false
  full : Bool := false
  deriving DecidableEq, Repr

namespace Backpressure

def raised (p : Backpressure) : Bool := p.congested || p.full

def after (p : Backpressure) : Event → Backpressure
  | .loop _ => p
  | .gattc env event gattcIf =>
    if !accepted env gattcIf then p
    else if BLEClientHID.resetsConnection env event then {}
    else match event with
    | .congest connId congested => if connId = env.connId then { p with congested } else p
    | .queueFull connId isFull => if connId = env.connId then { p with full := isFull } else p
    | _ => p

/-- One condition is cleared while the other one stands. -/
def overwrites (p : Backpressure) : Event → Bool
  | .gattc env (.congest connId false) gattcIf =>
    accepted env gattcIf && connId == env.connId && p.full
  | .gattc env (.queueFull connId false) gattcIf =>
    accepted env gattcIf && connId == env.connId && p.congested
  | _ => false

end Backpressure

def backpressure (events : List Event) : Backpressure := events.foldl Backpressure.after {}

/-! ## What a step starts -/

/-- A GATT read or a notification registration. -/
def TraceEntry.starts : TraceEntry → Bool
  | .readChar .. | .readDescr .. | .registerForNotify .. => true
  | _ => false

/-- The operations in the new part of the log. -/
def started (s : BLEClientHID) (event : Event) : List TraceEntry :=
  let log := (step s event).trace
  (if event.resetsConnection then log else log.drop s.trace.length).filter TraceEntry.starts

namespace BLEClientHID

/-- The flag stays, and nothing is started. -/
structure Calm (s t : BLEClientHID) : Prop where
  congested : t.congested = s.congested
  log : ∃ entries, t.trace = s.trace ++ entries ∧ ∀ entry ∈ entries, entry.starts = false

namespace Calm

variable {s t u : BLEClientHID}

theorem data (hcongested : t.congested = s.congested) (htrace : t.trace = s.trace) : Calm s t :=
  ⟨hcongested, [], by rw [htrace, List.append_nil], fun _ h => absurd h List.not_mem_nil⟩

theorem refl (s : BLEClientHID) : Calm s s := data rfl rfl

theorem trans (h : Calm s t) (h' : Calm t u) : Calm s u := by
  obtain ⟨hcongested, entries, htrace, hentries⟩ := h
  obtain ⟨hcongested', entries', htrace', hentries'⟩ := h'
  refine ⟨hcongested'.trans hcongested, entries ++ entries', ?_, List.forall_mem_append.mpr ⟨hentries, hentries'⟩⟩
  rw [htrace', htrace, List.append_assoc]

theorem entry (e : TraceEntry) (h : e.starts = false) (hcongested : t.congested = s.congested)
    (htrace : t.trace = s.trace ++ [e]) : Calm s t :=
  ⟨hcongested, [e], htrace, by simpa using h⟩

theorem marked (h : OnlyMarks s t) : Calm s t := by
  obtain ⟨reasons, rfl⟩ := h
  refine ⟨rfl, reasons.map .degraded, rfl, ?_⟩
  intro e he
  obtain ⟨reason, -, rfl⟩ := List.mem_map.mp he
  rfl

theorem mark (reason : String) (s : BLEClientHID) : Calm s (s.markDegraded reason) :=
  .entry (.degraded reason) rfl rfl rfl

theorem transition (env : Env) (phase : SetupPhase) (s : BLEClientHID) : Calm s (s.transition env phase) :=
  .entry (.transition phase) rfl rfl rfl

theorem foldl {α : Type} {f : BLEClientHID → α → BLEClientHID} (hf : ∀ s a, Calm s (f s a)) (l : List α)
    (s : BLEClientHID) : Calm s (l.foldl f s) := by
  induction l generalizing s with
  | nil => exact .refl s
  | cons a l ih => exact (hf s a).trans (ih (f s a))

theorem added (h : Calm s t) : (t.trace.drop s.trace.length).filter TraceEntry.starts = [] := by
  obtain ⟨-, entries, htrace, hentries⟩ := h
  rw [htrace, List.drop_left, List.filter_eq_nil_iff]
  intro e he
  simp [hentries e he]

end Calm

/-! ## The setup -/

section

variable (env : Env) (s : BLEClientHID)

theorem operationFailed_calm (required : Bool) (reason : String) : Calm s (s.operationFailed required reason) := by
  unfold operationFailed
  split
  · exact .mark reason s
  · exact .data rfl rfl

theorem giveUp_calm (sub : SubscriptionInfo) (reason : String) : Calm s (s.giveUp sub reason) :=
  (operationFailed_calm s sub.required reason).trans (.entry .subscriptionReset rfl rfl rfl)

theorem finalizeSetup_calm : Calm s (s.finalizeSetup env) := by
  rw [finalizeSetup_eq]
  cases s.preferredConnParamsValid with
  | false => exact ⟨rfl, [.transition s.finalPhase], by simp, by simp [TraceEntry.starts]⟩
  | true => exact ⟨rfl, [.updateConnParams, .transition s.finalPhase], by simp, by simp [TraceEntry.starts]⟩

theorem inventoryGattDatabase_calm : Calm s (s.inventoryGattDatabase env).1 := by
  obtain ⟨t, services, hash, hmarks, -, heq⟩ := inventoryGattDatabase_spec env s
  rw [heq]
  exact (Calm.marked hmarks).trans (.data rfl rfl)

theorem addRead_calm (operation : GattReadOperation) : Calm s (addRead s operation) := by
  unfold addRead
  split
  · exact .refl s
  · split
    · exact .mark _ s
    · exact .data rfl rfl

theorem planReads_calm : Calm s s.planReads := by
  have hempty : Calm s { s with readQueue := [], plannedReadHandles := ∅ } := .data rfl rfl
  exact hempty.trans (.foldl addRead_calm _ _)

theorem runInventory_calm : Calm s (s.runInventory env) := by
  have hinventory := inventoryGattDatabase_calm env s
  unfold runInventory
  generalize s.inventoryGattDatabase env = out at hinventory
  obtain ⟨t, found⟩ := out
  dsimp only at hinventory ⊢
  apply hinventory.trans
  split
  · exact (Calm.mark _ t).trans (finalizeSetup_calm env _)
  · split
    · exact .transition env _ t
    · exact (planReads_calm t).trans (.transition env _ _)

/-! ### Reads -/

section

variable (operation : GattReadOperation) (value : List UInt8)

theorem check_calm (p : Prop) [Decidable p] (reason : String) :
    Calm s (if p then s else s.markDegraded reason) := by
  split
  · exact .refl s
  · exact .mark reason s

theorem readPreferredConnectionParameters_calm : Calm s (readPreferredConnectionParameters env value s) := by
  unfold readPreferredConnectionParameters
  split
  · exact .data rfl rfl
  · exact .mark _ s

theorem readBatteryLevel_calm : Calm s (readBatteryLevel env operation value s) := by
  cases value with
  | nil => exact .entry (.degraded "Battery Level is empty") rfl rfl rfl
  | cons level value =>
    rw [readBatteryLevel, publishBattery_eq]
    exact .data rfl rfl

theorem readProtocolMode_calm : Calm s (readProtocolMode operation value s) := by
  unfold readProtocolMode
  split
  · exact .data rfl rfl
  · exact .mark _ s

theorem readReportMap_calm : Calm s (readReportMap env operation value s) := by
  unfold readReportMap
  split
  · exact .mark _ s
  · dsimp only
    split
    · exact .entry (.degraded "HID Report Map could not be parsed") rfl rfl rfl
    · exact .data rfl rfl

theorem readReportReference_calm : Calm s (readReportReference operation value s) := by
  unfold readReportReference
  dsimp only
  split
  · split
    · exact .entry (.degraded "Report Reference has unknown Report Type") rfl rfl rfl
    · exact .data rfl rfl
  · exact .entry (.degraded "Report Reference has invalid length") rfl rfl rfl

theorem readValue_calm : Calm s (readValue env operation value s) := by
  unfold readValue
  split
  · exact check_calm s _ _
  · exact readPreferredConnectionParameters_calm env s value
  · exact readBatteryLevel_calm env s operation value
  · exact check_calm s _ _
  · exact check_calm s _ _
  · exact readProtocolMode_calm s operation value
  · exact readReportMap_calm env s operation value
  · exact readReportReference_calm s operation value
  · exact check_calm s _ _
  · exact .refl s

end

theorem finishActiveRead_calm (status : GattStatus) (value : Buffer) :
    Calm s (s.finishActiveRead env status value) := by
  unfold finishActiveRead
  split
  · exact .refl s
  · rename_i operation _
    have hidle : Calm s { s with activeRead := none } := .data rfl rfl
    dsimp only
    split
    · exact hidle.trans (operationFailed_calm _ _ _)
    · split
      · exact hidle.trans (operationFailed_calm _ _ _)
      · apply hidle.trans
        have hcounted : Calm { s with activeRead := none }
            { s with activeRead := none, operationsSucceeded := s.operationsSucceeded + 1 } := .data rfl rfl
        apply hcounted.trans
        unfold processReadValue
        split
        · split
          · exact .mark _ _
          · exact .refl _
        · exact readValue_calm env _ operation []
        · exact readValue_calm env _ operation _

theorem handleRead_calm (handle : Nat) (status : GattStatus) (value : Buffer) :
    Calm s (s.handleRead env handle status value) := by
  unfold handleRead
  split
  · exact .refl s
  · split
    · exact finishActiveRead_calm env s status value
    · exact .refl s

/-! ### Profiles and Protocol Mode -/

theorem profileCharacteristic_calm (service : GattServiceInfo) (characteristic : GattCharacteristicInfo) :
    Calm s (profileCharacteristic service s characteristic) := by
  unfold profileCharacteristic
  split
  · dsimp only
    split <;> split <;> exact .data rfl rfl
  · exact .refl s

theorem checkReferences_calm (serviceInstance : Nat) : Calm s (checkReferences serviceInstance s) := by
  unfold checkReferences
  split
  · exact .refl s
  · split
    · exact .refl s
    · exact .data rfl rfl

theorem buildHidProfiles_calm : Calm s s.buildHidProfiles := by
  refine .foldl (fun t service => ?_) _ s
  unfold profileService
  split
  · exact .refl t
  · exact (Calm.foldl (fun u => profileCharacteristic_calm u service) _ t).trans (checkReferences_calm _ _)

theorem planCharacteristics_calm (service : GattServiceInfo) (characteristics : List GattCharacteristicInfo) :
    Calm s (planCharacteristics service characteristics s) := by
  induction characteristics generalizing s with
  | nil => exact .refl s
  | cons characteristic rest ih =>
    unfold planCharacteristics
    split
    · exact ih s
    · split
      · exact .mark _ s
      · have hadded : Calm s (s.addSubscription service characteristic) := .data rfl rfl
        exact hadded.trans (ih _)

theorem planSubscriptions_calm : Calm s s.planSubscriptions := by
  have hempty : Calm s { s with subscriptionQueue := [] } := .data rfl rfl
  exact hempty.trans (.foldl (fun t service => planCharacteristics_calm t service service.characteristics) _ _)

theorem nextProtocolModeWrite_calm : Calm s (s.nextProtocolModeWrite env) := by
  cases hhandles : s.protocolWriteHandles with
  | nil =>
    simp only [nextProtocolModeWrite, hhandles]
    exact (planSubscriptions_calm s).trans (.transition env _ _)
  | cons handle rest =>
    rw [nextProtocolModeWrite_eq env hhandles]
    refine ⟨rfl, _, List.append_assoc .., ?_⟩
    cases env.writeCharAccepted <;> simp [TraceEntry.starts]

theorem startProtocolModeWrite_calm : Calm s (s.startProtocolModeWrite env) := by
  unfold startProtocolModeWrite
  split
  · have hcollected : Calm s (s.collectProtocolWrites env) := .entry (.transition .writingProtocolMode) rfl rfl rfl
    exact hcollected.trans (nextProtocolModeWrite_calm env _)
  · exact nextProtocolModeWrite_calm env s

/-! ### Subscriptions -/

theorem writeCurrentCccd_calm : Calm s (s.writeCurrentCccd env) := by
  unfold writeCurrentCccd
  split
  · exact .refl s
  · rename_i sub _
    have hwritten : Calm s ({ s with subscriptionState := s.subscriptionState.markOwnCccdWriteAttempted }.log
        (.writeDescr sub.cccdHandle (cccdValue sub) env.writeDescrAccepted)) := .entry _ rfl rfl rfl
    dsimp only
    split
    · exact hwritten
    · exact hwritten.trans ((giveUp_calm _ sub _).trans (.transition env _ _))

theorem handleRegistrationResult_calm (handle : Nat) (status : GattStatus) :
    Calm s (s.handleRegistrationResult env handle status) := by
  unfold handleRegistrationResult
  dsimp only
  generalize s.subscriptionState.registrationResult handle (status == GattStatus.ok) env.registrationMs
    cccdFallbackDelayMs = result
  obtain ⟨subscriptionState, decision⟩ := result
  have hlogged : Calm s ({ s with subscriptionState }.log
      (.registrationResult s.activeSubscription handle (status == GattStatus.ok) decision)) := .entry _ rfl rfl rfl
  dsimp only
  split
  · exact hlogged
  · rename_i sub _
    split
    · exact hlogged
    · split
      · exact hlogged.trans ((giveUp_calm _ sub _).trans (.transition env _ _))
      · exact hlogged.trans (.transition env _ _)

theorem handleCccdResult_calm (handle : Nat) (status : GattStatus) :
    Calm s (s.handleCccdResult env handle status) := by
  unfold handleCccdResult
  dsimp only
  generalize s.subscriptionState.cccdResult handle (status == GattStatus.ok) = result
  obtain ⟨subscriptionState, decision⟩ := result
  have hlogged : Calm s ({ s with subscriptionState }.log
      (.cccdResult s.activeSubscription handle (status == GattStatus.ok) decision)) := .entry _ rfl rfl rfl
  dsimp only
  split
  · exact hlogged
  · rename_i sub _
    split
    · exact hlogged
    · split
      · have hdone (t : BLEClientHID) :
            Calm t { t with operationsSucceeded := t.operationsSucceeded + 1 }.resetSubscription :=
          .entry .subscriptionReset rfl rfl rfl
        exact hlogged.trans ((hdone _).trans (.transition env _ _))
      · split
        · exact hlogged.trans (writeCurrentCccd_calm env _)
        · exact hlogged.trans ((giveUp_calm _ sub _).trans (.transition env _ _))

theorem handleSearchComplete_calm (status : GattStatus) : Calm s (s.handleSearchComplete env status) := by
  have hlogged : Calm s (s.log (.searchComplete status)) := .entry _ rfl rfl rfl
  unfold handleSearchComplete
  dsimp only
  split
  · exact hlogged.trans ((Calm.mark _ _).trans (finalizeSetup_calm env _))
  · exact hlogged.trans (.transition env _ _)

theorem handlePhaseTimeout_calm : Calm s (s.handlePhaseTimeout env) := by
  unfold handlePhaseTimeout
  split
  · exact .refl s
  · have hlogged : Calm s (s.log (.timeout s.setupPhase)) := .entry _ rfl rfl rfl
    have htimedOut : Calm s s.timedOut := hlogged.trans (.mark _ _)
    have hdropped (t : BLEClientHID) : Calm t { t with activeRead := none, readQueue := [] } := .data rfl rfl
    have hreset (t : BLEClientHID) : Calm t { t with subscriptionQueue := [] }.resetSubscription :=
      .entry .subscriptionReset rfl rfl rfl
    apply htimedOut.trans
    dsimp only
    split
    · exact (hdropped _).trans (.transition env _ _)
    · split
      · exact (hreset _).trans (finalizeSetup_calm env _)
      · exact finalizeSetup_calm env _

/-! ## Reports -/

theorem evictReports_calm (length fuel n : Nat) : Calm s (evictReports env length fuel n s) := by
  induction fuel generalizing n s with
  | zero => exact .refl s
  | succ fuel ih =>
    rw [evictReports.eq_def]
    dsimp only
    split
    · exact .refl s
    · split
      · rename_i report rest _ _
        have hdrop : Calm s (s.dropOldest (env.overflowMs n) report rest) := .data rfl rfl
        exact hdrop.trans (ih _ _)
      · exact .refl s

theorem enqueueInputReport_calm (handle : Nat) (value : Buffer) (isNotify : Bool) (seqId : Nat) :
    Calm s (enqueueInputReport env handle value isNotify seqId s) := by
  have hroom (payload : List UInt8) := evictReports_calm env s payload.length s.pendingReports.length 0
  unfold enqueueInputReport
  split
  · exact .refl s
  · dsimp only
    split <;> split
    · exact .refl s
    · exact (hroom _).trans (.data rfl rfl)
    · exact .refl s
    · exact (hroom []).trans (.data rfl rfl)

theorem handleNotification_calm (handle : Nat) (value : Buffer) (isNotify : Bool) :
    Calm s (handleNotification env handle value isNotify s) := by
  unfold handleNotification
  dsimp only
  split
  · exact .data rfl rfl
  · split
    · split
      · rw [publishBattery_eq]
        exact .data rfl rfl
      · exact .data rfl rfl
    · have hdrawn : Calm s { s with nextSeqId := (s.nextSeqId + 1) % 2 ^ 64 } := .data rfl rfl
      split
      · exact hdrawn.trans (enqueueInputReport_calm env _ handle value isNotify _)
      · exact hdrawn

theorem processInputReport_calm (clock : ReportClock) (report : PendingHIDReport) :
    Calm s (processInputReport env clock report s) := by
  have hdecoded : Calm s (decodeReport report s).component := by
    unfold decodeReport
    split
    · exact .data rfl rfl
    · split <;> exact .data rfl rfl
  exact hdecoded.trans (.data rfl rfl)

theorem processReports_calm (fuel n : Nat) : Calm s (processReports env fuel n s) := by
  induction fuel generalizing n s with
  | zero => exact .refl s
  | succ fuel ih =>
    rw [processReports.eq_def]
    dsimp only
    split
    · exact .refl s
    · split
      · rename_i report rest _ _
        have htaken : Calm s { s with
            pendingReports := rest, pendingReportBytes := s.pendingReportBytes - report.payload.length } :=
          .data rfl rfl
        exact htaken.trans ((processInputReport_calm env _ _ report).trans (ih _ _))
      · exact .refl s

/-! ## Steps -/

theorem runPhase_calm (hcongested : s.congested = true) : Calm s (s.runPhase env) := by
  unfold runPhase
  split
  · exact runInventory_calm env s
  · unfold startNextRead
    rw [if_pos (by simp [hcongested])]
    exact .refl s
  · exact (buildHidProfiles_calm s).trans (startProtocolModeWrite_calm env _)
  · exact startProtocolModeWrite_calm env s
  · unfold startNextSubscription
    rw [if_pos (by simp [hcongested])]
    exact .refl s
  · split
    · exact writeCurrentCccd_calm env s
    · exact .refl s
  · exact .refl s

theorem loop_calm (hcongested : s.congested = true) : Calm s (s.loop env) := by
  have hrediscovery : Calm s s.requestPendingRediscovery := by
    unfold requestPendingRediscovery
    split
    · exact .entry .disconnect rfl rfl rfl
    · exact .refl s
  have hwindow (now : UInt32) (t : BLEClientHID) : Calm t (t.updateWindow now) := .data rfl rfl
  have hphase := hrediscovery.trans (runPhase_calm env _ (hrediscovery.congested.trans hcongested))
  have htimeout := hphase.trans (handlePhaseTimeout_calm env _)
  exact htimeout.trans ((hwindow _ _).trans ((processReports_calm env _ _ _).trans (hwindow _ _)))

/-- A callback that is no report of back-pressure and no new connection. -/
theorem handleGattcEvent_calm {event : GattcEvent} (hreset : resetsConnection env event = false)
    (hcongest : ∀ connId congested, event ≠ .congest connId congested)
    (hfull : ∀ connId isFull, event ≠ .queueFull connId isFull) : Calm s (s.handleGattcEvent env event) := by
  cases event with
  | connect remoteBda | disconnect remoteBda =>
    rw [handleGattcEvent, if_neg (by simpa [resetsConnection] using hreset)]
    exact .refl s
  | searchCmpl connId status =>
    rw [handleGattcEvent]
    split
    · exact handleSearchComplete_calm env s status
    · exact .refl s
  | read connId handle status value =>
    rw [handleGattcEvent]
    split
    · exact handleRead_calm env s handle status value
    · exact .refl s
  | regForNotify handle status => exact handleRegistrationResult_calm env s handle status
  | writeDescr connId handle status =>
    rw [handleGattcEvent]
    split
    · exact handleCccdResult_calm env s handle status
    · exact .refl s
  | notify connId remoteBda handle value isNotify =>
    rw [handleGattcEvent]
    split
    · exact handleNotification_calm env s handle value isNotify
    · exact .refl s
  | srvcChg remoteBda =>
    rw [handleGattcEvent]
    split
    · exact .data rfl rfl
    · exact .refl s
  | congest connId congested => exact absurd rfl (hcongest connId congested)
  | queueFull connId isFull => exact absurd rfl (hfull connId isFull)
  | other => exact .refl s

end

end BLEClientHID

/-! ## Runs -/

open BLEClientHID

/-- The flag covers what the stack has reported. -/
def Guards (p : Backpressure) (s : BLEClientHID) : Prop := p.raised = true → s.congested = true

theorem after_of_ne {event : GattcEvent} (hcongest : ∀ connId congested, event ≠ .congest connId congested)
    (hfull : ∀ connId isFull, event ≠ .queueFull connId isFull) {env : Env} {gattcIf : Option Nat}
    (haccepted : accepted env gattcIf = true) (hreset : BLEClientHID.resetsConnection env event = false)
    (p : Backpressure) : p.after (.gattc env event gattcIf) = p := by
  simp only [Backpressure.after, haccepted, hreset, Bool.not_true, Bool.false_eq_true, if_false]

theorem resetsConnection_cases {env : Env} {event : GattcEvent}
    (h : BLEClientHID.resetsConnection env event = true) (s : BLEClientHID) :
    s.handleGattcEvent env event = (s.resetConnectionState.transition env .waitingForDiscovery).log .setEncryption ∨
      s.handleGattcEvent env event = s.resetConnectionState.transition env .disconnected := by
  cases event with
  | connect remoteBda => exact .inl (if_pos (by simpa [BLEClientHID.resetsConnection] using h))
  | disconnect remoteBda => exact .inr (if_pos (by simpa [BLEClientHID.resetsConnection] using h))
  | _ => cases h

/-- Callbacks start nothing, and `loop()` starts nothing while the flag is up. -/
theorem started_nil {s : BLEClientHID} {event : Event} (h : ∀ env, event = .loop env → s.congested = true) :
    started s event = [] := by
  cases event with
  | loop env => exact (loop_calm env s (h env rfl)).added
  | gattc env event gattcIf =>
    unfold started
    cases haccepted : accepted env gattcIf with
    | false =>
      rw [step_refused haccepted, resetsConnection_eq, haccepted]
      simp
    | true =>
      rw [step_accepted haccepted, resetsConnection_eq, haccepted, Bool.true_and]
      cases hreset : BLEClientHID.resetsConnection env event with
      | true => rcases resetsConnection_cases hreset s with heq | heq <;> rw [heq] <;> rfl
      | false =>
        have hcalm : Calm s (s.handleGattcEvent env event) ∨
            (s.handleGattcEvent env event).trace = s.trace := by
          cases event with
          | congest | queueFull =>
            refine .inr ?_
            rw [handleGattcEvent]
            split <;> rfl
          | _ => exact .inl (handleGattcEvent_calm env s hreset (fun _ _ => by simp) fun _ _ => by simp)
        rcases hcalm with hcalm | htrace
        · exact hcalm.added
        · simp [htrace]

/-- A step keeps the guard unless it clears one condition while the other one stands. -/
theorem Guards.step {p : Backpressure} {s : BLEClientHID} (h : Guards p s) {event : Event}
    (hclear : p.overwrites event = false) : Guards (p.after event) (step s event) := by
  cases event with
  | loop env =>
    -- loop() leaves a raised flag raised
    intro hraised
    exact (loop_calm env s (h hraised)).congested.trans (h hraised)
  | gattc env event gattcIf =>
    cases haccepted : accepted env gattcIf with
    | false =>
      rw [step_refused haccepted]
      simpa [Backpressure.after, haccepted] using h
    | true =>
      rw [step_accepted haccepted]
      cases hreset : BLEClientHID.resetsConnection env event with
      | true => simp [Guards, Backpressure.after, Backpressure.raised, haccepted, hreset]
      | false =>
        -- the callbacks that do not report pressure leave the flag and the guard alone
        have hkept (hcongest : ∀ connId value, event ≠ .congest connId value)
            (hfull : ∀ connId value, event ≠ .queueFull connId value) :
            Guards (p.after (.gattc env event gattcIf)) (s.handleGattcEvent env event) := by
          rw [after_of_ne hcongest hfull haccepted hreset]
          intro hraised
          exact (handleGattcEvent_calm env s hreset hcongest hfull).congested.trans (h hraised)
        cases event with
        | congest connId congested =>
          by_cases hconn : connId = env.connId
          · cases congested <;>
              simp_all [Guards, Backpressure.after, Backpressure.overwrites, Backpressure.raised, handleGattcEvent]
          · simpa [Backpressure.after, handleGattcEvent, haccepted, hreset, hconn] using h
        | queueFull connId isFull =>
          -- the same flag, written by the other callback
          by_cases hconn : connId = env.connId
          · cases isFull <;>
              simp_all [Guards, Backpressure.after, Backpressure.overwrites, Backpressure.raised, handleGattcEvent]
          · simpa [Backpressure.after, handleGattcEvent, haccepted, hreset, hconn] using h
        | _ => exact hkept (fun _ _ => by simp) fun _ _ => by simp

/-- No callback of the run clears one condition while the other one stands. -/
def ClearsApart (events : List Event) : Prop :=
  ∀ n, ∀ hn : n < events.length, (backpressure (events.take n)).overwrites events[n] = false

theorem ClearsApart.init {events : List Event} {event : Event} (h : ClearsApart (events ++ [event])) :
    ClearsApart events := by
  intro n hn
  have hstep := h n (by simp; omega)
  rwa [List.take_append_of_le_length (by omega), List.getElem_append_left hn] at hstep

theorem ClearsApart.last {events : List Event} {event : Event} (h : ClearsApart (events ++ [event])) :
    (backpressure events).overwrites event = false := by
  have hlast := h events.length (by simp)
  rwa [List.take_left, List.getElem_concat_length rfl] at hlast

theorem ClearsApart.take {events : List Event} (h : ClearsApart events) (n : Nat) :
    ClearsApart (events.take n) := by
  intro k hk
  rw [List.length_take] at hk
  have hstep := h k (by omega)
  rwa [List.take_take, Nat.min_eq_left (by omega), List.getElem_take]

theorem guards_run (discoveryMode : DiscoveryMode) (policy : ProtocolModePolicy) (interval : UInt32)
    (events : List Event) (hclear : ClearsApart events) :
    Guards (backpressure events) (run (initial discoveryMode policy interval) events) := by
  induction events using List.reverseRecOn with
  | nil => exact fun hraised => absurd hraised (by decide)
  | append_singleton events event ih =>
    have hstep := (ih hclear.init).step hclear.last
    rw [run_append_singleton]
    simpa [backpressure, List.foldl_append] using hstep

/-- As long as no callback clears one condition over the other, nothing is started while one of them stands. -/
theorem nothing_started (discoveryMode : DiscoveryMode) (policy : ProtocolModePolicy) (interval : UInt32)
    (events : List Event) (hclear : ClearsApart events) (n : Nat) (hn : n < events.length)
    (hraised : (backpressure (events.take n)).raised = true) :
    started (run (initial discoveryMode policy interval) (events.take n)) events[n] = [] :=
  started_nil fun _ _ => guards_run discoveryMode policy interval _ (hclear.take n) hraised

instance (events : List Event) : Decidable (ClearsApart events) :=
  decidable_of_iff (∀ n : Fin events.length, (backpressure (events.take n)).overwrites events[n] = false)
    ⟨fun h n hn => h ⟨n, hn⟩, fun h n => h n n.isLt⟩

/-- The stack is congested when the first read is due, and then no longer. -/
def congestedSetup : List Event :=
  exampleRun keyboardServices
    (connectAndSearch ++ [none, some (.congest 0 true), none, some (.congest 0 false), none])

theorem nothing_started_congested :
    started (run (initial .standard .unchanged 0) (congestedSetup.take 4)) congestedSetup[4] = [] :=
  nothing_started .standard .unchanged 0 congestedSetup (by decide +kernel) 4 (by decide) (by decide +kernel)

/-- A queue that is no longer full lifts the congestion. -/
def overwrittenSetup : List Event :=
  exampleRun keyboardServices (connectAndSearch ++ [none, some (.congest 0 true), some (.queueFull 0 false), none])

theorem started_while_congested :
    (backpressure (overwrittenSetup.take 5)).congested = true ∧
      started (run (initial .standard .unchanged 0) (overwrittenSetup.take 5)) overwrittenSetup[5] =
        [.readChar 3 true] := by
  decide +kernel

end BleClientHid
