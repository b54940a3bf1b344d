import BleClientHid.Component.Acts

/-! # The report side

The queue of reports, the sampling window and the counters of both. The setup
neither reads nor changes them.
-/

namespace BleClientHid

structure ReportSide where
  pendingReports : List PendingHIDReport
  pendingReportBytes : Nat
  window : SamplingWindow
  lastOverflowWarning : UInt32
  reportsDropped : Nat
  nextSeqId : Nat

namespace BLEClientHID

def reports (s : BLEClientHID) : ReportSide where
  pendingReports := s.pendingReports
  pendingReportBytes := s.pendingReportBytes
  window := s.window
  lastOverflowWarning := s.lastOverflowWarning
  reportsDropped := s.reportsDropped
  nextSeqId := s.nextSeqId

/-- The same setup with another report side and other outputs. -/
def reshape (r : ReportSide) (o : List Output) (s : BLEClientHID) : BLEClientHID :=
  { s with
    pendingReports := r.pendingReports
    pendingReportBytes := r.pendingReportBytes
    window := r.window
    lastOverflowWarning := r.lastOverflowWarning
    reportsDropped := r.reportsDropped
    nextSeqId := r.nextSeqId
    outputs := o }

/-- The function neither reads nor changes the report side, and publishes nothing. -/
def Silent (f : BLEClientHID → BLEClientHID) : Prop := ∀ r o s, f (s.reshape r o) = (f s).reshape r o

/-- The same, but the function may publish Battery Levels. -/
def Apart (f : BLEClientHID → BLEClientHID) : Prop :=
  ∀ s, ∃ levels : List Nat, ∀ r o, f (s.reshape r o) = (f s).reshape r (o ++ levels.map .battery)

variable {f g : BLEClientHID → BLEClientHID}

theorem Silent.comp (hf : Silent f) (hg : Silent g) : Silent fun s => g (f s) := by
  intro r o s
  dsimp only
  rw [hf r o s, hg r o (f s)]

theorem Silent.apart (hf : Silent f) : Apart f := fun s => ⟨[], fun r o => by simp [hf r o s]⟩

theorem reshape_self (s : BLEClientHID) : s.reshape s.reports s.outputs = s := rfl

theorem Apart.reports (hf : Apart f) (s : BLEClientHID) : (f s).reports = s.reports := by
  obtain ⟨levels, h⟩ := hf s
  have hself := h s.reports s.outputs
  rw [reshape_self] at hself
  rw [hself]
  rfl

theorem Silent.foldl {α : Type} {f : BLEClientHID → α → BLEClientHID} (hf : ∀ a, Silent (f · a)) (l : List α) :
    Silent (l.foldl f) := by
  intro r o s
  induction l generalizing s with
  | nil => rfl
  | cons a l ih => exact (congrArg (l.foldl f) (hf a r o s)).trans (ih (f s a))

theorem Silent.ite {c : BLEClientHID → Prop} [∀ s, Decidable (c s)] (hc : ∀ r o s, c (s.reshape r o) = c s)
    (hf : Silent f) (hg : Silent g) : Silent fun s => if c s then f s else g s := by
  intro r o s
  by_cases h : c s
  · simp only [hc, if_pos h, hf r o s]
  · simp only [hc, if_neg h, hg r o s]

theorem id_silent : Silent id := fun _ _ _ => rfl

/-! ## Building blocks -/

section

variable (env : Env)

theorem log_silent (entry : TraceEntry) : Silent (log entry) := fun _ _ _ => rfl

theorem transition_silent (phase : SetupPhase) : Silent (transition env phase) := fun _ _ _ => rfl

theorem markDegraded_silent (reason : String) : Silent (markDegraded reason) := fun _ _ _ => rfl

theorem operationFailed_silent (required : Bool) (reason : String) : Silent (operationFailed required reason) := by
  intro r o s
  cases required <;> rfl

theorem finalizeSetup_silent : Silent (finalizeSetup env) := by
  intro r o s
  rw [finalizeSetup_eq, finalizeSetup_eq]
  rfl

theorem giveUp_silent (sub : SubscriptionInfo) (reason : String) : Silent (giveUp sub reason) := by
  intro r o s
  rw [giveUp_eq, giveUp_eq]
  rfl

/-! ## The inventory -/

def InventoryState.reshape (r : ReportSide) (o : List Output) (st : InventoryState) : InventoryState :=
  { st with component := st.component.reshape r o }

section

variable (r : ReportSide) (o : List Output) (st : InventoryState)

@[simp] theorem reshape_includedServiceTotal :
    (st.reshape r o).includedServiceTotal = st.includedServiceTotal := rfl
@[simp] theorem reshape_characteristicTotal : (st.reshape r o).characteristicTotal = st.characteristicTotal := rfl
@[simp] theorem reshape_descriptorTotal : (st.reshape r o).descriptorTotal = st.descriptorTotal := rfl
@[simp] theorem reshape_services : (st.reshape r o).component.services = st.component.services := rfl

theorem limitIncludes_reshape (count : Nat) :
    (st.reshape r o).limitIncludes count = (st.limitIncludes count).reshape r o := by
  unfold InventoryState.limitIncludes
  rw [reshape_includedServiceTotal]
  split <;> rfl

theorem limitCharacteristics_reshape :
    (st.reshape r o).limitCharacteristics = st.limitCharacteristics.reshape r o := by
  unfold InventoryState.limitCharacteristics
  rw [reshape_characteristicTotal]
  split <;> rfl

theorem limitServices_reshape : limitServices (st.reshape r o) = (limitServices st).reshape r o := by
  unfold limitServices
  rw [reshape_services]
  split <;> rfl

theorem inventoryIncludes_reshape (service : GattServiceInfo) :
    inventoryIncludes env service (st.reshape r o) =
      ((inventoryIncludes env service st).1.reshape r o, (inventoryIncludes env service st).2) := by
  unfold inventoryIncludes
  simp only [limitIncludes_reshape, reshape_includedServiceTotal]
  split
  · rfl
  · split <;> rfl

theorem inventoryDescriptors_reshape (handle fuel offset : Nat) :
    inventoryDescriptors env handle fuel offset (st.reshape r o) =
      ((inventoryDescriptors env handle fuel offset st).1.reshape r o,
        (inventoryDescriptors env handle fuel offset st).2) := by
  induction fuel generalizing offset st with
  | zero => rfl
  | succ fuel ih =>
    unfold inventoryDescriptors
    simp only [reshape_descriptorTotal]
    split
    · rfl
    · split
      · rfl
      · split
        · rfl
        · have hrest := ih { st.update ("D:" ++ env.platform.uuidString
            (env.gatt.getAllDescr handle offset).2.2.uuid ++
            ";") with descriptorTotal := st.descriptorTotal + 1 } (offset + 1)
          have hstate := congrArg Prod.fst hrest
          have hlist := congrArg Prod.snd hrest
          exact Prod.ext hstate (congrArg (List.cons _) hlist)

theorem limitDescriptors_reshape (reason : String) :
    (if (st.reshape r o).descriptorTotal ≥ maxDescriptors then (st.reshape r o).markDegraded reason else
      st.reshape r o) =
      (if st.descriptorTotal ≥ maxDescriptors then st.markDegraded reason else st).reshape r o := by
  rw [reshape_descriptorTotal]
  split <;> rfl

theorem inventoryCharacteristic_reshape (service : GattServiceInfo) (elem : CharElem) :
    inventoryCharacteristic env service elem (st.reshape r o) =
      ((inventoryCharacteristic env service elem st).1.reshape r o,
        (inventoryCharacteristic env service elem st).2) := by
  have hdescriptors (text : String) :
      inventoryDescriptors env elem.handle maxDescriptors 0 { (st.reshape r o).update text with
        characteristicTotal := ((st.reshape r o).update text).characteristicTotal + 1 } = _ :=
    inventoryDescriptors_reshape env r o { st.update text with characteristicTotal := st.characteristicTotal + 1 }
      elem.handle maxDescriptors 0
  unfold inventoryCharacteristic
  dsimp only at hdescriptors ⊢
  rw [hdescriptors]
  exact Prod.ext (limitDescriptors_reshape ..) rfl

theorem inventoryCharacteristics_reshape (service : GattServiceInfo) (fuel offset : Nat) :
    inventoryCharacteristics env service fuel offset (st.reshape r o) =
      ((inventoryCharacteristics env service fuel offset st).1.reshape r o,
        (inventoryCharacteristics env service fuel offset st).2) := by
  induction fuel generalizing offset st with
  | zero => rfl
  | succ fuel ih =>
    unfold inventoryCharacteristics
    simp only [reshape_characteristicTotal, inventoryCharacteristic_reshape, ih]
    split
    · rfl
    · split
      · rfl
      · split <;> rfl

theorem inventoryContents_reshape (service : GattServiceInfo) :
    inventoryContents env service (st.reshape r o) =
      ((inventoryContents env service st).1.reshape r o, (inventoryContents env service st).2) := by
  unfold inventoryContents
  simp only [inventoryIncludes_reshape, inventoryCharacteristics_reshape, limitCharacteristics_reshape]

theorem inventoryService_reshape (offset : Nat) (elem : ServiceElem) :
    inventoryService env offset elem (st.reshape r o) = (inventoryService env offset elem st).reshape r o := by
  have hcontents (text : String) : inventoryContents env (serviceInfo offset elem)
    ((st.reshape r o).update text) = _ :=
    inventoryContents_reshape env r o (st.update text) (serviceInfo offset elem)
  unfold inventoryService
  dsimp only
  rw [hcontents]
  rfl

theorem inventoryServices_reshape (fuel offset : Nat) :
    inventoryServices env fuel offset (st.reshape r o) =
      ((inventoryServices env fuel offset st).1.reshape r o, (inventoryServices env fuel offset st).2) := by
  induction fuel generalizing offset st with
  | zero => rfl
  | succ fuel ih =>
    unfold inventoryServices
    simp only [inventoryService_reshape, ih]
    split
    · rfl
    · split <;> rfl

theorem inventoryGattDatabase_reshape (s : BLEClientHID) :
    inventoryGattDatabase env (s.reshape r o) =
      ((inventoryGattDatabase env s).1.reshape r o, (inventoryGattDatabase env s).2) := by
  have hservices : inventoryServices env maxServices 0 { component :=
      { s.reshape r o with services := [], hidServices := [] } } = _ :=
    inventoryServices_reshape env r o { component := { s with services := [], hidServices := [] } } maxServices 0
  unfold inventoryGattDatabase
  dsimp only at hservices ⊢
  rw [hservices]
  simp only [limitServices_reshape, reshape_services]
  split <;> rfl

end

/-! ## Reads -/

section

variable (r : ReportSide) (o : List Output) (s : BLEClientHID)

@[simp] theorem reshape_setupPhase : (s.reshape r o).setupPhase = s.setupPhase := rfl
@[simp] theorem reshape_activeRead : (s.reshape r o).activeRead = s.activeRead := rfl
@[simp] theorem reshape_readQueue : (s.reshape r o).readQueue = s.readQueue := rfl
@[simp] theorem reshape_activeSubscription : (s.reshape r o).activeSubscription = s.activeSubscription := rfl
@[simp] theorem reshape_subscriptionQueue : (s.reshape r o).subscriptionQueue = s.subscriptionQueue := rfl
@[simp] theorem reshape_subscriptionState : (s.reshape r o).subscriptionState = s.subscriptionState := rfl
@[simp] theorem reshape_protocolWriteHandles : (s.reshape r o).protocolWriteHandles = s.protocolWriteHandles := rfl
@[simp] theorem reshape_findHidContext (i : Nat) : (s.reshape r o).findHidContext i = s.findHidContext i := rfl

end

theorem addRead_silent (operation : GattReadOperation) : Silent (addRead · operation) := by
  unfold addRead
  refine .ite (fun _ _ _ => rfl) id_silent (.ite (fun _ _ _ => rfl) (markDegraded_silent _) ?_)
  exact fun _ _ _ => rfl

theorem planReads_silent : Silent planReads := by
  intro r o s
  exact Silent.foldl addRead_silent (wantedReads s.discoveryMode s.services) r o
    { s with readQueue := [], plannedReadHandles := ∅ }

theorem startNextRead_silent : Silent (startNextRead env) := by
  unfold startNextRead
  refine .ite (fun _ _ _ => rfl) id_silent ?_
  intro r o s
  dsimp only
  rw [reshape_readQueue]
  split
  · rfl
  · split
    · rfl
    · rename_i operation rest _ _
      exact operationFailed_silent _ _ r o { s.startRead env operation rest with activeRead := none }

section

variable (operation : GattReadOperation) (value : List UInt8)

theorem readReportReference_silent : Silent (readReportReference operation value) := by
  intro r o s
  unfold readReportReference
  dsimp only
  split
  · split <;> rfl
  · rfl

theorem readReportMap_silent : Silent (readReportMap env operation value) := by
  unfold readReportMap
  refine .ite (fun _ _ _ => rfl) (markDegraded_silent _) ?_
  exact .ite (fun _ _ _ => rfl) (fun _ _ _ => rfl) fun _ _ _ => rfl

theorem check_silent (p : Prop) [Decidable p] (reason : String) :
    Silent fun s => if p then s else s.markDegraded reason :=
  .ite (fun _ _ _ => rfl) id_silent (markDegraded_silent reason)

theorem readPreferredConnectionParameters_silent : Silent (readPreferredConnectionParameters env value) :=
  .ite (fun _ _ _ => rfl) (fun _ _ _ => rfl) (markDegraded_silent _)

theorem readHidInformation_silent : Silent (readHidInformation operation value) :=
  .ite (fun _ _ _ => rfl) id_silent (markDegraded_silent _)

theorem readProtocolMode_silent : Silent (readProtocolMode operation value) :=
  .ite (fun _ _ _ => rfl) (fun _ _ _ => rfl) (markDegraded_silent _)

theorem publishBattery_apart (level : UInt8) : Apart (publishBattery env level) := by
  refine fun s => ⟨env.sensed [level.toNat], fun r o => ?_⟩
  rw [publishBattery_eq, publishBattery_eq]
  rfl

theorem readBatteryLevel_apart : Apart (readBatteryLevel env operation value) := by
  cases value with
  | nil => exact Silent.apart fun _ _ _ => rfl
  | cons level value =>
    refine fun s => ⟨env.sensed [level.toNat], fun r o => ?_⟩
    rw [readBatteryLevel, readBatteryLevel, publishBattery_eq, publishBattery_eq]
    rfl

theorem readValue_apart : Apart (readValue env operation value) := by
  unfold readValue
  split
  · exact (check_silent _ _).apart
  · exact (readPreferredConnectionParameters_silent env value).apart
  · exact readBatteryLevel_apart env operation value
  · exact (check_silent _ _).apart
  · exact (readHidInformation_silent operation value).apart
  · exact (readProtocolMode_silent operation value).apart
  · exact (readReportMap_silent env operation value).apart
  · exact (readReportReference_silent operation value).apart
  · exact (check_silent _ _).apart
  · exact Silent.apart fun _ _ _ => rfl

end

theorem processReadValue_apart (operation : GattReadOperation) (value : Buffer) :
    Apart (processReadValue env operation value) := by
  cases value with
  | null n =>
    cases n with
    | zero => exact readValue_apart env operation []
    | succ n => exact (Silent.ite (fun _ _ _ => rfl) (markDegraded_silent _) id_silent).apart
  | bytes bytes => exact readValue_apart env operation bytes

theorem finishActiveRead_apart (status : GattStatus) (value : Buffer) :
    Apart (finishActiveRead env status value) := by
  intro s
  unfold finishActiveRead
  simp only [reshape_activeRead]
  cases hactive : s.activeRead with
  | none => exact (id_silent.apart) s
  | some operation =>
    dsimp only
    split
    · exact (operationFailed_silent _ _).apart { s with activeRead := none }
    · split
      · exact (operationFailed_silent _ _).apart { s with activeRead := none }
      · exact processReadValue_apart env operation value { s with
          activeRead := none, operationsSucceeded := s.operationsSucceeded + 1 }

theorem handleRead_apart (handle : Nat) (status : GattStatus) (value : Buffer) :
    Apart (handleRead env handle status value) := by
  intro s
  unfold handleRead
  simp only [reshape_activeRead]
  cases hactive : s.activeRead with
  | none => exact (id_silent.apart) s
  | some operation =>
    dsimp only
    split
    · exact finishActiveRead_apart env status value s
    · exact (id_silent.apart) s

/-! ## Profiles and Protocol Mode -/

theorem profileCharacteristic_silent (service : GattServiceInfo) (characteristic : GattCharacteristicInfo) :
    Silent (profileCharacteristic service · characteristic) := by
  intro r o s
  unfold profileCharacteristic
  split
  · dsimp only
    split <;> split <;> rfl
  · rfl

theorem checkReferences_silent (serviceInstance : Nat) : Silent (checkReferences serviceInstance) := by
  intro r o s
  unfold checkReferences
  rw [reshape_findHidContext]
  split
  · rfl
  · split <;> rfl

theorem profileService_silent (service : GattServiceInfo) : Silent (profileService · service) := by
  unfold profileService
  refine .ite (fun _ _ _ => rfl) id_silent ?_
  exact (Silent.foldl (profileCharacteristic_silent service) _).comp (checkReferences_silent _)

theorem buildHidProfiles_silent : Silent buildHidProfiles := by
  intro r o s
  exact Silent.foldl profileService_silent s.services r o s

theorem planCharacteristics_silent (service : GattServiceInfo) (characteristics : List GattCharacteristicInfo) :
    Silent (planCharacteristics service characteristics) := by
  induction characteristics with
  | nil => exact id_silent
  | cons characteristic rest ih =>
    change Silent fun s => if !subscribes s.discoveryMode service characteristic then planCharacteristics
      service rest s
      else if s.subscriptionQueue.length ≥ maxSubscriptions then s.markDegraded "subscription limit exceeded"
      else planCharacteristics service rest (s.addSubscription service characteristic)
    refine .ite (fun _ _ _ => rfl) ih (.ite (fun _ _ _ => rfl) (markDegraded_silent _) ?_)
    intro r o s
    exact ih r o (s.addSubscription service characteristic)

theorem planSubscriptions_silent : Silent planSubscriptions := by
  intro r o s
  exact Silent.foldl (fun service => planCharacteristics_silent service service.characteristics) s.services r o
    { s with subscriptionQueue := [] }

theorem nextProtocolModeWrite_silent : Silent (nextProtocolModeWrite env) := by
  intro r o s
  unfold nextProtocolModeWrite
  rw [reshape_protocolWriteHandles]
  split
  · rw [planSubscriptions_silent r o s]
    rfl
  · dsimp only
    split <;> rfl

theorem startProtocolModeWrite_silent : Silent (startProtocolModeWrite env) := by
  unfold startProtocolModeWrite
  refine Silent.comp (.ite (fun _ _ _ => rfl) ?_ id_silent) (nextProtocolModeWrite_silent env)
  exact fun _ _ _ => rfl

/-! ## Subscriptions -/

theorem startNextSubscription_silent : Silent (startNextSubscription env) := by
  unfold startNextSubscription
  refine .ite (fun _ _ _ => rfl) id_silent ?_
  intro r o s
  dsimp only
  rw [reshape_subscriptionQueue]
  split
  · exact finalizeSetup_silent env r o s
  · rename_i sub rest _
    have hgiveUp := giveUp_silent sub
    split
    · exact hgiveUp _ r o (s.beginAttempt sub rest)
    · split
      · rfl
      · exact hgiveUp _ r o ((s.beginAttempt sub rest).log
          (.registerForNotify sub.characteristicHandle env.registerAccepted))

theorem handleRegistrationResult_silent (handle : Nat) (status : GattStatus) :
    Silent (handleRegistrationResult env handle status) := by
  intro r o s
  unfold handleRegistrationResult
  dsimp only
  rw [reshape_subscriptionState]
  generalize s.subscriptionState.registrationResult handle (status == GattStatus.ok) env.registrationMs
    cccdFallbackDelayMs = result
  obtain ⟨state, decision⟩ := result
  cases hactive : s.activeSubscription with
  | none =>
    simp only [log, reshape_activeSubscription, hactive]
    rfl
  | some sub =>
    have hend : Silent fun t => if decision = .unmatched then t
        else if decision = .failed then
          (t.operationFailed sub.required "required notification registration failed").resetSubscription
            |>.transition env .registering
        else t.transition env .waitingForCccd :=
      .ite (fun _ _ _ => rfl) id_silent (.ite (fun _ _ _ => rfl)
        ((giveUp_silent sub _).comp (transition_silent env _)) (transition_silent env _))
    simp only [log, reshape_activeSubscription, hactive]
    exact hend r o ({ s with activeSubscription := some sub, subscriptionState := state }.log
      (.registrationResult (some sub) handle (status == GattStatus.ok) decision))

theorem writeCurrentCccd_silent : Silent (writeCurrentCccd env) := by
  intro r o s
  unfold writeCurrentCccd
  rw [reshape_activeSubscription]
  split
  · rfl
  · rename_i sub _
    split
    · rfl
    · have hgiveUp := giveUp_silent sub "required CCCD write failed" r o ({ s with
        subscriptionState := s.subscriptionState.markOwnCccdWriteAttempted }.log
          (.writeDescr sub.cccdHandle (cccdValue sub) env.writeDescrAccepted))
      exact congrArg (transition env .registering) hgiveUp

theorem handleCccdResult_silent (handle : Nat) (status : GattStatus) :
    Silent (handleCccdResult env handle status) := by
  intro r o s
  unfold handleCccdResult
  dsimp only
  rw [reshape_subscriptionState]
  generalize s.subscriptionState.cccdResult handle (status == GattStatus.ok) = result
  obtain ⟨state, decision⟩ := result
  cases hactive : s.activeSubscription with
  | none =>
    simp only [log, reshape_activeSubscription, hactive]
    rfl
  | some sub =>
    have hend : Silent fun t => if decision = .unmatched then t
        else if decision = .complete then
          { t with operationsSucceeded := t.operationsSucceeded + 1 }.resetSubscription.transition env .registering
        else if decision = .retryCccd then t.writeCurrentCccd env
        else (t.operationFailed sub.required "required CCCD write failed").resetSubscription
          |>.transition env .registering :=
      .ite (fun _ _ _ => rfl) id_silent (.ite (fun _ _ _ => rfl) (fun _ _ _ => rfl)
        (.ite (fun _ _ _ => rfl) (writeCurrentCccd_silent env)
          ((giveUp_silent sub _).comp (transition_silent env _))))
    simp only [log, reshape_activeSubscription, hactive]
    exact hend r o ({ s with activeSubscription := some sub, subscriptionState := state }.log
      (.cccdResult (some sub) handle (status == GattStatus.ok) decision))

/-! ## `loop()` -/

theorem requestPendingRediscovery_silent : Silent requestPendingRediscovery := by
  unfold requestPendingRediscovery
  exact .ite (fun _ _ _ => rfl) (fun _ _ _ => rfl) id_silent

theorem runInventory_silent : Silent (runInventory env) := by
  intro r o s
  unfold runInventory
  rw [inventoryGattDatabase_reshape]
  dsimp only
  split
  · exact finalizeSetup_silent env r o ((inventoryGattDatabase env s).1.markDegraded "GATT inventory failed")
  · have hempty : ((inventoryGattDatabase env s).1.reshape r o).hidServices =
      (inventoryGattDatabase env s).1.hidServices := rfl
    rw [hempty]
    split
    · rfl
    · exact congrArg (transition env .reading) (planReads_silent r o _)

theorem runPhase_silent : Silent (runPhase env) := by
  intro r o s
  unfold runPhase
  rw [reshape_setupPhase]
  split
  · exact runInventory_silent env r o s
  · exact startNextRead_silent env r o s
  · exact (buildHidProfiles_silent.comp (startProtocolModeWrite_silent env)) r o s
  · exact startProtocolModeWrite_silent env r o s
  · exact startNextSubscription_silent env r o s
  · have hfallback : Silent fun s => if s.activeSubscription.isSome && s.subscriptionState.fallbackDue
      env.fallbackMs
        then s.writeCurrentCccd env else s :=
      .ite (fun _ _ _ => rfl) (writeCurrentCccd_silent env) id_silent
    exact hfallback r o s
  · rfl

theorem handlePhaseTimeout_silent : Silent (handlePhaseTimeout env) := by
  unfold handlePhaseTimeout
  refine .ite (c := fun s => (waits s.setupPhase || !elapsed env.timeoutMs s.phaseStartedMs phaseTimeoutMs) = true)
    (fun _ _ _ => rfl) id_silent ?_
  refine .ite (c := fun s => s.setupPhase = .reading) (fun _ _ _ => rfl) (fun _ _ _ => rfl)
    (.ite (c := fun s => s.setupPhase = .registering ∨ s.setupPhase = .waitingForCccd) (fun _ _ _ => rfl) ?_ ?_)
  · intro r o s
    exact finalizeSetup_silent env r o ({ s.timedOut with subscriptionQueue := [] }.resetSubscription)
  · intro r o s
    exact finalizeSetup_silent env r o s.timedOut

theorem loopSetup_silent : Silent (loopSetup env) :=
  (requestPendingRediscovery_silent.comp (runPhase_silent env)).comp (handlePhaseTimeout_silent env)

theorem handleSearchComplete_silent (status : GattStatus) : Silent (handleSearchComplete env status) := by
  unfold handleSearchComplete
  refine .ite (fun _ _ _ => rfl) ?_ fun _ _ _ => rfl
  intro r o s
  exact finalizeSetup_silent env r o ((s.log (.searchComplete status)).markDegraded "GATT service discovery failed")

end

end BLEClientHID

end BleClientHid
