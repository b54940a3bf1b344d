import BleClientHid.Component.Connections
import BleClientHid.Component.Catalog
import BleClientHid.Component.Turns

/-! # The stages of a report

A report passes the decoders and then the sampling window. Outside two phases the setup
leaves both alone.
-/

namespace BleClientHid

open Lib BLEClientHID

/-! ## Two stages -/

/-- What the stages stand on, and whose notifications reach them. -/
structure Profile where
  interval : UInt32 := 0
  services : List GattServiceInfo := []
  hidServices : List HIDServiceContext := []
  bootDecoder : HIDBootReportDecoder := {}
  hidReportHandles : Finset Nat := ∅

def BLEClientHID.profile (s : BLEClientHID) : Profile where
  interval := s.eventSamplingIntervalUs
  services := s.services
  hidServices := s.hidServices
  bootDecoder := s.bootDecoder
  hidReportHandles := s.hidReportHandles

/-- A report from the queue, or a look at the clock. -/
inductive Intake where
  | report (platform : Platform) (clock : ReportClock) (report : PendingHIDReport)
  | window (now : UInt32)

def Intake.report? : Intake → Option PendingHIDReport
  | .report _ _ r => some r
  | .window _ => none

namespace Profile

/-- A component with this profile, and nothing else. -/
def component (p : Profile) : BLEClientHID :=
  { eventSamplingIntervalUs := p.interval, services := p.services, hidServices := p.hidServices,
    bootDecoder := p.bootDecoder, hidReportHandles := p.hidReportHandles }

def accept (p : Profile) : Intake → Profile × SamplingStep
  | .window now => (p, .window now)
  | .report platform clock report =>
    let decoded := decodeReport report p.component
    (decoded.component.profile, .report clock {
      view := { platform, services := p.services, hidServices := decoded.component.hidServices }
      report
      raw := formatValue platform (.bytes report.payload)
      values := decoded.values
      recognized := decoded.recognized
      status := decoded.status })

end Profile

/-- Both stages, and what has left them. -/
structure Pipeline where
  profile : Profile
  window : SamplingWindow
  events : List HIDEvent

namespace Pipeline

def accept (p : Pipeline) (intake : Intake) : Pipeline :=
  let (profile, step) := p.profile.accept intake
  let (window, events) := samplingStep p.profile.interval p.window step
  { profile, window, events := p.events ++ events }

def acceptAll (p : Pipeline) (intakes : List Intake) : Pipeline := intakes.foldl accept p

@[simp] theorem acceptAll_nil (p : Pipeline) : p.acceptAll [] = p := rfl

@[simp] theorem acceptAll_cons (p : Pipeline) (intake : Intake) (intakes : List Intake) :
    p.acceptAll (intake :: intakes) = (p.accept intake).acceptAll intakes := rfl

theorem acceptAll_append (p : Pipeline) (intakes later : List Intake) :
    p.acceptAll (intakes ++ later) = (p.acceptAll intakes).acceptAll later := List.foldl_append

end Pipeline

def Output.event? : Output → Option HIDEvent
  | .hidEvent event => some event
  | .battery _ => none

def BLEClientHID.hidEvents (s : BLEClientHID) : List HIDEvent := s.outputs.filterMap Output.event?

def BLEClientHID.pipeline (s : BLEClientHID) : Pipeline where
  profile := s.profile
  window := s.window
  events := s.hidEvents

/-! ## The report side of `loop()` -/

theorem filterMap_hidEvents (events : List HIDEvent) :
    (events.map Output.hidEvent).filterMap Output.event? = events := by
  rw [List.filterMap_map]
  exact List.filterMap_some

theorem hidEvents_publish (events : List HIDEvent) (s : BLEClientHID) :
    (s.publish (events.map .hidEvent)).hidEvents = s.hidEvents ++ events := by
  unfold hidEvents publish
  rw [List.filterMap_append, filterMap_hidEvents]

theorem filterMap_levels (levels : List Nat) : (levels.map Output.battery).filterMap Output.event? = [] := by
  rw [List.filterMap_map]
  exact List.filterMap_eq_nil_iff.mpr fun _ _ => rfl

theorem decodeReport_profile (report : PendingHIDReport) (s : BLEClientHID) :
    let decoded := decodeReport report s.profile.component
    (decodeReport report s).values = decoded.values ∧ (decodeReport report s).recognized = decoded.recognized ∧
      (decodeReport report s).status = decoded.status ∧
      (decodeReport report s).component.profile = decoded.component.profile ∧
      (decodeReport report s).component.outputs = s.outputs := by
  have hcontext : s.profile.component.findHidContext = s.findHidContext := rfl
  unfold decodeReport
  rw [hcontext]
  split
  · exact ⟨rfl, rfl, rfl, rfl, rfl⟩
  · split <;> exact ⟨rfl, rfl, rfl, rfl, rfl⟩

theorem decodeReport_services (report : PendingHIDReport) (s : BLEClientHID) :
    (decodeReport report s).component.services = s.services ∧
      (decodeReport report s).component.eventSamplingIntervalUs = s.eventSamplingIntervalUs := by
  unfold decodeReport
  split
  · exact ⟨rfl, rfl⟩
  · split <;> exact ⟨rfl, rfl⟩

theorem processInputReport_pipeline (env : Env) (clock : ReportClock) (report : PendingHIDReport)
    (s : BLEClientHID) :
    (processInputReport env clock report s).pipeline =
      s.pipeline.accept (.report env.platform clock report) := by
  obtain ⟨hvalues, hrecognized, hstatus, hprofile, houtputs⟩ := decodeReport_profile report s
  obtain ⟨hservices, hinterval⟩ := decodeReport_services report s
  have hwindow : (decodeReport report s).component.window = s.window :=
    congrArg ReportSide.window (decodeReport_reports report s)
  have hcontexts : (decodeReport report s).component.hidServices =
      (decodeReport report s.profile.component).component.hidServices := congrArg Profile.hidServices hprofile
  have hevents : (decodeReport report s).component.hidEvents = s.hidEvents := by
    unfold hidEvents
    rw [houtputs]
  -- The sampled report is the one of the first stage.
  have hsampled (clock : ReportClock) :
      processDecodedReport (decodeReport report s).component.eventSamplingIntervalUs {
        view := (decodeReport report s).component.view env
        report
        raw := formatValue env.platform (.bytes report.payload)
        values := (decodeReport report s).values
        recognized := (decodeReport report s).recognized
        status := (decodeReport report s).status } clock (decodeReport report s).component.window =
      samplingStep s.eventSamplingIntervalUs s.window
        (s.profile.accept (.report env.platform clock report)).2 := by
    unfold view
    rw [hinterval, hwindow, hservices, hvalues, hrecognized, hstatus, hcontexts]
    rfl
  unfold processInputReport pipeline Pipeline.accept
  dsimp only
  rw [hsampled, Pipeline.mk.injEq]
  exact ⟨hprofile, rfl, (hidEvents_publish _ _).trans (congrArg (· ++ _) hevents)⟩

theorem updateWindow_pipeline (now : UInt32) (s : BLEClientHID) :
    (s.updateWindow now).pipeline = s.pipeline.accept (.window now) := by
  unfold updateWindow pipeline Pipeline.accept Profile.accept
  dsimp only [samplingStep]
  rw [Pipeline.mk.injEq]
  exact ⟨rfl, rfl, hidEvents_publish _ _⟩

/-- The reports that one `loop()` has the time for, each with its clock. -/
def processing (env : Env) : Nat → Nat → List PendingHIDReport → List Intake
  | 0, _, _ => []
  | _ + 1, _, [] => []
  | fuel + 1, n, report :: rest =>
    if env.processingUs n - env.processingStartedUs < maxProcessingTimeUs then
      .report env.platform (env.reportClock n) report :: processing env fuel (n + 1) rest
    else []

theorem processing_reports (env : Env) (fuel n : Nat) (queue : List PendingHIDReport) :
    (processing env fuel n queue).filterMap Intake.report? = queue.take (processedCount env fuel n queue) := by
  induction fuel generalizing n queue with
  | zero => rfl
  | succ fuel ih =>
    cases queue with
    | nil => rfl
    | cons report rest =>
      unfold processing processedCount
      split
      · rw [List.take_succ_cons, ← ih (n + 1) rest]
        rfl
      · rfl

theorem processReports_pipeline (env : Env) (fuel n : Nat) (s : BLEClientHID) :
    (processReports env fuel n s).pipeline = s.pipeline.acceptAll (processing env fuel n s.pendingReports) := by
  induction fuel generalizing n s with
  | zero => rfl
  | succ fuel ih =>
    rw [processReports.eq_def]
    dsimp only
    cases hqueue : s.pendingReports with
    | nil => rfl
    | cons report rest =>
      dsimp only
      rw [processing]
      split
      · -- The report is taken from the queue before it is processed.
        let popped := { s with
          pendingReports := rest, pendingReportBytes := s.pendingReportBytes - report.payload.length }
        have hone := processInputReport_pipeline env (env.reportClock n) report popped
        have hsame := (processInputReport_same env (env.reportClock n) report popped).queue
        have hrest := ih (n + 1) (processInputReport env (env.reportClock n) report popped)
        rw [hsame, hone] at hrest
        exact hrest
      · rfl

/-- What one step hands to the stages. -/
def BLEClientHID.intakes (s : BLEClientHID) : Event → List Intake
  | .loop env =>
    .window env.windowUs :: (processing env maxReportsPerLoop 0 s.pendingReports ++ [.window env.windowEndUs])
  | .gattc .. => []

theorem intakes_reports (s : BLEClientHID) (event : Event) :
    (s.intakes event).filterMap Intake.report? = done (s.queueLog event) := by
  cases event with
  | loop env =>
    have hlog : s.queueLog (.loop env) =
        (s.pendingReports.take (processedCount env maxReportsPerLoop 0 s.pendingReports)).map .processed := rfl
    have hnow : Intake.report? (.window env.windowUs) = none := rfl
    rw [intakes, List.filterMap_cons, hnow, List.filterMap_append, processing_reports, hlog, done_map fun _ => rfl]
    exact List.append_nil _
  | gattc env event gattcIf =>
    unfold queueLog
    split
    · rw [done_append, done_map_none fun _ => rfl]
      rfl
    · dsimp only
      split
      · exact (done_map_none (fun _ => rfl) _).symm
      · rfl

/-! ## What the setup leaves alone -/

namespace BLEClientHID

/-- The component without the plans, the progress and the log of the setup. -/
def fixture (s : BLEClientHID) : BLEClientHID :=
  { s with
    readQueue := []
    activeRead := none
    plannedReadHandles := ∅
    subscriptionQueue := []
    activeSubscription := none
    subscriptionState := {}
    setupPhase := .disconnected
    phaseStartedMs := 0
    operationsSucceeded := 0
    operationsFailed := 0
    degraded := false
    protocolWriteHandles := []
    trace := [] }

/-- Another report side, with the same outputs. -/
def withReports (r : ReportSide) (s : BLEClientHID) : BLEClientHID := s.reshape r s.outputs

theorem profile_of_fixture {s t : BLEClientHID} (h : t.fixture = s.fixture) : t.profile = s.profile := by
  have hprofile := congrArg profile h
  exact hprofile

section

variable (env : Env) (s : BLEClientHID)

theorem operationFailed_fixture (required : Bool) (reason : String) :
    (s.operationFailed required reason).fixture = s.fixture := by
  rw [operationFailed_eq]
  rfl

theorem finalizeSetup_fixture : (s.finalizeSetup env).fixture = s.fixture := by
  rw [finalizeSetup_eq]
  rfl

theorem requestPendingRediscovery_profile : s.requestPendingRediscovery.profile = s.profile := by
  unfold requestPendingRediscovery
  split <;> rfl

theorem addRead_fixture (operation : GattReadOperation) : (s.addRead operation).fixture = s.fixture := by
  unfold addRead
  split
  · rfl
  · split <;> rfl

theorem planReads_fixture : s.planReads.fixture = s.fixture := by
  unfold planReads
  exact List.foldlRecOn (motive := fun t : BLEClientHID => t.fixture = s.fixture) _ _ rfl
    fun t ht operation _ => (addRead_fixture t operation).trans ht

theorem startNextRead_fixture : (s.startNextRead env).fixture = s.fixture := by
  unfold startNextRead
  split
  · rfl
  · split
    · rfl
    · dsimp only
      split
      · rfl
      · exact operationFailed_fixture _ _ _

theorem planCharacteristics_profile (service : GattServiceInfo) (characteristics : List GattCharacteristicInfo) :
    (planCharacteristics service characteristics s).profile = s.profile := by
  induction characteristics generalizing s with
  | nil => rfl
  | cons characteristic rest ih =>
    unfold planCharacteristics
    split
    · exact ih s
    · split
      · rfl
      · exact ih _

theorem planSubscriptions_profile : s.planSubscriptions.profile = s.profile := by
  unfold planSubscriptions
  exact List.foldlRecOn (motive := fun t : BLEClientHID => t.profile = s.profile) _ _ rfl
    fun t ht service _ => (planCharacteristics_profile t service _).trans ht

theorem nextProtocolModeWrite_profile : (s.nextProtocolModeWrite env).profile = s.profile := by
  unfold nextProtocolModeWrite
  split
  · exact planSubscriptions_profile s
  · dsimp only
    split <;> rfl

theorem startProtocolModeWrite_profile : (s.startProtocolModeWrite env).profile = s.profile := by
  unfold startProtocolModeWrite
  split <;> exact nextProtocolModeWrite_profile env _

theorem startNextSubscription_fixture : (s.startNextSubscription env).fixture = s.fixture := by
  unfold startNextSubscription
  split
  · rfl
  · split
    · exact finalizeSetup_fixture env s
    · dsimp only
      split
      · exact operationFailed_fixture _ _ _
      · split
        · rfl
        · exact operationFailed_fixture _ _ _

theorem writeCurrentCccd_fixture : (s.writeCurrentCccd env).fixture = s.fixture := by
  unfold writeCurrentCccd
  split
  · rfl
  · dsimp only
    split
    · rfl
    · exact operationFailed_fixture _ _ _

theorem handleRegistrationResult_fixture (handle : Nat) (status : GattStatus) :
    (s.handleRegistrationResult env handle status).fixture = s.fixture := by
  unfold handleRegistrationResult
  dsimp only
  split
  · rfl
  · split
    · rfl
    · split
      · exact operationFailed_fixture _ _ _
      · rfl

theorem handleCccdResult_fixture (handle : Nat) (status : GattStatus) :
    (s.handleCccdResult env handle status).fixture = s.fixture := by
  unfold handleCccdResult
  dsimp only
  split
  · rfl
  · split
    · rfl
    · split
      · rfl
      · split
        · exact writeCurrentCccd_fixture env _
        · exact operationFailed_fixture _ _ _

theorem handlePhaseTimeout_fixture : (s.handlePhaseTimeout env).fixture = s.fixture := by
  unfold handlePhaseTimeout
  split
  · rfl
  · dsimp only
    split
    · rfl
    · split <;> exact finalizeSetup_fixture env _

theorem handleSearchComplete_fixture (status : GattStatus) :
    (s.handleSearchComplete env status).fixture = s.fixture := by
  unfold handleSearchComplete
  dsimp only
  split
  · exact finalizeSetup_fixture env _
  · rfl

/-- Only the inventory and the profiles change what the decoders stand on. -/
theorem runPhase_profile (hinventory : s.setupPhase ≠ .inventory) (hbuilding : s.setupPhase ≠ .buildingProfile) :
    (s.runPhase env).profile = s.profile := by
  unfold runPhase
  split <;> rename_i hphase
  · exact absurd hphase hinventory
  · exact profile_of_fixture (startNextRead_fixture env s)
  · exact absurd hphase hbuilding
  · exact startProtocolModeWrite_profile env s
  · exact profile_of_fixture (startNextSubscription_fixture env s)
  · split
    · exact profile_of_fixture (writeCurrentCccd_fixture env s)
    · rfl
  · rfl

theorem requestPendingRediscovery_phase : s.requestPendingRediscovery.setupPhase = s.setupPhase := by
  unfold requestPendingRediscovery
  split <;> rfl

theorem loopSetup_profile (hinventory : s.setupPhase ≠ .inventory) (hbuilding : s.setupPhase ≠ .buildingProfile) :
    (s.loopSetup env).profile = s.profile := by
  have hphase := requestPendingRediscovery_phase s
  unfold loopSetup
  rw [profile_of_fixture (handlePhaseTimeout_fixture env _),
    runPhase_profile env _ (by rwa [hphase]) (by rwa [hphase]), requestPendingRediscovery_profile]

theorem evictReports_withReports (r : ReportSide) (length fuel n : Nat) :
    (evictReports env length fuel n s).withReports r = s.withReports r := by
  induction fuel generalizing n s with
  | zero => rfl
  | succ fuel ih =>
    unfold evictReports
    split
    · rfl
    · split
      · exact ih _ _
      · rfl

theorem enqueueInputReport_withReports (r : ReportSide) (handle : Nat) (value : Buffer) (isNotify : Bool)
    (seqId : Nat) : (enqueueInputReport env handle value isNotify seqId s).withReports r = s.withReports r := by
  cases hpayload : admittedPayload value with
  | none => rw [enqueueInputReport_ignored env handle isNotify seqId hpayload]
  | some payload =>
    rw [enqueueInputReport_admitted env handle isNotify seqId hpayload]
    exact evictReports_withReports env s r _ _ _

theorem handleNotification_profile (handle : Nat) (value : Buffer) (isNotify : Bool) :
    (s.handleNotification env handle value isNotify).profile = s.profile := by
  rw [handleNotification_eq]
  unfold receive
  split
  · rfl
  · split
    · split
      · rw [publishBattery_eq]
        rfl
      · rfl
    · split
      · have hprofile := congrArg profile (enqueueInputReport_withReports env s.logRawNotification.1 s.reports handle
          value isNotify s.nextSeqId)
        exact hprofile
      · rfl

/-- Without a read or a reset, a callback leaves the decoders alone. -/
theorem handleGattcEvent_profile {event : GattcEvent} (hreset : resetsConnection env event = false)
    (hread : s.activeRead = none ∨ ∀ connId handle status value, event ≠ .read connId handle status value) :
    (s.handleGattcEvent env event).profile = s.profile := by
  cases event with
  | connect remoteBda | disconnect remoteBda =>
    rw [handleGattcEvent, if_neg (by simpa [resetsConnection] using hreset)]
  | searchCmpl connId status =>
    rw [handleGattcEvent]
    split
    · exact profile_of_fixture (handleSearchComplete_fixture env s status)
    · rfl
  | read connId handle status value =>
    rw [handleGattcEvent, handleRead, hread.resolve_right fun h => h _ _ _ _ rfl]
    split <;> rfl
  | regForNotify handle status => exact profile_of_fixture (handleRegistrationResult_fixture env s handle status)
  | writeDescr connId handle status =>
    rw [handleGattcEvent]
    split
    · exact profile_of_fixture (handleCccdResult_fixture env s handle status)
    · rfl
  | notify connId remoteBda handle value isNotify =>
    rw [handleGattcEvent]
    split
    · exact handleNotification_profile env s handle value isNotify
    · rfl
  | srvcChg | congest | queueFull =>
    rw [handleGattcEvent]
    split <;> rfl
  | other => rfl

end

end BLEClientHID

end BleClientHid
