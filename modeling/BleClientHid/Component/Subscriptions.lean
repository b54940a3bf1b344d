import BleClientHid.Component.Reads

/-! # Profiles, Protocol Mode and subscriptions

From the end of the reads to `finalize_setup_`.
-/

namespace BleClientHid

namespace BLEClientHID

def maxSubscriptions : Nat := 128
def cccdFallbackDelayMs : UInt32 := 250
def phaseTimeoutMs : UInt32 := 15000

/-! ## Profiles -/

def isBootInputUuid (uuid : Nat) : Bool := uuid == uuidBootKeyboardInput || uuid == uuidBootMouseInput

def sourceOf (s : BLEClientHID) (handle : Nat) : HIDReportSource :=
  (s.handleReportSource.lookup handle).getD {}

/-- A characteristic that carries HID input gets a source; a Report needs its reference. -/
def claimInput (service : GattServiceInfo) (handle uuid : Nat) (s : BLEClientHID) : BLEClientHID :=
  let boot := isBootInputUuid uuid
  let missing := !boot && !(s.sourceOf handle).hasReportId
  { s with
    hidReportHandles := insert handle s.hidReportHandles
    handleReportSource := updateSource handle (fun source =>
      { source with
        serviceInstance := service.serviceInstance
        characteristicHandle := handle
        characteristicUuid := uuid
        reportType := if boot then HIDReportKind.input.code else source.reportType
        hasReportType := boot || source.hasReportType }) s.handleReportSource
    degraded := s.degraded || missing }

def profileCharacteristic (service : GattServiceInfo) (s : BLEClientHID)
    (characteristic : GattCharacteristicInfo) : BLEClientHID :=
  match characteristic.uuid with
  | .uuid16 uuid =>
    let s := if isInputUuid uuid then s.claimInput service characteristic.handle uuid else s
    if uuid = uuidHidProtocolMode then
      { s with hidServices := updateContext service.serviceInstance (fun context =>
        { context with protocolModeHandle := characteristic.handle }) s.hidServices }
    else s
  | _ => s

def reportKind (reportType : Nat) : HIDReportKind :=
  if reportType = 1 then .input else if reportType = 2 then .output else .feature

/-- The source refers to a report that the map does not define. -/
def undefinedReference (serviceInstance : Nat) (reportMap : HIDReportMap) (source : HIDReportSource) : Bool :=
  source.serviceInstance == serviceInstance && source.hasReportId && source.hasReportType &&
    decide (1 ≤ source.reportType ∧ source.reportType ≤ 3) &&
    (reportMap.findReport (reportKind source.reportType) source.reportId).isNone

/-- The references are only checked when the service has a report map. -/
def checkReferences (serviceInstance : Nat) (s : BLEClientHID) : BLEClientHID :=
  match s.findHidContext serviceInstance with
  | none => s
  | some context =>
    match context.reportMap with
    | none => s
    | some reportMap =>
      { s with degraded := s.degraded ||
          s.handleReportSource.any fun entry => undefinedReference serviceInstance reportMap entry.2 }

def profileService (s : BLEClientHID) (service : GattServiceInfo) : BLEClientHID :=
  if !uuid16 service.uuid uuidHidService then s
  else (service.characteristics.foldl (profileCharacteristic service) s).checkReferences
    service.serviceInstance

def buildHidProfiles (s : BLEClientHID) : BLEClientHID := s.services.foldl profileService s

/-! ## The end of the setup -/

def finalizeSetup (env : Env) (s : BLEClientHID) : BLEClientHID :=
  let s := if s.preferredConnParamsValid then s.log .updateConnParams else s
  if s.degraded then s.transition env .degraded else s.transition env .ready

/-! ## The plan -/

def isHidInput (service : GattServiceInfo) (characteristic : GattCharacteristicInfo) : Bool :=
  uuid16 service.uuid uuidHidService && isInputUuid characteristic.uuid.short

def isBatteryLevel (service : GattServiceInfo) (characteristic : GattCharacteristicInfo) : Bool :=
  uuid16 service.uuid uuidBatteryService && characteristic.uuid.short == uuidBatteryLevel

def isServiceChanged (service : GattServiceInfo) (characteristic : GattCharacteristicInfo) : Bool :=
  uuid16 service.uuid uuidGattService && characteristic.uuid.short == uuidServiceChanged

def subscribes (mode : DiscoveryMode) (service : GattServiceInfo)
    (characteristic : GattCharacteristicInfo) : Bool :=
  characteristic.canSubscribe &&
    (isBatteryLevel service characteristic || isServiceChanged service characteristic ||
      isHidInput service characteristic || mode == .forensic)

def subscription (service : GattServiceInfo) (characteristic : GattCharacteristicInfo) : SubscriptionInfo :=
  { characteristicHandle := characteristic.handle
    cccdHandle := match findDescriptor characteristic uuidCccd with
      | some cccd => cccd.handle
      | none => 0
    serviceInstance := service.serviceInstance
    properties := characteristic.properties
    required := isHidInput service characteristic }

def addSubscription (service : GattServiceInfo) (characteristic : GattCharacteristicInfo)
    (s : BLEClientHID) : BLEClientHID :=
  { s with
    subscriptionQueue := s.subscriptionQueue ++ [subscription service characteristic]
    batteryHandles := if isBatteryLevel service characteristic then
      insert characteristic.handle s.batteryHandles else s.batteryHandles
    serviceChangedHandles := if isServiceChanged service characteristic then
      insert characteristic.handle s.serviceChangedHandles else s.serviceChangedHandles }

/-- A full queue ends the loop over this service. -/
def planCharacteristics (service : GattServiceInfo) :
    List GattCharacteristicInfo → BLEClientHID → BLEClientHID
  | [], s => s
  | characteristic :: rest, s =>
    if !subscribes s.discoveryMode service characteristic then planCharacteristics service rest s
    else if s.subscriptionQueue.length ≥ maxSubscriptions then
      s.markDegraded "subscription limit exceeded"
    else planCharacteristics service rest (s.addSubscription service characteristic)

def planSubscriptions (s : BLEClientHID) : BLEClientHID :=
  s.services.foldl (fun s service => planCharacteristics service service.characteristics s)
    { s with subscriptionQueue := [] }

/-! ## Protocol Mode -/

def requestedMode (policy : ProtocolModePolicy) : Nat := if policy = .boot then 0 else 1

def collectProtocolWrites (env : Env) (s : BLEClientHID) : BLEClientHID :=
  let handles := if s.protocolModePolicy = .unchanged then []
    else (s.hidServices.map (·.protocolModeHandle)).filter (· ≠ 0)
  { s with protocolWriteHandles := handles }.transition env .writingProtocolMode

/-- One write for each `loop()`; the subscriptions follow once the list is empty. -/
def nextProtocolModeWrite (env : Env) (s : BLEClientHID) : BLEClientHID :=
  match s.protocolWriteHandles with
  | [] => s.planSubscriptions.transition env .registering
  | handle :: rest =>
    let s := { s with protocolWriteHandles := rest }.log
      (.writeChar handle (requestedMode s.protocolModePolicy) env.writeCharAccepted)
    if env.writeCharAccepted then { s with operationsSucceeded := s.operationsSucceeded + 1 }
    else s.markDegraded "Protocol Mode write failed"

def startProtocolModeWrite (env : Env) (s : BLEClientHID) : BLEClientHID :=
  nextProtocolModeWrite env (if s.setupPhase = .buildingProfile then s.collectProtocolWrites env else s)

/-! ## One subscription -/

def startNextSubscription (env : Env) (s : BLEClientHID) : BLEClientHID :=
  if s.activeSubscription.isSome || s.congested then s
  else match s.subscriptionQueue with
    | [] => s.finalizeSetup env
    | sub :: rest =>
      let s := { s with
        subscriptionQueue := rest
        activeSubscription := some sub
        subscriptionState := .begin sub.characteristicHandle sub.cccdHandle }.log (.begin sub)
      if sub.cccdHandle = 0 then
        (s.operationFailed sub.required "required notification has no CCCD").resetSubscription
      else
        let s := s.log (.registerForNotify sub.characteristicHandle env.registerAccepted)
        if env.registerAccepted then s
        else (s.operationFailed sub.required "required notification registration failed").resetSubscription

def handleRegistrationResult (env : Env) (handle : Nat) (status : GattStatus) (s : BLEClientHID) :
    BLEClientHID :=
  let success := status == .ok
  let (subscriptionState, decision) :=
    s.subscriptionState.registrationResult handle success env.registrationMs cccdFallbackDelayMs
  let s := { s with subscriptionState }.log
    (.registrationResult s.activeSubscription handle success decision)
  match s.activeSubscription with
  | none => s
  | some sub =>
    if decision = .unmatched then s
    else if decision = .failed then
      (s.operationFailed sub.required "required notification registration failed").resetSubscription
        |>.transition env .registering
    else s.transition env .waitingForCccd

def cccdValue (sub : SubscriptionInfo) : Nat := if sub.properties &&& propNotify ≠ 0 then 1 else 2

def writeCurrentCccd (env : Env) (s : BLEClientHID) : BLEClientHID :=
  match s.activeSubscription with
  | none => s
  | some sub =>
    let s := { s with subscriptionState := s.subscriptionState.markOwnCccdWriteAttempted }.log
      (.writeDescr sub.cccdHandle (cccdValue sub) env.writeDescrAccepted)
    if env.writeDescrAccepted then s
    else (s.operationFailed sub.required "required CCCD write failed").resetSubscription
      |>.transition env .registering

def handleCccdResult (env : Env) (handle : Nat) (status : GattStatus) (s : BLEClientHID) : BLEClientHID :=
  let success := status == .ok
  let (subscriptionState, decision) := s.subscriptionState.cccdResult handle success
  let s := { s with subscriptionState }.log (.cccdResult s.activeSubscription handle success decision)
  match s.activeSubscription with
  | none => s
  | some sub =>
    if decision = .unmatched then s
    else if decision = .complete then
      { s with operationsSucceeded := s.operationsSucceeded + 1 }.resetSubscription.transition env .registering
    else if decision = .retryCccd then s.writeCurrentCccd env
    else (s.operationFailed sub.required "required CCCD write failed").resetSubscription
      |>.transition env .registering

/-! ## The deadline of a phase -/

def waits (phase : SetupPhase) : Bool :=
  phase ∈ [.disconnected, .waitingForDiscovery, .ready, .degraded, .noHid]

def handlePhaseTimeout (env : Env) (s : BLEClientHID) : BLEClientHID :=
  if waits s.setupPhase || !elapsed env.timeoutMs s.phaseStartedMs phaseTimeoutMs then s
  else
    let phase := s.setupPhase
    let s := (s.log (.timeout phase)).markDegraded ("timeout in " ++ phaseName phase)
    if phase = .reading then
      { s with activeRead := none, readQueue := [] }.transition env .buildingProfile
    else if phase = .registering ∨ phase = .waitingForCccd then
      { s with subscriptionQueue := [] }.resetSubscription.finalizeSetup env
    else s.finalizeSetup env

end BLEClientHID

end BleClientHid
