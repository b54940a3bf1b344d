import BleClientHid.Coalescing
import BleClientHid.SubscriptionState
import Mathlib.Data.Finset.Insert

/-! # The component

Its state, what the stack and the clocks answer, and the log of what it does.
-/

namespace BleClientHid

/-! ## The stack -/

inductive GattStatus where
  | ok
  | invalidOffset
  | notFound
  | error (code : Nat)
  deriving DecidableEq, Repr

structure ServiceElem where
  uuid : ESPBTUUID := .uuid16 0
  startHandle : Nat := 0
  endHandle : Nat := 0
  isPrimary : Bool := true

structure IncludeElem where
  uuid : ESPBTUUID := .uuid16 0
  handle : Nat := 0
  startHandle : Nat := 0
  endHandle : Nat := 0

structure CharElem where
  uuid : ESPBTUUID := .uuid16 0
  handle : Nat := 0
  properties : Nat := 0

structure DescrElem where
  uuid : ESPBTUUID := .uuid16 0
  handle : Nat := 0

/-- The answers of the GATT cache: a status, a count and an element for each offset. -/
structure GattCache where
  getService : Nat → GattStatus × Nat × ServiceElem
  includedServiceCount : Nat → Nat → GattStatus × Nat
  getIncludeService : Nat → Nat → Nat → GattStatus × List IncludeElem
  getAllChar : Nat → Nat → Nat → GattStatus × Nat × CharElem
  getAllDescr : Nat → Nat → GattStatus × Nat × DescrElem

def GattCache.empty : GattCache where
  getService _ := (.notFound, 0, {})
  includedServiceCount _ _ := (.ok, 0)
  getIncludeService _ _ _ := (.ok, [])
  getAllChar _ _ _ := (.notFound, 0, {})
  getAllDescr _ _ := (.notFound, 0, {})

/-- A cache that answers every query from a database. -/
def GattCache.ofServices (services : List GattServiceInfo) : GattCache :=
  let serviceAt (startHandle endHandle : Nat) : GattServiceInfo :=
    (services.find? fun service => service.startHandle == startHandle && service.endHandle == endHandle).getD {}
  { getService offset :=
      match services[offset]? with
      | some service => (.ok, 1, {
          uuid := service.uuid, startHandle := service.startHandle, endHandle := service.endHandle,
          isPrimary := service.primary })
      | none => (.invalidOffset, 0, {})
    includedServiceCount startHandle endHandle :=
      (.ok, (serviceAt startHandle endHandle).includedServices.length)
    getIncludeService startHandle endHandle count :=
      (.ok, ((serviceAt startHandle endHandle).includedServices.take count).map fun info =>
        { uuid := info.uuid, handle := info.declarationHandle, startHandle := info.startHandle,
          endHandle := info.endHandle })
    getAllChar startHandle endHandle offset :=
      match (serviceAt startHandle endHandle).characteristics[offset]? with
      | some info => (.ok, 1, { uuid := info.uuid, handle := info.handle, properties := info.properties })
      | none => (.invalidOffset, 0, {})
    getAllDescr characteristicHandle offset :=
      match ((findCharacteristic services characteristicHandle).getD {}).descriptors[offset]? with
      | some info => (.ok, 1, { uuid := info.uuid, handle := info.handle })
      | none => (.invalidOffset, 0, {}) }

/-- What the outside answers during one callback or one `loop()`. No point is passed twice in
one of them, so each reading and each reply has its own field. -/
structure Env where
  platform : Platform
  /-- `battery_sensor_` is not null. -/
  batterySensor : Bool := true
  gattcIf : Nat := 0
  connId : Nat := 0
  remoteBda : Nat := 0
  gatt : GattCache := .empty
  readAccepted : Bool := true
  writeCharAccepted : Bool := true
  registerAccepted : Bool := true
  writeDescrAccepted : Bool := true
  /-- `millis()` in `transition_`, by phase. -/
  enterMs : SetupPhase → UInt32 := fun _ => 0
  fallbackMs : UInt32 := 0
  timeoutMs : UInt32 := 0
  registrationMs : UInt32 := 0
  overflowMs : Nat → UInt32 := fun _ => 0
  windowUs : UInt32 := 0
  windowEndUs : UInt32 := 0
  processingStartedUs : UInt32 := 0
  processingUs : Nat → UInt32 := fun _ => 0
  reportClock : Nat → ReportClock := fun _ => { update := 0, reading := fun _ => 0 }

/-- The Battery Levels that reach the sensor. -/
def Env.sensed (env : Env) (levels : List Nat) : List Nat := if env.batterySensor then levels else []

@[simp] theorem Env.sensed_nil (env : Env) : env.sensed [] = [] := ite_self _

/-! ## The log -/

/-- What the component asks for, decides and is told, in one connection. -/
inductive TraceEntry where
  | transition (phase : SetupPhase)
  | degraded (reason : String)
  | timeout (phase : SetupPhase)
  | searchComplete (status : GattStatus)
  | readChar (handle : Nat) (accepted : Bool)
  | readDescr (handle : Nat) (accepted : Bool)
  | writeChar (handle value : Nat) (accepted : Bool)
  | begin (subscription : SubscriptionInfo)
  | registerForNotify (handle : Nat) (accepted : Bool)
  | registrationResult (active : Option SubscriptionInfo) (handle : Nat) (success : Bool)
      (decision : SubscriptionDecision)
  | writeDescr (handle value : Nat) (accepted : Bool)
  | cccdResult (active : Option SubscriptionInfo) (handle : Nat) (success : Bool)
      (decision : SubscriptionDecision)
  | subscriptionReset
  | disconnect
  | setEncryption
  | updateConnParams
  deriving DecidableEq, Repr

inductive Output where
  | hidEvent (event : HIDEvent)
  | battery (level : Nat)
  deriving DecidableEq, Repr

/-! ## The state -/

structure ConnParams where
  minInt : Nat := 0
  maxInt : Nat := 0
  latency : Nat := 0
  timeout : Nat := 0
  bda : Nat := 0
  deriving DecidableEq, Repr

/-- `trace` and `outputs` are ours: the log of this connection, and what it published. -/
structure BLEClientHID where
  discoveryMode : DiscoveryMode := .standard
  protocolModePolicy : ProtocolModePolicy := .unchanged
  eventSamplingIntervalUs : UInt32 := 0
  services : List GattServiceInfo := []
  hidServices : List HIDServiceContext := []
  readQueue : List GattReadOperation := []
  activeRead : Option GattReadOperation := none
  subscriptionQueue : List SubscriptionInfo := []
  activeSubscription : Option SubscriptionInfo := none
  handleReportSource : List (Nat × HIDReportSource) := []
  hidReportHandles : Finset Nat := ∅
  batteryHandles : Finset Nat := ∅
  serviceChangedHandles : Finset Nat := ∅
  plannedReadHandles : Finset Nat := ∅
  pendingReports : List PendingHIDReport := []
  pendingReportBytes : Nat := 0
  bootDecoder : HIDBootReportDecoder := {}
  setupPhase : SetupPhase := .disconnected
  phaseStartedMs : UInt32 := 0
  operationsSucceeded : Nat := 0
  operationsFailed : Nat := 0
  degraded : Bool := false
  congested : Bool := false
  rediscoveryRequested : Bool := false
  preferredConnParamsValid : Bool := false
  preferredConnParams : ConnParams := {}
  protocolWriteHandles : List Nat := []
  subscriptionState : SubscriptionAttemptState := {}
  gattProfileHash : String := ""
  window : SamplingWindow := {}
  lastOverflowWarning : UInt32 := 0
  reportsDropped : Nat := 0
  nextSeqId : Nat := 1
  trace : List TraceEntry := []
  outputs : List Output := []

namespace BLEClientHID

def log (entry : TraceEntry) (s : BLEClientHID) : BLEClientHID := { s with trace := s.trace ++ [entry] }

def publish (outputs : List Output) (s : BLEClientHID) : BLEClientHID :=
  { s with outputs := s.outputs ++ outputs }

def publishBattery (env : Env) (level : UInt8) (s : BLEClientHID) : BLEClientHID :=
  if env.batterySensor then s.publish [.battery level.toNat] else s

theorem publishBattery_eq (env : Env) (level : UInt8) (s : BLEClientHID) :
    s.publishBattery env level = s.publish ((env.sensed [level.toNat]).map .battery) := by
  unfold publishBattery Env.sensed
  split
  · rfl
  · simp [publish]

def transition (env : Env) (phase : SetupPhase) (s : BLEClientHID) : BLEClientHID :=
  { s with
    setupPhase := phase
    phaseStartedMs := env.enterMs phase
    trace := s.trace ++ [.transition phase] }

def markDegraded (reason : String) (s : BLEClientHID) : BLEClientHID :=
  { s with
    degraded := true
    operationsFailed := s.operationsFailed + 1
    trace := s.trace ++ [.degraded reason] }

/-- A failed operation degrades the setup only when it is required. -/
def operationFailed (required : Bool) (reason : String) (s : BLEClientHID) : BLEClientHID :=
  if required then s.markDegraded reason else { s with operationsFailed := s.operationsFailed + 1 }

def resetConnectionState (s : BLEClientHID) : BLEClientHID :=
  { discoveryMode := s.discoveryMode
    protocolModePolicy := s.protocolModePolicy
    eventSamplingIntervalUs := s.eventSamplingIntervalUs
    setupPhase := s.setupPhase
    phaseStartedMs := s.phaseStartedMs
    window := { s.window with
      sampledEvents := s.window.sampledEvents.clear
      samplingWindowActive := false }
    lastOverflowWarning := s.lastOverflowWarning
    reportsDropped := s.reportsDropped
    nextSeqId := s.nextSeqId }

/-- `active_subscription_.reset()` and `subscription_state_.reset()`, always together. -/
def resetSubscription (s : BLEClientHID) : BLEClientHID :=
  { s with
    activeSubscription := none
    subscriptionState := {}
    trace := s.trace ++ [.subscriptionReset] }

def findHidContext (s : BLEClientHID) (serviceInstance : Nat) : Option HIDServiceContext :=
  BleClientHid.findHidContext s.hidServices serviceInstance

end BLEClientHID

/-- Changes the first context of the instance, the one `find_hid_context_` returns. -/
def updateContext (serviceInstance : Nat) (f : HIDServiceContext → HIDServiceContext) :
    List HIDServiceContext → List HIDServiceContext
  | [] => []
  | context :: rest =>
    if context.serviceInstance = serviceInstance then f context :: rest
    else context :: updateContext serviceInstance f rest

/-- `handle_report_source_[handle]`, then a change of the source it refers to. -/
def updateSource (handle : Nat) (f : HIDReportSource → HIDReportSource) :
    List (Nat × HIDReportSource) → List (Nat × HIDReportSource)
  | [] => [(handle, f {})]
  | entry :: rest =>
    if entry.1 = handle then (handle, f entry.2) :: rest else entry :: updateSource handle f rest

end BleClientHid
