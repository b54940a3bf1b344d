import BleClientHid.Component.Reports

/-! # Callbacks and `loop()`

One step of the component, and its runs.
-/

namespace BleClientHid

/-- The callbacks of the GATT client, with the fields the handler reads. -/
inductive GattcEvent where
  | connect (remoteBda : Nat)
  | disconnect (remoteBda : Nat)
  | searchCmpl (connId : Nat) (status : GattStatus)
  | read (connId handle : Nat) (status : GattStatus) (value : Buffer)
  | regForNotify (handle : Nat) (status : GattStatus)
  | writeDescr (connId handle : Nat) (status : GattStatus)
  | notify (connId remoteBda handle : Nat) (value : Buffer) (isNotify : Bool)
  | srvcChg (remoteBda : Nat)
  | congest (connId : Nat) (congested : Bool)
  | queueFull (connId : Nat) (isFull : Bool)
  | other
  deriving DecidableEq, Repr

namespace BLEClientHID

/-! ## `loop()` -/

def requestPendingRediscovery (s : BLEClientHID) : BLEClientHID :=
  if s.rediscoveryRequested then { s with rediscoveryRequested := false }.log .disconnect else s

def runInventory (env : Env) (s : BLEClientHID) : BLEClientHID :=
  let (s, found) := s.inventoryGattDatabase env
  if !found then (s.markDegraded "GATT inventory failed").finalizeSetup env
  else if s.hidServices.isEmpty then s.transition env .noHid
  else s.planReads.transition env .reading

/-- The `switch` over the phase. -/
def runPhase (env : Env) (s : BLEClientHID) : BLEClientHID :=
  match s.setupPhase with
  | .inventory => s.runInventory env
  | .reading => s.startNextRead env
  | .buildingProfile => s.buildHidProfiles.startProtocolModeWrite env
  | .writingProtocolMode => s.startProtocolModeWrite env
  | .registering => s.startNextSubscription env
  | .waitingForCccd =>
    if s.activeSubscription.isSome && s.subscriptionState.fallbackDue env.fallbackMs then
      s.writeCurrentCccd env
    else s
  | _ => s

def loop (env : Env) (s : BLEClientHID) : BLEClientHID :=
  ((s.requestPendingRediscovery.runPhase env).handlePhaseTimeout env)
    |>.updateWindow env.windowUs
    |> processReports env maxReportsPerLoop 0
    |>.updateWindow env.windowEndUs

/-! ## Callbacks -/

def handleSearchComplete (env : Env) (status : GattStatus) (s : BLEClientHID) : BLEClientHID :=
  let s := s.log (.searchComplete status)
  if status ≠ .ok then (s.markDegraded "GATT service discovery failed").finalizeSetup env
  else s.transition env .inventory

def handleRead (env : Env) (handle : Nat) (status : GattStatus) (value : Buffer) (s : BLEClientHID) :
    BLEClientHID :=
  match s.activeRead with
  | none => s
  | some operation => if operation.handle = handle then s.finishActiveRead env status value else s

def handleNotification (env : Env) (handle : Nat) (value : Buffer) (isNotify : Bool) (s : BLEClientHID) :
    BLEClientHID :=
  let (s, seqId) := s.logRawNotification
  if handle ∈ s.serviceChangedHandles then { s with rediscoveryRequested := true }
  else if handle ∈ s.batteryHandles then
    match value with
    | .bytes (level :: _) => s.publishBattery env level
    | _ => s
  else if handle ∈ s.hidReportHandles then s.enqueueInputReport env handle value isNotify seqId
  else s

/-- A callback that passed the check of the interface. -/
def handleGattcEvent (env : Env) (event : GattcEvent) (s : BLEClientHID) : BLEClientHID :=
  match event with
  | .connect remoteBda =>
    if remoteBda = env.remoteBda then
      (s.resetConnectionState.transition env .waitingForDiscovery).log .setEncryption
    else s
  | .disconnect remoteBda =>
    if remoteBda = env.remoteBda then s.resetConnectionState.transition env .disconnected else s
  | .searchCmpl connId status => if connId = env.connId then s.handleSearchComplete env status else s
  | .read connId handle status value =>
    if connId = env.connId then s.handleRead env handle status value else s
  | .regForNotify handle status => s.handleRegistrationResult env handle status
  | .writeDescr connId handle status =>
    if connId = env.connId then s.handleCccdResult env handle status else s
  | .notify connId remoteBda handle value isNotify =>
    if connId = env.connId ∧ remoteBda = env.remoteBda then s.handleNotification env handle value isNotify
    else s
  | .srvcChg remoteBda =>
    if remoteBda = env.remoteBda then { s with rediscoveryRequested := true } else s
  | .congest connId congested => if connId = env.connId then { s with congested } else s
  | .queueFull connId isFull => if connId = env.connId then { s with congested := isFull } else s
  | .other => s

/-- `none` is `ESP_GATT_IF_NONE`. -/
def gattcEventHandler (env : Env) (event : GattcEvent) (gattcIf : Option Nat) (s : BLEClientHID) :
    BLEClientHID :=
  match gattcIf with
  | none => s.handleGattcEvent env event
  | some gattcIf => if gattcIf = env.gattcIf then s.handleGattcEvent env event else s

end BLEClientHID

/-! ## Runs -/

inductive Event where
  | loop (env : Env)
  | gattc (env : Env) (event : GattcEvent) (gattcIf : Option Nat)

def Event.env : Event → Env
  | .loop env => env
  | .gattc env _ _ => env

def step (s : BLEClientHID) : Event → BLEClientHID
  | .loop env => s.loop env
  | .gattc env event gattcIf => s.gattcEventHandler env event gattcIf

/-- A component as it is constructed and configured. -/
def initial (discoveryMode : DiscoveryMode) (policy : ProtocolModePolicy) (interval : UInt32) :
    BLEClientHID :=
  { discoveryMode, protocolModePolicy := policy, eventSamplingIntervalUs := interval }

def run (s : BLEClientHID) (events : List Event) : BLEClientHID := events.foldl step s

end BleClientHid
