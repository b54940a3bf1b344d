import BleClientHid.Component.Runs
import Mathlib.Logic.Relation

/-! # The setup as a machine

What the setup keeps from step to step, and every move it can make. Reports,
counters and clocks are left out, and so is what the log only notes.
-/

namespace BleClientHid

/-- What is fixed in a context once its report map is parsed. -/
def HIDServiceContext.fixed (context : HIDServiceContext) : HIDServiceContext :=
  { context with reportMap := context.reportMap.map (·.resetRuntimeState) }

@[simp] theorem HIDServiceContext.fixed_serviceInstance (context : HIDServiceContext) :
    context.fixed.serviceInstance = context.serviceInstance := rfl

@[simp] theorem HIDServiceContext.fixed_protocolModeHandle (context : HIDServiceContext) :
    context.fixed.protocolModeHandle = context.protocolModeHandle := rfl

structure Setup where
  discoveryMode : DiscoveryMode
  protocolModePolicy : ProtocolModePolicy
  services : List GattServiceInfo := []
  contexts : List HIDServiceContext := []
  sources : List (Nat × HIDReportSource) := []
  readQueue : List GattReadOperation := []
  activeRead : Option GattReadOperation := none
  subscriptionQueue : List SubscriptionInfo := []
  activeSubscription : Option SubscriptionInfo := none
  setupPhase : SetupPhase := .disconnected
  degraded : Bool := false
  protocolWriteHandles : List Nat := []
  subscriptionState : SubscriptionAttemptState := {}
  trace : List TraceEntry := []

def BLEClientHID.setup (s : BLEClientHID) : Setup where
  discoveryMode := s.discoveryMode
  protocolModePolicy := s.protocolModePolicy
  services := s.services
  contexts := s.hidServices.map (·.fixed)
  sources := s.handleReportSource
  readQueue := s.readQueue
  activeRead := s.activeRead
  subscriptionQueue := s.subscriptionQueue
  activeSubscription := s.activeSubscription
  setupPhase := s.setupPhase
  degraded := s.degraded
  protocolWriteHandles := s.protocolWriteHandles
  subscriptionState := s.subscriptionState
  trace := s.trace

/-- Entries that say nothing about attempts, deadlines, the Protocol Mode and the service search. -/
def TraceEntry.isNote : TraceEntry → Bool
  | .transition _ | .degraded _ | .readChar .. | .readDescr .. | .registerForNotify ..
  | .disconnect | .setEncryption | .updateConnParams => true
  | _ => false

def Notes (entries : List TraceEntry) : Prop := ∀ entry ∈ entries, entry.isNote = true

namespace Setup

/-! ## Building blocks -/

def append (entries : List TraceEntry) (s : Setup) : Setup := { s with trace := s.trace ++ entries }

def marked (d : Bool) (entries : List TraceEntry) (s : Setup) : Setup :=
  { s with degraded := s.degraded || d, trace := s.trace ++ entries }

def goto (phase : SetupPhase) (s : Setup) : Setup :=
  { s with setupPhase := phase, trace := s.trace ++ [.transition phase] }

def begun (sub : SubscriptionInfo) (rest : List SubscriptionInfo) (s : Setup) : Setup :=
  { s with
    subscriptionQueue := rest
    activeSubscription := some sub
    subscriptionState := .begin sub.characteristicHandle sub.cccdHandle
    trace := s.trace ++ [.begin sub] }

/-- The attempt is over without success. -/
def abandon (sub : SubscriptionInfo) (entries : List TraceEntry) (s : Setup) : Setup :=
  { s with
    activeSubscription := none
    subscriptionState := {}
    degraded := s.degraded || sub.required
    trace := s.trace ++ entries ++ [.subscriptionReset] }

def finish (entries : List TraceEntry) (s : Setup) : Setup :=
  (s.append entries).goto (if s.degraded then .degraded else .ready)

def reset (phase : SetupPhase) (entries : List TraceEntry) (s : Setup) : Setup :=
  { discoveryMode := s.discoveryMode
    protocolModePolicy := s.protocolModePolicy
    setupPhase := phase
    trace := entries }

/-- The answer of the service search. -/
def searched (status : GattStatus) (entries : List TraceEntry) (s : Setup) : Setup :=
  if status = .ok then (s.append [.searchComplete status]).goto .inventory
  else (s.marked true (.searchComplete status :: entries)).goto .degraded

/-- A context for each HID service. -/
def contextsOf (services : List GattServiceInfo) : List HIDServiceContext :=
  (services.filter fun service => uuid16 service.uuid uuidHidService).map fun service =>
    { serviceInstance := service.serviceInstance }

/-- The reads that are queued: of each handle the first one. -/
def firstReads : List GattReadOperation → List GattReadOperation
  | [] => []
  | operation :: rest => operation :: (firstReads rest).filter (·.handle != operation.handle)

def protocolHandles (policy : ProtocolModePolicy) (contexts : List HIDServiceContext) : List Nat :=
  if policy = .unchanged then [] else (contexts.map (·.protocolModeHandle)).filter (· ≠ 0)

def collectWrites (s : Setup) : Setup :=
  { s with protocolWriteHandles := protocolHandles s.protocolModePolicy s.contexts }.goto .writingProtocolMode

/-- The stored effect of a finished read; `d` tells whether it degrades. -/
inductive ReadEffect (operation : GattReadOperation) (s : Setup) :
    List HIDServiceContext → List (Nat × HIDReportSource) → Bool → Prop where
  | plain (d : Bool) (h : operation.purpose = .hidReportMap → operation.required = true → d = true) :
      ReadEffect operation s s.contexts s.sources d
  | protocolMode (mode : Nat) (h : operation.purpose = .hidProtocolMode) :
      ReadEffect operation s (updateContext operation.serviceInstance (fun context =>
        { context with protocolMode := mode, protocolModeHandle := operation.characteristicHandle }) s.contexts)
        s.sources false
  | reportMap (hash : String) (m : Option HIDReportMap) (h : operation.purpose = .hidReportMap) :
      ReadEffect operation s (updateContext operation.serviceInstance (fun context =>
        { context with reportMapHash := hash, reportMap := m }) s.contexts) s.sources m.isNone
  | reference (f : HIDReportSource → HIDReportSource) (d : Bool) (h : operation.purpose = .hidReportReference) :
      ReadEffect operation s s.contexts (updateSource operation.characteristicHandle f s.sources) d

/-! ## Moves -/

/-- `fails` tells whether a CCCD result can fail the attempt. -/
inductive Move (fails : Bool) : Setup → Setup → Prop where
  | mark {s : Setup} (d : Bool) (entries : List TraceEntry) (hnotes : Notes entries)
      (hphase : d = true → BLEClientHID.waits s.setupPhase = false) : Move fails s (s.marked d entries)
  -- The inventory
  | inventory {s : Setup} (services : List GattServiceInfo) (hphase : s.setupPhase = .inventory)
      (hinstances : services.map (·.serviceInstance) = List.range services.length) :
      Move fails s { s with services, contexts := contextsOf services }
  | inventoryFailed {s : Setup} (entries : List TraceEntry) (hphase : s.setupPhase = .inventory)
      (hnotes : Notes entries) (hdegraded : s.degraded = true) : Move fails s ((s.append entries).goto .degraded)
  | noHid {s : Setup} (hphase : s.setupPhase = .inventory) : Move fails s (s.goto .noHid)
  | planReads {s : Setup} (queue : List GattReadOperation) (hphase : s.setupPhase = .inventory)
      (hall : s.degraded = false →
        queue = firstReads (BLEClientHID.wantedReads s.discoveryMode s.services)) :
      Move fails s ({ s with readQueue := queue }.goto .reading)
  -- Reads
  | startRead {s : Setup} (operation : GattReadOperation) (rest : List GattReadOperation) (accepted : Bool)
      (entries : List TraceEntry) (hphase : s.setupPhase = .reading) (hidle : s.activeRead = none)
      (hqueue : s.readQueue = operation :: rest) (hnotes : Notes entries) :
      Move fails s ({ s with readQueue := rest, activeRead := if accepted then some operation else none }.marked
        (!accepted && operation.required) entries)
  | finishRead {s : Setup} (operation : GattReadOperation) (contexts : List HIDServiceContext)
      (sources : List (Nat × HIDReportSource)) (d : Bool) (entries : List TraceEntry)
      (hactive : s.activeRead = some operation) (heffect : ReadEffect operation s contexts sources d)
      (hnotes : Notes entries) :
      Move fails s ({ s with activeRead := none, contexts, sources }.marked d entries)
  | readsDone {s : Setup} (hphase : s.setupPhase = .reading) (hidle : s.activeRead = none)
      (hqueue : s.readQueue = []) : Move fails s (s.goto .buildingProfile)
  -- Profiles and Protocol Mode
  | buildProfiles (s : BLEClientHID) (hphase : s.setupPhase = .buildingProfile) :
      Move fails s.setup s.buildHidProfiles.setup.collectWrites
  | writeMode {s : Setup} (handle : Nat) (rest : List Nat) (accepted : Bool) (entries : List TraceEntry)
      (hphase : s.setupPhase = .writingProtocolMode) (hhandles : s.protocolWriteHandles = handle :: rest)
      (hnotes : Notes entries) :
      Move fails s ({ s with protocolWriteHandles := rest }.marked (!accepted)
        (.writeChar handle (BLEClientHID.requestedMode s.protocolModePolicy) accepted :: entries))
  -- Subscriptions
  | planSubscriptions {s : Setup} (queue : List SubscriptionInfo) (hphase : s.setupPhase = .writingProtocolMode)
      (hhandles : s.protocolWriteHandles = [])
      (hall : s.degraded = false → ∀ service ∈ s.services, ∀ characteristic ∈ service.characteristics,
        BLEClientHID.subscribes s.discoveryMode service characteristic = true →
          BLEClientHID.subscription service characteristic ∈ queue) :
      Move fails s ({ s with subscriptionQueue := queue }.goto .registering)
  | begin {s : Setup} (sub : SubscriptionInfo) (rest : List SubscriptionInfo)
      (hphase : s.setupPhase = .registering) (hidle : s.activeSubscription = none)
      (hqueue : s.subscriptionQueue = sub :: rest) (hcccd : sub.cccdHandle ≠ 0) : Move fails s (s.begun sub rest)
  | beginWithoutCccd {s : Setup} (sub : SubscriptionInfo) (rest : List SubscriptionInfo) (entries : List TraceEntry)
      (hphase : s.setupPhase = .registering) (hidle : s.activeSubscription = none)
      (hqueue : s.subscriptionQueue = sub :: rest) (hcccd : sub.cccdHandle = 0) (hnotes : Notes entries) :
      Move fails s ((s.begun sub rest).abandon sub entries)
  | notScheduled {s : Setup} (sub : SubscriptionInfo) (entries : List TraceEntry)
      (hactive : s.activeSubscription = some sub) (hnotes : Notes entries) : Move fails s (s.abandon sub entries)
  | registrationIgnored {s : Setup} (handle : Nat) (success : Bool)
      (hskip : s.subscriptionState.stage ≠ .registering ∨ handle ≠ s.subscriptionState.characteristicHandle) :
      Move fails s (s.append [.registrationResult s.activeSubscription handle success .unmatched])
  | registered {s : Setup} (sub : SubscriptionInfo) (fallbackAtMs : UInt32)
      (hactive : s.activeSubscription = some sub) (hstage : s.subscriptionState.stage = .registering) :
      Move fails s ({ s with subscriptionState :=
        { s.subscriptionState with stage := .waitingForCccd, fallbackAtMs } }.append
          [.registrationResult (some sub) sub.characteristicHandle true .waitForCccd] |>.goto .waitingForCccd)
  | registrationFailed {s : Setup} (sub : SubscriptionInfo) (entries : List TraceEntry)
      (hactive : s.activeSubscription = some sub) (hnotes : Notes entries) :
      Move fails s ((s.abandon sub
        (.registrationResult (some sub) sub.characteristicHandle false .failed :: entries)).goto .registering)
  | cccdIgnored {s : Setup} (handle : Nat) (success : Bool)
      (hskip : s.subscriptionState.stage ≠ .waitingForCccd ∨ handle ≠ s.subscriptionState.cccdHandle) :
      Move fails s (s.append [.cccdResult s.activeSubscription handle success .unmatched])
  | retry {s : Setup} (sub : SubscriptionInfo) (hactive : s.activeSubscription = some sub)
      (hstage : s.subscriptionState.stage = .waitingForCccd)
      (hown : s.subscriptionState.ownCccdWriteAttempted = false) :
      Move fails s (s.append [.cccdResult (some sub) sub.cccdHandle false .retryCccd])
  | writeCccd {s : Setup} (sub : SubscriptionInfo) (value : Nat) (hactive : s.activeSubscription = some sub)
      (hstage : s.subscriptionState.stage = .waitingForCccd)
      (hown : s.subscriptionState.ownCccdWriteAttempted = false) :
      Move fails s ({ s with subscriptionState := s.subscriptionState.markOwnCccdWriteAttempted }.append
        [.writeDescr sub.cccdHandle value true])
  | writeRejected {s : Setup} (sub : SubscriptionInfo) (value : Nat) (entries : List TraceEntry)
      (hactive : s.activeSubscription = some sub) (hown : s.subscriptionState.ownCccdWriteAttempted = false)
      (hnotes : Notes entries) :
      Move fails s ((s.abandon sub (.writeDescr sub.cccdHandle value false :: entries)).goto .registering)
  | complete {s : Setup} (sub : SubscriptionInfo) (hactive : s.activeSubscription = some sub)
      (hstage : s.subscriptionState.stage = .waitingForCccd)
        (hcccd : s.subscriptionState.cccdHandle = sub.cccdHandle) :
      Move fails s ({ s with activeSubscription := none, subscriptionState := {} }.append
        [.cccdResult (some sub) sub.cccdHandle true .complete, .subscriptionReset] |>.goto .registering)
  | cccdFailed {s : Setup} (sub : SubscriptionInfo) (entries : List TraceEntry) (hfails : fails = true)
      (hactive : s.activeSubscription = some sub) (hown : s.subscriptionState.ownCccdWriteAttempted = true)
      (hnotes : Notes entries) :
      Move fails s ((s.abandon sub (.cccdResult (some sub) sub.cccdHandle false .failed :: entries)).goto
        .registering)
  | finish {s : Setup} (entries : List TraceEntry) (hphase : s.setupPhase = .registering)
      (hidle : s.activeSubscription = none) (hqueue : s.subscriptionQueue = []) (hnotes : Notes entries) :
      Move fails s (s.finish entries)
  -- Deadlines
  | readTimeout {s : Setup} (entries : List TraceEntry) (hphase : s.setupPhase = .reading)
      (hnotes : Notes entries) :
      Move fails s ({ s with activeRead := none, readQueue := [] }.marked true (.timeout .reading :: entries)
        |>.goto .buildingProfile)
  | subscriptionTimeout {s : Setup} (entries entries' : List TraceEntry)
      (hphase : s.setupPhase = .registering ∨ s.setupPhase = .waitingForCccd) (hnotes : Notes entries)
      (hnotes' : Notes entries') :
      Move fails s ({ s with subscriptionQueue := [], activeSubscription := none, subscriptionState :=
        {} }.marked true
        (.timeout s.setupPhase :: (entries ++ TraceEntry.subscriptionReset :: entries')) |>.goto .degraded)
  | timeout {s : Setup} (entries : List TraceEntry) (hphase : s.setupPhase ≠ .registering)
      (hphase' : s.setupPhase ≠ .waitingForCccd) (hphase'' : s.setupPhase ≠ .reading)
      (hwaits : BLEClientHID.waits s.setupPhase = false) (hnotes : Notes entries) :
      Move fails s (s.marked true (.timeout s.setupPhase :: entries) |>.goto .degraded)

/-- What one step of the component does: moves, a reset (`true`), or the answer of the service search. -/
inductive Step (fails : Bool) (s : Setup) : Bool → Setup → Prop where
  | moves {t : Setup} (h : Relation.ReflTransGen (Move fails) s t) : Step fails s false t
  | reset (phase : SetupPhase) (entries : List TraceEntry)
      (hphase : phase = .disconnected ∨ phase = .waitingForDiscovery) (hnotes : Notes entries) :
      Step fails s true (s.reset phase entries)
  | searched (status : GattStatus) (entries : List TraceEntry) (hnotes : Notes entries) :
      Step fails s false (s.searched status entries)

end Setup

end BleClientHid
