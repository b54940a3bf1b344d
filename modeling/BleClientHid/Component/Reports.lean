import BleClientHid.Component.Subscriptions
import BleClientHid.HidParser.Input

/-! # Input reports

The queue of notifications, and the way of one report to its events.
-/

namespace BleClientHid

namespace BLEClientHID

def maxPendingReports : Nat := 64
def maxReportPayloadBytes : Nat := 512
def maxPendingReportBytes : Nat := 4096
def maxReportsPerLoop : Nat := 8
def maxProcessingTimeUs : UInt32 := 4000
def overflowWarningIntervalMs : UInt32 := 5000

/-! ## The queue -/

/-- Draws the `seq_id` of a notification. -/
def logRawNotification (s : BLEClientHID) : BLEClientHID × Nat :=
  ({ s with nextSeqId := (s.nextSeqId + 1) % 2 ^ 64 }, s.nextSeqId)

def dropOldest (now : UInt32) (report : PendingHIDReport) (rest : List PendingHIDReport)
    (s : BLEClientHID) : BLEClientHID :=
  { s with
    reportsDropped := (s.reportsDropped + 1) % 2 ^ 32
    pendingReportBytes := s.pendingReportBytes - report.payload.length
    pendingReports := rest
    lastOverflowWarning :=
      if s.lastOverflowWarning = 0 || elapsed now s.lastOverflowWarning overflowWarningIntervalMs then now
      else s.lastOverflowWarning }

/-- Room for `length` more bytes; the fuel is the number of queued reports. -/
def evictReports (env : Env) (length : Nat) : Nat → Nat → BLEClientHID → BLEClientHID
  | 0, _, s => s
  | fuel + 1, n, s =>
    match s.pendingReports with
    | [] => s
    | report :: rest =>
      if s.pendingReports.length ≥ maxPendingReports ∨
          s.pendingReportBytes + length > maxPendingReportBytes then
        evictReports env length fuel (n + 1) (s.dropOldest (env.overflowMs n) report rest)
      else s

def enqueueInputReport (env : Env) (handle : Nat) (value : Buffer) (isNotify : Bool) (seqId : Nat)
    (s : BLEClientHID) : BLEClientHID :=
  match value with
  | .null (_ + 1) => s
  | _ =>
    let payload := match value with
      | .bytes bytes => bytes
      | .null _ => []
    if payload.length > maxReportPayloadBytes then s
    else
      let s := evictReports env payload.length s.pendingReports.length 0 s
      let source := { s.sourceOf handle with
        characteristicHandle := handle, isNotification := isNotify, hasTransport := true }
      { s with
        pendingReportBytes := s.pendingReportBytes + payload.length
        pendingReports := s.pendingReports ++ [{ source, payload, seqId }] }

/-! ## One report -/

def view (env : Env) (s : BLEClientHID) : EventView :=
  { platform := env.platform, services := s.services, hidServices := s.hidServices }

structure Decoded where
  component : BLEClientHID
  values : List HIDReportItemValue := []
  recognized : Bool := false
  status : HIDDecodeStatus := .schemaMissing

/-- Boot reports have their own decoder, the others that of their service. -/
def decodeReport (report : PendingHIDReport) (s : BLEClientHID) : Decoded :=
  let payload := Buffer.bytes report.payload
  if isBootInputUuid report.source.characteristicUuid then
    let outcome := BootReportDecoder.decode s.bootDecoder report.source payload
    { component := { s with bootDecoder := outcome.decoder }
      values := outcome.values
      recognized := outcome.status == .exact || outcome.status == .long
      status := outcome.status }
  else match (s.findHidContext report.source.serviceInstance).bind (·.reportMap) with
    | none => { component := s }
    | some reportMap =>
      let outcome := HidParser.parse reportMap report.source payload
      { component := { s with hidServices := updateContext report.source.serviceInstance (fun context =>
          { context with reportMap := some outcome.map }) s.hidServices }
        values := outcome.values
        recognized := outcome.recognized
        status := outcome.status }

def processInputReport (env : Env) (clock : ReportClock) (report : PendingHIDReport) (s : BLEClientHID) :
    BLEClientHID :=
  let decoded := decodeReport report s
  let s := decoded.component
  let d : DecodedReport :=
    { view := s.view env
      report
      raw := formatValue env.platform (.bytes report.payload)
      values := decoded.values
      recognized := decoded.recognized
      status := decoded.status }
  let (window, events) := processDecodedReport s.eventSamplingIntervalUs d clock s.window
  { s with window }.publish (events.map .hidEvent)

/-- The `while` loop of `loop()`; the fuel is the limit of reports. -/
def processReports (env : Env) : Nat → Nat → BLEClientHID → BLEClientHID
  | 0, _, s => s
  | fuel + 1, n, s =>
    match s.pendingReports with
    | [] => s
    | report :: rest =>
      if env.processingUs n - env.processingStartedUs < maxProcessingTimeUs then
        let s := { s with
          pendingReports := rest
          pendingReportBytes := s.pendingReportBytes - report.payload.length }
        processReports env fuel (n + 1) (processInputReport env (env.reportClock n) report s)
      else s

def updateWindow (now : UInt32) (s : BLEClientHID) : BLEClientHID :=
  let (window, events) := updateSamplingWindow s.eventSamplingIntervalUs now s.window
  { s with window }.publish (events.map .hidEvent)

end BLEClientHID

end BleClientHid
