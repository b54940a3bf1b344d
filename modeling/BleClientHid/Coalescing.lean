import BleClientHid.Events
import BleClientHid.Lib.Blocks

/-! # Ordered coalescing

The sampling window, and the law that every run of it obeys.
-/

namespace BleClientHid

open Lib OrderedEventBuffer

/-! ## The window -/

/-- `static_cast<uint32_t>(now - start) >= interval` -/
def elapsed (now start interval : UInt32) : Bool := decide (interval ≤ now - start)

structure SamplingWindow where
  sampledEvents : OrderedEventBuffer := {}
  samplingWindowStartedUs : UInt32 := 0
  samplingWindowActive : Bool := false
  deriving DecidableEq, Repr

def flushSampledEvents (w : SamplingWindow) : SamplingWindow × List HIDEvent :=
  if w.sampledEvents.empty then (w, [])
  else
    let (sampledEvents, events) := w.sampledEvents.drain
    ({ w with sampledEvents }, events)

def updateSamplingWindow (interval now : UInt32) (w : SamplingWindow) : SamplingWindow × List HIDEvent :=
  if w.samplingWindowActive = false ∨ interval = 0 then (w, [])
  else if !elapsed now w.samplingWindowStartedUs interval then (w, [])
  else if w.sampledEvents.empty then ({ w with samplingWindowActive := false }, [])
  else
    let (w, events) := flushSampledEvents w
    ({ w with samplingWindowStartedUs := now }, events)

/-- A barrier goes out behind what is pending and closes the window. -/
def emitBarrier (barrier : HIDEvent) (w : SamplingWindow) : SamplingWindow × List HIDEvent :=
  let (sampledEvents, events) := w.sampledEvents.drainBefore barrier
  ({ w with sampledEvents, samplingWindowActive := false }, events)

/-! ## A report -/

/-- A report as `process_input_report_` hands it on, decoded. -/
structure DecodedReport where
  view : EventView
  report : PendingHIDReport
  raw : String
  values : List HIDReportItemValue
  recognized : Bool
  status : HIDDecodeStatus

/-- The readings of `micros()` for one report: at the window update, and at value `index`. -/
structure ReportClock where
  update : UInt32
  reading : Nat → UInt32

namespace DecodedReport

def event (d : DecodedReport) (value : Option HIDReportItemValue) : HIDEvent :=
  makeHidEvent d.view d.report d.raw value d.status

def sampledKey (d : DecodedReport) (value : HIDReportItemValue) : SampledEventKey :=
  { serviceInstance := d.report.source.serviceInstance
    fieldId := value.fieldId
    reportId := if d.report.source.hasReportId then d.report.source.reportId else 0
    reportKind := HIDReportKind.input.code }

end DecodedReport

def mergeable (value : HIDReportItemValue) : Bool := value.aggregation != .passthrough

section

variable (interval : UInt32) (d : DecodedReport) (clock : ReportClock)

def accumulateEvent (now : UInt32) (value : HIDReportItemValue) (w : SamplingWindow) :
    SamplingWindow × List HIDEvent :=
  let accumulate := fun (buffer : OrderedEventBuffer) =>
    buffer.accumulate (d.sampledKey value) value.aggregation value.value value.rawValue
      (d.event (some value))
  match accumulate w.sampledEvents with
  | some sampledEvents => ({ w with sampledEvents }, [])
  | none =>
    let (w, events) := flushSampledEvents w
    ({ w with
        sampledEvents := (accumulate w.sampledEvents).getD w.sampledEvents
        samplingWindowStartedUs := now }, events)

def accumulateRun : Nat → List HIDReportItemValue → SamplingWindow → SamplingWindow × List HIDEvent
  | _, [], w => (w, [])
  | index, value :: rest, w =>
    let (w, events) := accumulateEvent d (clock.reading index) value w
    let (w, later) := accumulateRun (index + 1) rest w
    (w, events ++ later)

/-- A run of mergeable values: the first run of a window goes out at once. -/
def processRun (index : Nat) (run : List HIDReportItemValue) (w : SamplingWindow) :
    SamplingWindow × List HIDEvent :=
  if w.samplingWindowActive = false then
    ({ w with samplingWindowActive := true, samplingWindowStartedUs := clock.reading index },
      run.map fun value => d.event (some value))
  else accumulateRun d clock index run w

/-- The `while` loop of `process_decoded_values_`; the fuel is the number of values. -/
def processValues : Nat → Nat → List HIDReportItemValue → SamplingWindow →
    SamplingWindow × List HIDEvent
  | 0, _, _, w => (w, [])
  | _ + 1, _, [], w => (w, [])
  | fuel + 1, index, value :: rest, w =>
    if interval = 0 then
      let (w, later) := processValues fuel (index + 1) rest w
      (w, d.event (some value) :: later)
    else if !mergeable value then
      let (w, events) := emitBarrier (d.event (some value)) w
      let (w, later) := processValues fuel (index + 1) rest w
      (w, events ++ later)
    else
      let run := value :: rest.takeWhile mergeable
      let (w, events) := processRun d clock index run w
      let (w, later) := processValues fuel (index + run.length) (rest.dropWhile mergeable) w
      (w, events ++ later)

def processDecodedValues (w : SamplingWindow) : SamplingWindow × List HIDEvent :=
  let (w, events) := updateSamplingWindow interval clock.update w
  let (w, later) := processValues interval d clock d.values.length 0 d.values w
  (w, events ++ later)

/-- `process_input_report_` once the payload is decoded. -/
def processDecodedReport (w : SamplingWindow) : SamplingWindow × List HIDEvent :=
  let (w, events) := processDecodedValues interval d clock w
  if d.values.isEmpty && !d.recognized then
    let (w, later) := emitBarrier (d.event none) w
    (w, events ++ later)
  else (w, events)

end

/-! ## Runs -/

inductive SamplingStep where
  | report (clock : ReportClock) (d : DecodedReport)
  | window (now : UInt32)

def samplingStep (interval : UInt32) (w : SamplingWindow) : SamplingStep → SamplingWindow × List HIDEvent
  | .report clock d => processDecodedReport interval d clock w
  | .window now => updateSamplingWindow interval now w

/-- The window after a run, and everything the run emits. -/
def samplingRun (interval : UInt32) (w : SamplingWindow) (steps : List SamplingStep) :
    SamplingWindow × List HIDEvent :=
  steps.foldl (fun st step =>
    let (w, events) := samplingStep interval st.1 step
    (w, st.2 ++ events)) (w, [])

end BleClientHid
