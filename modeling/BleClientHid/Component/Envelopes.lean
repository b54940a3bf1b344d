import BleClientHid.Component.Runs

/-! # Raw envelopes

A report that is not decoded should go out as a raw envelope behind everything
that is pending.
-/

namespace BleClientHid

namespace BLEClientHID

/-! ## What the decoders answer -/

def isDecoded (status : HIDDecodeStatus) : Bool := status == .exact || status == .long

/-- The report map has an INPUT report for the source, and the payload is too short for it. -/
def TooShort (m : HIDReportMap) (source : HIDReportSource) (payload : List UInt8) : Prop :=
  HidParser.isBootUuid source.characteristicUuid = false ∧
    (source.hasReportType = true → source.reportType = 1) ∧
    ∃ r, m.findReport .input (HidParser.selectedReportId source) = some r ∧ payload.length < r.byteSize

/-- Of the reports that are not decoded, only a short one is recognized. -/
theorem parse_rejected (m : HIDReportMap) (source : HIDReportSource) (payload : List UInt8)
    (h : isDecoded (HidParser.parse m source (.bytes payload)).status = false) :
    (HidParser.parse m source (.bytes payload)).values = [] ∧
      ((HidParser.parse m source (.bytes payload)).recognized = true ↔ TooShort m source payload) := by
  revert h
  have hkind : (source.hasReportType && !HidParser.isInputKind source.reportType) = false ↔
      (source.hasReportType = true → source.reportType = 1) := by
    cases source.hasReportType <;> simp [HidParser.isInputKind, HIDReportKind.code]
  simp only [HidParser.parse, TooShort]
  split
  · rename_i hboot
    exact fun _ => ⟨rfl, by simp [hboot]⟩
  · rename_i hboot
    have hboot' : HidParser.isBootUuid source.characteristicUuid = false := by simpa using hboot
    split
    · rename_i hmismatch
      exact fun _ => ⟨rfl, by simp [← hkind, hmismatch]⟩
    · rename_i hmatch
      have hmatch' := hkind.mp (by simpa using hmatch)
      split
      · rename_i hnone
        exact fun _ => ⟨rfl, by simp [hnone]⟩
      · rename_i r hsome
        split
        · rename_i hshort
          exact fun _ => ⟨rfl, by simpa [hboot', hsome, hshort] using hmatch'⟩
        · by_cases hlen : payload.length = r.byteSize <;> simp [hlen, isDecoded]

/-- The report goes to a report map that has an INPUT report for it, and is too short. -/
def ShortOnReportMap (report : PendingHIDReport) (s : BLEClientHID) : Prop :=
  ∃ m, (s.findHidContext report.source.serviceInstance).bind (·.reportMap) = some m ∧
    TooShort m report.source report.payload

theorem isBootInputUuid_eq (uuid : Nat) : isBootInputUuid uuid = HidParser.isBootUuid uuid := rfl

theorem decodeReport_rejected (report : PendingHIDReport) (s : BLEClientHID)
    (h : isDecoded (decodeReport report s).status = false) :
    (decodeReport report s).values = [] ∧
      ((decodeReport report s).recognized = true ↔ ShortOnReportMap report s) := by
  revert h
  unfold decodeReport
  split
  · rename_i hboot
    intro h
    simp only [isDecoded, Bool.or_eq_false_iff, beq_eq_false_iff_ne] at h
    refine ⟨(BootReportDecoder.decode_rejected _ _ _ h.1 h.2).1, ?_⟩
    rw [isBootInputUuid_eq] at hboot
    simp [ShortOnReportMap, TooShort, h.1, h.2, hboot]
  · split
    · rename_i hnone
      intro _
      simp [ShortOnReportMap, hnone]
    · rename_i m hsome
      intro h
      obtain ⟨hvalues, hrec⟩ := parse_rejected m report.source report.payload h
      exact ⟨hvalues, hrec.trans (by simp [ShortOnReportMap, hsome])⟩

theorem decodeReport_same (report : PendingHIDReport) (s : BLEClientHID) :
    (decodeReport report s).component.window = s.window ∧
      (decodeReport report s).component.outputs = s.outputs ∧
      (decodeReport report s).component.eventSamplingIntervalUs = s.eventSamplingIntervalUs := by
  unfold decodeReport
  split
  · exact ⟨rfl, rfl, rfl⟩
  · split <;> exact ⟨rfl, rfl, rfl⟩

/-! ## What goes out -/

/-- A raw envelope: the decode status and the `seq_id`, and no field that describes a value. -/
structure IsRawEnvelope (status : HIDDecodeStatus) (seqId : Nat) (event : HIDEvent) : Prop where
  status : event.find "decode_status" = some (hidDecodeStatusName status)
  seqIdFrom : event.find "seq_id_from" = some (toString seqId)
  seqIdTo : event.find "seq_id_to" = some (toString seqId)
  noValue : ∀ key ∈ valueKeys, event.find key = none

theorem makeHidEvent_isRawEnvelope (view : EventView) (report : PendingHIDReport) (raw : String)
    (status : HIDDecodeStatus) : IsRawEnvelope status report.seqId (makeHidEvent view report raw none status) where
  status := find_makeHidEvent_envelope _ _ _ _ _ (by simp [envelope])
  seqIdFrom := find_makeHidEvent_envelope _ _ _ _ _ (by simp [envelope])
  seqIdTo := find_makeHidEvent_envelope _ _ _ _ _ (by simp [envelope])
  noValue := fun _ hkey => find_makeHidEvent_none _ _ _ _ _ hkey

def pendingOutputs (w : SamplingWindow) : List Output := w.sampledEvents.pending.map (.hidEvent ·.event)

/-- The window update emits what was pending, or nothing; the rest stays pending. -/
theorem updateSamplingWindow_pending (interval now : UInt32) (w : SamplingWindow) :
    let next := updateSamplingWindow interval now w
    next.2 ++ next.1.sampledEvents.pending.map (·.event) = w.sampledEvents.pending.map (·.event) := by
  simp only [updateSamplingWindow]
  split
  · rfl
  · split
    · rfl
    · split
      · rfl
      · rename_i hempty
        simp [flushSampledEvents, hempty, OrderedEventBuffer.drain]

/-- Without values, a report only updates the window, and a barrier follows if it is not recognized. -/
theorem processDecodedReport_nil (interval : UInt32) (d : DecodedReport) (clock : ReportClock)
    (w : SamplingWindow) (hnil : d.values = []) :
    (processDecodedReport interval d clock w).2 =
      (updateSamplingWindow interval clock.update w).2 ++
        if d.recognized then []
        else (updateSamplingWindow interval clock.update w).1.sampledEvents.pending.map (·.event) ++
          [d.event none] := by
  cases hrec : d.recognized <;>
    simp [processDecodedReport, processDecodedValues, processValues, hnil, hrec, emitBarrier,
      OrderedEventBuffer.drainBefore, OrderedEventBuffer.drain]

/-- The report is decoded, or its raw envelope goes out behind everything pending. -/
def Reported (env : Env) (clock : ReportClock) (report : PendingHIDReport) (s : BLEClientHID) : Prop :=
  isDecoded (decodeReport report s).status = false →
    ∃ event, IsRawEnvelope (decodeReport report s).status report.seqId event ∧
      (processInputReport env clock report s).outputs =
        s.outputs ++ pendingOutputs s.window ++ [.hidEvent event]

theorem processInputReport_outputs (env : Env) (clock : ReportClock) (report : PendingHIDReport)
    (s : BLEClientHID) (h : isDecoded (decodeReport report s).status = false) :
    let update := updateSamplingWindow s.eventSamplingIntervalUs clock.update s.window
    (processInputReport env clock report s).outputs = s.outputs ++ update.2.map .hidEvent ++
      if (decodeReport report s).recognized then []
      else pendingOutputs update.1 ++ [.hidEvent (makeHidEvent ((decodeReport report s).component.view env)
        report (formatValue env.platform (.bytes report.payload)) none (decodeReport report s).status)] := by
  obtain ⟨hwindow, houtputs, hinterval⟩ := decodeReport_same report s
  have hnil := (decodeReport_rejected report s h).1
  simp only [processInputReport, publish]
  rw [processDecodedReport_nil _ _ _ _ hnil, houtputs, hwindow, hinterval, List.map_append,
    ← List.append_assoc]
  congr 1
  cases (decodeReport report s).recognized <;> simp [pendingOutputs, DecodedReport.event]

theorem shortOnReportMap_status {report : PendingHIDReport} {s : BLEClientHID}
    (h : ShortOnReportMap report s) : (decodeReport report s).status = .short := by
  obtain ⟨m, hm, hboot, hkind, r, hr, hlen⟩ := h
  have hkind' : (report.source.hasReportType && !HidParser.isInputKind report.source.reportType) = false := by
    cases ht : report.source.hasReportType with
    | false => rfl
    | true => simp [HidParser.isInputKind, HIDReportKind.code, hkind ht]
  simp [decodeReport, isBootInputUuid_eq, hboot, hm, HidParser.parse, hkind', hr, hlen]

/-- Every report is reported, except a short one on a report map. -/
theorem processInputReport_reported_iff (env : Env) (clock : ReportClock) (report : PendingHIDReport)
    (s : BLEClientHID) : Reported env clock report s ↔ ¬ ShortOnReportMap report s := by
  have hpending := updateSamplingWindow_pending s.eventSamplingIntervalUs clock.update s.window
  have hsplit := congrArg (List.map Output.hidEvent) hpending
  rw [List.map_append, List.map_map, List.map_map] at hsplit
  constructor
  · intro hreported hshort
    have hstatus : isDecoded (decodeReport report s).status = false := by
      rw [shortOnReportMap_status hshort]
      rfl
    obtain ⟨event, -, hout⟩ := hreported hstatus
    have hrec := (decodeReport_rejected report s hstatus).2.mpr hshort
    -- At most what is pending has gone out, and the envelope is missing.
    have hlen := congrArg List.length (processInputReport_outputs env clock report s hstatus)
    have hlen' := congrArg List.length hsplit
    rw [hout, hrec] at hlen
    simp only [List.length_append, List.length_map, List.length_cons, List.length_nil, if_true,
      pendingOutputs] at hlen hlen'
    omega
  · intro hlong hstatus
    have hrec : (decodeReport report s).recognized = false :=
      Bool.eq_false_iff.mpr fun hrec => hlong ((decodeReport_rejected report s hstatus).2.mp hrec)
    refine ⟨_, makeHidEvent_isRawEnvelope ((decodeReport report s).component.view env) report
      (formatValue env.platform (.bytes report.payload)) _, ?_⟩
    rw [processInputReport_outputs env clock report s hstatus, hrec]
    simp only [Bool.false_eq_true, if_false, ← List.append_assoc]
    congr 1
    rw [List.append_assoc]
    congr 1

/-- A ready keyboard with a notification of one byte, where its report has two. -/
def shortKeyboard : BLEClientHID :=
  run (initial .standard .unchanged 0)
    (keyboardSetup ++ exampleRun keyboardServices [some (.notify 0 0 5 (.bytes [0x04]) true)])

theorem processInputReport_short_dropped :
    shortKeyboard.setupPhase = .ready ∧
    (∃ report, shortKeyboard.pendingReports = [report] ∧
      (decodeReport report shortKeyboard).status = .short ∧
      ¬ Reported (exampleEnv keyboardServices) { update := 0, reading := fun _ => 0 } report shortKeyboard) ∧
    (step shortKeyboard (.loop (exampleEnv keyboardServices))).pendingReports = [] ∧
    (step shortKeyboard (.loop (exampleEnv keyboardServices))).outputs = [] := by
  refine ⟨by decide +kernel, ⟨shortKeyboard.pendingReports.headD {}, by decide +kernel,
    by decide +kernel, ?_⟩, by decide +kernel, by decide +kernel⟩
  intro hreported
  obtain ⟨event, -, hout⟩ := hreported (by decide +kernel)
  have hnone : (processInputReport (exampleEnv keyboardServices) { update := 0, reading := fun _ => 0 }
      (shortKeyboard.pendingReports.headD {}) shortKeyboard).outputs = [] := by decide +kernel
  rw [hnone] at hout
  simp at hout

end BLEClientHID

end BleClientHid
