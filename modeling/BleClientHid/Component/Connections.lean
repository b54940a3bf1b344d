import BleClientHid.CoalescingBuffer
import BleClientHid.Component.FifoLaw
import BleClientHid.Component.Runs
import BleClientHid.SeqShift

/-! # One connection after the other

Two components that have begun a connection behave alike, whatever they did
before, up to a shift of the `seq_id`s.
-/

namespace BleClientHid

open BLEClientHID

inductive ShiftedOutput (d : Nat) : Output → Output → Prop where
  | hidEvent {event event' : HIDEvent} (h : ShiftedEvent d event event') :
      ShiftedOutput d (.hidEvent event) (.hidEvent event')
  | battery (level : Nat) : ShiftedOutput d (.battery level) (.battery level)

/-- The same setup, and the same reports and events up to their `seq_id`s. -/
structure Alike (d : Nat) (s t : BLEClientHID) : Prop where
  setup : t = s.reshape t.reports t.outputs
  pending : t.pendingReports = s.pendingReports.map (shiftReport d)
  bytes : t.pendingReportBytes = s.pendingReportBytes
  window : ShiftedWindow d s.window t.window
  seqId : t.nextSeqId = shiftId d s.nextSeqId
  outputs : List.Forall₂ (ShiftedOutput d) s.outputs t.outputs

section

variable {d : Nat} {s t : BLEClientHID}

theorem shiftId_succ (d n : Nat) : (shiftId d n + 1) % 2 ^ 64 = shiftId d ((n + 1) % 2 ^ 64) := by
  unfold shiftId
  omega

theorem shiftedOutputs_refl_battery (levels : List Nat) :
    List.Forall₂ (ShiftedOutput d) (levels.map .battery) (levels.map .battery) := by
  rw [List.forall₂_map_left_iff, List.forall₂_map_right_iff, List.forall₂_same]
  exact fun level _ => .battery level

theorem shiftedOutputs_events {events events' : List HIDEvent} (h : ShiftedEvents d events events') :
    List.Forall₂ (ShiftedOutput d) (events.map .hidEvent) (events'.map .hidEvent) :=
  List.rel_map (fun _ _ hevent => .hidEvent hevent) h

namespace Alike

theorem apart {f : BLEClientHID → BLEClientHID} (hf : Apart f) (h : Alike d s t) : Alike d (f s) (f t) := by
  obtain ⟨levels, hlevels⟩ := hf s
  have hs : f s = (f s).reshape s.reports (s.outputs ++ levels.map .battery) := hlevels s.reports s.outputs
  have ht : f t = (f s).reshape t.reports (t.outputs ++ levels.map .battery) := by
    rw [← hlevels t.reports t.outputs, ← h.setup]
  have hreports := hf.reports s
  have hreports' := hf.reports t
  refine ⟨?_, ?_, ?_, ?_, ?_, ?_⟩
  · rw [hreports', ht]
    rfl
  · rw [hs, ht]
    exact h.pending
  · rw [hs, ht]
    exact h.bytes
  · rw [hs, ht]
    exact h.window
  · rw [hs, ht]
    exact h.seqId
  · rw [hs, ht]
    exact List.rel_append h.outputs (shiftedOutputs_refl_battery levels)

theorem silent {f : BLEClientHID → BLEClientHID} (hf : Silent f) (h : Alike d s t) : Alike d (f s) (f t) :=
  h.apart hf.apart

theorem reshape (h : Alike d s t) {r q : ReportSide} {o o' : List Output}
    (hpending : q.pendingReports = r.pendingReports.map (shiftReport d))
    (hbytes : q.pendingReportBytes = r.pendingReportBytes) (hwindow : ShiftedWindow d r.window q.window)
    (hseqId : q.nextSeqId = shiftId d r.nextSeqId) (houtputs : List.Forall₂ (ShiftedOutput d) o o') :
    Alike d (s.reshape r o) (t.reshape q o') := by
  refine ⟨?_, hpending, hbytes, hwindow, hseqId, houtputs⟩
  rw [h.setup]
  rfl

theorem ite {p q : Prop} [Decidable p] [Decidable q] {s' t' : BLEClientHID} (hsame : p ↔ q) (h : Alike d s t)
    (h' : Alike d s' t') : Alike d (if p then s else s') (if q then t else t') := by
  by_cases hp : p
  · rw [if_pos hp, if_pos (hsame.mp hp)]
    exact h
  · rw [if_neg hp, if_neg (mt hsame.mpr hp)]
    exact h'

end Alike

/-! ## Reports -/

theorem updateWindow_alike (now : UInt32) (h : Alike d s t) :
    Alike d (s.updateWindow now) (t.updateWindow now) := by
  have hinterval : t.eventSamplingIntervalUs = s.eventSamplingIntervalUs := by rw [h.setup]; rfl
  have houtcome : ShiftedOutcome d (updateSamplingWindow s.eventSamplingIntervalUs now s.window)
      (updateSamplingWindow t.eventSamplingIntervalUs now t.window) := by
    rw [hinterval]
    exact updateSamplingWindow_shifted s.eventSamplingIntervalUs now h.window
  exact h.reshape (r := { s.reports with window := _ }) (q := { t.reports with window := _ })
    h.pending h.bytes houtcome.1 h.seqId (List.rel_append h.outputs (shiftedOutputs_events houtcome.2))

theorem dropOldest_alike (now : UInt32) (report : PendingHIDReport) (rest : List PendingHIDReport)
    (h : Alike d s t) :
    Alike d (s.dropOldest now report rest) (t.dropOldest now (shiftReport d report)
      (rest.map (shiftReport d))) := by
  refine h.reshape (r := (s.dropOldest now report rest).reports)
    (q := (t.dropOldest now (shiftReport d report) (rest.map (shiftReport d))).reports) rfl ?_ h.window
      h.seqId h.outputs
  exact congrArg (· - report.payload.length) h.bytes

theorem evictReports_alike (env : Env) (length fuel n : Nat) (h : Alike d s t) :
    Alike d (evictReports env length fuel n s) (evictReports env length fuel n t) := by
  induction fuel generalizing n s t with
  | zero => exact h
  | succ fuel ih =>
    unfold evictReports
    rw [h.bytes, h.pending]
    cases hqueue : s.pendingReports with
    | nil => exact h
    | cons report rest =>
      simp only [List.map_cons, List.length_cons, List.length_map]
      split
      · exact ih (n + 1) (dropOldest_alike (env.overflowMs n) report rest h)
      · exact h

theorem enqueueInputReport_alike (env : Env) (handle : Nat) (value : Buffer) (isNotify : Bool) (seqId : Nat)
    (h : Alike d s t) :
    Alike d (enqueueInputReport env handle value isNotify seqId s)
      (enqueueInputReport env handle value isNotify (shiftId d seqId) t) := by
  cases hpayload : admittedPayload value with
  | none =>
    rw [enqueueInputReport_ignored env handle isNotify _ hpayload,
      enqueueInputReport_ignored env handle isNotify _ hpayload]
    exact h
  | some payload =>
    have hevicted := evictReports_alike env payload.length s.pendingReports.length 0 h
    have hlength : t.pendingReports.length = s.pendingReports.length := by rw [h.pending, List.length_map]
    have hsource : t.sourceOf handle = s.sourceOf handle := by rw [h.setup]; rfl
    rw [enqueueInputReport_admitted env handle isNotify _ hpayload,
      enqueueInputReport_admitted env handle isNotify _ hpayload,
      hlength]
    dsimp only
    rw [evictReports_sourceOf, evictReports_sourceOf, hsource]
    refine hevicted.reshape (r := { (evictReports env payload.length s.pendingReports.length 0 s).reports with
        pendingReportBytes := _, pendingReports := _ })
          (q := { (evictReports env payload.length s.pendingReports.length 0 t).reports with
        pendingReportBytes := _, pendingReports := _ }) ?_ ?_ hevicted.window hevicted.seqId hevicted.outputs
    · rw [List.map_append, hevicted.pending]
      rfl
    · exact congrArg (· + payload.length) hevicted.bytes

theorem decodeReport_reshape (report : PendingHIDReport) (r : ReportSide) (o : List Output) (s : BLEClientHID) :
    decodeReport report (s.reshape r o) =
      { decodeReport report s with component := (decodeReport report s).component.reshape r o } := by
  unfold decodeReport
  rw [reshape_findHidContext]
  split
  · rfl
  · split <;> rfl

theorem processInputReport_alike (env : Env) (clock : ReportClock) (report : PendingHIDReport) (h : Alike d s t) :
    Alike d (processInputReport env clock report s) (processInputReport env clock (shiftReport d report) t) := by
  let decoded := decodeReport report s
  let r : DecodedReport := {
    view := decoded.component.view env, report, raw := formatValue env.platform (.bytes report.payload)
    values := decoded.values, recognized := decoded.recognized, status := decoded.status }
  have hself : decoded.component = decoded.component.reshape s.reports s.outputs :=
    congrArg Decoded.component (decodeReport_reshape report s.reports s.outputs s)
  have hother : decodeReport (shiftReport d report) t =
      { decoded with component := decoded.component.reshape t.reports t.outputs } := by
    conv_lhs => rw [h.setup]
    exact decodeReport_reshape report t.reports t.outputs s
  have hdecoded : Alike d decoded.component (decoded.component.reshape t.reports t.outputs) := by
    rw [hself]
    exact ⟨rfl, h.pending, h.bytes, h.window, h.seqId, h.outputs⟩
  obtain ⟨hwindow, hevents⟩ :=
    processDecodedReport_shifted r clock decoded.component.eventSamplingIntervalUs hdecoded.window
  unfold processInputReport
  rw [hother]
  exact hdecoded.reshape (r := { decoded.component.reports with window := _ }) (q := { t.reports with window := _ })
    hdecoded.pending hdecoded.bytes hwindow hdecoded.seqId
      (List.rel_append hdecoded.outputs (shiftedOutputs_events hevents))

theorem processReports_alike (env : Env) (fuel n : Nat) (h : Alike d s t) :
    Alike d (processReports env fuel n s) (processReports env fuel n t) := by
  induction fuel generalizing n s t with
  | zero => exact h
  | succ fuel ih =>
    unfold processReports
    rw [h.pending]
    cases hqueue : s.pendingReports with
    | nil => exact h
    | cons report rest =>
      simp only [List.map_cons]
      split
      · refine ih (n + 1) (processInputReport_alike env (env.reportClock n) report ?_)
        refine h.reshape (r := { s.reports with
            pendingReports := rest, pendingReportBytes := s.pendingReportBytes - report.payload.length })
          (q := { t.reports with
            pendingReports := rest.map (shiftReport d)
            pendingReportBytes := t.pendingReportBytes - report.payload.length })
          rfl ?_ h.window h.seqId h.outputs
        exact congrArg (· - report.payload.length) h.bytes
      · exact h

/-! ## Steps -/

theorem loop_alike (env : Env) (h : Alike d s t) : Alike d (s.loop env) (t.loop env) := by
  have hsetup := h.silent (loopSetup_silent env)
  exact updateWindow_alike env.windowEndUs (processReports_alike env maxReportsPerLoop 0
    (updateWindow_alike env.windowUs hsetup))

/-- What becomes of a notification once its `seq_id` is drawn. -/
def receive (env : Env) (handle : Nat) (value : Buffer) (isNotify : Bool) (seqId : Nat) (s : BLEClientHID) :
    BLEClientHID :=
  if handle ∈ s.serviceChangedHandles then { s with rediscoveryRequested := true }
  else if handle ∈ s.batteryHandles then
    match value with
    | .bytes (level :: _) => s.publishBattery env level
    | _ => s
  else if handle ∈ s.hidReportHandles then s.enqueueInputReport env handle value isNotify seqId
  else s

theorem handleNotification_eq (env : Env) (handle : Nat) (value : Buffer) (isNotify : Bool) (s : BLEClientHID) :
    s.handleNotification env handle value isNotify =
      receive env handle value isNotify s.nextSeqId s.logRawNotification.1 := by
  unfold handleNotification receive
  rfl

theorem receive_alike (env : Env) (handle : Nat) (value : Buffer) (isNotify : Bool) (seqId : Nat)
    (h : Alike d s t) :
    Alike d (receive env handle value isNotify seqId s)
      (receive env handle value isNotify (shiftId d seqId) t) := by
  have hchanged : t.serviceChangedHandles = s.serviceChangedHandles := by rw [h.setup]; rfl
  have hbattery : t.batteryHandles = s.batteryHandles := by rw [h.setup]; rfl
  have hreport : t.hidReportHandles = s.hidReportHandles := by rw [h.setup]; rfl
  unfold receive
  refine .ite (by rw [hchanged]) ?_ (.ite (by rw [hbattery]) ?_ (.ite (by rw [hreport]) ?_ h))
  · exact h.silent (f := fun s => { s with rediscoveryRequested := true }) fun _ _ _ => rfl
  · split
    · rename_i level _
      exact h.apart (publishBattery_apart env level)
    · exact h
  · exact enqueueInputReport_alike env handle value isNotify seqId h

theorem handleNotification_alike (env : Env) (handle : Nat) (value : Buffer) (isNotify : Bool) (h : Alike d s t) :
    Alike d (s.handleNotification env handle value isNotify) (t.handleNotification env handle value isNotify) := by
  have hdrawn : Alike d s.logRawNotification.1 t.logRawNotification.1 := by
    refine h.reshape (r := { s.reports with nextSeqId := _ }) (q := { t.reports with nextSeqId := _ })
      h.pending h.bytes h.window ?_ h.outputs
    exact (congrArg (fun n => (n + 1) % 2 ^ 64) h.seqId).trans (shiftId_succ d s.nextSeqId)
  rw [handleNotification_eq, handleNotification_eq, h.seqId]
  exact receive_alike env handle value isNotify s.nextSeqId hdrawn

/-- What a callback does: it belongs to the setup, begins a connection anew or brings a notification. -/
inductive Callback (env : Env) : (BLEClientHID → BLEClientHID) → Prop where
  | setup {f : BLEClientHID → BLEClientHID} (hf : Apart f) : Callback env f
  | reset {f : BLEClientHID → BLEClientHID} (hf : Silent f) : Callback env fun s => f s.resetConnectionState
  | notification (handle : Nat) (value : Buffer) (isNotify : Bool) :
      Callback env (handleNotification env handle value isNotify)

theorem handleGattcEvent_callback (env : Env) (event : GattcEvent) : Callback env (handleGattcEvent env event) := by
  have hself : Callback env fun s => s := .setup id_silent.apart
  have hcheck (p : Prop) [Decidable p] {f : BLEClientHID → BLEClientHID} (hf : Callback env f) :
      Callback env fun s => if p then f s else s := by
    by_cases hp : p
    · simpa only [if_pos hp] using hf
    · simpa only [if_neg hp] using hself
  cases event with
  | connect remoteBda =>
    exact hcheck _ (.reset ((transition_silent env .waitingForDiscovery).comp (log_silent .setEncryption)))
  | disconnect remoteBda => exact hcheck _ (.reset (transition_silent env .disconnected))
  | searchCmpl connId status => exact hcheck _ (.setup (handleSearchComplete_silent env status).apart)
  | read connId handle status value => exact hcheck _ (.setup (handleRead_apart env handle status value))
  | regForNotify handle status => exact .setup (handleRegistrationResult_silent env handle status).apart
  | writeDescr connId handle status => exact hcheck _ (.setup (handleCccdResult_silent env handle status).apart)
  | notify connId remoteBda handle value isNotify => exact hcheck _ (.notification handle value isNotify)
  | srvcChg | congest | queueFull => exact hcheck _ (.setup (Silent.apart fun _ _ _ => rfl))
  | other => exact hself

theorem reset_alike (h : Alike d s t) : Alike d s.resetConnectionState t.resetConnectionState := by
  refine ⟨?_, rfl, rfl, ⟨⟨h.window.events.capacity, .nil⟩, rfl,
    fun hactive => by simp [resetConnectionState] at hactive⟩,
    h.seqId, .nil⟩
  conv_lhs => rw [h.setup]
  rfl

theorem step_alike (event : Event) (h : Alike d s t) : Alike d (step s event) (step t event) := by
  cases event with
  | loop env => exact loop_alike env h
  | gattc env event gattcIf =>
    cases haccepted : accepted env gattcIf with
    | false =>
      rw [step_refused haccepted, step_refused haccepted]
      exact h
    | true =>
      rw [step_accepted haccepted, step_accepted haccepted]
      have hcallback := handleGattcEvent_callback env event
      generalize handleGattcEvent env event = f at hcallback
      cases hcallback with
      | setup hf => exact h.apart hf
      | reset hf => exact (reset_alike h).silent hf
      | notification handle value isNotify => exact handleNotification_alike env handle value isNotify h

theorem run_alike (events : List Event) (h : Alike d s t) : Alike d (run s events) (run t events) := by
  induction events generalizing s t with
  | nil => exact h
  | cons event events ih => exact ih (step_alike event h)

/-! ## What every run keeps -/

def BLEClientHID.capacity (s : BLEClientHID) : Nat := s.window.sampledEvents.capacity

/-- Coalescing steps lead to the window of the component. -/
def Sampled (s : BLEClientHID) : Prop := ∃ trace : TracedWindow, TraceInv trace ∧ trace.window = s.window

theorem Sampled.of_window (h : Sampled s) (hsame : t.window = s.window) : Sampled t := by
  obtain ⟨trace, hinv, hwindow⟩ := h
  exact ⟨trace, hinv, hwindow.trans hsame.symm⟩

theorem Sampled.step (h : Sampled s) (interval : UInt32) (step : SamplingStep)
    (hstep : t.window = (samplingStep interval s.window step).1) : Sampled t := by
  obtain ⟨trace, hinv, hwindow⟩ := h
  refine ⟨coalescingStep interval trace (.sampling step), coalescingStep_spec _ hinv, ?_⟩
  rw [(samplingStep_records interval step trace).1, hwindow, hstep]

theorem Sampled.apart (h : Sampled s) {f : BLEClientHID → BLEClientHID} (hf : Apart f) : Sampled (f s) :=
  h.of_window (congrArg (·.window) (hf.reports s))

theorem Sampled.reset (h : Sampled s) : Sampled s.resetConnectionState := by
  obtain ⟨trace, hinv, hwindow⟩ := h
  exact ⟨resetWindowTraced trace, resetWindowTraced_spec hinv, (reset_records trace).1.trans (by rw [hwindow]; rfl)⟩

theorem updateWindow_sampled (now : UInt32) (h : Sampled s) : Sampled (s.updateWindow now) :=
  h.step s.eventSamplingIntervalUs (.window now) rfl

theorem processInputReport_sampled (env : Env) (clock : ReportClock) (report : PendingHIDReport)
    (h : Sampled s) : Sampled (processInputReport env clock report s) := by
  have hdecoded : Sampled (decodeReport report s).component :=
    h.of_window (congrArg (·.window) (decodeReport_reports report s))
  exact hdecoded.step _ (.report clock _) rfl

theorem processReports_sampled (env : Env) (fuel n : Nat) (h : Sampled s) :
    Sampled (processReports env fuel n s) := by
  induction fuel generalizing n s with
  | zero => exact h
  | succ fuel ih =>
    unfold processReports
    split
    · exact h
    · split
      · rename_i report rest _ _
        have hpopped : Sampled { s with
            pendingReports := rest
            pendingReportBytes := s.pendingReportBytes - report.payload.length } := h.of_window rfl
        exact ih (n + 1) (processInputReport_sampled env (env.reportClock n) report hpopped)
      · exact h

theorem evictReports_window (env : Env) (length fuel n : Nat) (s : BLEClientHID) :
    (evictReports env length fuel n s).window = s.window := by
  induction fuel generalizing n s with
  | zero => rfl
  | succ fuel ih =>
    unfold evictReports
    split
    · rfl
    · split
      · exact ih _ _
      · rfl

theorem handleNotification_window (env : Env) (handle : Nat) (value : Buffer) (isNotify : Bool)
    (s : BLEClientHID) : (s.handleNotification env handle value isNotify).window = s.window := by
  unfold handleNotification
  dsimp only
  split
  · rfl
  · split
    · split
      · rw [publishBattery_eq]
        rfl
      · rfl
    · split
      · cases hpayload : admittedPayload value with
        | none =>
          rw [enqueueInputReport_ignored env handle isNotify _ hpayload]
          rfl
        | some payload =>
          rw [enqueueInputReport_admitted env handle isNotify _ hpayload]
          exact evictReports_window ..
      · rfl

theorem step_sampled (event : Event) (h : Sampled s) : Sampled (step s event) := by
  cases event with
  | loop env =>
    have hsetup := updateWindow_sampled env.windowUs (h.apart (loopSetup_silent env).apart)
    exact updateWindow_sampled env.windowEndUs (processReports_sampled env maxReportsPerLoop 0 hsetup)
  | gattc env event gattcIf =>
    cases haccepted : accepted env gattcIf with
    | false =>
      rw [step_refused haccepted]
      exact h
    | true =>
      rw [step_accepted haccepted]
      have hcallback := handleGattcEvent_callback env event
      generalize handleGattcEvent env event = f at hcallback
      cases hcallback with
      | setup hf => exact h.apart hf
      | reset hf => exact h.reset.apart hf.apart
      | notification handle value isNotify =>
        exact h.of_window (handleNotification_window env handle value isNotify s)

theorem run_sampled (events : List Event) (h : Sampled s) : Sampled (run s events) := by
  induction events generalizing s with
  | nil => exact h
  | cons event events ih => exact ih (step_sampled event h)

/-- The window of a run obeys the invariant of the coalescing buffer. -/
theorem run_bufferInv (discoveryMode : DiscoveryMode) (policy : ProtocolModePolicy) (interval : UInt32)
    (events : List Event) : BufferInv (run (initial discoveryMode policy interval) events).window := by
  obtain ⟨trace, hinv, hwindow⟩ :=
    run_sampled (s := initial discoveryMode policy interval) events ⟨{}, traceInv_start, rfl⟩
  exact hwindow ▸ hinv.window

/-! ## A connection -/

theorem connect_alike (env : Env) (hmode : t.discoveryMode = s.discoveryMode)
    (hpolicy : t.protocolModePolicy = s.protocolModePolicy)
    (hinterval : t.eventSamplingIntervalUs = s.eventSamplingIntervalUs) (hcapacity : t.capacity = s.capacity)
    (hseqId : t.nextSeqId = shiftId d s.nextSeqId) :
    Alike d (s.handleGattcEvent env (.connect env.remoteBda))
      (t.handleGattcEvent env (.connect env.remoteBda)) := by
  rw [handleGattcEvent, handleGattcEvent, if_pos rfl, if_pos rfl]
  refine ⟨?_, rfl, rfl, ⟨⟨hcapacity, .nil⟩, rfl, fun hactive => ?_⟩, hseqId, .nil⟩
  · unfold resetConnectionState
    rw [hmode, hpolicy, hinterval]
    rfl
  · simp [resetConnectionState, transition, log] at hactive

theorem exists_shiftId {n m : Nat} (hn : n < 2 ^ 64) (hm : m < 2 ^ 64) : ∃ d, m = shiftId d n := by
  refine ⟨2 ^ 64 - n + m, ?_⟩
  unfold shiftId
  omega

end

/-! ## Nothing leaks -/

/-- Some run of a freshly configured component leads here. -/
def Ran (s : BLEClientHID) : Prop :=
  ∃ discoveryMode policy interval events, run (initial discoveryMode policy interval) events = s

def BLEClientHID.configuration (s : BLEClientHID) : DiscoveryMode × ProtocolModePolicy × UInt32 :=
  (s.discoveryMode, s.protocolModePolicy, s.eventSamplingIntervalUs)

/-- The same phase, the same operations and the same events, whose `seq_id`s are `d` ahead. -/
structure SameBehaviour (d : Nat) (s t : BLEClientHID) : Prop where
  phase : t.setupPhase = s.setupPhase
  trace : t.trace = s.trace
  outputs : List.Forall₂ (ShiftedOutput d) s.outputs t.outputs

theorem Alike.sameBehaviour {d : Nat} {s t : BLEClientHID} (h : Alike d s t) : SameBehaviour d s t where
  phase := by
    rw [h.setup]
    rfl
  trace := by
    rw [h.setup]
    rfl
  outputs := h.outputs

theorem Ran.bounds {s : BLEClientHID} (h : Ran s) : s.capacity = 16 ∧ s.nextSeqId < 2 ^ 64 := by
  obtain ⟨discoveryMode, policy, interval, events, rfl⟩ := h
  have hseqId := (accounted_run discoveryMode policy interval events).nextSeqId
  refine ⟨(run_bufferInv discoveryMode policy interval events).capacity, ?_⟩
  rw [hseqId]
  exact Nat.mod_lt _ (by decide)

/-- After CONNECT, what follows does not depend on what came before. -/
theorem nothing_leaks {s t : BLEClientHID} (hs : Ran s) (ht : Ran t)
    (hconfiguration : t.configuration = s.configuration)
    (env : Env) {gattcIf : Option Nat} (haccepted : accepted env gattcIf = true) :
    ∃ d, ∀ events,
      SameBehaviour d (run (step s (.gattc env (.connect env.remoteBda) gattcIf)) events)
        (run (step t (.gattc env (.connect env.remoteBda) gattcIf)) events) := by
  obtain ⟨hcapacity, hlt⟩ := hs.bounds
  obtain ⟨hcapacity', hlt'⟩ := ht.bounds
  obtain ⟨d, hseqId⟩ := exists_shiftId hlt hlt'
  simp only [configuration, Prod.mk.injEq] at hconfiguration
  obtain ⟨hmode, hpolicy, hinterval⟩ := hconfiguration
  refine ⟨d, fun events => ?_⟩
  rw [step_accepted haccepted, step_accepted haccepted]
  have hconnect := connect_alike env hmode hpolicy hinterval (hcapacity'.trans hcapacity.symm) hseqId
  exact (run_alike events hconnect).sameBehaviour

/-- A key is held when the connection is lost. -/
def keyHeld : List Event :=
  keyboardSetup ++ exampleRun keyboardServices [some (.notify 0 0 5 (.bytes [4, 0]) true), none,
    some (.disconnect 0)]

theorem nothing_leaks_keyboard :
    ∃ d, ∀ events,
      SameBehaviour d (run (step (run (initial .standard .unchanged 0) keyHeld)
          (.gattc (exampleEnv keyboardServices) (.connect 0) none)) events)
        (run (step (initial .standard .unchanged 0) (.gattc (exampleEnv keyboardServices) (.connect 0)
          none)) events) :=
  nothing_leaks ⟨_, _, _, keyHeld, rfl⟩ ⟨_, _, _, [], rfl⟩ (by decide +kernel) (exampleEnv keyboardServices) rfl

end BleClientHid
