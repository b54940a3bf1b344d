import BleClientHid.Component.Refinement
import BleClientHid.Component.ReportSide
import BleClientHid.Lib.Fifo

/-! # The queue of reports

Every step as accesses to the queue, and the log of what they enqueue, process,
evict and discard.
-/

namespace BleClientHid

open Lib BLEClientHID

def pendingLimits : Limits where
  length := maxPendingReports
  weight := maxPendingReportBytes

def payloadSize (report : PendingHIDReport) : Nat := report.payload.length

abbrev ReportLog := List (QueueEntry PendingHIDReport)

/-! ## What a step logs -/

/-- The payload, when `enqueue_input_report_` takes it. -/
def admittedPayload : Buffer → Option (List UInt8)
  | .null 0 => some []
  | .null (_ + 1) => none
  | .bytes bytes => if bytes.length ≤ maxReportPayloadBytes then some bytes else none

/-- A notification of the connection; each draws a `seq_id`. -/
def Event.notifies : Event → Bool
  | .gattc env (.notify connId remoteBda _ _ _) gattcIf =>
    gattcIf.all (· == env.gattcIf) && (connId == env.connId && remoteBda == env.remoteBda)
  | _ => false

/-- The report that an admitted HID notification brings. -/
def BLEClientHID.arriving (s : BLEClientHID) (event : Event) : Option PendingHIDReport :=
  if !event.notifies then none
  else match event with
    | .gattc _ (.notify _ _ handle value isNotify) _ =>
      if handle ∈ s.serviceChangedHandles ∨ handle ∈ s.batteryHandles ∨ handle ∉ s.hidReportHandles then none
      else (admittedPayload value).map fun payload =>
        { source := { s.sourceOf handle with
            characteristicHandle := handle, isNotification := isNotify, hasTransport := true }
          payload
          seqId := s.nextSeqId }
    | _ => none

/-- How many reports one `loop()` has the time for. -/
def processedCount (env : Env) : Nat → Nat → List PendingHIDReport → Nat
  | 0, _, _ => 0
  | _ + 1, _, [] => 0
  | fuel + 1, n, _ :: rest =>
    if env.processingUs n - env.processingStartedUs < maxProcessingTimeUs then processedCount env fuel
      (n + 1) rest + 1
    else 0

def BLEClientHID.evicted (s : BLEClientHID) (report : PendingHIDReport) : Nat :=
  evictions pendingLimits payloadSize (payloadSize report) s.pendingReports

def BLEClientHID.queueLog (s : BLEClientHID) (event : Event) : ReportLog :=
  match s.arriving event with
  | some report => (s.pendingReports.take (s.evicted report)).map .evicted ++ [.admitted report]
  | none =>
    match event with
    | .loop env => (s.pendingReports.take (processedCount env maxReportsPerLoop 0 s.pendingReports)).map .processed
    | .gattc .. => if event.resetsConnection then s.pendingReports.map .discarded else []

/-! ## Accesses -/

/-- The report that is processed or dropped is the oldest, and its bytes are counted. -/
structure Oldest (s : BLEClientHID) (report : PendingHIDReport) (rest : List PendingHIDReport) : Prop where
  queue : s.pendingReports = report :: rest
  room : payloadSize report ≤ s.pendingReportBytes

structure SameQueue (s t : BLEClientHID) : Prop where
  queue : t.pendingReports = s.pendingReports
  bytes : t.pendingReportBytes = s.pendingReportBytes
  dropped : t.reportsDropped = s.reportsDropped
  seqId : t.nextSeqId = s.nextSeqId

/-- One access to the queue, with how many `seq_id`s it draws and what it logs. -/
inductive QueueAct (env : Env) : BLEClientHID → Nat → ReportLog → BLEClientHID → Prop where
  | aside {s t : BLEClientHID} (hsame : SameQueue s t) : QueueAct env s 0 [] t
  | draw {s : BLEClientHID} : QueueAct env s 1 [] { s with nextSeqId := (s.nextSeqId + 1) % 2 ^ 64 }
  | evict {s : BLEClientHID} (size : Nat) (now : UInt32) (report : PendingHIDReport) (rest : List PendingHIDReport)
      (holdest : Oldest s report rest) (hfull : ¬Fits pendingLimits payloadSize size s.pendingReports) :
      QueueAct env s 0 [.evicted report] (s.dropOldest now report rest)
  | enqueue {s : BLEClientHID} (report : PendingHIDReport)
      (hfits : Fits pendingLimits payloadSize (payloadSize report) s.pendingReports) :
      QueueAct env s 0 [.admitted report] { s with
        pendingReportBytes := s.pendingReportBytes + payloadSize report
        pendingReports := s.pendingReports ++ [report] }
  | process {s : BLEClientHID} (n : Nat) (report : PendingHIDReport) (rest : List PendingHIDReport)
      (holdest : Oldest s report rest) :
      QueueAct env s 0 [.processed report] (processInputReport env (env.reportClock n) report { s with
        pendingReports := rest
        pendingReportBytes := s.pendingReportBytes - payloadSize report })
  | reset {s : BLEClientHID} : QueueAct env s 0 (s.pendingReports.map .discarded) s.resetConnectionState

inductive QueueActs (env : Env) : BLEClientHID → Nat → ReportLog → BLEClientHID → Prop where
  | nil {s : BLEClientHID} : QueueActs env s 0 [] s
  | cons {s t u : BLEClientHID} {n m : Nat} {log log' : ReportLog} (hact : QueueAct env s n log t)
      (hacts : QueueActs env t m log' u) : QueueActs env s (n + m) (log ++ log') u

/-- The counter is right, and the limits hold. -/
structure Queued (s : BLEClientHID) : Prop where
  bytes : s.pendingReportBytes = totalWeight payloadSize s.pendingReports
  length : s.pendingReports.length ≤ maxPendingReports
  weight : s.pendingReportBytes ≤ maxPendingReportBytes

section

variable {env : Env} {s t u : BLEClientHID} {n m : Nat} {log log' : ReportLog}

theorem QueueActs.single (hact : QueueAct env s n log t) : QueueActs env s n log t := by
  have hacts := QueueActs.cons hact .nil
  rwa [List.append_nil] at hacts

theorem QueueActs.append (h : QueueActs env s n log t) (h' : QueueActs env t m log' u) :
    QueueActs env s (n + m) (log ++ log') u := by
  induction h with
  | nil =>
    rw [Nat.zero_add]
    exact h'
  | cons hact _ ih =>
    rw [List.append_assoc, Nat.add_assoc]
    exact .cons hact (ih h')

theorem decodeReport_reports (report : PendingHIDReport) (s : BLEClientHID) :
    (decodeReport report s).component.reports = s.reports := by
  unfold decodeReport
  split
  · rfl
  · split <;> rfl

theorem processInputReport_reports (env : Env) (clock : ReportClock) (report : PendingHIDReport)
    (s : BLEClientHID) :
    ∃ window, (processInputReport env clock report s).reports = { s.reports with window } :=
  ⟨_, congrArg (fun r : ReportSide => { r with window := (processInputReport env clock report s).window })
    (decodeReport_reports report s)⟩

theorem sameQueue_of_reports {w : SamplingWindow} (h : t.reports = { s.reports with window := w }) :
    SameQueue s t :=
  ⟨congrArg ReportSide.pendingReports h, congrArg ReportSide.pendingReportBytes h,
    congrArg ReportSide.reportsDropped h,
    congrArg ReportSide.nextSeqId h⟩

theorem processInputReport_same (env : Env) (clock : ReportClock) (report : PendingHIDReport) (s : BLEClientHID) :
    SameQueue s (processInputReport env clock report s) := by
  obtain ⟨window, h⟩ := processInputReport_reports env clock report s
  exact sameQueue_of_reports h

theorem weight_cons (report : PendingHIDReport) (rest : List PendingHIDReport) :
    totalWeight payloadSize (report :: rest) = payloadSize report + totalWeight payloadSize rest := List.sum_cons

theorem weight_push (queue : List PendingHIDReport) (report : PendingHIDReport) :
    totalWeight payloadSize (queue ++ [report]) = totalWeight payloadSize queue + payloadSize report := by
  simp [totalWeight]

theorem Queued.pop {report : PendingHIDReport} {rest : List PendingHIDReport} (h : Queued s)
    (hqueue : s.pendingReports = report :: rest) (hrest : t.pendingReports = rest)
    (hbytes : t.pendingReportBytes = s.pendingReportBytes - payloadSize report) : Queued t := by
  obtain ⟨htotal, hlength, hweight⟩ := h
  rw [hqueue, weight_cons] at htotal
  rw [hqueue, List.length_cons] at hlength
  refine ⟨?_, ?_, ?_⟩
  · rw [hbytes, hrest]
    omega
  · rw [hrest]
    omega
  · omega

theorem QueueAct.queued (hact : QueueAct env s n log t) (h : Queued s) : Queued t := by
  cases hact with
  | aside hsame => exact ⟨by rw [hsame.queue, hsame.bytes, h.bytes], by rw [hsame.queue]; exact h.length,
      by rw [hsame.bytes]; exact h.weight⟩
  | draw => exact ⟨h.bytes, h.length, h.weight⟩
  | evict size now report rest holdest => exact h.pop holdest.queue rfl rfl
  | enqueue report hfits =>
    obtain ⟨hlength, hweight⟩ := hfits
    refine ⟨?_, ?_, ?_⟩
    · dsimp only
      rw [weight_push, h.bytes]
    · dsimp only
      rw [List.length_append]
      exact hlength
    · dsimp only
      rw [h.bytes]
      exact hweight
  | process n report rest holdest =>
    have hsame := processInputReport_same env (env.reportClock n) report { s with
      pendingReports := rest, pendingReportBytes := s.pendingReportBytes - payloadSize report }
    exact h.pop holdest.queue hsame.queue hsame.bytes
  | reset => exact ⟨rfl, Nat.zero_le _, Nat.zero_le _⟩

theorem QueueAct.explains (hact : QueueAct env s n log t) : Explains log s.pendingReports t.pendingReports := by
  cases hact with
  | aside hsame =>
    rw [hsame.queue]
    exact .refl _
  | draw => exact .refl _
  | evict size now report rest holdest =>
    rw [holdest.queue]
    exact .evict report rest
  | enqueue report hfits => exact .push _ report
  | process n report rest holdest =>
    rw [holdest.queue, (processInputReport_same ..).queue]
    exact .process report rest
  | reset => exact .discard _

theorem QueueAct.counts (hact : QueueAct env s n log t) (h : s.reportsDropped < 2 ^ 32) :
    t.reportsDropped = (s.reportsDropped + (dropped log).length) % 2 ^ 32 := by
  cases hact with
  | evict => rfl
  | aside hsame => exact hsame.dropped.trans (Nat.mod_eq_of_lt h).symm
  | draw | enqueue => exact (Nat.mod_eq_of_lt h).symm
  | process => exact (processInputReport_same ..).dropped.trans (Nat.mod_eq_of_lt h).symm
  | reset =>
    rw [dropped_map_none fun _ => rfl]
    exact (Nat.mod_eq_of_lt h).symm

theorem QueueAct.draws (hact : QueueAct env s n log t) (h : s.nextSeqId < 2 ^ 64) :
    t.nextSeqId = (s.nextSeqId + n) % 2 ^ 64 := by
  cases hact with
  | draw => rfl
  | aside hsame => exact hsame.seqId.trans (Nat.mod_eq_of_lt h).symm
  | evict | enqueue | reset => exact (Nat.mod_eq_of_lt h).symm
  | process => exact (processInputReport_same ..).seqId.trans (Nat.mod_eq_of_lt h).symm

theorem QueueActs.kept (hacts : QueueActs env s n log t) (h : Queued s) :
    Queued t ∧ Explains log s.pendingReports t.pendingReports := by
  induction hacts with
  | nil => exact ⟨h, .refl _⟩
  | cons hact _ ih =>
    obtain ⟨hqueued, hexplains⟩ := ih (hact.queued h)
    exact ⟨hqueued, hact.explains.append hexplains⟩

theorem QueueActs.counts (hacts : QueueActs env s n log t) (h : s.reportsDropped < 2 ^ 32) :
    t.reportsDropped = (s.reportsDropped + (dropped log).length) % 2 ^ 32 := by
  induction hacts with
  | nil => exact (Nat.mod_eq_of_lt h).symm
  | cons hact _ ih =>
    have hcounts := hact.counts h
    rw [ih (by omega), hcounts, Nat.mod_add_mod, dropped_append, List.length_append, Nat.add_assoc]

theorem QueueActs.draws (hacts : QueueActs env s n log t) (h : s.nextSeqId < 2 ^ 64) :
    t.nextSeqId = (s.nextSeqId + n) % 2 ^ 64 := by
  induction hacts with
  | nil => exact (Nat.mod_eq_of_lt h).symm
  | cons hact _ ih =>
    have hdraws := hact.draws h
    rw [ih (by omega), hdraws, Nat.mod_add_mod, Nat.add_assoc]

/-! ## Room for a report -/

theorem guard_iff (h : s.pendingReportBytes = totalWeight payloadSize s.pendingReports) (size : Nat) :
    s.pendingReports.length ≥ maxPendingReports ∨ s.pendingReportBytes + size > maxPendingReportBytes ↔
      ¬Fits pendingLimits payloadSize size s.pendingReports := by
  unfold Fits pendingLimits
  rw [h]
  dsimp only
  omega

theorem evictReports_acts (env : Env) (size fuel n : Nat) (hqueued : Queued s)
    (hfuel : s.pendingReports.length ≤ fuel) :
    QueueActs env s 0 ((s.pendingReports.take (evictions pendingLimits payloadSize size
      s.pendingReports)).map .evicted)
        (evictReports env size fuel n s) ∧
      (evictReports env size fuel n s).pendingReports =
        s.pendingReports.drop (evictions pendingLimits payloadSize size s.pendingReports) := by
  induction fuel generalizing n s with
  | zero =>
    have hnil : s.pendingReports = [] := List.length_eq_zero_iff.mp (Nat.le_zero.mp hfuel)
    rw [hnil]
    exact ⟨.nil, hnil⟩
  | succ fuel ih =>
    rw [evictReports.eq_def]
    dsimp only
    split
    · rename_i hnil
      rw [hnil]
      exact ⟨.nil, rfl⟩
    · rename_i report rest hqueue
      have hguard := guard_iff hqueued.bytes size
      split
      · rename_i hfull
        rw [hguard] at hfull
        have hbytes := hqueued.bytes
        rw [hqueue, weight_cons] at hbytes
        -- the guard holds, so the oldest report goes and the loop runs again on the rest
        have hact : QueueAct env s 0 [.evicted report] (s.dropOldest (env.overflowMs n) report rest) :=
          .evict size _ report rest ⟨hqueue, by omega⟩ hfull
        obtain ⟨hacts, hdrop⟩ := ih (n + 1) (hact.queued hqueued) (by
          rw [hqueue] at hfuel
          exact Nat.le_of_succ_le_succ hfuel)
        rw [hqueue] at hfull ⊢
        rw [evictions, if_neg hfull]
        exact ⟨.cons hact hacts, hdrop⟩
      · rename_i hfits
        rw [hguard, not_not] at hfits
        rw [hqueue] at hfits ⊢
        -- the report fits: the loop ends here
        rw [evictions, if_pos hfits]
        exact ⟨.nil, rfl⟩

theorem admittedPayload_le {value : Buffer} {payload : List UInt8} (h : admittedPayload value = some payload) :
    payload.length ≤ maxReportPayloadBytes := by
  unfold admittedPayload at h
  split at h
  · obtain rfl := Option.some.inj h
    exact Nat.zero_le _
  · simp at h
  · split at h
    · obtain rfl := Option.some.inj h
      assumption
    · simp at h

theorem enqueueInputReport_ignored (env : Env) (handle : Nat) {value : Buffer} (isNotify : Bool) (seqId : Nat)
    (h : admittedPayload value = none) : enqueueInputReport env handle value isNotify seqId s = s := by
  unfold admittedPayload at h
  split at h
  · simp at h
  · rfl
  · split at h
    · simp at h
    · rename_i hlong
      exact if_pos (Nat.lt_of_not_le hlong)

theorem enqueueInputReport_admitted (env : Env) (handle : Nat) {value : Buffer} {payload : List UInt8}
    (isNotify : Bool) (seqId : Nat) (h : admittedPayload value = some payload) :
    enqueueInputReport env handle value isNotify seqId s =
      let t := evictReports env payload.length s.pendingReports.length 0 s
      { t with
        pendingReportBytes := t.pendingReportBytes + payload.length
        pendingReports := t.pendingReports ++ [{
          source := { t.sourceOf handle with
            characteristicHandle := handle, isNotification := isNotify, hasTransport := true }
          payload, seqId }] } := by
  have hle := admittedPayload_le h
  unfold admittedPayload at h
  split at h
  · obtain rfl := Option.some.inj h
    rfl
  · simp at h
  · split at h
    · obtain rfl := Option.some.inj h
      exact if_neg (Nat.not_lt.mpr hle)
    · simp at h

theorem evictReports_reshape (env : Env) (size fuel n : Nat) (s : BLEClientHID) :
    ∃ r, evictReports env size fuel n s = s.reshape r s.outputs := by
  induction fuel generalizing n s with
  | zero => exact ⟨s.reports, rfl⟩
  | succ fuel ih =>
    rw [evictReports.eq_def]
    dsimp only
    split
    · exact ⟨s.reports, rfl⟩
    · split
      · rename_i report rest _ _
        obtain ⟨r, h⟩ := ih (n + 1) (s.dropOldest (env.overflowMs n) report rest)
        exact ⟨r, h⟩
      · exact ⟨s.reports, rfl⟩

theorem evictReports_sourceOf (env : Env) (size fuel n handle : Nat) (s : BLEClientHID) :
    (evictReports env size fuel n s).sourceOf handle = s.sourceOf handle := by
  obtain ⟨r, h⟩ := evictReports_reshape env size fuel n s
  rw [h]
  rfl

theorem enqueueInputReport_acts (env : Env) (handle : Nat) {value : Buffer} {payload : List UInt8} (isNotify : Bool)
    (seqId : Nat) (h : admittedPayload value = some payload) (hqueued : Queued s) {report : PendingHIDReport}
    (hreport : report = {
      source := { s.sourceOf handle with
        characteristicHandle := handle, isNotification := isNotify, hasTransport := true }
      payload, seqId }) :
    QueueActs env s 0 ((s.pendingReports.take (s.evicted report)).map .evicted ++ [.admitted report])
      (enqueueInputReport env handle value isNotify seqId s) := by
  have hsize : payload.length = payloadSize report := by rw [hreport]; rfl
  have hle : payloadSize report ≤ maxPendingReportBytes := by
    rw [← hsize]
    exact (admittedPayload_le h).trans (by decide)
  obtain ⟨hacts, hdrop⟩ := evictReports_acts env (payloadSize report) s.pendingReports.length 0 hqueued (le_refl _)
  have hsource := evictReports_sourceOf env (payloadSize report) s.pendingReports.length 0 handle s
  rw [enqueueInputReport_admitted env handle isNotify seqId h, hsize]
  generalize evictReports env (payloadSize report) s.pendingReports.length 0 s = t at hacts hdrop hsource
  dsimp only
  rw [hsource, ← hreport]
  refine hacts.append (.single (.enqueue report ?_))
  rw [hdrop]
  exact fits_evictions (by decide) hle _

/-! ## The time of a `loop()` -/

theorem processReports_acts (env : Env) (fuel n : Nat) (hqueued : Queued s) :
    QueueActs env s 0 ((s.pendingReports.take (processedCount env fuel n s.pendingReports)).map .processed)
      (processReports env fuel n s) := by
  induction fuel generalizing n s with
  | zero => exact .nil
  | succ fuel ih =>
    rw [processReports.eq_def]
    dsimp only
    split
    · rename_i hnil
      rw [hnil]
      exact .nil
    · rename_i report rest hqueue
      split
      · rename_i htime
        have hbytes := hqueued.bytes
        rw [hqueue, weight_cons] at hbytes
        have hact : QueueAct env _ _ _ _ := .process n report rest ⟨hqueue, by omega⟩
        have hsame := processInputReport_same env (env.reportClock n) report { s with
          pendingReports := rest, pendingReportBytes := s.pendingReportBytes - payloadSize report }
        have hacts := ih (n + 1) (hact.queued hqueued)
        rw [hsame.queue] at hacts
        rw [hqueue, processedCount, if_pos htime]
        exact .cons hact hacts
      · rename_i htime
        rw [hqueue, processedCount, if_neg htime]
        exact .nil

theorem updateWindow_same (now : UInt32) (s : BLEClientHID) : SameQueue s (s.updateWindow now) :=
  ⟨rfl, rfl, rfl, rfl⟩

theorem apart_same {f : BLEClientHID → BLEClientHID} (hf : Apart f) (s : BLEClientHID) : SameQueue s (f s) :=
  sameQueue_of_reports (w := s.window) (hf.reports s)

theorem loop_acts (env : Env) (hqueued : Queued s) :
    QueueActs env s 0 ((s.pendingReports.take (processedCount env maxReportsPerLoop 0 s.pendingReports)).map
      .processed)
      (s.loop env) := by
  have hsetup : QueueAct env s 0 [] (s.loopSetup env) := .aside (apart_same (loopSetup_silent env).apart s)
  have hwindow : QueueAct env (s.loopSetup env) 0 [] ((s.loopSetup env).updateWindow env.windowUs) :=
    .aside (updateWindow_same ..)
  have hqueued' := hwindow.queued (hsetup.queued hqueued)
  have hacts := processReports_acts env maxReportsPerLoop 0 hqueued'
  have hqueue : ((s.loopSetup env).updateWindow env.windowUs).pendingReports = s.pendingReports :=
    (apart_same (loopSetup_silent env).apart s).queue
  rw [hqueue] at hacts
  have hend := hacts.append (.single (.aside (updateWindow_same env.windowEndUs _)))
  rw [List.append_nil] at hend
  exact .cons hsetup (.cons hwindow hend)

/-! ## A step -/

def accepted (env : Env) (gattcIf : Option Nat) : Bool := gattcIf.all (· == env.gattcIf)

theorem step_accepted {gattcIf : Option Nat} (h : accepted env gattcIf = true) (event : GattcEvent)
    (s : BLEClientHID) :
    step s (.gattc env event gattcIf) = s.handleGattcEvent env event := by
  cases gattcIf with
  | none => rfl
  | some gattcIf => exact if_pos (by simpa [accepted] using h)

theorem step_refused {gattcIf : Option Nat} (h : accepted env gattcIf = false) (event : GattcEvent)
    (s : BLEClientHID) :
    step s (.gattc env event gattcIf) = s := by
  cases gattcIf with
  | none => simp [accepted] at h
  | some gattcIf => exact if_neg (by simpa [accepted] using h)

theorem resetsConnection_eq (env : Env) (event : GattcEvent) (gattcIf : Option Nat) :
    Event.resetsConnection (.gattc env event gattcIf) = (accepted env gattcIf && resetsConnection env event) := by
  cases gattcIf <;> simp [Event.resetsConnection, accepted]

/-- Without an arrival and without a reset, a callback is beside the queue. -/
theorem queueLog_nil {event : GattcEvent} {gattcIf : Option Nat}
    (harriving : s.arriving (.gattc env event gattcIf) = none)
    (hreset : Event.resetsConnection (.gattc env event gattcIf) = false) :
    s.queueLog (.gattc env event gattcIf) = [] := by
  rw [queueLog, harriving]
  exact if_neg (by simp [hreset])

theorem queueLog_reset {event : GattcEvent} {gattcIf : Option Nat}
    (harriving : s.arriving (.gattc env event gattcIf) = none)
    (hreset : Event.resetsConnection (.gattc env event gattcIf) = true) :
    s.queueLog (.gattc env event gattcIf) = s.pendingReports.map .discarded := by
  rw [queueLog, harriving]
  exact if_pos hreset

theorem arriving_none {event : Event} (h : event.notifies = false) : s.arriving event = none := by
  unfold arriving
  rw [h]
  rfl

theorem handleNotification_acts (env : Env) (connId remoteBda handle : Nat) (value : Buffer) (isNotify : Bool)
    (gattcIf : Option Nat) (hqueued : Queued s)
    (hnotifies : Event.notifies (.gattc env (.notify connId remoteBda handle value isNotify) gattcIf) = true) :
    QueueActs env s 1 (s.queueLog (.gattc env (.notify connId remoteBda handle value isNotify) gattcIf))
      (s.handleNotification env handle value isNotify) := by
  have hreset : Event.resetsConnection (.gattc env (.notify connId remoteBda handle value isNotify) gattcIf)
    = false := by
    rw [resetsConnection_eq]
    exact Bool.and_false _
  have hdrawn : QueueAct env s 1 [] { s with nextSeqId := (s.nextSeqId + 1) % 2 ^ 64 } := .draw
  -- a notification that is no report only draws a number
  have haside {t : BLEClientHID} (hsame : SameQueue { s with nextSeqId := (s.nextSeqId + 1) % 2 ^ 64 } t)
      (harriving : s.arriving (.gattc env (.notify connId remoteBda handle value isNotify) gattcIf) = none) :
      QueueActs env s 1 (s.queueLog (.gattc env (.notify connId remoteBda handle value isNotify) gattcIf)) t := by
    rw [queueLog_nil harriving hreset]
    exact .cons hdrawn (.single (.aside hsame))
  have hother (h : handle ∈ s.serviceChangedHandles ∨ handle ∈ s.batteryHandles ∨ handle ∉ s.hidReportHandles) :
      s.arriving (.gattc env (.notify connId remoteBda handle value isNotify) gattcIf) = none := by
    simp only [arriving, hnotifies, Bool.not_true, Bool.false_eq_true, if_false, if_pos h]
  unfold handleNotification
  dsimp only [logRawNotification]
  split
  · rename_i hchanged
    exact haside ⟨rfl, rfl, rfl, rfl⟩ (hother (.inl hchanged))
  · rename_i hchanged
    split
    · rename_i hbattery
      split
      · rw [publishBattery_eq]
        exact haside ⟨rfl, rfl, rfl, rfl⟩ (hother (.inr (.inl hbattery)))
      · exact haside ⟨rfl, rfl, rfl, rfl⟩ (hother (.inr (.inl hbattery)))
    · rename_i hbattery
      split
      · rename_i hreport
        have hhid : ¬(handle ∈ s.serviceChangedHandles ∨ handle ∈ s.batteryHandles ∨ handle ∉
          s.hidReportHandles) := by
          simp only [not_or, not_not]
          exact ⟨hchanged, hbattery, hreport⟩
        have harriving : s.arriving (.gattc env (.notify connId remoteBda handle value isNotify) gattcIf) =
            (admittedPayload value).map fun payload => {
              source := { s.sourceOf handle with
                characteristicHandle := handle, isNotification := isNotify, hasTransport := true }
              payload, seqId := s.nextSeqId } := by
          simp only [arriving, hnotifies, Bool.not_true, Bool.false_eq_true, if_false, if_neg hhid]
        -- an input report, if its payload is admitted
        cases hpayload : admittedPayload value with
        | none =>
          rw [enqueueInputReport_ignored env handle isNotify s.nextSeqId hpayload]
          exact haside ⟨rfl, rfl, rfl, rfl⟩ (by rw [harriving, hpayload]; rfl)
        | some payload =>
          rw [hpayload, Option.map_some] at harriving
          have hacts := enqueueInputReport_acts env handle isNotify s.nextSeqId hpayload (hdrawn.queued hqueued) rfl
          rw [queueLog, harriving]
          exact (QueueActs.single hdrawn).append hacts
      · rename_i hreport
        exact haside ⟨rfl, rfl, rfl, rfl⟩ (hother (.inr (.inr hreport)))

theorem reset_acts (hsame : SameQueue s.resetConnectionState t) :
    QueueActs env s 0 (s.pendingReports.map .discarded) t := by
  have hacts := (QueueActs.single (.reset : QueueAct env s _ _ _)).append (.single (.aside hsame))
  rwa [List.append_nil] at hacts

theorem handleGattcEvent_reset (env : Env) {event : GattcEvent}
    (hreset : BLEClientHID.resetsConnection env event = true) :
    SameQueue s.resetConnectionState (s.handleGattcEvent env event) := by
  cases event with
  | connect remoteBda | disconnect remoteBda =>
    rw [handleGattcEvent, if_pos (by simpa [resetsConnection] using hreset)]
    exact ⟨rfl, rfl, rfl, rfl⟩
  | _ => simp [resetsConnection] at hreset

theorem handleGattcEvent_same {env : Env} {event : GattcEvent} {gattcIf : Option Nat}
    (haccepted : accepted env gattcIf = true) (hreset : BLEClientHID.resetsConnection env event = false)
    (hnotifies : Event.notifies (.gattc env event gattcIf) = false) :
    SameQueue s (s.handleGattcEvent env event) := by
  have hself : SameQueue s s := ⟨rfl, rfl, rfl, rfl⟩
  cases event with
  | connect remoteBda | disconnect remoteBda =>
    rw [handleGattcEvent, if_neg (by simpa [resetsConnection] using hreset)]
    exact hself
  | searchCmpl connId status =>
    rw [handleGattcEvent]
    split
    · exact apart_same (handleSearchComplete_silent env status).apart s
    · exact hself
  | read connId handle status value =>
    rw [handleGattcEvent]
    split
    · exact apart_same (handleRead_apart env handle status value) s
    · exact hself
  | regForNotify handle status => exact apart_same (handleRegistrationResult_silent env handle status).apart s
  | writeDescr connId handle status =>
    rw [handleGattcEvent]
    split
    · exact apart_same (handleCccdResult_silent env handle status).apart s
    · exact hself
  | notify connId remoteBda handle value isNotify =>
    unfold accepted at haccepted
    rw [Event.notifies, haccepted, Bool.true_and] at hnotifies
    rw [handleGattcEvent, if_neg (by simpa using hnotifies)]
    exact hself
  | srvcChg | congest | queueFull =>
    rw [handleGattcEvent]
    split
    · exact ⟨rfl, rfl, rfl, rfl⟩
    · exact hself
  | other => exact hself

theorem handleGattcEvent_notifies {env : Env} {event : GattcEvent} {gattcIf : Option Nat}
    (hnotifies : Event.notifies (.gattc env event gattcIf) = true) (hqueued : Queued s) :
    QueueActs env s 1 (s.queueLog (.gattc env event gattcIf)) (s.handleGattcEvent env event) := by
  cases event with
  | notify connId remoteBda handle value isNotify =>
    have hconnection : connId = env.connId ∧ remoteBda = env.remoteBda := by
      rw [Event.notifies, Bool.and_eq_true] at hnotifies
      simpa using hnotifies.2
    rw [handleGattcEvent, if_pos hconnection]
    exact handleNotification_acts env connId remoteBda handle value isNotify gattcIf hqueued hnotifies
  | _ => cases hnotifies

theorem step_acts (event : Event) (hqueued : Queued s) :
    QueueActs event.env s event.notifies.toNat (s.queueLog event) (step s event) := by
  cases event with
  | loop env => exact loop_acts env hqueued
  | gattc env event gattcIf =>
    have haside {t : BLEClientHID} (hsame : SameQueue s t)
        (hnotifies : Event.notifies (.gattc env event gattcIf) = false)
        (hreset : Event.resetsConnection (.gattc env event gattcIf) = false) :
        QueueActs env s (Event.notifies (.gattc env event gattcIf)).toNat
          (s.queueLog (.gattc env event gattcIf)) t := by
      rw [queueLog_nil (arriving_none hnotifies) hreset, hnotifies]
      exact .single (.aside hsame)
    have hreset := resetsConnection_eq env event gattcIf
    cases haccepted : accepted env gattcIf with
    | false =>
      rw [step_refused haccepted]
      rw [haccepted, Bool.false_and] at hreset
      refine haside ⟨rfl, rfl, rfl, rfl⟩ ?_ hreset
      cases event <;> simp_all [Event.notifies, accepted]
    | true =>
      rw [step_accepted haccepted]
      rw [haccepted, Bool.true_and] at hreset
      cases hnotifies : Event.notifies (.gattc env event gattcIf) with
      | true => exact handleGattcEvent_notifies hnotifies hqueued
      | false =>
        cases hresets : BLEClientHID.resetsConnection env event with
        | true =>
          rw [queueLog_reset (arriving_none hnotifies) (hreset.trans hresets)]
          exact reset_acts (handleGattcEvent_reset env hresets)
        | false =>
          rw [← hnotifies]
          exact haside (handleGattcEvent_same haccepted hresets hnotifies) hnotifies (hreset.trans hresets)

end

end BleClientHid
