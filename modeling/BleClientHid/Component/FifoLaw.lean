import BleClientHid.Component.Fifo
import BleClientHid.Component.Runs

/-! # No report is lost

Over any run, within and across connections, what was admitted is what has been
processed, evicted or discarded, and what is queued.
-/

namespace BleClientHid

open Lib BLEClientHID

/-! ## The log of a run -/

def runLog (s : BLEClientHID) : List Event → ReportLog
  | [] => []
  | event :: events => s.queueLog event ++ runLog (step s event) events

theorem runLog_append (s : BLEClientHID) (events events' : List Event) :
    runLog s (events ++ events') = runLog s events ++ runLog (run s events) events' := by
  induction events generalizing s with
  | nil => rfl
  | cons event events ih =>
    rw [List.cons_append, runLog, runLog, ih, List.append_assoc]
    rfl

/-- The `seq_id`s in the order they are drawn. -/
def drawnIds (n : Nat) : List Nat := (List.range n).map fun i => (i + 1) % 2 ^ 64

theorem drawnIds_succ (n : Nat) : drawnIds (n + 1) = drawnIds n ++ [(n + 1) % 2 ^ 64] := by
  simp [drawnIds, List.range_succ]

theorem drawnIds_increasing {n : Nat} (h : n < 2 ^ 64) : (drawnIds n).Pairwise (· < ·) := by
  unfold drawnIds
  rw [List.pairwise_map]
  refine List.pairwise_lt_range.imp_of_mem fun {i j} hi hj hlt => ?_
  rw [List.mem_range] at hi hj
  omega

/-! ## What one step logs -/

section

variable {s : BLEClientHID} {event : Event} {report : PendingHIDReport}

theorem notifies_of_arriving (h : s.arriving event = some report) : event.notifies = true := by
  by_contra hnot
  rw [Bool.not_eq_true] at hnot
  rw [arriving_none hnot] at h
  simp at h

theorem arriving_seqId (h : s.arriving event = some report) : report.seqId = s.nextSeqId := by
  unfold arriving at h
  split at h
  · simp at h
  · split at h
    · split at h
      · simp at h
      · obtain ⟨payload, -, rfl⟩ := Option.map_eq_some_iff.mp h
        rfl
    · simp at h

theorem arriving_le (h : s.arriving event = some report) : payloadSize report ≤ maxPendingReportBytes := by
  unfold arriving at h
  split at h
  · simp at h
  · split at h
    · split at h
      · simp at h
      · obtain ⟨payload, hpayload, rfl⟩ := Option.map_eq_some_iff.mp h
        exact (admittedPayload_le hpayload).trans (by decide)
    · simp at h

theorem queueLog_arriving (h : s.arriving event = some report) :
    s.queueLog event = (s.pendingReports.take (s.evicted report)).map .evicted ++ [.admitted report] := by
  unfold queueLog
  rw [h]

theorem arrivals_queueLog (s : BLEClientHID) (event : Event) : arrivals (s.queueLog event) =
    (s.arriving event).toList := by
  cases harriving : s.arriving event with
  | some report =>
    rw [queueLog_arriving harriving, arrivals_append, arrivals_map fun _ => rfl]
    rfl
  | none =>
    unfold queueLog
    rw [harriving]
    cases event with
    | loop env => exact arrivals_map (fun _ => rfl) _
    | gattc =>
      dsimp only
      split
      · exact arrivals_map (fun _ => rfl) _
      · rfl

theorem processedCount_le (env : Env) (fuel n : Nat) (reports : List PendingHIDReport) :
    processedCount env fuel n reports ≤ fuel := by
  induction fuel generalizing n reports with
  | zero => exact le_refl _
  | succ fuel ih =>
    cases reports with
    | nil => exact Nat.zero_le _
    | cons report rest =>
      unfold processedCount
      split
      · exact Nat.succ_le_succ (ih _ _)
      · exact Nat.zero_le _

/-- The queue after an arrival: the oldest are gone, the new report is the last. -/
theorem queue_arriving (hqueued : Queued s) (hcounter : s.reportsDropped < 2 ^ 32)
    (h : s.arriving event = some report) :
    (step s event).pendingReports = s.pendingReports.drop (s.evicted report) ++ [report] ∧
      (step s event).reportsDropped = (s.reportsDropped + s.evicted report) % 2 ^ 32 := by
  have hacts := step_acts event hqueued
  obtain ⟨-, hexplains⟩ := hacts.kept hqueued
  have hdropped := hacts.counts hcounter
  have hle : s.evicted report ≤ s.pendingReports.length := evictions_le _
  rw [queueLog_arriving h] at hexplains hdropped
  constructor
  · unfold Explains at hexplains
    rw [arrivals_append, departures_append, arrivals_map fun _ => rfl, departures_map fun _ => rfl] at hexplains
    rw [← List.append_right_inj (s.pendingReports.take (s.evicted report))]
    rw [← List.append_assoc, List.take_append_drop]
    exact (hexplains.trans (congrArg (· ++ _) (List.append_nil _))).symm
  · rw [hdropped, dropped_append, dropped_map fun _ => rfl, List.length_append, List.length_take,
      Nat.min_eq_left hle]
    rfl

end

/-! ## Runs -/

/-- What every run keeps; `n` notifications have come. -/
structure Accounted (n : Nat) (log : ReportLog) (s : BLEClientHID) : Prop where
  queued : Queued s
  explains : Explains log [] s.pendingReports
  dropped : s.reportsDropped = (dropped log).length % 2 ^ 32
  nextSeqId : s.nextSeqId = (n + 1) % 2 ^ 64
  drawn : ((arrivals log).map (·.seqId)).Sublist (drawnIds n)

theorem Accounted.counter {n : Nat} {log : ReportLog} {s : BLEClientHID} (h : Accounted n log s) :
    s.reportsDropped < 2 ^ 32 := by
  rw [h.dropped]
  exact Nat.mod_lt _ (by decide)

theorem Accounted.step {n : Nat} {log : ReportLog} {s : BLEClientHID} (h : Accounted n log s) (event : Event) :
    Accounted (n + event.notifies.toNat) (log ++ s.queueLog event) (step s event) := by
  have hacts := step_acts event h.queued
  obtain ⟨hqueued, hexplains⟩ := hacts.kept h.queued
  refine ⟨hqueued, h.explains.append hexplains, ?_, ?_, ?_⟩
  · rw [hacts.counts h.counter, h.dropped, dropped_append, List.length_append, Nat.mod_add_mod]
  · rw [hacts.draws (by rw [h.nextSeqId]; exact Nat.mod_lt _ (by decide)), h.nextSeqId, Nat.mod_add_mod,
      Nat.add_right_comm]
  · have hlog : arrivals (log ++ s.queueLog event) = arrivals log ++ (s.arriving event).toList := by
      rw [← arrivals_queueLog]
      exact arrivals_append
    rw [hlog, List.map_append]
    cases harriving : s.arriving event with
    | none =>
      cases event.notifies with
      | false => simpa using h.drawn
      | true =>
        rw [Bool.toNat_true, drawnIds_succ]
        exact h.drawn.append (List.nil_sublist _)
    | some report =>
      rw [notifies_of_arriving harriving, Bool.toNat_true, drawnIds_succ]
      apply h.drawn.append
      rw [Option.toList_some, List.map_singleton, arriving_seqId harriving, h.nextSeqId]

theorem accounted_run (discoveryMode : DiscoveryMode) (policy : ProtocolModePolicy) (interval : UInt32)
    (events : List Event) :
    let s := initial discoveryMode policy interval
    Accounted (events.countP Event.notifies) (runLog s events) (run s events) := by
  intro s
  induction events using List.reverseRecOn with
  | nil => exact ⟨⟨rfl, Nat.zero_le _, Nat.zero_le _⟩, .refl _, rfl, rfl, .slnil⟩
  | append_singleton events event ih =>
    have hcount : (events ++ [event]).countP Event.notifies =
      events.countP Event.notifies + event.notifies.toNat := by
      rw [List.countP_append, List.countP_singleton]
      cases event.notifies <;> rfl
    rw [hcount, run_append_singleton, runLog_append]
    have hstep := ih.step event
    simpa [runLog] using hstep

/-! ## The law -/

/-- After `n` notifications. Every admitted report is in `log` once as an arrival, and then once as a departure
or in the queue, in the same order. `steps` has what is checked at each access: the oldest report goes, its
bytes are counted, and it goes for want of room or into `process_input_report_`. -/
structure Conserved (n : Nat) (log : ReportLog) (s : BLEClientHID) : Prop where
  queued : Queued s
  conserved : arrivals log = departures log ++ s.pendingReports
  dropped : s.reportsDropped = (dropped log).length % 2 ^ 32
  arrived : ((arrivals log).map (·.seqId)).Sublist (drawnIds n)
  inOrder : (done log).Sublist (arrivals log)
  increasing : n < 2 ^ 64 → ((done log).map (·.seqId)).Pairwise (· < ·)
  steps : ∀ event, QueueActs event.env s event.notifies.toNat (s.queueLog event) (step s event)
  loops : ∀ env, (done (s.queueLog (.loop env))).length ≤ maxReportsPerLoop
  enqueued : ∀ event report, s.arriving event = some report →
    (step s event).pendingReports = s.pendingReports.drop (s.evicted report) ++ [report] ∧
      (step s event).reportsDropped = (s.reportsDropped + s.evicted report) % 2 ^ 32 ∧
      IsLeast {k | Fits pendingLimits payloadSize (payloadSize report) (s.pendingReports.drop k)} (s.evicted report)

theorem Accounted.conserved {n : Nat} {log : ReportLog} {s : BLEClientHID} (h : Accounted n log s) :
    Conserved n log s where
  queued := h.queued
  conserved := h.explains
  dropped := h.dropped
  arrived := h.drawn
  inOrder := h.explains.done_sublist
  increasing := by
    intro hn
    exact (drawnIds_increasing hn).sublist ((h.explains.done_sublist.map _).trans h.drawn)
  steps := fun event => step_acts event h.queued
  loops := by
    intro env
    have hlog : s.queueLog (.loop env) =
        (s.pendingReports.take (processedCount env maxReportsPerLoop 0 s.pendingReports)).map .processed := rfl
    rw [hlog]
    refine (List.length_filterMap_le ..).trans ?_
    rw [List.length_map]
    exact (List.length_take_le ..).trans (processedCount_le ..)
  enqueued := by
    intro event report harriving
    obtain ⟨hqueue, hdropped⟩ := queue_arriving h.queued h.counter harriving
    exact ⟨hqueue, hdropped, evictions_isLeast (by decide) (arriving_le harriving) _⟩

/-- Every interleaving of notifications, `loop()` calls and connections. -/
theorem reports_conserved (discoveryMode : DiscoveryMode) (policy : ProtocolModePolicy) (interval : UInt32)
    (events : List Event) :
    let s := initial discoveryMode policy interval
    Conserved (events.countP Event.notifies) (runLog s events) (run s events) :=
  (accounted_run discoveryMode policy interval events).conserved

/-! ## The counters wrap -/

/-- A notification of a handle that nobody claimed. -/
def strayNotification : Event := .gattc (exampleEnv keyboardServices) (.notify 0 0 99 (.bytes []) true) none

def keyNotification : Event := .gattc (exampleEnv keyboardServices) (.notify 0 0 5 (.bytes [4, 0]) true) none

structure Unclaimed (s : BLEClientHID) : Prop where
  changed : 99 ∉ s.serviceChangedHandles
  battery : 99 ∉ s.batteryHandles
  report : 99 ∉ s.hidReportHandles

theorem step_stray {s : BLEClientHID} (h : Unclaimed s) :
    step s strayNotification = { s with nextSeqId := (s.nextSeqId + 1) % 2 ^ 64 } ∧
      s.queueLog strayNotification = [] := by
  obtain ⟨hchanged, hbattery, hreport⟩ := h
  constructor
  · change s.handleNotification (exampleEnv keyboardServices) 99 (.bytes []) true = _
    unfold handleNotification
    dsimp only [logRawNotification]
    rw [if_neg hchanged, if_neg hbattery, if_neg hreport]
  · have harriving : s.arriving strayNotification = none := by
      change (if 99 ∈ s.serviceChangedHandles ∨ 99 ∈ s.batteryHandles ∨ 99 ∉ s.hidReportHandles then none
        else _) = none
      exact if_pos (.inr (.inr hreport))
    exact queueLog_nil harriving rfl

theorem run_strays {s : BLEClientHID} (h : Unclaimed s) (hlt : s.nextSeqId < 2 ^ 64) (k : Nat) :
    run s (List.replicate k strayNotification) = { s with nextSeqId := (s.nextSeqId + k) % 2 ^ 64 } ∧
      runLog s (List.replicate k strayNotification) = [] := by
  induction k generalizing s with
  | zero =>
    rw [Nat.add_zero, Nat.mod_eq_of_lt hlt]
    exact ⟨rfl, rfl⟩
  | succ k ih =>
    obtain ⟨hstep, hlog⟩ := step_stray h
    have hnext : Unclaimed (step s strayNotification) := by
      rw [hstep]
      exact ⟨h.changed, h.battery, h.report⟩
    have hlt' : (step s strayNotification).nextSeqId < 2 ^ 64 := by
      rw [hstep]
      exact Nat.mod_lt _ (by decide)
    obtain ⟨hrun, hlogs⟩ := ih hnext hlt'
    rw [List.replicate_succ, runLog, hlog, hlogs]
    refine ⟨hrun.trans ?_, rfl⟩
    rw [hstep]
    dsimp only
    rw [Nat.mod_add_mod, Nat.add_assoc, Nat.add_comm 1 k]

/-- After `2 ^ 64 - 2` other notifications, two reports of a keyboard. -/
def wrappingRun : List Event :=
  keyboardSetup ++ (List.replicate (2 ^ 64 - 2) strayNotification ++
    [keyNotification, keyNotification, .loop (exampleEnv keyboardServices)])

theorem seqIds_wrap :
    ¬((done (runLog (initial .standard .unchanged 0) wrappingRun)).map (·.seqId)).Pairwise (· < ·) := by
  have hready : Unclaimed (run (initial .standard .unchanged 0) keyboardSetup) :=
    ⟨by decide +kernel, by decide +kernel, by decide +kernel⟩
  have hfirst : (run (initial .standard .unchanged 0) keyboardSetup).nextSeqId = 1 := by decide +kernel
  obtain ⟨hrun, hlog⟩ := run_strays hready (by rw [hfirst]; decide) (2 ^ 64 - 2)
  rw [wrappingRun, runLog_append, runLog_append, hrun, hlog, hfirst]
  decide +kernel

/-- The keys are an input report. -/
structure KeysClaimed (s : BLEClientHID) : Prop where
  changed : 5 ∉ s.serviceChangedHandles
  battery : 5 ∉ s.batteryHandles
  report : 5 ∈ s.hidReportHandles

theorem KeysClaimed.step {s : BLEClientHID} (h : KeysClaimed s) : KeysClaimed (step s keyNotification) := by
  have hstep : BleClientHid.step s keyNotification =
      enqueueInputReport (exampleEnv keyboardServices) 5 (.bytes [4, 0]) true s.nextSeqId
        { s with nextSeqId := (s.nextSeqId + 1) % 2 ^ 64 } := by
    change s.handleNotification (exampleEnv keyboardServices) 5 (.bytes [4, 0]) true = _
    unfold handleNotification
    dsimp only [logRawNotification]
    rw [if_neg h.changed, if_neg h.battery, if_pos h.report]
  rw [hstep, enqueueInputReport_admitted _ _ _ _ rfl]
  obtain ⟨r, hroom⟩ := evictReports_reshape (exampleEnv keyboardServices) 2 s.pendingReports.length 0
    { s with nextSeqId := (s.nextSeqId + 1) % 2 ^ 64 }
  dsimp only [List.length_cons, List.length_nil]
  rw [hroom]
  exact ⟨h.changed, h.battery, h.report⟩

theorem arriving_key {s : BLEClientHID} (h : KeysClaimed s) : (s.arriving keyNotification).isSome := by
  have hnotifies : keyNotification.notifies = true := by decide
  unfold arriving
  rw [hnotifies, if_neg (by decide)]
  dsimp only [keyNotification]
  rw [if_neg (by simp [h.changed, h.battery, h.report])]
  rfl

theorem runLog_keys {s : BLEClientHID} (h : KeysClaimed s) (k : Nat) :
    (arrivals (runLog s (List.replicate k keyNotification))).length = k ∧
      departures (runLog s (List.replicate k keyNotification)) =
        dropped (runLog s (List.replicate k keyNotification)) := by
  induction k generalizing s with
  | zero => exact ⟨rfl, rfl⟩
  | succ k ih =>
    obtain ⟨hcame, hleft⟩ := ih h.step
    obtain ⟨report, harriving⟩ := Option.isSome_iff_exists.mp (arriving_key h)
    rw [List.replicate_succ, runLog, queueLog_arriving harriving]
    constructor
    · rw [arrivals_append, arrivals_append, arrivals_map fun _ => rfl, List.length_append, hcame]
      exact Nat.add_comm 1 k
    · rw [departures_append, dropped_append, hleft, departures_append, dropped_append,
        departures_map fun _ => rfl, dropped_map fun _ => rfl]
      rfl

/-- The 64 reports that are left, after `2 ^ 32` others. -/
def overflowingRun : List Event := keyboardSetup ++ List.replicate (2 ^ 32 + 64) keyNotification

theorem reportsDropped_wraps : (run (initial .standard .unchanged 0) overflowingRun).reportsDropped <
    (dropped (runLog (initial .standard .unchanged 0) overflowingRun)).length := by
  have haccounted := accounted_run .standard .unchanged 0 overflowingRun
  have hqueue := haccounted.explains.length_eq
  have hlength := haccounted.queued.length
  have hcounter := haccounted.counter
  have hready : KeysClaimed (run (initial .standard .unchanged 0) keyboardSetup) :=
    ⟨by decide +kernel, by decide +kernel, by decide +kernel⟩
  have hsetup : runLog (initial .standard .unchanged 0) keyboardSetup = [] := by decide +kernel
  obtain ⟨hcame, hleft⟩ := runLog_keys hready (2 ^ 32 + 64)
  have hlog : runLog (initial .standard .unchanged 0) overflowingRun =
      runLog (run (initial .standard .unchanged 0) keyboardSetup) (List.replicate (2 ^ 32 + 64) keyNotification) := by
    rw [overflowingRun, runLog_append, hsetup, List.nil_append]
  rw [hlog, hcame, hleft, List.length_nil, Nat.zero_add] at hqueue
  rw [hlog]
  unfold maxPendingReports at hlength
  omega

/-- The `seq_id`s do not rise, and the count of the dropped reports is too small. -/
theorem counters_wrap :
    ¬((done (runLog (initial .standard .unchanged 0) wrappingRun)).map (·.seqId)).Pairwise (· < ·) ∧
      (run (initial .standard .unchanged 0) overflowingRun).reportsDropped ≠
        (dropped (runLog (initial .standard .unchanged 0) overflowingRun)).length :=
  ⟨seqIds_wrap, Nat.ne_of_lt reportsDropped_wraps⟩

end BleClientHid
