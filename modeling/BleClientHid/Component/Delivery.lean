import BleClientHid.Component.Sensors

/-! # Reports are delivered

A report waits for eight `loop()` calls at most, and what it brings for one more.
-/

namespace BleClientHid

open Lib BLEClientHID

/-! ## Prompt loops -/

/-- Time for as many reports as one `loop()` may process. -/
def Prompt (env : Env) : Prop :=
  ∀ n < maxReportsPerLoop, env.processingUs n - env.processingStartedUs < maxProcessingTimeUs

instance (env : Env) : Decidable (Prompt env) := Nat.decidableBallLT ..

def Event.prompt : Event → Bool
  | .loop env => decide (Prompt env)
  | .gattc .. => false

theorem processedCount_prompt {env : Env} {fuel n : Nat}
    (h : ∀ m < n + fuel, env.processingUs m - env.processingStartedUs < maxProcessingTimeUs)
    (queue : List PendingHIDReport) : processedCount env fuel n queue = min fuel queue.length := by
  induction fuel generalizing n queue with
  | zero => simp [processedCount]
  | succ fuel ih =>
    cases queue with
    | nil => simp [processedCount]
    | cons report rest =>
      unfold processedCount
      rw [if_pos (h n (by omega)), ih (fun m hm => h m (by omega)), List.length_cons]
      omega

theorem departures_prompt {s : BLEClientHID} {event : Event} (h : event.prompt = true) :
    (departures (s.queueLog event)).length = min maxReportsPerLoop s.pendingReports.length := by
  cases event with
  | gattc env event gattcIf => cases h
  | loop env =>
    have hprompt : Prompt env := of_decide_eq_true h
    have hlog : s.queueLog (.loop env) =
        (s.pendingReports.take (processedCount env maxReportsPerLoop 0 s.pendingReports)).map .processed := rfl
    rw [hlog, departures_map fun _ => rfl, List.length_take, processedCount_prompt fun m hm => hprompt m (by omega)]
    omega

/-! ## The queue -/

theorem runLog_explains {s : BLEClientHID} (h : Queued s) (events : List Event) :
    Explains (runLog s events) s.pendingReports (run s events).pendingReports := by
  induction events generalizing s with
  | nil => exact .refl _
  | cons event events ih =>
    obtain ⟨hqueued, hexplains⟩ := (step_acts event h).kept h
    exact hexplains.append (ih hqueued)

/-- Each prompt `loop()` takes eight reports, or all there are; arrivals and evictions only help. -/
theorem departures_runLog {s : BLEClientHID} (h : Queued s) (events : List Event) :
    min (maxReportsPerLoop * events.countP Event.prompt) s.pendingReports.length ≤
      (departures (runLog s events)).length := by
  induction events generalizing s with
  | nil => simp
  | cons event events ih =>
    obtain ⟨hqueued, hexplains⟩ := (step_acts event h).kept h
    have hlater := ih hqueued
    have hlength := hexplains.length_eq
    rw [runLog, departures_append, List.length_append, List.countP_cons]
    unfold maxReportsPerLoop at *
    cases hprompt : event.prompt with
    | false =>
      rw [if_neg (by decide)]
      omega
    | true =>
      have hnow : (departures (s.queueLog event)).length = min 8 s.pendingReports.length := departures_prompt hprompt
      rw [if_pos rfl]
      omega

/-- Eight prompt loops empty the queue of all that was in it. -/
theorem waiting_depart {s : BLEClientHID} (h : Queued s) {events : List Event}
    (hprompt : 8 ≤ events.countP Event.prompt) : s.pendingReports <+: departures (runLog s events) := by
  apply (runLog_explains h events).prefix_departures
  have hleft := departures_runLog h events
  have hlength := h.length
  unfold maxReportsPerLoop at hleft
  unfold maxPendingReports at hlength
  omega

theorem queueLog_undiscarded {s : BLEClientHID} {event : Event} (h : event.resetsConnection = false) :
    ∀ report, .discarded report ∉ s.queueLog event := by
  intro report hmem
  unfold BLEClientHID.queueLog at hmem
  split at hmem
  · rcases List.mem_append.mp hmem with hmem | hmem
    · obtain ⟨evicted, -, hevicted⟩ := List.mem_map.mp hmem
      cases hevicted
    · cases List.mem_singleton.mp hmem
  · cases event with
    | loop env =>
      obtain ⟨processed, -, hprocessed⟩ := List.mem_map.mp hmem
      cases hprocessed
    | gattc env event gattcIf =>
      dsimp only at hmem
      rw [if_neg (by rw [h]; decide)] at hmem
      cases hmem

theorem runLog_undiscarded {s : BLEClientHID} {events : List Event}
    (h : ∀ event ∈ events, event.resetsConnection = false) : ∀ report, .discarded report ∉ runLog s events := by
  intro report
  induction events generalizing s with
  | nil => simp [runLog]
  | cons event events ih =>
    obtain ⟨hevent, hevents⟩ := List.forall_mem_cons.mp h
    rw [runLog, List.mem_append, not_or]
    exact ⟨queueLog_undiscarded hevent report, ih hevents⟩

/-- The connection goes on: its log grows by that of the run. -/
theorem connectionLog_append (s : BLEClientHID) (before : List Event) {after : List Event}
    (h : ∀ event ∈ after, event.resetsConnection = false) :
    connectionLog s (before ++ after) = connectionLog s before ++ runLog (run s before) after := by
  induction after using List.reverseRecOn with
  | nil => simp [runLog]
  | append_singleton after event ih =>
    have hevent := h event (by simp)
    have hstays : ∀ e ∈ after, e.resetsConnection = false := fun e he => h e (List.mem_append_left _ he)
    rw [← List.append_assoc, connectionLog, history_concat, hevent, if_neg (by decide)]
    have hlog := ih hstays
    unfold connectionLog at hlog
    rw [hlog, runLog_append, List.append_assoc]
    congr 2
    rw [runLog, runLog, List.append_nil]
    unfold run
    rw [List.foldl_append]

/-! ## The window -/

theorem Pipeline.accept_events (p : Pipeline) (intake : Intake) : p.events <+: (p.accept intake).events :=
  List.prefix_append ..

theorem Pipeline.acceptAll_events (p : Pipeline) (intakes : List Intake) :
    p.events <+: (p.acceptAll intakes).events := by
  induction intakes generalizing p with
  | nil => exact List.prefix_refl _
  | cons intake intakes ih => exact (p.accept_events intake).trans (ih _)

/-- A look at the clock after the interval is over publishes what is pending. -/
theorem updateSamplingWindow_due {interval now : UInt32} {w : SamplingWindow} (hinterval : interval ≠ 0)
    (hinv : WindowInv w)
    (hdue : w.samplingWindowActive = true → elapsed now w.samplingWindowStartedUs interval = true) :
    (updateSamplingWindow interval now w).2 = w.sampledEvents.drain.2 := by
  unfold updateSamplingWindow
  cases hactive : w.samplingWindowActive with
  | false =>
    rw [if_pos (.inl rfl), OrderedEventBuffer.drain, hinv.idle hactive]
    rfl
  | true =>
    rw [if_neg (by simp [hinterval]), hdue hactive]
    cases hempty : w.sampledEvents.empty with
    | true =>
      rw [OrderedEventBuffer.empty, List.isEmpty_iff] at hempty
      simp [OrderedEventBuffer.drain, hempty]
    | false => simp [flushSampledEvents, hempty]

/-- The first look at the clock of a due `loop()` publishes whatever is pending, before anything else. -/
theorem loop_due {env : Env} {s : BLEClientHID} (hinterval : (s.loop env).eventSamplingIntervalUs ≠ 0)
    (hinv : WindowInv s.window) (hdue : s.window.samplingWindowActive = true →
      elapsed env.windowUs s.window.samplingWindowStartedUs (s.loop env).eventSamplingIntervalUs = true) :
    s.hidEvents ++ s.window.sampledEvents.drain.2 <+: (s.loop env).hidEvents := by
  obtain ⟨hwindow, hevents, -⟩ := loopSetup_stages env s
  have hpipeline := loop_pipeline env s
  have hsame : (s.loop env).eventSamplingIntervalUs = (s.loopSetup env).eventSamplingIntervalUs := by
    have hprofile := congrArg (·.profile.renewed) hpipeline
    have hrenewed := congrArg Profile.interval (hprofile.trans (Pipeline.acceptAll_renewed _ _))
    exact hrenewed
  rw [hsame] at hinterval hdue
  have hfirst : ((s.loopSetup env).pipeline.accept (.window env.windowUs)).events =
      s.hidEvents ++ s.window.sampledEvents.drain.2 := by
    rw [← updateSamplingWindow_due hinterval hinv hdue, ← hevents, ← hwindow]
    rfl
  have hall : (s.loop env).hidEvents = (s.loop env).pipeline.events := rfl
  rw [hall, hpipeline, ← hfirst]
  exact Pipeline.acceptAll_events _ _

/-! ## Delivery -/

/-- What waited in `s` has left the queue of `u`, in its order, and what the processed reports brought until `u` is
published in `t`. -/
structure Delivered (s u t : BLEClientHID) (log : ReportLog) (intakes : List Intake) : Prop where
  left : s.pendingReports <+: departures log
  kept : ∀ report, .discarded report ∉ log
  taken : done log <:+ intakes.filterMap Intake.report?
  published : ∃ emissions published, published <+: t.hidEvents ∧
    List.Forall₂ (Carries (modeOf u.hidServices)) emissions published ∧
    Coalesces (u.profile.renewed.arrivals intakes) emissions

end BleClientHid
