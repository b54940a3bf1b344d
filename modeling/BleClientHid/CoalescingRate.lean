import BleClientHid.CoalescingLaw
import BleClientHid.Lib.Spacing

/-! # The coalescing rate

What a run emits, marked with its key, its time and what released it, and the
distance that two emissions of one key keep.
-/

namespace BleClientHid

open Lib OrderedEventBuffer

/-! ## Releases -/

inductive Cause where
  | immediate
  | timer
  | pressure
  /-- Pending when a barrier came. -/
  | barrier
  deriving DecidableEq

/-- An emitted event. A barrier itself has no key. -/
structure Release where
  key : Option SampledEventKey
  cause : Cause
  time : Nat
  event : HIDEvent

/-- The reading of `micros()`. -/
def micros (time : Nat) : UInt32 := UInt32.ofNat time

def ReportClock.at (time : Nat) : ReportClock := { update := micros time, reading := fun _ => micros time }

section

variable (interval : UInt32) (d : DecodedReport) (time : Nat)

def pendingReleases (cause : Cause) (w : SamplingWindow) : List Release :=
  w.sampledEvents.pending.map fun p => { key := some p.key, cause, time, event := p.event }

def updateReleases (w : SamplingWindow) : List Release :=
  if w.samplingWindowActive = false ∨ interval = 0 then []
  else if !elapsed (micros time) w.samplingWindowStartedUs interval then []
  else pendingReleases time .timer w

def barrierReleases (barrier : HIDEvent) (w : SamplingWindow) : List Release :=
  pendingReleases time .barrier w ++ [{ key := none, cause := .barrier, time, event := barrier }]

def accumulateReleases (value : HIDReportItemValue) (w : SamplingWindow) : List Release :=
  match w.sampledEvents.accumulate (d.sampledKey value) value.aggregation value.value value.rawValue
      (d.event (some value)) with
  | some _ => []
  | none => pendingReleases time .pressure w

def accumulateRunReleases : List HIDReportItemValue → SamplingWindow → List Release
  | [], _ => []
  | value :: rest, w =>
    accumulateReleases d time value w ++ accumulateRunReleases rest (accumulateEvent d (micros time) value w).1

def immediateRelease (value : HIDReportItemValue) : Release :=
  { key := some (d.sampledKey value), cause := .immediate, time, event := d.event (some value) }

def runReleases (run : List HIDReportItemValue) (w : SamplingWindow) : List Release :=
  if w.samplingWindowActive = false then run.map (immediateRelease d time)
  else accumulateRunReleases d time run w

/-- `process_decoded_values_` with an interval above 0. -/
def valuesReleases : Nat → List HIDReportItemValue → SamplingWindow → List Release
  | 0, _, _ => []
  | _ + 1, [], _ => []
  | fuel + 1, value :: rest, w =>
    if !mergeable value then
      barrierReleases time (d.event (some value)) w ++
        valuesReleases fuel rest (emitBarrier (d.event (some value)) w).1
    else
      let run := value :: rest.takeWhile mergeable
      runReleases d time run w ++
        valuesReleases fuel (rest.dropWhile mergeable) (processRun d (.at time) 0 run w).1

def reportReleases (w : SamplingWindow) : List Release :=
  let values := updateReleases interval time w ++
    valuesReleases d time d.values.length d.values (updateSamplingWindow interval (micros time) w).1
  if d.values.isEmpty && !d.recognized then
    values ++ barrierReleases time (d.event none) (processDecodedValues interval d (.at time) w).1
  else values

end

/-! ## Runs in time -/

/-- A processed report, or a window update. -/
structure TimedStep where
  time : Nat
  report : Option DecodedReport

namespace TimedStep

/-- One reading of the clock serves the whole step. -/
def step (t : TimedStep) : SamplingStep :=
  match t.report with
  | some d => .report (.at t.time) d
  | none => .window (micros t.time)

def releases (interval : UInt32) (t : TimedStep) (w : SamplingWindow) : List Release :=
  match t.report with
  | some d => reportReleases interval d t.time w
  | none => updateReleases interval t.time w

end TimedStep

def releases (interval : UInt32) (w : SamplingWindow) : List TimedStep → List Release
  | [] => []
  | t :: rest => t.releases interval w ++ releases interval (samplingStep interval w t.step).1 rest

/-! ## The releases are the emitted events -/

theorem pendingReleases_events (time : Nat) (cause : Cause) (w : SamplingWindow) :
    (pendingReleases time cause w).map (·.event) = (flushSampledEvents w).2 := by
  unfold pendingReleases flushSampledEvents
  rw [List.map_map]
  split
  · rename_i hempty
    rw [OrderedEventBuffer.empty, List.isEmpty_iff] at hempty
    rw [hempty]
    rfl
  · rfl

theorem updateReleases_events (interval : UInt32) (time : Nat) (w : SamplingWindow) :
    (updateReleases interval time w).map (·.event) = (updateSamplingWindow interval (micros time) w).2 := by
  unfold updateReleases updateSamplingWindow
  split
  · rfl
  · split
    · rfl
    · split
      · rename_i hempty
        rw [pendingReleases_events, flushSampledEvents, if_pos hempty]
      · exact pendingReleases_events time .timer w

theorem barrierReleases_events (time : Nat) (barrier : HIDEvent) (w : SamplingWindow) :
    (barrierReleases time barrier w).map (·.event) = (emitBarrier barrier w).2 := by
  rw [barrierReleases, List.map_append, pendingReleases, List.map_map]
  rfl

theorem accumulateReleases_events (d : DecodedReport) (time : Nat) (value : HIDReportItemValue)
    (w : SamplingWindow) :
    (accumulateReleases d time value w).map (·.event) = (accumulateEvent d (micros time) value w).2 := by
  cases hacc : w.sampledEvents.accumulate (d.sampledKey value) value.aggregation value.value value.rawValue
    (d.event (some value)) with
  | some buffer => simp only [accumulateReleases, accumulateEvent, hacc, List.map_nil]
  | none => simp only [accumulateReleases, accumulateEvent, hacc, pendingReleases_events]

theorem accumulateRunReleases_events (d : DecodedReport) (time index : Nat) (run : List HIDReportItemValue)
    (w : SamplingWindow) :
    (accumulateRunReleases d time run w).map (·.event) = (accumulateRun d (.at time) index run w).2 := by
  induction run generalizing index w with
  | nil => rfl
  | cons value rest ih =>
    rw [accumulateRunReleases, List.map_append, accumulateReleases_events, ih (index + 1), accumulateRun]
    rfl

/-- Where in the report the run starts plays no part. -/
theorem processRun_index (d : DecodedReport) (time index : Nat) (run : List HIDReportItemValue)
    (w : SamplingWindow) : processRun d (.at time) index run w = processRun d (.at time) 0 run w := by
  have haccumulate : ∀ index w, accumulateRun d (.at time) index run w = accumulateRun d (.at time) 0 run w := by
    induction run with
    | nil => exact fun _ _ => rfl
    | cons value rest ih =>
      intro index w
      simp only [accumulateRun]
      rw [ih (index + 1), ih (0 + 1)]
      rfl
  unfold processRun
  rw [haccumulate index]
  rfl

theorem runReleases_events (d : DecodedReport) (time : Nat) (run : List HIDReportItemValue) (w : SamplingWindow) :
    (runReleases d time run w).map (·.event) = (processRun d (.at time) 0 run w).2 := by
  unfold runReleases processRun
  split
  · simp [immediateRelease, Function.comp_def]
  · exact accumulateRunReleases_events d time 0 run w

theorem valuesReleases_events {interval : UInt32} (hinterval : interval ≠ 0) (d : DecodedReport)
    (time fuel index : Nat) (values : List HIDReportItemValue) (w : SamplingWindow) :
    (valuesReleases d time fuel values w).map (·.event) =
      (processValues interval d (.at time) fuel index values w).2 := by
  induction fuel generalizing index values w with
  | zero => rfl
  | succ fuel ih =>
    cases values with
    | nil => rfl
    | cons value rest =>
      rw [valuesReleases, processValues, if_neg hinterval]
      split
      · rw [List.map_append, barrierReleases_events, ih (index + 1)]
      · dsimp only
        rw [List.map_append, runReleases_events, processRun_index d time index,
          ih (index + (value :: rest.takeWhile mergeable).length)]

theorem reportReleases_events {interval : UInt32} (hinterval : interval ≠ 0) (d : DecodedReport) (time : Nat)
    (w : SamplingWindow) :
    (reportReleases interval d time w).map (·.event) = (processDecodedReport interval d (.at time) w).2 := by
  have hvalues := valuesReleases_events hinterval d time d.values.length 0 d.values
    (updateSamplingWindow interval (micros time) w).1
  unfold reportReleases processDecodedReport
  dsimp only
  split
  · rw [List.map_append, List.map_append, updateReleases_events, hvalues, barrierReleases_events]
    rfl
  · rw [List.map_append, updateReleases_events, hvalues]
    rfl

theorem samplingRun_from (interval : UInt32) (steps : List SamplingStep) (w : SamplingWindow)
    (events : List HIDEvent) :
    steps.foldl (fun st step => ((samplingStep interval st.1 step).1, st.2 ++ (samplingStep interval st.1 step).2))
        (w, events) =
      ((samplingRun interval w steps).1, events ++ (samplingRun interval w steps).2) := by
  induction steps generalizing w events with
  | nil => simp [samplingRun]
  | cons step steps ih =>
    have hfirst : samplingRun interval w (step :: steps) =
        steps.foldl (fun st step =>
          ((samplingStep interval st.1 step).1, st.2 ++ (samplingStep interval st.1 step).2))
          ((samplingStep interval w step).1, [] ++ (samplingStep interval w step).2) := rfl
    rw [hfirst, List.foldl_cons, ih, ih, List.nil_append, List.append_assoc]

theorem samplingRun_cons (interval : UInt32) (w : SamplingWindow) (step : SamplingStep)
    (steps : List SamplingStep) :
    samplingRun interval w (step :: steps) =
      ((samplingRun interval (samplingStep interval w step).1 steps).1,
        (samplingStep interval w step).2 ++ (samplingRun interval (samplingStep interval w step).1 steps).2) :=
  samplingRun_from interval steps _ _

theorem releases_events {interval : UInt32} (hinterval : interval ≠ 0) (w : SamplingWindow)
    (steps : List TimedStep) :
    (releases interval w steps).map (·.event) = (samplingRun interval w (steps.map TimedStep.step)).2 := by
  induction steps generalizing w with
  | nil => rfl
  | cons t rest ih =>
    have hstep : (t.releases interval w).map (·.event) = (samplingStep interval w t.step).2 := by
      unfold TimedStep.releases TimedStep.step
      split
      · exact reportReleases_events hinterval _ t.time w
      · exact updateReleases_events interval t.time w
    rw [releases, List.map_append, hstep, ih, List.map_cons, samplingRun_cons]

/-! ## The invariant -/

/-- Released by a barrier, or by capacity pressure. -/
def Release.excused (r : Release) : Prop := r.cause = .barrier ∨ r.cause = .pressure

abbrev SpacedReleases (interval : UInt32) (history : List Release) : Prop :=
  Spaced Release.key Release.time Release.excused interval.toNat history

/-- Nothing has gone out since an open window started, and an idle window has outlived its interval. -/
structure Paced (interval : UInt32) (now : Nat) (w : SamplingWindow) (history : List Release) : Prop where
  spaced : SpacedReleases interval history
  keys : (w.sampledEvents.pending.map (·.key)).Nodup
  active : w.samplingWindowActive = true → ∃ start ≤ now, micros start = w.samplingWindowStartedUs ∧
    ∀ a ∈ recent Release.key history, a.time ≤ start
  idle : w.samplingWindowActive = false → w.sampledEvents.pending = [] ∧
    ∀ a ∈ recent Release.key history, a.time + interval.toNat ≤ now

theorem elapsed_spec {start now : Nat} {interval : UInt32} (hle : start ≤ now)
    (h : elapsed (micros now) (micros start) interval = true) : start + interval.toNat ≤ now := by
  simp only [elapsed, decide_eq_true_eq, UInt32.le_iff_toNat_le, UInt32.toNat_sub, micros, UInt32.toNat_ofNat'] at h
  omega

section

variable {interval : UInt32} {now : Nat} {w : SamplingWindow} {history : List Release}

theorem Paced.later (h : Paced interval now w history) {later : Nat} (hle : now ≤ later) :
    Paced interval later w history := by
  refine { h with active := fun hactive => ?_, idle := fun hidle => ?_ }
  · obtain ⟨start, hstart, hrest⟩ := h.active hactive
    exact ⟨start, Nat.le_trans hstart hle, hrest⟩
  · obtain ⟨hnil, hrecent⟩ := h.idle hidle
    exact ⟨hnil, fun a ha => Nat.le_trans (hrecent a ha) hle⟩

/-- What is pending has keys of its own, so only what went out before counts. -/
theorem Paced.flush (h : Paced interval now w history) {cause : Cause}
    (hgap : cause = .barrier ∨ cause = .pressure ∨
      ∀ a ∈ recent Release.key history, a.time + interval.toNat ≤ now) :
    SpacedReleases interval (history ++ pendingReleases now cause w) := by
  refine h.spaced.append ?_ ?_
  · rw [pendingReleases, List.map_map]
    have hsome := h.keys.map (Option.some_injective _)
    rwa [List.map_map] at hsome
  · intro b hb hexcused a ha _
    obtain ⟨p, -, rfl⟩ := List.mem_map.mp hb
    rcases hgap with hcause | hcause | hgap
    · exact absurd (.inl hcause) hexcused
    · exact absurd (.inr hcause) hexcused
    · exact hgap a ha

theorem recent_pendingReleases {cause : Cause} {a : Release}
    (ha : a ∈ recent Release.key (history ++ pendingReleases now cause w)) :
    a ∈ recent Release.key history ∨ a.time = now := by
  refine (mem_recent_append Release.key ha).imp_right fun hmem => ?_
  obtain ⟨p, -, rfl⟩ := List.mem_map.mp hmem
  rfl

theorem flushSampledEvents_pending (w : SamplingWindow) : (flushSampledEvents w).1.sampledEvents.pending = [] := by
  unfold flushSampledEvents
  split
  · rename_i hempty
    exact List.isEmpty_iff.mp hempty
  · rfl

theorem flushSampledEvents_active (w : SamplingWindow) :
    (flushSampledEvents w).1.samplingWindowActive = w.samplingWindowActive := by
  unfold flushSampledEvents
  split <;> rfl

theorem Paced.update (h : Paced interval now w history) :
    Paced interval now (updateSamplingWindow interval (micros now) w).1
      (history ++ updateReleases interval now w) := by
  have hsame : Paced interval now w (history ++ []) := by rwa [List.append_nil]
  unfold updateSamplingWindow updateReleases
  split
  · exact hsame
  · rename_i hopen
    have hactive : w.samplingWindowActive = true := by
      rw [not_or, Bool.not_eq_false] at hopen
      exact hopen.1
    split
    · exact hsame
    · rename_i helapsed
      obtain ⟨start, hstart, hstarted, hrecent⟩ := h.active hactive
      rw [← hstarted, Bool.not_eq_true', Bool.not_eq_false] at helapsed
      have hgap := elapsed_spec hstart helapsed
      split
      · -- An idle window is closed.
        rename_i hempty
        have hnil : w.sampledEvents.pending = [] := List.isEmpty_iff.mp hempty
        rw [pendingReleases, hnil, List.map_nil, List.append_nil]
        refine { h with active := fun hfalse => (by cases hfalse), idle := fun _ => ⟨hnil, fun a ha => ?_⟩ }
        have := hrecent a ha
        omega
      · have hflushed := flushSampledEvents_pending w
        refine ⟨h.flush (.inr (.inr fun a ha => ?_)), ?_, fun _ => ⟨now, Nat.le_refl _, rfl, fun a ha => ?_⟩, ?_⟩
        · have := hrecent a ha
          omega
        · exact hflushed ▸ List.nodup_nil
        · rcases recent_pendingReleases ha with ha | ha
          · have := hrecent a ha
            omega
          · omega
        · intro hidle
          exact absurd ((flushSampledEvents_active w).trans hactive) (by rw [hidle]; decide)

theorem Paced.barrier (h : Paced interval now w history) (barrier : HIDEvent) :
    Paced interval now (emitBarrier barrier w).1 (history ++ barrierReleases now barrier w) := by
  have hnone : recent Release.key (history ++ barrierReleases now barrier w) = [] := by
    rw [barrierReleases, ← List.append_assoc]
    exact recent_concat_none _ rfl
  refine ⟨?_, List.nodup_nil, fun hactive => (by cases hactive), fun _ => ⟨rfl, ?_⟩⟩
  · rw [barrierReleases, ← List.append_assoc]
    exact (h.flush (.inl rfl)).concat fun hkey => absurd hkey Bool.false_ne_true
  · rw [hnone]
    exact fun a ha => absurd ha List.not_mem_nil

/-! ## A report -/

variable {d : DecodedReport}

theorem Paced.immediate (h : Paced interval now w history) (hidle : w.samplingWindowActive = false)
    {run : List HIDReportItemValue} (hkeys : (run.map d.sampledKey).Nodup) :
    Paced interval now { w with samplingWindowActive := true, samplingWindowStartedUs := micros now }
      (history ++ run.map (immediateRelease d now)) := by
  obtain ⟨hnil, hrecent⟩ := h.idle hidle
  refine ⟨h.spaced.append ?_ ?_, h.keys, fun _ => ⟨now, Nat.le_refl _, rfl, fun a ha => ?_⟩,
    fun hfalse => (by cases hfalse)⟩
  · rw [List.map_map]
    have hsome := hkeys.map (Option.some_injective _)
    rwa [List.map_map] at hsome
  · intro b hb _ a ha _
    obtain ⟨value, -, rfl⟩ := List.mem_map.mp hb
    exact hrecent a ha
  · rcases mem_recent_append Release.key ha with ha | ha
    · have := hrecent a ha
      omega
    · obtain ⟨value, -, rfl⟩ := List.mem_map.mp ha
      exact Nat.le_refl _

theorem mergePending_keys {key : SampledEventKey} {merge : PendingEvent → PendingEvent}
    (hmerge : ∀ p, (merge p).key = p.key) (pending : List PendingEvent) :
    match mergePending key merge pending with
    | some merged => key ∈ pending.map (·.key) ∧ merged.map (·.key) = pending.map (·.key)
    | none => key ∉ pending.map (·.key) := by
  induction pending with
  | nil => exact List.not_mem_nil
  | cons p rest ih =>
    unfold mergePending
    by_cases hkey : p.key = key
    · rw [if_pos hkey]
      simp [hmerge, hkey]
    · rw [if_neg hkey]
      cases hrest : mergePending key merge rest with
      | some merged =>
        rw [hrest] at ih
        simp [ih]
      | none =>
        rw [hrest] at ih
        simpa [Ne.symm hkey] using ih

/-- The pending keys after an `accumulate` that returned true: a new key goes to the end. -/
theorem accumulate_pending_keys {buffer buffer' : OrderedEventBuffer} {key : SampledEventKey}
    {aggregation : Aggregation} {value rawValue : Int} {event : HIDEvent}
    (h : buffer.accumulate key aggregation value rawValue event = some buffer') :
    buffer'.capacity = buffer.capacity ∧
      (buffer.pending.length ≤ buffer.capacity → buffer'.pending.length ≤ buffer'.capacity) ∧
      buffer'.pending.map (·.key) =
        if key ∈ buffer.pending.map (·.key) then buffer.pending.map (·.key)
        else buffer.pending.map (·.key) ++ [key] := by
  have hmerged := @mergePending_keys key (mergeEvent aggregation value rawValue event) (fun _ => rfl)
    buffer.pending
  unfold OrderedEventBuffer.accumulate at h
  split at h
  · rename_i merged hmerge
    rw [hmerge] at hmerged
    obtain ⟨hmem, hkeys⟩ := hmerged
    obtain rfl := Option.some.inj h
    have hlength : merged.length = buffer.pending.length := by simpa using congrArg List.length hkeys
    refine ⟨rfl, fun hle => hlength ▸ hle, ?_⟩
    rw [if_pos hmem]
    exact hkeys
  · rename_i hmerge
    rw [hmerge] at hmerged
    split at h
    · cases h
    · rename_i hroom
      obtain rfl := Option.some.inj h
      refine ⟨rfl, fun _ => ?_, ?_⟩
      · simp only [List.length_append, List.length_singleton]
        omega
      · rw [if_neg hmerged, List.map_append]
        rfl

theorem accumulate_keys {buffer buffer' : OrderedEventBuffer} {key : SampledEventKey} {aggregation : Aggregation}
    {value rawValue : Int} {event : HIDEvent} (hkeys : (buffer.pending.map (·.key)).Nodup)
    (h : buffer.accumulate key aggregation value rawValue event = some buffer') :
    (buffer'.pending.map (·.key)).Nodup := by
  rw [(accumulate_pending_keys h).2.2]
  split
  · exact hkeys
  · rename_i hnew
    exact hkeys.append (List.nodup_singleton _) (by simpa using hnew)

theorem Paced.accumulate (h : Paced interval now w history) (hactive : w.samplingWindowActive = true)
    (value : HIDReportItemValue) :
    Paced interval now (accumulateEvent d (micros now) value w).1 (history ++ accumulateReleases d now value w) ∧
      (accumulateEvent d (micros now) value w).1.samplingWindowActive = true := by
  obtain ⟨start, hstart, hstarted, hrecent⟩ := h.active hactive
  cases hacc : w.sampledEvents.accumulate (d.sampledKey value) value.aggregation value.value value.rawValue
    (d.event (some value)) with
  | some buffer =>
    simp only [accumulateReleases, accumulateEvent, hacc, List.append_nil]
    refine ⟨⟨h.spaced, accumulate_keys h.keys hacc, fun _ => ⟨start, hstart, hstarted, hrecent⟩, ?_⟩, hactive⟩
    exact fun hidle => absurd hactive (by rw [hidle]; decide)
  | none =>
    -- The buffer is full: everything goes out, and the window starts again.
    have hflushed := flushSampledEvents_pending w
    have hstill := (flushSampledEvents_active w).trans hactive
    simp only [accumulateReleases, accumulateEvent, hacc]
    refine ⟨⟨h.flush (.inr (.inl rfl)), ?_, fun _ => ⟨now, Nat.le_refl _, rfl, fun a ha => ?_⟩, ?_⟩, hstill⟩
    · have hnodup : ((flushSampledEvents w).1.sampledEvents.pending.map (·.key)).Nodup := hflushed ▸ List.nodup_nil
      cases hretry : (flushSampledEvents w).1.sampledEvents.accumulate (d.sampledKey value) value.aggregation
        value.value value.rawValue (d.event (some value)) with
      | some buffer => exact accumulate_keys hnodup hretry
      | none => exact hnodup
    · rcases recent_pendingReleases ha with ha | ha
      · have := hrecent a ha
        omega
      · omega
    · exact fun hidle => absurd hstill (by rw [hidle]; decide)

theorem Paced.accumulateRun (h : Paced interval now w history) (hactive : w.samplingWindowActive = true)
    (index : Nat) (run : List HIDReportItemValue) :
    Paced interval now (accumulateRun d (.at now) index run w).1
      (history ++ accumulateRunReleases d now run w) := by
  induction run generalizing index w history with
  | nil => simpa [BleClientHid.accumulateRun, accumulateRunReleases] using h
  | cons value rest ih =>
    obtain ⟨hnext, hactive'⟩ := h.accumulate (d := d) hactive value
    rw [accumulateRunReleases, ← List.append_assoc]
    exact ih hnext hactive' (index + 1)

theorem Paced.run (h : Paced interval now w history) {run : List HIDReportItemValue}
    (hkeys : (run.map d.sampledKey).Nodup) :
    Paced interval now (processRun d (.at now) 0 run w).1 (history ++ runReleases d now run w) := by
  unfold processRun runReleases
  split
  · rename_i hidle
    exact h.immediate hidle hkeys
  · rename_i hactive
    exact h.accumulateRun (by simpa using hactive) 0 run

/-- Each key has at most one mergeable value in the report. -/
def DecodedReport.OneEach (d : DecodedReport) : Prop := ((d.values.filter mergeable).map d.sampledKey).Nodup

theorem Paced.values (hinterval : interval ≠ 0) (h : Paced interval now w history) (fuel index : Nat)
    {values : List HIDReportItemValue} (hkeys : ((values.filter mergeable).map d.sampledKey).Nodup) :
    Paced interval now (processValues interval d (.at now) fuel index values w).1
      (history ++ valuesReleases d now fuel values w) := by
  induction fuel generalizing index values w history with
  | zero => simpa [processValues, valuesReleases] using h
  | succ fuel ih =>
    cases values with
    | nil => simpa [processValues, valuesReleases] using h
    | cons value rest =>
      rw [processValues, if_neg hinterval, valuesReleases]
      by_cases hmerge : mergeable value = true
      · -- The run and what follows it keep the keys apart.
        have hsplit : (value :: rest).filter mergeable =
            (value :: rest.takeWhile mergeable) ++ (rest.dropWhile mergeable).filter mergeable := by
          have hrun : (rest.takeWhile mergeable).filter mergeable = rest.takeWhile mergeable :=
            List.filter_eq_self.mpr fun v hv => List.mem_takeWhile_imp hv
          rw [List.filter_cons_of_pos hmerge, List.cons_append]
          congr 1
          conv_lhs => rw [← List.takeWhile_append_dropWhile (p := mergeable) (l := rest)]
          rw [List.filter_append, hrun]
        rw [hsplit, List.map_append] at hkeys
        have hnext := h.run (d := d) (List.Nodup.of_append_left hkeys)
        have hrest := ih hnext (index + (value :: rest.takeWhile mergeable).length)
          (List.Nodup.of_append_right hkeys)
        rw [List.append_assoc] at hrest
        simpa [hmerge, processRun_index d now index] using hrest
      · have hlater : ((rest.filter mergeable).map d.sampledKey).Nodup := by
          simpa [List.filter_cons, hmerge] using hkeys
        have hrest := ih (h.barrier (d.event (some value))) (index + 1) hlater
        rw [List.append_assoc] at hrest
        simpa [hmerge] using hrest

theorem Paced.report (hinterval : interval ≠ 0) (h : Paced interval now w history) (hone : d.OneEach) :
    Paced interval now (processDecodedReport interval d (.at now) w).1
      (history ++ reportReleases interval d now w) := by
  have hvalues := h.update.values hinterval d.values.length 0 hone
  unfold processDecodedReport reportReleases
  rw [List.append_assoc] at hvalues
  by_cases hraw : (d.values.isEmpty && !d.recognized) = true
  · have hbarrier := hvalues.barrier (d.event none)
    rw [List.append_assoc] at hbarrier
    simp only [hraw, if_true]
    exact hbarrier
  · simp only [hraw, Bool.false_eq_true, if_false]
    exact hvalues

end

/-! ## The law -/

theorem paced_start (interval : UInt32) (now : Nat) : Paced interval now {} [] :=
  ⟨.nil, List.nodup_nil, fun hactive => (by cases hactive), fun _ => ⟨rfl, fun a ha => absurd ha List.not_mem_nil⟩⟩

theorem Paced.step {interval : UInt32} (hinterval : interval ≠ 0) {now : Nat} {w : SamplingWindow}
    {history : List Release} (h : Paced interval now w history) {t : TimedStep} (hle : now ≤ t.time)
    (hone : ∀ d, t.report = some d → d.OneEach) :
    Paced interval t.time (samplingStep interval w t.step).1 (history ++ t.releases interval w) := by
  have hlater := h.later hle
  unfold TimedStep.step TimedStep.releases
  cases hreport : t.report with
  | some d => exact hlater.report hinterval (hone d hreport)
  | none => exact hlater.update

theorem Paced.steps {interval : UInt32} (hinterval : interval ≠ 0) {now : Nat} {w : SamplingWindow}
    {history : List Release} (h : Paced interval now w history) {steps : List TimedStep}
    (hstart : ∀ t ∈ steps, now ≤ t.time) (hclock : steps.Pairwise (·.time ≤ ·.time))
    (hone : ∀ t ∈ steps, ∀ d, t.report = some d → d.OneEach) :
    SpacedReleases interval (history ++ releases interval w steps) := by
  induction steps generalizing now w history with
  | nil =>
    rw [releases, List.append_nil]
    exact h.spaced
  | cons t rest ih =>
    obtain ⟨hfirst, hclock⟩ := List.pairwise_cons.mp hclock
    have hnext := h.step hinterval (hstart t (by simp)) (hone t (by simp))
    rw [releases, ← List.append_assoc]
    exact ih hnext hfirst hclock fun s hs => hone s (List.mem_cons_of_mem _ hs)

/-- Two consecutive emissions of one key are an interval apart, unless a barrier or a full buffer releases
the second one or a barrier goes out between them. -/
theorem samplingRun_spaced (interval : UInt32) (hinterval : interval ≠ 0) (steps : List TimedStep)
    (hclock : steps.Pairwise (·.time ≤ ·.time)) (hone : ∀ t ∈ steps, ∀ d, t.report = some d → d.OneEach) :
    (releases interval {} steps).map (·.event) = (samplingRun interval {} (steps.map TimedStep.step)).2 ∧
      SpacedReleases interval (releases interval {} steps) :=
  ⟨releases_events hinterval {} steps,
    (paced_start interval 0).steps hinterval (fun _ _ => Nat.zero_le _) hclock hone⟩

/-- Three moves in one window, and a release of the last two when it ends. -/
def moveSteps : List TimedStep :=
  [{ time := 4294967200, report := some (mouseReportOf 1 [move 5]) },
    { time := 4294967300, report := some (mouseReportOf 2 [move 1]) },
    { time := 4294967400, report := some (mouseReportOf 3 [move 2]) },
    { time := 4294967600, report := none }, { time := 4294967700, report := none }]

example : (releases 500 {} moveSteps).map (fun r => (r.cause, r.time, r.event.find "value")) =
    [(.immediate, 4294967200, some "5"), (.timer, 4294967700, some "3")] := by
  decide +kernel

theorem samplingRun_spaced_moves :
    (releases 500 {} moveSteps).map (·.event) = (samplingRun 500 {} (moveSteps.map TimedStep.step)).2 ∧
      SpacedReleases 500 (releases 500 {} moveSteps) := by
  refine samplingRun_spaced 500 (by decide) moveSteps (by decide) ?_
  intro t ht d hd
  simp only [moveSteps, List.mem_cons, List.not_mem_nil, or_false] at ht
  rcases ht with rfl | rfl | rfl | rfl | rfl <;> cases hd <;> exact List.nodup_singleton _

end BleClientHid
