import BleClientHid.CoalescingRate
import BleClientHid.Component.State
import BleClientHid.Lib.FirstSeen

/-! # What the coalescing buffer goes through

The same functions as in the sampling window, with a record of every call that
touches the buffer or the flag, and the window each of them leaves.
-/

namespace BleClientHid

open Lib OrderedEventBuffer

/-! ## The record -/

inductive BufferAct where
  /-- `accumulate` returned true. -/
  | accumulated (key : SampledEventKey)
  /-- `accumulate` returned false. -/
  | refused (key : SampledEventKey)
  | drained (entries : List PendingEvent)
  | cleared
  | emitted (event : HIDEvent)
  | setActive (active : Bool)
  /-- The warning of `accumulate_event_`: the second `accumulate` returned false. -/
  | coalescingFailed (key : SampledEventKey)
  deriving DecidableEq

namespace BufferAct

def empties : BufferAct → Bool
  | drained _ | cleared => true
  | _ => false

def accumulatedKey : BufferAct → Option SampledEventKey
  | accumulated key => some key
  | _ => none

def events : BufferAct → List HIDEvent
  | drained entries => entries.map (·.event)
  | emitted event => [event]
  | _ => []

end BufferAct

structure Moment where
  act : BufferAct
  window : SamplingWindow

structure TracedWindow where
  window : SamplingWindow := {}
  history : List Moment := []

namespace TracedWindow

def acts (t : TracedWindow) : List BufferAct := t.history.map (·.act)

def events (t : TracedWindow) : List HIDEvent := t.acts.flatMap BufferAct.events

def perform (act : BufferAct) (window : SamplingWindow) (t : TracedWindow) : TracedWindow :=
  { window, history := t.history ++ [{ act, window }] }

def drain (t : TracedWindow) : TracedWindow :=
  t.perform (.drained t.window.sampledEvents.pending)
    { t.window with sampledEvents := t.window.sampledEvents.drain.1 }

def clear (t : TracedWindow) : TracedWindow :=
  t.perform .cleared { t.window with sampledEvents := t.window.sampledEvents.clear }

def emit (event : HIDEvent) (t : TracedWindow) : TracedWindow := t.perform (.emitted event) t.window

def setActive (active : Bool) (t : TracedWindow) : TracedWindow :=
  t.perform (.setActive active) { t.window with samplingWindowActive := active }

def setStarted (now : UInt32) (t : TracedWindow) : TracedWindow :=
  { t with window := { t.window with samplingWindowStartedUs := now } }

end TracedWindow

/-! ## The functions -/

def flushSampledEventsTraced (t : TracedWindow) : TracedWindow :=
  if t.window.sampledEvents.empty then t else t.drain

def updateSamplingWindowTraced (interval now : UInt32) (t : TracedWindow) : TracedWindow :=
  if t.window.samplingWindowActive = false ∨ interval = 0 then t
  else if !elapsed now t.window.samplingWindowStartedUs interval then t
  else if t.window.sampledEvents.empty then t.setActive false
  else (flushSampledEventsTraced t).setStarted now

def emitBarrierTraced (barrier : HIDEvent) (t : TracedWindow) : TracedWindow :=
  (t.drain.emit barrier).setActive false

section

variable (interval : UInt32) (d : DecodedReport) (clock : ReportClock)

/-- The call of `accumulate`, with its result. -/
def accumulateTraced (value : HIDReportItemValue) (t : TracedWindow) : Bool × TracedWindow :=
  match t.window.sampledEvents.accumulate (d.sampledKey value) value.aggregation value.value value.rawValue
      (d.event (some value)) with
  | some sampledEvents => (true, t.perform (.accumulated (d.sampledKey value)) { t.window with sampledEvents })
  | none => (false, t.perform (.refused (d.sampledKey value)) t.window)

def accumulateEventTraced (now : UInt32) (value : HIDReportItemValue) (t : TracedWindow) : TracedWindow :=
  match accumulateTraced d value t with
  | (true, t) => t
  | (false, t) =>
    match accumulateTraced d value (flushSampledEventsTraced t) with
    | (true, t) => t.setStarted now
    | (false, t) => (t.perform (.coalescingFailed (d.sampledKey value)) t.window).setStarted now

def accumulateRunTraced : Nat → List HIDReportItemValue → TracedWindow → TracedWindow
  | _, [], t => t
  | index, value :: rest, t =>
    accumulateRunTraced (index + 1) rest (accumulateEventTraced d (clock.reading index) value t)

def emitRunTraced (run : List HIDReportItemValue) (t : TracedWindow) : TracedWindow :=
  run.foldl (fun t value => t.emit (d.event (some value))) t

def processRunTraced (index : Nat) (run : List HIDReportItemValue) (t : TracedWindow) : TracedWindow :=
  if t.window.samplingWindowActive = false then
    ((emitRunTraced d run t).setActive true).setStarted (clock.reading index)
  else accumulateRunTraced d clock index run t

def processValuesTraced : Nat → Nat → List HIDReportItemValue → TracedWindow → TracedWindow
  | 0, _, _, t => t
  | _ + 1, _, [], t => t
  | fuel + 1, index, value :: rest, t =>
    if interval = 0 then
      processValuesTraced fuel (index + 1) rest (t.emit (d.event (some value)))
    else if !mergeable value then
      processValuesTraced fuel (index + 1) rest (emitBarrierTraced (d.event (some value)) t)
    else
      let run := value :: rest.takeWhile mergeable
      processValuesTraced fuel (index + run.length) (rest.dropWhile mergeable)
        (processRunTraced d clock index run t)

def processDecodedReportTraced (t : TracedWindow) : TracedWindow :=
  let t := processValuesTraced interval d clock d.values.length 0 d.values
    (updateSamplingWindowTraced interval clock.update t)
  if d.values.isEmpty && !d.recognized then emitBarrierTraced (d.event none) t else t

end

/-- The lines of `reset_connection_state_` about the window. -/
def resetWindowTraced (t : TracedWindow) : TracedWindow := t.clear.setActive false

inductive CoalescingStep where
  | sampling (step : SamplingStep)
  | reset

def coalescingStep (interval : UInt32) (t : TracedWindow) : CoalescingStep → TracedWindow
  | .sampling (.report clock d) => processDecodedReportTraced interval d clock t
  | .sampling (.window now) => updateSamplingWindowTraced interval now t
  | .reset => resetWindowTraced t

def coalescingRun (interval : UInt32) (steps : List CoalescingStep) : TracedWindow :=
  steps.foldl (coalescingStep interval) {}

/-- The functions without the record: the window they leave, and what they emit. -/
def windowStep (interval : UInt32) (w : SamplingWindow) : CoalescingStep → SamplingWindow × List HIDEvent
  | .sampling step => samplingStep interval w step
  | .reset => ((BLEClientHID.resetConnectionState { window := w }).window, [])

def windowRun (interval : UInt32) (steps : List CoalescingStep) : SamplingWindow × List HIDEvent :=
  steps.foldl (fun (w, events) step => ((windowStep interval w step).1, events ++ (windowStep interval w step).2))
    ({}, [])

/-! ## The record changes nothing -/

/-- The window and the emitted events are those of the function without the record. -/
def Records (t t' : TracedWindow) (outcome : SamplingWindow × List HIDEvent) : Prop :=
  t'.window = outcome.1 ∧ t'.events = t.events ++ outcome.2

namespace TracedWindow

variable (t : TracedWindow)

@[simp]
theorem perform_window (act : BufferAct) (window : SamplingWindow) : (t.perform act window).window = window := rfl

@[simp]
theorem perform_acts (act : BufferAct) (window : SamplingWindow) :
    (t.perform act window).acts = t.acts ++ [act] := by
  simp [perform, acts]

@[simp]
theorem perform_events (act : BufferAct) (window : SamplingWindow) :
    (t.perform act window).events = t.events ++ act.events := by
  simp [events]

@[simp]
theorem setStarted_events (now : UInt32) : (t.setStarted now).events = t.events := rfl

end TracedWindow

section

variable {t t' t'' : TracedWindow} {w : SamplingWindow} {events later : List HIDEvent}

theorem Records.refl (t : TracedWindow) : Records t t (t.window, []) := ⟨rfl, by simp⟩

theorem Records.trans (h : Records t t' (w, events)) {w' : SamplingWindow} (h' : Records t' t'' (w', later)) :
    Records t t'' (w', events ++ later) :=
  ⟨h'.1, by rw [h'.2, h.2, List.append_assoc]⟩

theorem flushSampledEventsTraced_records (t : TracedWindow) :
    Records t (flushSampledEventsTraced t) (flushSampledEvents t.window) := by
  unfold flushSampledEventsTraced flushSampledEvents
  split
  · exact .refl t
  · exact ⟨rfl, by simp [TracedWindow.drain, BufferAct.events, OrderedEventBuffer.drain]⟩

theorem updateSamplingWindowTraced_records (interval now : UInt32) (t : TracedWindow) :
    Records t (updateSamplingWindowTraced interval now t) (updateSamplingWindow interval now t.window) := by
  unfold updateSamplingWindowTraced updateSamplingWindow
  split
  · exact .refl t
  · split
    · exact .refl t
    · split
      · exact ⟨rfl, by simp [TracedWindow.setActive, BufferAct.events]⟩
      · obtain ⟨hwindow, hevents⟩ := flushSampledEventsTraced_records t
        exact ⟨by simp only [TracedWindow.setStarted, hwindow], hevents⟩

theorem emitBarrierTraced_records (barrier : HIDEvent) (t : TracedWindow) :
    Records t (emitBarrierTraced barrier t) (emitBarrier barrier t.window) := by
  refine ⟨rfl, ?_⟩
  simp [emitBarrierTraced, emitBarrier, TracedWindow.setActive, TracedWindow.emit, TracedWindow.drain,
    BufferAct.events, OrderedEventBuffer.drainBefore, OrderedEventBuffer.drain]

variable (d : DecodedReport) (clock : ReportClock)

theorem accumulateEventTraced_records (now : UInt32) (value : HIDReportItemValue) (t : TracedWindow) :
    Records t (accumulateEventTraced d now value t) (accumulateEvent d now value t.window) := by
  simp only [accumulateEventTraced, accumulateEvent, accumulateTraced]
  cases hfirst : t.window.sampledEvents.accumulate (d.sampledKey value) value.aggregation value.value
      value.rawValue (d.event (some value)) with
  | some buffer => exact ⟨rfl, by simp [BufferAct.events]⟩
  | none =>
    dsimp only
    obtain ⟨hwindow, hevents⟩ :=
      flushSampledEventsTraced_records (t.perform (.refused (d.sampledKey value)) t.window)
    simp only [TracedWindow.perform_window, TracedWindow.perform_events] at hwindow hevents
    cases hsecond : (flushSampledEventsTraced (t.perform (.refused (d.sampledKey value))
        t.window)).window.sampledEvents.accumulate (d.sampledKey value) value.aggregation value.value
        value.rawValue (d.event (some value)) with
    | some buffer =>
      rw [hwindow] at hsecond
      refine ⟨?_, ?_⟩
      · simp only [TracedWindow.setStarted, TracedWindow.perform_window, hwindow, hsecond, Option.getD_some]
      · simp [hevents, BufferAct.events]
    | none =>
      rw [hwindow] at hsecond
      refine ⟨?_, ?_⟩
      · simp only [TracedWindow.setStarted, TracedWindow.perform_window, hwindow, hsecond, Option.getD_none]
      · simp [hevents, BufferAct.events]

theorem accumulateRunTraced_records (index : Nat) (run : List HIDReportItemValue) (t : TracedWindow) :
    Records t (accumulateRunTraced d clock index run t) (accumulateRun d clock index run t.window) := by
  induction run generalizing index t with
  | nil => exact .refl t
  | cons value rest ih =>
    have hhead := accumulateEventTraced_records d (clock.reading index) value t
    have htail := ih (index + 1) (accumulateEventTraced d (clock.reading index) value t)
    rw [hhead.1] at htail
    exact hhead.trans htail

theorem emitRunTraced_records (run : List HIDReportItemValue) (t : TracedWindow) :
    Records t (emitRunTraced d run t) (t.window, run.map fun value => d.event (some value)) := by
  induction run generalizing t with
  | nil => exact .refl t
  | cons value rest ih =>
    have hhead : Records t (t.emit (d.event (some value))) (t.window, [d.event (some value)]) :=
      ⟨rfl, by simp [TracedWindow.emit, BufferAct.events]⟩
    exact hhead.trans (ih (t.emit (d.event (some value))))

theorem processRunTraced_records (index : Nat) (run : List HIDReportItemValue) (t : TracedWindow) :
    Records t (processRunTraced d clock index run t) (processRun d clock index run t.window) := by
  unfold processRunTraced processRun
  split
  · obtain ⟨hwindow, hevents⟩ := emitRunTraced_records d run t
    refine ⟨?_, ?_⟩
    · simp only [TracedWindow.setStarted, TracedWindow.setActive, TracedWindow.perform_window, hwindow]
    · simp [TracedWindow.setActive, hevents, BufferAct.events]
  · exact accumulateRunTraced_records d clock index run t

theorem processValuesTraced_records (interval : UInt32) (fuel index : Nat) (values : List HIDReportItemValue)
    (t : TracedWindow) : Records t (processValuesTraced interval d clock fuel index values t)
      (processValues interval d clock fuel index values t.window) := by
  induction fuel generalizing index values t with
  | zero => exact .refl t
  | succ fuel ih =>
    cases values with
    | nil => exact .refl t
    | cons value rest =>
      unfold processValuesTraced processValues
      split
      · have hhead : Records t (t.emit (d.event (some value))) (t.window, [d.event (some value)]) :=
          ⟨rfl, by simp [TracedWindow.emit, BufferAct.events]⟩
        exact hhead.trans (ih (index + 1) rest (t.emit (d.event (some value))))
      · split
        · have hhead := emitBarrierTraced_records (d.event (some value)) t
          have htail := ih (index + 1) rest (emitBarrierTraced (d.event (some value)) t)
          rw [hhead.1] at htail
          exact hhead.trans htail
        · have hhead := processRunTraced_records d clock index (value :: rest.takeWhile mergeable) t
          have htail := ih (index + (value :: rest.takeWhile mergeable).length) (rest.dropWhile mergeable)
            (processRunTraced d clock index (value :: rest.takeWhile mergeable) t)
          rw [hhead.1] at htail
          exact hhead.trans htail

theorem processDecodedReportTraced_records (interval : UInt32) (t : TracedWindow) :
    Records t (processDecodedReportTraced interval d clock t)
      (processDecodedReport interval d clock t.window) := by
  have hupdate := updateSamplingWindowTraced_records interval clock.update t
  have hvalues := processValuesTraced_records d clock interval d.values.length 0 d.values
    (updateSamplingWindowTraced interval clock.update t)
  rw [hupdate.1] at hvalues
  have hall := hupdate.trans hvalues
  simp only [processDecodedReportTraced, processDecodedReport, processDecodedValues]
  split
  · have hbarrier := emitBarrierTraced_records (d.event none) (processValuesTraced interval d clock
      d.values.length 0 d.values (updateSamplingWindowTraced interval clock.update t))
    rw [hvalues.1] at hbarrier
    exact hall.trans hbarrier
  · exact hall

end

theorem samplingStep_records (interval : UInt32) (step : SamplingStep) (t : TracedWindow) :
    Records t (coalescingStep interval t (.sampling step)) (samplingStep interval t.window step) := by
  cases step with
  | report clock d => exact processDecodedReportTraced_records d clock interval t
  | window now => exact updateSamplingWindowTraced_records interval now t

theorem reset_records (t : TracedWindow) :
    Records t (resetWindowTraced t) ((BLEClientHID.resetConnectionState { window := t.window }).window, []) := by
  refine ⟨rfl, ?_⟩
  simp [resetWindowTraced, TracedWindow.setActive, TracedWindow.clear, BufferAct.events]

theorem coalescingStep_records (interval : UInt32) (step : CoalescingStep) (t : TracedWindow) :
    Records t (coalescingStep interval t step) (windowStep interval t.window step) := by
  cases step with
  | sampling step => exact samplingStep_records interval step t
  | reset => exact reset_records t

theorem coalescingRun_records (interval : UInt32) (steps : List CoalescingStep) :
    Records {} (coalescingRun interval steps) (windowRun interval steps) := by
  induction steps using List.reverseRecOn with
  | nil => exact .refl {}
  | append_singleton steps step ih =>
    have hstep := coalescingStep_records interval step (coalescingRun interval steps)
    rw [ih.1] at hstep
    rw [windowRun, List.foldl_append, coalescingRun, List.foldl_append]
    exact ih.trans hstep

/-! ## The invariant -/

structure BufferInv (w : SamplingWindow) : Prop extends WindowInv w where
  length : w.sampledEvents.pending.length ≤ w.sampledEvents.capacity
  keys : (w.sampledEvents.pending.map (·.key)).Nodup

/-- The keys the buffer should hold after these acts. -/
def seenKeys (acts : List BufferAct) : List SampledEventKey :=
  firstSeen BufferAct.empties BufferAct.accumulatedKey acts

/-- What an act may be after the ones before it: a drain follows the order in which the keys were
first seen, and nothing fails to coalesce. -/
def BufferAct.Lawful (before : List BufferAct) : BufferAct → Prop
  | drained entries => entries.map (·.key) = seenKeys before
  | coalescingFailed _ => False
  | _ => True

structure TraceInv (t : TracedWindow) : Prop where
  window : BufferInv t.window
  moments : ∀ moment ∈ t.history, BufferInv moment.window
  seen : t.window.sampledEvents.pending.map (·.key) = seenKeys t.acts
  lawful : AtEvery BufferAct.Lawful t.acts

theorem bufferInv_empty {w : SamplingWindow} (hcap : w.sampledEvents.capacity = 16)
    (hempty : w.sampledEvents.pending = []) : BufferInv w where
  idle := fun _ => hempty
  capacity := hcap
  length := by simp [hempty]
  keys := by simp [hempty]

section

variable {t : TracedWindow}

/-- An act that leaves a sound window, with the keys the record says. -/
theorem TraceInv.perform (h : TraceInv t) {act : BufferAct} {w : SamplingWindow} (hw : BufferInv w)
    (hlawful : act.Lawful t.acts) (hseen : w.sampledEvents.pending.map (·.key) = seenKeys (t.acts ++ [act])) :
    TraceInv (t.perform act w) where
  window := hw
  moments := by
    intro moment hmem
    rcases List.mem_append.mp hmem with hmem | hmem
    · exact h.moments moment hmem
    · obtain rfl := List.mem_singleton.mp hmem
      exact hw
  seen := by
    rw [TracedWindow.perform_acts]
    exact hseen
  lawful := by
    rw [TracedWindow.perform_acts]
    exact h.lawful.concat hlawful

theorem TraceInv.quiet (h : TraceInv t) {act : BufferAct} {w : SamplingWindow} (hw : BufferInv w)
    (hsame : w.sampledEvents.pending = t.window.sampledEvents.pending) (hlawful : act.Lawful t.acts)
    (hempties : act.empties = false) (hkey : act.accumulatedKey = none) : TraceInv (t.perform act w) := by
  apply h.perform hw hlawful
  rw [hsame, h.seen, seenKeys, seenKeys, firstSeen_quiet hempties hkey]

theorem TraceInv.empties (h : TraceInv t) {act : BufferAct} {w : SamplingWindow}
    (hcap : w.sampledEvents.capacity = t.window.sampledEvents.capacity) (hempty : w.sampledEvents.pending = [])
    (hlawful : act.Lawful t.acts) (hempties : act.empties = true) : TraceInv (t.perform act w) := by
  apply h.perform (bufferInv_empty (hcap.trans h.window.capacity) hempty) hlawful
  rw [hempty, seenKeys, firstSeen_empties hempties, List.map_nil]

theorem TraceInv.setStarted (h : TraceInv t) (now : UInt32) : TraceInv (t.setStarted now) where
  window :=
    { idle := h.window.idle
      capacity := h.window.capacity
      length := h.window.length
      keys := h.window.keys }
  moments := h.moments
  seen := h.seen
  lawful := h.lawful

theorem TraceInv.drain (h : TraceInv t) : TraceInv t.drain :=
  h.empties rfl rfl h.seen rfl

theorem TraceInv.emit (h : TraceInv t) (event : HIDEvent) : TraceInv (t.emit event) :=
  h.quiet h.window rfl trivial rfl rfl

theorem TraceInv.setActive_empty (h : TraceInv t) (hempty : t.window.sampledEvents.pending = []) (active : Bool) :
    TraceInv (t.setActive active) :=
  h.quiet (bufferInv_empty h.window.capacity hempty) rfl trivial rfl rfl

/-! ## The functions keep it -/

theorem flushSampledEventsTraced_spec (h : TraceInv t) :
    TraceInv (flushSampledEventsTraced t) ∧ (flushSampledEventsTraced t).window.sampledEvents.pending = [] ∧
      (flushSampledEventsTraced t).window.samplingWindowActive = t.window.samplingWindowActive := by
  unfold flushSampledEventsTraced
  split
  · rename_i hempty
    exact ⟨h, (empty_iff _).mp hempty, rfl⟩
  · exact ⟨h.drain, rfl, rfl⟩

theorem updateSamplingWindowTraced_spec (interval now : UInt32) (h : TraceInv t) :
    TraceInv (updateSamplingWindowTraced interval now t) := by
  unfold updateSamplingWindowTraced
  split
  · exact h
  · split
    · exact h
    · split
      · rename_i hempty
        exact h.setActive_empty ((empty_iff _).mp hempty) false
      · exact (flushSampledEventsTraced_spec h).1.setStarted now

theorem emitBarrierTraced_spec (barrier : HIDEvent) (h : TraceInv t) : TraceInv (emitBarrierTraced barrier t) :=
  (h.drain.emit barrier).setActive_empty rfl false

theorem resetWindowTraced_spec (h : TraceInv t) : TraceInv (resetWindowTraced t) := by
  have hclear : TraceInv t.clear := h.empties rfl rfl trivial rfl
  exact hclear.setActive_empty rfl false

variable (d : DecodedReport)

/-- Accumulation is for an open window only. What an empty buffer is given, it takes. -/
theorem accumulateTraced_spec (value : HIDReportItemValue) (h : TraceInv t)
    (hactive : t.window.samplingWindowActive = true) :
    TraceInv (accumulateTraced d value t).2 ∧
      (accumulateTraced d value t).2.window.samplingWindowActive = true ∧
      (t.window.sampledEvents.pending = [] → (accumulateTraced d value t).1 = true) := by
  unfold accumulateTraced
  split
  · rename_i buffer haccumulate
    obtain ⟨hcap, hlength, hkeys⟩ := accumulate_pending_keys haccumulate
    refine ⟨?_, hactive, fun _ => rfl⟩
    have hwindow : BufferInv { t.window with sampledEvents := buffer } :=
      { idle := fun hidle => absurd (hactive.symm.trans hidle) (by decide)
        capacity := hcap.trans h.window.capacity
        length := hlength h.window.length
        keys := accumulate_keys h.window.keys haccumulate }
    have hlog := @firstSeen_key _ _ _ BufferAct.empties BufferAct.accumulatedKey t.acts
      (.accumulated (d.sampledKey value)) rfl (d.sampledKey value) rfl
    have hlawful : BufferAct.Lawful t.acts (.accumulated (d.sampledKey value)) := trivial
    apply h.perform hwindow hlawful
    rw [seenKeys, hlog, hkeys, h.seen]
    rfl
  · rename_i hrefused
    refine ⟨h.quiet h.window rfl trivial rfl rfl, hactive, fun hempty => ?_⟩
    have htaken := accumulate_of_empty hempty h.window.capacity (d.sampledKey value) value.aggregation value.value
      value.rawValue (d.event (some value))
    rw [hrefused] at htaken
    cases htaken

theorem accumulateEventTraced_spec (now : UInt32) (value : HIDReportItemValue) (h : TraceInv t)
    (hactive : t.window.samplingWindowActive = true) :
    TraceInv (accumulateEventTraced d now value t) ∧
      (accumulateEventTraced d now value t).window.samplingWindowActive = true := by
  obtain ⟨hfirst, hactive₁, -⟩ := accumulateTraced_spec d value h hactive
  unfold accumulateEventTraced
  split
  · rename_i t₁ heq
    rw [heq] at hfirst hactive₁
    exact ⟨hfirst, hactive₁⟩
  · rename_i t₁ heq
    rw [heq] at hfirst hactive₁
    obtain ⟨hflush, hempty, hsame⟩ := flushSampledEventsTraced_spec hfirst
    -- Behind the flush the buffer is empty, so the second call cannot be refused.
    obtain ⟨hsecond, hactive₂, htaken⟩ := accumulateTraced_spec d value hflush (hsame.trans hactive₁)
    have htaken := htaken hempty
    split
    · rename_i t₂ heq₂
      rw [heq₂] at hsecond hactive₂
      exact ⟨hsecond.setStarted now, hactive₂⟩
    · rename_i t₂ heq₂
      rw [heq₂] at htaken
      cases htaken

variable (clock : ReportClock)

theorem accumulateRunTraced_spec (index : Nat) (run : List HIDReportItemValue) (h : TraceInv t)
    (hactive : t.window.samplingWindowActive = true) : TraceInv (accumulateRunTraced d clock index run t) := by
  induction run generalizing index t with
  | nil => exact h
  | cons value rest ih =>
    obtain ⟨hhead, hactive'⟩ := accumulateEventTraced_spec d (clock.reading index) value h hactive
    exact ih (index + 1) hhead hactive'

theorem emitRunTraced_spec (run : List HIDReportItemValue) (h : TraceInv t) :
    TraceInv (emitRunTraced d run t) := by
  induction run generalizing t with
  | nil => exact h
  | cons value rest ih => exact ih (h.emit (d.event (some value)))

theorem processRunTraced_spec (index : Nat) (run : List HIDReportItemValue) (h : TraceInv t) :
    TraceInv (processRunTraced d clock index run t) := by
  unfold processRunTraced
  split
  · rename_i hidle
    have hwindow := (emitRunTraced_records d run t).1
    have hempty : (emitRunTraced d run t).window.sampledEvents.pending = [] := by
      rw [hwindow]
      exact h.window.idle hidle
    exact ((emitRunTraced_spec d run h).setActive_empty hempty true).setStarted (clock.reading index)
  · rename_i hactive
    exact accumulateRunTraced_spec d clock index run h (by simpa using hactive)

theorem processValuesTraced_spec (interval : UInt32) (fuel index : Nat) (values : List HIDReportItemValue)
    (h : TraceInv t) : TraceInv (processValuesTraced interval d clock fuel index values t) := by
  induction fuel generalizing index values t with
  | zero => exact h
  | succ fuel ih =>
    cases values with
    | nil => exact h
    | cons value rest =>
      unfold processValuesTraced
      split
      · exact ih _ _ (h.emit (d.event (some value)))
      · split
        · exact ih _ _ (emitBarrierTraced_spec (d.event (some value)) h)
        · exact ih _ _ (processRunTraced_spec d clock index _ h)

theorem processDecodedReportTraced_spec (interval : UInt32) (h : TraceInv t) :
    TraceInv (processDecodedReportTraced interval d clock t) := by
  have hvalues := processValuesTraced_spec d clock interval d.values.length 0 d.values
    (updateSamplingWindowTraced_spec interval clock.update h)
  simp only [processDecodedReportTraced]
  split
  · exact emitBarrierTraced_spec (d.event none) hvalues
  · exact hvalues

end

/-! ## Runs -/

theorem traceInv_start : TraceInv {} where
  window := bufferInv_empty rfl rfl
  moments := by simp
  seen := by simp [TracedWindow.acts, seenKeys]
  lawful := atEvery_nil _

theorem coalescingStep_spec {interval : UInt32} {t : TracedWindow} (step : CoalescingStep) (h : TraceInv t) :
    TraceInv (coalescingStep interval t step) := by
  match step with
  | .sampling (.report clock d) => exact processDecodedReportTraced_spec d clock interval h
  | .sampling (.window now) => exact updateSamplingWindowTraced_spec interval now h
  | .reset => exact resetWindowTraced_spec h

theorem coalescingRun_spec (interval : UInt32) (steps : List CoalescingStep) :
    TraceInv (coalescingRun interval steps) := by
  induction steps using List.reverseRecOn with
  | nil => exact traceInv_start
  | append_singleton steps step ih =>
    rw [coalescingRun, List.foldl_append]
    exact coalescingStep_spec step ih

/-- The windows a run passes through, and the one it ends in. -/
def TracedWindow.windows (t : TracedWindow) : List SamplingWindow := t.history.map (·.window) ++ [t.window]

/-- Whatever is interleaved with whatever: the buffer stays within its 16 entries, with one entry for a key,
it is empty while the window is closed, it is drained in the order its keys were first seen since it was
last emptied, and no second `accumulate` is refused. The window and what is emitted are those of the code. -/
theorem coalescingRun_invariants (interval : UInt32) (steps : List CoalescingStep) :
    (∀ w ∈ (coalescingRun interval steps).windows,
      w.sampledEvents.capacity = 16 ∧ w.sampledEvents.pending.length ≤ 16 ∧
        (w.sampledEvents.pending.map (·.key)).Nodup ∧
        (w.samplingWindowActive = false → w.sampledEvents.pending = [])) ∧
    (∀ before entries after, (coalescingRun interval steps).acts = before ++ .drained entries :: after →
      entries.map (·.key) = seenKeys before) ∧
    (∀ key, .coalescingFailed key ∉ (coalescingRun interval steps).acts) ∧
    (coalescingRun interval steps).window = (windowRun interval steps).1 ∧
    (coalescingRun interval steps).events = (windowRun interval steps).2 := by
  have h := coalescingRun_spec interval steps
  refine ⟨?_, ?_, ?_, coalescingRun_records interval steps⟩
  · intro w hw
    have hinv : BufferInv w := by
      rcases List.mem_append.mp hw with hw | hw
      · obtain ⟨moment, hmem, rfl⟩ := List.mem_map.mp hw
        exact h.moments moment hmem
      · obtain rfl := List.mem_singleton.mp hw
        exact h.window
    exact ⟨hinv.capacity, hinv.capacity ▸ hinv.length, hinv.keys, hinv.idle⟩
  · intro before entries after hsplit
    exact h.lawful before (.drained entries) after hsplit
  · intro key hmem
    obtain ⟨before, after, hsplit⟩ := List.append_of_mem hmem
    exact h.lawful before (.coalescingFailed key) after hsplit

/-- A move opens the window, a report of 17 moves fills the buffer and drains it once under pressure. -/
example :
    let wide := mouseReportOf 2 ((List.range 17).map fun n => { move 1 with fieldId := n })
    let steps := [mouseReportOf 1 [move 1], wide].map fun d =>
      CoalescingStep.sampling (.report { update := 0, reading := fun _ => 0 } d)
    ((coalescingRun 500 steps).acts.filterMap fun act =>
      match act with
      | .drained entries => some (entries.map (·.key.fieldId))
      | _ => none) = [List.range 16] := by
  decide +kernel

end BleClientHid
