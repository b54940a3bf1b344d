import BleClientHid.Coalescing
import Mathlib.Data.List.Forall2

/-! # Shifted `seq_id`s

Reports whose `seq_id`s differ by a constant give the same events, up to
`seq_id_from` and `seq_id_to`.
-/

namespace BleClientHid

open OrderedEventBuffer

/-! ## Events -/

/-- The `seq_id` of a counter that is `d` ahead. -/
def shiftId (d n : Nat) : Nat := (n + d) % 2 ^ 64

def seqKeys : List String := ["seq_id_from", "seq_id_to"]

/-- The same entry, with a number shifted. -/
def ShiftedEntry (d : Nat) (entry entry' : String × String) : Prop :=
  entry'.1 = entry.1 ∧
    if entry.1 ∈ seqKeys then ∃ n, entry.2 = toString n ∧ entry'.2 = toString (shiftId d n) else entry'.2 = entry.2

/-- The same event but for the `seq_id`s; it has a first one. -/
structure ShiftedEvent (d : Nat) (event event' : HIDEvent) : Prop where
  data : List.Forall₂ (ShiftedEntry d) event.data event'.data
  first : (event.find "seq_id_from").isSome = true

abbrev ShiftedEvents (d : Nat) : List HIDEvent → List HIDEvent → Prop := List.Forall₂ (ShiftedEvent d)

section

variable {d : Nat} {event event' : HIDEvent} {key value value' : String}

theorem shiftedEntry_same (hkey : key ∉ seqKeys) (value : String) : ShiftedEntry d (key, value) (key, value) :=
  ⟨rfl, by rw [if_neg hkey]⟩

theorem shiftedEntry_id (hkey : key ∈ seqKeys) (n : Nat) :
    ShiftedEntry d (key, toString n) (key, toString (shiftId d n)) :=
  ⟨rfl, by rw [if_pos hkey]; exact ⟨n, rfl, rfl⟩⟩

theorem lookup_shifted {data data' : List (String × String)} (h : List.Forall₂ (ShiftedEntry d) data data')
    (key : String) :
    (data.lookup key = none ∧ data'.lookup key = none) ∨
      ∃ value value', data.lookup key = some value ∧ data'.lookup key = some value' ∧
        ShiftedEntry d (key, value) (key, value') := by
  induction h with
  | nil => exact .inl ⟨rfl, rfl⟩
  | @cons entry entry' data data' hentry _ ih =>
    obtain ⟨k, v⟩ := entry
    obtain ⟨k', v'⟩ := entry'
    obtain rfl : k' = k := hentry.1
    rw [List.lookup_cons, List.lookup_cons]
    cases hk : key == k' with
    | true =>
      obtain rfl := eq_of_beq hk
      exact .inr ⟨v, v', rfl, rfl, hentry⟩
    | false => exact ih

theorem assignEntry_shifted {data data' : List (String × String)} (h : List.Forall₂ (ShiftedEntry d) data data')
    (hentry : ShiftedEntry d (key, value) (key, value')) :
    List.Forall₂ (ShiftedEntry d) (HIDEvent.assignEntry key value data)
      (HIDEvent.assignEntry key value' data') := by
  induction h with
  | nil => exact .cons hentry .nil
  | @cons entry entry' data data' hhead htail ih =>
    obtain ⟨k, v⟩ := entry
    obtain ⟨k', v'⟩ := entry'
    obtain rfl : k' = k := hhead.1
    unfold HIDEvent.assignEntry
    split
    · exact .cons hentry htail
    · exact .cons hhead ih

namespace ShiftedEvent

theorem find_isSome (h : ShiftedEvent d event event') (key : String) :
    (event'.find key).isSome = (event.find key).isSome := by
  obtain ⟨hnone, hnone'⟩ | ⟨v, v', hv, hv', -⟩ := lookup_shifted h.data key
  · unfold HIDEvent.find
    rw [hnone, hnone']
  · unfold HIDEvent.find
    rw [hv, hv']
    rfl

theorem firstId (h : ShiftedEvent d event event') :
    ShiftedEntry d ("seq_id_from", (event.find "seq_id_from").getD "")
      ("seq_id_from", (event'.find "seq_id_from").getD "") := by
  have hfirst := h.first
  obtain ⟨hnone, -⟩ | ⟨v, v', hv, hv', hentry⟩ := lookup_shifted h.data "seq_id_from"
  · unfold HIDEvent.find at hfirst
    rw [hnone] at hfirst
    simp at hfirst
  · unfold HIDEvent.find
    rw [hv, hv']
    exact hentry

theorem assign (h : ShiftedEvent d event event') (hentry : ShiftedEntry d (key, value) (key, value')) :
    ShiftedEvent d (event.assign key value) (event'.assign key value') := by
  refine ⟨assignEntry_shifted h.data hentry, ?_⟩
  by_cases hkey : "seq_id_from" = key
  · rw [← hkey, HIDEvent.find_assign_self]
    rfl
  · rw [HIDEvent.find_assign_ne event hkey]
    exact h.first

theorem emplace (h : ShiftedEvent d event event') (hkey : key ∉ seqKeys) (value : String) :
    ShiftedEvent d (event.emplace key value) (event'.emplace key value) := by
  unfold HIDEvent.emplace
  rw [h.find_isSome]
  split
  · exact h
  · refine ⟨List.rel_append h.data (.cons (shiftedEntry_same hkey value) .nil), ?_⟩
    have hfirst := h.first
    unfold HIDEvent.find at hfirst ⊢
    rw [List.lookup_append, Option.isSome_or, hfirst, Bool.true_or]

end ShiftedEvent

end

/-- The same report of a counter that is `d` ahead. -/
def shiftReport (d : Nat) (report : PendingHIDReport) : PendingHIDReport :=
  { report with seqId := shiftId d report.seqId }

section

variable (d : Nat) (view : EventView) (report : PendingHIDReport) (raw : String) (status : HIDDecodeStatus)

theorem envelope_shifted :
    ShiftedEvent d (envelope view report raw status) (envelope view (shiftReport d report) raw status) := by
  have hid {key : String} (hkey : key ∈ seqKeys) := shiftedEntry_id (d := d) hkey report.seqId
  have hsame {key : String} (hkey : key ∉ seqKeys) (value : String) := shiftedEntry_same (d := d) hkey value
  refine ⟨?_, rfl⟩
  refine .cons (hsame (by decide) _) (.cons (hsame (by decide) _) (.cons (hsame (by decide) _)
    (.cons (hsame (by decide) _) (.cons (hsame (by decide) _) (.cons (hsame (by decide) _)
    (.cons (hsame (by decide) _) (.cons (hsame (by decide) _) (.cons (hsame (by decide) _)
    (.cons (hsame (by decide) _) (.cons (hid (by decide)) (.cons (hid (by decide)) .nil)))))))))))

theorem withProfileId_shifted {event event' : HIDEvent} (h : ShiftedEvent d event event') :
    ShiftedEvent d (withProfileId view report event) (withProfileId view (shiftReport d report) event') := by
  unfold withProfileId
  dsimp only [shiftReport]
  split
  · exact h
  · split
    · exact h
    · exact h.emplace (by decide) _

theorem withValue_shifted (platform : Platform) (value : HIDReportItemValue) {event event' : HIDEvent}
    (h : ShiftedEvent d event event') : ShiftedEvent d (withValue platform value event)
      (withValue platform value event') := by
  have hname {event event' : HIDEvent} (h : ShiftedEvent d event event') :
      ShiftedEvent d (withApplicationName platform value.applicationUsage event)
        (withApplicationName platform value.applicationUsage event') := by
    unfold withApplicationName
    split
    · exact h
    · exact h.emplace (by decide) _
  unfold withValue
  refine .emplace (.emplace (.emplace (hname ?_) (by decide) _) (by decide) _) (by decide) _
  refine .emplace (.emplace (.emplace (.emplace ?_ (by decide) _) (by decide) _) (by decide) _) (by decide) _
  exact .emplace (.emplace (.emplace h (by decide) _) (by decide) _) (by decide) _

theorem makeHidEvent_shifted (value : Option HIDReportItemValue) :
    ShiftedEvent d (makeHidEvent view report raw value status)
      (makeHidEvent view (shiftReport d report) raw value status) := by
  have henvelope := withProfileId_shifted d view report (envelope_shifted d view report raw status)
  cases value with
  | none => exact henvelope
  | some value => exact withValue_shifted d view.platform value henvelope

end

/-! ## The buffer -/

def ShiftedPending (d : Nat) (pending pending' : PendingEvent) : Prop :=
  pending' = { pending with event := pending'.event } ∧ ShiftedEvent d pending.event pending'.event

structure ShiftedBuffer (d : Nat) (buffer buffer' : OrderedEventBuffer) : Prop where
  capacity : buffer'.capacity = buffer.capacity
  pending : List.Forall₂ (ShiftedPending d) buffer.pending buffer'.pending

section

variable {d : Nat} {buffer buffer' : OrderedEventBuffer} {event event' : HIDEvent} (key : SampledEventKey)
  (aggregation : Aggregation) (value rawValue : Int)

theorem values_shifted (h : ShiftedEvent d event event') (value rawValue : Int) :
    ShiftedEvent d ((event.assign "value" (toString value)).assign "raw_value" (toString rawValue))
      ((event'.assign "value" (toString value)).assign "raw_value" (toString rawValue)) :=
  (h.assign (shiftedEntry_same (by decide) _)).assign (shiftedEntry_same (by decide) _)

theorem mergeEvent_shifted (h : ShiftedEvent d event event') {pending pending' : PendingEvent}
    (hpending : ShiftedPending d pending pending') :
    ShiftedPending d (mergeEvent aggregation value rawValue event pending)
      (mergeEvent aggregation value rawValue event' pending') := by
  obtain ⟨heq, hevent⟩ := hpending
  have hfirst := hevent.firstId
  generalize pending'.event = e' at heq hfirst
  subst heq
  exact ⟨rfl, (values_shifted h _ _).assign hfirst⟩

theorem mergePending_shifted (h : ShiftedEvent d event event') {pending pending' : List PendingEvent}
    (hpending : List.Forall₂ (ShiftedPending d) pending pending') :
    Option.Rel (List.Forall₂ (ShiftedPending d)) (mergePending key
      (mergeEvent aggregation value rawValue event) pending)
      (mergePending key (mergeEvent aggregation value rawValue event') pending') := by
  induction hpending with
  | nil => exact .none
  | @cons entry entry' rest rest' hentry hrest ih =>
    have hkey : entry'.key = entry.key := by rw [hentry.1]
    unfold mergePending
    rw [hkey]
    split
    · exact .some (.cons (mergeEvent_shifted aggregation value rawValue h hentry) hrest)
    · generalize mergePending key (mergeEvent aggregation value rawValue event) rest = merged,
        mergePending key (mergeEvent aggregation value rawValue event') rest' = merged' at ih
      cases ih with
      | none => exact .none
      | some ih => exact .some (.cons hentry ih)

theorem accumulate_shifted (hbuffer : ShiftedBuffer d buffer buffer') (h : ShiftedEvent d event event') :
    Option.Rel (ShiftedBuffer d) (buffer.accumulate key aggregation value rawValue event)
      (buffer'.accumulate key aggregation value rawValue event') := by
  have hmerged := mergePending_shifted key aggregation value rawValue h hbuffer.pending
  unfold OrderedEventBuffer.accumulate
  generalize mergePending key (mergeEvent aggregation value rawValue event) buffer.pending = merged,
    mergePending key (mergeEvent aggregation value rawValue event') buffer'.pending = merged' at hmerged
  cases hmerged with
  | some hmerged => exact .some ⟨hbuffer.capacity, hmerged⟩
  | none =>
    dsimp only
    rw [hbuffer.capacity, ← hbuffer.pending.length_eq]
    split
    · exact .none
    · exact .some ⟨rfl, List.rel_append hbuffer.pending (.cons ⟨rfl, values_shifted h _ _⟩ .nil)⟩

theorem drain_shifted (h : ShiftedBuffer d buffer buffer') :
    ShiftedBuffer d buffer.drain.1 buffer'.drain.1 ∧ ShiftedEvents d buffer.drain.2 buffer'.drain.2 := by
  refine ⟨⟨h.capacity, .nil⟩, ?_⟩
  exact List.rel_map (fun _ _ hpending => hpending.2) h.pending

theorem empty_shifted (h : ShiftedBuffer d buffer buffer') : buffer'.empty = buffer.empty := by
  unfold OrderedEventBuffer.empty
  have hpending := h.pending
  generalize buffer.pending = pending, buffer'.pending = pending' at hpending ⊢
  cases hpending <;> rfl

end

/-! ## The window -/

/-- The start of a window only counts while it is open. -/
structure ShiftedWindow (d : Nat) (w w' : SamplingWindow) : Prop where
  events : ShiftedBuffer d w.sampledEvents w'.sampledEvents
  active : w'.samplingWindowActive = w.samplingWindowActive
  started : w.samplingWindowActive = true → w'.samplingWindowStartedUs = w.samplingWindowStartedUs

/-- A window and the events that went out. -/
def ShiftedOutcome (d : Nat) (outcome outcome' : SamplingWindow × List HIDEvent) : Prop :=
  ShiftedWindow d outcome.1 outcome'.1 ∧ ShiftedEvents d outcome.2 outcome'.2

section

variable {d : Nat} {w w' : SamplingWindow}

theorem ShiftedOutcome.prepend {outcome outcome' : SamplingWindow × List HIDEvent} {events events' : List HIDEvent}
    (h : ShiftedOutcome d outcome outcome') (hevents : ShiftedEvents d events events') :
    ShiftedOutcome d (outcome.1, events ++ outcome.2) (outcome'.1, events' ++ outcome'.2) :=
  ⟨h.1, List.rel_append hevents h.2⟩

theorem flushSampledEvents_shifted (h : ShiftedWindow d w w') :
    ShiftedOutcome d (flushSampledEvents w) (flushSampledEvents w') := by
  unfold flushSampledEvents
  rw [empty_shifted h.events]
  split
  · exact ⟨h, .nil⟩
  · obtain ⟨hbuffer, hevents⟩ := drain_shifted h.events
    exact ⟨⟨hbuffer, h.active, h.started⟩, hevents⟩

theorem updateSamplingWindow_shifted (interval now : UInt32) (h : ShiftedWindow d w w') :
    ShiftedOutcome d (updateSamplingWindow interval now w) (updateSamplingWindow interval now w') := by
  unfold updateSamplingWindow
  rw [h.active, empty_shifted h.events]
  split
  · exact ⟨h, .nil⟩
  · rename_i hopen
    have hactive : w.samplingWindowActive = true := by
      rw [not_or, Bool.not_eq_false] at hopen
      exact hopen.1
    rw [h.started hactive]
    split
    · exact ⟨h, .nil⟩
    · split
      · exact ⟨⟨h.events, rfl, fun hactive => by simp at hactive⟩, .nil⟩
      · obtain ⟨hwindow, hevents⟩ := flushSampledEvents_shifted h
        exact ⟨⟨hwindow.events, hwindow.active, fun _ => rfl⟩, hevents⟩

theorem emitBarrier_shifted {barrier barrier' : HIDEvent} (hbarrier : ShiftedEvent d barrier barrier')
    (h : ShiftedWindow d w w') : ShiftedOutcome d (emitBarrier barrier w) (emitBarrier barrier' w') := by
  obtain ⟨hbuffer, hevents⟩ := drain_shifted h.events
  exact ⟨⟨hbuffer, rfl, fun hactive => by simp [emitBarrier] at hactive⟩,
    List.rel_append hevents (.cons hbarrier .nil)⟩

/-! ## A report -/

def DecodedReport.shift (d : Nat) (r : DecodedReport) : DecodedReport := { r with report := shiftReport d r.report }

variable (r : DecodedReport) (clock : ReportClock)

theorem event_shifted (value : Option HIDReportItemValue) :
    ShiftedEvent d (r.event value) ((r.shift d).event value) :=
  makeHidEvent_shifted d r.view r.report r.raw r.status value

theorem accumulateEvent_shifted (now : UInt32) (value : HIDReportItemValue) (h : ShiftedWindow d w w') :
    ShiftedOutcome d (accumulateEvent r now value w) (accumulateEvent (r.shift d) now value w') := by
  have haccumulate {buffer buffer' : OrderedEventBuffer} (hbuffer : ShiftedBuffer d buffer buffer') :
      Option.Rel (ShiftedBuffer d) (buffer.accumulate (r.sampledKey value) value.aggregation value.value
        value.rawValue
          (r.event (some value)))
        (buffer'.accumulate ((r.shift d).sampledKey value) value.aggregation value.value value.rawValue
          ((r.shift d).event (some value))) :=
    accumulate_shifted (r.sampledKey value) value.aggregation value.value value.rawValue hbuffer
      (event_shifted r (some value))
  have hfirst := haccumulate h.events
  obtain ⟨hflushed, hevents⟩ := flushSampledEvents_shifted h
  have hagain := haccumulate hflushed.events
  unfold accumulateEvent
  dsimp only
  generalize w.sampledEvents.accumulate _ _ _ _ _ = first, w'.sampledEvents.accumulate _ _ _ _ _ =
    first' at hfirst ⊢
  cases hfirst with
  | some hfirst => exact ⟨⟨hfirst, h.active, h.started⟩, .nil⟩
  | none =>
    refine ⟨⟨?_, hflushed.active, fun _ => rfl⟩, hevents⟩
    dsimp only
    generalize (flushSampledEvents w).1.sampledEvents.accumulate _ _ _ _ _ = again,
      (flushSampledEvents w').1.sampledEvents.accumulate _ _ _ _ _ = again' at hagain ⊢
    cases hagain with
    | some hagain => exact hagain
    | none => exact hflushed.events

theorem accumulateRun_shifted (index : Nat) (values : List HIDReportItemValue) (h : ShiftedWindow d w w') :
    ShiftedOutcome d (accumulateRun r clock index values w) (accumulateRun (r.shift d) clock index values w') := by
  induction values generalizing index w w' with
  | nil => exact ⟨h, .nil⟩
  | cons value rest ih =>
    obtain ⟨hwindow, hevents⟩ := accumulateEvent_shifted r (clock.reading index) value h
    exact (ih (index + 1) hwindow).prepend hevents

theorem processRun_shifted (index : Nat) (run : List HIDReportItemValue) (h : ShiftedWindow d w w') :
    ShiftedOutcome d (processRun r clock index run w) (processRun (r.shift d) clock index run w') := by
  unfold processRun
  rw [h.active]
  split
  · refine ⟨⟨h.events, rfl, fun _ => rfl⟩, ?_⟩
    rw [ShiftedEvents, List.forall₂_map_left_iff, List.forall₂_map_right_iff, List.forall₂_same]
    exact fun value _ => event_shifted r (some value)
  · exact accumulateRun_shifted r clock index run h

theorem processValues_shifted (interval : UInt32) (fuel index : Nat) (values : List HIDReportItemValue)
    (h : ShiftedWindow d w w') :
    ShiftedOutcome d (processValues interval r clock fuel index values w)
      (processValues interval (r.shift d) clock fuel index values w') := by
  induction fuel generalizing index values w w' with
  | zero => exact ⟨h, .nil⟩
  | succ fuel ih =>
    cases values with
    | nil => exact ⟨h, .nil⟩
    | cons value rest =>
      unfold processValues
      split
      · exact (ih (index + 1) rest h).prepend (.cons (event_shifted r (some value)) .nil)
      · split
        · obtain ⟨hwindow, hevents⟩ := emitBarrier_shifted (event_shifted r (some value)) h
          exact (ih (index + 1) rest hwindow).prepend hevents
        · obtain ⟨hwindow, hevents⟩ := processRun_shifted r clock index (value :: rest.takeWhile mergeable) h
          exact (ih _ _ hwindow).prepend hevents

theorem processDecodedReport_shifted (interval : UInt32) (h : ShiftedWindow d w w') :
    ShiftedOutcome d (processDecodedReport interval r clock w)
      (processDecodedReport interval (r.shift d) clock w') := by
  obtain ⟨hwindow, hevents⟩ := updateSamplingWindow_shifted interval clock.update h
  have hvalues : ShiftedOutcome d (processDecodedValues interval r clock w)
      (processDecodedValues interval (r.shift d) clock w') :=
    (processValues_shifted r clock interval r.values.length 0 r.values hwindow).prepend hevents
  have hsame : (r.shift d).values = r.values ∧ (r.shift d).recognized = r.recognized := ⟨rfl, rfl⟩
  unfold processDecodedReport
  dsimp only
  rw [hsame.1, hsame.2]
  split
  · exact (emitBarrier_shifted (event_shifted r none) hvalues.1).prepend hvalues.2
  · exact hvalues

end

end BleClientHid
