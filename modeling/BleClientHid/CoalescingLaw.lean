import BleClientHid.Coalescing
import Mathlib.Data.List.Induction
import Mathlib.Data.List.TakeWhile

/-! # The coalescing law

Every run of the sampling window explains what it emits: as blocks of the
contributions that came in, and as barriers.
-/

namespace BleClientHid

open Lib OrderedEventBuffer

/-! ## Values -/

/-- The range of `int64_t`. -/
def Int64Range (v : Int) : Prop := int64Min ≤ v ∧ v ≤ int64Max

/-- The sum, or the end of the range it runs over. -/
def clampAdd (left right : Int) : Int := max int64Min (min int64Max (left + right))

theorem clampAdd_range (left right : Int) : Int64Range (clampAdd left right) := by
  simp only [Int64Range, clampAdd, int64Min, int64Max]
  omega

theorem saturatingAdd_eq {left : Int} (hl : Int64Range left) (right : Int) :
    saturatingAdd left right = clampAdd left right := by
  obtain ⟨hl1, hl2⟩ := hl
  have hmax : 0 ≤ int64Max := by decide
  have hmin : int64Min ≤ 0 := by decide
  rw [saturatingAdd, clampAdd]
  split
  · omega
  · split <;> omega

/-- What a block of values stands for: its sum, or its last value. -/
def combine (mode : Aggregation) (first : Int) (rest : List Int) : Int :=
  if mode = .sum then rest.foldl clampAdd first else rest.getLastD first

theorem combine_append (mode : Aggregation) (first : Int) (rest : List Int) (v : Int) :
    combine mode first (rest ++ [v]) =
      if mode = .sum then clampAdd (combine mode first rest) v else v := by
  rw [combine, combine]
  split <;> simp

/-! ## Arrivals -/

/-- A mergeable value of a report, with the event that it would make alone. -/
structure Contribution where
  value : Int
  rawValue : Int
  seqId : Nat
  event : HIDEvent

abbrev SampledBlock := Block SampledEventKey Contribution
abbrev SampledArrival := Arrival SampledEventKey Contribution HIDEvent
abbrev SampledEmission := Emission SampledEventKey Contribution HIDEvent

namespace DecodedReport

def contribution (d : DecodedReport) (value : HIDReportItemValue) : Contribution :=
  { value := value.value, rawValue := value.rawValue, seqId := d.report.seqId, event := d.event (some value) }

def arrival (d : DecodedReport) (value : HIDReportItemValue) : SampledArrival :=
  if mergeable value then .contribution (d.sampledKey value) (d.contribution value)
  else .barrier (d.event (some value))

/-- What a report brings; an undecodable one brings a raw barrier. -/
def arrivals (d : DecodedReport) : List SampledArrival :=
  if d.values.isEmpty && !d.recognized then [.barrier (d.event none)] else d.values.map d.arrival

/-- The values are `int64_t`s, and each key keeps one mode. -/
structure Mode (mode : SampledEventKey → Aggregation) (d : DecodedReport) : Prop where
  aggregation : ∀ value ∈ d.values, mergeable value → value.aggregation = mode (d.sampledKey value)
  value : ∀ value ∈ d.values, Int64Range value.value
  rawValue : ∀ value ∈ d.values, Int64Range value.rawValue

end DecodedReport

/-! ## What an emitted event carries -/

/-- The event of a block: combined values, the span of `seq_id`s, and otherwise the last contribution. -/
structure CarriesBlock (mode : Aggregation) (b : SampledBlock) (event : HIDEvent) : Prop where
  value : event.find "value" =
    some (toString (combine mode b.first.value (b.rest.map (·.value))))
  rawValue : event.find "raw_value" =
    some (toString (combine mode b.first.rawValue (b.rest.map (·.rawValue))))
  seqIdFrom : event.find "seq_id_from" = some (toString b.first.seqId)
  seqIdTo : event.find "seq_id_to" = some (toString b.last.seqId)
  others : ∀ key ∉ ["value", "raw_value", "seq_id_from"], event.find key = b.last.event.find key

/-- A block goes out as one event that carries it, a barrier as it came. -/
inductive Carries (mode : SampledEventKey → Aggregation) : SampledEmission → HIDEvent → Prop
  | block {b : SampledBlock} {event : HIDEvent} (h : CarriesBlock (mode b.key) b event) :
      Carries mode (.block b) event
  | barrier (event : HIDEvent) : Carries mode (.barrier event) event

theorem carriesBlock_single (mode : Aggregation) (d : DecodedReport) (value : HIDReportItemValue) :
    CarriesBlock mode { key := d.sampledKey value, first := d.contribution value } (d.event (some value)) := by
  have hvalue : (d.event (some value)).find "value" = some (toString value.value) :=
    find_makeHidEvent_entry _ _ _ _ value (by simp [valueEntries])
  have hraw : (d.event (some value)).find "raw_value" = some (toString value.rawValue) :=
    find_makeHidEvent_entry _ _ _ _ value (by simp [valueEntries])
  have hfrom : (d.event (some value)).find "seq_id_from" = some (toString d.report.seqId) :=
    find_makeHidEvent_envelope _ _ _ _ _ (by simp [envelope])
  have hto : (d.event (some value)).find "seq_id_to" = some (toString d.report.seqId) :=
    find_makeHidEvent_envelope _ _ _ _ _ (by simp [envelope])
  constructor
  · simp [hvalue, combine, DecodedReport.contribution]
  · simp [hraw, combine, DecodedReport.contribution]
  · exact hfrom
  · exact hto
  · exact fun _ _ => rfl

/-- A pending event holds an open block. -/
structure Holds (mode : SampledEventKey → Aggregation) (b : SampledBlock) (p : PendingEvent) : Prop where
  key : p.key = b.key
  value : p.value = combine (mode b.key) b.first.value (b.rest.map (·.value))
  rawValue : p.rawValue = combine (mode b.key) b.first.rawValue (b.rest.map (·.rawValue))
  valueRange : Int64Range p.value
  rawValueRange : Int64Range p.rawValue
  carries : CarriesBlock (mode b.key) b p.event

section

variable {mode : SampledEventKey → Aggregation} {d : DecodedReport} {value : HIDReportItemValue}

theorem holds_single (hv : Int64Range value.value) (hr : Int64Range value.rawValue) :
    Holds mode { key := d.sampledKey value, first := d.contribution value }
      { key := d.sampledKey value, aggregation := value.aggregation, value := value.value,
        rawValue := value.rawValue
        event := ((d.event (some value)).assign "value" (toString value.value)).assign "raw_value"
          (toString value.rawValue) } where
  key := rfl
  value := by simp [combine, DecodedReport.contribution]
  rawValue := by simp [combine, DecodedReport.contribution]
  valueRange := hv
  rawValueRange := hr
  carries := by
    have hsingle := carriesBlock_single (mode (d.sampledKey value)) d value
    constructor
    · rw [HIDEvent.find_assign_ne _ (by decide), HIDEvent.find_assign_self]
      simp [combine, DecodedReport.contribution]
    · rw [HIDEvent.find_assign_self]
      simp [combine, DecodedReport.contribution]
    · rw [HIDEvent.find_assign_ne _ (by decide), HIDEvent.find_assign_ne _ (by decide)]
      exact hsingle.seqIdFrom
    · rw [HIDEvent.find_assign_ne _ (by decide), HIDEvent.find_assign_ne _ (by decide)]
      exact hsingle.seqIdTo
    · intro key hkey
      simp only [List.mem_cons, List.not_mem_nil, or_false, not_or] at hkey
      rw [HIDEvent.find_assign_ne _ hkey.2.1, HIDEvent.find_assign_ne _ hkey.1]
      rfl

/-- One more contribution of the key, with the mode of the key. -/
theorem Holds.merge {b : SampledBlock} {p : PendingEvent} (h : Holds mode b p)
    (hkey : b.key = d.sampledKey value) (hmode : value.aggregation = mode (d.sampledKey value))
    (hv : Int64Range value.value) (hr : Int64Range value.rawValue) :
    Holds mode { b with rest := b.rest ++ [d.contribution value] }
      (mergeEvent value.aggregation value.value value.rawValue (d.event (some value)) p) := by
  have hmode' : value.aggregation = mode b.key := hmode.trans (by rw [hkey])
  -- the sum saturates at each step, as the left fold of combine does
  have hvalue : (if value.aggregation = .sum then saturatingAdd p.value value.value else value.value) =
      combine (mode b.key) b.first.value ((b.rest ++ [d.contribution value]).map (·.value)) := by
    rw [List.map_append, List.map_singleton, combine_append, hmode', saturatingAdd_eq h.valueRange, h.value]
    rfl
  have hraw : (if value.aggregation = .sum then saturatingAdd p.rawValue value.rawValue
      else value.rawValue) =
      combine (mode b.key) b.first.rawValue ((b.rest ++ [d.contribution value]).map (·.rawValue)) := by
    rw [List.map_append, List.map_singleton, combine_append, hmode', saturatingAdd_eq h.rawValueRange,
      h.rawValue]
    rfl
  have hlast : ({ b with rest := b.rest ++ [d.contribution value] } : SampledBlock).last =
      d.contribution value := by simp [Block.last]
  -- the merged event keeps the first seq_id_from
  have hseq := h.carries.seqIdFrom
  refine ⟨h.key, hvalue, hraw, ?_, ?_, ?_⟩
  · simp only [mergeEvent]
    split
    · rw [saturatingAdd_eq h.valueRange]
      exact clampAdd_range _ _
    · exact hv
  · simp only [mergeEvent]
    split
    · rw [saturatingAdd_eq h.rawValueRange]
      exact clampAdd_range _ _
    · exact hr
  · simp only [mergeEvent, hvalue, hraw, hseq, Option.getD_some]
    constructor
    · rw [HIDEvent.find_assign_ne _ (by decide), HIDEvent.find_assign_ne _ (by decide),
        HIDEvent.find_assign_self]
    · rw [HIDEvent.find_assign_ne _ (by decide), HIDEvent.find_assign_self]
    · rw [HIDEvent.find_assign_self]
    · rw [HIDEvent.find_assign_ne _ (by decide), HIDEvent.find_assign_ne _ (by decide),
        HIDEvent.find_assign_ne _ (by decide), hlast]
      -- seq_id_to is that of the report merged last
      have hto : (d.event (some value)).find "seq_id_to" = some (toString d.report.seqId) :=
        find_makeHidEvent_envelope _ _ _ _ _ (by simp [envelope])
      exact hto
    · intro key hkey
      simp only [List.mem_cons, List.not_mem_nil, or_false, not_or] at hkey
      rw [HIDEvent.find_assign_ne _ hkey.2.2, HIDEvent.find_assign_ne _ hkey.2.1,
        HIDEvent.find_assign_ne _ hkey.1, hlast]
      rfl

end

/-! ## The invariant -/

/-- The emissions that explain what went out, and the blocks that are still open. -/
structure Explanation (mode : SampledEventKey → Aggregation) (w : SamplingWindow)
    (arrivals : List SampledArrival) (events : List HIDEvent) (emissions : List SampledEmission)
    (blocks : List SampledBlock) : Prop where
  carries : List.Forall₂ (Carries mode) emissions events
  holds : List.Forall₂ (Holds mode) blocks w.sampledEvents.pending
  coalesces : Coalesces arrivals (emissions ++ blocks.map .block)
  keys : (blocks.map (·.key)).Nodup

def Explained (mode : SampledEventKey → Aggregation) (w : SamplingWindow)
    (arrivals : List SampledArrival) (events : List HIDEvent) : Prop :=
  ∃ emissions blocks, Explanation mode w arrivals events emissions blocks

/-- An idle window has nothing pending, so what comes next may go out at once. -/
structure WindowInv (w : SamplingWindow) : Prop where
  idle : w.samplingWindowActive = false → w.sampledEvents.pending = []
  capacity : w.sampledEvents.capacity = 16

section

variable {mode : SampledEventKey → Aggregation} {w : SamplingWindow} {arrivals : List SampledArrival}
  {events : List HIDEvent}

theorem Explanation.blocks_nil {emissions : List SampledEmission} {blocks : List SampledBlock}
    (h : Explanation mode w arrivals events emissions blocks) (hempty : w.sampledEvents.pending = []) :
    blocks = [] := by
  have := h.holds
  rw [hempty] at this
  exact List.forall₂_nil_right_iff.mp this

/-- With nothing pending, emissions for what arrives go out behind all others. -/
theorem Explained.emit (h : Explained mode w arrivals events) (hempty : w.sampledEvents.pending = [])
    {v : SamplingWindow} (hempty' : v.sampledEvents.pending = []) {emission : SampledEmission}
    {event : HIDEvent} (hcarries : Carries mode emission event) :
    Explained mode v (arrivals ++ emission.arrivals) (events ++ [event]) := by
  obtain ⟨emissions, blocks, hex⟩ := h
  obtain rfl := hex.blocks_nil hempty
  refine ⟨emissions ++ [emission], [], ?_, ?_, ?_, List.nodup_nil⟩
  · exact List.rel_append hex.carries (.cons hcarries .nil)
  · rw [hempty']
    exact .nil
  · have hold := hex.coalesces
    rw [List.map_nil, List.append_nil] at hold ⊢
    exact hold.append (.emit emission)

theorem forall₂_pending {blocks : List SampledBlock} {pending : List PendingEvent}
    (h : List.Forall₂ (Holds mode) blocks pending) :
    List.Forall₂ (Carries mode) (blocks.map .block) (pending.map (·.event)) := by
  induction h with
  | nil => exact .nil
  | cons hhead _ ih => exact .cons (.block hhead.carries) ih

theorem Explained.drain (h : Explained mode w arrivals events) {v : SamplingWindow}
    (hempty' : v.sampledEvents.pending = []) :
    Explained mode v arrivals (events ++ w.sampledEvents.drain.2) := by
  obtain ⟨emissions, blocks, hex⟩ := h
  refine ⟨emissions ++ blocks.map .block, [], ?_, ?_, ?_, List.nodup_nil⟩
  · exact List.rel_append hex.carries (forall₂_pending hex.holds)
  · rw [hempty']
    exact .nil
  · rw [List.map_nil, List.append_nil]
    exact hex.coalesces

theorem Explained.window (h : Explained mode w arrivals events) {w' : SamplingWindow}
    (hsame : w'.sampledEvents.pending = w.sampledEvents.pending) : Explained mode w' arrivals events := by
  obtain ⟨emissions, blocks, hex⟩ := h
  exact ⟨emissions, blocks, hex.carries, hsame ▸ hex.holds, hex.coalesces, hex.keys⟩

theorem empty_iff (b : OrderedEventBuffer) : b.empty = true ↔ b.pending = [] := by
  simp [OrderedEventBuffer.empty]

theorem flushSampledEvents_spec (h : Explained mode w arrivals events) :
    Explained mode (flushSampledEvents w).1 arrivals (events ++ (flushSampledEvents w).2) ∧
      (flushSampledEvents w).1.sampledEvents.pending = [] ∧
      (flushSampledEvents w).1.sampledEvents.capacity = w.sampledEvents.capacity ∧
      (flushSampledEvents w).1.samplingWindowActive = w.samplingWindowActive := by
  unfold flushSampledEvents
  split
  · rename_i hempty
    exact ⟨by simpa using h, (empty_iff _).mp hempty, rfl, rfl⟩
  · exact ⟨h.drain rfl, rfl, rfl, rfl⟩

theorem updateSamplingWindow_spec (interval now : UInt32) (h : Explained mode w arrivals events)
    (hinv : WindowInv w) :
    Explained mode (updateSamplingWindow interval now w).1 arrivals
        (events ++ (updateSamplingWindow interval now w).2) ∧
      WindowInv (updateSamplingWindow interval now w).1 := by
  have hsame : Explained mode w arrivals (events ++ []) ∧ WindowInv w := ⟨by simpa using h, hinv⟩
  unfold updateSamplingWindow
  split
  · exact hsame
  · split
    · exact hsame
    · split
      · rename_i hempty
        have hnil := (empty_iff _).mp hempty
        refine ⟨?_, fun _ => hnil, hinv.capacity⟩
        rw [List.append_nil]
        exact h.window rfl
      · obtain ⟨hflush, hnil, hcap, -⟩ := flushSampledEvents_spec h
        exact ⟨hflush.window rfl, fun _ => hnil, hcap.trans hinv.capacity⟩

theorem emitBarrier_spec (barrier : HIDEvent) (h : Explained mode w arrivals events)
    (hinv : WindowInv w) :
    Explained mode (emitBarrier barrier w).1 (arrivals ++ [.barrier barrier])
        (events ++ (emitBarrier barrier w).2) ∧
      WindowInv (emitBarrier barrier w).1 := by
  refine ⟨?_, fun _ => rfl, hinv.capacity⟩
  have hdrain := (h.drain (v := (emitBarrier barrier w).1) rfl).emit rfl
    (v := (emitBarrier barrier w).1) rfl (Carries.barrier barrier)
  rwa [List.append_assoc] at hdrain

/-! ## Accumulation -/

variable {d : DecodedReport} {value : HIDReportItemValue}

theorem mergePending_spec (merge : PendingEvent → PendingEvent) {blocks : List SampledBlock}
    {pending : List PendingEvent}
    (h : List.Forall₂ (Holds mode) blocks pending) {k : SampledEventKey}
    {c : Contribution} (hmerge : ∀ b p, Holds mode b p → b.key = k →
      Holds mode { b with rest := b.rest ++ [c] } (merge p)) :
    match mergePending k merge pending with
    | some pending' => List.Forall₂ (Holds mode) (joinBlock k c blocks) pending'
    | none => k ∉ blocks.map (·.key) ∧ joinBlock k c blocks = blocks ++ [{ key := k, first := c }] := by
  induction h with
  | nil => exact ⟨by simp, rfl⟩
  | @cons b p blocks pending hhead htail ih =>
    rw [mergePending, joinBlock, hhead.key]
    by_cases hk : b.key = k
    · rw [if_pos hk, if_pos hk]
      exact .cons (hmerge b p hhead hk) htail
    · rw [if_neg hk, if_neg hk]
      cases hrest : mergePending k merge pending with
      | some pending' =>
        rw [hrest] at ih
        exact .cons hhead ih
      | none =>
        rw [hrest] at ih
        exact ⟨by simpa [Ne.symm hk] using ih.1, by simp [ih.2]⟩

/-- A contribution that the buffer takes joins the block of its key. -/
theorem accumulate_spec (h : Explained mode w arrivals events)
    (hmode : value.aggregation = mode (d.sampledKey value)) (hv : Int64Range value.value)
    (hr : Int64Range value.rawValue) {buffer : OrderedEventBuffer}
    (hacc : w.sampledEvents.accumulate (d.sampledKey value) value.aggregation value.value value.rawValue
      (d.event (some value)) = some buffer) :
    Explained mode { w with sampledEvents := buffer }
        (arrivals ++ [.contribution (d.sampledKey value) (d.contribution value)]) events ∧
      buffer.capacity = w.sampledEvents.capacity := by
  obtain ⟨emissions, blocks, hex⟩ := h
  have hspec := mergePending_spec (mergeEvent value.aggregation value.value value.rawValue (d.event (some value)))
    hex.holds (c := d.contribution value) (k := d.sampledKey value)
    fun b p hb hkey => hb.merge hkey hmode hv hr
  have hcoalesces := hex.coalesces.join hex.keys (d.sampledKey value) (d.contribution value)
  rw [accumulate] at hacc
  split at hacc
  · rename_i pending hmerge
    rw [hmerge] at hspec
    obtain rfl := (Option.some.inj hacc).symm
    exact ⟨⟨emissions, _, hex.carries, hspec, hcoalesces, joinBlock_nodup hex.keys⟩, rfl⟩
  · rename_i hmerge
    rw [hmerge] at hspec
    split at hacc
    · cases hacc
    · obtain rfl := (Option.some.inj hacc).symm
      refine ⟨⟨emissions, _, hex.carries, ?_, hcoalesces, joinBlock_nodup hex.keys⟩, rfl⟩
      rw [hspec.2]
      exact List.rel_append hex.holds (.cons (holds_single hv hr) .nil)

theorem accumulate_of_empty {buffer : OrderedEventBuffer} (hempty : buffer.pending = [])
    (hcap : buffer.capacity = 16) (k : SampledEventKey) (aggregation : Aggregation) (v raw : Int)
    (event : HIDEvent) : (buffer.accumulate k aggregation v raw event).isSome := by
  simp [accumulate, hempty, hcap, mergePending]

theorem accumulateEvent_spec (now : UInt32) (h : Explained mode w arrivals events) (hinv : WindowInv w)
    (hactive : w.samplingWindowActive = true) (hmode : value.aggregation = mode (d.sampledKey value))
    (hv : Int64Range value.value) (hr : Int64Range value.rawValue) :
    Explained mode (accumulateEvent d now value w).1
        (arrivals ++ [.contribution (d.sampledKey value) (d.contribution value)])
        (events ++ (accumulateEvent d now value w).2) ∧
      WindowInv (accumulateEvent d now value w).1 ∧
      (accumulateEvent d now value w).1.samplingWindowActive = true := by
  have hidle : ∀ {w' : SamplingWindow}, w'.samplingWindowActive = true →
      w'.samplingWindowActive = false → w'.sampledEvents.pending = [] :=
    fun htrue hfalse => absurd (htrue.symm.trans hfalse) (by decide)
  simp only [accumulateEvent]
  split
  · rename_i buffer hacc
    obtain ⟨hex, hcap⟩ := accumulate_spec h hmode hv hr hacc
    exact ⟨by simpa using hex, ⟨hidle hactive, hcap.trans hinv.capacity⟩, hactive⟩
  · -- The buffer is full: everything goes out, and the contribution opens a new block.
    obtain ⟨hflush, hnil, hcap, hflag⟩ := flushSampledEvents_spec h
    obtain ⟨buffer, hacc⟩ := Option.isSome_iff_exists.mp (accumulate_of_empty hnil
      (hcap.trans hinv.capacity) (d.sampledKey value) value.aggregation value.value value.rawValue
      (d.event (some value)))
    obtain ⟨hex, hcap'⟩ := accumulate_spec hflush hmode hv hr hacc
    simp only [hacc, Option.getD_some]
    exact ⟨hex.window rfl, ⟨hidle (hflag.trans hactive), hcap'.trans (hcap.trans hinv.capacity)⟩,
      hflag.trans hactive⟩

/-! ## A report -/

theorem accumulateRun_spec (clock : ReportClock) (index : Nat) (run : List HIDReportItemValue)
    (h : Explained mode w arrivals events) (hinv : WindowInv w) (hactive : w.samplingWindowActive = true)
    (hmode : d.Mode mode) (hrun : ∀ value ∈ run, value ∈ d.values ∧ mergeable value) :
    Explained mode (accumulateRun d clock index run w).1 (arrivals ++ run.map d.arrival)
        (events ++ (accumulateRun d clock index run w).2) ∧
      WindowInv (accumulateRun d clock index run w).1 := by
  induction run generalizing index w arrivals events with
  | nil => exact ⟨by simpa [accumulateRun] using h, hinv⟩
  | cons value rest ih =>
    obtain ⟨hmem, hmerge⟩ := hrun value (by simp)
    obtain ⟨hex, hinv', hactive'⟩ := accumulateEvent_spec (clock.reading index) h hinv hactive
      (hmode.aggregation value hmem hmerge) (hmode.value value hmem) (hmode.rawValue value hmem)
    have hrest := ih (index + 1) hex hinv' hactive' fun v hv => hrun v (List.mem_cons_of_mem _ hv)
    simpa [accumulateRun, DecodedReport.arrival, hmerge] using hrest

theorem emitRun_spec (run : List HIDReportItemValue) (h : Explained mode w arrivals events)
    (hempty : w.sampledEvents.pending = []) (hrun : ∀ value ∈ run, mergeable value) :
    Explained mode w (arrivals ++ run.map d.arrival)
      (events ++ run.map fun value => d.event (some value)) := by
  induction run generalizing arrivals events with
  | nil => simpa using h
  | cons value rest ih =>
    have hcarries : Carries mode
        (.block { key := d.sampledKey value, first := d.contribution value }) (d.event (some value)) :=
      .block (carriesBlock_single _ d value)
    have hrest := ih (h.emit hempty hempty hcarries) fun v hv => hrun v (List.mem_cons_of_mem _ hv)
    simpa [DecodedReport.arrival, hrun value (by simp), Emission.arrivals, Block.contributions]
      using hrest

theorem processRun_spec (clock : ReportClock) (index : Nat) (run : List HIDReportItemValue)
    (h : Explained mode w arrivals events) (hinv : WindowInv w) (hmode : d.Mode mode)
    (hrun : ∀ value ∈ run, value ∈ d.values ∧ mergeable value) :
    Explained mode (processRun d clock index run w).1 (arrivals ++ run.map d.arrival)
        (events ++ (processRun d clock index run w).2) ∧
      WindowInv (processRun d clock index run w).1 := by
  unfold processRun
  split
  · rename_i hidle
    have hempty := hinv.idle hidle
    exact ⟨(emitRun_spec run h hempty fun value hv => (hrun value hv).2).window rfl,
      fun _ => hempty, hinv.capacity⟩
  · rename_i hactive
    exact accumulateRun_spec clock index run h hinv (by simpa using hactive) hmode hrun

theorem processValues_spec {interval : UInt32} (hinterval : interval ≠ 0) (clock : ReportClock)
    (hmode : d.Mode mode) (fuel index : Nat) (values : List HIDReportItemValue)
    (hfuel : values.length ≤ fuel) (hvalues : ∀ value ∈ values, value ∈ d.values)
    (h : Explained mode w arrivals events) (hinv : WindowInv w) :
    Explained mode (processValues interval d clock fuel index values w).1 (arrivals ++ values.map d.arrival)
        (events ++ (processValues interval d clock fuel index values w).2) ∧
      WindowInv (processValues interval d clock fuel index values w).1 := by
  induction fuel generalizing index values w arrivals events with
  | zero =>
    obtain rfl := List.eq_nil_of_length_eq_zero (Nat.le_zero.mp hfuel)
    exact ⟨by simpa [processValues] using h, hinv⟩
  | succ fuel ih =>
    cases values with
    | nil => exact ⟨by simpa [processValues] using h, hinv⟩
    | cons value rest =>
      have hrest : ∀ v ∈ rest, v ∈ d.values := fun v hv => hvalues v (List.mem_cons_of_mem _ hv)
      have hlen : rest.length ≤ fuel := Nat.le_of_succ_le_succ hfuel
      rw [processValues, if_neg hinterval]
      by_cases hmerge : mergeable value = true
      · -- The run ends at the first value that is not mergeable.
        have hsplit : (value :: rest.takeWhile mergeable) ++ rest.dropWhile mergeable = value :: rest := by
          rw [List.cons_append, List.takeWhile_append_dropWhile]
        have hrun : ∀ v ∈ value :: rest.takeWhile mergeable, v ∈ d.values ∧ mergeable v := by
          intro v hv
          refine ⟨hvalues v (hsplit ▸ List.mem_append_left _ hv), ?_⟩
          rcases List.mem_cons.mp hv with rfl | hv
          · exact hmerge
          · exact List.mem_takeWhile_imp hv
        obtain ⟨hex, hinv'⟩ := processRun_spec clock index _ h hinv hmode hrun
        have hlater := ih (index + (value :: rest.takeWhile mergeable).length) (rest.dropWhile mergeable)
          (Nat.le_trans (List.dropWhile_sublist _).length_le hlen)
          (fun v hv => hrest v ((List.dropWhile_sublist _).subset hv)) hex hinv'
        rw [List.append_assoc, ← List.map_append, hsplit] at hlater
        simpa [hmerge] using hlater
      · obtain ⟨hex, hinv'⟩ := emitBarrier_spec (d.event (some value)) h hinv
        have hlater := ih (index + 1) rest hlen hrest hex hinv'
        simpa [hmerge, DecodedReport.arrival] using hlater

theorem processDecodedReport_spec {interval : UInt32} (hinterval : interval ≠ 0) (clock : ReportClock)
    (hmode : d.Mode mode) (h : Explained mode w arrivals events) (hinv : WindowInv w) :
    Explained mode (processDecodedReport interval d clock w).1 (arrivals ++ d.arrivals)
        (events ++ (processDecodedReport interval d clock w).2) ∧
      WindowInv (processDecodedReport interval d clock w).1 := by
  obtain ⟨hupdate, hinv1⟩ := updateSamplingWindow_spec interval clock.update h hinv
  obtain ⟨hvalues, hinv2⟩ := processValues_spec hinterval clock hmode d.values.length 0 d.values
    (Nat.le_refl _) (fun _ => id) hupdate hinv1
  rw [List.append_assoc] at hvalues
  rw [processDecodedReport, DecodedReport.arrivals]
  by_cases hraw : (d.values.isEmpty && !d.recognized) = true
  · have hnil : d.values = [] := by
      rw [Bool.and_eq_true, List.isEmpty_iff] at hraw
      exact hraw.1
    rw [show d.values.map d.arrival = [] by rw [hnil]; rfl, List.append_nil] at hvalues
    have hbarrier := emitBarrier_spec (d.event none) hvalues hinv2
    simpa [hraw, processDecodedValues] using hbarrier
  · simpa [hraw, processDecodedValues] using ⟨hvalues, hinv2⟩

end

/-! ## Runs -/

def SamplingStep.arrivals : SamplingStep → List SampledArrival
  | .report _ d => d.arrivals
  | .window _ => []

def SamplingStep.Mode (mode : SampledEventKey → Aggregation) : SamplingStep → Prop
  | .report _ d => d.Mode mode
  | .window _ => True

theorem samplingStep_spec {mode : SampledEventKey → Aggregation} {interval : UInt32}
    (hinterval : interval ≠ 0) {w : SamplingWindow} {arrivals : List SampledArrival}
    {events : List HIDEvent} (step : SamplingStep) (hmode : step.Mode mode)
    (h : Explained mode w arrivals events) (hinv : WindowInv w) :
    Explained mode (samplingStep interval w step).1 (arrivals ++ step.arrivals)
        (events ++ (samplingStep interval w step).2) ∧
      WindowInv (samplingStep interval w step).1 := by
  cases step with
  | report clock d => exact processDecodedReport_spec hinterval clock hmode h hinv
  | window now => simpa [SamplingStep.arrivals, samplingStep] using updateSamplingWindow_spec interval now h hinv

theorem samplingRun_spec {mode : SampledEventKey → Aggregation} {interval : UInt32}
    (hinterval : interval ≠ 0) {w : SamplingWindow} (hempty : w.sampledEvents = {}) (steps : List SamplingStep)
    (hmode : ∀ step ∈ steps, step.Mode mode) :
    Explained mode (samplingRun interval w steps).1 (steps.flatMap SamplingStep.arrivals)
        (samplingRun interval w steps).2 ∧
      WindowInv (samplingRun interval w steps).1 := by
  induction steps using List.reverseRecOn with
  | nil =>
    refine ⟨⟨[], [], .nil, ?_, Coalesces.nil, List.nodup_nil⟩, fun _ => ?_, ?_⟩
    · rw [samplingRun, List.foldl_nil, hempty]
      exact .nil
    · rw [samplingRun, List.foldl_nil, hempty]
    · rw [samplingRun, List.foldl_nil, hempty]
  | append_singleton steps step ih =>
    obtain ⟨hex, hinv⟩ := ih fun s hs => hmode s (List.mem_append_left _ hs)
    have hstep := samplingStep_spec hinterval step (hmode step (by simp)) hex hinv
    rw [List.flatMap_append, List.flatMap_singleton]
    rw [samplingRun, List.foldl_append]
    exact hstep

/-- Once the buffer is drained, the emitted events explain everything that arrived: key by key in
blocks, and nothing has crossed a barrier. -/
theorem samplingRun_coalesces (mode : SampledEventKey → Aggregation) (interval : UInt32)
    (hinterval : interval ≠ 0) (w : SamplingWindow) (hempty : w.sampledEvents = {})
    (steps : List SamplingStep) (hmode : ∀ step ∈ steps, step.Mode mode) :
    ∃ emissions : List SampledEmission,
      List.Forall₂ (Carries mode) emissions ((samplingRun interval w steps).2 ++
        (samplingRun interval w steps).1.sampledEvents.drain.2) ∧
      Coalesces (steps.flatMap SamplingStep.arrivals) emissions := by
  obtain ⟨hex, -⟩ := samplingRun_spec hinterval hempty steps hmode
  obtain ⟨emissions, blocks, hdrained⟩ := hex.drain (v := {}) rfl
  obtain rfl := hdrained.blocks_nil rfl
  have hcoalesces := hdrained.coalesces
  rw [List.map_nil, List.append_nil] at hcoalesces
  exact ⟨emissions, hdrained.carries, hcoalesces⟩

/-! ## A run -/

def mouseReportOf (seqId : Nat) (values : List HIDReportItemValue) : DecodedReport where
  view := { platform := examplePlatform }
  report := { seqId }
  raw := ""
  values := values
  recognized := true
  status := .exact

def button (value : Int) : HIDReportItemValue := { value, rawValue := value }

def move (value : Int) : HIDReportItemValue := { value, rawValue := value, fieldId := 8, aggregation := .sum }

/-- Press, three moves, release, all inside one window. -/
def dragSteps : List SamplingStep :=
  [mouseReportOf 1 [button 1], mouseReportOf 2 [move 5], mouseReportOf 3 [move 1], mouseReportOf 4 [move 2],
    mouseReportOf 5 [button 0]].map (.report { update := 0, reading := fun _ => 0 })

example : (samplingRun 500 {} dragSteps).2.map (fun event => (event.find "value", event.find "seq_id_from",
    event.find "seq_id_to")) =
    [(some "1", some "1", some "1"), (some "5", some "2", some "2"), (some "3", some "3", some "4"),
      (some "0", some "5", some "5")] := by
  decide +kernel

instance (v : Int) : Decidable (Int64Range v) := inferInstanceAs (Decidable (_ ∧ _))

theorem samplingRun_coalesces_drag :
    ∃ emissions : List SampledEmission,
      List.Forall₂ (Carries fun _ => .sum) emissions ((samplingRun 500 {} dragSteps).2 ++
        (samplingRun 500 {} dragSteps).1.sampledEvents.drain.2) ∧
      Coalesces (dragSteps.flatMap SamplingStep.arrivals) emissions := by
  refine samplingRun_coalesces (fun _ => .sum) 500 (by decide) {} rfl dragSteps ?_
  intro step hstep
  simp only [dragSteps, List.map_cons, List.map_nil, List.mem_cons, List.not_mem_nil, or_false] at hstep
  rcases hstep with rfl | rfl | rfl | rfl | rfl <;>
    exact ⟨by decide +kernel, by decide +kernel, by decide +kernel⟩

end BleClientHid
