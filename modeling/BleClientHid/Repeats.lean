import BleClientHid.HidParser.Bounds
import BleClientHid.HidParser.Variables
import BleClientHid.Streams

/-! # Repeated reports

A report that comes again, with none of its stream in between, brings the moves again and
nothing else.
-/

namespace BleClientHid

open Lib HidParser HIDReportMap

/-- What of these values a repetition brings. -/
def moves (values : List HIDReportItemValue) : List HIDReportItemValue := values.filter (·.isRelative)

/-! ## Fields -/

theorem unmatched_self (entries : UsageMultimap) : unmatched entries entries = [] := by
  induction entries with
  | nil => rfl
  | cons entry rest ih =>
    unfold unmatched eraseUsage
    rw [if_pos (by simp [hasUsage]), List.eraseP_cons_of_pos (by simp)]
    exact ih

/-- The number of an element; one that is skipped has a number out of range. -/
def elementNumber (f : HIDFieldSchema) (data : List UInt8) (i : Nat) : Int :=
  (readElement data f i).getD (f.logical.maximum + 1)

theorem readElement_number (f : HIDFieldSchema) (data : List UInt8) (i : Nat) :
    readElement data f i =
      if inRange f (elementNumber f data i) then some (elementNumber f data i) else none := by
  unfold elementNumber inRange
  cases h : readElement data f i with
  | none =>
    rw [if_neg]
    simp
  | some v =>
    unfold readElement at h
    split at h
    · cases h
    · split at h
      · cases h
      · obtain rfl := Option.some.inj h
        rw [if_pos]
        · rfl
        · simp only [Option.getD_some, decide_eq_true_eq]
          omega

section

variable (m : HIDReportMap) (r : HIDReportSchema) {f : HIDFieldSchema} {data : List UInt8} {memory : FieldRuntime}

/-- An element that has been remembered does not change, unless it is relative. -/
theorem emits_again (f : HIDFieldSchema) (last v : Int) :
    emits f (if emits f last v then v else last) v = (f.isRelative && emits f last v) := by
  cases hrelative : f.isRelative with
  | true => rw [Bool.true_and, emits_relative hrelative]
  | false =>
    rw [Bool.false_and, emits_last hrelative]
    unfold emits
    cases inRange f v <;> simp [hrelative]

theorem decodeVariable_again (hvariable : f.isVariable = true) (hslots : HasSlots f memory) :
    let out := decodeField m r f data memory
    decodeField m r f data out.1 = (out.1, moves out.2) := by
  intro out
  have hinit : initRuntime f out.1 = out.1 := initRuntime_of_initialized (decodeField_initialized m r f data memory)
  have hread : ∀ i < f.reportCount, readElement data f i =
      if inRange f (elementNumber f data i) then some (elementNumber f data i) else none :=
    fun i _ => readElement_number f data i
  -- the first pass, over the memory that was there
  obtain ⟨hlength, hlast, hvalues⟩ := variableElements_eq (m := m) (r := r) hread (initRuntime f memory).lastValues
    (Nat.le_of_eq (initRuntime_slots hslots).symm) fun _ => rfl
  have hout : out = decodeVariable m r f data (initRuntime f memory) := by
    unfold out decodeField
    rw [if_pos hvariable]
  unfold decodeVariable at hout
  generalize (List.range f.reportCount).foldl (variableElement m r f data)
    ((initRuntime f memory).lastValues, []) = pass at hlength hlast hvalues hout
  -- the second, over what the first has left
  obtain ⟨hlength', hlast', hvalues'⟩ := variableElements_eq (m := m) (r := r) hread pass.1
    (by rw [hlength, initRuntime_slots hslots]) fun _ => rfl
  -- an element that has just been remembered is emitted again only where it is relative
  have hagain : ∀ i < f.reportCount, emits f (pass.1.getD i 0) (elementNumber f data i) =
      (f.isRelative && emits f ((initRuntime f memory).lastValues.getD i 0) (elementNumber f data i)) := by
    intro i hi
    rw [hlast i, ← emits_again]
    simp only [hi, true_and]
  -- so nothing new is remembered
  have hmemory : ((List.range f.reportCount).foldl (variableElement m r f data) (pass.1, [])).1 = pass.1 := by
    apply List.ext_getElem hlength'
    intro i hi hi'
    have hnumber := hlast' i
    rw [List.getD_eq_getElem _ _ hi, List.getD_eq_getElem _ _ hi'] at hnumber
    rw [hnumber]
    split
    · rename_i hemits
      rw [← List.getD_eq_getElem _ 0 hi'] at hemits ⊢
      rw [hagain i hemits.1, Bool.and_eq_true] at hemits
      rw [hlast i, if_pos ⟨hemits.1, hemits.2.2⟩]
    · rfl
  -- and of the values the relative ones come again
  have hmoves : ((List.range f.reportCount).foldl (variableElement m r f data) (pass.1, [])).2 = moves pass.2 := by
    rw [hvalues', hvalues, moves, List.filter_filterMap]
    apply List.filterMap_congr
    intro i hi
    rw [hagain i (List.mem_range.mp hi)]
    have hrelative (v : Int) : (variableValue m r f i v).isRelative = f.isRelative := rfl
    cases emits f ((initRuntime f memory).lastValues.getD i 0) (elementNumber f data i) with
    | false => simp
    | true => cases hfield : f.isRelative <;> simp [Option.filter, hrelative, hfield]
  have hstart : out.1.lastValues = pass.1 := by rw [hout]
  unfold decodeField
  rw [if_pos hvariable, hinit]
  unfold decodeVariable
  have hyield : out.2 = pass.2 := by rw [hout]
  rw [hstart, hyield]
  refine Prod.ext ?_ hmoves
  dsimp only
  rw [hmemory, ← hstart]

theorem decodeArray_again (hvariable : f.isVariable = false) :
    let out := decodeField m r f data memory
    decodeField m r f data out.1 = (out.1, moves out.2) := by
  intro out
  have hinit : initRuntime f out.1 = out.1 := initRuntime_of_initialized (decodeField_initialized m r f data memory)
  have hout : out = decodeArray m r f data (initRuntime f memory) := by
    unfold out decodeField
    rw [if_neg (by simp [hvariable])]
  have hactive : out.1.activeArrayUsages = currentUsages data f := by rw [hout]; rfl
  have hmoves : moves out.2 = [] := by
    rw [hout, moves, List.filter_eq_nil_iff]
    intro value hvalue
    simp only [decodeArray, List.mem_append, List.mem_map] at hvalue
    rcases hvalue with ⟨entry, -, rfl⟩ | ⟨entry, -, rfl⟩ <;> simp [arrayValue]
  unfold decodeField
  rw [if_neg (by simp [hvariable]), hinit, hmoves]
  unfold decodeArray
  dsimp only
  rw [hactive, unmatched_self, ← hactive]
  rfl

theorem decodeField_again (hslots : HasSlots f memory) :
    let out := decodeField m r f data memory
    decodeField m r f data out.1 = (out.1, moves out.2) := by
  cases hvariable : f.isVariable with
  | true => exact decodeVariable_again m r hvariable hslots
  | false => exact decodeArray_again m r hvariable

end

/-! ## Report maps -/

def Answer.movesOnly (a : Answer) : Answer := { a with values := moves a.values }

section

variable {m : HIDReportMap}

theorem fieldValues_again (r : HIDReportSchema) {f : HIDFieldSchema} (data : List UInt8)
    {memory next : Nat → FieldRuntime} (hslots : HasSlots f (memory f.id))
    (hnext : next f.id = if f.isConstant then memory f.id else (decodeField m r f data (memory f.id)).1) :
    fieldValues m r data next f = moves (fieldValues m r data memory f) := by
  unfold fieldValues
  cases hconstant : f.isConstant with
  | true => rfl
  | false =>
    rw [if_neg (by simp), if_neg (by simp), hnext, if_neg (by simp [hconstant]), decodeField_again m r hslots]

theorem parseBytes_again (hm : DecoderInv m) (source : HIDReportSource) (data : List UInt8) :
    let first := feedMap m (source, .bytes data)
    (feedMap first.1 (source, .bytes data)).2 = first.2.movesOnly := by
  intro first
  rcases parse_cases m source data with ⟨recognized, status, hsame⟩ | ⟨r, status, hfind, hinput⟩
  · have hparse : parse m source (.bytes data) = { map := m, recognized, status } := hsame m.runtime
    have hfirst : first = (m, { recognized, status := some status }) := by
      simp only [first, feedMap, callMap, hparse]
    have hagain : (feedMap m (source, .bytes data)).2 = first.2 := rfl
    rw [hfirst] at hagain ⊢
    exact hagain
  · obtain ⟨hr, -⟩ := findReport_spec hfind
    obtain ⟨next, hnext, hown, -⟩ := parseInput_runtime hm.schema hr m.runtime data
    obtain ⟨next', hvalues, -, -⟩ := parseInput_runtime hm.schema hr next data
    have hparse := hinput m.runtime
    rw [hnext] at hparse
    have hfirst : first = ({ m with runtime := next },
        { values := ((m.fieldsOf r).flatMap (fieldValues m r data m.runtime)).map fun value =>
            { value with characteristicHandle := source.characteristicHandle }
          recognized := true
          status := some status }) := by
      unfold first feedMap callMap
      dsimp only
      rw [hparse]
    have hfields : (m.fieldsOf r).flatMap (fieldValues m r data next) =
        moves ((m.fieldsOf r).flatMap (fieldValues m r data m.runtime)) := by
      rw [moves, List.filter_flatMap]
      apply List.flatMap_congr
      intro f hf
      exact fieldValues_again r data (hm.slots f ((mem_fieldsOf f).mp hf).1) (hown f hf)
    rw [hfirst]
    simp only [feedMap, callMap, hinput, hvalues, hfields, Answer.movesOnly, moves, List.filter_map]
    rfl

theorem parse_again (hm : DecoderInv m) (report : Report) :
    let first := feedMap m report
    (feedMap first.1 report).2 = first.2.movesOnly := by
  obtain ⟨source, data⟩ := report
  cases data with
  | null n =>
    cases n with
    | zero => exact parseBytes_again hm source []
    | succ n => rfl
  | bytes bytes => exact parseBytes_again hm source bytes

theorem stateAfter_decoderInv (hm : DecoderInv m) (calls : List MapCall) :
    DecoderInv (stateAfter callMap m calls) := by
  have hreachable : Reachable m (stateAfter callMap m calls) := by
    refine stateAfter_induct (fun s call hs => ?_) .fresh calls
    cases call with
    | parse source data => exact hs.parse source data
    | resetRuntimeState => exact hs.reset
  exact hreachable.inv hm

end

/-! ## Boot reports -/

open BootReportDecoder in
theorem mouseValues_again (d : HIDBootReportDecoder) (handle : Nat) (data : List UInt8) :
    let first := decodeMouse d handle data
    (decodeMouse first.1 handle data).2 = moves first.2 := by
  intro first
  have hbuttons (buttons : Nat) : mouseButtonValues buttons buttons = [] := by simp [mouseButtonValues]
  have hstill (previous buttons : Nat) : moves (mouseButtonValues previous buttons) = [] := by
    rw [moves, List.filter_eq_nil_iff]
    intro value hvalue
    obtain ⟨bit, -, hbit⟩ := List.mem_filterMap.mp hvalue
    split at hbit
    · cases hbit
      simp [mouseButtonValue]
    · cases hbit
  have haxis (usage fieldId : Nat) (move : Int) :
      moves (mouseAxisValues usage fieldId move) = mouseAxisValues usage fieldId move := by
    unfold mouseAxisValues
    split <;> rfl
  simp only [first, decodeMouse, Function.update_self, hbuttons, moves, List.filter_append]
  rw [← moves, ← moves, ← moves, hstill, haxis, haxis]

open BootReportDecoder in
theorem keyboardValues_again (d : HIDBootReportDecoder) (handle : Nat) (data : List UInt8) :
    let first := decodeKeyboard d handle data
    (decodeKeyboard first.1 handle data).2 = moves first.2 := by
  intro first
  have hmodifiers (bits : List Bool) : modifierValues bits bits = [] := by simp [modifierValues]
  have hkeys (keys : List Nat) : keyValues keys keys = [] := by
    simp [keyValues]
  have hstill : moves first.2 = [] := by
    rw [moves, List.filter_eq_nil_iff]
    intro value hvalue
    simp only [first, decodeKeyboard, modifierValues, keyValues, List.mem_append, List.mem_filterMap,
      List.mem_map] at hvalue
    rcases hvalue with ⟨bit, -, hbit⟩ | ⟨key, -, rfl⟩ | ⟨key, -, rfl⟩
    · split at hbit
      · cases hbit
        simp [modifierValue]
      · cases hbit
    · simp [keyValue]
    · simp [keyValue]
  rw [hstill]
  simp only [first, decodeKeyboard, Function.update_self, hmodifiers, hkeys, List.append_nil]

theorem decodeBytes_again (d : HIDBootReportDecoder) (source : HIDReportSource) (data : List UInt8) :
    let first := feedDecoder d (source, .bytes data)
    (feedDecoder first.1 (source, .bytes data)).2 = first.2.movesOnly := by
  dsimp only [feedDecoder, callDecoder, BootReportDecoder.decode, Answer.movesOnly]
  obtain ⟨status, hsame | ⟨-, hmouse⟩ | ⟨-, hkeyboard⟩⟩ := decodeBytes_cases source data
  · rw [hsame, hsame]
    rfl
  · rw [hmouse, hmouse]
    dsimp only
    rw [mouseValues_again]
  · rw [hkeyboard, hkeyboard]
    dsimp only
    rw [keyboardValues_again]

theorem decode_again (d : HIDBootReportDecoder) (report : Report) :
    let first := feedDecoder d report
    (feedDecoder first.1 report).2 = first.2.movesOnly := by
  obtain ⟨source, data⟩ := report
  cases data with
  | null n =>
    cases n with
    | zero => exact decodeBytes_again d source []
    | succ n => rfl
  | bytes bytes => exact decodeBytes_again d source bytes

/-- Whatever was called before, and whatever arrives of other Report IDs or other boot characteristics
in between: a report that is delivered a second time is answered as it was the first time, with
its relative values alone. No button, key or absolute axis changes again. -/
theorem repeated_report :
    (∀ (data : Buffer) (start : HIDReportMap), parseReportMapData data = some start →
      ∀ (before : List MapCall) (report : Report) (between : List Report),
        (∀ other ∈ between, reportIdOf other ≠ reportIdOf report) →
        let first := feedMap (stateAfter callMap start before) report
        (feedMap (stateAfter feedMap first.1 between) report).2 = first.2.movesOnly) ∧
    ∀ (before : List DecoderCall) (report : Report) (between : List Report),
      (∀ other ∈ between, characteristicOf other ≠ characteristicOf report) →
      let first := feedDecoder (stateAfter callDecoder {} before) report
      (feedDecoder (stateAfter feedDecoder first.1 between) report).2 = first.2.movesOnly := by
  constructor
  · intro data start h before report between hbetween
    have hm := stateAfter_decoderInv (parseReportMapData_decoderInv h) before
    generalize stateAfter callMap start before = m at hm ⊢
    intro first
    obtain ⟨memory, hfirst⟩ := parse_map m report.1 report.2
    have hself : AgreeOnReport m (reportIdOf report) first.1 first.1 :=
      ⟨memory, memory, hfirst, hfirst, fun _ _ _ _ => rfl⟩
    have hagree := (feedMap_isolated hm.schema).stateAfter hbetween hself
    rw [((feedMap_isolated hm.schema).own _ _ report hagree).1]
    exact parse_again hm report
  · intro before report between hbetween first
    have hself : AgreeOnCharacteristic (characteristicOf report) first.1 first.1 :=
      ⟨fun _ => rfl, fun _ => ⟨rfl, rfl⟩⟩
    have hagree := feedDecoder_isolated.stateAfter hbetween hself
    rw [(feedDecoder_isolated.own _ _ report hagree).1]
    exact decode_again _ report

/-- The mouse moves twice by the same report; a report of the other axis and a click on another mouse
come in between. -/
theorem repeated_report_axes :
    (∃ start, parseReportMapData (.bytes twoReportDescriptor) = some start ∧
      let first := feedMap (stateAfter callMap start [.parse {} (.bytes [1])]) (axisReport 1 5)
      (feedMap (stateAfter feedMap first.1 [axisReport 2 7]) (axisReport 1 5)).2 = first.2.movesOnly) ∧
    let first := feedDecoder (stateAfter callDecoder {} [.reset]) (clickReport 10 1)
    (feedDecoder (stateAfter feedDecoder first.1 [clickReport 11 0]) (clickReport 10 1)).2 =
      first.2.movesOnly := by
  obtain ⟨start, hstart⟩ := Option.isSome_iff_exists.mp twoReportDescriptor_accepted
  exact ⟨⟨start, hstart, repeated_report.1 _ _ hstart [.parse {} (.bytes [1])] (axisReport 1 5) [axisReport 2 7]
      (by decide)⟩,
    repeated_report.2 [.reset] (clickReport 10 1) [clickReport 11 0] (by decide)⟩

end BleClientHid
