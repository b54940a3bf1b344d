import BleClientHid.BootReplay
import BleClientHid.Coalescing
import BleClientHid.HidParser.Variables

/-! # Aggregation identity

Each value of a run traced back to the element that made it, and what the
Report ID and the field id say about that element.
-/

namespace BleClientHid

namespace HidParser

open HIDReportMap

/-! ## Origins -/

/-- The field of a value, and the round of the loop over it if the field is variable. -/
structure Origin where
  field : HIDFieldSchema
  element : Option Nat
  deriving DecidableEq

structure Emission where
  source : HIDReportSource
  origin : Origin
  value : HIDReportItemValue

section

variable (m : HIDReportMap) (r : HIDReportSchema) (f : HIDFieldSchema) (data : List UInt8)

/-- A round of `variableElement`, what it appends marked with the round. -/
def elementOrigins (st : List Int × List (Origin × HIDReportItemValue)) (index : Nat) :
    List Int × List (Origin × HIDReportItemValue) :=
  let (last, values) := variableElement m r f data (st.1, []) index
  (last, st.2 ++ values.map fun value => ({ field := f, element := some index }, value))

def fieldOrigins (memory : FieldRuntime) : List (Origin × HIDReportItemValue) :=
  if f.isConstant then []
  else if f.isVariable then
    ((List.range f.reportCount).foldl (elementOrigins m r f data) ((initRuntime f memory).lastValues, [])).2
  else
    (decodeArray m r f data (initRuntime f memory)).2.map fun value => ({ field := f, element := none }, value)

end

def payloadBytes : Buffer → List UInt8
  | .bytes bytes => bytes
  | .null _ => []

/-- The values of one call of `parse`, each with its origin. -/
def emissions (m : HIDReportMap) (source : HIDReportSource) (data : Buffer) : List Emission :=
  if (parse m source data).status = .exact ∨ (parse m source data).status = .long then
    match m.findReport .input (selectedReportId source) with
    | none => []
    | some r => (m.fieldsOf r).flatMap fun f =>
      (fieldOrigins m r f (payloadBytes data) (m.runtime f.id)).map fun (origin, value) =>
        { source, origin, value := { value with characteristicHandle := source.characteristicHandle } }
  else []

abbrev ParseCall := HIDReportSource × Buffer

def parsedValues : HIDReportMap → List ParseCall → List HIDReportItemValue
  | _, [] => []
  | m, (source, data) :: rest => (parse m source data).values ++ parsedValues (parse m source data).map rest

def runEmissions : HIDReportMap → List ParseCall → List Emission
  | _, [] => []
  | m, (source, data) :: rest => emissions m source data ++ runEmissions (parse m source data).map rest

/-! ## The origins are those of the values -/

theorem variableElement_append (m : HIDReportMap) (r : HIDReportSchema) (f : HIDFieldSchema) (data : List UInt8)
    (last : List Int) (values : List HIDReportItemValue) (index : Nat) :
    variableElement m r f data (last, values) index =
      ((variableElement m r f data (last, []) index).1,
        values ++ (variableElement m r f data (last, []) index).2) := by
  unfold variableElement
  split
  · simp
  · dsimp only
    split <;> simp

theorem foldl_elementOrigins (m : HIDReportMap) (r : HIDReportSchema) (f : HIDFieldSchema) (data : List UInt8)
    (last : List Int) (n : Nat) :
    let marked := (List.range n).foldl (elementOrigins m r f data) (last, [])
    (marked.1, marked.2.map (·.2)) = (List.range n).foldl (variableElement m r f data) (last, []) := by
  induction n with
  | zero => rfl
  | succ n ih =>
    simp only [List.range_succ, List.foldl_append, List.foldl_cons, List.foldl_nil] at ih ⊢
    rw [← ih, variableElement_append]
    simp [elementOrigins, Function.comp_def]

theorem fieldOrigins_values (m : HIDReportMap) (r : HIDReportSchema) (f : HIDFieldSchema) (data : List UInt8)
    (memory : FieldRuntime) :
    (fieldOrigins m r f data memory).map (·.2) =
      if f.isConstant then [] else (decodeField m r f data memory).2 := by
  unfold fieldOrigins decodeField
  split
  · rfl
  · split
    · have hround := foldl_elementOrigins m r f data (initRuntime f memory).lastValues f.reportCount
      exact congrArg Prod.snd hround
    · simp [Function.comp_def]

theorem accepts_of_status {m : HIDReportMap} {source : HIDReportSource} {data : Buffer}
    (h : (parse m source data).status = .exact ∨ (parse m source data).status = .long) :
    parse m source data = parse m source (.bytes (payloadBytes data)) ∧
      ∃ r, Accepts m r source (payloadBytes data) := by
  have hbytes : parse m source data = parse m source (.bytes (payloadBytes data)) := by
    cases data with
    | bytes bytes => rfl
    | null n =>
      cases n with
      | zero => rfl
      | succ n => exact absurd h (by simp [parse])
  refine ⟨hbytes, ?_⟩
  rw [hbytes] at h
  simp only [parse] at h
  split at h
  · simp at h
  · rename_i hboot
    split at h
    · simp at h
    · rename_i hkind
      split at h
      · simp at h
      · rename_i r hreport
        split at h
        · simp at h
        · rename_i hlen
          refine ⟨r, hreport, by simpa using hboot, fun ht => ?_, Nat.le_of_not_lt hlen⟩
          simpa [ht, isInputKind, HIDReportKind.code] using hkind

theorem emissions_accepted {m : HIDReportMap} {r : HIDReportSchema} {source : HIDReportSource} {data : Buffer}
    (h : (parse m source data).status = .exact ∨ (parse m source data).status = .long)
    (hr : Accepts m r source (payloadBytes data)) :
    emissions m source data = (m.fieldsOf r).flatMap fun f =>
      (fieldOrigins m r f (payloadBytes data) (m.runtime f.id)).map fun e =>
        { source, origin := e.1, value := { e.2 with characteristicHandle := source.characteristicHandle } } := by
  rw [emissions, if_pos h, hr.report]

theorem emissions_values {m : HIDReportMap} (hm : SchemaInv m) (source : HIDReportSource) (data : Buffer) :
    (emissions m source data).map (·.value) = (parse m source data).values := by
  by_cases h : (parse m source data).status = .exact ∨ (parse m source data).status = .long
  · obtain ⟨hbytes, r, hr⟩ := accepts_of_status h
    obtain ⟨-, -, hvalues, -⟩ := parseInput_eq hm hr.mem (payloadBytes data)
    rw [emissions_accepted h hr, hbytes, parse_accepted hr, hvalues, List.map_flatMap, List.map_flatMap]
    apply List.flatMap_congr
    intro f _
    rw [fieldValues, ← fieldOrigins_values, List.map_map, List.map_map]
    rfl
  · rw [emissions, if_neg h, (parse_rejected m source data (fun he => h (.inl he)) fun hl => h (.inr hl)).1]
    rfl

theorem parse_map_runtime {m : HIDReportMap} (hm : SchemaInv m) (source : HIDReportSource) (data : Buffer) :
    ∃ runtime, (parse m source data).map = { m with runtime } := by
  by_cases h : (parse m source data).status = .exact ∨ (parse m source data).status = .long
  · obtain ⟨hbytes, r, hr⟩ := accepts_of_status h
    obtain ⟨runtime, hmap, -⟩ := parseInput_eq hm hr.mem (payloadBytes data)
    exact ⟨runtime, by rw [hbytes, parse_accepted hr]; exact hmap⟩
  · exact ⟨m.runtime, (parse_rejected m source data (fun he => h (.inl he)) fun hl => h (.inr hl)).2⟩

theorem runEmissions_values {m : HIDReportMap} (hm : SchemaInv m) (calls : List ParseCall) :
    (runEmissions m calls).map (·.value) = parsedValues m calls := by
  induction calls generalizing m with
  | nil => rfl
  | cons call rest ih =>
    obtain ⟨runtime, hmap⟩ := parse_map_runtime hm call.1 call.2
    rw [runEmissions, parsedValues, List.map_append, emissions_values hm, hmap, ih (hm.withRuntime runtime)]

/-! ## What an origin says -/

/-- The value is what the element of the origin makes. -/
def Origin.Makes (o : Origin) (value : HIDReportItemValue) : Prop :=
  (o.field.isVariable = true ∧ ∃ i < o.field.reportCount, o.element = some i ∧
    value.fieldId = (o.field.bitOffset + i * o.field.reportSize) % 2 ^ 32 ∧
    value.aggregation = aggregationOf o.field (o.field.usageAt i true)) ∨
  (o.field.isVariable = false ∧ o.element = none ∧ value.fieldId = o.field.bitOffset ∧
    value.aggregation = .passthrough)

structure Emission.Known (m : HIDReportMap) (e : Emission) (r : HIDReportSchema) : Prop where
  report : r ∈ m.reports
  input : r.kind = .input
  selected : r.reportId = selectedReportId e.source
  field : e.origin.field ∈ m.fieldsOf r
  data : e.origin.field.isConstant = false
  reportId : e.value.reportId = r.reportId
  makes : e.origin.Makes e.value

theorem elementOrigins_mem {m : HIDReportMap} {r : HIDReportSchema} {f : HIDFieldSchema} {data : List UInt8}
    {last : List Int} (n : Nat) :
    ∀ e ∈ ((List.range n).foldl (elementOrigins m r f data) (last, [])).2,
      ∃ i < n, e.1 = { field := f, element := some i } ∧ ∃ raw, e.2 = variableValue m r f i raw := by
  induction n with
  | zero => simp
  | succ n ih =>
    intro e he
    simp only [List.range_succ, List.foldl_append, List.foldl_cons, List.foldl_nil, elementOrigins] at he
    rcases List.mem_append.mp he with he | he
    · obtain ⟨i, hi, hmade⟩ := ih e he
      exact ⟨i, Nat.lt_succ_of_lt hi, hmade⟩
    · obtain ⟨value, hvalue, rfl⟩ := List.mem_map.mp he
      refine ⟨n, Nat.lt_succ_self n, rfl, ?_⟩
      unfold variableElement at hvalue
      split at hvalue
      · cases hvalue
      · split at hvalue
        · cases hvalue
        · exact ⟨_, List.mem_singleton.mp hvalue⟩

theorem fieldOrigins_mem {m : HIDReportMap} {r : HIDReportSchema} {f : HIDFieldSchema} {data : List UInt8}
    {memory : FieldRuntime} {e : Origin × HIDReportItemValue} (he : e ∈ fieldOrigins m r f data memory) :
    f.isConstant = false ∧ e.1.field = f ∧ e.2.reportId = r.reportId ∧ e.1.Makes e.2 := by
  unfold fieldOrigins at he
  split at he
  · cases he
  · rename_i hconst
    refine ⟨by simpa using hconst, ?_⟩
    split at he
    · rename_i hvar
      obtain ⟨i, hi, horigin, raw, hvalue⟩ := elementOrigins_mem _ e he
      rw [horigin, hvalue]
      exact ⟨rfl, rfl, .inl ⟨hvar, i, hi, rfl, rfl, rfl⟩⟩
    · rename_i hvar
      obtain ⟨value, hvalue, rfl⟩ := List.mem_map.mp he
      simp only [decodeArray, List.mem_append, List.mem_map] at hvalue
      rcases hvalue with ⟨entry, -, rfl⟩ | ⟨entry, -, rfl⟩ <;>
        exact ⟨rfl, rfl, .inr ⟨by simpa using hvar, rfl, rfl, rfl⟩⟩

theorem emissions_known {m : HIDReportMap} {source : HIDReportSource} {data : Buffer} {e : Emission}
    (he : e ∈ emissions m source data) : ∃ r, e.Known m r := by
  by_cases h : (parse m source data).status = .exact ∨ (parse m source data).status = .long
  · obtain ⟨-, r, hr⟩ := accepts_of_status h
    rw [emissions_accepted h hr] at he
    obtain ⟨f, hf, he⟩ := List.mem_flatMap.mp he
    obtain ⟨⟨origin, value⟩, hmade, rfl⟩ := List.mem_map.mp he
    obtain ⟨hconst, rfl, hid, hmakes⟩ := fieldOrigins_mem hmade
    obtain ⟨hmem, hkind, hsel⟩ := findReport_spec hr.report
    exact ⟨r, hmem, hkind, hsel, hf, hconst, hid, hmakes⟩
  · rw [emissions, if_neg h] at he
    cases he

theorem runEmissions_known {m : HIDReportMap} (hm : SchemaInv m) {calls : List ParseCall} {e : Emission}
    (he : e ∈ runEmissions m calls) : ∃ r, e.Known m r := by
  induction calls generalizing m with
  | nil => cases he
  | cons call rest ih =>
    rcases List.mem_append.mp he with he | he
    · exact emissions_known he
    · obtain ⟨runtime, hmap⟩ := parse_map_runtime hm call.1 call.2
      rw [hmap] at he
      obtain ⟨r, hr⟩ := ih (hm.withRuntime runtime) he
      exact ⟨r, { hr with }⟩

namespace Emission.Known

variable {m : HIDReportMap} {r : HIDReportSchema} {e : Emission}

theorem variable_of_mergeable (h : e.Known m r) (hmerge : mergeable e.value = true) :
    e.origin.field.isVariable = true ∧ ∃ i < e.origin.field.reportCount, e.origin.element = some i ∧
      e.value.fieldId = (e.origin.field.bitOffset + i * e.origin.field.reportSize) % 2 ^ 32 ∧
      e.value.aggregation = aggregationOf e.origin.field (e.origin.field.usageAt i true) := by
  rcases h.makes with hvar | ⟨-, -, -, hpass⟩
  · exact hvar
  · rw [mergeable, hpass] at hmerge
    cases hmerge

theorem covers (hm : SchemaInv m) (h : e.Known m r) : covers e.origin.field e.value.fieldId = true := by
  obtain ⟨hsize, -, hcount, -⟩ := hm.fieldSize _ (List.mem_of_mem_filter h.field)
  simp only [HidParser.covers, decide_eq_true_eq]
  rcases h.makes with ⟨-, i, hi, -, hid, -⟩ | ⟨-, -, hid, -⟩
  · have hin := element_inside hi (j := 0) (by omega)
    rw [hid, element_position hm h.report h.field hi]
    omega
  · have hin := element_inside (f := e.origin.field) (i := 0) (j := 0) (by omega) (by omega)
    omega

theorem fieldId_lt (hm : SchemaInv m) (h : e.Known m r) : e.value.fieldId < maxReportBits := by
  have hcovers := h.covers hm
  simp only [HidParser.covers, decide_eq_true_eq] at hcovers
  have hend := ((hm.tiles r h.report).inside _ h.field).2
  have hmax := hm.bitSizeLe r h.report
  omega

end Emission.Known

/-- Two merged values of one Report ID and one field id come from one element. -/
theorem origin_eq {m : HIDReportMap} (hm : SchemaInv m) {r s : HIDReportSchema} {a b : Emission}
    (ha : a.Known m r) (hb : b.Known m s) (hmergeA : mergeable a.value = true) (hmergeB : mergeable b.value = true)
    (hreport : r.reportId = s.reportId) (hid : a.value.fieldId = b.value.fieldId) :
    a.origin = b.origin ∧ a.value.aggregation = b.value.aggregation := by
  obtain rfl := hm.distinct.eq ha.report hb.report (ha.input.trans hb.input.symm) hreport
  have hcovers : covers a.origin.field b.value.fieldId = true := hid ▸ ha.covers hm
  have hfield : a.origin.field = b.origin.field :=
    eq_of_covers hm ha.report ha.field hb.field hcovers (hb.covers hm)
  obtain ⟨-, i, hi, hai, hidA, haggA⟩ := ha.variable_of_mergeable hmergeA
  obtain ⟨-, j, hj, hbj, hidB, haggB⟩ := hb.variable_of_mergeable hmergeB
  rw [element_position hm ha.report ha.field hi] at hidA
  rw [element_position hm hb.report hb.field hj] at hidB
  have hsize := (hm.fieldSize _ (List.mem_of_mem_filter hb.field)).1
  have hij : i = j := by
    rw [hfield] at hidA
    apply Nat.eq_of_mul_eq_mul_right hsize
    omega
  subst hij
  have horigin : a.origin = b.origin := by
    cases horiginA : a.origin
    cases horiginB : b.origin
    simp_all
  exact ⟨horigin, by rw [haggA, haggB, hfield]⟩

/-! ## Beside the boot decoder -/

theorem decodeMouse_fieldId (d : HIDBootReportDecoder) (handle : Nat) (data : List UInt8) :
    ∀ v ∈ (BootReportDecoder.decodeMouse d handle data).2, maxReportBits ≤ v.fieldId := by
  intro v hv
  simp only [BootReportDecoder.decodeMouse, List.mem_append] at hv
  have haxis : ∀ usage fieldId move, maxReportBits ≤ fieldId →
      v ∈ BootReportDecoder.mouseAxisValues usage fieldId move → maxReportBits ≤ v.fieldId := by
    intro usage fieldId move hle hmem
    unfold BootReportDecoder.mouseAxisValues at hmem
    split at hmem
    · rw [List.mem_singleton.mp hmem]
      exact hle
    · cases hmem
  rcases hv with (hv | hv) | hv
  · obtain ⟨bit, active, rfl⟩ := BootReportDecoder.mouseButtonValues_cases hv
    simp only [BootReportDecoder.mouseButtonValue, maxReportBits]
    omega
  · exact haxis _ _ _ (by decide) hv
  · exact haxis _ _ _ (by decide) hv

theorem decodeKeyboard_fieldId (d : HIDBootReportDecoder) (handle : Nat) (data : List UInt8) :
    ∀ v ∈ (BootReportDecoder.decodeKeyboard d handle data).2, maxReportBits ≤ v.fieldId := by
  intro v hv
  have hkey := BootReportDecoder.keyboardValues_cases (List.mem_map_of_mem (f := BootReportDecoder.event) hv)
  rcases hkey with ⟨bit, -, hkey⟩ | ⟨code, hkey⟩
  · have hid : v.fieldId = 0xF100 + bit := congrArg Prod.fst hkey
    simp only [maxReportBits]
    omega
  · have hid : v.fieldId = 0xF200 := congrArg Prod.fst hkey
    simp only [maxReportBits]
    omega

/-- The field ids of the boot decoder lie above every bit position. -/
theorem decode_fieldId (d : HIDBootReportDecoder) (source : HIDReportSource) (data : Buffer) :
    ∀ v ∈ (BootReportDecoder.decode d source data).values, maxReportBits ≤ v.fieldId := by
  rcases BootReportDecoder.decode_cases d source data with ⟨-, hvalues, -⟩ | ⟨-, bytes, -, hdecoded⟩
  · rw [hvalues]
    exact fun v hv => absurd hv List.not_mem_nil
  · rcases hdecoded with ⟨-, -, hvalues⟩ | ⟨-, -, hvalues⟩
    · rw [hvalues]
      exact decodeMouse_fieldId d _ bytes
    · rw [hvalues]
      exact decodeKeyboard_fieldId d _ bytes

/-! ## The law -/

/-- `accumulate_event_` may build one key for the two values. -/
def SharesKey (a b : Emission) : Prop :=
  ∃ x y : DecodedReport, x.report.source = a.source ∧ y.report.source = b.source ∧
    x.sampledKey a.value = y.sampledKey b.value

structure Identified (m : HIDReportMap) (run : List Emission) : Prop where
  /-- The Report ID and the field id name one element and one mode. -/
  injective : ∀ a ∈ run, ∀ b ∈ run, mergeable a.value = true → mergeable b.value = true →
    a.value.reportId = b.value.reportId → a.value.fieldId = b.value.fieldId →
    a.origin = b.origin ∧ a.value.aggregation = b.value.aggregation
  /-- Arrays and constants are never merged. -/
  elements : ∀ a ∈ run, mergeable a.value = true → a.origin.field ∈ m.fields ∧
    isVariableField a.origin.field = true ∧ ∃ i < a.origin.field.reportCount, a.origin.element = some i
  notBoot : ∀ a ∈ run, ∀ d source data, ∀ v ∈ (BootReportDecoder.decode d source data).values,
    a.value.fieldId ≠ v.fieldId
  keys : ∀ a ∈ run, ∀ b ∈ run, mergeable a.value = true → mergeable b.value = true → SharesKey a b →
    a.origin = b.origin
  bootKeys : ∀ a ∈ run, ∀ d source data, ∀ v ∈ (BootReportDecoder.decode d source data).values,
    ∀ x y : DecodedReport, x.sampledKey a.value ≠ y.sampledKey v

/-- The values of every run are those of its emissions, and their keys tell the elements apart. -/
theorem parse_identified (data : Buffer) (m : HIDReportMap) (h : parseReportMapData data = some m)
    (calls : List ParseCall) :
    (runEmissions m calls).map (·.value) = parsedValues m calls ∧ Identified m (runEmissions m calls) := by
  obtain ⟨hm, -⟩ := parseReportMapData_inv h
  have hboot : ∀ a ∈ runEmissions m calls, ∀ d source data,
      ∀ v ∈ (BootReportDecoder.decode d source data).values, a.value.fieldId ≠ v.fieldId := by
    intro a ha d source data v hv heq
    obtain ⟨r, hr⟩ := runEmissions_known hm ha
    have hlt := hr.fieldId_lt hm
    have hle := decode_fieldId d source data v hv
    omega
  refine ⟨runEmissions_values hm calls, ?_, ?_, hboot, ?_, ?_⟩
  · intro a ha b hb hmergeA hmergeB hreport hid
    obtain ⟨r, hr⟩ := runEmissions_known hm ha
    obtain ⟨s, hs⟩ := runEmissions_known hm hb
    exact origin_eq hm hr hs hmergeA hmergeB (by rw [← hr.reportId, ← hs.reportId, hreport]) hid
  · intro a ha hmerge
    obtain ⟨r, hr⟩ := runEmissions_known hm ha
    obtain ⟨hvar, i, hi, hai, -⟩ := hr.variable_of_mergeable hmerge
    exact ⟨List.mem_of_mem_filter hr.field, by simp [isVariableField, hr.data, hvar], i, hi, hai⟩
  · rintro a ha b hb hmergeA hmergeB ⟨x, y, hx, hy, hkey⟩
    obtain ⟨r, hr⟩ := runEmissions_known hm ha
    obtain ⟨s, hs⟩ := runEmissions_known hm hb
    simp only [DecodedReport.sampledKey, hx, hy, SampledEventKey.mk.injEq] at hkey
    have hreport : r.reportId = s.reportId := by
      rw [hr.selected, hs.selected]
      exact hkey.2.2.1
    exact (origin_eq hm hr hs hmergeA hmergeB hreport hkey.2.1).1
  · intro a ha d source data v hv x y hkey
    simp only [DecodedReport.sampledKey, SampledEventKey.mk.injEq] at hkey
    exact hboot a ha d source data v hv hkey.2.1

def mouseCalls : List ParseCall :=
  [({ characteristicHandle := 39 }, .bytes [0x01, 0xFF, 0x2F, 0x00]),
    ({ characteristicHandle := 39 }, .bytes [0x00, 0x02]),
    ({ characteristicHandle := 39 }, .bytes [0x00, 0xFE, 0x01, 0x00])]

theorem parse_identified_mouse :
    (runEmissions mouseMap mouseCalls).map (·.value) = parsedValues mouseMap mouseCalls ∧
      Identified mouseMap (runEmissions mouseMap mouseCalls) :=
  parse_identified (.bytes mouseDescriptor) mouseMap (by rw [mouseMap, Option.some_get]) mouseCalls

end HidParser

end BleClientHid
