import BleClientHid.Component.Pipeline
import BleClientHid.HidParser.Arrays

/-! # Every report is accounted for

With coalescing, what a connection has published and what is still pending are the
values of its reports, in blocks that never cross a barrier. Without it, they are the values.
-/

namespace BleClientHid

open Lib BLEClientHID HidParser HIDReportMap OrderedEventBuffer

/-! ## Modes -/

/-- How the element at the bit is put together, by the report that declares it. -/
def declaredMode (m : HIDReportMap) (reportId bit : Nat) : Option Aggregation := do
  let report ← m.findReport .input reportId
  let field ← (m.fieldsOf report).find? fun field => covers field bit
  return aggregationOf field (field.usageAt ((bit - field.bitOffset) / field.reportSize) true)

/-- No field of a map lies where the boot decoder numbers its axes. -/
def modeOf (contexts : List HIDServiceContext) (key : SampledEventKey) : Aggregation :=
  if maxReportBits ≤ key.fieldId then .sum
  else ((reportMapOf contexts key.serviceInstance).bind fun m =>
    declaredMode m key.reportId key.fieldId).getD .sum

theorem modeOf_fixed (contexts : List HIDServiceContext) : modeOf (contexts.map (·.fixed)) = modeOf contexts := by
  funext key
  unfold modeOf
  rw [reportMapOf_fixed]
  cases reportMapOf contexts key.serviceInstance <;> rfl

/-- The element of a merged value is found by its field id. -/
theorem declaredMode_known {m : HIDReportMap} (hm : SchemaInv m) {r : HIDReportSchema} {e : Emission}
    (h : e.Known m r) (hmerge : mergeable e.value = true) :
    declaredMode m r.reportId e.value.fieldId = some e.value.aggregation := by
  obtain ⟨-, i, hi, -, hid, haggregation⟩ := h.variable_of_mergeable hmerge
  have hsize : 0 < e.origin.field.reportSize := (hm.fieldSize _ (List.mem_of_mem_filter h.field)).1
  have hreport : m.findReport .input r.reportId = some r := by
    rw [← h.input]
    exact findReport_of_mem hm.distinct h.report
  have hfield : (m.fieldsOf r).find? (fun field => covers field e.value.fieldId) = some e.origin.field := by
    have hsome : ((m.fieldsOf r).find? fun field => covers field e.value.fieldId).isSome = true :=
      List.find?_isSome.mpr ⟨e.origin.field, h.field, h.covers hm⟩
    obtain ⟨found, hfound⟩ := Option.isSome_iff_exists.mp hsome
    have hfoundCovers : covers found e.value.fieldId = true :=
      List.find?_some (p := fun field => covers field e.value.fieldId) hfound
    rw [hfound, eq_of_covers hm h.report (List.mem_of_find?_eq_some hfound) h.field hfoundCovers (h.covers hm)]
  have hindex : (e.value.fieldId - e.origin.field.bitOffset) / e.origin.field.reportSize = i := by
    rw [hid, element_position hm h.report h.field hi, Nat.add_sub_cancel_left, Nat.mul_div_cancel _ hsize]
  unfold declaredMode
  rw [hreport]
  simp only [Option.bind_eq_bind, Option.bind_some, Option.pure_def, hfield, hindex, haggregation]

theorem emissions_source {m : HIDReportMap} {source : HIDReportSource} {data : Buffer} {e : Emission}
    (he : e ∈ emissions m source data) : e.source = source := by
  unfold emissions at he
  split at he
  · split at he
    · cases he
    · obtain ⟨field, -, hfield⟩ := List.mem_flatMap.mp he
      obtain ⟨made, -, rfl⟩ := List.mem_map.mp hfield
      rfl
  · cases he

/-! ## The range of the values -/

/-- Both numbers of a value are `int64_t`s. -/
def InRange (value : HIDReportItemValue) : Prop := Int64Range value.value ∧ Int64Range value.rawValue

theorem readBits_range {data : List UInt8} {bitOffset bitSize : Nat} {signedValue : Bool} {v : Int}
    (h : readBits data bitOffset bitSize signedValue = some v) : Int64Range v := by
  unfold readBits at h
  split at h
  · cases h
  · rename_i hinside
    have hraw : gatherBits data bitOffset bitSize < 2 ^ bitSize := by
      rw [gatherBits_eq]
      exact ofBits_lt _ _
    have hsize : 2 ^ bitSize ≤ 2 ^ 32 := Nat.pow_le_pow_right (by decide) (by omega)
    have hextended : signExtend (gatherBits data bitOffset bitSize) bitSize < 2 ^ 32 := by
      unfold signExtend
      split
      · exact Nat.or_lt_two_pow (by omega) (Nat.mod_lt _ (by decide))
      · omega
    obtain rfl := Option.some.inj h
    unfold Int64Range int64Min int64Max
    split
    · unfold toInt32
      split <;> omega
    · omega

theorem readElement_range {data : List UInt8} {field : HIDFieldSchema} {index : Nat} {v : Int}
    (h : readElement data field index = some v) : Int64Range v := by
  unfold readElement at h
  split at h
  · cases h
  · rename_i hread
    split at h
    · cases h
    · exact Option.some.inj h ▸ readBits_range hread

theorem decodeVariable_range (m : HIDReportMap) (r : HIDReportSchema) (field : HIDFieldSchema) (data : List UInt8)
    (memory : FieldRuntime) : ∀ value ∈ (decodeVariable m r field data memory).2, InRange value := by
  have hloop : ∀ value ∈ ((List.range field.reportCount).foldl (variableElement m r field data)
      (memory.lastValues, [])).2, InRange value := by
    refine List.foldlRecOn
      (motive := fun st : List Int × List HIDReportItemValue => ∀ value ∈ st.2, InRange value) _ _ (by simp) ?_
    intro st hst index _
    unfold variableElement
    split
    · exact hst
    · rename_i raw hraw
      split
      · exact hst
      · intro value hvalue
        rcases List.mem_append.mp hvalue with hvalue | hvalue
        · exact hst value hvalue
        · rw [List.mem_singleton.mp hvalue]
          exact ⟨readElement_range hraw, readElement_range hraw⟩
  exact hloop

theorem currentUsages_range (data : List UInt8) (field : HIDFieldSchema) :
    ∀ entry ∈ currentUsages data field, Int64Range entry.2 := by
  refine List.foldlRecOn
    (motive := fun usages : UsageMultimap => ∀ entry ∈ usages, Int64Range entry.2) _ _ (by simp) ?_
  intro usages husages index _
  split
  · exact husages
  · rename_i usage raw hslot
    intro entry hentry
    rcases List.mem_cons.mp ((emplace_perm usage raw usages).subset hentry) with rfl | hentry
    · unfold slotUsage at hslot
      split at hslot
      · cases hslot
      · rename_i hraw
        dsimp only at hslot
        split at hslot
        · obtain ⟨-, rfl⟩ := Prod.mk.inj (Option.some.inj hslot)
          exact readElement_range hraw
        · cases hslot
    · exact husages entry hentry

theorem mem_of_mem_unmatched {entries others : UsageMultimap} {entry : HIDUsage × Int}
    (h : entry ∈ unmatched entries others) : entry ∈ entries := by
  induction entries generalizing others with
  | nil => exact h
  | cons first rest ih =>
    unfold unmatched at h
    split at h
    · exact List.mem_cons_of_mem _ (ih h)
    · rcases List.mem_cons.mp h with rfl | h
      · exact List.mem_cons_self
      · exact List.mem_cons_of_mem _ (ih h)

theorem decodeArray_range (m : HIDReportMap) (r : HIDReportSchema) (field : HIDFieldSchema) (data : List UInt8)
    (memory : FieldRuntime) : ∀ value ∈ (decodeArray m r field data memory).2, InRange value := by
  intro value hvalue
  simp only [decodeArray, List.mem_append, List.mem_map] at hvalue
  rcases hvalue with ⟨entry, hentry, rfl⟩ | ⟨entry, -, rfl⟩
  · exact ⟨(by decide : Int64Range 1), currentUsages_range data field entry (mem_of_mem_unmatched hentry)⟩
  · exact ⟨(by decide : Int64Range 0), (by decide : Int64Range 0)⟩

/-- What the decoders of the fields give their values, a report gives. -/
theorem parse_forall {m : HIDReportMap} (hm : SchemaInv m) (source : HIDReportSource) {payload : List UInt8}
    {P : HIDReportItemValue → Prop}
    (hvariable : ∀ r field memory, ∀ value ∈ (decodeVariable m r field payload memory).2, P value)
    (harray : ∀ r field memory, ∀ value ∈ (decodeArray m r field payload memory).2, P value)
    (hhandle : ∀ value : HIDReportItemValue, P value →
      P { value with characteristicHandle := source.characteristicHandle }) :
    ∀ value ∈ (parse m source (.bytes payload)).values, P value := by
  by_cases h : (parse m source (.bytes payload)).status = .exact ∨ (parse m source (.bytes payload)).status = .long
  · obtain ⟨-, r, hr⟩ := accepts_of_status h
    obtain ⟨-, -, hvalues, -⟩ := parseInput_eq hm hr.mem payload
    have hr : Accepts m r source payload := hr
    rw [parse_accepted hr]
    intro value hvalue
    obtain ⟨made, hmade, rfl⟩ := List.mem_map.mp hvalue
    have hmade' : made ∈ (m.fieldsOf r).flatMap (fieldValues m r payload m.runtime) := hvalues ▸ hmade
    obtain ⟨field, -, hfield⟩ := List.mem_flatMap.mp hmade'
    unfold fieldValues decodeField at hfield
    split at hfield
    · cases hfield
    · split at hfield
      · exact hhandle made (hvariable r field _ made hfield)
      · exact hhandle made (harray r field _ made hfield)
  · rw [(parse_rejected m source (.bytes payload) (fun he => h (.inl he)) fun hl => h (.inr hl)).1]
    simp

theorem parse_range {m : HIDReportMap} (hm : SchemaInv m) (source : HIDReportSource) (payload : List UInt8) :
    ∀ value ∈ (parse m source (.bytes payload)).values, InRange value :=
  parse_forall hm source (fun r field => decodeVariable_range m r field payload)
    (fun r field => decodeArray_range m r field payload) fun _ h => h

/-! ### Boot reports -/

/-- What the boot decoder merges are the moves of an axis. -/
structure BootValue (value : HIDReportItemValue) : Prop where
  sum : mergeable value = true → value.aggregation = .sum
  relative : mergeable value = true → value.isRelative = true
  range : InRange value

theorem switch_range (active : Bool) : Int64Range (if active then 1 else 0) := by
  cases active <;> decide

theorem mouseButtonValue_boot (bit : Nat) (active : Bool) :
    BootValue (BootReportDecoder.mouseButtonValue bit active) where
  sum := by simp [mergeable, BootReportDecoder.mouseButtonValue]
  relative := by simp [mergeable, BootReportDecoder.mouseButtonValue]
  range := ⟨switch_range active, switch_range active⟩

theorem mouseAxisValues_boot (usage fieldId : Nat) (byte : UInt8) :
    ∀ value ∈ BootReportDecoder.mouseAxisValues usage fieldId (BootReportDecoder.toInt8 byte), BootValue value := by
  intro value hvalue
  have hbyte := byte.toNat_lt
  have hmove : Int64Range (BootReportDecoder.toInt8 byte) := by
    unfold Int64Range int64Min int64Max BootReportDecoder.toInt8
    split <;> omega
  unfold BootReportDecoder.mouseAxisValues at hvalue
  split at hvalue
  · rw [List.mem_singleton.mp hvalue]
    exact ⟨fun _ => rfl, fun _ => rfl, hmove, hmove⟩
  · cases hvalue

theorem decodeMouse_boot (d : HIDBootReportDecoder) (handle : Nat) (data : List UInt8) :
    ∀ value ∈ (BootReportDecoder.decodeMouse d handle data).2, BootValue value := by
  intro value hvalue
  simp only [BootReportDecoder.decodeMouse, List.mem_append] at hvalue
  rcases hvalue with (hvalue | hvalue) | hvalue
  · obtain ⟨bit, active, rfl⟩ := BootReportDecoder.mouseButtonValues_cases hvalue
    exact mouseButtonValue_boot bit active
  · exact mouseAxisValues_boot _ _ _ value hvalue
  · exact mouseAxisValues_boot _ _ _ value hvalue

theorem keyValue_boot (key : Nat) {value rawValue : Int} (hvalue : Int64Range value) (hraw : Int64Range rawValue) :
    BootValue (BootReportDecoder.keyValue key value rawValue) where
  sum := by simp [mergeable, BootReportDecoder.keyValue]
  relative := by simp [mergeable, BootReportDecoder.keyValue]
  range := ⟨hvalue, hraw⟩

theorem decodeKeyboard_boot (d : HIDBootReportDecoder) (handle : Nat) (data : List UInt8) :
    ∀ value ∈ (BootReportDecoder.decodeKeyboard d handle data).2, BootValue value := by
  intro value hvalue
  simp only [BootReportDecoder.decodeKeyboard, BootReportDecoder.modifierValues, BootReportDecoder.keyValues,
    List.mem_append, List.mem_filterMap, List.mem_map, List.mem_filter] at hvalue
  rcases hvalue with ⟨bit, -, hbit⟩ | ⟨key, ⟨hkey, -⟩, rfl⟩ | ⟨key, -, rfl⟩
  · split at hbit
    · obtain rfl := Option.some.inj hbit
      exact ⟨by simp [mergeable, BootReportDecoder.modifierValue], by simp [mergeable, BootReportDecoder.modifierValue],
        switch_range _, switch_range _⟩
    · cases hbit
  · have hcode : key ≤ 0xE7 := by
      have hmem := BootReportDecoder.mem_currentKeys.mp hkey
      simp only [BootReportDecoder.keyCodes, List.mem_filter, decide_eq_true_eq] at hmem
      exact hmem.2.2
    refine keyValue_boot key (by decide) ?_
    unfold Int64Range int64Min int64Max
    omega
  · exact keyValue_boot key (by decide) (by decide)

theorem decode_boot (d : HIDBootReportDecoder) (source : HIDReportSource) (data : Buffer) :
    ∀ value ∈ (BootReportDecoder.decode d source data).values, BootValue value := by
  rcases BootReportDecoder.decode_cases d source data with ⟨-, hvalues, -⟩ | ⟨-, bytes, -, hdecoded⟩
  · rw [hvalues]
    simp
  · rcases hdecoded with ⟨-, -, hvalues⟩ | ⟨-, -, hvalues⟩
    · rw [hvalues]
      exact decodeMouse_boot d _ bytes
    · rw [hvalues]
      exact decodeKeyboard_boot d _ bytes

/-! ## Every report has its modes -/

/-- The map of a context is well formed, whatever reports have left in it. -/
theorem schemaInv_of_renewed {p : Profile} (h : p.renewed.Fresh) {i : Nat} {m : HIDReportMap}
    (hm : reportMapOf p.hidServices i = some m) : SchemaInv m := by
  have hfixed : reportMapOf p.renewed.hidServices i = some m.resetRuntimeState := by
    have hmaps := reportMapOf_fixed p.hidServices i
    rw [hm] at hmaps
    exact hmaps
  obtain ⟨context, hfind, hmap⟩ := Option.bind_eq_some_iff.mp hfixed
  have hinv := (h.maps context (List.mem_of_find?_eq_some hfind) _ hmap).1
  exact hinv.withRuntime m.runtime

theorem accept_mode {p : Profile} (h : p.renewed.Fresh) (intake : Intake) :
    (p.accept intake).2.Mode (modeOf p.renewed.hidServices) := by
  cases intake with
  -- a window carries no value
  | window now => trivial
  | report platform clock report =>
    have hmode : modeOf p.renewed.hidServices = modeOf p.hidServices := modeOf_fixed p.hidServices
    have hvalues : ∀ value ∈ (decodeReport report p.component).values, InRange value ∧
        (mergeable value = true → ∀ key : SampledEventKey,
          key.serviceInstance = report.source.serviceInstance → key.fieldId = value.fieldId →
          key.reportId = selectedReportId report.source → value.aggregation = modeOf p.hidServices key) := by
      intro value hvalue
      unfold decodeReport at hvalue
      split at hvalue
      · -- boot decoding: the identifiers lie past every element of a report map
        have hboot := decode_boot p.bootDecoder report.source (.bytes report.payload) value hvalue
        refine ⟨hboot.range, fun hmerge key _ hid _ => ?_⟩
        have hle := decode_fieldId p.bootDecoder report.source (.bytes report.payload) value hvalue
        rw [hboot.sum hmerge, modeOf, if_pos (hid ▸ hle)]
      · split at hvalue
        · simp at hvalue
        · rename_i m hmap
          have hm := schemaInv_of_renewed h (i := report.source.serviceInstance) hmap
          refine ⟨parse_range hm report.source report.payload value hvalue, fun hmerge key hservice hid hreport => ?_⟩
          have hvalue' : value ∈ (emissions m report.source (.bytes report.payload)).map (·.value) := by
            rw [emissions_values hm]
            exact hvalue
          obtain ⟨e, he, rfl⟩ := List.mem_map.mp hvalue'
          -- report-map decoding: the value names a declared element, whose mode is the one looked up
          obtain ⟨r, hr⟩ := emissions_known he
          have hlt := hr.fieldId_lt hm
          have hsource : e.source = report.source := emissions_source he
          have hmapOf : reportMapOf p.hidServices key.serviceInstance = some m := by
            rw [hservice]
            exact hmap
          unfold modeOf
          rw [if_neg (by omega), hmapOf, Option.bind_some, hreport, hid, ← hsource, ← hr.selected,
            declaredMode_known hm hr hmerge, Option.getD_some]
    rw [hmode]
    exact ⟨fun value hvalue hmerge => (hvalues value hvalue).2 hmerge _ rfl rfl rfl,
      fun value hvalue => (hvalues value hvalue).1.1, fun value hvalue => (hvalues value hvalue).1.2⟩

/-! ## With coalescing -/

/-- What the reports bring to the second stage, in order. -/
def Profile.arrivals (p : Profile) : List Intake → List SampledArrival
  | [] => []
  | intake :: intakes => (p.accept intake).2.arrivals ++ Profile.arrivals (p.accept intake).1 intakes

theorem Pipeline.accept_interval (p : Pipeline) (intake : Intake) :
    (p.accept intake).profile.interval = p.profile.interval := by
  have hrenewed := congrArg Profile.interval (p.profile.accept_renewed intake)
  exact hrenewed

/-- The window explains what has left it by what the reports brought. -/
theorem Pipeline.acceptAll_explained {mode : SampledEventKey → Aggregation} (intakes : List Intake) {p : Pipeline}
    {arrivals : List SampledArrival} (hinterval : p.profile.interval ≠ 0) (hfresh : p.profile.renewed.Fresh)
    (hmode : modeOf p.profile.renewed.hidServices = mode) (h : Explained mode p.window arrivals p.events)
    (hinv : WindowInv p.window) :
    Explained mode (p.acceptAll intakes).window (arrivals ++ p.profile.arrivals intakes)
      (p.acceptAll intakes).events := by
  induction intakes generalizing p arrivals with
  | nil =>
    rw [Profile.arrivals, List.append_nil]
    exact h
  | cons intake intakes ih =>
    have hrenewed : (p.accept intake).profile.renewed = p.profile.renewed := p.profile.accept_renewed intake
    obtain ⟨hstep, hinv'⟩ := samplingStep_spec hinterval (p.profile.accept intake).2
      (hmode ▸ accept_mode hfresh intake) h hinv
    rw [acceptAll_cons, Profile.arrivals, ← List.append_assoc]
    exact ih ((p.accept_interval intake) ▸ hinterval) (hrenewed ▸ hfresh) (hrenewed ▸ hmode) hstep hinv'

/-- The blocks and barriers that account for what a connection has published and still holds back. -/
def AccountedFor (s : BLEClientHID) (intakes : List Intake) : Prop :=
  ∃ emissions : List SampledEmission,
    List.Forall₂ (Carries (modeOf s.hidServices)) emissions
      (s.hidEvents ++ s.window.sampledEvents.drain.2) ∧
    Coalesces (s.profile.renewed.arrivals intakes) emissions

theorem Fed.accountedFor {interval : UInt32} {s : BLEClientHID} {intakes : List Intake} (h : Fed interval s intakes)
    (hinterval : interval ≠ 0) : AccountedFor s intakes := by
  obtain ⟨⟨startedUs, hfed⟩, hfresh, hconfigured, -⟩ := h
  have hstart : (s.start startedUs).profile.renewed = s.profile.renewed := hfresh.renewed
  have hidle : Explained (modeOf s.hidServices) (s.start startedUs).window [] (s.start startedUs).events :=
    ⟨[], [], .nil, .nil, Coalesces.nil, List.nodup_nil⟩
  have hmode : modeOf (s.start startedUs).profile.renewed.hidServices = modeOf s.hidServices := by
    rw [hstart]
    exact modeOf_fixed s.hidServices
  have hon : (s.start startedUs).profile.interval ≠ 0 := by
    intro hzero
    exact hinterval (hconfigured.symm.trans hzero)
  have hexplained := Pipeline.acceptAll_explained intakes hon (hstart ▸ hfresh) hmode hidle ⟨fun _ => rfl, rfl⟩
  rw [← hfed, List.nil_append] at hexplained
  obtain ⟨emissions, blocks, hdrained⟩ := hexplained.drain (v := {}) rfl
  obtain rfl := hdrained.blocks_nil rfl
  have hcoalesces := hdrained.coalesces
  rw [List.map_nil, List.append_nil] at hcoalesces
  exact ⟨emissions, hdrained.carries, hcoalesces⟩

/-- With coalescing, no value of a report is lost, doubled or moved across a barrier, whatever the setup, the
clocks and the other connections do. -/
theorem published_coalesces (discoveryMode : DiscoveryMode) (policy : ProtocolModePolicy) (interval : UInt32)
    (hinterval : interval ≠ 0) (events : List Event)
    (hsearch : ∀ n < events.length, (run (initial discoveryMode policy interval) (events.take (n + 1))).OneSearch) :
    AccountedFor (run (initial discoveryMode policy interval) events)
      (received (initial discoveryMode policy interval) events) :=
  (run_fed discoveryMode policy interval events hsearch).accountedFor hinterval

theorem published_coalesces_keyboard :
    AccountedFor (run (initial .standard .unchanged 500) secondConnection)
      (received (initial .standard .unchanged 500) secondConnection) :=
  published_coalesces .standard .unchanged 500 (by decide) secondConnection (by decide +kernel)

/-! ## Without coalescing -/

def SampledArrival.event : SampledArrival → HIDEvent
  | .contribution _ c => c.event
  | .barrier event => event

theorem processValues_plain (d : DecodedReport) (clock : ReportClock) (fuel index : Nat)
    (values : List HIDReportItemValue) (hfuel : values.length ≤ fuel) (w : SamplingWindow) :
    processValues 0 d clock fuel index values w = (w, values.map fun value => d.event (some value)) := by
  induction fuel generalizing index values with
  | zero =>
    obtain rfl := List.eq_nil_of_length_eq_zero (Nat.le_zero.mp hfuel)
    rfl
  | succ fuel ih =>
    cases values with
    | nil => rfl
    | cons value rest =>
      rw [processValues, if_pos rfl, ih (index + 1) rest (Nat.le_of_succ_le_succ hfuel)]
      rfl

theorem samplingStep_plain (step : SamplingStep) {w : SamplingWindow} (hempty : w.sampledEvents.pending = []) :
    (samplingStep 0 w step).1.sampledEvents.pending = [] ∧
      (samplingStep 0 w step).2 = step.arrivals.map SampledArrival.event := by
  have hwindow (now : UInt32) : updateSamplingWindow 0 now w = (w, []) := if_pos (.inr rfl)
  cases step with
  | window now =>
    unfold samplingStep
    dsimp only
    rw [hwindow]
    exact ⟨hempty, rfl⟩
  | report clock d =>
    have hevents : d.values.map (fun value => d.event (some value)) =
        (d.values.map d.arrival).map SampledArrival.event := by
      rw [List.map_map]
      apply List.map_congr_left
      intro value _
      unfold Function.comp DecodedReport.arrival
      split <;> rfl
    unfold samplingStep processDecodedReport processDecodedValues SamplingStep.arrivals DecodedReport.arrivals
    dsimp only
    rw [hwindow, processValues_plain d clock _ 0 d.values (Nat.le_refl _) w]
    split
    · rename_i hraw
      rw [Bool.and_eq_true, List.isEmpty_iff] at hraw
      refine ⟨rfl, ?_⟩
      dsimp only [emitBarrier, OrderedEventBuffer.drainBefore, OrderedEventBuffer.drain]
      rw [hempty, hraw.1]
      rfl
    · exact ⟨hempty, hevents⟩

theorem Pipeline.acceptAll_plain (intakes : List Intake) {p : Pipeline} (hinterval : p.profile.interval = 0)
    (hempty : p.window.sampledEvents.pending = []) :
    (p.acceptAll intakes).events = p.events ++ (p.profile.arrivals intakes).map SampledArrival.event := by
  induction intakes generalizing p with
  | nil => exact (List.append_nil _).symm
  | cons intake intakes ih =>
    obtain ⟨hstill, hevents⟩ := samplingStep_plain (p.profile.accept intake).2 hempty
    have hnext : (p.accept intake).window.sampledEvents.pending = [] := by
      unfold accept
      dsimp only
      rw [hinterval]
      exact hstill
    have hemitted : (p.accept intake).events =
        p.events ++ (p.profile.accept intake).2.arrivals.map SampledArrival.event := by
      unfold accept
      dsimp only
      rw [hinterval, hevents]
    rw [acceptAll_cons, ih ((p.accept_interval intake).trans hinterval) hnext, hemitted, List.append_assoc, ← List.map_append]
    rfl

theorem Fed.plain {s : BLEClientHID} {intakes : List Intake} (h : Fed 0 s intakes) :
    s.hidEvents = (s.profile.renewed.arrivals intakes).map SampledArrival.event := by
  obtain ⟨⟨startedUs, hfed⟩, -, hconfigured, -⟩ := h
  have hevents : s.hidEvents = (s.pipeline).events := rfl
  rw [hevents, hfed, Pipeline.acceptAll_plain _ hconfigured rfl]
  rfl

/-- Without coalescing, a connection publishes the values of its reports one by one, in the order of the queue,
and the clocks have no say. -/
theorem published_plain (discoveryMode : DiscoveryMode) (policy : ProtocolModePolicy) (events : List Event)
    (hsearch : ∀ n < events.length, (run (initial discoveryMode policy 0) (events.take (n + 1))).OneSearch) :
    let s := run (initial discoveryMode policy 0) events
    s.hidEvents =
      (s.profile.renewed.arrivals (received (initial discoveryMode policy 0) events)).map SampledArrival.event :=
  (run_fed discoveryMode policy 0 events hsearch).plain

theorem published_plain_keyboard :
    let s := run (initial .standard .unchanged 0) secondConnection
    s.hidEvents =
      (s.profile.renewed.arrivals (received (initial .standard .unchanged 0) secondConnection)).map
        SampledArrival.event :=
  published_plain .standard .unchanged secondConnection (by decide +kernel)

end BleClientHid
