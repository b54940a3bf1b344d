import BleClientHid.HidParser.Acceptance
import BleClientHid.HidParser.SignedDecoders
import BleClientHid.Lib.Checked

/-! # Decoding stays inside its memory

`parse_input_` again, with every index and every 32-bit number checked, and a fault where
`read_bits_` returns false.
-/

namespace BleClientHid

namespace HidParser

open Lib HIDReportMap

/-! ## Checked decoding -/

def bitSetChecked (data : List UInt8) (pos : Nat) : Checked Bool := do
  let byte ← getAt data (pos / 8)
  return byte.toNat &&& (1 <<< (pos % 8)) != 0

def gatherBitsChecked (data : List UInt8) (bitOffset bitSize : Nat) : Checked Nat :=
  (List.range bitSize).foldlM (fun raw bit => do
    let pos ← fits 32 (bitOffset + bit)
    let isSet ← bitSetChecked data pos
    return if isSet then raw ||| 1 <<< bit else raw) 0

def readBitsChecked (data : List UInt8) (bitOffset bitSize : Nat) (signedValue : Bool) : Checked Int :=
  if bitSize = 0 ∨ bitSize > 32 ∨ bitOffset > data.length * 8 ∨ bitSize > data.length * 8 - bitOffset then
    .error .refused
  else do
    let raw ← gatherBitsChecked data bitOffset bitSize
    return if signedValue then toInt32 (signExtend raw bitSize) else raw

/-- The position is computed in 32 bits. -/
def readElementChecked (data : List UInt8) (field : HIDFieldSchema) (index : Nat) : Checked (Option Int) := do
  let pos ← fits 32 (field.bitOffset + index * field.reportSize)
  let rawValue ← readBitsChecked data pos field.reportSize (decide (field.logical.minimum < 0))
  return if rawValue < field.logical.minimum ∨ rawValue > field.logical.maximum then none else some rawValue

/-- One round over a variable field. Only an absolute field reads `last_values[index]`, and only a value
that is emitted writes it. -/
def variableElementChecked (m : HIDReportMap) (report : HIDReportSchema) (field : HIDFieldSchema)
    (data : List UInt8) (st : List Int × List HIDReportItemValue) (index : Nat) :
    Checked (List Int × List HIDReportItemValue) := do
  match ← readElementChecked data field index with
  | none => return st
  | some rawValue =>
    let unchanged ← if field.isRelative then pure (decide (rawValue = 0))
      else do
        let last ← getAt st.1 index
        pure (decide (last = rawValue))
    if unchanged then return st
    else
      let _ ← fits 32 (field.bitOffset + index * field.reportSize)
      let lastValues ← setAt st.1 index rawValue
      return (lastValues, st.2 ++ [variableValue m report field index rawValue])

/-- The usage index is the distance to the logical minimum, in 32 bits. -/
def slotUsageChecked (data : List UInt8) (field : HIDFieldSchema) (index : Nat) :
    Checked (Option (HIDUsage × Int)) := do
  match ← readElementChecked data field index with
  | none => return none
  | some rawValue =>
    let usageIndex ← fitsInt 32 (rawValue - field.logical.minimum)
    let usage := field.usageAt usageIndex false
    return if usage.page ≠ 0 ∧ usage.usage ≠ 0 then some (usage, rawValue) else none

def currentUsagesChecked (data : List UInt8) (field : HIDFieldSchema) : Checked UsageMultimap :=
  (List.range field.reportCount).foldlM (fun current index => do
    match ← slotUsageChecked data field index with
    | none => return current
    | some (usage, rawValue) => return emplace usage rawValue current) []

def decodeVariableChecked (m : HIDReportMap) (report : HIDReportSchema) (field : HIDFieldSchema)
    (data : List UInt8) (runtime : FieldRuntime) : Checked (FieldRuntime × List HIDReportItemValue) := do
  let (lastValues, values) ←
    (List.range field.reportCount).foldlM (variableElementChecked m report field data) (runtime.lastValues, [])
  return ({ runtime with lastValues }, values)

def decodeArrayChecked (m : HIDReportMap) (report : HIDReportSchema) (field : HIDFieldSchema)
    (data : List UInt8) (runtime : FieldRuntime) : Checked (FieldRuntime × List HIDReportItemValue) := do
  let current ← currentUsagesChecked data field
  let presses := unmatched current runtime.activeArrayUsages
  let releases := unmatched runtime.activeArrayUsages current
  return ({ runtime with activeArrayUsages := current },
    presses.map (fun entry => arrayValue m report field entry.1 1 entry.2) ++
      releases.map (fun entry => arrayValue m report field entry.1 0 0))

def decodeFieldChecked (m : HIDReportMap) (report : HIDReportSchema) (field : HIDFieldSchema)
    (data : List UInt8) (runtime : FieldRuntime) : Checked (FieldRuntime × List HIDReportItemValue) :=
  if field.isVariable then decodeVariableChecked m report field data (initRuntime field runtime)
  else decodeArrayChecked m report field data (initRuntime field runtime)

/-- `fields_[field_id]` first. -/
def parseInputFieldChecked (m : HIDReportMap) (report : HIDReportSchema) (data : List UInt8)
    (st : (Nat → FieldRuntime) × List HIDReportItemValue) (fieldId : Nat) :
    Checked ((Nat → FieldRuntime) × List HIDReportItemValue) := do
  let field ← getAt m.fields fieldId
  if field.isConstant then return st
  else
    let (runtime, values) ← decodeFieldChecked m report field data (st.1 field.id)
    return (Function.update st.1 field.id runtime, st.2 ++ values)

def parseInputChecked (m : HIDReportMap) (report : HIDReportSchema) (data : List UInt8) :
    Checked (HIDReportMap × List HIDReportItemValue) := do
  let (runtime, values) ← report.fieldIds.foldlM (parseInputFieldChecked m report data) (m.runtime, [])
  return ({ m with runtime }, values)

/-! ## Bits -/

theorem bitSetChecked_ok {data : List UInt8} {pos : Nat} (h : pos < data.length * 8) :
    bitSetChecked data pos = .ok (bitSet data pos) := by
  unfold bitSetChecked
  rw [getAt_of_lt (show pos / 8 < data.length by omega) 0]
  rfl

theorem gatherBitsChecked_ok {data : List UInt8} {off n : Nat} (hin : off + n ≤ data.length * 8)
    (h32 : off + n ≤ 2 ^ 32) : gatherBitsChecked data off n = .ok (gatherBits data off n) := by
  refine (foldlM_ok (I := fun _ => True) trivial ?_).1
  intro raw _ bit hbit
  rw [List.mem_range] at hbit
  refine ⟨?_, trivial⟩
  rw [fits_of_lt (show off + bit < 2 ^ 32 by omega), ok_bind,
    bitSetChecked_ok (show off + bit < data.length * 8 by omega)]
  rfl

theorem readBitsChecked_ok {data : List UInt8} {off n : Nat} (signedValue : Bool) (hn : 1 ≤ n) (hn32 : n ≤ 32)
    (hin : off + n ≤ data.length * 8) (h32 : off + n ≤ 2 ^ 32) :
    readBitsChecked data off n signedValue = .ok (bitsValue data off n signedValue) := by
  rw [readBitsChecked, if_neg (by omega), gatherBitsChecked_ok hin h32]
  simp only [ok_bind, gatherBits_eq, toInt32_signExtend hn hn32 (ofBits_lt _ _), bitsValue]
  rfl

/-- The sign of the minimum selects the range of what is read. -/
theorem bitsValue_range {data : List UInt8} {off n : Nat} {minimum : Int} (hn : 1 ≤ n) (hn32 : n ≤ 32)
    (hmin : -2 ^ 31 ≤ minimum) : bitsValue data off n (decide (minimum < 0)) < minimum + 2 ^ 32 := by
  have hlt := ofBits_lt (fun i => bitSet data (off + i)) n
  have hpow : (2 : Int) ^ n ≤ 2 ^ 32 := by exact_mod_cast Nat.pow_le_pow_right (show 0 < 2 by omega) hn32
  have htwice := two_pow_eq hn
  unfold bitsValue
  by_cases hneg : minimum < 0
  · have hrange := (twosComplement_range hn hlt).2
    rw [if_pos (by simpa using hneg)]
    omega
  · rw [if_neg (by simpa using hneg)]
    zify at hlt
    omega

/-! ## Fields -/

section
variable {m : HIDReportMap} {r : HIDReportSchema} {f : HIDFieldSchema} {payload : List UInt8}

/-- An element of a field lies in a payload that is long enough for the report. -/
theorem element_in_payload (hm : SchemaInv m) (hr : r ∈ m.reports) (hf : f ∈ m.fieldsOf r)
    (hlen : r.byteSize ≤ payload.length) {i : Nat} (hi : i < f.reportCount) :
    f.bitOffset + i * f.reportSize + f.reportSize ≤ payload.length * 8 ∧
      f.bitOffset + i * f.reportSize + f.reportSize ≤ 2 ^ 32 := by
  have hsize := (hm.fieldSize f (List.mem_of_mem_filter hf)).1
  have hin := element_inside hi (j := f.reportSize - 1) (by omega)
  have hend := ((hm.tiles r hr).inside f hf).2
  have hle := hm.bitSizeLe r hr
  have hmax : maxReportBits = 32768 := rfl
  unfold HIDReportSchema.byteSize at hlen
  omega

theorem readElementChecked_ok (hm : SchemaInv m) (hr : r ∈ m.reports) (hf : f ∈ m.fieldsOf r)
    (hlen : r.byteSize ≤ payload.length) {i : Nat} (hi : i < f.reportCount) :
    readElementChecked payload f i = .ok (readElement payload f i) := by
  obtain ⟨hin, h32⟩ := element_in_payload hm hr hf hlen hi
  obtain ⟨hsize, hsize32, -⟩ := hm.fieldSize f (List.mem_of_mem_filter hf)
  unfold readElementChecked readElement
  rw [fits_of_lt (show f.bitOffset + i * f.reportSize < 2 ^ 32 by omega), ok_bind,
    readBitsChecked_ok _ hsize hsize32 hin h32, ok_bind, element_position hm hr hf hi,
    readBits_eq _ hsize hsize32 hin]
  rfl

theorem variableElementChecked_ok (hm : SchemaInv m) (hr : r ∈ m.reports) (hf : f ∈ m.fieldsOf r)
    (hlen : r.byteSize ≤ payload.length) {i : Nat} (hi : i < f.reportCount)
    {st : List Int × List HIDReportItemValue} (hst : st.1.length = f.reportCount) :
    variableElementChecked m r f payload st i = .ok (variableElement m r f payload st i) ∧
      (variableElement m r f payload st i).1.length = f.reportCount := by
  have h32 := (element_in_payload hm hr hf hlen hi).2
  have hsize := (hm.fieldSize f (List.mem_of_mem_filter hf)).1
  unfold variableElementChecked variableElement
  rw [readElementChecked_ok hm hr hf hlen hi, ok_bind]
  cases readElement payload f i with
  | none => exact ⟨rfl, hst⟩
  | some rawValue =>
    simp only [getAt_of_lt (hst ▸ hi) 0, setAt_of_lt (hst ▸ hi),
      fits_of_lt (show f.bitOffset + i * f.reportSize < 2 ^ 32 by omega), ok_bind, pure_ok]
    cases f.isRelative <;> simp only [Bool.false_eq_true, if_false, if_true, true_and, false_and,
      not_true_eq_false, not_false_eq_true, or_false, false_or, decide_eq_true_eq]
    · split
      · exact ⟨rfl, hst⟩
      · exact ⟨rfl, by simpa using hst⟩
    · split
      · exact ⟨rfl, hst⟩
      · exact ⟨rfl, by simpa using hst⟩

theorem slotUsageChecked_ok (hm : SchemaInv m) (hr : r ∈ m.reports) (hf : f ∈ m.fieldsOf r)
    (hlen : r.byteSize ≤ payload.length) (hmin : -2 ^ 31 ≤ f.logical.minimum) {i : Nat} (hi : i < f.reportCount) :
    slotUsageChecked payload f i = .ok (slotUsage payload f i) := by
  obtain ⟨hin, -⟩ := element_in_payload hm hr hf hlen hi
  obtain ⟨hsize, hsize32, -⟩ := hm.fieldSize f (List.mem_of_mem_filter hf)
  unfold slotUsageChecked slotUsage
  rw [readElementChecked_ok hm hr hf hlen hi, ok_bind]
  cases hread : readElement payload f i with
  | none => rfl
  | some rawValue =>
    unfold readElement at hread
    rw [element_position hm hr hf hi, readBits_eq _ hsize hsize32 hin] at hread
    dsimp only at hread
    split at hread
    · cases hread
    rename_i hrange
    cases hread
    have hlow : 0 ≤ bitsValue payload (f.bitOffset + i * f.reportSize) f.reportSize
        (decide (f.logical.minimum < 0)) - f.logical.minimum := by omega
    have hhigh : bitsValue payload (f.bitOffset + i * f.reportSize) f.reportSize
        (decide (f.logical.minimum < 0)) - f.logical.minimum < 2 ^ 32 :=
      Int.sub_left_lt_of_lt_add (bitsValue_range hsize hsize32 hmin)
    dsimp only
    rw [fitsInt_of_lt hlow hhigh, ok_bind, Int.emod_eq_of_lt hlow hhigh]
    rfl

theorem currentUsagesChecked_ok (hm : SchemaInv m) (hr : r ∈ m.reports) (hf : f ∈ m.fieldsOf r)
    (hlen : r.byteSize ≤ payload.length) (hmin : -2 ^ 31 ≤ f.logical.minimum) :
    currentUsagesChecked payload f = .ok (currentUsages payload f) := by
  refine (foldlM_ok (I := fun _ => True) trivial ?_).1
  intro current _ i hi
  refine ⟨?_, trivial⟩
  rw [slotUsageChecked_ok hm hr hf hlen hmin (List.mem_range.mp hi), ok_bind]
  cases slotUsage payload f i <;> rfl

/-- A memory that is in use has a slot for each element. -/
def HasSlots (f : HIDFieldSchema) (runtime : FieldRuntime) : Prop :=
  runtime.initialized = true → runtime.lastValues.length = f.reportCount

theorem initRuntime_slots {runtime : FieldRuntime} (h : HasSlots f runtime) :
    (initRuntime f runtime).lastValues.length = f.reportCount := by
  unfold initRuntime
  split
  · rename_i hinit
    exact h hinit
  · simp

theorem decodeFieldChecked_ok (hm : SchemaInv m) (hr : r ∈ m.reports) (hf : f ∈ m.fieldsOf r)
    (hlen : r.byteSize ≤ payload.length) (hmin : -2 ^ 31 ≤ f.logical.minimum) {runtime : FieldRuntime}
    (hslots : HasSlots f runtime) :
    decodeFieldChecked m r f payload runtime = .ok (decodeField m r f payload runtime) ∧
      HasSlots f (decodeField m r f payload runtime).1 := by
  have hinit := initRuntime_slots hslots
  unfold decodeFieldChecked decodeField
  cases f.isVariable
  · unfold decodeArrayChecked decodeArray
    rw [currentUsagesChecked_ok hm hr hf hlen hmin]
    exact ⟨rfl, fun _ => hinit⟩
  · obtain ⟨hok, hlength⟩ := foldlM_ok (f := variableElementChecked m r f payload)
      (g := variableElement m r f payload) (I := fun st => st.1.length = f.reportCount)
      (l := List.range f.reportCount) (b := ((initRuntime f runtime).lastValues, [])) hinit
      fun st hst i hi => variableElementChecked_ok hm hr hf hlen (List.mem_range.mp hi) hst
    simp only [if_true, decodeVariableChecked, decodeVariable, hok, ok_bind]
    exact ⟨rfl, fun _ => hlength⟩

end

/-! ## Reports -/

/-- What decoding relies on, beside the schema: minima of 32 bits, and memory for each field. -/
structure DecoderInv (m : HIDReportMap) : Prop where
  schema : SchemaInv m
  minima : ∀ f ∈ m.fields, -2 ^ 31 ≤ f.logical.minimum
  slots : ∀ f ∈ m.fields, HasSlots f (m.runtime f.id)

theorem parseInputFieldChecked_ok {m : HIDReportMap} (hm : DecoderInv m) {r : HIDReportSchema} (hr : r ∈ m.reports)
    {payload : List UInt8} (hlen : r.byteSize ≤ payload.length) {f : HIDFieldSchema} (hf : f ∈ m.fieldsOf r)
    {st : (Nat → FieldRuntime) × List HIDReportItemValue} (hst : ∀ g ∈ m.fields, HasSlots g (st.1 g.id)) :
    parseInputFieldChecked m r payload st f.id = .ok (parseInputField m r payload st f.id) ∧
      ∀ g ∈ m.fields, HasSlots g ((parseInputField m r payload st f.id).1 g.id) := by
  have hmem := List.mem_of_mem_filter hf
  have hget : m.fields[f.id]? = some f := by
    obtain ⟨i, hi⟩ := List.getElem?_of_mem hmem
    rwa [hm.schema.fieldId hi]
  unfold parseInputFieldChecked
  rw [getAt_of_getElem? hget, ok_bind, parseInputField_eq hm.schema hmem]
  cases hconstant : f.isConstant
  · obtain ⟨hok, hslots⟩ := decodeFieldChecked_ok hm.schema hr hf hlen (hm.minima f hmem) (hst f hmem)
    refine ⟨?_, ?_⟩
    · simp only [Bool.false_eq_true, if_false, hok, ok_bind, fieldValues, hconstant]
      rfl
    · intro g hg
      simp only [Bool.false_eq_true, if_false]
      by_cases hid : g.id = f.id
      · -- ids tell fields apart
        have hsame : g = f := by rw [← hm.schema.getD_id hg, hid, hm.schema.getD_id hmem]
        rw [hsame, Function.update_self]
        exact hslots
      · rw [Function.update_of_ne hid]
        exact hst g hg
  · refine ⟨?_, ?_⟩
    · simp only [if_true, fieldValues, hconstant, List.append_nil]
      rfl
    · simpa using hst

theorem parseInputChecked_ok {m : HIDReportMap} (hm : DecoderInv m) {r : HIDReportSchema} (hr : r ∈ m.reports)
    {payload : List UInt8} (hlen : r.byteSize ≤ payload.length) :
    parseInputChecked m r payload = .ok (parseInput m r payload) ∧ DecoderInv (parseInput m r payload).1 := by
  obtain ⟨hok, hslots⟩ := foldlM_ok (f := parseInputFieldChecked m r payload) (g := parseInputField m r payload)
    (I := fun st => ∀ g ∈ m.fields, HasSlots g (st.1 g.id)) (l := r.fieldIds) (b := (m.runtime, [])) hm.slots (by
      intro st hst id hid
      rw [hm.schema.reportFields r hr, List.mem_map] at hid
      obtain ⟨f, hf, rfl⟩ := hid
      exact parseInputFieldChecked_ok hm hr hlen hf hst)
  refine ⟨?_, hm.schema.withRuntime _, hm.minima, hslots⟩
  unfold parseInputChecked
  rw [hok]
  rfl

/-! ## Logical minima -/

/-- A minimum is what `decode_signed_hid_item` returns, so it has 32 bits. -/
structure MinimaInv (s : ParserState) : Prop where
  current : -2 ^ 31 ≤ s.globals.logical.minimum
  saved : ∀ g ∈ s.globalStack, -2 ^ 31 ≤ g.logical.minimum
  declared : ∀ f ∈ s.map.fields, -2 ^ 31 ≤ f.logical.minimum

theorem parseItem_minima {off p raw : Nat} {s s' : ParserState} (hs : MinimaInv s)
    (h : parseItem off p raw s = .ok s') : MinimaInv s' := by
  cases htag : itemTag p <;> simp only [parseItem, htag, fail] at h
  case logicalMinimum =>
    -- the one item that writes the minimum, and it decodes a signed value
    cases h
    exact ⟨(decodeSignedHidItem_range raw p).1, hs.saved, hs.declared⟩
  case usagePage =>
    split at h <;> cases h
    exact ⟨hs.current, hs.saved, hs.declared⟩
  case reportId =>
    split at h <;> cases h
    exact ⟨hs.current, hs.saved, hs.declared⟩
  case push =>
    split at h <;> cases h
    exact ⟨hs.current, List.forall_mem_cons.mpr ⟨hs.current, hs.saved⟩, hs.declared⟩
  case pop =>
    -- the state restored was pushed when it had the invariant
    split at h <;> cases h
    rename_i hstack
    have hsaved := hs.saved
    rw [hstack, List.forall_mem_cons] at hsaved
    exact ⟨hsaved.1, hsaved.2, hs.declared⟩
  case delimiter =>
    unfold parseDelimiter fail at h
    split_ifs at h <;> cases h <;> exact ⟨hs.current, hs.saved, hs.declared⟩
  case collection =>
    unfold parseCollection fail at h
    split at h <;> cases h
    exact ⟨hs.current, hs.saved, hs.declared⟩
  case endCollection =>
    unfold parseEndCollection fail at h
    split at h <;> cases h
    exact ⟨hs.current, hs.saved, hs.declared⟩
  case data kind =>
    obtain ⟨map, r, hmap, -, rfl, -⟩ := parseDataItem_ok h
    refine ⟨hs.current, hs.saved, ?_⟩
    simp only [declareField, (findOrAddReport_bits hmap).1, List.mem_append, List.mem_singleton]
    -- the field declared here copies the current minimum
    rintro f (hf | rfl)
    · exact hs.declared f hf
    · exact hs.current
  case unknown =>
    split at h <;> cases h <;> exact ⟨hs.current, hs.saved, hs.declared⟩
  all_goals
    cases h
    exact ⟨hs.current, hs.saved, hs.declared⟩

theorem parseReportMapData_decoderInv {data : Buffer} {m : HIDReportMap} (h : parseReportMapData data = some m) :
    DecoderInv m := by
  obtain ⟨hschema, hfresh⟩ := parseReportMapData_inv h
  obtain ⟨bytes, s, -, hs, rfl, -⟩ := parseReportMapData_ok h
  have hminima : MinimaInv s := parseItems_induct (fun _ _ _ _ _ => parseItem_minima) _ _ _ _ _
    ⟨by decide, by simp, by simp⟩ hs
  refine ⟨hschema, hminima.declared, ?_⟩
  intro f _ hinit
  rw [hfresh] at hinit
  cases hinit

/-! ## Reachable maps -/

/-- What calls of `parse` and `reset_runtime_state` make of a map. -/
inductive Reachable (start : HIDReportMap) : HIDReportMap → Prop where
  | fresh : Reachable start start
  | parse {m : HIDReportMap} (source : HIDReportSource) (data : Buffer) :
      Reachable start m → Reachable start (HidParser.parse m source data).map
  | reset {m : HIDReportMap} : Reachable start m → Reachable start m.resetRuntimeState

theorem parseBytes_map (m : HIDReportMap) (source : HIDReportSource) (data : List UInt8) :
    (parse m source (.bytes data)).map = m ∨ ∃ r, m.findReport .input (selectedReportId source) = some r ∧
      r.byteSize ≤ data.length ∧ (parse m source (.bytes data)).map = (parseInput m r data).1 := by
  simp only [parse]
  split
  · exact .inl rfl
  · split
    · exact .inl rfl
    · split
      · exact .inl rfl
      · rename_i r hr
        split
        · exact .inl rfl
        · rename_i hlen
          exact .inr ⟨r, hr, Nat.not_lt.mp hlen, rfl⟩

theorem DecoderInv.parse {m : HIDReportMap} (hm : DecoderInv m) (source : HIDReportSource) (data : Buffer) :
    DecoderInv (HidParser.parse m source data).map := by
  have hbytes : ∀ bytes, DecoderInv (HidParser.parse m source (.bytes bytes)).map := by
    intro bytes
    rcases parseBytes_map m source bytes with hmap | ⟨r, hr, hlen, hmap⟩
    · rwa [hmap]
    · rw [hmap]
      exact (parseInputChecked_ok hm (findReport_spec hr).1 hlen).2
  cases data with
  | null n =>
    cases n with
    | zero => exact hbytes []
    | succ n => exact hm
  | bytes bytes => exact hbytes bytes

theorem Reachable.inv {start m : HIDReportMap} (hstart : DecoderInv start) (h : Reachable start m) :
    DecoderInv m := by
  induction h with
  | fresh => exact hstart
  | parse source data _ ih => exact ih.parse source data
  | reset _ ih => exact ⟨ih.schema.withRuntime _, ih.minima, fun _ _ h => by cases h⟩

/-- Whatever was decoded before, a payload that is long enough is decoded without a fault. -/
theorem parse_input_in_bounds (data : Buffer) (start : HIDReportMap) (h : parseReportMapData data = some start)
    (m : HIDReportMap) (hreach : Reachable start m) (reportId : Nat) (r : HIDReportSchema)
    (hr : m.findReport .input reportId = some r) (payload : List UInt8) (hlen : r.byteSize ≤ payload.length) :
    parseInputChecked m r payload = .ok (parseInput m r payload) :=
  (parseInputChecked_ok (hreach.inv (parseReportMapData_decoderInv h)) (findReport_spec hr).1 hlen).1

theorem parse_input_in_bounds_keyboard :
    ∃ m, parseReportMapData (.bytes keyboardDescriptor) = some m ∧ ∃ r,
      parseInputChecked m r [0x04, 0x00] = .ok (parseInput m r [0x04, 0x00]) := by
  have hfind : (parseReportMapData (.bytes keyboardDescriptor)).map (·.findReport .input 0) =
      some (some { kind := .input, reportId := 0, bitSize := 16, fieldIds := [0] }) := by decide +kernel
  obtain ⟨m, hm, hr⟩ := Option.map_eq_some_iff.mp hfind
  exact ⟨m, hm, _, parse_input_in_bounds _ m hm m .fresh 0 _ hr [0x04, 0x00] (by decide)⟩

end HidParser

end BleClientHid
