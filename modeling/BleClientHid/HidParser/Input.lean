import BleClientHid.HidParser.Schema
import Mathlib.Logic.Function.Basic

/-! # Report decoding

`read_bits_`, `parse_input_` and `parse`.
-/

namespace BleClientHid

namespace HidParser

/-! ## Bits -/

def bitSet (data : List UInt8) (pos : Nat) : Bool :=
  (data.getD (pos / 8) 0).toNat &&& (1 <<< (pos % 8)) != 0

/-- The loop of `read_bits_`: bit `pos` of the data becomes bit `pos - bitOffset`. -/
def gatherBits (data : List UInt8) (bitOffset bitSize : Nat) : Nat :=
  (List.range bitSize).foldl
    (fun raw bit => if bitSet data (bitOffset + bit) then raw ||| 1 <<< bit else raw) 0

/-- `UINT32_MAX << bit_size` fills the bits above the sign. -/
def signExtend (raw bitSize : Nat) : Nat :=
  if bitSize < 32 ∧ raw &&& (1 <<< (bitSize - 1)) ≠ 0 then
    raw ||| (2 ^ 32 - 1) <<< bitSize % 2 ^ 32
  else raw

def toInt32 (raw : Nat) : Int :=
  if raw < 2 ^ 31 then raw else (raw : Int) - 2 ^ 32

/-- `none` when the bits are not all inside the data. -/
def readBits (data : List UInt8) (bitOffset bitSize : Nat) (signedValue : Bool) : Option Int :=
  if bitSize = 0 ∨ bitSize > 32 ∨ bitOffset > data.length * 8 ∨ bitSize > data.length * 8 - bitOffset then
    none
  else
    let raw := gatherBits data bitOffset bitSize
    some (if signedValue then toInt32 (signExtend raw bitSize) else raw)

/-- Element `index` of a field, when it is in the payload and in the logical range. -/
def readElement (data : List UInt8) (field : HIDFieldSchema) (index : Nat) : Option Int :=
  match readBits data ((field.bitOffset + index * field.reportSize) % 2 ^ 32) field.reportSize
      (decide (field.logical.minimum < 0)) with
  | none => none
  | some rawValue =>
    if rawValue < field.logical.minimum ∨ rawValue > field.logical.maximum then none else some rawValue

/-! ## Variable fields -/

def isDiscretePage (page : Nat) : Bool := page == 0x07 || page == 0x09 || page == 0x0C

def aggregationOf (field : HIDFieldSchema) (usage : HIDUsage) : Aggregation :=
  if field.isRelative then .sum
  else
    let span := if field.logical.maximum ≥ field.logical.minimum then
      field.logical.maximum - field.logical.minimum else 0
    if !isDiscretePage usage.page && decide (span > 16) then .latest else .passthrough

def variableValue (m : HIDReportMap) (report : HIDReportSchema) (field : HIDFieldSchema) (index : Nat)
    (rawValue : Int) : HIDReportItemValue :=
  let usage := field.usageAt index true
  { usage
    value := rawValue
    rawValue
    fieldId := (field.bitOffset + index * field.reportSize) % 2 ^ 32
    collectionId := field.collectionId
    applicationUsage := m.applicationUsage field.collectionId
    reportId := report.reportId
    isRelative := field.isRelative
    aggregation := aggregationOf field usage }

/-- One round of the loop over a variable field. The memory is `last_values`. -/
def variableElement (m : HIDReportMap) (report : HIDReportSchema) (field : HIDFieldSchema)
    (data : List UInt8) (st : List Int × List HIDReportItemValue) (index : Nat) :
    List Int × List HIDReportItemValue :=
  match readElement data field index with
  | none => st
  | some rawValue =>
    if (field.isRelative ∧ rawValue = 0) ∨ (¬ field.isRelative ∧ st.1.getD index 0 = rawValue) then st
    else (st.1.set index rawValue, st.2 ++ [variableValue m report field index rawValue])

/-! ## Array fields -/

abbrev UsageMultimap := List (HIDUsage × Int)

/-- `emplace` puts a new entry behind those with the same key. -/
def emplace (usage : HIDUsage) (rawValue : Int) : UsageMultimap → UsageMultimap
  | [] => [(usage, rawValue)]
  | entry :: rest =>
    if usage.lt entry.1 then (usage, rawValue) :: entry :: rest
    else entry :: emplace usage rawValue rest

def hasUsage (usages : UsageMultimap) (usage : HIDUsage) : Bool := usages.any (·.1 == usage)

/-- Erases the one entry that `find` returns. -/
def eraseUsage (usages : UsageMultimap) (usage : HIDUsage) : UsageMultimap :=
  usages.eraseP (·.1 == usage)

/-- The usage that slot `index` asserts. -/
def slotUsage (data : List UInt8) (field : HIDFieldSchema) (index : Nat) : Option (HIDUsage × Int) :=
  match readElement data field index with
  | none => none
  | some rawValue =>
    let usageIndex := ((rawValue - field.logical.minimum) % 2 ^ 32).toNat
    let usage := field.usageAt usageIndex false
    if usage.page ≠ 0 ∧ usage.usage ≠ 0 then some (usage, rawValue) else none

def currentUsages (data : List UInt8) (field : HIDFieldSchema) : UsageMultimap :=
  (List.range field.reportCount).foldl (fun current index =>
    match slotUsage data field index with
    | none => current
    | some (usage, rawValue) => emplace usage rawValue current) []

def arrayValue (m : HIDReportMap) (report : HIDReportSchema) (field : HIDFieldSchema)
    (usage : HIDUsage) (value rawValue : Int) : HIDReportItemValue :=
  { usage, value, rawValue
    fieldId := field.bitOffset
    collectionId := field.collectionId
    applicationUsage := m.applicationUsage field.collectionId
    reportId := report.reportId }

/-- The entries of `entries` that find no partner left in `others`. -/
def unmatched : UsageMultimap → UsageMultimap → UsageMultimap
  | [], _ => []
  | entry :: rest, others =>
    if hasUsage others entry.1 then unmatched rest (eraseUsage others entry.1)
    else entry :: unmatched rest others

/-! ## Fields and reports -/

def initRuntime (field : HIDFieldSchema) (runtime : FieldRuntime) : FieldRuntime :=
  if runtime.initialized then runtime
  else { runtime with lastValues := List.replicate field.reportCount 0, initialized := true }

def decodeVariable (m : HIDReportMap) (report : HIDReportSchema) (field : HIDFieldSchema)
    (data : List UInt8) (runtime : FieldRuntime) : FieldRuntime × List HIDReportItemValue :=
  let (lastValues, values) :=
    (List.range field.reportCount).foldl (variableElement m report field data) (runtime.lastValues, [])
  ({ runtime with lastValues }, values)

def decodeArray (m : HIDReportMap) (report : HIDReportSchema) (field : HIDFieldSchema)
    (data : List UInt8) (runtime : FieldRuntime) : FieldRuntime × List HIDReportItemValue :=
  let current := currentUsages data field
  let presses := unmatched current runtime.activeArrayUsages
  let releases := unmatched runtime.activeArrayUsages current
  ({ runtime with activeArrayUsages := current },
    presses.map (fun entry => arrayValue m report field entry.1 1 entry.2) ++
      releases.map (fun entry => arrayValue m report field entry.1 0 0))

/-- One data field: its new memory and its values. -/
def decodeField (m : HIDReportMap) (report : HIDReportSchema) (field : HIDFieldSchema)
    (data : List UInt8) (runtime : FieldRuntime) : FieldRuntime × List HIDReportItemValue :=
  if field.isVariable then decodeVariable m report field data (initRuntime field runtime)
  else decodeArray m report field data (initRuntime field runtime)

/-- One round of `parse_input_`. -/
def parseInputField (m : HIDReportMap) (report : HIDReportSchema) (data : List UInt8)
    (st : (Nat → FieldRuntime) × List HIDReportItemValue) (fieldId : Nat) :
    (Nat → FieldRuntime) × List HIDReportItemValue :=
  let field := m.fields.getD fieldId {}
  if field.isConstant then st
  else
    let (runtime, values) := decodeField m report field data (st.1 field.id)
    (Function.update st.1 field.id runtime, st.2 ++ values)

def parseInput (m : HIDReportMap) (report : HIDReportSchema) (data : List UInt8) :
    HIDReportMap × List HIDReportItemValue :=
  let (runtime, values) := report.fieldIds.foldl (parseInputField m report data) (m.runtime, [])
  ({ m with runtime }, values)

/-! ## A payload -/

structure ParseOutcome where
  map : HIDReportMap
  values : List HIDReportItemValue := []
  recognized : Bool := false
  status : HIDDecodeStatus

def uuidBootKeyboardInput : Nat := 0x2A22
def uuidBootMouseInput : Nat := 0x2A33

def isBootUuid (uuid : Nat) : Bool := uuid == uuidBootKeyboardInput || uuid == uuidBootMouseInput

def isInputKind (reportType : Nat) : Bool := reportType == HIDReportKind.input.code

def selectedReportId (source : HIDReportSource) : Nat :=
  if source.hasReportId then source.reportId else 0

def parse (m : HIDReportMap) (source : HIDReportSource) (data : Buffer) : ParseOutcome :=
  match data with
  | .null (_ + 1) => { map := m, status := .invalidPayload }
  | _ =>
    let data := match data with
      | .bytes bytes => bytes
      | .null _ => []
    if isBootUuid source.characteristicUuid then { map := m, status := .bootReport }
    else if source.hasReportType && !isInputKind source.reportType then
      { map := m, status := .reportKindMismatch }
    else match m.findReport .input (selectedReportId source) with
      | none => { map := m, status := .schemaMissing }
      | some report =>
        let expected := report.byteSize
        if data.length < expected then { map := m, recognized := true, status := .short }
        else
          let (map, values) := parseInput m report data
          { map
            values := values.map fun value =>
              { value with characteristicHandle := source.characteristicHandle }
            recognized := true
            status := if data.length = expected then .exact else .long }

theorem parseBytes_rejected (m : HIDReportMap) (source : HIDReportSource) (data : List UInt8)
    (hexact : (parse m source (.bytes data)).status ≠ .exact)
    (hlong : (parse m source (.bytes data)).status ≠ .long) :
    (parse m source (.bytes data)).values = [] ∧ (parse m source (.bytes data)).map = m := by
  revert hexact hlong
  simp only [parse]
  split
  · exact fun _ _ => ⟨rfl, rfl⟩
  · split
    · exact fun _ _ => ⟨rfl, rfl⟩
    · split
      · exact fun _ _ => ⟨rfl, rfl⟩
      · rename_i report _
        split
        · exact fun _ _ => ⟨rfl, rfl⟩
        · by_cases hlen : data.length = report.byteSize <;> simp [hlen]

/-- A payload that is not decoded yields nothing and leaves no trace. -/
theorem parse_rejected (m : HIDReportMap) (source : HIDReportSource) (data : Buffer)
    (hexact : (parse m source data).status ≠ .exact) (hlong : (parse m source data).status ≠ .long) :
    (parse m source data).values = [] ∧ (parse m source data).map = m := by
  cases data with
  | null n =>
    cases n with
    | zero => exact parseBytes_rejected m source [] hexact hlong
    | succ n => exact ⟨rfl, rfl⟩
  | bytes bytes => exact parseBytes_rejected m source bytes hexact hlong

end HidParser

end BleClientHid
