import BleClientHid.HidItem

/-! # The report map schema

The data a parsed Report Map holds. Numbers are `Nat` and `Int`; the parser
narrows them where the code does.
-/

namespace BleClientHid

structure HIDUsage where
  usage : Nat := 0
  page : Nat := 0
  deriving DecidableEq, Repr, Inhabited

/-- The order of the `std::multimap` keys: page first. -/
def HIDUsage.lt (a b : HIDUsage) : Bool :=
  a.page < b.page || (a.page == b.page && a.usage < b.usage)

inductive HIDReportKind where
  | input
  | output
  | feature
  deriving DecidableEq, Repr, Inhabited

def HIDReportKind.code : HIDReportKind → Nat
  | .input => 1
  | .output => 2
  | .feature => 3

inductive HIDDecodeStatus where
  | exact
  | long
  | short
  | schemaMissing
  | reportKindMismatch
  | bootReport
  | invalidPayload
  deriving DecidableEq, Repr

def hidReportKindName : HIDReportKind → String
  | .input => "input"
  | .output => "output"
  | .feature => "feature"

def hidDecodeStatusName : HIDDecodeStatus → String
  | .exact => "exact"
  | .long => "long"
  | .short => "short"
  | .schemaMissing => "schema_missing"
  | .reportKindMismatch => "report_kind_mismatch"
  | .bootReport => "boot_report"
  | .invalidPayload => "invalid_payload"

structure HIDReportSource where
  serviceInstance : Nat := 0
  characteristicHandle : Nat := 0
  reportId : Nat := 0
  hasReportId : Bool := false
  reportType : Nat := 0
  hasReportType : Bool := false
  isNotification : Bool := true
  hasTransport : Bool := false
  characteristicUuid : Nat := 0
  deriving DecidableEq, Repr, Inhabited

structure HIDRange where
  minimum : Int := 0
  maximum : Int := 0
  deriving DecidableEq, Repr, Inhabited

/-- `NO_PARENT`, also the collection of a field outside every collection. -/
def noParent : Nat := 65535

structure HIDCollectionSchema where
  id : Nat := 0
  parent : Nat := noParent
  type : Nat := 0
  usage : HIDUsage := {}
  aliases : List HIDUsage := []
  deriving DecidableEq, Repr, Inhabited

structure HIDFieldSchema where
  id : Nat := 0
  kind : HIDReportKind := .input
  reportId : Nat := 0
  collectionId : Nat := noParent
  bitOffset : Nat := 0
  reportSize : Nat := 0
  reportCount : Nat := 0
  flags : Nat := 0
  logical : HIDRange := {}
  physical : HIDRange := {}
  unitExponent : Int := 0
  unit : Nat := 0
  usages : List HIDUsage := []
  alternativeUsages : List (List HIDUsage) := []
  usageMinimum : HIDUsage := {}
  usageMaximum : HIDUsage := {}
  hasUsageRange : Bool := false
  stringIndices : List Nat := []
  stringMinimum : Nat := 0
  stringMaximum : Nat := 0
  hasStringRange : Bool := false
  designatorIndices : List Nat := []
  designatorMinimum : Nat := 0
  designatorMaximum : Nat := 0
  hasDesignatorRange : Bool := false
  deriving DecidableEq, Repr, Inhabited

namespace HIDFieldSchema

def isConstant (f : HIDFieldSchema) : Bool := f.flags &&& 0x01 != 0
def isVariable (f : HIDFieldSchema) : Bool := f.flags &&& 0x02 != 0
def isRelative (f : HIDFieldSchema) : Bool := f.flags &&& 0x04 != 0

/-- An explicit list wins over the range. `repeatLast` is set for variable fields only. -/
def usageAt (f : HIDFieldSchema) (index : Nat) (repeatLast : Bool) : HIDUsage :=
  if h : index < f.usages.length then f.usages[index]
  else if repeatLast && !f.usages.isEmpty then f.usages.getLastD {}
  else if f.hasUsageRange && f.usageMinimum.page == f.usageMaximum.page &&
      decide (f.usageMaximum.usage ≥ f.usageMinimum.usage) &&
      decide (index ≤ f.usageMaximum.usage - f.usageMinimum.usage) then
    { usage := (f.usageMinimum.usage + index) % 65536, page := f.usageMinimum.page }
  else {}

end HIDFieldSchema

structure HIDReportSchema where
  kind : HIDReportKind := .input
  reportId : Nat := 0
  bitSize : Nat := 0
  fieldIds : List Nat := []
  deriving DecidableEq, Repr, Inhabited

def HIDReportSchema.byteSize (r : HIDReportSchema) : Nat := (r.bitSize + 7) / 8

structure HIDParserDiagnostic where
  offset : Nat
  message : String
  deriving DecidableEq, Repr

inductive Aggregation where
  | passthrough
  | sum
  | latest
  deriving DecidableEq, Repr, Inhabited

structure HIDReportItemValue where
  usage : HIDUsage := {}
  applicationUsage : HIDUsage := {}
  value : Int := 0
  rawValue : Int := 0
  characteristicHandle : Nat := 0
  fieldId : Nat := 0
  collectionId : Nat := noParent
  reportId : Nat := 0
  isRelative : Bool := false
  aggregation : Aggregation := .passthrough
  deriving DecidableEq, Repr, Inhabited

structure FieldRuntime where
  lastValues : List Int := []
  activeArrayUsages : List (HIDUsage × Int) := []
  initialized : Bool := false
  deriving DecidableEq, Repr, Inhabited

/-- `runtime` is the map from field ids. An absent key reads as the default, as `operator[]` does. The members
`diagnostics_` and `valid_` are for the log alone. -/
structure HIDReportMap where
  reports : List HIDReportSchema := []
  fields : List HIDFieldSchema := []
  collections : List HIDCollectionSchema := []
  runtime : Nat → FieldRuntime := fun _ => {}
  usesReportIds : Bool := false

namespace HIDReportMap

def findReport (m : HIDReportMap) (kind : HIDReportKind) (reportId : Nat) : Option HIDReportSchema :=
  m.reports.find? fun r => r.kind == kind && r.reportId == reportId

def resetRuntimeState (m : HIDReportMap) : HIDReportMap := { m with runtime := fun _ => {} }

/-- Up the parents to the first application collection. `none` when the fuel ends first. -/
def applicationUsageLoop (m : HIDReportMap) : Nat → Nat → Option HIDUsage
  | 0, _ => none
  | fuel + 1, current =>
    if current = noParent then some {}
    else match m.collections[current]? with
      | none => some {}
      | some c => if c.type = 0x01 then some c.usage else applicationUsageLoop m fuel c.parent

def applicationUsage (m : HIDReportMap) (collectionId : Nat) : HIDUsage :=
  (m.applicationUsageLoop (m.collections.length + 2) collectionId).getD {}

end HIDReportMap

end BleClientHid
