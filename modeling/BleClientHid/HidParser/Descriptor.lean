import BleClientHid.HidParser.Schema

/-! # The descriptor parser

`parse_report_map_data`: one loop over the items of a Report Map.
-/

namespace BleClientHid

namespace HIDReportMap

def maxDescriptorBytes : Nat := 4096
def maxReports : Nat := 64
def maxFields : Nat := 512
def maxCollections : Nat := 128
def maxCollectionDepth : Nat := 32
def maxGlobalStackDepth : Nat := 16
def maxReportBits : Nat := 32768
def maxReportCount : Nat := 4096

end HIDReportMap

namespace HidParser

open HIDReportMap

/-! ## Items -/

def signedOrUnsignedMax (raw itemInfo : Nat) (minimum : Int) : Int :=
  if minimum < 0 then decodeSignedHidItem raw itemInfo else raw

/-- A signed nibble, whatever the size of the item that carries it. -/
def decodeUnitExponent (raw : Nat) : Int :=
  let nibble := raw &&& 0x0F
  if nibble &&& 0x08 ≠ 0 then (nibble : Int) - 16 else nibble

/-- Four data bytes carry their own page in the upper half. -/
def decodeUsage (raw size currentPage : Nat) : HIDUsage :=
  if size = 4 then { usage := raw % 65536, page := raw >>> 16 % 65536 }
  else { usage := raw % 65536, page := currentPage }

inductive ItemTag where
  | usagePage
  | logicalMinimum
  | logicalMaximum
  | physicalMinimum
  | physicalMaximum
  | unitExponent
  | unit
  | reportSize
  | reportCount
  | reportId
  | push
  | pop
  | usage
  | usageMinimum
  | usageMaximum
  | designatorIndex
  | designatorMinimum
  | designatorMaximum
  | stringIndex
  | stringMinimum
  | stringMaximum
  | delimiter
  | collection
  | endCollection
  | data (kind : HIDReportKind)
  | unknown
  deriving DecidableEq, Repr

/-- Type and tag bits of a prefix. The `data` items are Input, Output and Feature. -/
def itemTag (prefixByte : Nat) : ItemTag :=
  match prefixByte &&& 0xFC with
  | 0x04 => .usagePage
  | 0x14 => .logicalMinimum
  | 0x24 => .logicalMaximum
  | 0x34 => .physicalMinimum
  | 0x44 => .physicalMaximum
  | 0x54 => .unitExponent
  | 0x64 => .unit
  | 0x74 => .reportSize
  | 0x84 => .reportId
  | 0x94 => .reportCount
  | 0xA4 => .push
  | 0xB4 => .pop
  | 0x08 => .usage
  | 0x18 => .usageMinimum
  | 0x28 => .usageMaximum
  | 0x38 => .designatorIndex
  | 0x48 => .designatorMinimum
  | 0x58 => .designatorMaximum
  | 0x78 => .stringIndex
  | 0x88 => .stringMinimum
  | 0x98 => .stringMaximum
  | 0xA8 => .delimiter
  | 0xA0 => .collection
  | 0xC0 => .endCollection
  | 0x80 => .data .input
  | 0x90 => .data .output
  | 0xB0 => .data .feature
  | _ => .unknown

/-! ## The parser's state -/

structure GlobalState where
  usagePage : Nat := 0
  logical : HIDRange := {}
  physical : HIDRange := {}
  unitExponent : Int := 0
  unit : Nat := 0
  reportSize : Nat := 0
  reportCount : Nat := 0
  reportId : Nat := 0
  deriving DecidableEq, Repr, Inhabited

structure LocalState where
  usageSets : List (List HIDUsage) := [[]]
  activeUsageSet : Nat := 0
  usageMinimum : HIDUsage := {}
  usageMaximum : HIDUsage := {}
  hasUsageMinimum : Bool := false
  hasUsageMaximum : Bool := false
  designators : List Nat := []
  designatorMinimum : Nat := 0
  designatorMaximum : Nat := 0
  hasDesignatorMinimum : Bool := false
  hasDesignatorMaximum : Bool := false
  strings : List Nat := []
  stringMinimum : Nat := 0
  stringMaximum : Nat := 0
  hasStringMinimum : Bool := false
  hasStringMaximum : Bool := false
  delimiterOpen : Bool := false
  deriving DecidableEq, Repr, Inhabited

/-- `active_usages().push_back(usage)`. -/
def LocalState.pushUsage (l : LocalState) (usage : HIDUsage) : LocalState :=
  { l with usageSets := l.usageSets.modify l.activeUsageSet (· ++ [usage]) }

/-- The variables of the loop. Both stacks have their top first. -/
structure ParserState where
  map : HIDReportMap := {}
  globals : GlobalState := {}
  locals : LocalState := {}
  globalStack : List GlobalState := []
  collectionStack : List Nat := []

/-! ## The data items -/

/-- The report is there afterwards. `none` when a 65th would be needed. -/
def findOrAddReport (m : HIDReportMap) (kind : HIDReportKind) (reportId : Nat) : Option HIDReportMap :=
  if (m.findReport kind reportId).isSome then some m
  else if m.reports.length ≥ maxReports then none
  else some { m with reports := m.reports ++ [{ kind, reportId }] }

/-- Writes through the pointer that `find_or_add_report` returns: the first match. -/
def updateReport (kind : HIDReportKind) (reportId : Nat) (f : HIDReportSchema → HIDReportSchema) :
    List HIDReportSchema → List HIDReportSchema
  | [] => []
  | r :: rs =>
    if r.kind = kind ∧ r.reportId = reportId then f r :: rs
    else r :: updateReport kind reportId f rs

/-- The field that a data item declares at bit `bitOffset` of its report. -/
def makeField (s : ParserState) (kind : HIDReportKind) (raw bitOffset : Nat) : HIDFieldSchema where
  id := s.map.fields.length % 65536
  kind := kind
  reportId := s.globals.reportId
  collectionId := s.collectionStack.head?.getD noParent
  bitOffset := bitOffset
  reportSize := s.globals.reportSize
  reportCount := s.globals.reportCount
  flags := raw &&& 0x1FF
  logical := s.globals.logical
  physical := s.globals.physical
  unitExponent := s.globals.unitExponent
  unit := s.globals.unit
  usages := s.locals.usageSets.headD []
  alternativeUsages := s.locals.usageSets.drop 1
  usageMinimum := s.locals.usageMinimum
  usageMaximum := s.locals.usageMaximum
  hasUsageRange := s.locals.hasUsageMinimum && s.locals.hasUsageMaximum
  stringIndices := s.locals.strings
  stringMinimum := s.locals.stringMinimum
  stringMaximum := s.locals.stringMaximum
  hasStringRange := s.locals.hasStringMinimum && s.locals.hasStringMaximum
  designatorIndices := s.locals.designators
  designatorMinimum := s.locals.designatorMinimum
  designatorMaximum := s.locals.designatorMaximum
  hasDesignatorRange := s.locals.hasDesignatorMinimum && s.locals.hasDesignatorMaximum

/-- `report->field_ids.push_back(..)` and `report->bit_size += ..` in 32 bits. -/
def appendField (field : HIDFieldSchema) (fieldBits : Nat) (r : HIDReportSchema) : HIDReportSchema :=
  { r with fieldIds := r.fieldIds ++ [field.id], bitSize := (r.bitSize + fieldBits) % 2 ^ 32 }

/-- Adds the field to the map and to its report, which is `bitSize` bits long so far. -/
def declareField (s : ParserState) (map : HIDReportMap) (kind : HIDReportKind) (raw bitSize : Nat) :
    ParserState :=
  let fieldBits := s.globals.reportSize * s.globals.reportCount
  let field := makeField s kind raw bitSize
  { s with
    map := { map with
      reports := updateReport kind s.globals.reportId (appendField field fieldBits) map.reports
      fields := map.fields ++ [field] }
    locals := {} }

abbrev ParseResult := Except HIDParserDiagnostic

def fail (itemOffset : Nat) (message : String) : ParseResult ParserState :=
  .error ⟨itemOffset, message⟩

/-- An Input, Output or Feature item. -/
def parseDataItem (itemOffset : Nat) (kind : HIDReportKind) (raw : Nat) (s : ParserState) :
    ParseResult ParserState :=
  let g := s.globals
  if g.reportSize = 0 ∨ g.reportSize > 32 ∨ g.reportCount = 0 ∨ g.reportCount > maxReportCount then
    fail itemOffset "invalid report size or count"
  else if s.locals.delimiterOpen then fail itemOffset "unterminated Delimiter"
  else match findOrAddReport s.map kind g.reportId with
    | none => fail itemOffset "report or field limit exceeded"
    | some map =>
      if map.fields.length ≥ maxFields then fail itemOffset "report or field limit exceeded"
      else
        let bitSize := ((map.findReport kind g.reportId).getD {}).bitSize
        let fieldBits := g.reportSize * g.reportCount
        if fieldBits > maxReportBits ∨ bitSize > maxReportBits - fieldBits then
          fail itemOffset "report bit length limit exceeded"
        else .ok (declareField s map kind raw bitSize)

/-! ## Collections and delimiters -/

def parseCollection (itemOffset raw : Nat) (s : ParserState) : ParseResult ParserState :=
  if s.map.collections.length ≥ maxCollections ∨ s.collectionStack.length ≥ maxCollectionDepth then
    fail itemOffset "collection limit exceeded"
  else
    let id := s.map.collections.length % 65536
    let first := s.locals.usageSets.headD []
    let collection : HIDCollectionSchema :=
      { id
        parent := s.collectionStack.head?.getD noParent
        type := raw % 256
        usage := first.head?.getD (if s.locals.hasUsageMinimum then s.locals.usageMinimum else {})
        aliases := (s.locals.usageSets.drop 1).flatten }
    .ok { s with
      map := { s.map with collections := s.map.collections ++ [collection] }
      collectionStack := id :: s.collectionStack
      locals := {} }

def parseEndCollection (itemOffset : Nat) (s : ParserState) : ParseResult ParserState :=
  match s.collectionStack with
  | [] => fail itemOffset "End Collection without Collection"
  | _ :: rest => .ok { s with collectionStack := rest, locals := {} }

def parseDelimiter (itemOffset raw : Nat) (s : ParserState) : ParseResult ParserState :=
  if raw = 1 then
    if s.locals.delimiterOpen then fail itemOffset "nested Delimiter"
    else .ok { s with locals := { s.locals with
      delimiterOpen := true
      usageSets := s.locals.usageSets ++ [[]]
      activeUsageSet := s.locals.usageSets.length } }
  else if raw = 0 then
    if s.locals.delimiterOpen then
      .ok { s with locals := { s.locals with delimiterOpen := false, activeUsageSet := 0 } }
    else fail itemOffset "Delimiter close without open"
  else fail itemOffset "invalid Delimiter value"

/-! ## One item -/

def setGlobals (s : ParserState) (globals : GlobalState) : ParseResult ParserState :=
  .ok { s with globals }

def setLocals (s : ParserState) (locals : LocalState) : ParseResult ParserState :=
  .ok { s with locals }

/-- The switch over a short item with data `raw`. -/
def parseItem (itemOffset prefixByte raw : Nat) (s : ParserState) : ParseResult ParserState :=
  let g := s.globals
  let l := s.locals
  let usage := decodeUsage raw (hidItemDataSize prefixByte) g.usagePage
  match itemTag prefixByte with
  | .usagePage =>
    if raw > 65535 then fail itemOffset "usage page exceeds 16 bits"
    else setGlobals s { g with usagePage := raw }
  | .logicalMinimum =>
    setGlobals s { g with logical.minimum := decodeSignedHidItem raw prefixByte }
  | .logicalMaximum =>
    setGlobals s { g with logical.maximum := signedOrUnsignedMax raw prefixByte g.logical.minimum }
  | .physicalMinimum =>
    setGlobals s { g with physical.minimum := decodeSignedHidItem raw prefixByte }
  | .physicalMaximum =>
    setGlobals s { g with physical.maximum := signedOrUnsignedMax raw prefixByte g.physical.minimum }
  | .unitExponent => setGlobals s { g with unitExponent := decodeUnitExponent raw }
  | .unit => setGlobals s { g with unit := raw }
  | .reportSize => setGlobals s { g with reportSize := raw }
  | .reportCount => setGlobals s { g with reportCount := raw }
  | .reportId =>
    if raw = 0 ∨ raw > 255 then fail itemOffset "invalid Report ID"
    else setGlobals { s with map := { s.map with usesReportIds := true } } { g with reportId := raw }
  | .push =>
    if s.globalStack.length ≥ maxGlobalStackDepth then fail itemOffset "global stack limit exceeded"
    else .ok { s with globalStack := g :: s.globalStack }
  | .pop =>
    match s.globalStack with
    | [] => fail itemOffset "global Pop without Push"
    | top :: rest => .ok { s with globals := top, globalStack := rest }
  | .usage => setLocals s (l.pushUsage usage)
  | .usageMinimum => setLocals s { l with usageMinimum := usage, hasUsageMinimum := true }
  | .usageMaximum => setLocals s { l with usageMaximum := usage, hasUsageMaximum := true }
  | .designatorIndex => setLocals s { l with designators := l.designators ++ [raw] }
  | .designatorMinimum => setLocals s { l with designatorMinimum := raw, hasDesignatorMinimum := true }
  | .designatorMaximum => setLocals s { l with designatorMaximum := raw, hasDesignatorMaximum := true }
  | .stringIndex => setLocals s { l with strings := l.strings ++ [raw] }
  | .stringMinimum => setLocals s { l with stringMinimum := raw, hasStringMinimum := true }
  | .stringMaximum => setLocals s { l with stringMaximum := raw, hasStringMaximum := true }
  | .delimiter => parseDelimiter itemOffset raw s
  | .collection => parseCollection itemOffset raw s
  | .endCollection => parseEndCollection itemOffset s
  | .data kind => parseDataItem itemOffset kind raw s
  | .unknown =>
    -- A reserved Main item ends the locals too.
    if prefixByte &&& 0x0C = 0x00 then setLocals s {} else .ok s

/-! ## The loop -/

/-- Every round takes a byte at least, so as much fuel as bytes is enough. -/
def parseItems : Nat → Nat → List UInt8 → ParserState → ParseResult ParserState
  | _, _, [], s => .ok s
  | 0, offset, _ :: _, _ => fail offset "out of fuel"
  | fuel + 1, itemOffset, b :: rest, s =>
    let prefixByte := b.toNat
    if prefixByte = 0xFE then
      match rest with
      | payloadSize :: _ :: payload =>
        if payload.length < payloadSize.toNat then fail itemOffset "truncated long-item payload"
        else parseItems fuel (itemOffset + 3 + payloadSize.toNat) (payload.drop payloadSize.toNat) s
      | _ => fail itemOffset "truncated long-item header"
    else
      let itemSize := hidItemDataSize prefixByte
      if rest.length < itemSize then fail itemOffset "truncated short item"
      else
        match parseItem itemOffset prefixByte (readUnsignedItem (rest.take itemSize)) s with
        | .error e => .error e
        | .ok s' => parseItems fuel (itemOffset + 1 + itemSize) (rest.drop itemSize) s'

/-- `none` is the null pointer. A map with Pushes left over is still accepted. -/
def parseReportMapData (data : Buffer) : Option HIDReportMap :=
  match data with
  | .null _ => none
  | .bytes data =>
    if data.length = 0 ∨ data.length > maxDescriptorBytes then none
    else match parseItems data.length 0 data {} with
      | .error _ => none
      | .ok s => if s.collectionStack ≠ [] ∨ s.map.reports = [] then none else some s.map

end HidParser

end BleClientHid
