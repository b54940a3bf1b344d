import BleClientHid.HidParser.Arrays
import BleClientHid.HidParser.Variables
import BleClientHid.Sessions

/-! # The boot keyboard decoder and the report map decoder agree

On a map that describes the boot keyboard report, the schema interpreter and
the hand-written decoder answer every sequence of payloads alike.
-/

namespace BleClientHid

open Lib HidParser HIDReportMap BootReportDecoder

/-! ## The boot keyboard report as a schema -/

def modifierUsage (bit : Nat) : HIDUsage := { usage := 0xE0 + bit, page := 0x07 }

def keyUsage (key : Nat) : HIDUsage := { usage := key, page := 0x07 }

structure IsModifierField (f : HIDFieldSchema) : Prop where
  isData : f.isConstant = false
  isVariable : f.isVariable = true
  isAbsolute : f.isRelative = false
  size : f.reportSize = 1
  logical : f.logical = { minimum := 0, maximum := 1 }

/-- Six slots of a byte, each with the code of a key. -/
structure IsKeyField (f : HIDFieldSchema) : Prop where
  isData : f.isConstant = false
  isArray : f.isVariable = false
  size : f.reportSize = 8
  count : f.reportCount = 6
  logical : f.logical = { minimum := 0, maximum := 0xE7 }
  noList : f.usages = []
  hasRange : f.hasUsageRange = true
  first : f.usageMinimum = keyUsage 0
  last : f.usageMaximum = keyUsage 0xE7

/-- The usages of the elements of a variable field. -/
def elementUsages (f : HIDFieldSchema) : List HIDUsage :=
  (List.range f.reportCount).map fun i => f.usageAt i true

/-- Eight modifier bits in one or more fields, a constant byte, six key slots. -/
structure IsBootKeyboardReport (m : HIDReportMap) (r : HIDReportSchema)
    (modifiers padding : List HIDFieldSchema) (keys : HIDFieldSchema) : Prop where
  input : r.kind = .input
  noReportId : r.reportId = 0
  fields : m.fieldsOf r = modifiers ++ padding ++ [keys]
  modifier : ∀ f ∈ modifiers, IsModifierField f
  modifierUsages : modifiers.flatMap elementUsages = (List.range 8).map modifierUsage
  constant : ∀ f ∈ padding, f.isConstant = true
  constantByte : (padding.map HIDFieldSchema.bits).sum = 8
  keys : IsKeyField keys

/-! ## Positions -/

/-- Bit and usage of each element. -/
def elementSlots (f : HIDFieldSchema) : List (Nat × HIDUsage) :=
  (List.range f.reportCount).map fun i => (f.bitOffset + i, f.usageAt i true)

theorem elementSlots_positions {fs : List HIDFieldSchema} {lo hi : Nat}
    (h : Tiles HIDFieldSchema.bitOffset HIDFieldSchema.bits lo fs hi) (hsize : ∀ f ∈ fs, f.reportSize = 1) :
    (fs.flatMap elementSlots).map Prod.fst = List.range' lo (hi - lo) := by
  induction fs generalizing lo with
  | nil =>
    obtain rfl : lo = hi := h
    simp
  | cons f fs ih =>
    obtain ⟨rfl, hfs⟩ := h
    have hbits : f.bits = f.reportCount := by
      rw [HIDFieldSchema.bits, hsize f (by simp), Nat.one_mul]
    have hfirst : (elementSlots f).map Prod.fst = List.range' f.bitOffset f.reportCount := by
      rw [elementSlots, List.map_map, List.range'_eq_map_range]
      rfl
    have hle := hfs.le
    rw [List.flatMap_cons, List.map_append, ih hfs fun g hg => hsize g (List.mem_cons_of_mem _ hg), hbits,
      hfirst, List.range'_append_1]
    congr 1
    omega

theorem elementSlots_usages (fs : List HIDFieldSchema) :
    (fs.flatMap elementSlots).map Prod.snd = fs.flatMap elementUsages := by
  rw [List.map_flatMap]
  simp only [elementSlots, List.map_map]
  rfl

/-! ## Contents of a payload -/

/-- What a value says, without where it comes from. -/
def content (value : HIDReportItemValue) : HIDUsage × Int × Int := (value.usage, value.value, value.rawValue)

def bitValue (bit : Bool) : Int := if bit then 1 else 0

theorem bitsValue_bit (data : List UInt8) (pos : Nat) :
    bitsValue data pos 1 false = bitValue (bitSet data pos) := by
  have h : ofBits (fun i => bitSet data (pos + i)) 1 = if bitSet data pos then 1 else 0 := by
    rw [ofBits_succ]
    cases bitSet data pos <;> simp [ofBits]
  rw [bitsValue, h]
  cases bitSet data pos <;> rfl

theorem bitsValue_byte (data : List UInt8) (i : Nat) :
    bitsValue data (8 * i) 8 false = ((data.getD i 0).toNat : Int) := by
  have h : ofBits (fun k => bitSet data (8 * i + k)) 8 = ofBits (data.getD i 0).toNat.testBit 8 := by
    apply ofBits_congr
    intro k hk
    rw [bitSet_eq_testBit]
    congr 3 <;> omega
  rw [bitsValue, h, ofBits_testBit (data.getD i 0).toNat_lt]
  rfl

theorem modifierBits_getD {data : List UInt8} {bit : Nat} (h : bit < 8) :
    (modifierBits data).getD bit false = bitSet data bit := by
  rw [bitSet_eq_testBit, Nat.div_eq_of_lt h, Nat.mod_eq_of_lt h, modifierBits,
    List.getD_eq_getElem?_getD, List.getElem?_map, List.getElem?_range h]
  rfl

section Layout

variable {m : HIDReportMap} (hm : SchemaInv m) {r : HIDReportSchema} (hr : r ∈ m.reports)
  {modifiers padding : List HIDFieldSchema} {keys : HIDFieldSchema}
  (hlayout : IsBootKeyboardReport m r modifiers padding keys)

include hm hr hlayout

theorem IsBootKeyboardReport.positions :
    Tiles HIDFieldSchema.bitOffset HIDFieldSchema.bits 0 modifiers 8 ∧
      modifiers.flatMap elementSlots = (List.range 8).map (fun bit => (bit, modifierUsage bit)) ∧
      keys.bitOffset = 16 ∧ r.byteSize = 8 := by
  have htiles := hm.tiles r hr
  rw [hlayout.fields, List.append_assoc] at htiles
  obtain ⟨mid, hmods, hrest⟩ := htiles.split
  obtain ⟨stop, hpad, hkeys, hend⟩ := hrest.split
  have hpos := elementSlots_positions hmods fun f hf => (hlayout.modifier f hf).size
  have husages := (elementSlots_usages modifiers).trans hlayout.modifierUsages
  have hmid : mid = 8 := by
    have hlen := congrArg List.length hpos
    have hlen' := congrArg List.length husages
    simp only [List.length_map, List.length_range', List.length_range, Nat.sub_zero] at hlen hlen'
    omega
  subst hmid
  have hstop := hpad.sum
  rw [hlayout.constantByte] at hstop
  subst hstop
  refine ⟨hmods, ?_, hkeys, ?_⟩
  · rw [List.zip_of_prod hpos husages, Nat.sub_zero, ← List.range_eq_range', List.zip_map_right,
      List.zip_eq_zipWith, List.zipWith_self, List.map_map]
    rfl
  · have hbits : keys.bits = 48 := by
      rw [HIDFieldSchema.bits, hlayout.keys.size, hlayout.keys.count]
    have hsize : 8 + 8 + keys.bits = r.bitSize := hend
    rw [hbits] at hsize
    rw [HIDReportSchema.byteSize, ← hsize]

end Layout

/-! ## Modifier fields -/

/-- The change of one modifier, if there is one. -/
def modifierChange (previous current : Nat → Bool) (slot : Nat × HIDUsage) : Option (HIDUsage × Int × Int) :=
  if previous slot.1 != current slot.1 then
    some (slot.2, bitValue (current slot.1), bitValue (current slot.1))
  else none

/-- A modifier field remembers the bits of the last payload. -/
def RemembersBits (f : HIDFieldSchema) (bits : Nat → Bool) (runtime : FieldRuntime) : Prop :=
  VariableMemory f (fun i => bitValue (bits (f.bitOffset + i))) runtime

theorem decodeField_modifier {m : HIDReportMap} (hm : SchemaInv m) {r : HIDReportSchema}
    (hr : r ∈ m.reports) {f : HIDFieldSchema} (hf : f ∈ m.fieldsOf r) (hmod : IsModifierField f)
    {payload : List UInt8} (hlen : r.byteSize ≤ payload.length) {previous : Nat → Bool}
    {runtime : FieldRuntime} (hmem : RemembersBits f previous runtime) :
    RemembersBits f (bitSet payload) (decodeField m r f payload runtime).1 ∧
      (decodeField m r f payload runtime).2.map content =
        (elementSlots f).filterMap (modifierChange previous (bitSet payload)) := by
  have hin : ∀ bit, inRange f (bitValue bit) = true := by
    intro bit
    rw [inRange, hmod.logical]
    cases bit <;> rfl
  have hread : ∀ i < f.reportCount, readElement payload f i =
      if inRange f (bitValue (bitSet payload (f.bitOffset + i))) then
        some (bitValue (bitSet payload (f.bitOffset + i)))
      else none := by
    intro i hi
    have hsigned : isSigned f = false := by rw [isSigned, hmod.logical]; rfl
    rw [readElement_eq hm hr hf hi hlen, hsigned, hmod.size, Nat.mul_one, bitsValue_bit]
  obtain ⟨hmem', hvalues⟩ := decodeVariable_spec (m := m) (r := r) hmod.isVariable hread hmem
  refine ⟨hmem'.congr fun i _ => by rw [hin]; rfl, ?_⟩
  rw [hvalues, elementSlots, List.filterMap_map, List.map_filterMap]
  apply List.filterMap_congr
  intro i _
  simp only [emits, hin, hmod.isAbsolute, Bool.true_and, Bool.false_eq_true, if_false, Function.comp_apply,
    modifierChange, decide_eq_true_eq]
  cases previous (f.bitOffset + i) <;> cases bitSet payload (f.bitOffset + i) <;> rfl

/-! ## Key slots -/

def keyEntry (key : Nat) : HIDUsage × Int := (keyUsage key, key)

theorem usageAt_key {f : HIDFieldSchema} (h : IsKeyField f) {key : Nat} (hkey : key ≤ 0xE7) :
    f.usageAt key false = keyUsage key := by
  rw [HIDFieldSchema.usageAt, h.noList]
  simp only [List.length_nil, Nat.not_lt_zero, dif_neg, not_false_eq_true, Bool.false_and, Bool.false_eq_true,
    if_false, h.hasRange, h.first, h.last, keyUsage, beq_self_eq_true, Bool.true_and]
  rw [if_pos (by simpa using hkey), Nat.zero_add, Nat.mod_eq_of_lt (by omega)]

theorem slotUsage_key {m : HIDReportMap} (hm : SchemaInv m) {r : HIDReportSchema} (hr : r ∈ m.reports)
    {f : HIDFieldSchema} (hf : f ∈ m.fieldsOf r) (hkey : IsKeyField f) (hpos : f.bitOffset = 16)
    {payload : List UInt8} (hlen : r.byteSize ≤ payload.length) {i : Nat} (hi : i < 6) :
    slotUsage payload f i =
      let key := (payload.getD (2 + i) 0).toNat
      if key ≠ 0 ∧ key ≤ 0xE7 then some (keyEntry key) else none := by
  have hsigned : isSigned f = false := by rw [isSigned, hkey.logical]; rfl
  have hoff : f.bitOffset + i * f.reportSize = 8 * (2 + i) := by rw [hpos, hkey.size]; omega
  have hread := readElement_eq hm hr hf (i := i) (by rw [hkey.count]; exact hi) hlen
  rw [hsigned, hoff, hkey.size, bitsValue_byte] at hread
  rw [slotUsage, hread]
  generalize (payload.getD (2 + i) 0).toNat = key
  simp only [inRange, hkey.logical, decide_eq_true_eq]
  by_cases hle : key ≤ 0xE7
  · have hindex : (((key : Int) - 0) % 2 ^ 32).toNat = key := by omega
    rw [if_pos (by omega)]
    simp only [hindex, usageAt_key hkey hle, keyUsage, hle, and_true, keyEntry]
    simp
  · rw [if_neg (by omega), if_neg (fun h => hle h.2)]

theorem emplace_keyEntry {key : Nat} {keys : List Nat} (h : key ∉ keys) :
    emplace (keyUsage key) key (keys.map keyEntry) = (insertKey key keys).map keyEntry := by
  induction keys with
  | nil => rfl
  | cons first rest ih =>
    obtain ⟨hne, hrest⟩ := not_or.mp (mt List.mem_cons.mpr h)
    have hlt : (keyUsage key).lt (keyEntry first).1 = decide (key < first) := by
      rw [Bool.eq_iff_iff, HIDUsage.lt, Bool.or_eq_true, Bool.and_eq_true, decide_eq_true_iff,
        decide_eq_true_iff, decide_eq_true_iff]
      simp [keyUsage, keyEntry]
    rw [List.map_cons, emplace, insertKey, hlt, if_neg hne]
    split <;> rename_i hcmp
    · rw [if_pos (by simpa using hcmp)]
      rfl
    · rw [if_neg (by simpa using hcmp), List.map_cons, ih hrest]

theorem emplace_keyEntries {codes : List Nat} (hcodes : codes.Nodup) {keys : List Nat}
    (hnew : ∀ code ∈ codes, code ∉ keys) :
    codes.foldl (fun current key => emplace (keyUsage key) key current) (keys.map keyEntry) =
      (codes.foldl (fun current key => insertKey key current) keys).map keyEntry := by
  induction codes generalizing keys with
  | nil => rfl
  | cons code codes ih =>
    obtain ⟨hnotin, hcodes⟩ := List.nodup_cons.mp hcodes
    rw [List.foldl_cons, List.foldl_cons, emplace_keyEntry (hnew code (by simp))]
    apply ih hcodes
    intro code' hcode' hmem
    rcases mem_insertKey.mp hmem with rfl | hmem
    · exact hnotin hcode'
    · exact hnew code' (List.mem_cons_of_mem _ hcode') hmem

theorem currentUsages_key {m : HIDReportMap} (hm : SchemaInv m) {r : HIDReportSchema}
    (hr : r ∈ m.reports) {f : HIDFieldSchema} (hf : f ∈ m.fieldsOf r) (hkey : IsKeyField f)
    (hpos : f.bitOffset = 16) {payload : List UInt8} (hlen : r.byteSize ≤ payload.length)
    (hdistinct : (keyCodes payload).Nodup) :
    currentUsages payload f = (currentKeys payload).map keyEntry := by
  have hfold : currentUsages payload f =
      (keyCodes payload).foldl (fun current key => emplace (keyUsage key) key current) [] := by
    rw [currentUsages, hkey.count, keyCodes, List.foldl_filter, List.foldl_map]
    apply List.foldl_ext
    intro current i hi
    rw [slotUsage_key hm hr hf hkey hpos hlen (List.mem_range.mp hi)]
    by_cases hcode : (payload.getD (2 + i) 0).toNat ≠ 0 ∧ (payload.getD (2 + i) 0).toNat ≤ 0xE7
    · simp only [hcode, ne_eq, not_false_eq_true, and_self, if_true, decide_true, keyEntry]
    · simp only [hcode, if_false, decide_false, Bool.false_eq_true]
  rw [hfold, currentKeys_eq]
  exact @emplace_keyEntries _ hdistinct [] (by simp)

theorem usagesOf_keyEntries_nodup {keys : List Nat} (h : keys.Nodup) :
    (usagesOf (keys.map keyEntry)).Nodup := by
  rw [usagesOf, List.map_map]
  exact h.map fun a b hab => congrArg HIDUsage.usage hab

theorem unmatched_keyEntries {keys : List Nat} (h : keys.Nodup) (others : List Nat) :
    unmatched (keys.map keyEntry) (others.map keyEntry) =
      (keys.filter fun key => !others.contains key).map keyEntry := by
  rw [unmatched_of_nodup (usagesOf_keyEntries_nodup h), List.filter_map]
  congr 1
  have hhas : ∀ key, hasUsage (others.map keyEntry) (keyUsage key) = others.contains key := by
    intro key
    rw [Bool.eq_iff_iff, hasUsage_iff, usagesOf, List.map_map, List.contains_iff_mem, List.mem_map]
    constructor
    · rintro ⟨other, hother, heq⟩
      obtain rfl : other = key := congrArg HIDUsage.usage heq
      exact hother
    · exact fun hmem => ⟨key, hmem, rfl⟩
  apply List.filter_congr
  intro key _
  exact congrArg Bool.not (hhas key)

/-- A press carries the code, a release carries 0. -/
theorem decodeField_keys {m : HIDReportMap} (hm : SchemaInv m) {r : HIDReportSchema}
    (hr : r ∈ m.reports) {f : HIDFieldSchema} (hf : f ∈ m.fieldsOf r) (hkey : IsKeyField f)
    (hpos : f.bitOffset = 16) {payload : List UInt8} (hlen : r.byteSize ≤ payload.length)
    (hdistinct : (keyCodes payload).Nodup) {previous : List Nat} (hprevious : previous.Nodup)
    {runtime : FieldRuntime} (hmem : runtime.activeArrayUsages = previous.map keyEntry) :
    (decodeField m r f payload runtime).1.activeArrayUsages = (currentKeys payload).map keyEntry ∧
      (decodeField m r f payload runtime).2.map content =
        (keyValues previous (currentKeys payload)).map content := by
  have hcur := currentUsages_key hm hr hf hkey hpos hlen hdistinct
  have hcurrent : (currentKeys payload).Nodup := (currentKeys_sorted payload).imp Nat.ne_of_lt
  rw [decodeField, hkey.isArray, if_neg (by simp), decodeArray]
  simp only [initRuntime_activeArrayUsages, hmem, hcur]
  refine ⟨trivial, ?_⟩
  rw [unmatched_keyEntries hcurrent, unmatched_keyEntries hprevious, keyValues]
  simp only [List.map_append, List.map_map]
  rfl

/-! ## The two memories -/

/-- The two decoders remember the same modifiers and the same keys. -/
structure SameMemory (modifiers : List HIDFieldSchema) (keys : HIDFieldSchema) (handle : Nat)
    (d : HIDBootReportDecoder) (runtime : Nat → FieldRuntime) : Prop where
  modifiers : ∀ f ∈ modifiers,
    RemembersBits f (fun bit => (d.keyboardModifiers handle).getD bit false) (runtime f.id)
  keys : (runtime keys.id).activeArrayUsages = (d.keyboardKeys handle).map keyEntry
  distinct : (d.keyboardKeys handle).Nodup

theorem SameMemory.fresh (modifiers : List HIDFieldSchema) (keys : HIDFieldSchema) (handle : Nat) :
    SameMemory modifiers keys handle {} fun _ => {} where
  modifiers := by
    intro f _
    have hbit : ∀ bit, (List.replicate 8 false).getD bit false = false := by
      intro bit
      rw [List.getD_eq_getElem?_getD, List.getElem?_replicate]
      split <;> rfl
    refine ⟨by simp [initRuntime], fun _ i hi => ?_⟩
    refine Eq.trans ?_ (congrArg bitValue (hbit (f.bitOffset + i))).symm
    simp [initRuntime, hi, bitValue, List.getD_eq_getElem?_getD]
  keys := rfl
  distinct := .nil

theorem modifierValues_content (previous : List Bool) (data : List UInt8) :
    (modifierValues previous (modifierBits data)).map content =
      ((List.range 8).map fun bit => (bit, modifierUsage bit)).filterMap
        (modifierChange (previous.getD · false) (bitSet data)) := by
  rw [modifierValues, List.map_filterMap, List.filterMap_map]
  apply List.filterMap_congr
  intro bit hbit
  simp only [modifierBits_getD (List.mem_range.mp hbit), Function.comp_apply, modifierChange]
  split <;> rfl

section Run

variable {m : HIDReportMap} (hm : SchemaInv m) {r : HIDReportSchema} (hr : r ∈ m.reports)
  {modifiers padding : List HIDFieldSchema} {keys : HIDFieldSchema}
  (hlayout : IsBootKeyboardReport m r modifiers padding keys)

include hm hr hlayout

theorem SameMemory.step {handle : Nat} {d : HIDBootReportDecoder} {payload : List UInt8}
    (h : SameMemory modifiers keys handle d m.runtime) (hlen : 8 ≤ payload.length)
    (hdistinct : (keyCodes payload).Nodup) :
    ∃ runtime, (parseInput m r payload).1 = { m with runtime } ∧
      SameMemory modifiers keys handle (decodeKeyboard d handle payload).1 runtime ∧
      (decodeKeyboard d handle payload).2.map content = (parseInput m r payload).2.map content := by
  obtain ⟨hmods, hslots, hpos, hbytes⟩ := hlayout.positions hm hr
  obtain ⟨runtime, hmap, hvalues, hruntime⟩ := parseInput_eq hm hr payload
  have hmem : ∀ f, f ∈ modifiers ∨ f ∈ padding ∨ f = keys → f ∈ m.fieldsOf r := by
    intro f hf
    rw [hlayout.fields, List.mem_append, List.mem_append, List.mem_singleton, or_assoc]
    exact hf
  rw [← hbytes] at hlen
  have hmodifier : ∀ f ∈ modifiers, _ := fun f hf =>
    decodeField_modifier hm hr (hmem f (.inl hf)) (hlayout.modifier f hf) hlen (h.modifiers f hf)
  obtain ⟨hkeys, hkeyValues⟩ := decodeField_keys hm hr (hmem keys (.inr (.inr rfl))) hlayout.keys hpos hlen
    hdistinct h.distinct h.keys
  refine ⟨runtime, hmap, ⟨?_, ?_, ?_⟩, ?_⟩
  · -- the modifier bits, field by field
    intro f hf
    rw [hruntime f (hmem f (.inl hf)) (hlayout.modifier f hf).isData]
    refine (hmodifier f hf).1.congr fun i hi => ?_
    have hin := (hmods.inside f hf).2
    rw [HIDFieldSchema.bits, (hlayout.modifier f hf).size] at hin
    simp only [decodeKeyboard, Function.update_self]
    rw [modifierBits_getD (by omega)]
  · -- the key slots
    rw [hruntime keys (hmem keys (.inr (.inr rfl))) hlayout.keys.isData, hkeys]
    simp only [decodeKeyboard, Function.update_self]
  · simp only [decodeKeyboard, Function.update_self]
    exact (currentKeys_sorted payload).imp Nat.ne_of_lt
  · -- the values: the constant fields add none, and the other two parts come in one order
    have hconstant : padding.flatMap (fieldValues m r payload m.runtime) = [] := by
      rw [List.flatMap_eq_nil_iff]
      intro f hf
      rw [fieldValues, if_pos (hlayout.constant f hf)]
    have hfields : (modifiers.flatMap (fieldValues m r payload m.runtime)).map content =
        (modifiers.flatMap elementSlots).filterMap
          (modifierChange ((d.keyboardModifiers handle).getD · false) (bitSet payload)) := by
      rw [List.map_flatMap, List.filterMap_flatMap]
      apply List.flatMap_congr
      intro f hf
      rw [fieldValues, if_neg (by simp [(hlayout.modifier f hf).isData])]
      exact (hmodifier f hf).2
    rw [hvalues, hlayout.fields, List.flatMap_append, List.flatMap_append, hconstant, List.append_nil,
      List.flatMap_singleton, fieldValues, if_neg (by simp [hlayout.keys.isData]), List.map_append, hfields,
      hslots, hkeyValues, ← modifierValues_content, ← List.map_append]
    rfl

end Run

/-! ## Every sequence of payloads -/

/-- One payload, fed to both decoders. -/
structure TwinCall where
  bootSource : HIDReportSource
  mapSource : HIDReportSource
  payload : Buffer

/-- No code of a key stands in two slots. -/
def DistinctCodes : Buffer → Prop
  | .null _ => True
  | .bytes data => (keyCodes data).Nodup

instance : DecidablePred DistinctCodes
  | .null _ => inferInstanceAs (Decidable True)
  | .bytes data => inferInstanceAs (Decidable (keyCodes data).Nodup)

structure TwinCall.Valid (handle : Nat) (r : HIDReportSchema) (call : TwinCall) : Prop where
  uuid : call.bootSource.characteristicUuid = bootKeyboardInputUuid
  handle : call.bootSource.characteristicHandle = handle
  selects : Selects r call.mapSource
  distinct : DistinctCodes call.payload

def TwinCall.decode (call : TwinCall) : DecoderCall := .decode call.bootSource call.payload

def TwinCall.parse (call : TwinCall) : MapCall := .parse call.mapSource call.payload

/-- Status and contents of an answer. -/
def Answer.contents (a : Answer) : Option HIDDecodeStatus × List (HIDUsage × Int × Int) :=
  (a.status, a.values.map content)

theorem parse_short {m : HIDReportMap} (hm : SchemaInv m) {r : HIDReportSchema} (hr : r ∈ m.reports)
    (hk : r.kind = .input) {source : HIDReportSource} (h : Selects r source) {payload : List UInt8}
    (hlen : payload.length < r.byteSize) :
    parse m source (.bytes payload) = { map := m, recognized := true, status := .short } := by
  have hfind : m.findReport .input (selectedReportId source) = some r := by
    rw [h.reportId, ← hk, findReport_of_mem hm.distinct hr]
  have hkind : (source.hasReportType && !isInputKind source.reportType) = false := by
    cases ht : source.hasReportType with
    | false => rfl
    | true => simp [isInputKind, HIDReportKind.code, h.kind ht]
  simp only [parse, h.notBoot, hkind, hfind, hlen, Bool.false_eq_true, if_true, if_false]

theorem decode_keyboard {d : HIDBootReportDecoder} {source : HIDReportSource} {payload : List UInt8}
    (huuid : source.characteristicUuid = bootKeyboardInputUuid) :
    decode d source (.bytes payload) =
      if payload.length < 8 then { decoder := d, status := .short }
      else
        { decoder := (decodeKeyboard d source.characteristicHandle payload).1
          values := (decodeKeyboard d source.characteristicHandle payload).2
          status := if payload.length = 8 then .exact else .long } := by
  rw [decode, decodeBytes, if_neg (by rw [huuid]; decide), if_pos huuid]

section Run

variable {m : HIDReportMap} (hm : SchemaInv m) {r : HIDReportSchema} (hr : r ∈ m.reports)
  {modifiers padding : List HIDFieldSchema} {keys : HIDFieldSchema}
  (hlayout : IsBootKeyboardReport m r modifiers padding keys)

include hm hr hlayout

theorem SameMemory.call {handle : Nat} {d : HIDBootReportDecoder}
    (h : SameMemory modifiers keys handle d m.runtime) {call : TwinCall} (hcall : call.Valid handle r) :
    (callDecoder d call.decode).2.contents = (callMap m call.parse).2.contents ∧
      ∃ runtime, (callMap m call.parse).1 = { m with runtime } ∧
        SameMemory modifiers keys handle (callDecoder d call.decode).1 runtime := by
  obtain ⟨bootSource, mapSource, payload⟩ := call
  obtain ⟨huuid, hhandle, hselects, hdistinct⟩ := hcall
  have hbytes := (hlayout.positions hm hr).2.2.2
  -- The null pointer with length 0 is the empty payload.
  have hdata : ∀ data : List UInt8, (keyCodes data).Nodup →
      (decode d bootSource (.bytes data)).status = (parse m mapSource (.bytes data)).status ∧
      (decode d bootSource (.bytes data)).values.map content =
        (parse m mapSource (.bytes data)).values.map content ∧
      ∃ runtime, (parse m mapSource (.bytes data)).map = { m with runtime } ∧
        SameMemory modifiers keys handle (decode d bootSource (.bytes data)).decoder runtime := by
    intro data hcodes
    rw [decode_keyboard huuid]
    by_cases hlen : data.length < 8
    · rw [if_pos hlen, parse_short hm hr hlayout.input hselects (by omega)]
      exact ⟨rfl, rfl, m.runtime, rfl, h⟩
    · have hsize : r.byteSize ≤ data.length := by omega
      have hacc := hselects.accepts hm hr hlayout.input hsize
      obtain ⟨runtime, hmap, hnext, hvalues⟩ := h.step hm hr hlayout (by omega) hcodes
      rw [if_neg hlen, parse_accepted hacc, hbytes, hhandle]
      refine ⟨rfl, ?_, runtime, hmap, hnext⟩
      rw [hvalues, List.map_map]
      rfl
  cases payload with
  | bytes data =>
    obtain ⟨hstatus, hvalues, hnext⟩ := hdata data hdistinct
    exact ⟨Prod.ext (congrArg some hstatus) hvalues, hnext⟩
  | null n =>
    cases n with
    | zero =>
      obtain ⟨hstatus, hvalues, hnext⟩ := hdata [] (by simp [keyCodes])
      exact ⟨Prod.ext (congrArg some hstatus) hvalues, hnext⟩
    | succ n => exact ⟨rfl, m.runtime, rfl, h⟩

end Run

theorem SameMemory.transcripts {m : HIDReportMap} (hm : SchemaInv m) {r : HIDReportSchema}
    (hr : r ∈ m.reports) {modifiers padding : List HIDFieldSchema} {keys : HIDFieldSchema}
    (hlayout : IsBootKeyboardReport m r modifiers padding keys) {handle : Nat} (calls : List TwinCall)
    (hcalls : ∀ call ∈ calls, call.Valid handle r) {d : HIDBootReportDecoder} {runtime : Nat → FieldRuntime}
    (h : SameMemory modifiers keys handle d runtime) :
    (transcript callDecoder d (calls.map TwinCall.decode)).map (·.2.contents) =
      (transcript callMap { m with runtime } (calls.map TwinCall.parse)).map (·.2.contents) := by
  induction calls generalizing d runtime with
  | nil => rfl
  | cons call calls ih =>
    have hlayout' : IsBootKeyboardReport { m with runtime } r modifiers padding keys := { hlayout with }
    obtain ⟨hanswer, runtime', hmap, hnext⟩ :=
      h.call (m := { m with runtime }) (hm.withRuntime runtime) hr hlayout' (hcalls call (by simp))
    have hrest := ih (fun call hcall => hcalls call (List.mem_cons_of_mem _ hcall)) hnext
    simp only [List.map_cons, transcript, hanswer, hmap, hrest]

/-- At every step the boot decoder and the map yield the same status and the same changes. -/
theorem decode_parse_agree (data : Buffer) (m : HIDReportMap) (h : parseReportMapData data = some m)
    (r : HIDReportSchema) (hr : r ∈ m.reports) (modifiers padding : List HIDFieldSchema)
    (keys : HIDFieldSchema) (hlayout : IsBootKeyboardReport m r modifiers padding keys) (handle : Nat)
    (calls : List TwinCall) (hcalls : ∀ call ∈ calls, call.Valid handle r) :
    (transcript callDecoder {} (calls.map TwinCall.decode)).map (·.2.contents) =
      (transcript callMap m (calls.map TwinCall.parse)).map (·.2.contents) := by
  obtain ⟨hm, hfresh⟩ := parseReportMapData_inv h
  have hstart := SameMemory.fresh modifiers keys handle
  rw [← hfresh] at hstart
  exact SameMemory.transcripts hm hr hlayout calls hcalls hstart

/-- The boot keyboard report without its output part. -/
def bootKeyboardDescriptor : List UInt8 :=
  [0x05, 0x07, 0x19, 0xE0, 0x29, 0xE7, 0x15, 0x00, 0x25, 0x01, 0x75, 0x01, 0x95, 0x08, 0x81, 0x02,
    0x95, 0x01, 0x75, 0x08, 0x81, 0x01, 0x95, 0x06, 0x75, 0x08, 0x15, 0x00, 0x26, 0xE7, 0x00,
    0x05, 0x07, 0x19, 0x00, 0x29, 0xE7, 0x81, 0x00]

theorem bootKeyboardDescriptor_accepted : (parseReportMapData (.bytes bootKeyboardDescriptor)).isSome := by
  decide +kernel

def bootKeyboardMap : HIDReportMap :=
  (parseReportMapData (.bytes bootKeyboardDescriptor)).get bootKeyboardDescriptor_accepted

def bootKeyboardReport : HIDReportSchema := bootKeyboardMap.reports.headD {}

def bootKeyboardField (i : Nat) : HIDFieldSchema := bootKeyboardMap.fields.getD i {}

theorem bootKeyboardMap_layout : IsBootKeyboardReport bootKeyboardMap bootKeyboardReport
    [bootKeyboardField 0] [bootKeyboardField 1] (bootKeyboardField 2) where
  input := by decide +kernel
  noReportId := by decide +kernel
  fields := by decide +kernel
  modifier := by
    intro f hf
    obtain rfl := List.mem_singleton.mp hf
    constructor <;> decide +kernel
  modifierUsages := by decide +kernel
  constant := by decide +kernel
  constantByte := by decide +kernel
  keys := by constructor <;> decide +kernel

def twinCall (payload : List UInt8) : TwinCall where
  bootSource := { characteristicHandle := 20, characteristicUuid := 0x2A22 }
  mapSource := { characteristicHandle := 31 }
  payload := .bytes payload

/-- Shift and two keys, the slots swapped, a short report, a long one with a code out of range. -/
def twinCalls : List TwinCall :=
  [twinCall [0x02, 0, 5, 4, 0, 0, 0, 0], twinCall [0x02, 0, 4, 5, 0, 0, 0, 0], twinCall [0, 0, 4],
    twinCall [0, 0, 4, 0xFF, 0, 0, 0, 0, 9]]

example : (transcript callDecoder {} (twinCalls.map TwinCall.decode)).map (·.2.contents) =
    [(some .exact, [(modifierUsage 1, 1, 1), (keyUsage 4, 1, 4), (keyUsage 5, 1, 5)]), (some .exact, []),
      (some .short, []), (some .long, [(modifierUsage 1, 0, 0), (keyUsage 5, 0, 0)])] := by
  decide +kernel

theorem decode_parse_agree_twinCalls :
    (transcript callDecoder {} (twinCalls.map TwinCall.decode)).map (·.2.contents) =
      (transcript callMap bootKeyboardMap (twinCalls.map TwinCall.parse)).map (·.2.contents) := by
  refine decode_parse_agree (.bytes bootKeyboardDescriptor) bootKeyboardMap
    (by rw [bootKeyboardMap, Option.some_get]) bootKeyboardReport (by decide +kernel) _ _ _
    bootKeyboardMap_layout 20 twinCalls ?_
  have hselects : Selects bootKeyboardReport { characteristicHandle := 31 } :=
    ⟨by decide +kernel, rfl, by decide⟩
  have hcodes : ∀ call ∈ twinCalls, DistinctCodes call.payload := by decide
  intro call hcall
  have hdistinct := hcodes call hcall
  simp only [twinCalls, List.mem_cons, List.not_mem_nil, or_false] at hcall
  rcases hcall with rfl | rfl | rfl | rfl <;> exact ⟨rfl, rfl, hselects, hdistinct⟩

end BleClientHid
