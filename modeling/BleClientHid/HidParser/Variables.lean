import BleClientHid.HidParser.Decode

/-! # Variable fields undo report encoding

An assignment gives each element of each variable field a number. Packed least
significant bit first, the assignments of a run come back out of `parse`.
-/

namespace BleClientHid

namespace HidParser

open Lib HIDReportMap

/-! ## Assignments -/

/-- The number of each element, by field id and index. -/
abbrev Assignment := Nat → Nat → Int

def isVariableField (f : HIDFieldSchema) : Bool := !f.isConstant && f.isVariable

/-- The variable fields of a report, in schema order. -/
def variableFields (m : HIDReportMap) (r : HIDReportSchema) : List HIDFieldSchema :=
  (m.fieldsOf r).filter isVariableField

def isSigned (f : HIDFieldSchema) : Bool := decide (f.logical.minimum < 0)

def Representable (f : HIDFieldSchema) (v : Int) : Prop :=
  if isSigned f then -2 ^ (f.reportSize - 1) ≤ v ∧ v < 2 ^ (f.reportSize - 1)
  else 0 ≤ v ∧ v < 2 ^ f.reportSize

/-- The payload holds the assignment, each number least significant bit first. Its other bits are free. -/
structure Packed (m : HIDReportMap) (r : HIDReportSchema) (a : Assignment) (payload : List UInt8) :
    Prop where
  length : r.byteSize ≤ payload.length
  bits : ∀ f ∈ variableFields m r, ∀ i < f.reportCount, ∀ j < f.reportSize,
    bitSet payload (f.bitOffset + i * f.reportSize + j) = (lowBits f.reportSize (a f.id i)).testBit j

theorem mem_variableFields {m : HIDReportMap} {r : HIDReportSchema} {f : HIDFieldSchema} :
    f ∈ variableFields m r ↔ f ∈ m.fieldsOf r ∧ f.isConstant = false ∧ f.isVariable = true := by
  simp [variableFields, isVariableField]

/-! ## A packer -/

/-- The bit at `pos`; padding and array slots stay 0. -/
def packedBit (m : HIDReportMap) (r : HIDReportSchema) (a : Assignment) (pos : Nat) : Bool :=
  match (variableFields m r).find? (covers · pos) with
  | none => false
  | some f =>
    (lowBits f.reportSize (a f.id ((pos - f.bitOffset) / f.reportSize))).testBit
      ((pos - f.bitOffset) % f.reportSize)

def pack (m : HIDReportMap) (r : HIDReportSchema) (a : Assignment) : List UInt8 :=
  (List.range r.byteSize).map fun b => UInt8.ofNat (ofBits (fun k => packedBit m r a (8 * b + k)) 8)

theorem bitSet_pack (m : HIDReportMap) (r : HIDReportSchema) (a : Assignment) {pos : Nat}
    (hpos : pos < 8 * r.byteSize) : bitSet (pack m r a) pos = packedBit m r a pos := by
  have hbyte : pos / 8 < r.byteSize := by omega
  have hlt : ofBits (fun k => packedBit m r a (8 * (pos / 8) + k)) 8 < 2 ^ 8 := ofBits_lt _ _
  rw [bitSet_eq_testBit, pack, List.getD_eq_getElem?_getD, List.getElem?_map,
    List.getElem?_range hbyte, Option.map_some, Option.getD_some, UInt8.toNat_ofNat',
    Nat.mod_eq_of_lt hlt, testBit_ofBits, decide_eq_true (by omega), Bool.true_and]
  congr 1
  omega

theorem bitSize_le_byteSize (r : HIDReportSchema) : r.bitSize ≤ 8 * r.byteSize := by
  unfold HIDReportSchema.byteSize
  omega

theorem pack_packed {m : HIDReportMap} (hm : SchemaInv m) {r : HIDReportSchema} (hr : r ∈ m.reports)
    (a : Assignment) : Packed m r a (pack m r a) where
  length := by simp [pack]
  bits := by
    intro f hf i hi j hj
    have hin := element_inside hi hj
    have hfr := (mem_variableFields.mp hf).1
    have hend := ((hm.tiles r hr).inside f hfr).2
    have hbytes := bitSize_le_byteSize r
    have hcov : covers f (f.bitOffset + i * f.reportSize + j) = true := by
      simp only [covers, decide_eq_true_eq]
      omega
    have hfind : (variableFields m r).find? (covers · (f.bitOffset + i * f.reportSize + j)) = some f := by
      cases hg : (variableFields m r).find? (covers · (f.bitOffset + i * f.reportSize + j)) with
      | none => exact absurd hcov (List.find?_eq_none.mp hg f hf)
      | some g =>
        have hgcov : covers g (f.bitOffset + i * f.reportSize + j) = true := by
          simpa using List.find?_some hg
        have hgr := (mem_variableFields.mp (List.mem_of_find?_eq_some hg)).1
        rw [eq_of_covers hm hr hgr hfr hgcov hcov]
    have hsub : f.bitOffset + i * f.reportSize + j - f.bitOffset = j + f.reportSize * i := by
      rw [Nat.mul_comm f.reportSize]
      omega
    rw [bitSet_pack m r a (by omega), packedBit, hfind]
    simp only [hsub]
    rw [Nat.add_mul_div_left _ _ (by omega), Nat.div_eq_of_lt hj, Nat.zero_add,
      Nat.add_mul_mod_self_left, Nat.mod_eq_of_lt hj]

/-! ## One element -/

def inRange (f : HIDFieldSchema) (v : Int) : Bool :=
  decide (f.logical.minimum ≤ v ∧ v ≤ f.logical.maximum)

theorem readElement_eq {m : HIDReportMap} (hm : SchemaInv m) {r : HIDReportSchema} (hr : r ∈ m.reports)
    {f : HIDFieldSchema} (hf : f ∈ m.fieldsOf r) {i : Nat} (hi : i < f.reportCount)
    {payload : List UInt8} (hlen : r.byteSize ≤ payload.length) :
    readElement payload f i =
      let v := bitsValue payload (f.bitOffset + i * f.reportSize) f.reportSize (isSigned f)
      if inRange f v then some v else none := by
  obtain ⟨hs1, hs32, -, -⟩ := hm.fieldSize f (List.mem_of_mem_filter hf)
  have hend := ((hm.tiles r hr).inside f hf).2
  have hin := element_inside hi (j := f.reportSize - 1) (by omega)
  have hbytes := bitSize_le_byteSize r
  rw [readElement, element_position hm hr hf hi, ← isSigned, readBits_eq _ hs1 hs32 (by omega)]
  simp only [inRange, decide_eq_true_eq]
  split <;> rename_i h
  · rw [if_neg (by omega)]
  · rw [if_pos (by omega)]

theorem bitsValue_packed {f : HIDFieldSchema} (hs : 1 ≤ f.reportSize) {payload : List UInt8} {off : Nat}
    {v : Int} (hv : Representable f v)
    (hbits : ∀ j < f.reportSize, bitSet payload (off + j) = (lowBits f.reportSize v).testBit j) :
    bitsValue payload off f.reportSize (isSigned f) = v := by
  rw [bitsValue, ofBits_congr hbits, ofBits_testBit (lowBits_lt _ _)]
  rw [Representable] at hv
  split <;> rename_i h
  · rw [if_pos h] at hv
    exact twosComplement_lowBits hs hv.1 hv.2
  · rw [if_neg h] at hv
    exact lowBits_of_nonneg hv.1 hv.2

theorem readElement_packed {m : HIDReportMap} (hm : SchemaInv m) {r : HIDReportSchema}
    (hr : r ∈ m.reports) {a : Assignment} {payload : List UInt8} (hp : Packed m r a payload)
    {f : HIDFieldSchema} (hf : f ∈ variableFields m r) {i : Nat} (hi : i < f.reportCount)
    (hrep : Representable f (a f.id i)) :
    readElement payload f i = if inRange f (a f.id i) then some (a f.id i) else none := by
  have hfr := (mem_variableFields.mp hf).1
  rw [readElement_eq hm hr hfr hi hp.length]
  simp only [bitsValue_packed (hm.fieldSize f (List.mem_of_mem_filter hfr)).1 hrep (hp.bits f hf i hi)]

/-! ## One field -/

/-- The element emits: it is in range, and non-zero or changed. -/
def emits (f : HIDFieldSchema) (last v : Int) : Bool :=
  inRange f v && if f.isRelative then decide (v ≠ 0) else decide (v ≠ last)

theorem variableElement_eq {m : HIDReportMap} {r : HIDReportSchema} {f : HIDFieldSchema}
    {data : List UInt8} {i : Nat} {v last : Int}
    (hread : readElement data f i = if inRange f v then some v else none)
    (st : List Int × List HIDReportItemValue) (hlast : st.1.getD i 0 = last) :
    variableElement m r f data st i =
      if emits f last v then (st.1.set i v, st.2 ++ [variableValue m r f i v]) else st := by
  rw [variableElement, hread, emits]
  cases inRange f v with
  | false => rfl
  | true =>
    simp only [if_true, Bool.true_and, hlast]
    cases f.isRelative
    · by_cases h : v = last
      · simp [h]
      · simp [h, Ne.symm h]
    · by_cases h : v = 0 <;> simp [h]

/-- The rounds over the first `n` elements; round `i` only touches the memory of element `i`. -/
theorem variableElements_eq {m : HIDReportMap} {r : HIDReportSchema} {f : HIDFieldSchema}
    {data : List UInt8} {v old : Nat → Int} {n : Nat}
    (hread : ∀ i < n, readElement data f i = if inRange f (v i) then some (v i) else none)
    (last : List Int) (hlen : n ≤ last.length) (hold : ∀ i, last.getD i 0 = old i) :
    let out := (List.range n).foldl (variableElement m r f data) (last, [])
    out.1.length = last.length ∧
      (∀ i, out.1.getD i 0 = if i < n ∧ emits f (old i) (v i) then v i else old i) ∧
      out.2 = (List.range n).filterMap fun i =>
        if emits f (old i) (v i) then some (variableValue m r f i (v i)) else none := by
  induction n with
  | zero => simpa using hold
  | succ n ih =>
    obtain ⟨hlen', hget, hvalues⟩ := ih (fun i hi => hread i (by omega)) (by omega)
    generalize hst : (List.range n).foldl (variableElement m r f data) (last, []) = st at *
    -- element n is not yet written, so it still holds the old value
    have hn : st.1.getD n 0 = old n := by
      rw [hget, if_neg (by omega)]
    simp only [List.range_succ, List.foldl_append, List.foldl_cons, List.foldl_nil, hst,
      List.filterMap_append, ← hvalues]
    rw [variableElement_eq (hread n (by omega)) st hn]
    by_cases hemit : emits f (old n) (v n) = true
    · rw [if_pos hemit]
      refine ⟨by simpa using hlen', ?_, by simp [hemit]⟩
      intro i
      -- only slot n changes
      by_cases hi : i = n
      · subst hi
        have hbound : i < st.1.length := by omega
        simp [List.getD_eq_getElem?_getD, List.getElem?_set_self hbound, hemit]
      · have hset : (st.1.set n (v n)).getD i 0 = st.1.getD i 0 := by
          rw [List.getD_eq_getElem?_getD, List.getElem?_set_ne (Ne.symm hi),
            List.getD_eq_getElem?_getD]
        simp only [hset, hget, show i < n + 1 ↔ i < n by omega]
    · rw [if_neg hemit]
      refine ⟨hlen', ?_, by simp [hemit]⟩
      intro i
      rw [hget]
      by_cases hi : i = n
      · subst hi
        simp [hemit]
      · simp only [show i < n + 1 ↔ i < n by omega]

/-! ## A run -/

/-- The last number in range, 0 if there is none. -/
def lastInRange (f : HIDFieldSchema) (numbers : List Int) : Int :=
  ((numbers.filter (inRange f)).getLast?).getD 0

theorem lastInRange_append (f : HIDFieldSchema) (numbers : List Int) (v : Int) :
    lastInRange f (numbers ++ [v]) = if inRange f v then v else lastInRange f numbers := by
  cases h : inRange f v <;> simp [lastInRange, List.filter_append, h]

/-- One call of `parse` on a packed assignment. -/
structure PackedCall where
  assignment : Assignment
  source : HIDReportSource
  payload : List UInt8

structure PackedCall.Valid (m : HIDReportMap) (r : HIDReportSchema) (c : PackedCall) : Prop where
  selects : Selects r c.source
  representable : ∀ f ∈ variableFields m r, ∀ i < f.reportCount, Representable f (c.assignment f.id i)
  packed : Packed m r c.assignment c.payload

def PackedCall.sent (c : PackedCall) : HIDReportSource × List UInt8 := (c.source, c.payload)

theorem PackedCall.Valid.readElement {m : HIDReportMap} (hm : SchemaInv m) {r : HIDReportSchema}
    (hr : r ∈ m.reports) {c : PackedCall} (hc : c.Valid m r) {f : HIDFieldSchema}
    (hf : f ∈ variableFields m r) : ∀ i < f.reportCount, readElement c.payload f i =
      if inRange f (c.assignment f.id i) then some (c.assignment f.id i) else none :=
  fun i hi => readElement_packed hm hr hc.packed hf hi (hc.representable f hf i hi)

/-- The numbers of one element over a list of calls. -/
def numbers (calls : List PackedCall) (f : HIDFieldSchema) (i : Nat) : List Int :=
  calls.map (·.assignment f.id i)

/-- The memory of a variable field: an absolute element remembers its last number in range. -/
structure VariableMemory (f : HIDFieldSchema) (last : Nat → Int) (runtime : FieldRuntime) : Prop where
  length : (initRuntime f runtime).lastValues.length = f.reportCount
  last : f.isRelative = false → ∀ i < f.reportCount,
    (initRuntime f runtime).lastValues.getD i 0 = last i

theorem VariableMemory.congr {f : HIDFieldSchema} {last last' : Nat → Int} {runtime : FieldRuntime}
    (h : VariableMemory f last runtime) (hsame : ∀ i < f.reportCount, last i = last' i) :
    VariableMemory f last' runtime where
  length := h.length
  last := by
    intro hrel i hi
    rw [h.last hrel i hi, hsame i hi]

theorem emits_last {f : HIDFieldSchema} (hf : f.isRelative = false) (last v : Int) :
    (if emits f last v then v else last) = if inRange f v then v else last := by
  by_cases hin : inRange f v = true <;> by_cases hv : v = last <;> simp [emits, hf, hin, hv]

theorem emits_relative {f : HIDFieldSchema} (hf : f.isRelative = true) (last last' v : Int) :
    emits f last v = emits f last' v := by
  simp [emits, hf]

theorem decodeVariable_spec {m : HIDReportMap} {r : HIDReportSchema} {f : HIDFieldSchema}
    {data : List UInt8} {v last : Nat → Int} {runtime : FieldRuntime} (hvar : f.isVariable = true)
    (hread : ∀ i < f.reportCount, readElement data f i = if inRange f (v i) then some (v i) else none)
    (hmem : VariableMemory f last runtime) :
    VariableMemory f (fun i => if inRange f (v i) then v i else last i) (decodeField m r f data runtime).1 ∧
      (decodeField m r f data runtime).2 = (List.range f.reportCount).filterMap fun i =>
        if emits f (last i) (v i) then some (variableValue m r f i (v i)) else none := by
  obtain ⟨hlen, hget, hvalues⟩ := variableElements_eq (m := m) (r := r) hread
    (initRuntime f runtime).lastValues (Nat.le_of_eq hmem.length.symm) (fun _ => rfl)
  have hkept := initRuntime_of_initialized (f := f) (decodeField_initialized m r f data runtime)
  rw [decodeField, if_pos hvar, decodeVariable] at hkept ⊢
  refine ⟨⟨?_, ?_⟩, ?_⟩
  · rw [hkept]
    exact hlen.trans hmem.length
  · intro hrel i hi
    rw [hkept]
    refine (hget i).trans ?_
    rw [hmem.last hrel i hi, ← emits_last hrel]
    simp only [hi, true_and]
  · refine hvalues.trans (List.filterMap_congr fun i hi => ?_)
    have hsame : emits f ((initRuntime f runtime).lastValues.getD i 0) (v i) = emits f (last i) (v i) := by
      cases hrel : f.isRelative with
      | true => exact emits_relative hrel _ _ _
      | false => rw [hmem.last hrel i (List.mem_range.mp hi)]
    rw [hsame]

theorem memoryAfter_variable {m : HIDReportMap} (hm : SchemaInv m) {r : HIDReportSchema}
    (hr : r ∈ m.reports) {f : HIDFieldSchema} (hf : f ∈ variableFields m r) (calls : List PackedCall)
    (hcalls : ∀ c ∈ calls, c.Valid m r) :
    VariableMemory f (fun i => lastInRange f (numbers calls f i))
      (memoryAfter m r f {} (calls.map (·.payload))) := by
  induction calls using List.reverseRecOn with
  | nil =>
    refine ⟨by simp [memoryAfter, initRuntime], fun _ i hi => ?_⟩
    simp [memoryAfter, initRuntime, lastInRange, numbers, List.getD_eq_getElem?_getD, hi]
  | append_singleton calls c ih =>
    have hmem := ih (fun c hc => hcalls c (List.mem_append_left _ hc))
    have hread := (hcalls c (by simp)).readElement hm hr hf
    have hstep := (decodeVariable_spec (m := m) (r := r) (mem_variableFields.mp hf).2.2 hread hmem).1
    simp only [numbers, List.map_append, List.map_cons, List.map_nil, lastInRange_append]
    rw [memoryAfter, List.foldl_append]
    exact hstep

/-- The value that a call yields for an element that emits. -/
def elementValue (m : HIDReportMap) (r : HIDReportSchema) (f : HIDFieldSchema) (c : PackedCall)
    (i : Nat) : HIDReportItemValue :=
  { usage := f.usageAt i true
    value := c.assignment f.id i
    rawValue := c.assignment f.id i
    characteristicHandle := c.source.characteristicHandle
    fieldId := f.bitOffset + i * f.reportSize
    collectionId := f.collectionId
    applicationUsage := m.applicationUsage f.collectionId
    reportId := r.reportId
    isRelative := f.isRelative
    aggregation := aggregationOf f (f.usageAt i true) }

/-- Field by field and element by element, what the call after `before` reports. -/
def expectedValues (m : HIDReportMap) (r : HIDReportSchema) (before : List PackedCall)
    (c : PackedCall) : List HIDReportItemValue :=
  (variableFields m r).flatMap fun f => (List.range f.reportCount).filterMap fun i =>
    if emits f (lastInRange f (numbers before f i)) (c.assignment f.id i) then
      some (elementValue m r f c i)
    else none

/-- The value lies in the bits of a variable field. -/
def ofVariableField (m : HIDReportMap) (r : HIDReportSchema) (value : HIDReportItemValue) : Bool :=
  (variableFields m r).any (covers · value.fieldId)

theorem ofVariableField_iff {m : HIDReportMap} (hm : SchemaInv m) {r : HIDReportSchema}
    (hr : r ∈ m.reports) {f : HIDFieldSchema} (hf : f ∈ m.fieldsOf r) (hconst : f.isConstant = false)
    {value : HIDReportItemValue} (hcov : covers f value.fieldId = true) :
    ofVariableField m r value = f.isVariable := by
  rw [ofVariableField, Bool.eq_iff_iff, List.any_eq_true]
  constructor
  · rintro ⟨g, hg, hgcov⟩
    obtain ⟨hgr, -, hgvar⟩ := mem_variableFields.mp hg
    rwa [eq_of_covers hm hr hf hgr hcov hgcov]
  · intro hvar
    exact ⟨f, mem_variableFields.mpr ⟨hf, hconst, hvar⟩, hcov⟩

/-- Over a whole run, `parse` undoes the packing of the variable fields. -/
theorem parse_packed_values (data : Buffer) (m : HIDReportMap) (h : parseReportMapData data = some m)
    (r : HIDReportSchema) (hr : r ∈ m.reports) (hk : r.kind = .input) (before : List PackedCall)
    (c : PackedCall) (hcalls : ∀ call ∈ before ++ [c], call.Valid m r) :
    (parse (parseAll m (before.map PackedCall.sent)) c.source (.bytes c.payload)).values.filter
      (ofVariableField m r) = expectedValues m r before c := by
  obtain ⟨hm, hfresh⟩ := parseReportMapData_inv h
  have hacc : ∀ call ∈ before ++ [c], Accepts m r call.source call.payload := fun call hcall =>
    (hcalls call hcall).selects.accepts hm hr hk (hcalls call hcall).packed.length
  have hbefore : ∀ call ∈ before, call.Valid m r :=
    fun call hcall => hcalls call (List.mem_append_left _ hcall)
  have hc : c.Valid m r := hcalls c (by simp)
  rw [parse_after hm (before.map PackedCall.sent) (by
      simpa [PackedCall.sent] using fun call hcall => hacc call (List.mem_append_left _ hcall))
    (hacc c (by simp)), List.filter_flatMap, expectedValues, variableFields, flatMap_filter,
    flatMap_filter]
  apply List.flatMap_congr
  intro f hf
  -- a constant field yields nothing, and is none of the expected ones
  cases hconst : f.isConstant with
  | true => simp [isDataField, isVariableField, hconst]
  | false =>
    have hpayloads : (before.map PackedCall.sent).map (·.2) = before.map (·.payload) := by
      simp [PackedCall.sent]
    simp only [isDataField, isVariableField, hconst, Bool.not_false, if_true, Bool.true_and, hfresh,
      hpayloads]
    -- a value is one of a variable field exactly when its own field is variable
    have hkeep : ∀ value ∈ (decodeField m r f c.payload (memoryAfter m r f {} (before.map (·.payload)))).2,
        ofVariableField m r { value with characteristicHandle := c.source.characteristicHandle } =
          f.isVariable := by
      intro value hvalue
      have hcov := decodeField_covers hm hr hf hvalue
      exact ofVariableField_iff hm hr hf hconst hcov
    cases hvar : f.isVariable with
    | false =>
      rw [if_neg (by simp), List.filter_eq_nil_iff]
      intro value' hvalue'
      obtain ⟨value, hvalue, rfl⟩ := List.mem_map.mp hvalue'
      rw [hkeep value hvalue, hvar]
      simp
    | true =>
      have hfv := mem_variableFields.mpr ⟨hf, hconst, hvar⟩
      -- what the elements read is what was packed
      have hvalues := (decodeVariable_spec (m := m) (r := r) hvar (hc.readElement hm hr hfv)
        (memoryAfter_variable hm hr hfv before hbefore)).2
      rw [if_pos rfl, List.filter_eq_self.mpr, hvalues, List.map_filterMap]
      · apply List.filterMap_congr
        intro i hi
        have hpos := element_position hm hr hf (List.mem_range.mp hi)
        split
        · simp only [Option.map_some, variableValue, hpos]
          rfl
        · rfl
      · intro value' hvalue'
        obtain ⟨value, hvalue, rfl⟩ := List.mem_map.mp hvalue'
        rw [hkeep value hvalue, hvar]

/-- Three buttons, padding, and two relative 12-bit axes. -/
def mouseDescriptor : List UInt8 :=
  [0x05, 0x09, 0x19, 0x01, 0x29, 0x03, 0x15, 0x00, 0x25, 0x01, 0x95, 0x03, 0x75, 0x01, 0x81, 0x02,
    0x95, 0x01, 0x75, 0x05, 0x81, 0x01, 0x05, 0x01, 0x09, 0x30, 0x09, 0x31, 0x16, 0x01, 0xF8,
    0x26, 0xFF, 0x07, 0x75, 0x0C, 0x95, 0x02, 0x81, 0x06]

theorem mouseDescriptor_accepted : (parseReportMapData (.bytes mouseDescriptor)).isSome := by
  decide +kernel

def mouseMap : HIDReportMap := (parseReportMapData (.bytes mouseDescriptor)).get mouseDescriptor_accepted

def mouseReport : HIDReportSchema := mouseMap.reports.headD {}

/-- Button `button` is down and the axes move by `(x, y)`. -/
def mouseCall (button : Nat) (x y : Int) : PackedCall :=
  let assignment : Assignment := fun id i =>
    if id = 0 then if i = button then 1 else 0 else if i = 0 then x else y
  { assignment, source := { characteristicHandle := 39 }, payload := pack mouseMap mouseReport assignment }

instance (f : HIDFieldSchema) (v : Int) : Decidable (Representable f v) := by
  unfold Representable
  infer_instance

example : (mouseCall 1 (-1) 2).payload = [0x02, 0xFF, 0x2F, 0x00] := by decide +kernel

theorem parse_packed_values_mouse :
    (parse (parseAll mouseMap [(mouseCall 1 (-1) 2).sent]) { characteristicHandle := 39 }
      (.bytes (mouseCall 2 0 2047).payload)).values.filter (ofVariableField mouseMap mouseReport) =
    expectedValues mouseMap mouseReport [mouseCall 1 (-1) 2] (mouseCall 2 0 2047) := by
  have haccepted : parseReportMapData (.bytes mouseDescriptor) = some mouseMap := by
    rw [mouseMap, Option.some_get]
  have hr : mouseReport ∈ mouseMap.reports := by decide +kernel
  refine parse_packed_values (.bytes mouseDescriptor) mouseMap haccepted mouseReport hr
    (by decide +kernel) [mouseCall 1 (-1) 2] (mouseCall 2 0 2047) ?_
  have hpacked := pack_packed (parseReportMapData_inv haccepted).1 hr
  intro call hcall
  rcases List.mem_cons.mp hcall with rfl | hcall
  · exact ⟨⟨by decide +kernel, rfl, by decide⟩, by decide +kernel, hpacked _⟩
  · obtain rfl := List.mem_singleton.mp hcall
    exact ⟨⟨by decide +kernel, rfl, by decide⟩, by decide +kernel, hpacked _⟩

end HidParser

end BleClientHid
