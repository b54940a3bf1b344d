import BleClientHid.HidParser.Variables
import BleClientHid.Sessions

/-! # Padding and excess bytes

Payloads that agree where the data fields lie are decoded alike.
-/

namespace BleClientHid

namespace HidParser

open Lib HIDReportMap

def AgreeOnData (m : HIDReportMap) (r : HIDReportSchema) (p q : List UInt8) : Prop :=
  ∀ f ∈ m.fieldsOf r, f.isConstant = false → ∀ pos, covers f pos = true → bitSet p pos = bitSet q pos

section
variable {m : HIDReportMap} {r : HIDReportSchema} {source : HIDReportSource} {p q : List UInt8}

theorem readElement_congr (hm : SchemaInv m) (hr : r ∈ m.reports) (hp : r.byteSize ≤ p.length)
    (hq : r.byteSize ≤ q.length) {f : HIDFieldSchema} (hf : f ∈ m.fieldsOf r)
    (hbits : ∀ pos, covers f pos = true → bitSet p pos = bitSet q pos) {i : Nat} (hi : i < f.reportCount) :
    readElement p f i = readElement q f i := by
  rw [readElement_eq hm hr hf hi hp, readElement_eq hm hr hf hi hq]
  have hvalue : bitsValue p (f.bitOffset + i * f.reportSize) f.reportSize (isSigned f) =
      bitsValue q (f.bitOffset + i * f.reportSize) f.reportSize (isSigned f) := by
    unfold bitsValue
    rw [ofBits_congr fun j hj => hbits _ ?_]
    have hin := element_inside hi hj
    simp only [covers, decide_eq_true_eq]
    omega
  rw [hvalue]

theorem decodeField_congr {f : HIDFieldSchema}
    (h : ∀ i < f.reportCount, readElement p f i = readElement q f i) (runtime : FieldRuntime) :
    decodeField m r f p runtime = decodeField m r f q runtime := by
  have hvariable : ∀ st : List Int × List HIDReportItemValue,
      (List.range f.reportCount).foldl (variableElement m r f p) st =
        (List.range f.reportCount).foldl (variableElement m r f q) st := by
    intro st
    apply List.foldl_ext
    intro st i hi
    rw [variableElement, variableElement, h i (List.mem_range.mp hi)]
  have harray : currentUsages p f = currentUsages q f := by
    unfold currentUsages
    apply List.foldl_ext
    intro current i hi
    rw [slotUsage, slotUsage, h i (List.mem_range.mp hi)]
  unfold decodeField decodeVariable decodeArray
  rw [hvariable, harray]

theorem parseInput_congr (hm : SchemaInv m) (hr : r ∈ m.reports) (hp : r.byteSize ≤ p.length)
    (hq : r.byteSize ≤ q.length) (h : AgreeOnData m r p q) : parseInput m r p = parseInput m r q := by
  unfold parseInput
  rw [List.foldl_ext (parseInputField m r p) (parseInputField m r q)]
  intro st id hid
  obtain ⟨f, hf, rfl, hk, hi⟩ := (hm.mem_fieldIds hr id).mp hid
  -- a field id of the report is one of its fields, so the payloads agree on it
  have hfr : f ∈ m.fieldsOf r := by
    refine List.mem_filter.mpr ⟨hf, ?_⟩
    simp only [HIDReportSchema.owns, decide_eq_true_eq]
    exact ⟨hk.symm, hi.symm⟩
  rw [parseInputField_eq hm hf, parseInputField_eq hm hf]
  unfold fieldValues
  cases hconst : f.isConstant
  · rw [decodeField_congr fun i hi => readElement_congr hm hr hp hq hfr (h f hfr hconst) hi]
  · rfl

theorem parse_decoded (hfind : m.findReport .input (selectedReportId source) = some r)
    (hlen : r.byteSize ≤ p.length) (hboot : isBootUuid source.characteristicUuid = false)
    (hkind : (source.hasReportType && !isInputKind source.reportType) = false) :
    (callMap m (.parse source (.bytes p))).2.Decoded := by
  simp only [Answer.Decoded, callMap, parse, hboot, hkind, hfind, Nat.not_lt.mpr hlen, Bool.false_eq_true,
    if_false]
  split
  · exact .inl rfl
  · exact .inr rfl

theorem parse_congr (hm : SchemaInv m) (hr : r ∈ m.reports) (hk : r.kind = .input)
    (hsource : selectedReportId source = r.reportId)
    (hp : r.byteSize ≤ p.length) (hq : r.byteSize ≤ q.length) (h : AgreeOnData m r p q) :
    let outP := callMap m (.parse source (.bytes p))
    let outQ := callMap m (.parse source (.bytes q))
    outP.2.values = outQ.2.values ∧ outP.1 = outQ.1 ∧
      (outP.2.status = outQ.2.status ∨ (outP.2.Decoded ∧ outQ.2.Decoded)) := by
  have hfind : m.findReport .input (selectedReportId source) = some r := by
    rw [hsource, ← hk, findReport_of_mem hm.distinct hr]
  -- refused for its source, whatever the payload
  by_cases hboot : isBootUuid source.characteristicUuid = true
  · simp [callMap, parse, hboot]
  by_cases hkind : (source.hasReportType && !isInputKind source.reportType) = true
  · simp [callMap, parse, hboot, hkind]
  rw [Bool.not_eq_true] at hboot hkind
  refine ⟨?_, ?_, .inr ⟨parse_decoded hfind hp hboot hkind, parse_decoded hfind hq hboot hkind⟩⟩ <;>
    simp only [callMap, parse, hboot, hkind, hfind, Nat.not_lt.mpr hp, Nat.not_lt.mpr hq, Bool.false_eq_true,
      if_false, parseInput_congr hm hr hp hq h]

end

/-- In whatever state the map is: what lies between the data fields and behind them, and how
much lies behind them, changes no value and no later answer. -/
theorem padding_ignored (data : Buffer) (m : HIDReportMap) (h : parseReportMapData data = some m)
    (before : List MapCall) (r : HIDReportSchema) (hr : r ∈ m.reports) (hk : r.kind = .input)
    (source : HIDReportSource) (hsource : selectedReportId source = r.reportId) (p q : List UInt8)
    (hp : r.byteSize ≤ p.length) (hq : r.byteSize ≤ q.length) (hpq : AgreeOnData m r p q) :
    let m' := stateAfter callMap m before
    let outP := callMap m' (.parse source (.bytes p))
    let outQ := callMap m' (.parse source (.bytes q))
    outP.2.values = outQ.2.values ∧ Indistinguishable callMap outP.1 outQ.1 ∧
      (outP.2.status = outQ.2.status ∨ (outP.2.Decoded ∧ outQ.2.Decoded)) := by
  obtain ⟨hm, -⟩ := parseReportMapData_inv h
  obtain ⟨runtime, hstate⟩ := stateAfter_callMap m before
  intro m'
  have hm' : m' = { m with runtime } := hstate
  rw [hm']
  obtain ⟨hvalues, hmap, hstatus⟩ := parse_congr (hm.withRuntime runtime) hr hk hsource hp hq hpq
  exact ⟨hvalues, .of_eq hmap, hstatus⟩

theorem padding_ignored_mouse :
    let m := stateAfter callMap mouseMap [.parse { characteristicHandle := 39 } (.bytes [0x01, 0xFF, 0x2F, 0x00])]
    let outP := callMap m (.parse { characteristicHandle := 39 } (.bytes [0x02, 0xFF, 0x2F, 0x00]))
    let outQ := callMap m (.parse { characteristicHandle := 39 } (.bytes [0xFA, 0xFF, 0x2F, 0x00, 0x77]))
    outP.2.values = outQ.2.values ∧ Indistinguishable callMap outP.1 outQ.1 ∧
      (outP.2.status = outQ.2.status ∨ (outP.2.Decoded ∧ outQ.2.Decoded)) := by
  have haccepted : parseReportMapData (.bytes mouseDescriptor) = some mouseMap := by
    rw [mouseMap, Option.some_get]
  refine padding_ignored (.bytes mouseDescriptor) mouseMap haccepted _ mouseReport (by decide +kernel)
    (by decide +kernel) _ (by decide +kernel) _ _ (by decide +kernel) (by decide +kernel) ?_
  have hend : ∀ f ∈ mouseMap.fieldsOf mouseReport, f.bitOffset + f.bits ≤ 32 := by decide +kernel
  have hbits : ∀ f ∈ mouseMap.fieldsOf mouseReport, f.isConstant = false → ∀ pos < 32, covers f pos = true →
      bitSet [0x02, 0xFF, 0x2F, 0x00] pos = bitSet [0xFA, 0xFF, 0x2F, 0x00, 0x77] pos := by
    decide +kernel
  intro f hf hconst pos hpos
  refine hbits f hf hconst pos ?_ hpos
  have := hend f hf
  simp only [covers, decide_eq_true_eq] at hpos
  omega

end HidParser

end BleClientHid
