import BleClientHid.HidParser.Input
import BleClientHid.HidParser.WellFormed
import BleClientHid.Lib.Bits

/-! # What `parse` does with an accepted payload

Field by field, and what that says about the bits a field reads.
-/

namespace BleClientHid

namespace HidParser

open Lib HIDReportMap

/-! ## Bits -/

theorem bitSet_eq_testBit (data : List UInt8) (pos : Nat) :
    bitSet data pos = (data.getD (pos / 8) 0).toNat.testBit (pos % 8) := by
  rw [Bool.eq_iff_iff, ← and_one_shiftLeft_ne_zero, bitSet, bne_iff_ne]

theorem gatherBits_eq (data : List UInt8) (off n : Nat) :
    gatherBits data off n = ofBits (fun i => bitSet data (off + i)) n := rfl

theorem testBit_top {n raw : Nat} (hn : 1 ≤ n) (h : raw < 2 ^ n) :
    raw.testBit (n - 1) = true ↔ 2 ^ (n - 1) ≤ raw := by
  obtain ⟨k, rfl⟩ := Nat.exists_eq_add_of_le' hn
  rw [Nat.add_sub_cancel]
  constructor
  · intro hbit
    by_contra hlt
    rw [Nat.testBit_lt_two_pow (by omega)] at hbit
    cases hbit
  · intro hle
    obtain ⟨x, rfl⟩ := Nat.exists_eq_add_of_le hle
    rw [Nat.pow_succ] at h
    rw [Nat.testBit_two_pow_add_eq, Nat.testBit_lt_two_pow (by omega)]
    rfl

theorem toInt32_signExtend {n raw : Nat} (hn : 1 ≤ n) (hn32 : n ≤ 32) (h : raw < 2 ^ n) :
    toInt32 (signExtend raw n) = twosComplement n raw := by
  have hpow : 2 ^ n = 2 * 2 ^ (n - 1) := by
    obtain ⟨k, rfl⟩ := Nat.exists_eq_add_of_le' hn
    rw [Nat.add_sub_cancel, Nat.pow_succ, Nat.mul_comm]
  have hle : 2 ^ n ≤ 2 ^ 32 := Nat.pow_le_pow_right (by omega) hn32
  simp only [signExtend, and_one_shiftLeft_ne_zero, testBit_top hn h]
  split
  · rename_i hsign
    have hfill : (2 ^ 32 - 1) <<< n % 2 ^ 32 = 2 ^ n * (2 ^ (32 - n) - 1) := by
      have hsplit : 2 ^ n * 2 ^ (32 - n) = 2 ^ 32 := by rw [← Nat.pow_add]; congr 1; omega
      have hlow : 2 ^ n * (2 ^ (32 - n) - 1) = 2 ^ 32 - 2 ^ n := by
        rw [Nat.mul_sub_one, hsplit]
      have hpos : 0 < 2 ^ n := Nat.two_pow_pos n
      have hshift : (2 ^ 32 - 1) <<< n = (2 ^ 32 - 2 ^ n) + 2 ^ 32 * (2 ^ n - 1) := by
        rw [Nat.shiftLeft_eq, Nat.sub_one_mul, Nat.mul_sub_one]
        have : 2 ^ 32 * 1 ≤ 2 ^ 32 * 2 ^ n := Nat.mul_le_mul_left _ hpos
        omega
      rw [hshift, Nat.add_mul_mod_self_left, hlow, Nat.mod_eq_of_lt (by omega)]
    have hsum : raw ||| (2 ^ 32 - 1) <<< n % 2 ^ 32 = raw + (2 ^ 32 - 2 ^ n) := by
      rw [hfill, Nat.or_comm, ← Nat.two_pow_add_eq_or_of_lt h, Nat.mul_sub_one, ← Nat.pow_add,
        show n + (32 - n) = 32 by omega, Nat.add_comm]
    rw [hsum, toInt32, if_neg (by omega), twosComplement, if_neg (by omega)]
    zify [hle]
    omega
  · rename_i hsign
    rw [toInt32, twosComplement]
    rcases Nat.lt_or_ge n 32 with hlt | hge
    · have : 2 ^ n ≤ 2 ^ 31 := Nat.pow_le_pow_right (by omega) (by omega)
      rw [if_pos (by omega), if_pos (by omega)]
    · obtain rfl : n = 32 := by omega
      rfl

/-- The integer in the bits `[off, off + n)` of the payload. -/
def bitsValue (data : List UInt8) (off n : Nat) (signedValue : Bool) : Int :=
  let raw := ofBits (fun i => bitSet data (off + i)) n
  if signedValue then twosComplement n raw else raw

theorem readBits_eq {data : List UInt8} {off n : Nat} (signedValue : Bool) (hn : 1 ≤ n) (hn32 : n ≤ 32)
    (hin : off + n ≤ data.length * 8) :
    readBits data off n signedValue = some (bitsValue data off n signedValue) := by
  rw [readBits, if_neg (by omega)]
  simp only [gatherBits_eq, toInt32_signExtend hn hn32 (ofBits_lt _ _), bitsValue]

/-! ## The bits of a field -/

def covers (f : HIDFieldSchema) (pos : Nat) : Bool :=
  decide (f.bitOffset ≤ pos ∧ pos < f.bitOffset + f.bits)

theorem eq_of_covers {m : HIDReportMap} (hm : SchemaInv m) {r : HIDReportSchema} (hr : r ∈ m.reports)
    {f g : HIDFieldSchema} (hf : f ∈ m.fieldsOf r) (hg : g ∈ m.fieldsOf r) {pos : Nat}
    (hfp : covers f pos = true) (hgp : covers g pos = true) : f = g := by
  have htiles := hm.tiles r hr
  simp only [covers, decide_eq_true_eq] at hfp hgp
  have hpair : (m.fieldsOf r).Pairwise fun x y =>
      ¬ (x.bitOffset ≤ pos ∧ pos < x.bitOffset + x.bits ∧ y.bitOffset ≤ pos ∧
        pos < y.bitOffset + y.bits) :=
    htiles.pairwise.imp (by intros; omega)
  by_contra hne
  have hsymm : Std.Symm fun x y : HIDFieldSchema =>
      ¬ (x.bitOffset ≤ pos ∧ pos < x.bitOffset + x.bits ∧ y.bitOffset ≤ pos ∧
        pos < y.bitOffset + y.bits) := ⟨by intros; omega⟩
  exact List.Pairwise.forall hpair hf hg hne ⟨hfp.1, hfp.2, hgp.1, hgp.2⟩

theorem element_inside {f : HIDFieldSchema} {i j : Nat} (hi : i < f.reportCount) (hj : j < f.reportSize) :
    i * f.reportSize + j < f.bits := by
  have : (i + 1) * f.reportSize ≤ f.reportCount * f.reportSize := Nat.mul_le_mul_right _ hi
  rw [Nat.succ_mul] at this
  rw [HIDFieldSchema.bits, Nat.mul_comm f.reportSize]
  omega

theorem element_position {m : HIDReportMap} (hm : SchemaInv m) {r : HIDReportSchema}
    (hr : r ∈ m.reports) {f : HIDFieldSchema} (hf : f ∈ m.fieldsOf r) {i : Nat} (hi : i < f.reportCount) :
    (f.bitOffset + i * f.reportSize) % 2 ^ 32 = f.bitOffset + i * f.reportSize := by
  have hs := (hm.fieldSize f (List.mem_of_mem_filter hf)).1
  have hend := ((hm.tiles r hr).inside f hf).2
  have hin := element_inside hi (j := f.reportSize - 1) (by omega)
  have hle := hm.bitSizeLe r hr
  have hmax : maxReportBits = 32768 := rfl
  exact Nat.mod_eq_of_lt (by omega)

/-! ## The values of a field -/

theorem initRuntime_of_initialized {f : HIDFieldSchema} {runtime : FieldRuntime}
    (h : runtime.initialized = true) : initRuntime f runtime = runtime := if_pos h

@[simp]
theorem initRuntime_initialized (f : HIDFieldSchema) (runtime : FieldRuntime) :
    (initRuntime f runtime).initialized = true := by
  unfold initRuntime
  split
  · assumption
  · rfl

@[simp]
theorem initRuntime_activeArrayUsages (f : HIDFieldSchema) (runtime : FieldRuntime) :
    (initRuntime f runtime).activeArrayUsages = runtime.activeArrayUsages := by
  unfold initRuntime
  split <;> rfl

theorem decodeField_initialized (m : HIDReportMap) (r : HIDReportSchema) (f : HIDFieldSchema)
    (data : List UInt8) (runtime : FieldRuntime) :
    (decodeField m r f data runtime).1.initialized = true := by
  unfold decodeField
  split <;> exact initRuntime_initialized f runtime

theorem variableElements_mem {m : HIDReportMap} {r : HIDReportSchema} {f : HIDFieldSchema}
    {data : List UInt8} (n : Nat) (last : List Int) :
    ∀ value ∈ ((List.range n).foldl (variableElement m r f data) (last, [])).2,
      ∃ i < n, ∃ raw, value = variableValue m r f i raw := by
  induction n with
  | zero => simp
  | succ n ih =>
    intro value hvalue
    simp only [List.range_succ, List.foldl_append, List.foldl_cons, List.foldl_nil, variableElement] at hvalue
    have hearlier : value ∈ ((List.range n).foldl (variableElement m r f data) (last, [])).2 →
        ∃ i < n + 1, ∃ raw, value = variableValue m r f i raw := by
      intro h
      obtain ⟨i, hi, hraw⟩ := ih value h
      exact ⟨i, Nat.lt_succ_of_lt hi, hraw⟩
    split at hvalue
    · exact hearlier hvalue
    · split at hvalue
      · exact hearlier hvalue
      · rcases List.mem_append.mp hvalue with hvalue | hvalue
        · exact hearlier hvalue
        · exact ⟨n, Nat.lt_succ_self n, _, List.mem_singleton.mp hvalue⟩

theorem decodeField_covers {m : HIDReportMap} (hm : SchemaInv m) {r : HIDReportSchema}
    (hr : r ∈ m.reports) {f : HIDFieldSchema} (hf : f ∈ m.fieldsOf r) {data : List UInt8}
    {runtime : FieldRuntime} {value : HIDReportItemValue}
    (hvalue : value ∈ (decodeField m r f data runtime).2) : covers f value.fieldId = true := by
  obtain ⟨hs, -, hcount, -⟩ := hm.fieldSize f (List.mem_of_mem_filter hf)
  rw [decodeField] at hvalue
  simp only [covers, decide_eq_true_eq]
  split at hvalue
  · obtain ⟨i, hi, raw, rfl⟩ := variableElements_mem _ _ value hvalue
    have hin := element_inside hi (j := 0) (by omega)
    simp only [variableValue, element_position hm hr hf hi]
    omega
  · have hfirst : value.fieldId = f.bitOffset := by
      simp only [decodeArray, List.mem_append, List.mem_map] at hvalue
      rcases hvalue with ⟨entry, -, rfl⟩ | ⟨entry, -, rfl⟩ <;> rfl
    have hin := element_inside (f := f) (i := 0) (j := 0) (by omega) (by omega)
    omega

/-! ## Fields -/

/-- A field whose elements `parse_input_` reads. -/
def isDataField (f : HIDFieldSchema) : Bool := !f.isConstant

def fieldValues (m : HIDReportMap) (r : HIDReportSchema) (data : List UInt8)
    (runtime : Nat → FieldRuntime) (f : HIDFieldSchema) : List HIDReportItemValue :=
  if f.isConstant then [] else (decodeField m r f data (runtime f.id)).2

theorem parseInputField_eq {m : HIDReportMap} (hm : SchemaInv m) {r : HIDReportSchema}
    {f : HIDFieldSchema} (hf : f ∈ m.fields) (data : List UInt8)
    (st : (Nat → FieldRuntime) × List HIDReportItemValue) :
    parseInputField m r data st f.id =
      (if f.isConstant then st.1 else Function.update st.1 f.id (decodeField m r f data (st.1 f.id)).1,
        st.2 ++ fieldValues m r data st.1 f) := by
  rw [parseInputField, hm.getD_id hf, fieldValues]
  cases f.isConstant <;> simp

/-- The round of one field leaves the memory of the others alone. -/
theorem parseInputFields_eq {m : HIDReportMap} (hm : SchemaInv m) (r : HIDReportSchema)
    (data : List UInt8) (fs : List HIDFieldSchema) (hfs : ∀ f ∈ fs, f ∈ m.fields)
    (hnodup : (fs.map (·.id)).Nodup) (st : (Nat → FieldRuntime) × List HIDReportItemValue) :
    let out := (fs.map (·.id)).foldl (parseInputField m r data) st
    out.2 = st.2 ++ fs.flatMap (fieldValues m r data st.1) ∧
      (∀ f ∈ fs, out.1 f.id = if f.isConstant then st.1 f.id else (decodeField m r f data (st.1 f.id)).1) ∧
      ∀ id, id ∉ fs.map (·.id) → out.1 id = st.1 id := by
  induction fs generalizing st with
  | nil => simp
  | cons f fs ih =>
    obtain ⟨hnotin, hnodup⟩ := List.nodup_cons.mp hnodup
    have hf := hfs f (by simp)
    simp only [List.map_cons, List.foldl_cons]
    generalize hst : parseInputField m r data st f.id = st'
    rw [parseInputField_eq hm hf] at hst
    obtain ⟨hst1, hst2⟩ := Prod.ext_iff.mp hst.symm
    dsimp only at hst1 hst2
    obtain ⟨hv, hr, hother⟩ := ih (fun g hg => hfs g (List.mem_cons_of_mem _ hg)) hnodup st'
    -- the first round only touches its own field, so the rest decodes as before it
    have hsame : ∀ id, id ≠ f.id → st'.1 id = st.1 id := by
      intro id hne
      rw [hst1]
      split
      · rfl
      · exact Function.update_of_ne hne _ _
    have hne : ∀ g ∈ fs, g.id ≠ f.id := by
      intro g hg heq
      exact hnotin (List.mem_map.mpr ⟨g, hg, heq⟩)
    refine ⟨?_, ?_, ?_⟩
    · rw [hv, hst2, List.flatMap_cons, ← List.append_assoc]
      congr 1
      apply List.flatMap_congr
      intro g hg
      rw [fieldValues, fieldValues, hsame g.id (hne g hg)]
    · intro g hg
      rcases List.mem_cons.mp hg with rfl | hg
      · rw [hother _ hnotin, hst1]
        split
        · rfl
        · exact Function.update_self _ _ _
      · rw [hr g hg, hsame g.id (hne g hg)]
    · intro id hid
      simp only [List.mem_cons, not_or] at hid
      rw [hother id hid.2, hsame id hid.1]

/-! ## Calls of `parse` -/

theorem applicationUsageLoop_withRuntime (m : HIDReportMap) (runtime : Nat → FieldRuntime)
    (fuel current : Nat) : HIDReportMap.applicationUsageLoop { m with runtime } fuel current =
      m.applicationUsageLoop fuel current := by
  induction fuel generalizing current with
  | zero => rfl
  | succ fuel ih => simp only [applicationUsageLoop, ih]

@[simp]
theorem applicationUsage_withRuntime (m : HIDReportMap) (runtime : Nat → FieldRuntime) (id : Nat) :
    HIDReportMap.applicationUsage { m with runtime } id = m.applicationUsage id := by
  simp only [applicationUsage, applicationUsageLoop_withRuntime]

@[simp]
theorem decodeField_withRuntime (m : HIDReportMap) (runtime : Nat → FieldRuntime) (r : HIDReportSchema)
    (f : HIDFieldSchema) (data : List UInt8) (memory : FieldRuntime) :
    decodeField { m with runtime } r f data memory = decodeField m r f data memory := by
  have hvar : variableElement { m with runtime } r f data = variableElement m r f data := by
    funext st index
    simp only [variableElement, variableValue, applicationUsage_withRuntime]
  simp only [decodeField, decodeVariable, decodeArray, hvar, arrayValue, applicationUsage_withRuntime]

/-- `parse` selects the INPUT report `r` for this source and finds the payload long enough. -/
structure Accepts (m : HIDReportMap) (r : HIDReportSchema) (source : HIDReportSource)
    (payload : List UInt8) : Prop where
  report : m.findReport .input (selectedReportId source) = some r
  notBoot : isBootUuid source.characteristicUuid = false
  kind : source.hasReportType = true → source.reportType = 1
  length : r.byteSize ≤ payload.length

theorem Accepts.mem {m : HIDReportMap} {r : HIDReportSchema} {source : HIDReportSource}
    {payload : List UInt8} (h : Accepts m r source payload) : r ∈ m.reports :=
  (findReport_spec h.report).1

theorem Accepts.withRuntime {m : HIDReportMap} {r : HIDReportSchema} {source : HIDReportSource}
    {payload : List UInt8} (h : Accepts m r source payload) (runtime : Nat → FieldRuntime) :
    Accepts { m with runtime } r source payload :=
  ⟨h.report, h.notBoot, h.kind, h.length⟩

theorem parse_accepted {m : HIDReportMap} {r : HIDReportSchema} {source : HIDReportSource}
    {payload : List UInt8} (h : Accepts m r source payload) :
    parse m source (.bytes payload) =
      { map := (parseInput m r payload).1
        values := (parseInput m r payload).2.map fun value =>
          { value with characteristicHandle := source.characteristicHandle }
        recognized := true
        status := if payload.length = r.byteSize then .exact else .long } := by
  have hkind : (source.hasReportType && !isInputKind source.reportType) = false := by
    cases ht : source.hasReportType with
    | false => rfl
    | true => simp [isInputKind, HIDReportKind.code, h.kind ht]
  simp only [parse, h.notBoot, hkind, h.report, Nat.not_lt.mpr h.length, Bool.false_eq_true, if_false]

/-- The source belongs to the INPUT report `r`. -/
structure Selects (r : HIDReportSchema) (source : HIDReportSource) : Prop where
  reportId : selectedReportId source = r.reportId
  notBoot : isBootUuid source.characteristicUuid = false
  kind : source.hasReportType = true → source.reportType = 1

theorem Selects.accepts {m : HIDReportMap} (hm : SchemaInv m) {r : HIDReportSchema}
    (hr : r ∈ m.reports) (hk : r.kind = .input) {source : HIDReportSource} (h : Selects r source)
    {payload : List UInt8} (hlen : r.byteSize ≤ payload.length) : Accepts m r source payload where
  report := by rw [h.reportId, ← hk, findReport_of_mem hm.distinct hr]
  notBoot := h.notBoot
  kind := h.kind
  length := hlen

/-- The map after a list of calls. -/
def parseAll (m : HIDReportMap) (sent : List (HIDReportSource × List UInt8)) : HIDReportMap :=
  sent.foldl (fun m s => (parse m s.1 (.bytes s.2)).map) m

/-- The memory of one field after a list of payloads of its report. -/
def memoryAfter (m : HIDReportMap) (r : HIDReportSchema) (f : HIDFieldSchema) (memory : FieldRuntime)
    (payloads : List (List UInt8)) : FieldRuntime :=
  payloads.foldl (fun memory payload => (decodeField m r f payload memory).1) memory

theorem parseInput_eq {m : HIDReportMap} (hm : SchemaInv m) {r : HIDReportSchema} (hr : r ∈ m.reports)
    (data : List UInt8) :
    ∃ runtime, (parseInput m r data).1 = { m with runtime } ∧
      (parseInput m r data).2 = (m.fieldsOf r).flatMap (fieldValues m r data m.runtime) ∧
      ∀ f ∈ m.fieldsOf r, f.isConstant = false → runtime f.id = (decodeField m r f data (m.runtime f.id)).1 := by
  have hnodup : ((m.fieldsOf r).map (·.id)).Nodup := by
    rw [← hm.reportFields r hr]
    exact (hm.fieldIds_increasing hr).imp Nat.ne_of_lt
  obtain ⟨hv, hrt, -⟩ := parseInputFields_eq hm r data (m.fieldsOf r) (fun f => List.mem_of_mem_filter)
    hnodup (m.runtime, [])
  rw [← hm.reportFields r hr] at hv hrt
  refine ⟨_, rfl, hv, ?_⟩
  intro f hf hconst
  have := hrt f hf
  rwa [hconst] at this

theorem parseAll_eq {m : HIDReportMap} (hm : SchemaInv m) {r : HIDReportSchema}
    (sent : List (HIDReportSource × List UInt8)) (hsent : ∀ s ∈ sent, Accepts m r s.1 s.2) :
    ∃ runtime, parseAll m sent = { m with runtime } ∧
      ∀ f ∈ m.fieldsOf r, f.isConstant = false →
        runtime f.id = memoryAfter m r f (m.runtime f.id) (sent.map (·.2)) := by
  induction sent using List.reverseRecOn with
  | nil => exact ⟨m.runtime, rfl, fun _ _ _ => rfl⟩
  | append_singleton sent s ih =>
    obtain ⟨runtime, hmap, hmem⟩ := ih (fun s hs => hsent s (List.mem_append_left _ hs))
    have hacc := (hsent s (by simp)).withRuntime runtime
    obtain ⟨runtime', hmap', -, hmem'⟩ := parseInput_eq (hm.withRuntime runtime) hacc.mem s.2
    refine ⟨runtime', ?_, ?_⟩
    · rw [parseAll, List.foldl_append]
      simp only [List.foldl_cons, List.foldl_nil]
      rw [← parseAll, hmap, parse_accepted hacc]
      exact hmap'
    · intro f hf hconst
      rw [hmem' f hf hconst, decodeField_withRuntime]
      change (decodeField m r f s.2 (runtime f.id)).1 = _
      rw [hmem f hf hconst]
      simp [memoryAfter]

theorem flatMap_filter {α β : Type} (p : α → Bool) (g : α → List β) (l : List α) :
    (l.filter p).flatMap g = l.flatMap fun x => if p x then g x else [] := by
  induction l with
  | nil => rfl
  | cons x l ih => cases hx : p x <;> simp [hx, ih]

/-- What one more accepted payload yields: the values of each field, in field order. -/
theorem parse_after {m : HIDReportMap} (hm : SchemaInv m) {r : HIDReportSchema}
    (sent : List (HIDReportSource × List UInt8)) (hsent : ∀ s ∈ sent, Accepts m r s.1 s.2)
    {source : HIDReportSource} {payload : List UInt8} (h : Accepts m r source payload) :
    (parse (parseAll m sent) source (.bytes payload)).values =
      ((m.fieldsOf r).filter isDataField).flatMap fun f =>
        (decodeField m r f payload (memoryAfter m r f (m.runtime f.id) (sent.map (·.2)))).2.map
          fun value => { value with characteristicHandle := source.characteristicHandle } := by
  obtain ⟨runtime, hmap, hmem⟩ := parseAll_eq hm sent hsent
  have hacc := h.withRuntime runtime
  obtain ⟨-, -, hvalues, -⟩ := parseInput_eq (hm.withRuntime runtime) hacc.mem payload
  rw [hmap, parse_accepted hacc, hvalues, List.map_flatMap]
  change List.flatMap _ (m.fieldsOf r) = _
  rw [flatMap_filter]
  apply List.flatMap_congr
  intro f hf
  simp only [fieldValues, isDataField, decodeField_withRuntime]
  by_cases hconst : f.isConstant = true
  · simp [hconst]
  · simp [hconst, hmem f hf (by simpa using hconst)]

theorem flatMap_eq_of_unique {α β : Type} {g : α → List β} {l : List α} (hnodup : l.Nodup) {x : α}
    (hx : x ∈ l) (h : ∀ y ∈ l, y ≠ x → g y = []) : l.flatMap g = g x := by
  induction l with
  | nil => cases hx
  | cons y l ih =>
    obtain ⟨hy, hl⟩ := List.nodup_cons.mp hnodup
    rw [List.flatMap_cons]
    rcases List.mem_cons.mp hx with rfl | hx
    · rw [List.flatMap_eq_nil_iff.mpr, List.append_nil]
      intro z hz
      exact h z (List.mem_cons_of_mem _ hz) fun heq => hy (heq ▸ hz)
    · rw [h y (by simp) fun heq => hy (heq ▸ hx), List.nil_append]
      exact ih hl hx fun z hz => h z (List.mem_cons_of_mem _ hz)

theorem SchemaInv.fieldsOf_nodup {m : HIDReportMap} (hm : SchemaInv m) {r : HIDReportSchema}
    (hr : r ∈ m.reports) : (m.fieldsOf r).Nodup := by
  apply List.Nodup.of_map (·.id)
  rw [← hm.reportFields r hr]
  exact (hm.fieldIds_increasing hr).imp Nat.ne_of_lt

/-- The values of a call that lie in the bits of one field. -/
theorem parse_after_covers {m : HIDReportMap} (hm : SchemaInv m) {r : HIDReportSchema}
    (sent : List (HIDReportSource × List UInt8)) (hsent : ∀ s ∈ sent, Accepts m r s.1 s.2)
    {call : HIDReportSource × List UInt8} (hcall : Accepts m r call.1 call.2) {f : HIDFieldSchema}
    (hf : f ∈ m.fieldsOf r) (hconst : f.isConstant = false) :
    (parse (parseAll m sent) call.1 (.bytes call.2)).values.filter (covers f ·.fieldId) =
      (decodeField m r f call.2 (memoryAfter m r f (m.runtime f.id) (sent.map (·.2)))).2.map fun value =>
        { value with characteristicHandle := call.1.characteristicHandle } := by
  have hr := hcall.mem
  rw [parse_after hm sent hsent hcall, List.filter_flatMap]
  refine (flatMap_eq_of_unique ((hm.fieldsOf_nodup hr).filter _)
    (List.mem_filter.mpr ⟨hf, by simp [isDataField, hconst]⟩) ?_).trans ?_
  · intro g hg hne
    have hgr := List.mem_of_mem_filter hg
    rw [List.filter_eq_nil_iff]
    intro value' hvalue'
    obtain ⟨value, hvalue, rfl⟩ := List.mem_map.mp hvalue'
    have hcov := decodeField_covers hm hr hgr hvalue
    exact fun hcov' => hne (eq_of_covers hm hr hgr hf hcov hcov')
  · rw [List.filter_eq_self]
    intro value' hvalue'
    obtain ⟨value, hvalue, rfl⟩ := List.mem_map.mp hvalue'
    have hcov := decodeField_covers hm hr hf hvalue
    exact hcov

end HidParser

end BleClientHid
