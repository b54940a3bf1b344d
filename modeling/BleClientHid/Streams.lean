import BleClientHid.Sessions

/-! # Report streams

The reports of one Report ID, or of one boot characteristic, are decoded as if no others arrived.
-/

namespace BleClientHid

open Lib HidParser HIDReportMap

/-- A payload and where it comes from. -/
abbrev Report := HIDReportSource × Buffer

/-! ## Report maps -/

def feedMap (m : HIDReportMap) (report : Report) : HIDReportMap × Answer :=
  callMap m (.parse report.1 report.2)

def reportIdOf (report : Report) : Nat := selectedReportId report.1

/-- Two states of the map `m` that remember the same of the INPUT report `reportId`. -/
def AgreeOnReport (m : HIDReportMap) (reportId : Nat) (s t : HIDReportMap) : Prop :=
  ∃ memory memory', s = { m with runtime := memory } ∧ t = { m with runtime := memory' } ∧
    ∀ f ∈ m.fields, f.kind = .input → f.reportId = reportId → memory f.id = memory' f.id

section
variable {m : HIDReportMap}

theorem parseInput_runtime (hm : SchemaInv m) {r : HIDReportSchema} (hr : r ∈ m.reports)
    (memory : Nat → FieldRuntime) (data : List UInt8) :
    ∃ memory', parseInput { m with runtime := memory } r data =
        ({ m with runtime := memory' }, (m.fieldsOf r).flatMap (fieldValues m r data memory)) ∧
      (∀ f ∈ m.fieldsOf r, memory' f.id =
        if f.isConstant then memory f.id else (decodeField m r f data (memory f.id)).1) ∧
      ∀ id, id ∉ r.fieldIds → memory' id = memory id := by
  have hnodup : ((m.fieldsOf r).map (·.id)).Nodup := by
    rw [← hm.reportFields r hr]
    exact (hm.fieldIds_increasing hr).imp Nat.ne_of_lt
  obtain ⟨hvalues, hown, hother⟩ := parseInputFields_eq (hm.withRuntime memory) r data (m.fieldsOf r)
    (fun f => List.mem_of_mem_filter) hnodup (memory, [])
  rw [← hm.reportFields r hr] at hvalues hown hother
  refine ⟨_, Prod.ext rfl ?_, ?_, hother⟩
  · refine hvalues.trans (List.flatMap_congr fun f hf => ?_)
    simp only [fieldValues, decodeField_withRuntime]
  · intro f hf
    rw [hown f hf, decodeField_withRuntime]

theorem mem_fieldsOf {r : HIDReportSchema} (f : HIDFieldSchema) :
    f ∈ m.fieldsOf r ↔ f ∈ m.fields ∧ f.kind = r.kind ∧ f.reportId = r.reportId := by
  simp only [fieldsOf, List.mem_filter, HIDReportSchema.owns, decide_eq_true_eq]
  exact and_congr_right fun _ => and_congr eq_comm eq_comm

theorem parse_own (hm : SchemaInv m) (source : HIDReportSource) (data : List UInt8)
    {s t : HIDReportMap} (h : AgreeOnReport m (selectedReportId source) s t) :
    (feedMap s (source, .bytes data)).2 = (feedMap t (source, .bytes data)).2 ∧
      AgreeOnReport m (selectedReportId source) (feedMap s (source, .bytes data)).1
        (feedMap t (source, .bytes data)).1 := by
  obtain ⟨memory, memory', rfl, rfl, hagree⟩ := h
  simp only [feedMap, callMap]
  rcases parse_cases m source data with ⟨recognized, status, hsame⟩ | ⟨r, status, hfind, hinput⟩
  · rw [hsame, hsame]
    exact ⟨rfl, memory, memory', rfl, rfl, hagree⟩
  obtain ⟨hr, hk, hid⟩ := findReport_spec hfind
  obtain ⟨next, hnext, hown, -⟩ := parseInput_runtime hm hr memory data
  obtain ⟨next', hnext', hown', -⟩ := parseInput_runtime hm hr memory' data
  have hfields : ∀ f ∈ m.fieldsOf r, memory f.id = memory' f.id := by
    intro f hf
    obtain ⟨hmem, hkf, hidf⟩ := (mem_fieldsOf f).mp hf
    exact hagree f hmem (hkf.trans hk) (hidf.trans hid)
  have hvalues : (m.fieldsOf r).flatMap (fieldValues m r data memory) =
      (m.fieldsOf r).flatMap (fieldValues m r data memory') := by
    apply List.flatMap_congr
    intro f hf
    simp only [fieldValues, hfields f hf]
  rw [hinput, hinput, hnext, hnext']
  dsimp only
  rw [hvalues]
  refine ⟨rfl, next, next', rfl, rfl, ?_⟩
  intro f hf hkf hidf
  have hfr : f ∈ m.fieldsOf r := (mem_fieldsOf f).mpr ⟨hf, hkf.trans hk.symm, hidf.trans hid.symm⟩
  rw [hown f hfr, hown' f hfr, hfields f hfr]

theorem parse_other (hm : SchemaInv m) {k : Nat} (source : HIDReportSource) (data : List UInt8)
    {s t : HIDReportMap} (hk : selectedReportId source ≠ k) (h : AgreeOnReport m k s t) :
    AgreeOnReport m k (feedMap s (source, .bytes data)).1 t := by
  obtain ⟨memory, memory', rfl, rfl, hagree⟩ := h
  simp only [feedMap, callMap]
  rcases parse_cases m source data with ⟨recognized, status, hsame⟩ | ⟨r, status, hfind, hinput⟩
  · rw [hsame]
    exact ⟨memory, memory', rfl, rfl, hagree⟩
  obtain ⟨hr, -, hid⟩ := findReport_spec hfind
  obtain ⟨next, hnext, -, hother⟩ := parseInput_runtime hm hr memory data
  rw [hinput, hnext]
  refine ⟨next, memory', rfl, rfl, ?_⟩
  intro f hf hkf hidf
  -- The field belongs to one report only, and it is not `r`.
  have hnot : f.id ∉ r.fieldIds := by
    intro hmem
    obtain ⟨g, hg, hgid, -, hgr⟩ := (hm.mem_fieldIds hr f.id).mp hmem
    have hgf : g = f := by rw [← hm.getD_id hg, hgid, hm.getD_id hf]
    rw [hgf, hidf, hid] at hgr
    exact hk hgr.symm
  rw [hother f.id hnot]
  exact hagree f hf hkf hidf

theorem feedMap_isolated (hm : SchemaInv m) : Isolated feedMap reportIdOf (AgreeOnReport m) where
  own := by
    rintro s t ⟨source, data⟩ h
    cases data with
    | null n =>
      cases n with
      | zero => exact parse_own hm source [] h
      | succ n => exact ⟨rfl, h⟩
    | bytes bytes => exact parse_own hm source bytes h
  other := by
    rintro k s t ⟨source, data⟩ hk h
    cases data with
    | null n =>
      cases n with
      | zero => exact parse_other hm source [] hk h
      | succ n => exact h
    | bytes bytes => exact parse_other hm source bytes hk h

end

/-! ## Boot reports -/

def feedDecoder (d : HIDBootReportDecoder) (report : Report) : HIDBootReportDecoder × Answer :=
  callDecoder d (.decode report.1 report.2)

def characteristicOf (report : Report) : Nat × Nat :=
  (report.1.characteristicUuid, report.1.characteristicHandle)

/-- The decoders remember the same of one characteristic. -/
def AgreeOnCharacteristic (key : Nat × Nat) (d e : HIDBootReportDecoder) : Prop :=
  (key.1 = BootReportDecoder.bootMouseInputUuid → d.mouseButtons key.2 = e.mouseButtons key.2) ∧
    (key.1 = BootReportDecoder.bootKeyboardInputUuid →
      d.keyboardModifiers key.2 = e.keyboardModifiers key.2 ∧ d.keyboardKeys key.2 = e.keyboardKeys key.2)

/-- The status does not depend on what is remembered, nor does what is touched. -/
theorem decodeBytes_cases (source : HIDReportSource) (data : List UInt8) :
    ∃ status, (∀ d, BootReportDecoder.decodeBytes d source data = { decoder := d, status }) ∨
      (source.characteristicUuid = BootReportDecoder.bootMouseInputUuid ∧ ∀ d,
        BootReportDecoder.decodeBytes d source data =
          { decoder := (BootReportDecoder.decodeMouse d source.characteristicHandle data).1
            values := (BootReportDecoder.decodeMouse d source.characteristicHandle data).2
            status }) ∨
      (source.characteristicUuid = BootReportDecoder.bootKeyboardInputUuid ∧ ∀ d,
        BootReportDecoder.decodeBytes d source data =
          { decoder := (BootReportDecoder.decodeKeyboard d source.characteristicHandle data).1
            values := (BootReportDecoder.decodeKeyboard d source.characteristicHandle data).2
            status }) := by
  unfold BootReportDecoder.decodeBytes
  dsimp only
  split
  · rename_i hmouse
    split
    · exact ⟨_, .inl fun _ => rfl⟩
    · exact ⟨_, .inr (.inl ⟨hmouse, fun _ => rfl⟩)⟩
  · split
    · rename_i hkeyboard
      split
      · exact ⟨_, .inl fun _ => rfl⟩
      · exact ⟨_, .inr (.inr ⟨hkeyboard, fun _ => rfl⟩)⟩
    · exact ⟨_, .inl fun _ => rfl⟩

theorem mouse_ne_keyboard : BootReportDecoder.bootMouseInputUuid ≠ BootReportDecoder.bootKeyboardInputUuid := by
  decide

theorem decodeBytes_own {d e : HIDBootReportDecoder} (source : HIDReportSource) (data : List UInt8)
    (h : AgreeOnCharacteristic (source.characteristicUuid, source.characteristicHandle) d e) :
    let out := BootReportDecoder.decodeBytes d source data
    let out' := BootReportDecoder.decodeBytes e source data
    out.values = out'.values ∧ out.status = out'.status ∧
      AgreeOnCharacteristic (source.characteristicUuid, source.characteristicHandle) out.decoder out'.decoder := by
  obtain ⟨status, hsame | ⟨huuid, hmouse⟩ | ⟨huuid, hkeyboard⟩⟩ := decodeBytes_cases source data
  · rw [hsame, hsame]
    exact ⟨rfl, rfl, h⟩
  · rw [hmouse, hmouse]
    refine ⟨?_, rfl, ?_, ?_⟩
    · simp only [BootReportDecoder.decodeMouse, h.1 huuid]
    · intro _
      simp [BootReportDecoder.decodeMouse]
    · exact fun hk => absurd (huuid.symm.trans hk) mouse_ne_keyboard
  · obtain ⟨hmods, hkeys⟩ := h.2 huuid
    dsimp only at hmods hkeys
    rw [hkeyboard, hkeyboard]
    refine ⟨?_, rfl, ?_, ?_⟩
    · simp only [BootReportDecoder.decodeKeyboard, hmods, hkeys]
    · exact fun hm => absurd (hm.symm.trans huuid) mouse_ne_keyboard
    · intro _
      simp [BootReportDecoder.decodeKeyboard]

theorem decodeBytes_other {d e : HIDBootReportDecoder} {key : Nat × Nat} (source : HIDReportSource)
    (data : List UInt8) (hkey : (source.characteristicUuid, source.characteristicHandle) ≠ key)
    (h : AgreeOnCharacteristic key d e) :
    AgreeOnCharacteristic key (BootReportDecoder.decodeBytes d source data).decoder e := by
  -- A report of the same kind comes from another handle.
  have hhandle : source.characteristicUuid = key.1 → key.2 ≠ source.characteristicHandle :=
    fun huuid hh => hkey (Prod.ext huuid hh.symm)
  obtain ⟨status, hsame | ⟨huuid, hmouse⟩ | ⟨huuid, hkeyboard⟩⟩ := decodeBytes_cases source data
  · rw [hsame]
    exact h
  · rw [hmouse]
    refine ⟨?_, h.2⟩
    intro hm
    simp only [BootReportDecoder.decodeMouse, Function.update_of_ne (hhandle (huuid.trans hm.symm))]
    exact h.1 hm
  · rw [hkeyboard]
    refine ⟨h.1, ?_⟩
    intro hk
    simp only [BootReportDecoder.decodeKeyboard, Function.update_of_ne (hhandle (huuid.trans hk.symm))]
    exact h.2 hk

theorem feedDecoder_isolated : Isolated feedDecoder characteristicOf AgreeOnCharacteristic where
  own := by
    rintro d e ⟨source, data⟩ h
    have hbytes : ∀ bytes, _ := fun bytes => decodeBytes_own source bytes h
    cases data with
    | null n =>
      cases n with
      | zero =>
        obtain ⟨hvalues, hstatus, hnext⟩ := hbytes []
        exact ⟨by simp only [feedDecoder, callDecoder, BootReportDecoder.decode, hvalues, hstatus], hnext⟩
      | succ n => exact ⟨rfl, h⟩
    | bytes bytes =>
      obtain ⟨hvalues, hstatus, hnext⟩ := hbytes bytes
      exact ⟨by simp only [feedDecoder, callDecoder, BootReportDecoder.decode, hvalues, hstatus], hnext⟩
  other := by
    rintro key d e ⟨source, data⟩ hkey h
    cases data with
    | null n =>
      cases n with
      | zero => exact decodeBytes_other source [] hkey h
      | succ n => exact h
    | bytes bytes => exact decodeBytes_other source bytes hkey h

/-- However the reports interleave, those of one Report ID and those of one boot characteristic
are answered, call by call, as by a fresh decoder that is given no others. -/
theorem streams_independent :
    (∀ (data : Buffer) (m : HIDReportMap), parseReportMapData data = some m →
      ∀ (reports : List Report) (reportId : Nat),
        (transcript feedMap m reports).filter (fun entry => reportIdOf entry.1 = reportId) =
          transcript feedMap m (reports.filter fun report => reportIdOf report = reportId)) ∧
    ∀ (reports : List Report) (key : Nat × Nat),
      (transcript feedDecoder {} reports).filter (fun entry => characteristicOf entry.1 = key) =
        transcript feedDecoder {} (reports.filter fun report => characteristicOf report = key) := by
  constructor
  · intro data m h reports reportId
    obtain ⟨hm, -⟩ := parseReportMapData_inv h
    exact (feedMap_isolated hm).transcript_filter reports ⟨m.runtime, m.runtime, rfl, rfl, fun _ _ _ _ => rfl⟩
  · intro reports key
    exact feedDecoder_isolated.transcript_filter reports ⟨fun _ => rfl, fun _ => ⟨rfl, rfl⟩⟩

/-- One axis under Report ID 1 and one under Report ID 2. -/
def twoReportDescriptor : List UInt8 :=
  [0x05, 0x01, 0x15, 0x00, 0x25, 0x7F, 0x75, 0x08, 0x95, 0x01, 0x85, 0x01, 0x09, 0x30, 0x81, 0x02,
    0x85, 0x02, 0x09, 0x31, 0x81, 0x02]

def axisReport (reportId : Nat) (position : UInt8) : Report :=
  ({ reportId, hasReportId := true }, .bytes [position])

def clickReport (handle : Nat) (buttons : UInt8) : Report :=
  ({ characteristicHandle := handle, characteristicUuid := 0x2A33 }, .bytes [buttons, 0, 0])

theorem twoReportDescriptor_accepted : (parseReportMapData (.bytes twoReportDescriptor)).isSome = true := by
  decide +kernel

theorem streams_independent_two :
    (∃ m, parseReportMapData (.bytes twoReportDescriptor) = some m ∧
      (transcript feedMap m [axisReport 1 5, axisReport 2 5, axisReport 1 5]).filter
          (fun entry => reportIdOf entry.1 = 1) =
        transcript feedMap m [axisReport 1 5, axisReport 1 5]) ∧
    (transcript feedDecoder {} [clickReport 10 1, clickReport 11 1, clickReport 10 1]).filter
        (fun entry => characteristicOf entry.1 = (0x2A33, 10)) =
      transcript feedDecoder {} [clickReport 10 1, clickReport 10 1] := by
  obtain ⟨m, hm⟩ := Option.isSome_iff_exists.mp twoReportDescriptor_accepted
  exact ⟨⟨m, hm, streams_independent.1 _ m hm [axisReport 1 5, axisReport 2 5, axisReport 1 5] 1⟩,
    streams_independent.2 [clickReport 10 1, clickReport 11 1, clickReport 10 1] (0x2A33, 10)⟩

end BleClientHid
