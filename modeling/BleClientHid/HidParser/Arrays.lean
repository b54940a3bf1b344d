import BleClientHid.HidParser.Decode
import Mathlib.Data.List.Nodup

/-! # Array fields report a set of usages

The decoder compares two multimaps. That is a comparison of sets as long as no
payload repeats a usage.
-/

namespace BleClientHid

namespace HidParser

open Lib HIDReportMap

/-! ## Multimaps -/

def usagesOf (entries : UsageMultimap) : List HIDUsage := entries.map (·.1)

theorem emplace_perm (usage : HIDUsage) (rawValue : Int) (entries : UsageMultimap) :
    (emplace usage rawValue entries).Perm ((usage, rawValue) :: entries) := by
  induction entries with
  | nil => exact .refl _
  | cons entry rest ih =>
    unfold emplace
    split
    · exact .refl _
    · exact (ih.cons entry).trans (.swap _ _ _)

theorem hasUsage_iff (entries : UsageMultimap) (usage : HIDUsage) :
    hasUsage entries usage = true ↔ usage ∈ usagesOf entries := by
  simp [hasUsage, usagesOf]

theorem usagesOf_eraseUsage (entries : UsageMultimap) (usage : HIDUsage) :
    usagesOf (eraseUsage entries usage) = (usagesOf entries).erase usage := by
  rw [List.erase_eq_eraseP', usagesOf, usagesOf, List.eraseP_map]
  rfl

theorem count_unmatched (u : HIDUsage) (entries others : UsageMultimap) :
    (usagesOf (unmatched entries others)).count u =
      (usagesOf entries).count u - (usagesOf others).count u := by
  induction entries generalizing others with
  | nil => simp [unmatched, usagesOf]
  | cons entry rest ih =>
    have hcons : (usagesOf (entry :: rest)).count u =
        (usagesOf rest).count u + if entry.1 == u then 1 else 0 := List.count_cons
    rw [unmatched, hcons]
    split
    · rename_i hhas
      have hpos := List.count_pos_iff.mpr ((hasUsage_iff others entry.1).mp hhas)
      rw [ih, usagesOf_eraseUsage, List.count_erase]
      by_cases hu : entry.1 = u
      · subst hu
        simp
        omega
      · simp [hu]
    · rename_i hhas
      have hcons' : (usagesOf (entry :: unmatched rest others)).count u =
          (usagesOf (unmatched rest others)).count u + if entry.1 == u then 1 else 0 := List.count_cons
      rw [hcons', ih]
      by_cases hu : entry.1 = u
      · subst hu
        have hzero := List.count_eq_zero.mpr (mt (hasUsage_iff others entry.1).mpr hhas)
        omega
      · simp [hu]

/-- With nothing repeated, an entry is unmatched when its usage is not among the others. -/
theorem unmatched_of_nodup {entries : UsageMultimap} (h : (usagesOf entries).Nodup) (others : UsageMultimap) :
    unmatched entries others = entries.filter fun entry => !hasUsage others entry.1 := by
  induction entries generalizing others with
  | nil => rfl
  | cons entry rest ih =>
    obtain ⟨hnotin, hrest⟩ := List.nodup_cons.mp h
    rw [unmatched]
    split
    · rename_i hhas
      rw [ih hrest, List.filter_cons_of_neg (by simp [hhas])]
      apply List.filter_congr
      intro other hother
      have hne : other.1 ≠ entry.1 := fun heq => hnotin (List.mem_map.mpr ⟨other, hother, heq⟩)
      have hmem : hasUsage (eraseUsage others entry.1) other.1 = hasUsage others other.1 := by
        rw [Bool.eq_iff_iff, hasUsage_iff, hasUsage_iff, usagesOf_eraseUsage, List.mem_erase_of_ne hne]
      rw [hmem]
    · rename_i hhas
      rw [ih hrest, List.filter_cons_of_pos (by simp [hhas])]

/-! ## Slots -/

/-- The usages that the slots of a payload assert, slot by slot. -/
def slotUsages (f : HIDFieldSchema) (payload : List UInt8) : List HIDUsage :=
  (List.range f.reportCount).filterMap fun index => (slotUsage payload f index).map (·.1)

theorem usagesOf_currentUsages (f : HIDFieldSchema) (payload : List UInt8) :
    (usagesOf (currentUsages payload f)).Perm (slotUsages f payload) := by
  unfold currentUsages slotUsages
  generalize f.reportCount = n
  induction n with
  | zero => exact .refl _
  | succ n ih =>
    simp only [List.range_succ, List.foldl_append, List.foldl_cons, List.foldl_nil, List.filterMap_append]
    cases hslot : slotUsage payload f n with
    | none => simpa [hslot] using ih
    | some entry =>
      refine ((emplace_perm entry.1 entry.2 _).map (·.1)).trans ?_
      simpa [hslot, usagesOf] using (ih.cons entry.1).trans (List.perm_append_singleton _ _).symm

/-! ## Set semantics -/

def isChange (u : HIDUsage) (value : Int) (item : HIDReportItemValue) : Bool :=
  item.usage == u && item.value == value

/-- One press for each usage that is new, one release for each that is gone, and nothing else. -/
structure SetChange (previous current : List HIDUsage) (values : List HIDReportItemValue) : Prop where
  press : ∀ u, values.countP (isChange u 1) = if u ∈ current ∧ u ∉ previous then 1 else 0
  release : ∀ u, values.countP (isChange u 0) = if u ∈ previous ∧ u ∉ current then 1 else 0
  only : ∀ item ∈ values, item.value = 1 ∨ item.value = 0

/-- What the decoder computes: the changes of a multiset. -/
structure MultisetChange (previous current : List HIDUsage) (values : List HIDReportItemValue) :
    Prop where
  press : ∀ u, values.countP (isChange u 1) = current.count u - previous.count u
  release : ∀ u, values.countP (isChange u 0) = previous.count u - current.count u
  only : ∀ item ∈ values, item.value = 1 ∨ item.value = 0

theorem MultisetChange.setChange_iff {previous current : List HIDUsage} {values : List HIDReportItemValue}
    (h : MultisetChange previous current values) (hprev : previous.Nodup) :
    SetChange previous current values ↔ current.Nodup := by
  have hprev1 := List.nodup_iff_count_le_one.mp hprev
  have hmem : ∀ (l : List HIDUsage) u, u ∈ l ↔ 0 < l.count u := fun l u => List.count_pos_iff.symm
  constructor
  · intro hset
    apply List.nodup_iff_count_le_one.mpr
    intro u
    have hpress := (h.press u).symm.trans (hset.press u)
    have := hprev1 u
    simp only [hmem] at hpress
    split at hpress <;> omega
  · intro hcur
    have hcur1 := List.nodup_iff_count_le_one.mp hcur
    refine ⟨fun u => ?_, fun u => ?_, h.only⟩
    · have := hprev1 u
      have := hcur1 u
      rw [h.press u]
      simp only [hmem]
      split <;> omega
    · have := hprev1 u
      have := hcur1 u
      rw [h.release u]
      simp only [hmem]
      split <;> omega

theorem count_arrayValues (m : HIDReportMap) (r : HIDReportSchema) (f : HIDFieldSchema) (handle : Nat)
    (u : HIDUsage) (wanted value : Int) (rawValue : Int → Int) (entries : UsageMultimap) :
    (entries.map fun entry =>
      { arrayValue m r f entry.1 value (rawValue entry.2) with characteristicHandle := handle }).countP
        (isChange u wanted) = if value = wanted then (usagesOf entries).count u else 0 := by
  induction entries with
  | nil => simp [usagesOf]
  | cons entry rest ih =>
    rw [List.map_cons, List.countP_cons, ih]
    by_cases hv : value = wanted
    · simp [isChange, arrayValue, usagesOf, hv, List.count_cons]
    · simp [isChange, arrayValue, hv]

theorem decodeArray_change (m : HIDReportMap) (r : HIDReportSchema) (f : HIDFieldSchema)
    (hvar : f.isVariable = false) (payload : List UInt8) (runtime : FieldRuntime) (handle : Nat)
    {previous : List HIDUsage} (hprev : (usagesOf runtime.activeArrayUsages).Perm previous) :
    MultisetChange previous (slotUsages f payload)
      ((decodeField m r f payload runtime).2.map fun value =>
        { value with characteristicHandle := handle }) := by
  have hcur := usagesOf_currentUsages f payload
  rw [decodeField, hvar, if_neg (by simp)]
  simp only [decodeArray, initRuntime_activeArrayUsages, List.map_append, List.map_map]
  constructor
  · intro u
    rw [List.countP_append]
    have hpress := count_arrayValues m r f handle u 1 1 id
      (unmatched (currentUsages payload f) runtime.activeArrayUsages)
    have hrelease := count_arrayValues m r f handle u 1 0 (fun _ => 0)
      (unmatched runtime.activeArrayUsages (currentUsages payload f))
    refine (congrArg₂ (· + ·) hpress hrelease).trans ?_
    simp [count_unmatched, hcur.count_eq, hprev.count_eq]
  · intro u
    rw [List.countP_append]
    have hpress := count_arrayValues m r f handle u 0 1 id
      (unmatched (currentUsages payload f) runtime.activeArrayUsages)
    have hrelease := count_arrayValues m r f handle u 0 0 (fun _ => 0)
      (unmatched runtime.activeArrayUsages (currentUsages payload f))
    refine (congrArg₂ (· + ·) hpress hrelease).trans ?_
    simp [count_unmatched, hcur.count_eq, hprev.count_eq]
  · intro item hitem
    rcases List.mem_append.mp hitem with hitem | hitem
    · obtain ⟨entry, -, rfl⟩ := List.mem_map.mp hitem
      exact .inl rfl
    · obtain ⟨entry, -, rfl⟩ := List.mem_map.mp hitem
      exact .inr rfl

/-! ## A run -/

/-- The usages of the payload before, none at the start. -/
def previousUsages (f : HIDFieldSchema) (before : List (HIDReportSource × List UInt8)) : List HIDUsage :=
  match before.getLast? with
  | none => []
  | some call => slotUsages f call.2

/-- The values that a call yields for one field. -/
def fieldChanges (m : HIDReportMap) (f : HIDFieldSchema) (before : List (HIDReportSource × List UInt8))
    (call : HIDReportSource × List UInt8) : List HIDReportItemValue :=
  (parse (parseAll m before) call.1 (.bytes call.2)).values.filter (covers f ·.fieldId)

theorem memoryAfter_array {m : HIDReportMap} {r : HIDReportSchema} {f : HIDFieldSchema}
    (hvar : f.isVariable = false) (before : List (HIDReportSource × List UInt8)) :
    (usagesOf (memoryAfter m r f {} (before.map (·.2))).activeArrayUsages).Perm
      (previousUsages f before) := by
  induction before using List.reverseRecOn with
  | nil => exact .refl _
  | append_singleton before call =>
    have hstep : (memoryAfter m r f {} ((before ++ [call]).map (·.2))).activeArrayUsages =
        currentUsages call.2 f := by
      rw [memoryAfter, List.map_append, List.foldl_append, List.map_singleton, List.foldl_cons,
        List.foldl_nil, decodeField, hvar, if_neg (by simp)]
      rfl
    rw [hstep, previousUsages, List.getLast?_append, List.getLast?_singleton]
    exact usagesOf_currentUsages f call.2

theorem fieldChanges_spec {m : HIDReportMap} (hm : SchemaInv m) (hfresh : m.runtime = fun _ => {})
    {r : HIDReportSchema} {f : HIDFieldSchema} (hf : f ∈ m.fieldsOf r) (hconst : f.isConstant = false)
    (hvar : f.isVariable = false) (before : List (HIDReportSource × List UInt8))
    (hbefore : ∀ call ∈ before, Accepts m r call.1 call.2) {call : HIDReportSource × List UInt8}
    (hcall : Accepts m r call.1 call.2) :
    MultisetChange (previousUsages f before) (slotUsages f call.2) (fieldChanges m f before call) := by
  have hvalues : fieldChanges m f before call =
      (decodeField m r f call.2 (memoryAfter m r f {} (before.map (·.2)))).2.map fun value =>
        { value with characteristicHandle := call.1.characteristicHandle } := by
    have hown := parse_after_covers hm before hbefore hcall hf hconst
    rwa [hfresh] at hown
  rw [hvalues]
  exact decodeArray_change m r f hvar call.2 _ _ (memoryAfter_array hvar before)

theorem previousUsages_nodup {f : HIDFieldSchema} {before : List (HIDReportSource × List UInt8)}
    (h : ∀ call ∈ before, (slotUsages f call.2).Nodup) : (previousUsages f before).Nodup := by
  unfold previousUsages
  split
  · exact List.nodup_nil
  · rename_i call hlast
    exact h call (List.mem_of_getLast? hlast)

/-- A run reports the changes of a set of usages exactly when no payload repeats one. -/
theorem parse_array_set_iff (data : Buffer) (m : HIDReportMap) (h : parseReportMapData data = some m)
    (r : HIDReportSchema) (hr : r ∈ m.reports) (hk : r.kind = .input) (f : HIDFieldSchema)
    (hf : f ∈ m.fieldsOf r) (hconst : f.isConstant = false) (hvar : f.isVariable = false)
    (sent : List (HIDReportSource × List UInt8))
    (hsent : ∀ call ∈ sent, Selects r call.1 ∧ r.byteSize ≤ call.2.length) :
    (∀ before call after, sent = before ++ call :: after →
      SetChange (previousUsages f before) (slotUsages f call.2) (fieldChanges m f before call)) ↔
    ∀ call ∈ sent, (slotUsages f call.2).Nodup := by
  obtain ⟨hm, hfresh⟩ := parseReportMapData_inv h
  have hacc : ∀ call ∈ sent, Accepts m r call.1 call.2 := fun call hcall =>
    (hsent call hcall).1.accepts hm hr hk (hsent call hcall).2
  have hchange : ∀ before call after, sent = before ++ call :: after →
      MultisetChange (previousUsages f before) (slotUsages f call.2) (fieldChanges m f before call) := by
    rintro before call after rfl
    exact fieldChanges_spec hm hfresh hf hconst hvar before
      (fun call hcall => hacc call (List.mem_append_left _ hcall)) (hacc call (by simp))
  constructor
  · intro hset
    -- By induction on the calls so far: the previous payload repeats nothing.
    have hprefix : ∀ before after, sent = before ++ after →
        ∀ call ∈ before, (slotUsages f call.2).Nodup := by
      intro before
      induction before using List.reverseRecOn with
      | nil => simp
      | append_singleton before call ih =>
        intro after heq
        have heq' : sent = before ++ call :: after := by simpa using heq
        have hbefore := ih (call :: after) heq'
        have hcall := ((hchange before call after heq').setChange_iff
          (previousUsages_nodup hbefore)).mp (hset before call after heq')
        intro call' hcall'
        rcases List.mem_append.mp hcall' with hcall' | hcall'
        · exact hbefore call' hcall'
        · rwa [List.mem_singleton.mp hcall']
    exact hprefix sent [] (by simp)
  · intro hnodup before call after heq
    refine ((hchange before call after heq).setChange_iff (previousUsages_nodup ?_)).mpr ?_
    · exact fun call' hcall' => hnodup call' (by simp [heq, hcall'])
    · exact hnodup call (by simp [heq])

theorem keyboardDescriptor_accepted : (parseReportMapData (.bytes keyboardDescriptor)).isSome := by
  decide +kernel

def keyboardMap : HIDReportMap :=
  (parseReportMapData (.bytes keyboardDescriptor)).get keyboardDescriptor_accepted

def keyboardReport : HIDReportSchema := keyboardMap.reports.headD {}

def keyboardField : HIDFieldSchema := keyboardMap.fields.headD {}

/-- Two keys go down, one comes up. -/
theorem parse_array_set_iff_keyboard :
    (∀ before call after, [(({} : HIDReportSource), [4, 5]), ({}, [5, 0])] = before ++ call :: after →
      SetChange (previousUsages keyboardField before) (slotUsages keyboardField call.2)
        (fieldChanges keyboardMap keyboardField before call)) ↔
    ∀ call ∈ [(({} : HIDReportSource), [4, 5]), ({}, [5, 0])], (slotUsages keyboardField call.2).Nodup := by
  refine parse_array_set_iff (.bytes keyboardDescriptor) keyboardMap (by rw [keyboardMap, Option.some_get])
    keyboardReport (by decide +kernel) (by decide +kernel) keyboardField (by decide +kernel)
    (by decide +kernel) (by decide +kernel) _ ?_
  intro call hcall
  rcases List.mem_cons.mp hcall with rfl | hcall
  · exact ⟨⟨by decide +kernel, rfl, by decide⟩, by decide +kernel⟩
  · obtain rfl := List.mem_singleton.mp hcall
    exact ⟨⟨by decide +kernel, rfl, by decide⟩, by decide +kernel⟩

/-- Both slots hold the key, then only the first: the second payload releases a key it still asserts. -/
theorem parse_array_repeated_usage :
    parseReportMapData (.bytes keyboardDescriptor) = some keyboardMap ∧
    (∀ payload ∈ [[4, 4], [4, 0]], Accepts keyboardMap keyboardReport {} payload) ∧
    slotUsages keyboardField [4, 0] = [{ page := 0x07, usage := 4 }] ∧
    ((fieldChanges keyboardMap keyboardField [({}, [4, 4])] ({}, [4, 0])).map
      fun item => (item.usage, item.value)) = [({ page := 0x07, usage := 4 }, 0)] ∧
    ¬ SetChange (previousUsages keyboardField [({}, [4, 4])]) (slotUsages keyboardField [4, 0])
      (fieldChanges keyboardMap keyboardField [({}, [4, 4])] ({}, [4, 0])) := by
  refine ⟨by rw [keyboardMap, Option.some_get], ?_, by decide +kernel, by decide +kernel, ?_⟩
  · have hreport : keyboardMap.findReport .input 0 = some keyboardReport := by decide +kernel
    intro payload hpayload
    simp only [List.mem_cons, List.not_mem_nil, or_false] at hpayload
    rcases hpayload with rfl | rfl
    · exact ⟨hreport, rfl, by decide, by decide +kernel⟩
    · exact ⟨hreport, rfl, by decide, by decide +kernel⟩
  · intro hset
    have hrelease := hset.release { page := 0x07, usage := 4 }
    revert hrelease
    decide +kernel

end HidParser

end BleClientHid
