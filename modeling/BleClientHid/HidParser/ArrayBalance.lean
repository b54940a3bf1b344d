import BleClientHid.HidParser.Arrays
import BleClientHid.HidParser.Padding
import Mathlib.Data.List.Perm.Basic
import Mathlib.Data.List.Sort

/-! # Presses and releases balance

The multimap of an array field is a sorted bag of usages. What has been pressed
and not released is the bag of the last payload, in whatever slots it came.
-/

namespace BleClientHid

namespace HidParser

open Lib HIDReportMap

/-! ## The values of a run -/

abbrev Sent := HIDReportSource × List UInt8

def runValues : HIDReportMap → List Sent → List (List HIDReportItemValue)
  | _, [] => []
  | m, call :: rest =>
    (parse m call.1 (.bytes call.2)).values :: runValues (parse m call.1 (.bytes call.2)).map rest

theorem runValues_concat (m : HIDReportMap) (before : List Sent) (call : Sent) :
    runValues m (before ++ [call]) =
      runValues m before ++ [(parse (parseAll m before) call.1 (.bytes call.2)).values] := by
  induction before generalizing m with
  | nil => rfl
  | cons first before ih =>
    rw [List.cons_append, runValues, ih, runValues, List.cons_append]
    rfl

/-- The values of each call that come from one field. -/
def fieldRun (m : HIDReportMap) (f : HIDFieldSchema) (sent : List Sent) : List (List HIDReportItemValue) :=
  (runValues m sent).map fun values => values.filter (covers f ·.fieldId)

theorem fieldRun_concat (m : HIDReportMap) (f : HIDFieldSchema) (before : List Sent) (call : Sent) :
    fieldRun m f (before ++ [call]) = fieldRun m f before ++ [fieldChanges m f before call] := by
  rw [fieldRun, runValues_concat, List.map_append]
  rfl

/-! ## Balance -/

def presses (u : HIDUsage) (values : List HIDReportItemValue) : Nat := values.countP (isChange u 1)

def releases (u : HIDUsage) (values : List HIDReportItemValue) : Nat := values.countP (isChange u 0)

/-- What one payload presses and releases takes one bag to the next. -/
theorem MultisetChange.balance {previous current : List HIDUsage} {values : List HIDReportItemValue}
    (h : MultisetChange previous current values) (u : HIDUsage) :
    (presses u values : Int) - releases u values = (current.count u : Int) - previous.count u := by
  rw [presses, releases, h.press u, h.release u]
  omega

theorem MultisetChange.not_both {previous current : List HIDUsage} {values : List HIDReportItemValue}
    (h : MultisetChange previous current values) (u : HIDUsage) : presses u values = 0 ∨ releases u values = 0 := by
  rw [presses, releases, h.press u, h.release u]
  omega

section
variable {m : HIDReportMap} (hm : SchemaInv m) (hfresh : m.runtime = fun _ => {}) {r : HIDReportSchema}
  {f : HIDFieldSchema} (hf : f ∈ m.fieldsOf r) (hconst : f.isConstant = false) (hvar : f.isVariable = false)

include hm hfresh hf hconst hvar

theorem fieldRun_balance (sent : List Sent) (hsent : ∀ call ∈ sent, Accepts m r call.1 call.2) (u : HIDUsage) :
    (presses u (fieldRun m f sent).flatten : Int) - releases u (fieldRun m f sent).flatten =
      (previousUsages f sent).count u := by
  induction sent using List.reverseRecOn with
  | nil => rfl
  | append_singleton before call ih =>
    have hbefore : ∀ call ∈ before, Accepts m r call.1 call.2 :=
      fun call hcall => hsent call (List.mem_append_left _ hcall)
    have hchange := fieldChanges_spec hm hfresh hf hconst hvar before hbefore (hsent call (by simp))
    have hbalance := hchange.balance u
    have hlast : previousUsages f (before ++ [call]) = slotUsages f call.2 := by
      rw [previousUsages, List.getLast?_append, List.getLast?_singleton]
      rfl
    have hearlier := ih hbefore
    rw [hlast, fieldRun_concat]
    simp only [presses, releases, List.flatten_append, List.flatten_singleton, List.countP_append] at *
    omega

theorem fieldRun_not_both (sent : List Sent) (hsent : ∀ call ∈ sent, Accepts m r call.1 call.2) :
    ∀ values ∈ fieldRun m f sent, ∀ u, presses u values = 0 ∨ releases u values = 0 := by
  induction sent using List.reverseRecOn with
  | nil => exact fun values hvalues => absurd hvalues (List.not_mem_nil)
  | append_singleton before call ih =>
    have hbefore : ∀ call ∈ before, Accepts m r call.1 call.2 :=
      fun call hcall => hsent call (List.mem_append_left _ hcall)
    rw [fieldRun_concat]
    intro values hvalues u
    rcases List.mem_append.mp hvalues with hvalues | hvalues
    · exact ih hbefore values hvalues u
    · obtain rfl := List.mem_singleton.mp hvalues
      exact (fieldChanges_spec hm hfresh hf hconst hvar before hbefore (hsent call (by simp))).not_both u

end

/-! ## The order of the slots -/

def usageLe (a b : HIDUsage) : Prop := b.lt a = false

theorem usageLe_antisymm {a b : HIDUsage} (hab : usageLe a b) (hba : usageLe b a) : a = b := by
  obtain ⟨usage, page⟩ := a
  obtain ⟨usage', page'⟩ := b
  simp only [usageLe, HIDUsage.lt, Bool.or_eq_false_iff, Bool.and_eq_false_iff, decide_eq_false_iff_not,
    beq_eq_false_iff_ne] at hab hba
  simp only [HIDUsage.mk.injEq]
  omega

theorem usageLe_of_lt {a b : HIDUsage} (h : a.lt b = true) : usageLe a b := by
  simp only [usageLe, HIDUsage.lt, Bool.or_eq_true, Bool.and_eq_true, decide_eq_true_eq, beq_iff_eq,
    Bool.or_eq_false_iff, Bool.and_eq_false_iff, decide_eq_false_iff_not, beq_eq_false_iff_ne] at h ⊢
  omega

theorem usageLe_trans {a b c : HIDUsage} (hab : usageLe a b) (hbc : usageLe b c) : usageLe a c := by
  simp only [usageLe, HIDUsage.lt, Bool.or_eq_false_iff, Bool.and_eq_false_iff, decide_eq_false_iff_not,
    beq_eq_false_iff_ne] at hab hbc ⊢
  omega

theorem emplace_sorted (usage : HIDUsage) (rawValue : Int) {entries : UsageMultimap}
    (h : (usagesOf entries).Pairwise usageLe) : (usagesOf (emplace usage rawValue entries)).Pairwise usageLe := by
  induction entries with
  | nil => exact List.pairwise_singleton _ _
  | cons entry rest ih =>
    obtain ⟨hentry, hrest⟩ := List.pairwise_cons.mp h
    unfold emplace
    split
    · rename_i hlt
      have hle := usageLe_of_lt hlt
      refine .cons ?_ h
      intro u hu
      rcases List.mem_cons.mp hu with rfl | hu
      · exact hle
      · exact usageLe_trans hle (hentry u hu)
    · rename_i hlt
      refine .cons ?_ (ih hrest)
      intro u hu
      rcases List.mem_cons.mp (((emplace_perm usage rawValue rest).map (·.1)).mem_iff.mp hu) with rfl | hu
      · exact Bool.eq_false_of_not_eq_true hlt
      · exact hentry u hu

theorem currentUsages_sorted (payload : List UInt8) (f : HIDFieldSchema) :
    (usagesOf (currentUsages payload f)).Pairwise usageLe := by
  refine List.foldlRecOn (motive := fun entries : UsageMultimap => (usagesOf entries).Pairwise usageLe)
    _ _ .nil ?_
  intro entries hentries i _
  cases slotUsage payload f i with
  | none => exact hentries
  | some entry => exact emplace_sorted entry.1 entry.2 hentries

/-- The sorted bag does not depend on the order of the slots. -/
theorem usagesOf_currentUsages_congr {f : HIDFieldSchema} {p q : List UInt8}
    (h : (slotUsages f p).Perm (slotUsages f q)) :
    usagesOf (currentUsages p f) = usagesOf (currentUsages q f) :=
  List.Perm.eq_of_pairwise (fun _ _ _ _ => usageLe_antisymm) (currentUsages_sorted p f)
    (currentUsages_sorted q f)
    ((usagesOf_currentUsages f p).trans (h.trans (usagesOf_currentUsages f q).symm))

theorem usagesOf_unmatched_congr {entries entries' others others' : UsageMultimap}
    (h : usagesOf entries = usagesOf entries') (hothers : usagesOf others = usagesOf others') :
    usagesOf (unmatched entries others) = usagesOf (unmatched entries' others') := by
  induction entries generalizing entries' others others' with
  | nil =>
    obtain rfl : entries' = [] := List.map_eq_nil_iff.mp h.symm
    rfl
  | cons entry rest ih =>
    cases entries' with
    | nil => cases h
    | cons entry' rest' =>
      obtain ⟨hentry, hrest⟩ := List.cons.inj h
      dsimp only at hentry
      have hhas : hasUsage others entry.1 = hasUsage others' entry'.1 := by
        rw [Bool.eq_iff_iff, hasUsage_iff, hasUsage_iff, hothers, hentry]
      rw [unmatched, unmatched, hhas]
      split
      · apply ih hrest
        rw [usagesOf_eraseUsage, usagesOf_eraseUsage, hothers, hentry]
      · exact congrArg₂ List.cons hentry (ih hrest hothers)

def change (value : HIDReportItemValue) : Nat × HIDUsage × Int := (value.fieldId, value.usage, value.value)

theorem arrayValues_change (m : HIDReportMap) (r : HIDReportSchema) (f : HIDFieldSchema) (value : Int)
    (rawValue : HIDUsage × Int → Int) (entries : UsageMultimap) :
    (entries.map fun entry => arrayValue m r f entry.1 value (rawValue entry)).map change =
      (usagesOf entries).map fun usage => (f.bitOffset, usage, value) := by
  simp only [usagesOf, List.map_map]
  rfl

theorem decodeArray_congr (m : HIDReportMap) (r : HIDReportSchema) {f : HIDFieldSchema}
    (hvar : f.isVariable = false) {p q : List UInt8} (h : (slotUsages f p).Perm (slotUsages f q))
    {runtime runtime' : FieldRuntime}
    (hmem : usagesOf runtime.activeArrayUsages = usagesOf runtime'.activeArrayUsages) :
    usagesOf (decodeField m r f p runtime).1.activeArrayUsages =
        usagesOf (decodeField m r f q runtime').1.activeArrayUsages ∧
      (decodeField m r f p runtime).2.map change = (decodeField m r f q runtime').2.map change := by
  have hcur := usagesOf_currentUsages_congr h
  simp only [decodeField, hvar, Bool.false_eq_true, if_false, decodeArray, initRuntime_activeArrayUsages]
  refine ⟨hcur, ?_⟩
  rw [List.map_append, List.map_append, arrayValues_change m r f 1 (·.2), arrayValues_change m r f 0 fun _ => 0,
    arrayValues_change m r f 1 (·.2), arrayValues_change m r f 0 fun _ => 0, usagesOf_unmatched_congr hcur hmem,
    usagesOf_unmatched_congr hmem hcur]

/-! ## Slots -/

/-- The number in a slot, without its sign. -/
def slotNumber (f : HIDFieldSchema) (payload : List UInt8) (i : Nat) : Nat :=
  ofBits (fun j => bitSet payload (f.bitOffset + i * f.reportSize + j)) f.reportSize

def slots (f : HIDFieldSchema) (payload : List UInt8) : List Nat :=
  (List.range f.reportCount).map (slotNumber f payload)

/-- The second payload has the same numbers in the variable fields and a permutation of them in the
slots of every array field. -/
structure SlotsPermuted (m : HIDReportMap) (r : HIDReportSchema) (p q : List UInt8) : Prop where
  arrays : ∀ f ∈ m.fieldsOf r, f.isConstant = false → f.isVariable = false → (slots f p).Perm (slots f q)
  others : ∀ f ∈ m.fieldsOf r, f.isConstant = false → f.isVariable = true → slots f p = slots f q

/-- What the decoder reads out of a slot with this number. -/
def numberElement (f : HIDFieldSchema) (number : Nat) : Option Int :=
  let v : Int := if isSigned f then twosComplement f.reportSize number else number
  if inRange f v then some v else none

def numberUsage (f : HIDFieldSchema) (number : Nat) : Option HIDUsage :=
  (numberElement f number).bind fun v =>
    let usage := f.usageAt ((v - f.logical.minimum) % 2 ^ 32).toNat false
    if usage.page ≠ 0 ∧ usage.usage ≠ 0 then some usage else none

section
variable {m : HIDReportMap} (hm : SchemaInv m) {r : HIDReportSchema} (hr : r ∈ m.reports)
  {f : HIDFieldSchema} (hf : f ∈ m.fieldsOf r) {p q : List UInt8} (hp : r.byteSize ≤ p.length)

include hm hr hf hp

theorem readElement_number {i : Nat} (hi : i < f.reportCount) :
    readElement p f i = numberElement f (slotNumber f p i) := by
  rw [readElement_eq hm hr hf hi hp]
  rfl

theorem slotUsages_numbers : slotUsages f p = (slots f p).filterMap (numberUsage f) := by
  rw [slotUsages, slots, List.filterMap_map]
  apply List.filterMap_congr
  intro i hi
  rw [slotUsage, readElement_number hm hr hf hp (List.mem_range.mp hi), Function.comp_apply, numberUsage]
  cases numberElement f (slotNumber f p i) with
  | none => rfl
  | some v =>
    simp only [Option.bind_some]
    split <;> rfl

theorem slotUsages_perm (hq : r.byteSize ≤ q.length) (h : (slots f p).Perm (slots f q)) :
    (slotUsages f p).Perm (slotUsages f q) := by
  rw [slotUsages_numbers hm hr hf hp, slotUsages_numbers hm hr hf hq]
  exact h.filterMap _

theorem readElement_slots (hq : r.byteSize ≤ q.length) (h : slots f p = slots f q) {i : Nat}
    (hi : i < f.reportCount) : readElement p f i = readElement q f i := by
  have hnumber : slotNumber f p i = slotNumber f q i :=
    List.map_inj_left.mp h i (List.mem_range.mpr hi)
  rw [readElement_number hm hr hf hp hi, readElement_number hm hr hf hq hi, hnumber]

end

/-! ## Two runs -/

/-- The memories agree up to the numbers that array entries carry. -/
def SameBags (m : HIDReportMap) (r : HIDReportSchema) (runtime runtime' : Nat → FieldRuntime) : Prop :=
  ∀ f ∈ m.fieldsOf r, f.isConstant = false →
    (f.isVariable = true → runtime f.id = runtime' f.id) ∧
    (f.isVariable = false →
      usagesOf (runtime f.id).activeArrayUsages = usagesOf (runtime' f.id).activeArrayUsages)

theorem SameBags.step {m : HIDReportMap} (hm : SchemaInv m) {r : HIDReportSchema} (hr : r ∈ m.reports)
    {runtime runtime' : Nat → FieldRuntime} (h : SameBags m r runtime runtime') {p q : List UInt8}
    (hp : r.byteSize ≤ p.length) (hq : r.byteSize ≤ q.length) (hslots : SlotsPermuted m r p q) :
    ∃ next next', (parseInput { m with runtime } r p).1 = { m with runtime := next } ∧
      (parseInput { m with runtime := runtime' } r q).1 = { m with runtime := next' } ∧
      SameBags m r next next' ∧
      (parseInput { m with runtime } r p).2.map change =
        (parseInput { m with runtime := runtime' } r q).2.map change := by
  obtain ⟨next, hmap, hvalues, hnext⟩ := parseInput_eq (hm.withRuntime runtime) hr p
  obtain ⟨next', hmap', hvalues', hnext'⟩ := parseInput_eq (hm.withRuntime runtime') hr q
  simp only [decodeField_withRuntime] at hnext hnext'
  -- variable fields agree in full, array fields up to the order of their slots
  have hfield : ∀ f ∈ m.fieldsOf r, f.isConstant = false →
      (f.isVariable = true → (decodeField m r f p (runtime f.id)) = (decodeField m r f q (runtime' f.id))) ∧
      (f.isVariable = false →
        usagesOf (decodeField m r f p (runtime f.id)).1.activeArrayUsages =
            usagesOf (decodeField m r f q (runtime' f.id)).1.activeArrayUsages ∧
          (decodeField m r f p (runtime f.id)).2.map change =
            (decodeField m r f q (runtime' f.id)).2.map change) := by
    intro f hf hconst
    refine ⟨fun hvar => ?_, fun hvar => ?_⟩
    · rw [(h f hf hconst).1 hvar]
      exact decodeField_congr (fun i hi => readElement_slots hm hr hf hp hq (hslots.others f hf hconst hvar) hi) _
    · exact decodeArray_congr m r hvar
        (slotUsages_perm hm hr hf hp hq (hslots.arrays f hf hconst hvar)) ((h f hf hconst).2 hvar)
  refine ⟨next, next', hmap, hmap', ?_, ?_⟩
  · intro f hf hconst
    rw [hnext f hf hconst, hnext' f hf hconst]
    exact ⟨fun hvar => congrArg Prod.fst ((hfield f hf hconst).1 hvar),
      fun hvar => ((hfield f hf hconst).2 hvar).1⟩
  · -- the values of a report are those of its fields, in order
    rw [hvalues, hvalues', List.map_flatMap, List.map_flatMap]
    apply List.flatMap_congr
    intro f hf
    unfold fieldValues
    cases hconst : f.isConstant with
    | true => rfl
    | false =>
      simp only [decodeField_withRuntime, Bool.false_eq_true, if_false]
      cases hvar : f.isVariable with
      | true => exact congrArg (fun out => out.2.map change) ((hfield f hf hconst).1 hvar)
      | false => exact ((hfield f hf hconst).2 hvar).2

/-- The same source, and a payload with its slots in another order. -/
def SentAlike (m : HIDReportMap) (r : HIDReportSchema) (call call' : Sent) : Prop :=
  call.1 = call'.1 ∧ SlotsPermuted m r call.2 call'.2

theorem runValues_permuted {m : HIDReportMap} (hm : SchemaInv m) {r : HIDReportSchema} (hr : r ∈ m.reports)
    {sent sent' : List Sent} (h : List.Forall₂ (SentAlike m r) sent sent')
    (hsent : ∀ call ∈ sent, Accepts m r call.1 call.2) (hsent' : ∀ call ∈ sent', Accepts m r call.1 call.2)
    {runtime runtime' : Nat → FieldRuntime} (hbags : SameBags m r runtime runtime') :
    (runValues { m with runtime } sent).map (·.map change) =
      (runValues { m with runtime := runtime' } sent').map (·.map change) := by
  induction h generalizing runtime runtime' with
  | nil => rfl
  | @cons call call' rest rest' hcall _ ih =>
    obtain ⟨hacc, hrest⟩ := List.forall_mem_cons.mp hsent
    obtain ⟨hacc', hrest'⟩ := List.forall_mem_cons.mp hsent'
    obtain ⟨next, next', hmap, hmap', hnext, hvalues⟩ := hbags.step hm hr hacc.length hacc'.length hcall.2
    have hchange : ∀ (handle : Nat) (values : List HIDReportItemValue),
        (values.map fun value => { value with characteristicHandle := handle }).map change =
          values.map change := by
      intro handle values
      rw [List.map_map]
      rfl
    simp only [runValues, List.map_cons, parse_accepted (hacc.withRuntime runtime),
      parse_accepted (hacc'.withRuntime runtime'), hmap, hmap', hchange, hvalues, ih hrest hrest' hnext]

/-- Over every run, what an array field has pressed and not released is what the last payload asserts; no
payload presses and releases the same usage; and the order of the slots does not matter. -/
theorem parse_array_balance (data : Buffer) (m : HIDReportMap) (h : parseReportMapData data = some m)
    (r : HIDReportSchema) (hr : r ∈ m.reports) (hk : r.kind = .input) (f : HIDFieldSchema)
    (hf : f ∈ m.fieldsOf r) (hconst : f.isConstant = false) (hvar : f.isVariable = false)
    (sent : List Sent) (hsent : ∀ call ∈ sent, Selects r call.1 ∧ r.byteSize ≤ call.2.length) :
    (∀ u, (presses u (fieldRun m f sent).flatten : Int) - releases u (fieldRun m f sent).flatten =
      (previousUsages f sent).count u) ∧
    (∀ values ∈ fieldRun m f sent, ∀ u, presses u values = 0 ∨ releases u values = 0) ∧
    (∀ sent', (∀ call ∈ sent', Selects r call.1 ∧ r.byteSize ≤ call.2.length) →
      List.Forall₂ (SentAlike m r) sent sent' →
      (runValues m sent).map (·.map change) = (runValues m sent').map (·.map change)) := by
  obtain ⟨hm, hfresh⟩ := parseReportMapData_inv h
  have haccepts : ∀ sent : List Sent, (∀ call ∈ sent, Selects r call.1 ∧ r.byteSize ≤ call.2.length) →
      ∀ call ∈ sent, Accepts m r call.1 call.2 :=
    fun sent hsent call hcall => (hsent call hcall).1.accepts hm hr hk (hsent call hcall).2
  refine ⟨fieldRun_balance hm hfresh hf hconst hvar sent (haccepts sent hsent),
    fieldRun_not_both hm hfresh hf hconst hvar sent (haccepts sent hsent), ?_⟩
  intro sent' hsent' hpermuted
  have hbags : SameBags m r m.runtime m.runtime := fun f _ _ => ⟨fun _ => rfl, fun _ => rfl⟩
  exact runValues_permuted hm hr hpermuted (haccepts sent hsent) (haccepts sent' hsent') hbags

/-- The same key in both slots, then in one of them. -/
theorem parse_array_balance_keyboard :
    (∀ u, (presses u (fieldRun keyboardMap keyboardField [({}, [4, 4]), ({}, [4, 0])]).flatten : Int) -
      releases u (fieldRun keyboardMap keyboardField [({}, [4, 4]), ({}, [4, 0])]).flatten =
        (previousUsages keyboardField [({}, [4, 4]), ({}, [4, 0])]).count u) ∧
    (runValues keyboardMap [({}, [4, 4]), ({}, [4, 0])]).map (·.map change) =
      (runValues keyboardMap [({}, [4, 4]), ({}, [0, 4])]).map (·.map change) := by
  have haccepted : ∀ payload ∈ [[(4 : UInt8), 4], [4, 0], [0, 4]],
      Selects keyboardReport {} ∧ keyboardReport.byteSize ≤ payload.length := by
    intro payload hpayload
    refine ⟨⟨by decide +kernel, rfl, by decide⟩, ?_⟩
    revert payload
    decide +kernel
  have hslots : SlotsPermuted keyboardMap keyboardReport [4, 4] [4, 4] ∧
      SlotsPermuted keyboardMap keyboardReport [4, 0] [0, 4] :=
    ⟨⟨by decide +kernel, by decide +kernel⟩, ⟨by decide +kernel, by decide +kernel⟩⟩
  have hlaw := parse_array_balance (.bytes keyboardDescriptor) keyboardMap (by rw [keyboardMap, Option.some_get])
    keyboardReport (by decide +kernel) (by decide +kernel) keyboardField (by decide +kernel)
    (by decide +kernel) (by decide +kernel) [({}, [4, 4]), ({}, [4, 0])] (by simpa using haccepted)
  refine ⟨hlaw.1, hlaw.2.2 _ ?_ (.cons ⟨rfl, hslots.1⟩ (.cons ⟨rfl, hslots.2⟩ .nil))⟩
  simpa using haccepted

end HidParser

end BleClientHid
