import BleClientHid.HidParser.Items

/-! # The order of Global items

Two neighbouring Global items write different globals, and only a Maximum looks
at a global: the Minimum of its range, for the sign.
-/

namespace BleClientHid

namespace HidParser

open HIDReportMap

/-! ## The parser without its diagnostics -/

/-- The state behind the item, none when it is refused. -/
def effect (item : Item) (s : ParserState) : Option ParserState := (applyItem 0 item s).toOption

/-- The state at the end of the bytes. -/
def parsed (data : List UInt8) (s : ParserState) : Option ParserState :=
  (parseItems data.length 0 data s).toOption

theorem fail_toOption (off : Nat) (message : String) : (fail off message).toOption = none := rfl

theorem parseDataItem_toOption (off : Nat) (kind : HIDReportKind) (raw : Nat) (s : ParserState) :
    (parseDataItem off kind raw s).toOption = (parseDataItem 0 kind raw s).toOption := by
  simp only [parseDataItem]
  split
  · rfl
  · split
    · rfl
    · split
      · rfl
      · split
        · rfl
        · split <;> rfl

theorem parseDelimiter_toOption (off raw : Nat) (s : ParserState) :
    (parseDelimiter off raw s).toOption = (parseDelimiter 0 raw s).toOption := by
  unfold parseDelimiter
  split
  · split <;> rfl
  · split
    · split <;> rfl
    · rfl

/-- The offset only shows in the diagnostic. -/
theorem parseItem_toOption (off p raw : Nat) (s : ParserState) :
    (parseItem off p raw s).toOption = (parseItem 0 p raw s).toOption := by
  simp only [parseItem]
  cases itemTag p with
  | data kind => exact parseDataItem_toOption off kind raw s
  | delimiter => exact parseDelimiter_toOption off raw s
  | collection =>
    simp only [parseCollection]
    split <;> rfl
  | endCollection =>
    simp only [parseEndCollection]
    split <;> rfl
  | usagePage => simp only; split <;> rfl
  | reportId => simp only; split <;> rfl
  | push => simp only; split <;> rfl
  | pop => simp only; split <;> rfl
  | _ => rfl

theorem applyItem_toOption (off : Nat) (item : Item) (s : ParserState) :
    (applyItem off item s).toOption = effect item s := by
  cases item with
  | short p data => exact parseItem_toOption off p.toNat _ s
  | long => rfl

/-- Neither offset nor fuel shows in the state. -/
theorem parseItems_toOption {fuel fuel' : Nat} (off off' : Nat) {data : List UInt8} (s : ParserState)
    (hfuel : data.length ≤ fuel) (hfuel' : data.length ≤ fuel') :
    (parseItems fuel off data s).toOption = (parseItems fuel' off' data s).toOption := by
  induction fuel generalizing fuel' off off' data s with
  | zero =>
    obtain rfl : data = [] := List.length_eq_zero_iff.mp (Nat.le_zero.mp hfuel)
    cases fuel' <;> rfl
  | succ fuel ih =>
    cases data with
    | nil => cases fuel' <;> rfl
    | cons b rest =>
      rw [List.length_cons] at hfuel hfuel'
      obtain ⟨fuel', rfl⟩ : ∃ k, fuel' = k + 1 := ⟨fuel' - 1, by omega⟩
      simp only [parseItems]
      split
      · split
        · rename_i payloadSize tag payload
          simp only [List.length_cons] at hfuel hfuel'
          split
          · rfl
          · apply ih <;> rw [List.length_drop] <;> omega
        · rfl
      · split
        · rfl
        · have hitem := (parseItem_toOption off b.toNat
            (readUnsignedItem (rest.take (hidItemDataSize b.toNat))) s).trans
            (parseItem_toOption off' b.toNat _ s).symm
          revert hitem
          cases parseItem off b.toNat (readUnsignedItem (rest.take (hidItemDataSize b.toNat))) s <;>
            cases parseItem off' b.toNat (readUnsignedItem (rest.take (hidItemDataSize b.toNat))) s <;>
            intro hitem <;> cases hitem
          · rfl
          · apply ih <;> rw [List.length_drop] <;> omega

theorem parsed_cons (item : Item) (rest : List UInt8) (s : ParserState) :
    parsed (item.bytes ++ rest) s = (effect item s).bind (parsed rest) := by
  have hpos := item.bytes_pos
  rw [parsed, @parseItems_toOption _ (rest.length + item.bytes.length - 1 + 1) 0 0 _ s (Nat.le_refl _)
    (by rw [List.length_append]; omega), parseItems_cons, effect]
  cases applyItem 0 item s with
  | error e => rfl
  | ok s' => exact parseItems_toOption _ 0 s' (by omega) (Nat.le_refl _)

theorem parsed_flatMap (items : List Item) (rest : List UInt8) (s : ParserState) :
    parsed (items.flatMap Item.bytes ++ rest) s =
      (applyItems 0 items s).toOption.bind (parsed rest) := by
  have happly : ∀ off, (applyItems off items s).toOption.bind (parsed rest) =
      parsed (items.flatMap Item.bytes ++ rest) s := by
    induction items generalizing s with
    | nil => exact fun _ => rfl
    | cons item items ih =>
      intro off
      rw [List.flatMap_cons, List.append_assoc, parsed_cons, ← applyItem_toOption off, applyItems]
      cases applyItem off item s with
      | error e => rfl
      | ok s' => exact ih s' _
  exact (happly 0).symm

/-- What the end of the loop makes of the state. -/
def finish (s : ParserState) : Option HIDReportMap :=
  if s.collectionStack ≠ [] ∨ s.map.reports = [] then none else some s.map

theorem parseReportMapData_eq (data : List UInt8) :
    parseReportMapData (.bytes data) =
      if data.length = 0 ∨ data.length > maxDescriptorBytes then none else (parsed data {}).bind finish := by
  rw [parseReportMapData, parsed]
  split
  · rfl
  · cases parseItems data.length 0 data {} <;> rfl

/-! ## Global items -/

namespace Item

/-- Type and tag of a short item. -/
def tagBits : Item → Nat
  | .short prefixByte .. => prefixByte.toNat &&& 0xFC
  | .long .. => 0xFC

def isGlobal : Item → Bool
  | .short prefixByte .. => prefixByte.toNat &&& 0x0C == 0x04
  | .long .. => false

/-- A Global item that sets one of the globals, or a reserved one. -/
def setsGlobal (item : Item) : Bool := item.isGlobal && item.tag != .push && item.tag != .pop

end Item

/-- The known Global items, apart from Push and Pop. -/
def ItemTag.setsGlobal : ItemTag → Bool
  | .usagePage | .logicalMinimum | .logicalMaximum | .physicalMinimum | .physicalMaximum | .unitExponent
  | .unit | .reportSize | .reportId | .reportCount => true
  | _ => false

theorem itemTag_setsGlobal : ∀ p < 256, (p &&& 0x0C == 0x04 && itemTag p != .push && itemTag p != .pop) = true →
    (itemTag p).setsGlobal = true ∨ itemTag p = .unknown := by
  decide +kernel

/-- The type and tag bits, 0 for a reserved item. -/
def ItemTag.bits : ItemTag → Nat
  | .usagePage => 0x04
  | .logicalMinimum => 0x14
  | .logicalMaximum => 0x24
  | .physicalMinimum => 0x34
  | .physicalMaximum => 0x44
  | .unitExponent => 0x54
  | .unit => 0x64
  | .reportSize => 0x74
  | .reportId => 0x84
  | .reportCount => 0x94
  | _ => 0

theorem itemTag_bits : ∀ p < 256, (itemTag p).setsGlobal = true → p &&& 0xFC = (itemTag p).bits := by
  decide +kernel

namespace Item

/-- The data of a Minimum item. -/
def minimum : Item → Int
  | .short p data .. => decodeSignedHidItem (readUnsignedItem data) p.toNat
  | .long .. => 0

/-- The data of a Maximum item, under a Minimum. -/
def maximumUnder (minimum : Int) : Item → Int
  | .short p data .. => signedOrUnsignedMax (readUnsignedItem data) p.toNat minimum
  | .long .. => 0

/-- A range behind the item, which may carry its Minimum or its Maximum. -/
def writeRange (item : Item) (isMinimum isMaximum : Bool) (range : HIDRange) : HIDRange where
  minimum := if isMinimum then item.minimum else range.minimum
  maximum := if isMaximum then item.maximumUnder range.minimum else range.maximum

def write (item : Item) (g : GlobalState) : GlobalState where
  usagePage := if item.tag = .usagePage then item.raw else g.usagePage
  logical := item.writeRange (item.tag = .logicalMinimum) (item.tag = .logicalMaximum) g.logical
  physical := item.writeRange (item.tag = .physicalMinimum) (item.tag = .physicalMaximum) g.physical
  unitExponent := if item.tag = .unitExponent then decodeUnitExponent item.raw else g.unitExponent
  unit := if item.tag = .unit then item.raw else g.unit
  reportSize := if item.tag = .reportSize then item.raw else g.reportSize
  reportCount := if item.tag = .reportCount then item.raw else g.reportCount
  reportId := if item.tag = .reportId then item.raw else g.reportId

def usesReportId (item : Item) (m : HIDReportMap) : HIDReportMap :=
  { m with usesReportIds := m.usesReportIds || decide (item.tag = .reportId) }

def accepted (item : Item) : Bool :=
  decide ((item.tag = .usagePage → item.raw ≤ 65535) ∧ (item.tag = .reportId → 1 ≤ item.raw ∧ item.raw ≤ 255))

end Item

theorem effect_global {item : Item} (h : item.setsGlobal = true) (s : ParserState) :
    effect item s = if item.accepted then
      some { s with map := item.usesReportId s.map, globals := item.write s.globals }
    else none := by
  cases item with
  | long => cases h
  | short p data hlong hdata =>
    have htag := itemTag_setsGlobal p.toNat p.toNat_lt h
    have hglobal : p.toNat &&& 0x0C = 0x04 := by
      have hall := h
      simp only [Item.setsGlobal, Item.isGlobal, Bool.and_eq_true, beq_iff_eq] at hall
      exact hall.1.1
    unfold effect applyItem
    cases hp : itemTag p.toNat <;> rw [hp] at htag <;>
      simp only [parseItem, Item.accepted, Item.usesReportId, Item.write, Item.writeRange, Item.tag,
        Item.raw, Item.minimum, Item.maximumUnder, hp]
    case usagePage =>
      by_cases hraw : readUnsignedItem data > 65535
      · simp [hraw, Nat.not_le.mpr hraw, fail_toOption]
      · simp [hraw, Nat.not_lt.mp hraw, setGlobals, Except.toOption]
    case reportId =>
      by_cases hraw : readUnsignedItem data = 0 ∨ readUnsignedItem data > 255
      · have hbad : ¬ (1 ≤ readUnsignedItem data ∧ readUnsignedItem data ≤ 255) := by omega
        simp [hraw, fail_toOption, hbad]
      · have hok : 1 ≤ readUnsignedItem data ∧ readUnsignedItem data ≤ 255 := by omega
        simp [hraw, setGlobals, Except.toOption, hok]
    case unknown => simp [hglobal, Except.toOption]
    all_goals first | simp [setGlobals, Except.toOption]; done | rcases htag with h | h <;> cases h

/-! ## Neighbours -/

/-- A Minimum and the Maximum of its range, and the Maximum decodes differently under the Minimum in force
before the two and under the new one. -/
def RangeClash (g : GlobalState) (lo hi : Item) : Prop :=
  (lo.tag = .logicalMinimum ∧ hi.tag = .logicalMaximum ∧
    hi.maximumUnder g.logical.minimum ≠ hi.maximumUnder lo.minimum) ∨
  (lo.tag = .physicalMinimum ∧ hi.tag = .physicalMaximum ∧
    hi.maximumUnder g.physical.minimum ≠ hi.maximumUnder lo.minimum)

theorem ite_comm_of_not_and {α : Type} {p q : Prop} [Decidable p] [Decidable q] (h : ¬ (p ∧ q))
    (x y z : α) : (if p then x else if q then y else z) = if q then y else if p then x else z := by
  by_cases hp : p
  · have hq : ¬ q := fun hq => h ⟨hp, hq⟩
    simp only [hp, hq, if_true, if_false]
  · simp only [hp, if_false]

theorem Item.writeRange_comm (a b : Item) {amin amax bmin bmax : Bool} (hmin : ¬ (amin ∧ bmin))
    (hmax : ¬ (amax ∧ bmax)) {range : HIDRange}
    (hab : amin → bmax → b.maximumUnder range.minimum = b.maximumUnder a.minimum)
    (hba : bmin → amax → a.maximumUnder range.minimum = a.maximumUnder b.minimum) :
    a.writeRange amin amax (b.writeRange bmin bmax range) =
      b.writeRange bmin bmax (a.writeRange amin amax range) := by
  unfold Item.writeRange
  cases amin <;> cases amax <;> cases bmin <;> cases bmax <;> simp_all

theorem tag_ne {a b : Item} (ha : a.setsGlobal = true) (hb : b.setsGlobal = true)
    (hne : a.tagBits ≠ b.tagBits) {tag : ItemTag} (htag : tag.setsGlobal = true) :
    ¬ (a.tag = tag ∧ b.tag = tag) := by
  cases a with
  | long => cases ha
  | short p data =>
    cases b with
    | long => cases hb
    | short q data' =>
      rintro ⟨hp, hq⟩
      simp only [Item.tag] at hp hq
      apply hne
      simp only [Item.tagBits]
      rw [itemTag_bits p.toNat p.toNat_lt (hp ▸ htag), itemTag_bits q.toNat q.toNat_lt (hq ▸ htag), hp, hq]

theorem Item.write_comm {a b : Item} (ha : a.setsGlobal = true) (hb : b.setsGlobal = true)
    (hne : a.tagBits ≠ b.tagBits) {g : GlobalState} (hab : ¬ RangeClash g a b) (hba : ¬ RangeClash g b a) :
    a.write (b.write g) = b.write (a.write g) := by
  have hdiff : ∀ tag : ItemTag, tag.setsGlobal = true → ¬ (a.tag = tag ∧ b.tag = tag) :=
    fun tag => tag_ne ha hb hne
  simp only [RangeClash, not_or, not_and, Decidable.not_not] at hab hba
  have hlogical : a.writeRange (a.tag = .logicalMinimum) (a.tag = .logicalMaximum)
      (b.writeRange (b.tag = .logicalMinimum) (b.tag = .logicalMaximum) g.logical) =
      b.writeRange (b.tag = .logicalMinimum) (b.tag = .logicalMaximum)
        (a.writeRange (a.tag = .logicalMinimum) (a.tag = .logicalMaximum) g.logical) := by
    apply a.writeRange_comm b <;> simp only [decide_eq_true_eq]
    exacts [hdiff _ rfl, hdiff _ rfl, hab.1, hba.1]
  have hphysical : a.writeRange (a.tag = .physicalMinimum) (a.tag = .physicalMaximum)
      (b.writeRange (b.tag = .physicalMinimum) (b.tag = .physicalMaximum) g.physical) =
      b.writeRange (b.tag = .physicalMinimum) (b.tag = .physicalMaximum)
        (a.writeRange (a.tag = .physicalMinimum) (a.tag = .physicalMaximum) g.physical) := by
    apply a.writeRange_comm b <;> simp only [decide_eq_true_eq]
    exacts [hdiff _ rfl, hdiff _ rfl, hab.2, hba.2]
  simp only [Item.write, GlobalState.mk.injEq]
  exact ⟨ite_comm_of_not_and (hdiff _ rfl) .., hlogical, hphysical, ite_comm_of_not_and (hdiff _ rfl) ..,
    ite_comm_of_not_and (hdiff _ rfl) .., ite_comm_of_not_and (hdiff _ rfl) ..,
    ite_comm_of_not_and (hdiff _ rfl) .., ite_comm_of_not_and (hdiff _ rfl) ..⟩

theorem Item.usesReportId_comm (a b : Item) (m : HIDReportMap) :
    a.usesReportId (b.usesReportId m) = b.usesReportId (a.usesReportId m) := by
  simp only [Item.usesReportId, Bool.or_right_comm]

theorem effect_pair {a b : Item} (ha : a.setsGlobal = true) (hb : b.setsGlobal = true) (s : ParserState) :
    (effect a s).bind (effect b) = if a.accepted && b.accepted then
      some { s with map := b.usesReportId (a.usesReportId s.map), globals := b.write (a.write s.globals) }
    else none := by
  rw [effect_global ha]
  cases a.accepted with
  | false => rfl
  | true =>
    simp only [if_true, Option.bind_some, effect_global hb, Bool.true_and]

end HidParser

/-! ## Up to the maxima -/

def HIDRange.withoutMaximum (range : HIDRange) : HIDRange := { range with maximum := 0 }

def HIDFieldSchema.withoutMaxima (f : HIDFieldSchema) : HIDFieldSchema :=
  { f with logical := f.logical.withoutMaximum, physical := f.physical.withoutMaximum }

/-- The map with the logical and physical maxima of its fields left out. -/
def HIDReportMap.withoutMaxima (m : HIDReportMap) : HIDReportMap :=
  { m with fields := m.fields.map HIDFieldSchema.withoutMaxima }

namespace HidParser

def GlobalState.withoutMaxima (g : GlobalState) : GlobalState :=
  { g with logical := g.logical.withoutMaximum, physical := g.physical.withoutMaximum }

def ParserState.withoutMaxima (s : ParserState) : ParserState :=
  { s with
    map := s.map.withoutMaxima
    globals := s.globals.withoutMaxima
    globalStack := s.globalStack.map GlobalState.withoutMaxima }

section
variable (s : ParserState)

theorem ParserState.withoutMaxima_idem : s.withoutMaxima.withoutMaxima = s.withoutMaxima := by
  have hfields : HIDFieldSchema.withoutMaxima ∘ HIDFieldSchema.withoutMaxima =
      HIDFieldSchema.withoutMaxima := rfl
  have hglobals : GlobalState.withoutMaxima ∘ GlobalState.withoutMaxima = GlobalState.withoutMaxima := rfl
  simp only [ParserState.withoutMaxima, HIDReportMap.withoutMaxima, List.map_map, hfields, hglobals]
  rfl

/-- What keeps the reports does not matter to a search for one. -/
theorem findOrAddReport_erased {f : HIDReportMap → HIDReportMap} (hreports : ∀ m, (f m).reports = m.reports)
    (hpush : ∀ m reports, f { m with reports } = { f m with reports }) (m : HIDReportMap) (kind : HIDReportKind)
    (reportId : Nat) : findOrAddReport (f m) kind reportId = (findOrAddReport m kind reportId).map f := by
  have hfind : (f m).findReport kind reportId = m.findReport kind reportId := by
    unfold HIDReportMap.findReport
    rw [hreports]
  simp only [findOrAddReport, hfind, hreports]
  split
  · rfl
  · split
    · rfl
    · exact congrArg some (hpush m _).symm

theorem declareField_withoutMaxima (m : HIDReportMap) (kind : HIDReportKind) (raw n : Nat) :
    declareField s.withoutMaxima m.withoutMaxima kind raw n =
      (declareField s m kind raw n).withoutMaxima := by
  simp only [declareField, ParserState.withoutMaxima, HIDReportMap.withoutMaxima, List.map_append,
    List.map_singleton, makeField, List.length_map]
  rfl

theorem parseDataItem_withoutMaxima (kind : HIDReportKind) (raw : Nat) :
    (parseDataItem 0 kind raw s.withoutMaxima).toOption =
      (parseDataItem 0 kind raw s).toOption.map ParserState.withoutMaxima := by
  have hsize : s.withoutMaxima.globals.reportSize = s.globals.reportSize := rfl
  have hcount : s.withoutMaxima.globals.reportCount = s.globals.reportCount := rfl
  have hid : s.withoutMaxima.globals.reportId = s.globals.reportId := rfl
  have hopen : s.withoutMaxima.locals.delimiterOpen = s.locals.delimiterOpen := rfl
  have hmap : s.withoutMaxima.map = s.map.withoutMaxima := rfl
  have hreport := @findOrAddReport_erased HIDReportMap.withoutMaxima (fun _ => rfl) fun _ _ => rfl
  simp only [parseDataItem, hsize, hcount, hid, hopen, hmap, hreport]
  split
  · rfl
  · split
    · rfl
    · cases findOrAddReport s.map kind s.globals.reportId with
      | none => rfl
      | some m =>
        have hlength : m.withoutMaxima.fields.length = m.fields.length := List.length_map _
        have hfind : m.withoutMaxima.findReport kind s.globals.reportId =
            m.findReport kind s.globals.reportId := rfl
        simp only [Option.map_some, hlength, hfind]
        split
        · rfl
        · split
          · rfl
          · exact congrArg some (declareField_withoutMaxima s m kind raw _)

/-- An item that is not a Maximum does not look at one. -/
theorem parseItem_withoutMaxima {p raw : Nat} (hlogical : itemTag p ≠ .logicalMaximum)
    (hphysical : itemTag p ≠ .physicalMaximum) :
    (parseItem 0 p raw s.withoutMaxima).toOption =
      (parseItem 0 p raw s).toOption.map ParserState.withoutMaxima := by
  have hcollections : s.withoutMaxima.map.collections = s.map.collections := rfl
  have hopened : s.withoutMaxima.collectionStack = s.collectionStack := rfl
  have hsaved : s.withoutMaxima.globalStack = s.globalStack.map GlobalState.withoutMaxima := rfl
  have hlocals : s.withoutMaxima.locals = s.locals := rfl
  simp only [parseItem]
  revert hlogical hphysical
  cases itemTag p with
  | logicalMaximum => exact fun h => absurd rfl h
  | physicalMaximum => exact fun _ h => absurd rfl h
  -- the declared field copies the maxima, which the erasure forgets on both sides
  | data kind => exact fun _ _ => parseDataItem_withoutMaxima s kind raw
  | delimiter =>
    intro _ _
    simp only [parseDelimiter, hlocals]
    split
    · split <;> rfl
    · split
      · split <;> rfl
      · rfl
  | collection =>
    intro _ _
    simp only [parseCollection, hcollections, hopened]
    split <;> rfl
  | endCollection =>
    intro _ _
    simp only [parseEndCollection, hopened]
    split <;> rfl
  | usagePage => intro _ _; simp only; split <;> rfl
  | reportId => intro _ _; simp only; split <;> rfl
  | push => intro _ _; simp only [hsaved, List.length_map]; split <;> rfl
  | pop =>
    -- erasing commutes with the restored state as with the current one
    intro _ _
    simp only [hsaved]
    cases s.globalStack <;> rfl
  | unknown => intro _ _; simp only; split <;> rfl
  | _ => exact fun _ _ => rfl

theorem withoutMaxima_globals {g g' : GlobalState} (h : g.withoutMaxima = g'.withoutMaxima) :
    ParserState.withoutMaxima { s.withoutMaxima with globals := g } =
      ParserState.withoutMaxima { s with globals := g' } := by
  calc ParserState.withoutMaxima { s.withoutMaxima with globals := g }
      = { s.withoutMaxima.withoutMaxima with globals := g.withoutMaxima } := rfl
    _ = { s.withoutMaxima with globals := g'.withoutMaxima } := by rw [s.withoutMaxima_idem, h]

/-- Whatever the item does, it does the same up to the maxima. -/
theorem effect_withoutMaxima (item : Item) :
    (effect item s.withoutMaxima).map ParserState.withoutMaxima =
      (effect item s).map ParserState.withoutMaxima := by
  have hidem : ParserState.withoutMaxima ∘ ParserState.withoutMaxima = ParserState.withoutMaxima :=
    funext ParserState.withoutMaxima_idem
  cases item with
  | long => exact congrArg some s.withoutMaxima_idem
  | short p data hlong hdata =>
    by_cases hmax : itemTag p.toNat = .logicalMaximum ∨ itemTag p.toNat = .physicalMaximum
    · unfold effect applyItem
      rcases hmax with hmax | hmax <;>
        simp only [parseItem, hmax, setGlobals, Except.toOption, Option.map_some] <;>
        exact congrArg some (withoutMaxima_globals s rfl)
    · obtain ⟨hlogical, hphysical⟩ := not_or.mp hmax
      unfold effect applyItem
      rw [parseItem_withoutMaxima s hlogical hphysical, Option.map_map, hidem]

end

theorem effect_congr {s t : ParserState} (h : s.withoutMaxima = t.withoutMaxima) (item : Item) :
    (effect item s).map ParserState.withoutMaxima = (effect item t).map ParserState.withoutMaxima := by
  rw [← effect_withoutMaxima s item, h, effect_withoutMaxima t item]

theorem parsed_not_items {data : List UInt8} (h : ¬ ∃ items : List Item, data = items.flatMap Item.bytes)
    (s : ParserState) : parsed data s = none := by
  rw [parsed]
  cases hs : parseItems data.length 0 data s with
  | error e => rfl
  | ok s' => exact absurd (parseItems_items hs) h

/-- States that differ in maxima only are taken to such states, by any bytes. -/
theorem parsed_congr {s t : ParserState} (h : s.withoutMaxima = t.withoutMaxima) (data : List UInt8) :
    (parsed data s).map ParserState.withoutMaxima = (parsed data t).map ParserState.withoutMaxima := by
  by_cases hitems : ∃ items : List Item, data = items.flatMap Item.bytes
  · obtain ⟨items, rfl⟩ := hitems
    induction items generalizing s t with
    | nil => exact congrArg some h
    | cons item items ih =>
      have hitem := effect_congr h item
      rw [List.flatMap_cons, parsed_cons, parsed_cons]
      revert hitem
      cases effect item s <;> cases effect item t <;> intro hitem
      · rfl
      · cases hitem
      · cases hitem
      · exact ih (Option.some_inj.mp hitem)
  · rw [parsed_not_items hitems, parsed_not_items hitems]

/-! ## The exchange -/

theorem finish_congr {s t : ParserState} (h : s.withoutMaxima = t.withoutMaxima) :
    (finish s).map HIDReportMap.withoutMaxima = (finish t).map HIDReportMap.withoutMaxima := by
  have hstack : s.withoutMaxima.collectionStack = t.withoutMaxima.collectionStack := by rw [h]
  have hmap : s.withoutMaxima.map = t.withoutMaxima.map := by rw [h]
  have hreports : s.withoutMaxima.map.reports = t.withoutMaxima.map.reports := by rw [h]
  change s.collectionStack = t.collectionStack at hstack
  change s.map.reports = t.map.reports at hreports
  rw [finish, finish, hstack, hreports]
  split
  · rfl
  · exact congrArg some hmap

theorem Item.write_withoutMaxima_comm {a b : Item} (ha : a.setsGlobal = true) (hb : b.setsGlobal = true)
    (hne : a.tagBits ≠ b.tagBits) (g : GlobalState) :
    (a.write (b.write g)).withoutMaxima = (b.write (a.write g)).withoutMaxima := by
  have hdiff : ∀ tag : ItemTag, tag.setsGlobal = true → ¬ (a.tag = tag ∧ b.tag = tag) :=
    fun tag => tag_ne ha hb hne
  simp only [GlobalState.withoutMaxima, HIDRange.withoutMaximum, Item.write, Item.writeRange,
    decide_eq_true_eq]
  rw [ite_comm_of_not_and (hdiff .usagePage rfl), ite_comm_of_not_and (hdiff .logicalMinimum rfl),
    ite_comm_of_not_and (hdiff .physicalMinimum rfl), ite_comm_of_not_and (hdiff .unitExponent rfl),
    ite_comm_of_not_and (hdiff .unit rfl), ite_comm_of_not_and (hdiff .reportSize rfl),
    ite_comm_of_not_and (hdiff .reportCount rfl), ite_comm_of_not_and (hdiff .reportId rfl)]

/-- The descriptor with `a` in front of `b`. -/
def descriptorWith (before : List Item) (a b : Item) (rest : List UInt8) : List UInt8 :=
  before.flatMap Item.bytes ++ (a.bytes ++ (b.bytes ++ rest))

theorem parsed_descriptorWith (before : List Item) (a b : Item) (rest : List UInt8) (s : ParserState) :
    parsed (descriptorWith before a b rest) s =
      (applyItems 0 before s).toOption.bind fun s' => ((effect a s').bind (effect b)).bind (parsed rest) := by
  rw [descriptorWith, parsed_flatMap]
  congr 1
  funext s'
  rw [parsed_cons, Option.bind_assoc]
  congr 1
  funext s''
  rw [parsed_cons]

theorem descriptorWith_length (before : List Item) (a b : Item) (rest : List UInt8) :
    (descriptorWith before a b rest).length = (descriptorWith before b a rest).length := by
  simp only [descriptorWith, List.length_append]
  omega

/-- Exchanging two neighbouring Global items changes nothing but maxima, and those only where a Maximum
is decoded under another sign. -/
theorem parse_exchange_globals (before : List Item) (a b : Item) (rest : List UInt8)
    (ha : a.setsGlobal = true) (hb : b.setsGlobal = true) (hne : a.tagBits ≠ b.tagBits) :
    (parseReportMapData (.bytes (descriptorWith before a b rest))).map HIDReportMap.withoutMaxima =
        (parseReportMapData (.bytes (descriptorWith before b a rest))).map HIDReportMap.withoutMaxima ∧
      ((∀ s, applyItems 0 before {} = .ok s → ¬ RangeClash s.globals a b ∧ ¬ RangeClash s.globals b a) →
        parseReportMapData (.bytes (descriptorWith before a b rest)) =
          parseReportMapData (.bytes (descriptorWith before b a rest))) := by
  rw [parseReportMapData_eq, parseReportMapData_eq, descriptorWith_length before a b, parsed_descriptorWith,
    parsed_descriptorWith]
  cases hbefore : applyItems 0 before {} with
  | error e => exact ⟨rfl, fun _ => rfl⟩
  | ok s =>
    simp only [Except.toOption, Option.bind_some, effect_pair ha hb, effect_pair hb ha, Bool.and_comm a.accepted,
      a.usesReportId_comm b]
    split
    · exact ⟨rfl, fun _ => rfl⟩
    · split
      · simp only [Option.bind_some]
        refine ⟨?_, fun hclash => ?_⟩
        · have hswap := (Item.write_withoutMaxima_comm ha hb hne s.globals).symm
          generalize b.usesReportId (a.usesReportId s.map) = m
          have hstates : ParserState.withoutMaxima { s with map := m, globals := b.write (a.write s.globals) } =
              ParserState.withoutMaxima { s with map := m, globals := a.write (b.write s.globals) } := by
            simp only [ParserState.withoutMaxima, hswap]
          have hrest := parsed_congr hstates rest
          revert hrest
          cases parsed rest { s with map := m, globals := b.write (a.write s.globals) } <;>
            cases parsed rest { s with map := m, globals := a.write (b.write s.globals) } <;> intro hrest
          · rfl
          · cases hrest
          · cases hrest
          · exact finish_congr (Option.some_inj.mp hrest)
        · obtain ⟨hab, hba⟩ := hclash s rfl
          rw [Item.write_comm ha hb hne hab hba]
      · exact ⟨rfl, fun _ => rfl⟩

theorem minimum_short : (0x15 : UInt8) ≠ 0xFE := by decide

theorem maximum_short : (0x25 : UInt8) ≠ 0xFE := by decide

/-- Logical Minimum and Logical Maximum with one data byte. -/
def minimumItem (value : UInt8) : Item := .short 0x15 [value] minimum_short rfl

def maximumItem (value : UInt8) : Item := .short 0x25 [value] maximum_short rfl

/-- Report Size 8, Report Count 1, Input. -/
def oneByteField : List UInt8 := [0x75, 0x08, 0x95, 0x01, 0x81, 0x02]

theorem parse_exchange_globals_unsigned :
    parseReportMapData (.bytes (descriptorWith [] (minimumItem 0) (maximumItem 0x7F) oneByteField)) =
      parseReportMapData (.bytes (descriptorWith [] (maximumItem 0x7F) (minimumItem 0) oneByteField)) := by
  refine (parse_exchange_globals [] (minimumItem 0) (maximumItem 0x7F) oneByteField (by decide) (by decide)
    (by decide)).2 ?_
  rintro s ⟨⟩
  unfold RangeClash
  decide

/-- A Maximum in front of its negative Minimum is taken for an unsigned number. -/
theorem parse_exchange_sign :
    (minimumItem 0x81).setsGlobal = true ∧ (maximumItem 0xFF).setsGlobal = true ∧
    (minimumItem 0x81).tagBits ≠ (maximumItem 0xFF).tagBits ∧
    (parseReportMapData (.bytes (descriptorWith [] (minimumItem 0x81) (maximumItem 0xFF) oneByteField))).map
      (fun m => m.fields.map (·.logical)) = some [{ minimum := -127, maximum := -1 }] ∧
    (parseReportMapData (.bytes (descriptorWith [] (maximumItem 0xFF) (minimumItem 0x81) oneByteField))).map
      (fun m => m.fields.map (·.logical)) = some [{ minimum := -127, maximum := 255 }] := by
  decide +kernel

end HidParser

end BleClientHid
