import BleClientHid.HidParser.Acceptance
import BleClientHid.HidParser.Variables
import Mathlib.Data.List.Forall2

/-! # Which usage an element gets

The usages that the items name in order, and what the parser keeps of them: the
Usage items in a list, and the last Minimum and Maximum.
-/

namespace BleClientHid

namespace HidParser

open HIDReportMap

/-! ## The usages named by the items -/

def usageRange (lo hi : HIDUsage) : List HIDUsage :=
  if lo.page = hi.page ∧ lo.usage ≤ hi.usage then
    (List.range (hi.usage - lo.usage + 1)).map fun i => { usage := lo.usage + i, page := lo.page }
  else []

/-- What the items since the last Main item say about usages. -/
structure UsageScan where
  page : Nat := 0
  saved : List Nat := []
  named : List HIDUsage := []
  /-- A Usage Minimum that no Usage Maximum has followed yet. -/
  pending : Option HIDUsage := none
  list : List HIDUsage := []
  minimum : Option HIDUsage := none
  maximum : Option HIDUsage := none
  deriving DecidableEq, Repr

def Item.usage (page : Nat) : Item → HIDUsage
  | .short prefixByte data .. => decodeUsage (readUnsignedItem data) (hidItemDataSize prefixByte.toNat) page
  | .long .. => {}

namespace UsageScan

def endRange (scan : UsageScan) (hi : HIDUsage) : List HIDUsage :=
  match scan.pending with
  | none => []
  | some lo => usageRange lo hi

def note (scan : UsageScan) (item : Item) : UsageScan :=
  let usage := item.usage scan.page
  match item.tag with
  | .usagePage => { scan with page := item.raw }
  | .push => { scan with saved := scan.page :: scan.saved }
  | .pop => { scan with page := scan.saved.headD scan.page, saved := scan.saved.tail }
  | .usage => { scan with named := scan.named ++ [usage], list := scan.list ++ [usage] }
  | .usageMinimum => { scan with pending := some usage, minimum := some usage }
  | .usageMaximum =>
    { scan with named := scan.named ++ scan.endRange usage, pending := none, maximum := some usage }
  | _ => if item.isMain then { page := scan.page, saved := scan.saved } else scan

def lastRange (scan : UsageScan) : List HIDUsage :=
  match scan.minimum, scan.maximum with
  | some lo, some hi => usageRange lo hi
  | _, _ => []

end UsageScan

def Item.isData (item : Item) : Bool :=
  match item.tag with
  | .data _ => true
  | _ => false

def usageScans : UsageScan → List Item → List UsageScan
  | _, [] => []
  | scan, item :: rest => (if item.isData then [scan] else []) ++ usageScans (scan.note item) rest

/-! ## The law and its condition -/

def continued (usages : List HIDUsage) (i : Nat) : HIDUsage := usages.getD i (usages.getLastD {})

/-- The usage that a slot of an array field stands for when it holds `v`. -/
def slotDenotes (f : HIDFieldSchema) (v : Int) : HIDUsage :=
  f.usageAt ((v - f.logical.minimum) % 2 ^ 32).toNat false

def Holdable (f : HIDFieldSchema) (v : Int) : Prop := inRange f v = true ∧ Representable f v

def InDeclarationOrder (named : List HIDUsage) (f : HIDFieldSchema) : Prop :=
  if f.isVariable then named ≠ [] → ∀ i < f.reportCount, f.usageAt i true = continued named i
  else ∀ v, Holdable f v → slotDenotes f v = named.getD (v - f.logical.minimum).toNat {}

/-- The Usage items, or the last range, name the same usages as all the items together, as far as the
field reaches. In an array the range does not start behind the Usage items: it is hidden by them. -/
def UsageScan.Survives (scan : UsageScan) (f : HIDFieldSchema) : Prop :=
  if f.isVariable then scan.named ≠ [] → ∀ i < f.reportCount,
    continued scan.named i = if scan.list = [] then scan.lastRange.getD i {} else continued scan.list i
  else ∀ v, Holdable f v → scan.named.getD (v - f.logical.minimum).toNat {} =
    (scan.list ++ scan.lastRange.drop scan.list.length).getD (v - f.logical.minimum).toNat {}

theorem slotUsage_eq (data : List UInt8) (f : HIDFieldSchema) (i : Nat) :
    slotUsage data f i = (readElement data f i).bind fun v =>
      if (slotDenotes f v).page ≠ 0 ∧ (slotDenotes f v).usage ≠ 0 then some (slotDenotes f v, v) else none := by
  unfold slotUsage
  cases readElement data f i <;> rfl

/-! ## The parser follows the scan -/

structure DeclaredBy (scan : UsageScan) (f : HIDFieldSchema) : Prop where
  usages : f.usages = scan.list
  minimum : f.usageMinimum = scan.minimum.getD {}
  maximum : f.usageMaximum = scan.maximum.getD {}
  hasRange : f.hasUsageRange = (scan.minimum.isSome && scan.maximum.isSome)
  maximumLt : ∀ u ∈ scan.maximum, u.usage < 65536
  logicalMinimum : -2 ^ 31 ≤ f.logical.minimum

theorem usageRange_getD (lo hi : HIDUsage) (i : Nat) :
    (usageRange lo hi).getD i {} =
      if lo.page = hi.page ∧ lo.usage ≤ hi.usage ∧ i ≤ hi.usage - lo.usage then
        { usage := lo.usage + i, page := lo.page }
      else {} := by
  unfold usageRange
  by_cases h : lo.page = hi.page ∧ lo.usage ≤ hi.usage
  · rw [if_pos h, List.getD_eq_getElem?_getD, List.getElem?_map]
    by_cases hi' : i ≤ hi.usage - lo.usage
    · rw [if_pos ⟨h.1, h.2, hi'⟩, List.getElem?_range (by omega)]
      rfl
    · rw [if_neg (fun h => hi' h.2.2), List.getElem?_eq_none (by rw [List.length_range]; omega)]
      rfl
  · rw [if_neg h, if_neg (fun h' => h ⟨h'.1, h'.2.1⟩)]
    rfl

theorem DeclaredBy.range {scan : UsageScan} {f : HIDFieldSchema} (h : DeclaredBy scan f) (i : Nat) :
    (if f.hasUsageRange && f.usageMinimum.page == f.usageMaximum.page &&
        decide (f.usageMaximum.usage ≥ f.usageMinimum.usage) &&
        decide (i ≤ f.usageMaximum.usage - f.usageMinimum.usage) then
      ({ usage := (f.usageMinimum.usage + i) % 65536, page := f.usageMinimum.page } : HIDUsage)
    else {}) = scan.lastRange.getD i {} := by
  have hlt := h.maximumLt
  rw [h.hasRange, h.minimum, h.maximum, UsageScan.lastRange]
  cases hmin : scan.minimum with
  | none => rfl
  | some lo =>
    cases hmax : scan.maximum with
    | none => rfl
    | some hi =>
      have hhi := hlt hi (by rw [hmax]; rfl)
      rw [usageRange_getD]
      simp only [Option.isSome_some, Option.getD_some, Bool.true_and, Bool.and_eq_true, beq_iff_eq,
        decide_eq_true_eq, ge_iff_le, and_assoc]
      split
      · rename_i hin
        rw [Nat.mod_eq_of_lt (by omega)]
      · rfl

theorem DeclaredBy.usageAt_variable {scan : UsageScan} {f : HIDFieldSchema} (h : DeclaredBy scan f) (i : Nat) :
    f.usageAt i true = if scan.list = [] then scan.lastRange.getD i {} else continued scan.list i := by
  have hrange := h.range i
  rw [HIDFieldSchema.usageAt, h.usages]
  cases hlist : scan.list with
  | nil => simpa using hrange
  | cons u us =>
    -- the list hides the range, and its last usage serves everything behind it
    rw [if_neg (List.cons_ne_nil u us), continued, List.getD_eq_getElem?_getD]
    split
    · rename_i hi
      rw [List.getElem?_eq_getElem hi]
      rfl
    · rename_i hi
      rw [List.getElem?_eq_none (Nat.le_of_not_lt hi)]
      rfl

theorem DeclaredBy.usageAt_array {scan : UsageScan} {f : HIDFieldSchema} (h : DeclaredBy scan f) (i : Nat) :
    f.usageAt i false = (scan.list ++ scan.lastRange.drop scan.list.length).getD i {} := by
  rw [HIDFieldSchema.usageAt, h.usages, List.getD_eq_getElem?_getD, List.getElem?_append]
  split
  · rename_i hi
    rw [List.getElem?_eq_getElem hi]
    rfl
  · rename_i hi
    rw [if_neg (by simp), List.getElem?_drop, Nat.add_sub_cancel' (Nat.le_of_not_lt hi),
      ← List.getD_eq_getElem?_getD]
    exact h.range i

theorem slotDenotes_eq {f : HIDFieldSchema} (hs : f.reportSize ≤ 32) (hmin : -2 ^ 31 ≤ f.logical.minimum)
    {v : Int} (hv : Holdable f v) : slotDenotes f v = f.usageAt (v - f.logical.minimum).toNat false := by
  obtain ⟨hin, hrep⟩ := hv
  have hpow : (2 : Int) ^ f.reportSize ≤ 2 ^ 32 := pow_le_pow_right₀ (by norm_num) hs
  have hpow' : (2 : Int) ^ (f.reportSize - 1) ≤ 2 ^ 31 := pow_le_pow_right₀ (by norm_num) (by omega)
  simp only [inRange, decide_eq_true_eq] at hin
  rw [slotDenotes, Int.emod_eq_of_lt (by omega)]
  unfold Representable isSigned at hrep
  -- signed or not, the value is less than 2^32 above the minimum
  by_cases hneg : f.logical.minimum < 0
  · rw [if_pos (by simpa using hneg)] at hrep
    omega
  · rw [if_neg (by simpa using hneg)] at hrep
    omega

theorem DeclaredBy.inDeclarationOrder_iff {scan : UsageScan} {f : HIDFieldSchema} (h : DeclaredBy scan f)
    (hs : f.reportSize ≤ 32) : InDeclarationOrder scan.named f ↔ scan.Survives f := by
  unfold InDeclarationOrder UsageScan.Survives
  split
  · -- variable elements are looked up by their position
    simp only [h.usageAt_variable]
    constructor
    · exact fun hlaw hne i hi => (hlaw hne i hi).symm
    · exact fun hlaw hne i hi => (hlaw hne i hi).symm
  · -- array slots by what they hold
    constructor
    · intro hlaw v hv
      rw [← hlaw v hv, slotDenotes_eq hs h.logicalMinimum hv, h.usageAt_array]
    · intro hlaw v hv
      rw [slotDenotes_eq hs h.logicalMinimum hv, h.usageAt_array, hlaw v hv]

/-! ## Items -/

/-- The parser's state and the scan after the same items. -/
structure Keeps (scan : UsageScan) (s : ParserState) : Prop where
  page : s.globals.usagePage = scan.page
  saved : s.globalStack.map (·.usagePage) = scan.saved
  sets : s.locals.usageSets = [scan.list]
  active : s.locals.activeUsageSet = 0
  minimum : s.locals.usageMinimum = scan.minimum.getD {}
  maximum : s.locals.usageMaximum = scan.maximum.getD {}
  hasMinimum : s.locals.hasUsageMinimum = scan.minimum.isSome
  hasMaximum : s.locals.hasUsageMaximum = scan.maximum.isSome
  maximumLt : ∀ u ∈ scan.maximum, u.usage < 65536
  logicalMinimum : -2 ^ 31 ≤ s.globals.logical.minimum
  savedMinimum : ∀ g ∈ s.globalStack, -2 ^ 31 ≤ g.logical.minimum

theorem keeps_init : Keeps {} {} := by
  constructor <;> simp

theorem decodeSigned_ge (raw itemInfo : Nat) : -2 ^ 31 ≤ decodeSignedHidItem raw itemInfo := by
  have hsize : hidItemDataSize itemInfo ≤ 4 := by
    have hcode : itemInfo &&& 0x03 ≤ 3 := Nat.and_le_right
    simp only [hidItemDataSize]
    split <;> omega
  simp only [decodeSignedHidItem]
  generalize hidItemDataSize itemInfo = n at hsize
  split
  · omega
  · rename_i hn
    split
    · rename_i hsign
      generalize raw &&& 2 ^ (n * 8) - 1 = value at hsign
      have hbit : 2 ^ (n * 8 - 1) ≤ value := by
        rw [Nat.and_two_pow] at hsign
        have hset : value.testBit (n * 8 - 1) = true := by
          by_contra hclear
          rw [Bool.not_eq_true] at hclear
          simp [hclear] at hsign
        exact Nat.ge_two_pow_of_testBit hset
      -- the sign bit is set, so the value reaches half of the range
      have hsplit : (2 : Int) ^ (n * 8) = 2 * 2 ^ (n * 8 - 1) := Lib.two_pow_eq (by omega)
      have hle : (2 : Int) ^ (n * 8 - 1) ≤ 2 ^ 31 := pow_le_pow_right₀ (by norm_num) (by omega)
      zify at hbit
      omega
    · omega

theorem decodeUsage_lt (raw size page : Nat) : (decodeUsage raw size page).usage < 65536 := by
  unfold decodeUsage
  split <;> exact Nat.mod_lt _ (by omega)

theorem Keeps.main {scan : UsageScan} {s s' : ParserState} (h : Keeps scan s) (hglobals : s'.globals = s.globals)
    (hstack : s'.globalStack = s.globalStack) (hlocals : s'.locals = {}) :
    Keeps { page := scan.page, saved := scan.saved } s' := by
  constructor
  case page => rw [hglobals, h.page]
  case saved => rw [hstack, h.saved]
  case logicalMinimum => rw [hglobals]; exact h.logicalMinimum
  case savedMinimum => rw [hstack]; exact h.savedMinimum
  case maximumLt => simp
  all_goals
    rw [hlocals]
    try rfl

theorem parseDataItem_main {off raw : Nat} {kind : HIDReportKind} {s s' : ParserState}
    (h : parseDataItem off kind raw s = .ok s') :
    s'.globals = s.globals ∧ s'.globalStack = s.globalStack ∧ s'.locals = {} ∧
      ∃ bitOffset, s'.map.fields = s.map.fields ++ [makeField s kind raw bitOffset] := by
  simp only [parseDataItem, fail] at h
  split at h
  · cases h
  split at h
  · cases h
  split at h
  · cases h
  rename_i m hm
  split at h
  · cases h
  split at h
  · cases h
  cases h
  have hfields : m.fields = s.map.fields := by
    unfold findOrAddReport at hm
    split at hm
    · cases hm
      rfl
    · split at hm
      · cases hm
      · cases hm
        rfl
  refine ⟨rfl, rfl, rfl, ((m.findReport kind s.globals.reportId).getD {}).bitSize, ?_⟩
  simp only [declareField, hfields]

theorem applyItem_main {off : Nat} {item : Item} {s s' : ParserState} (hmain : item.isMain = true)
    (h : applyItem off item s = .ok s') :
    s'.globals = s.globals ∧ s'.globalStack = s.globalStack ∧ s'.locals = {} := by
  cases item with
  | long => cases hmain
  | short p data hlong hdata =>
    have hknown := (Item.short p data hlong hdata).isMain_of_tag
    rw [hmain] at hknown
    simp only [Item.tag] at hknown
    simp only [applyItem] at h
    have hbits : p.toNat &&& 0x0C = 0x00 := by simpa [Item.isMain] using hmain
    cases htag : itemTag p.toNat <;> rw [htag] at hknown <;> simp only [parseItem, htag] at h
    case data kind =>
      obtain ⟨hglobals, hstack, hlocals, -⟩ := parseDataItem_main h
      exact ⟨hglobals, hstack, hlocals⟩
    case collection =>
      simp only [parseCollection, fail] at h
      split at h <;> cases h
      exact ⟨rfl, rfl, rfl⟩
    case endCollection =>
      simp only [parseEndCollection, fail] at h
      split at h <;> cases h
      exact ⟨rfl, rfl, rfl⟩
    case unknown =>
      rw [if_pos hbits] at h
      cases h
      exact ⟨rfl, rfl, rfl⟩
    all_goals cases hknown (by simp)

theorem UsageScan.note_main (scan : UsageScan) {item : Item} (hmain : item.isMain = true) :
    scan.note item = { page := scan.page, saved := scan.saved } := by
  have hknown := item.isMain_of_tag
  rw [hmain] at hknown
  unfold UsageScan.note
  cases htag : item.tag <;> rw [htag] at hknown <;> simp only [hmain, if_true]
  all_goals cases hknown (by simp)

theorem Keeps.step {scan : UsageScan} {s s' : ParserState} {off : Nat} {item : Item} (h : Keeps scan s)
    (hdelim : item.tag ≠ .delimiter) (hs : applyItem off item s = .ok s') : Keeps (scan.note item) s' := by
  by_cases hmain : item.isMain = true
  · obtain ⟨hglobals, hstack, hlocals⟩ := applyItem_main hmain hs
    rw [scan.note_main hmain]
    exact h.main hglobals hstack hlocals
  cases item with
  | long =>
    cases hs
    exact h
  | short p data hlong hdata =>
    have hknown := (Item.short p data hlong hdata).isMain_of_tag
    have hmin := decodeSigned_ge (readUnsignedItem data) p.toNat
    have husage := decodeUsage_lt (readUnsignedItem data) (hidItemDataSize p.toNat) scan.page
    simp only [applyItem] at hs
    simp only [Item.tag] at hdelim hknown
    cases htag : itemTag p.toNat <;> rw [htag] at hknown hdelim <;>
      simp only [parseItem, htag, fail] at hs <;>
      simp only [UsageScan.note, Item.tag, Item.raw, Item.usage, htag, if_neg hmain]
    case delimiter => exact absurd rfl hdelim
    case data => exact absurd (hknown (by simp)) hmain
    case collection => exact absurd (hknown (by simp)) hmain
    case endCollection => exact absurd (hknown (by simp)) hmain
    case usagePage =>
      split at hs <;> cases hs
      exact { h with page := rfl }
    case reportId =>
      split at hs <;> cases hs
      exact { h with }
    case push =>
      split at hs <;> cases hs
      refine { h with saved := by simp [h.page, h.saved], savedMinimum := ?_ }
      exact List.forall_mem_cons.mpr ⟨h.logicalMinimum, h.savedMinimum⟩
    case pop =>
      have hsaved := h.saved
      have hbounds := h.savedMinimum
      split at hs <;> cases hs
      rename_i top rest hstack
      rw [hstack] at hsaved hbounds
      rw [← hsaved]
      obtain ⟨htop, hrest⟩ := List.forall_mem_cons.mp hbounds
      exact { h with page := rfl, saved := rfl, logicalMinimum := htop, savedMinimum := hrest }
    case logicalMinimum =>
      cases hs
      exact { h with logicalMinimum := hmin }
    case usage =>
      cases hs
      exact { h with sets := by simp [LocalState.pushUsage, h.sets, h.active, h.page] }
    case usageMinimum =>
      cases hs
      exact { h with minimum := by simp [h.page], hasMinimum := rfl }
    case usageMaximum =>
      cases hs
      refine { h with maximum := by simp [h.page], hasMaximum := rfl, maximumLt := ?_ }
      rintro u ⟨⟩
      exact husage
    case unknown =>
      rw [if_neg (by simpa [Item.isMain] using hmain)] at hs
      cases hs
      exact h
    -- the other Local and Global items say nothing about usages
    all_goals
      cases hs
      exact { h with }

theorem isData_iff {item : Item} : item.isData = true ↔ ∃ kind, item.tag = .data kind := by
  unfold Item.isData
  cases item.tag <;> simp

theorem Keeps.declares {scan : UsageScan} {s s' : ParserState} {off : Nat} {item : Item} (h : Keeps scan s)
    (hs : applyItem off item s = .ok s') :
    ∃ new, s'.map.fields = s.map.fields ++ new ∧
      List.Forall₂ (fun f scan => DeclaredBy scan f) new (if item.isData then [scan] else []) := by
  by_cases hdata : item.isData = true
  · obtain ⟨kind, htag⟩ := isData_iff.mp hdata
    cases item with
    | long => cases htag
    | short p data =>
      simp only [Item.tag] at htag
      simp only [applyItem, parseItem, htag] at hs
      obtain ⟨-, -, -, bitOffset, hfields⟩ := parseDataItem_main hs
      refine ⟨_, hfields, ?_⟩
      rw [if_pos hdata]
      refine .cons ?_ .nil
      exact {
        usages := by simp [makeField, h.sets]
        minimum := h.minimum
        maximum := h.maximum
        hasRange := by simp [makeField, h.hasMinimum, h.hasMaximum]
        maximumLt := h.maximumLt
        logicalMinimum := h.logicalMinimum }
  · -- a collection, an End Collection and everything that is no Main item declare no field
    refine ⟨[], ?_, by rw [if_neg hdata]; exact .nil⟩
    rw [List.append_nil]
    cases item with
    | long => cases hs; rfl
    | short p data hlong hsize =>
      rcases parseItem_cases hs with ⟨-, hmap, -⟩ | ⟨-, hs⟩ | ⟨-, hs⟩ | ⟨kind, htag, -⟩
      · rw [hmap]
      · simp only [parseCollection, fail] at hs
        split at hs <;> cases hs
        rfl
      · simp only [parseEndCollection, fail] at hs
        split at hs <;> cases hs
        rfl
      · exact absurd ((@isData_iff (.short p data hlong hsize)).mpr ⟨kind, htag⟩) hdata

theorem Keeps.run {scan : UsageScan} {s s' : ParserState} {off : Nat} {items : List Item} (h : Keeps scan s)
    (hdelim : ∀ item ∈ items, item.tag ≠ .delimiter) (hs : applyItems off items s = .ok s') :
    ∃ new, s'.map.fields = s.map.fields ++ new ∧
      List.Forall₂ (fun f scan => DeclaredBy scan f) new (usageScans scan items) := by
  induction items generalizing scan s off with
  | nil =>
    cases hs
    exact ⟨[], (List.append_nil _).symm, .nil⟩
  | cons item items ih =>
    simp only [applyItems] at hs
    split at hs
    · cases hs
    · rename_i s1 hs1
      obtain ⟨hitem, hitems⟩ := List.forall_mem_cons.mp hdelim
      obtain ⟨new1, hfields1, hnew1⟩ := h.declares hs1
      obtain ⟨new, hfields, hnew⟩ := ih (h.step hitem hs1) hitems hs
      refine ⟨new1 ++ new, by rw [hfields, hfields1, List.append_assoc], ?_⟩
      exact List.rel_append hnew1 hnew

/-! ## The law -/

theorem UsageScan.survives_list {scan : UsageScan} (hnamed : scan.named = scan.list)
    (hrange : scan.lastRange = []) (f : HIDFieldSchema) : scan.Survives f := by
  unfold UsageScan.Survives
  rw [hnamed, hrange]
  split
  · intro hne i _
    rw [if_neg hne]
  · intro v _
    rw [List.drop_nil, List.append_nil]

theorem UsageScan.survives_range_iff {scan : UsageScan} (hlist : scan.list = [])
    (hnamed : scan.named = scan.lastRange) (hlast : scan.named.getLastD {} ≠ {}) {f : HIDFieldSchema}
    (hvar : f.isVariable = true) : scan.Survives f ↔ f.reportCount ≤ scan.named.length := by
  have hne : scan.named ≠ [] := by
    intro hnil
    rw [hnil] at hlast
    exact hlast rfl
  unfold UsageScan.Survives
  rw [if_pos hvar, hlist, ← hnamed]
  simp only [if_true]
  constructor
  · intro hall
    by_contra hlong
    -- the element behind the range gets the last usage by the law, and none from the range
    have hend := hall hne scan.named.length (by omega)
    rw [continued, List.getD_eq_default _ _ (Nat.le_refl _), List.getD_eq_default _ _ (Nat.le_refl _)] at hend
    exact hlast hend
  · intro hle _ i hi
    rw [continued, List.getD_eq_getElem _ _ (by omega), List.getD_eq_getElem _ _ (by omega)]

/-- The law of one field. Without Usage Minimum and Maximum it holds; a single range is enough for the elements that
it names, not for those behind it. -/
structure UsageScan.Settles (scan : UsageScan) (f : HIDFieldSchema) : Prop where
  law : InDeclarationOrder scan.named f ↔ scan.Survives f
  list : scan.named = scan.list → scan.lastRange = [] → InDeclarationOrder scan.named f
  range : scan.list = [] → scan.named = scan.lastRange → scan.named.getLastD {} ≠ {} → f.isVariable = true →
    (InDeclarationOrder scan.named f ↔ f.reportCount ≤ scan.named.length)
  slot : ∀ payload i, slotUsage payload f i = (readElement payload f i).bind fun v =>
    if (slotDenotes f v).page ≠ 0 ∧ (slotDenotes f v).usage ≠ 0 then some (slotDenotes f v, v) else none

/-- In every field the usages are assigned in the order of the items exactly when what the parser keeps
of them is enough. -/
theorem usages_in_order_iff (data : List UInt8) (m : HIDReportMap) (h : parseReportMapData (.bytes data) = some m)
    (items : List Item) (hitems : data = items.flatMap Item.bytes)
    (hdelim : ∀ item ∈ items, item.tag ≠ .delimiter) :
    List.Forall₂ (fun f scan => scan.Settles f) m.fields (usageScans {} items) := by
  obtain ⟨hm, -⟩ := parseReportMapData_inv h
  obtain ⟨bytes, s, hbytes, hs, rfl, -⟩ := parseReportMapData_ok h
  cases hbytes
  rw [hitems, parseItems_flatMap (Nat.le_refl _)] at hs
  obtain ⟨new, hfields, hnew⟩ := keeps_init.run hdelim hs
  obtain rfl : s.map.fields = new := hfields
  have hboth := (List.forall₂_and_left _ _).mpr ⟨fun f hf => (hm.fieldSize f hf).2.1, hnew⟩
  refine hboth.imp fun f scan ⟨hsize, hdeclared⟩ => ?_
  have hlaw := hdeclared.inDeclarationOrder_iff hsize
  exact {
    law := hlaw
    list := fun hnamed hrange => hlaw.mpr (UsageScan.survives_list hnamed hrange f)
    range := fun hlist hnamed hlast hvar => hlaw.trans (UsageScan.survives_range_iff hlist hnamed hlast hvar)
    slot := fun payload i => slotUsage_eq payload f i }

def shortItem (prefixByte value : UInt8) (hlong : prefixByte ≠ 0xFE := by decide)
    (hsize : hidItemDataSize prefixByte.toNat = 1 := by rfl) : Item :=
  .short prefixByte [value] hlong hsize.symm

def buttonItems : List Item :=
  [shortItem 0x05 0x09, shortItem 0x19 0x01, shortItem 0x29 0x03, shortItem 0x15 0x00, shortItem 0x25 0x01,
    shortItem 0x75 0x01, shortItem 0x95 0x05, shortItem 0x81 0x02]

theorem buttonItems_accepted : (parseReportMapData (.bytes (buttonItems.flatMap Item.bytes))).isSome := by
  decide +kernel

def buttonMap : HIDReportMap :=
  (parseReportMapData (.bytes (buttonItems.flatMap Item.bytes))).get buttonItems_accepted

theorem usages_in_order_iff_buttons :
    List.Forall₂ (fun f scan => ¬scan.Survives f ∧ ¬InDeclarationOrder scan.named f) buttonMap.fields
      (usageScans {} buttonItems) := by
  have hsettles := usages_in_order_iff _ buttonMap (by rw [buttonMap, Option.some_get]) buttonItems rfl
    (by decide +kernel)
  have hrange : ∀ pair ∈ buttonMap.fields.zip (usageScans {} buttonItems), pair.2.list = [] ∧
      pair.2.named = pair.2.lastRange ∧ pair.2.named.getLastD {} ≠ {} ∧ pair.1.isVariable = true ∧
      ¬pair.1.reportCount ≤ pair.2.named.length := by
    decide +kernel
  refine List.forall₂_iff_zip.mpr ⟨hsettles.length_eq, fun {f scan} hmem => ?_⟩
  obtain ⟨hlist, hnamed, hlast, hvar, hlong⟩ := hrange _ hmem
  have hscan := (List.forall₂_iff_zip.mp hsettles).2 hmem
  have hfails := mt (hscan.range hlist hnamed hlast hvar).mp hlong
  exact ⟨mt hscan.law.mpr hfails, hfails⟩

/-- The fourth and the fifth button have no usage at all. -/
theorem usages_in_order_excess :
    parseReportMapData (.bytes (buttonItems.flatMap Item.bytes)) = some buttonMap ∧
    (∀ item ∈ buttonItems, item.tag ≠ .delimiter) ∧
    (usageScans {} buttonItems).map UsageScan.named =
      [[{ usage := 1, page := 9 }, { usage := 2, page := 9 }, { usage := 3, page := 9 }]] ∧
    (buttonMap.fields.map fun f => (f.isVariable, (List.range f.reportCount).map fun i => f.usageAt i true)) =
      [(true, [{ usage := 1, page := 9 }, { usage := 2, page := 9 }, { usage := 3, page := 9 }, {}, {}])] ∧
    ¬ List.Forall₂ (fun f scan => InDeclarationOrder scan.named f) buttonMap.fields
      (usageScans {} buttonItems) := by
  refine ⟨by rw [buttonMap, Option.some_get], by decide +kernel, by decide +kernel, by decide +kernel, ?_⟩
  intro hlaw
  have hmem : (buttonMap.fields.headD {}, (usageScans {} buttonItems).headD {}) ∈
      buttonMap.fields.zip (usageScans {} buttonItems) := by
    decide +kernel
  have hfield := (List.forall₂_iff_zip.mp hlaw).2 hmem
  rw [InDeclarationOrder, if_pos (by decide +kernel)] at hfield
  exact absurd (hfield (by decide +kernel) 3 (by decide +kernel)) (by decide +kernel)

end HidParser

end BleClientHid
