import BleClientHid.HidParser.GlobalOrder
import BleClientHid.HidParser.Nesting
import BleClientHid.HidParser.UsageOrder
import BleClientHid.Lib.FirstSeen
import BleClientHid.Lib.Past

/-! # What a Report Map means

The map that an item list stands for, read off the list: for every data item, which items
are in force there and what they say. The parser computes it with a state and two stacks.
-/

namespace BleClientHid

namespace HidParser

open Lib HIDReportMap

/-! ## Global items -/

/-- A Maximum is read under the Minimum in front of it. -/
def rangeSaid (minimumTag maximumTag : ItemTag) (l : List Item) : HIDRange where
  minimum := (latest (Item.is minimumTag) l).elim 0 Item.minimum
  maximum := (latest (Item.is maximumTag) l).elim 0
    (Item.maximumUnder ((latest (Item.is minimumTag) (upToLatest (Item.is maximumTag) l)).elim 0 Item.minimum))

/-- The last item of each kind. -/
def globalsSaid (l : List Item) : GlobalState where
  usagePage := (latest (Item.is .usagePage) l).elim 0 Item.raw
  logical := rangeSaid .logicalMinimum .logicalMaximum l
  physical := rangeSaid .physicalMinimum .physicalMaximum l
  unitExponent := (latest (Item.is .unitExponent) l).elim 0 (decodeUnitExponent ·.raw)
  unit := (latest (Item.is .unit) l).elim 0 Item.raw
  reportSize := (latest (Item.is .reportSize) l).elim 0 Item.raw
  reportCount := (latest (Item.is .reportCount) l).elim 0 Item.raw
  reportId := (latest (Item.is .reportId) l).elim 0 Item.raw

/-- The globals behind the items, with matched Push and Pop pairs undone. -/
def globalsAt (items : List Item) : GlobalState := globalsSaid (inForce Item.scope 0 items)

/-! ## Local items -/

instance (items : List Item) : Decidable (DelimiterOpen items) := inferInstanceAs (Decidable (_ = _))

/-- The items since the last Main item, each with all the items in front of it. -/
def sinceMain (items : List Item) : List (List Item × Item) := (withPast items).rtakeWhile fun p => !p.2.isMain

def saidSinceMain (tag : ItemTag) (items : List Item) : List (List Item × Item) :=
  (sinceMain items).filter (·.2.is tag)

def lastSinceMain (tag : ItemTag) (items : List Item) : Option (List Item × Item) :=
  latest (·.2.is tag) (sinceMain items)

/-- The usage of a usage item, on the page that is in force where the item stands. -/
def usageSaid (p : List Item × Item) : HIDUsage := p.2.usage (globalsAt p.1).usagePage

def rawSaid (p : List Item × Item) : Nat := p.2.raw

/-- The Delimiters opened since the last Main item. -/
def opened (items : List Item) : Nat := (delimiters items).count 1

/-- The usages between a Delimiter pair are alternatives, the others the primary set. -/
def usageSetAt (items : List Item) : Nat := if DelimiterOpen items then opened items else 0

def usageSet (items : List Item) (n : Nat) : List HIDUsage :=
  ((saidSinceMain .usage items).filter (usageSetAt ·.1 == n)).map usageSaid

def usageSetsAt (items : List Item) : List (List HIDUsage) := (List.range (opened items + 1)).map (usageSet items)

/-- The local attributes behind the items. -/
def localsAt (items : List Item) : LocalState where
  usageSets := usageSetsAt items
  activeUsageSet := usageSetAt items
  usageMinimum := (lastSinceMain .usageMinimum items).elim {} usageSaid
  usageMaximum := (lastSinceMain .usageMaximum items).elim {} usageSaid
  hasUsageMinimum := (lastSinceMain .usageMinimum items).isSome
  hasUsageMaximum := (lastSinceMain .usageMaximum items).isSome
  designators := (saidSinceMain .designatorIndex items).map rawSaid
  designatorMinimum := (lastSinceMain .designatorMinimum items).elim 0 rawSaid
  designatorMaximum := (lastSinceMain .designatorMaximum items).elim 0 rawSaid
  hasDesignatorMinimum := (lastSinceMain .designatorMinimum items).isSome
  hasDesignatorMaximum := (lastSinceMain .designatorMaximum items).isSome
  strings := (saidSinceMain .stringIndex items).map rawSaid
  stringMinimum := (lastSinceMain .stringMinimum items).elim 0 rawSaid
  stringMaximum := (lastSinceMain .stringMaximum items).elim 0 rawSaid
  hasStringMinimum := (lastSinceMain .stringMinimum items).isSome
  hasStringMaximum := (lastSinceMain .stringMaximum items).isSome
  delimiterOpen := decide (DelimiterOpen items)

/-! ## Main items -/

open Classical in
/-- The innermost collection that is open behind the items. -/
noncomputable def collectionAt (items : List Item) : Nat :=
  ((List.range (items.countP (Item.is .collection))).filter fun k =>
    OpenAt (Item.is .collection) (Item.is .endCollection) items k).getLast?.getD noParent

/-- The field of a data item behind `before`: it starts where the data items of its report end so far. -/
noncomputable def fieldSaid (before : List Item) (kind : HIDReportKind) (raw : Nat) : HIDFieldSchema :=
  let g := globalsAt before
  let l := localsAt before
  { id := (declarations before).length
    kind
    reportId := g.reportId
    collectionId := collectionAt before
    bitOffset := reportBits (kind, g.reportId) (declarations before)
    reportSize := g.reportSize
    reportCount := g.reportCount
    flags := raw &&& 0x1FF
    logical := g.logical
    physical := g.physical
    unitExponent := g.unitExponent
    unit := g.unit
    usages := usageSet before 0
    alternativeUsages := (usageSetsAt before).tail
    usageMinimum := l.usageMinimum
    usageMaximum := l.usageMaximum
    hasUsageRange := l.hasUsageMinimum && l.hasUsageMaximum
    stringIndices := l.strings
    stringMinimum := l.stringMinimum
    stringMaximum := l.stringMaximum
    hasStringRange := l.hasStringMinimum && l.hasStringMaximum
    designatorIndices := l.designators
    designatorMinimum := l.designatorMinimum
    designatorMaximum := l.designatorMaximum
    hasDesignatorRange := l.hasDesignatorMinimum && l.hasDesignatorMaximum }

/-- A collection is named by its first usage, or else by its Usage Minimum. -/
noncomputable def collectionSaid (before : List Item) (raw : Nat) : HIDCollectionSchema where
  id := before.countP (Item.is .collection)
  parent := collectionAt before
  type := raw % 256
  usage := (usageSet before 0).headD (localsAt before).usageMinimum
  aliases := (usageSetsAt before).tail.flatten

noncomputable def Item.field (before : List Item) (i : Item) : Option HIDFieldSchema :=
  match i.tag with
  | .data kind => some (fieldSaid before kind i.raw)
  | _ => none

noncomputable def Item.collection (before : List Item) (i : Item) : Option HIDCollectionSchema :=
  match i.tag with
  | .collection => some (collectionSaid before i.raw)
  | _ => none

/-- A report has the data items of its kind and id, by their numbers. -/
def reportSaid (ds : List Declaration) (key : HIDReportKind × Nat) : HIDReportSchema where
  kind := key.1
  reportId := key.2
  bitSize := reportBits key ds
  fieldIds := (ds.zipIdx.filter (·.1.report == key)).map (·.2)

/-- The map that the items stand for. -/
noncomputable def meaning (items : List Item) : HIDReportMap where
  reports := ((declarations items).map Declaration.report).eraseDups.map (reportSaid (declarations items))
  fields := (withPast items).filterMap fun p => p.2.field p.1
  collections := (withPast items).filterMap fun p => p.2.collection p.1
  usesReportIds := items.any (Item.is .reportId)

/-! ## One more Global item -/

theorem rangeSaid_concat {minimumTag maximumTag : ItemTag} (hne : minimumTag ≠ maximumTag) (l : List Item) (i : Item) :
    rangeSaid minimumTag maximumTag (l ++ [i]) =
      i.writeRange (i.tag = minimumTag) (i.tag = maximumTag) (rangeSaid minimumTag maximumTag l) := by
  simp only [rangeSaid, latest_concat, upToLatest_concat, Item.is_iff, Item.writeRange, decide_eq_true_eq,
    HIDRange.mk.injEq]
  constructor
  · split <;> rfl
  · split
    · rename_i hmax
      rw [latest_concat, if_neg (fun hmin => hne ((Item.is_iff.mp hmin).symm.trans hmax))]
      rfl
    · rfl

theorem globalsSaid_concat (l : List Item) (i : Item) : globalsSaid (l ++ [i]) = i.write (globalsSaid l) := by
  have hlogical := rangeSaid_concat (show ItemTag.logicalMinimum ≠ .logicalMaximum by decide) l i
  have hphysical := rangeSaid_concat (show ItemTag.physicalMinimum ≠ .physicalMaximum by decide) l i
  simp only [globalsSaid, Item.write, hlogical, hphysical, latest_concat, Item.is_iff, GlobalState.mk.injEq, true_and]
  refine ⟨?_, ?_, ?_, ?_, ?_, ?_⟩ <;> split <;> rfl

theorem globalsSaid_eq_foldl (l : List Item) : globalsSaid l = l.foldl (fun g i => i.write g) {} := by
  induction l using List.reverseRecOn with
  | nil => rfl
  | append_singleton l i ih => rw [globalsSaid_concat, ih, List.foldl_append, List.foldl_cons, List.foldl_nil]

theorem Item.write_other {i : Item} (h : i.tag.setsGlobal = false) (g : GlobalState) : i.write g = g := by
  unfold Item.write Item.writeRange
  cases htag : i.tag <;> simp [htag, ItemTag.setsGlobal] at h ⊢

/-! ## One more Local item -/

section
variable {items : List Item} {i : Item}

theorem sinceMain_main (hmain : i.isMain = true) : sinceMain (items ++ [i]) = [] := by
  unfold sinceMain
  rw [withPast_concat, List.rtakeWhile_concat_neg _ _ _ (by simp [hmain])]

theorem sinceMain_concat (hmain : i.isMain = false) : sinceMain (items ++ [i]) = sinceMain items ++ [(items, i)] := by
  unfold sinceMain
  rw [withPast_concat, List.rtakeWhile_concat_pos _ _ _ (by simp [hmain])]

theorem saidSinceMain_concat (hmain : i.isMain = false) (tag : ItemTag) : saidSinceMain tag (items ++ [i]) =
    saidSinceMain tag items ++ if i.tag = tag then [(items, i)] else [] := by
  unfold saidSinceMain
  rw [sinceMain_concat hmain, List.filter_append, List.filter_cons, List.filter_nil]
  simp only [Item.is_iff]

theorem lastSinceMain_concat (hmain : i.isMain = false) (tag : ItemTag) : lastSinceMain tag (items ++ [i]) =
    if i.tag = tag then some (items, i) else lastSinceMain tag items := by
  unfold lastSinceMain
  rw [sinceMain_concat hmain, latest_concat]
  simp only [Item.is_iff]

theorem usageSet_concat (hmain : i.isMain = false) (n : Nat) : usageSet (items ++ [i]) n =
    usageSet items n ++ if i.tag = .usage ∧ usageSetAt items = n then [i.usage (globalsAt items).usagePage] else [] := by
  unfold usageSet
  rw [saidSinceMain_concat hmain, List.filter_append, List.map_append]
  congr 1
  by_cases husage : i.tag = .usage <;> by_cases hn : usageSetAt items = n <;> simp [husage, hn, usageSaid]

theorem delimiters_main (hmain : i.isMain = true) : delimiters (items ++ [i]) = [] := by
  rw [delimiters_concat, if_pos hmain]

theorem delimiters_other (hmain : i.isMain = false) (hdelim : i.tag ≠ .delimiter) :
    delimiters (items ++ [i]) = delimiters items := by
  rw [delimiters_concat, hmain, if_neg Bool.false_ne_true, if_neg (fun h => hdelim (Item.is_iff.mp h)), List.append_nil]

theorem delimiters_delimiter (hdelim : i.tag = .delimiter) :
    delimiters (items ++ [i]) = delimiters items ++ [i.raw] := by
  rw [delimiters_concat, i.isMain_of_tag (by simp [hdelim]), hdelim, if_neg (by decide), if_pos (Item.is_iff.mpr hdelim)]

theorem localsAt_main (hmain : i.isMain = true) : localsAt (items ++ [i]) = {} := by
  have hdelimiters : delimiters (items ++ [i]) = [] := delimiters_main hmain
  have hsince : sinceMain (items ++ [i]) = [] := sinceMain_main hmain
  have hclosed : ¬ DelimiterOpen (items ++ [i]) := delimiterOpen_main hmain
  simp [localsAt, usageSetsAt, usageSetAt, usageSet, opened, saidSinceMain, lastSinceMain, hdelimiters, hsince, hclosed]

/-- The local attributes behind an item that is neither a Main item nor a Delimiter. -/
def Item.writeLocals (i : Item) (page : Nat) (l : LocalState) : LocalState :=
  match i.tag with
  | .usage => l.pushUsage (i.usage page)
  | .usageMinimum => { l with usageMinimum := i.usage page, hasUsageMinimum := true }
  | .usageMaximum => { l with usageMaximum := i.usage page, hasUsageMaximum := true }
  | .designatorIndex => { l with designators := l.designators ++ [i.raw] }
  | .designatorMinimum => { l with designatorMinimum := i.raw, hasDesignatorMinimum := true }
  | .designatorMaximum => { l with designatorMaximum := i.raw, hasDesignatorMaximum := true }
  | .stringIndex => { l with strings := l.strings ++ [i.raw] }
  | .stringMinimum => { l with stringMinimum := i.raw, hasStringMinimum := true }
  | .stringMaximum => { l with stringMaximum := i.raw, hasStringMaximum := true }
  | _ => l

/-- Only a Usage item adds to the sets, and only to the active one. -/
theorem usageSetsAt_concat (hmain : i.isMain = false) (hdelim : i.tag ≠ .delimiter) : usageSetsAt (items ++ [i]) =
    if i.tag = .usage then
      (usageSetsAt items).modify (usageSetAt items) (· ++ [i.usage (globalsAt items).usagePage])
    else usageSetsAt items := by
  have hopened : opened (items ++ [i]) = opened items := by rw [opened, opened, delimiters_other hmain hdelim]
  unfold usageSetsAt
  rw [hopened]
  split
  · rename_i husage
    apply List.ext_getElem (by simp)
    intro n _ _
    rw [List.getElem_modify, List.getElem_map, List.getElem_map, List.getElem_range, usageSet_concat hmain]
    by_cases hn : usageSetAt items = n <;> simp [husage, hn]
  · rename_i husage
    refine List.map_congr_left fun n _ => ?_
    rw [usageSet_concat hmain, if_neg (fun h => husage h.1), List.append_nil]

theorem localsAt_concat (hmain : i.isMain = false) (hdelim : i.tag ≠ .delimiter) :
    localsAt (items ++ [i]) = i.writeLocals (globalsAt items).usagePage (localsAt items) := by
  have hdelimiters : delimiters (items ++ [i]) = delimiters items := delimiters_other hmain hdelim
  have hopen : DelimiterOpen (items ++ [i]) ↔ DelimiterOpen items := delimiterOpen_concat hmain hdelim
  have hset : usageSetAt (items ++ [i]) = usageSetAt items := by
    simp only [usageSetAt, opened, hopen, hdelimiters]
  simp only [localsAt, usageSetsAt_concat hmain hdelim, hset, lastSinceMain_concat hmain, saidSinceMain_concat hmain,
    hopen, Item.writeLocals]
  cases htag : i.tag <;> simp [usageSaid, rawSaid, LocalState.pushUsage]

/-! ## One more Delimiter -/

/-- No usage so far is in a set that is still to be opened. -/
theorem usageSetAt_le (items : List Item) : ∀ p ∈ sinceMain items, usageSetAt p.1 ≤ opened items := by
  induction items using List.reverseRecOn with
  | nil => simp [sinceMain]
  | append_singleton items i ih =>
    intro p hp
    cases hmain : i.isMain with
    | true =>
      rw [sinceMain_main hmain] at hp
      cases hp
    | false =>
      have hmono : opened items ≤ opened (items ++ [i]) := by
        unfold opened
        rw [delimiters_concat, hmain, if_neg Bool.false_ne_true, List.count_append]
        omega
      rw [sinceMain_concat hmain, List.mem_append, List.mem_singleton] at hp
      rcases hp with hp | rfl
      · exact (ih p hp).trans hmono
      · refine Nat.le_trans ?_ hmono
        dsimp only [usageSetAt]
        split <;> omega

theorem usageSet_delimiter (hdelim : i.tag = .delimiter) : usageSet (items ++ [i]) = usageSet items := by
  funext n
  rw [usageSet_concat (by simp [i.isMain_of_tag, hdelim, ItemTag.isMain]), if_neg (by simp [hdelim]), List.append_nil]

theorem localsAt_delimiter (hdelim : i.tag = .delimiter) : localsAt (items ++ [i]) =
    { localsAt items with
      usageSets := usageSetsAt (items ++ [i])
      activeUsageSet := usageSetAt (items ++ [i])
      delimiterOpen := decide (DelimiterOpen (items ++ [i])) } := by
  have hmain : i.isMain = false := by simp [i.isMain_of_tag, hdelim, ItemTag.isMain]
  simp [localsAt, lastSinceMain_concat hmain, saidSinceMain_concat hmain, hdelim]

theorem localsAt_open (hdelim : i.tag = .delimiter) (hraw : i.raw = 1) : localsAt (items ++ [i]) =
    { localsAt items with
      delimiterOpen := true
      usageSets := (localsAt items).usageSets ++ [[]]
      activeUsageSet := (localsAt items).usageSets.length } := by
  have hdelimiters : delimiters (items ++ [i]) = delimiters items ++ [i.raw] := delimiters_delimiter hdelim
  rw [hraw] at hdelimiters
  have hopen : DelimiterOpen (items ++ [i]) := by simp [DelimiterOpen, hdelimiters]
  have hopened : opened (items ++ [i]) = opened items + 1 := by simp [opened, hdelimiters]
  have hempty : usageSet items (opened items + 1) = [] := by
    unfold usageSet saidSinceMain
    rw [List.filter_eq_nil_iff.mpr, List.map_nil]
    intro p hp
    have := usageSetAt_le items p (List.mem_of_mem_filter hp)
    simp
    omega
  have hsets : usageSetsAt (items ++ [i]) = usageSetsAt items ++ [[]] := by
    rw [usageSetsAt, usageSet_delimiter hdelim, hopened, List.range_succ, List.map_append, List.map_singleton, hempty]
    rfl
  rw [localsAt_delimiter hdelim, hsets]
  simp [usageSetAt, hopen, hopened, localsAt, usageSetsAt]

theorem localsAt_close (hdelim : i.tag = .delimiter) (hraw : i.raw = 0) : localsAt (items ++ [i]) =
    { localsAt items with delimiterOpen := false, activeUsageSet := 0 } := by
  have hdelimiters : delimiters (items ++ [i]) = delimiters items ++ [i.raw] := delimiters_delimiter hdelim
  rw [hraw] at hdelimiters
  have hclosed : ¬ DelimiterOpen (items ++ [i]) := by simp [DelimiterOpen, hdelimiters]
  have hopened : opened (items ++ [i]) = opened items := by simp [opened, hdelimiters]
  rw [localsAt_delimiter hdelim]
  simp only [usageSetsAt, usageSetAt, usageSet_delimiter hdelim, hclosed, hopened, if_false, decide_false, localsAt]

/-! ## The parser's globals and locals -/

/-- What the parser holds besides the map and the open collections. -/
structure Attributes (items : List Item) (s : ParserState) : Prop where
  globals : Holds Item.scope (fun g i => i.write g) {} items (s.globals :: s.globalStack)
  locals : s.locals = localsAt items
  usesReportIds : s.map.usesReportIds = items.any (Item.is .reportId)

theorem attributes_init : Attributes [] {} where
  globals := holds_nil
  locals := rfl
  usesReportIds := rfl

variable {s s' : ParserState} {off : Nat}

theorem Attributes.globals_eq (h : Attributes items s) : s.globals = globalsAt items := by
  rw [globalsAt, globalsSaid_eq_foldl]
  exact h.globals 0 _ rfl

/-- The items that set globals and locals write what the lists say. -/
theorem applyItem_writes (hplain : i.tag.isPlain = true) (hmain : i.isMain = false) (h : applyItem off i s = .ok s') :
    s' = { s with
      map := i.usesReportId s.map
      globals := i.write s.globals
      locals := i.writeLocals s.globals.usagePage s.locals } := by
  cases i with
  | long tag payload hpayload =>
    cases h
    simp [Item.usesReportId, Item.write, Item.writeRange, Item.writeLocals, Item.tag]
  | short p data hlong hdata =>
    simp only [Item.isMain, beq_eq_false_iff_ne] at hmain
    simp only [applyItem, Item.tag] at h hplain
    cases htag : itemTag p.toNat <;> simp only [parseItem, htag, fail] at h <;>
      simp only [htag, ItemTag.isPlain, reduceCtorEq] at hplain
    case usagePage =>
      split at h <;> cases h
      simp [Item.usesReportId, Item.write, Item.writeRange, Item.writeLocals, Item.tag, htag, Item.raw]
    case reportId =>
      split at h <;> cases h
      simp [Item.usesReportId, Item.write, Item.writeRange, Item.writeLocals, Item.tag, htag, Item.raw]
    case unknown =>
      rw [if_neg hmain] at h
      cases h
      simp [Item.usesReportId, Item.write, Item.writeRange, Item.writeLocals, Item.tag, htag]
    all_goals
      cases h
      simp [Item.usesReportId, Item.write, Item.writeRange, Item.writeLocals, Item.tag, htag, Item.raw,
        Item.minimum, Item.maximumUnder, Item.usage]

theorem findOrAddReport_usesReportIds {m m' : HIDReportMap} {kind : HIDReportKind} {reportId : Nat}
    (h : findOrAddReport m kind reportId = some m') : m'.usesReportIds = m.usesReportIds := by
  unfold findOrAddReport at h
  split_ifs at h <;> cases h <;> rfl

theorem applyItem_main_usesReportIds (hmain : i.isMain = true) (h : applyItem off i s = .ok s') :
    s'.map.usesReportIds = s.map.usesReportIds := by
  rcases applyItem_cases h with ⟨⟨hcol, hend, hdata⟩, -⟩ | ⟨-, hok⟩ | ⟨-, hok⟩ | ⟨kind, -, hok⟩
  · -- a reserved Main item
    cases i with
    | long => cases hmain
    | short p data hlong hsize =>
      have hunknown : itemTag p.toNat = .unknown := by
        by_contra hknown
        have htag := (itemTag_isMain p.toNat p.toNat_lt hknown).symm.trans hmain
        simp only [Item.tag] at hcol hend hdata
        cases hp : itemTag p.toNat <;> simp_all [ItemTag.isMain]
      simp only [applyItem, parseItem, hunknown] at h
      split at h <;> cases h <;> rfl
  · unfold parseCollection fail at hok
    split at hok <;> cases hok
    rfl
  · unfold parseEndCollection fail at hok
    split at hok <;> cases hok
    rfl
  · obtain ⟨map, r, hmap, -, rfl, -⟩ := parseDataItem_ok hok
    exact (findOrAddReport_usesReportIds hmap : map.usesReportIds = s.map.usesReportIds)

theorem any_concat (tag : ItemTag) (items : List Item) (i : Item) :
    (items ++ [i]).any (Item.is tag) = (items.any (Item.is tag) || decide (i.tag = tag)) := by
  simp [Item.is, beq_eq_decide]

theorem isMain_ne {i : Item} (hmain : i.isMain = true) {tag : ItemTag} (htag : tag.isMain = false)
    (hknown : tag ≠ .unknown) : i.tag ≠ tag := by
  rintro rfl
  rw [i.isMain_of_tag hknown, htag] at hmain
  cases hmain

theorem Attributes.main (ha : Attributes items s) (hmain : i.isMain = true) (h : applyItem off i s = .ok s') :
    Attributes (items ++ [i]) s' := by
  obtain ⟨hglobals, hstack, hlocals⟩ := applyItem_main hmain h
  have hscope : i.scope = .plain := by
    have hpush : i.tag ≠ .push := isMain_ne hmain rfl (by decide)
    have hpop : i.tag ≠ .pop := isMain_ne hmain rfl (by decide)
    unfold Item.scope
    cases htag : i.tag <;> simp_all
  have hwrite : i.write s.globals = s.globals := by
    apply Item.write_other
    by_contra hset
    rw [Bool.not_eq_false] at hset
    have hnot : i.tag ≠ i.tag := isMain_ne hmain (by cases htag : i.tag <;> simp_all [ItemTag.setsGlobal, ItemTag.isMain])
      (by cases htag : i.tag <;> simp_all [ItemTag.setsGlobal])
    exact hnot rfl
  refine ⟨?_, ?_, ?_⟩
  · rw [hglobals, hstack, ← hwrite]
    exact ha.globals.plain hscope
  · rw [hlocals, localsAt_main hmain]
  · have hid : i.tag ≠ .reportId := isMain_ne hmain rfl (by decide)
    rw [applyItem_main_usesReportIds hmain h, ha.usesReportIds, any_concat, decide_eq_false hid, Bool.or_false]

theorem Attributes.plain (ha : Attributes items s) (hplain : i.tag.isPlain = true) (hmain : i.isMain = false)
    (h : applyItem off i s = .ok s') : Attributes (items ++ [i]) s' := by
  have hne : ∀ t : ItemTag, t.isPlain = false → i.tag ≠ t := fun t => ItemTag.ne_of_isPlain hplain
  have hscope : i.scope = .plain := by
    have hpush := hne .push rfl
    have hpop := hne .pop rfl
    unfold Item.scope
    cases htag : i.tag <;> simp_all
  obtain rfl := applyItem_writes hplain hmain h
  refine ⟨ha.globals.plain hscope, ?_, ?_⟩
  · rw [localsAt_concat hmain (hne _ rfl), ← ha.globals_eq, ← ha.locals]
  · rw [any_concat, ← ha.usesReportIds]
    rfl

theorem Attributes.special (ha : Attributes items s) (hplain : ¬ i.tag.isPlain = true) (hmain : i.isMain = false)
    (h : applyItem off i s = .ok s') : Attributes (items ++ [i]) s' := by
  have hnotid : i.tag ≠ .reportId := fun hid => hplain (by rw [hid]; rfl)
  have hids : s.map.usesReportIds = (items ++ [i]).any (Item.is .reportId) := by
    rw [any_concat, decide_eq_false hnotid, Bool.or_false, ha.usesReportIds]
  have hlocals : i.tag ≠ .delimiter → s.locals = localsAt (items ++ [i]) := by
    intro hdelim
    rw [localsAt_concat hmain hdelim, ha.locals]
    unfold Item.writeLocals
    cases htag : i.tag <;> simp_all [ItemTag.isPlain]
  obtain ⟨p, hp, happly⟩ := applyItem_short off i s hplain
  rw [happly] at h
  cases htag : i.tag <;> simp only [htag, ItemTag.isPlain, not_true_eq_false] at hplain <;>
    simp only [parseItem, hp, htag] at h
  case push =>
    -- one more level of Globals, a copy of the current ones
    split at h <;> cases h
    exact ⟨ha.globals.enter (by simp [Item.scope, htag]), hlocals (by simp [htag]), hids⟩
  case pop =>
    -- back to the Globals before the matching Push
    have hglobals := ha.globals
    split at h <;> cases h
    rename_i hstack
    rw [hstack] at hglobals
    exact ⟨hglobals.leave (by simp [Item.scope, htag]), hlocals (by simp [htag]), hids⟩
  case delimiter =>
    -- a Delimiter changes the Locals only
    have hwrite : i.write s.globals = s.globals := Item.write_other (by rw [htag]; rfl) _
    have hglobals : Holds Item.scope (fun g i => i.write g) {} (items ++ [i]) (s.globals :: s.globalStack) := by
      rw [← hwrite]
      exact ha.globals.plain (by simp [Item.scope, htag])
    unfold parseDelimiter fail at h
    split_ifs at h with hone hdelim hzero hdelim <;> cases h
    · exact ⟨hglobals, by rw [localsAt_open htag hone, ← ha.locals], hids⟩
    · exact ⟨hglobals, by rw [localsAt_close htag hzero, ← ha.locals], hids⟩
  all_goals
    rw [i.isMain_of_tag (by simp [htag]), htag] at hmain
    cases hmain

theorem Attributes.concat (ha : Attributes items s) (h : applyItem off i s = .ok s') : Attributes (items ++ [i]) s' := by
  cases hmain : i.isMain with
  | true => exact ha.main hmain h
  | false =>
    by_cases hplain : i.tag.isPlain = true
    · exact ha.plain hplain hmain h
    · exact ha.special hplain hmain h

/-! ## The map -/

theorem collectionAt_eq {items : List Item} {stack : List Nat}
    (h : OpenStack (Item.is .collection) (Item.is .endCollection) items stack) :
    stack.head?.getD noParent = collectionAt items := by
  classical
  rw [h.head?_eq, collectionAt]

/-- The reports by kind and id. -/
def keys (reports : List HIDReportSchema) : List (HIDReportKind × Nat) := reports.map fun r => (r.kind, r.reportId)

/-- The map behind the items, as far as the items tell it one by one. -/
structure Declares (items : List Item) (m : HIDReportMap) : Prop where
  fields : m.fields = (meaning items).fields
  collections : m.collections = (meaning items).collections
  keys : keys m.reports = ((declarations items).map Declaration.report).eraseDups

theorem meaning_fields_concat (items : List Item) (i : Item) :
    (meaning (items ++ [i])).fields = (meaning items).fields ++ (i.field items).toList := by
  simp only [meaning, withPast_concat, List.filterMap_append]
  cases h : i.field items <;> simp [h]

theorem meaning_collections_concat (items : List Item) (i : Item) :
    (meaning (items ++ [i])).collections = (meaning items).collections ++ (i.collection items).toList := by
  simp only [meaning, withPast_concat, List.filterMap_append]
  cases h : i.collection items <;> simp [h]

theorem localsAt_primary (items : List Item) : (localsAt items).usageSets.headD [] = usageSet items 0 := by
  simp [localsAt, usageSetsAt, List.range_succ_eq_map]

theorem makeField_eq (ha : Attributes items s) (ht : Tracks items s) (hn : Nests items s)
    (hlength : s.map.fields.length < maxFields) {kind : HIDReportKind} {r : HIDReportSchema}
    (hr : ((s.map.findReport kind s.globals.reportId).getD {}).bitSize = r.bitSize) :
    makeField s kind i.raw r.bitSize = fieldSaid items kind i.raw := by
  have hid : s.map.fields.length % 65536 = (declarations items).length := by
    rw [← ht.fields, List.length_map]
    simp only [maxFields] at hlength
    omega
  have hbits := ht.reportBits_eq kind s.globals.reportId
  rw [hr] at hbits
  have hglobals := ha.globals_eq
  have hlocals := ha.locals
  have hcollection := collectionAt_eq hn.opened
  have hprimary := localsAt_primary items
  rw [hglobals] at hbits
  simp only [makeField, fieldSaid, hid, hcollection, hglobals, hlocals, ← hbits, hprimary, List.drop_one]
  rfl

theorem parseCollection_eq (ha : Attributes items s) (ht : Tracks items s) (hn : Nests items s)
    (h : parseCollection off i.raw s = .ok s') :
    s'.map = { s.map with collections := s.map.collections ++ [collectionSaid items i.raw] } := by
  have hlength := ht.collections
  have hlocals := ha.locals
  have hcollection := collectionAt_eq hn.opened
  have hprimary := localsAt_primary items
  have hminimum : (if (localsAt items).hasUsageMinimum then (localsAt items).usageMinimum else {}) =
      (localsAt items).usageMinimum := by
    unfold localsAt
    cases lastSinceMain .usageMinimum items <;> rfl
  unfold parseCollection fail at h
  split at h <;> cases h
  rename_i hroom
  simp only [maxCollections, not_or, Nat.not_le] at hroom
  have hid : s.map.collections.length % 65536 = items.countP (Item.is .collection) := by omega
  simp only [collectionSaid, hid, hcollection, hlocals, hprimary, hminimum, List.headD_eq_head?_getD, List.drop_one]
  rfl

theorem keys_updateReport (kind : HIDReportKind) (reportId : Nat) (field : HIDFieldSchema) (n : Nat)
    (reports : List HIDReportSchema) :
    keys (updateReport kind reportId (appendField field n) reports) = keys reports := by
  induction reports with
  | nil => rfl
  | cons r rs ih =>
    unfold updateReport
    split
    · rfl
    · exact congrArg ((r.kind, r.reportId) :: ·) ih

theorem findReport_isSome {m : HIDReportMap} {kind : HIDReportKind} {reportId : Nat} :
    (m.findReport kind reportId).isSome = true ↔ (kind, reportId) ∈ keys m.reports := by
  simp [HIDReportMap.findReport, List.find?_isSome, keys]

theorem keys_findOrAddReport {m m' : HIDReportMap} {kind : HIDReportKind} {reportId : Nat}
    (h : findOrAddReport m kind reportId = some m') : keys m'.reports =
      if (kind, reportId) ∈ keys m.reports then keys m.reports else keys m.reports ++ [(kind, reportId)] := by
  unfold findOrAddReport at h
  simp only [findReport_isSome] at h
  split_ifs at h with hfound <;> cases h
  · rw [if_pos hfound]
  · rw [if_neg hfound]
    simp [keys]

theorem Declares.concat (hd : Declares items s.map) (ha : Attributes items s) (ht : Tracks items s)
    (hn : Nests items s) (h : applyItem off i s = .ok s') : Declares (items ++ [i]) s'.map := by
  rcases applyItem_cases h with ⟨⟨hcol, -, hdata⟩, hmap, -⟩ | ⟨htag, hok⟩ | ⟨htag, hok⟩ | ⟨kind, htag, hok⟩
  · -- neither a collection nor a data item: nothing is declared
    have hfield : i.field items = none := by
      unfold Item.field
      cases htag : i.tag <;> simp_all
    have hcollection : i.collection items = none := by
      unfold Item.collection
      cases htag : i.tag <;> simp_all
    have hdeclares : i.declares items = none := by
      unfold Item.declares
      cases htag : i.tag <;> simp_all
    rw [hmap]
    refine ⟨?_, ?_, ?_⟩
    · rw [meaning_fields_concat, hfield, ← hd.fields]
      exact (List.append_nil _).symm
    · rw [meaning_collections_concat, hcollection, ← hd.collections]
      exact (List.append_nil _).symm
    · rw [declarations_other hdeclares]
      exact hd.keys
  · -- a collection
    have hfield : i.field items = none := by simp [Item.field, htag]
    have hcollection : i.collection items = some (collectionSaid items i.raw) := by simp [Item.collection, htag]
    rw [parseCollection_eq ha ht hn hok]
    refine ⟨?_, ?_, ?_⟩
    · rw [meaning_fields_concat, hfield, ← hd.fields]
      exact (List.append_nil _).symm
    · rw [meaning_collections_concat, hcollection, ← hd.collections]
      rfl
    · rw [declarations_other (by simp [Item.declares, htag])]
      exact hd.keys
  · -- an End Collection
    have hfield : i.field items = none := by simp [Item.field, htag]
    have hcollection : i.collection items = none := by simp [Item.collection, htag]
    unfold parseEndCollection fail at hok
    split at hok <;> cases hok
    refine ⟨?_, ?_, ?_⟩
    · rw [meaning_fields_concat, hfield, ← hd.fields]
      exact (List.append_nil _).symm
    · rw [meaning_collections_concat, hcollection, ← hd.collections]
      exact (List.append_nil _).symm
    · rw [declarations_other (by simp [Item.declares, htag])]
      exact hd.keys
  · -- a data item: its field comes last, and its report too when it is new
    have hfield : i.field items = some (fieldSaid items kind i.raw) := by simp [Item.field, htag]
    have hcollection : i.collection items = none := by simp [Item.collection, htag]
    have hdeclares : i.declares items = some ⟨kind, s.globals.layout⟩ := Item.declares_eq_some.mpr ⟨htag, ht.layout⟩
    obtain ⟨map, r, hmap, hr, rfl, hlength, -⟩ := parseDataItem_ok hok
    obtain ⟨-, hfields, hcollections, -⟩ := findOrAddReport_inv ht.inv.schema hmap
    have hbits := (findOrAddReport_bits hmap).2
    rw [hr, Option.getD_some] at hbits
    rw [hfields] at hlength
    have hmake : makeField s kind i.raw r.bitSize = fieldSaid items kind i.raw :=
      makeField_eq ha ht hn hlength hbits.symm
    refine ⟨?_, ?_, ?_⟩
    · rw [meaning_fields_concat, hfield, ← hd.fields, ← hmake, ← hfields]
      rfl
    · rw [meaning_collections_concat, hcollection, ← hd.collections, ← hcollections]
      exact (List.append_nil _).symm
    · rw [declarations_data hdeclares, List.map_append, List.map_singleton, eraseDups_concat, ← hd.keys]
      exact (keys_updateReport ..).trans (keys_findOrAddReport hmap)

/-- The data items of a report, by their numbers, are the ids of its fields. -/
theorem fieldIds_eq {m : HIDReportMap} (hm : SchemaInv m) {r : HIDReportSchema} (hr : r ∈ m.reports) :
    (((m.fields.map fieldDeclaration).zipIdx.filter (·.1.report == (r.kind, r.reportId))).map (·.2)) =
      r.fieldIds := by
  have hzip : m.fields.zipIdx = m.fields.map fun f => (f, f.id) := by
    rw [List.zipIdx_eq_zip_range', ← List.range_eq_range', ← hm.fieldIds]
    simpa using (@List.zip_map' _ _ _ id HIDFieldSchema.id m.fields)
  rw [List.zipIdx_map, hzip, List.map_map, List.filter_map, List.map_map, hm.reportFields r hr]
  unfold HIDReportMap.fieldsOf
  congr 1
  apply List.filter_congr
  intro f _
  rw [Bool.eq_iff_iff]
  simp only [Function.comp_apply, Prod.map_fst, Declaration.report, fieldDeclaration, HIDReportSchema.owns, beq_iff_eq,
    Prod.mk.injEq, decide_eq_true_eq]
  exact and_congr eq_comm eq_comm

theorem reportSaid_eq (ht : Tracks items s) {r : HIDReportSchema} (hr : r ∈ s.map.reports) :
    reportSaid (declarations items) (r.kind, r.reportId) = r := by
  have hbits := ht.reportBits_eq r.kind r.reportId
  rw [findReport_of_mem ht.inv.schema.distinct hr, Option.getD_some] at hbits
  have hids := fieldIds_eq ht.inv.schema hr
  rw [ht.fields] at hids
  unfold reportSaid
  rw [hbits, hids]

theorem reports_eq (ht : Tracks items s) (hd : Declares items s.map) : s.map.reports = (meaning items).reports := by
  have hkeys : (meaning items).reports = (keys s.map.reports).map (reportSaid (declarations items)) :=
    congrArg (List.map _) hd.keys.symm
  rw [hkeys, keys, List.map_map]
  conv_lhs => rw [← List.map_id s.map.reports]
  exact List.map_congr_left fun r hr => (reportSaid_eq ht hr).symm

theorem applyItems_attributes (h : applyItems 0 items {} = .ok s) : Attributes items s ∧ Declares items s.map := by
  induction items using List.reverseRecOn generalizing s with
  | nil =>
    cases h
    exact ⟨attributes_init, ⟨rfl, rfl, rfl⟩⟩
  | append_singleton items i ih =>
    obtain ⟨s1, h1, hi⟩ := applyItems_concat.mp h
    obtain ⟨ha, hd⟩ := ih h1
    exact ⟨ha.concat hi, hd.concat ha (applyItems_tracks h1).2 (applyItems_nests h1) hi⟩

theorem applyItems_meaning (h : applyItems 0 items {} = .ok s) : s.map = meaning items := by
  have ht := (applyItems_tracks h).2
  obtain ⟨ha, hd⟩ := applyItems_attributes h
  calc s.map = ⟨s.map.reports, s.map.fields, s.map.collections, s.map.runtime, s.map.usesReportIds⟩ := rfl
    _ = meaning items := by
      rw [reports_eq ht hd, hd.fields, hd.collections, ht.inv.fresh, ha.usesReportIds]
      rfl

end

/-! ## Byte strings -/

theorem parse_of_items {items : List Item} {s : ParserState}
    (hlength : 1 ≤ (items.flatMap Item.bytes).length ∧ (items.flatMap Item.bytes).length ≤ 4096)
    (h : applyItems 0 items {} = .ok s) (hend : s.collectionStack = [] ∧ s.map.reports ≠ []) :
    parseReportMapData (.bytes (items.flatMap Item.bytes)) = some (meaning items) := by
  have hmax : maxDescriptorBytes = 4096 := rfl
  have hmap := applyItems_meaning h
  rw [hmap] at hend
  simp only [parseReportMapData]
  rw [if_neg (by omega), parseItems_flatMap (Nat.le_refl _), h]
  simp [hend.1, hend.2, hmap]

/-- The parser returns a map for the Report Maps alone, and it is the one that the items stand for. -/
theorem parse_eq_meaning (data : List UInt8) (m : HIDReportMap) :
    parseReportMapData (.bytes data) = some m ↔ 1 ≤ data.length ∧ data.length ≤ 4096 ∧
      ∃ items : List Item, data = items.flatMap Item.bytes ∧ Grammatical items ∧ m = meaning items := by
  constructor
  · intro h
    obtain ⟨hlength, items, rfl, s, hs, hend⟩ := parseReportMapData_isSome.mp (by rw [h]; rfl)
    obtain ⟨hlegal, ht⟩ := applyItems_tracks hs
    refine ⟨hlength.1, hlength.2, items, rfl, (ht.grammatical hlegal).mp hend, ?_⟩
    rw [parse_of_items hlength hs hend] at h
    exact (Option.some_inj.mp h).symm
  · rintro ⟨hpos, hle, items, rfl, hg, rfl⟩
    obtain ⟨s, hs⟩ := applyItems_isOk.mpr hg.toLegal
    obtain ⟨hlegal, ht⟩ := applyItems_tracks hs
    exact parse_of_items ⟨hpos, hle⟩ hs ((ht.grammatical hlegal).mpr hg)

end HidParser

end BleClientHid
