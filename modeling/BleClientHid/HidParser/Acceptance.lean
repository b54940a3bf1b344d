import BleClientHid.HidParser.Legality
import BleClientHid.HidParser.WellFormed

/-! # The parser accepts its grammar

What the parser holds after a legal item list, and that it takes exactly the items that
may follow.
-/

namespace BleClientHid

namespace HidParser

open Lib HIDReportMap

/-! ## The parser's state, read off the items -/

def GlobalState.layout (g : GlobalState) : Layout where
  size := g.reportSize
  count := g.reportCount
  reportId := g.reportId

def fieldDeclaration (f : HIDFieldSchema) : Declaration where
  kind := f.kind
  layout.size := f.reportSize
  layout.count := f.reportCount
  layout.reportId := f.reportId

/-- `s` is what the parser holds after `items`. -/
structure Tracks (items : List Item) (s : ParserState) : Prop where
  inv : ParserInv s
  used : ∀ r ∈ s.map.reports, ∃ f ∈ s.map.fields, r.owns f
  opened : items.countP (Item.is .collection) =
    items.countP (Item.is .endCollection) + s.collectionStack.length
  collections : s.map.collections.length = items.countP (Item.is .collection)
  saved : items.countP (Item.is .push) = items.countP (Item.is .pop) + s.globalStack.length
  globals : Holds Item.scope Layout.note {} items
    (s.globals.layout :: s.globalStack.map GlobalState.layout)
  delimiter : s.locals.delimiterOpen = true ↔ DelimiterOpen items
  fields : s.map.fields.map fieldDeclaration = declarations items

theorem tracks_init : Tracks [] {} where
  inv := parserInv_init
  used := by simp
  opened := rfl
  collections := rfl
  saved := rfl
  globals := holds_nil
  delimiter := by simp [DelimiterOpen, delimiters]
  fields := rfl

theorem Tracks.layout {items : List Item} {s : ParserState} (h : Tracks items s) :
    s.globals.layout = layoutAfter items := h.globals 0 _ rfl

theorem Tracks.mem_reports {items : List Item} {s : ParserState} (h : Tracks items s)
    (key : HIDReportKind × Nat) :
    key ∈ (declarations items).map Declaration.report ↔
      key ∈ s.map.reports.map fun r => (r.kind, r.reportId) := by
  rw [← h.fields]
  simp only [List.map_map, List.mem_map, Function.comp_apply]
  constructor
  · rintro ⟨f, hf, rfl⟩
    obtain ⟨r, hr, howns⟩ := h.inv.schema.fieldReport f hf
    simp only [HIDReportSchema.owns, decide_eq_true_eq] at howns
    exact ⟨r, hr, Prod.ext howns.1 howns.2⟩
  · rintro ⟨r, hr, rfl⟩
    obtain ⟨f, hf, howns⟩ := h.used r hr
    simp only [HIDReportSchema.owns, decide_eq_true_eq] at howns
    exact ⟨f, hf, Prod.ext howns.1.symm howns.2.symm⟩

theorem Tracks.reports_length {items : List Item} {s : ParserState} (h : Tracks items s) :
    ((declarations items).map Declaration.report).toFinset.card = s.map.reports.length := by
  have hnodup : (s.map.reports.map fun r => (r.kind, r.reportId)).Nodup :=
    h.inv.schema.wellFormed.reports_distinct
  rw [← List.length_map fun r : HIDReportSchema => (r.kind, r.reportId), ← List.toFinset_card_of_nodup hnodup]
  congr 1
  ext key
  rw [List.mem_toFinset, List.mem_toFinset]
  exact h.mem_reports key

theorem Tracks.reportBits_eq {items : List Item} {s : ParserState} (h : Tracks items s)
    (kind : HIDReportKind) (reportId : Nat) :
    reportBits (kind, reportId) (declarations items) =
      ((s.map.findReport kind reportId).getD {}).bitSize := by
  have hfields : reportBits (kind, reportId) (declarations items) =
      ((s.map.fieldsOf { kind, reportId }).map HIDFieldSchema.bits).sum := by
    unfold reportBits HIDReportMap.fieldsOf
    rw [← h.fields, List.filter_map, List.map_map]
    congr 2
    apply List.filter_congr
    intro f _
    rw [Bool.eq_iff_iff]
    simp only [Function.comp_apply, Declaration.report, fieldDeclaration, HIDReportSchema.owns,
      beq_iff_eq, Prod.mk.injEq, decide_eq_true_eq]
    exact and_congr eq_comm eq_comm
  rw [hfields]
  cases hfind : s.map.findReport kind reportId with
  | none =>
    have hnone : s.map.fieldsOf { kind, reportId } = [] := by
      apply List.filter_eq_nil_iff.mpr
      intro f hf howns
      obtain ⟨r, hr, hrf⟩ := h.inv.schema.fieldReport f hf
      simp only [HIDReportSchema.owns, decide_eq_true_eq] at howns hrf
      exact findReport_none (by simp [hfind]) r hr ⟨hrf.1.trans howns.1.symm, hrf.2.trans howns.2.symm⟩
    rw [hnone]
    rfl
  | some r =>
    obtain ⟨hr, rfl, rfl⟩ := findReport_spec hfind
    have := (h.inv.schema.tiles r hr).sum
    rw [Nat.zero_add] at this
    exact this.symm

/-! ## Data items -/

theorem findOrAddReport_isSome {m : HIDReportMap} {kind : HIDReportKind} {reportId : Nat} :
    (findOrAddReport m kind reportId).isSome = true ↔
      (m.findReport kind reportId).isSome = true ∨ m.reports.length < maxReports := by
  unfold findOrAddReport
  split_ifs with hfound hlimit
  · exact ⟨fun _ => .inl hfound, fun _ => rfl⟩
  · refine ⟨nofun, ?_⟩
    rintro (h | h)
    · exact absurd h hfound
    · omega
  · exact ⟨fun _ => .inr (by omega), fun _ => rfl⟩

theorem findOrAddReport_mem {m m' : HIDReportMap} {kind : HIDReportKind} {reportId : Nat}
    (h : findOrAddReport m kind reportId = some m') :
    ∀ r ∈ m'.reports, r ∈ m.reports ∨ (r.kind = kind ∧ r.reportId = reportId) := by
  unfold findOrAddReport at h
  split_ifs at h with hfound hlimit <;> cases h
  · exact fun r hr => .inl hr
  · simp only [List.mem_append, List.mem_singleton]
    rintro r (hr | rfl)
    · exact .inl hr
    · exact .inr ⟨rfl, rfl⟩

theorem findOrAddReport_bits {m m' : HIDReportMap} {kind : HIDReportKind} {reportId : Nat}
    (h : findOrAddReport m kind reportId = some m') :
    m'.fields = m.fields ∧
      ((m'.findReport kind reportId).getD {}).bitSize = ((m.findReport kind reportId).getD {}).bitSize := by
  unfold findOrAddReport at h
  split_ifs at h with hfound hlimit <;> cases h
  · exact ⟨rfl, rfl⟩
  · have hnone : m.findReport kind reportId = none := by simpa using hfound
    rw [hnone]
    unfold HIDReportMap.findReport at hnone ⊢
    simp [List.find?_append, hnone]

theorem parseDataItem_isOk {off raw : Nat} {kind : HIDReportKind} {s : ParserState} :
    (∃ s', parseDataItem off kind raw s = .ok s') ↔
      ((1 ≤ s.globals.reportSize ∧ s.globals.reportSize ≤ 32) ∧
        1 ≤ s.globals.reportCount ∧ s.globals.reportCount ≤ maxReportCount) ∧
      s.locals.delimiterOpen = false ∧
      ((s.map.findReport kind s.globals.reportId).isSome = true ∨ s.map.reports.length < maxReports) ∧
      s.map.fields.length < maxFields ∧
      ((s.map.findReport kind s.globals.reportId).getD {}).bitSize +
        s.globals.reportSize * s.globals.reportCount ≤ maxReportBits := by
  constructor
  · rintro ⟨s', h⟩
    obtain ⟨map, r, hmap, hr, -, hfields, hsize, hbits, hopen⟩ := parseDataItem_ok h
    obtain ⟨hfeq, hbeq⟩ := findOrAddReport_bits hmap
    rw [hr, Option.getD_some] at hbeq
    refine ⟨by omega, hopen, findOrAddReport_isSome.mp (by simp [hmap]), by rwa [← hfeq], by rwa [← hbeq]⟩
  · rintro ⟨hsize, hopen, hroom, hfields, hbits⟩
    obtain ⟨map, hmap⟩ := Option.isSome_iff_exists.mp (findOrAddReport_isSome.mpr hroom)
    obtain ⟨hfeq, hbeq⟩ := findOrAddReport_bits hmap
    simp only [parseDataItem, fail, hmap, hopen, hfeq, hbeq]
    rw [if_neg (by omega), if_neg (by simp), if_neg (by omega), if_neg (by omega)]
    exact ⟨_, rfl⟩

/-! ## One item -/

theorem countP_concat (tag : ItemTag) (items : List Item) (i : Item) :
    (items ++ [i]).countP (Item.is tag) = items.countP (Item.is tag) + if i.tag = tag then 1 else 0 := by
  rw [List.countP_append, List.countP_singleton]
  simp only [Item.is_iff]

/-- The items that only set globals and locals, and the unknown ones. -/
def ItemTag.isPlain : ItemTag → Bool
  | .push | .pop | .delimiter | .collection | .endCollection | .data _ => false
  | _ => true

theorem ItemTag.ne_of_isPlain {t u : ItemTag} (ht : t.isPlain = true) (hu : u.isPlain = false) : t ≠ u := by
  rintro rfl
  rw [ht] at hu
  cases hu

structure PlainStep (i : Item) (s s' : ParserState) : Prop where
  schema : SameSchema s s'
  saved : s'.globalStack = s.globalStack
  layout : s'.globals.layout = s.globals.layout.note i
  delimiter : s'.locals.delimiterOpen = (!i.isMain && s.locals.delimiterOpen)

theorem applyItem_plain {off : Nat} {i : Item} {s s' : ParserState} (hplain : i.tag.isPlain = true)
    (h : applyItem off i s = .ok s') : PlainStep i s s' := by
  cases i with
  | long tag payload hpayload =>
    cases h
    exact ⟨⟨rfl, rfl⟩, rfl, rfl, rfl⟩
  | short p data hlong hdata =>
    generalize hi : Item.short p data hlong hdata = i at hplain ⊢
    have htagp : i.tag = itemTag p.toNat := by rw [← hi]; rfl
    have hraw : i.raw = readUnsignedItem data := by rw [← hi]; rfl
    have hmain : i.isMain = (p.toNat &&& 0x0C == 0x00) := by rw [← hi]; rfl
    simp only [applyItem] at h
    cases htag : itemTag p.toNat <;> simp only [parseItem, htag, fail] at h <;>
      rw [htag] at htagp <;> simp only [htagp, ItemTag.isPlain, reduceCtorEq] at hplain
    case usagePage =>
      split at h <;> cases h
      exact ⟨⟨rfl, rfl⟩, rfl, by simp [Layout.note, htagp, GlobalState.layout],
        by simp [i.isMain_of_tag, htagp, ItemTag.isMain]⟩
    case reportId =>
      split at h <;> cases h
      exact ⟨⟨rfl, rfl⟩, rfl, by simp [Layout.note, htagp, GlobalState.layout, hraw],
        by simp [i.isMain_of_tag, htagp, ItemTag.isMain]⟩
    case unknown =>
      split at h
      · rename_i hmask
        cases h
        exact ⟨⟨rfl, rfl⟩, rfl, by simp [Layout.note, htagp], by simp [hmain, hmask]⟩
      · rename_i hmask
        cases h
        exact ⟨⟨rfl, rfl⟩, rfl, by simp [Layout.note, htagp], by simp [hmain, hmask]⟩
    all_goals
      cases h
      exact ⟨⟨rfl, rfl⟩, rfl, by simp [Layout.note, htagp, GlobalState.layout, hraw],
        by simp [i.isMain_of_tag, htagp, ItemTag.isMain, LocalState.pushUsage]⟩

theorem applyItem_plain_isOk {off : Nat} {i : Item} {s : ParserState} (hplain : i.tag.isPlain = true) :
    (∃ s', applyItem off i s = .ok s') ↔
      (i.tag = .usagePage → i.raw < 2 ^ 16) ∧ (i.tag = .reportId → 1 ≤ i.raw ∧ i.raw ≤ 255) := by
  cases i with
  | long tag payload hpayload => simp [applyItem, Item.tag]
  | short p data hlong hdata =>
    simp only [applyItem, Item.tag, Item.raw] at hplain ⊢
    cases htag : itemTag p.toNat <;> simp only [parseItem, htag, fail] <;>
      simp only [htag, ItemTag.isPlain, reduceCtorEq] at hplain
    case usagePage =>
      split
      · simp
        omega
      · simp [setGlobals]
        omega
    case reportId =>
      split
      · simp
        omega
      · simp [setGlobals]
        omega
    case unknown => split <;> simp [setLocals]
    all_goals simp [setGlobals, setLocals]

/-! ## The state after one item -/

section
variable {items : List Item} {i : Item} {s s' : ParserState} {off : Nat}

theorem applyItem_inv (hs : ParserInv s) (h : applyItem off i s = .ok s') : ParserInv s' := by
  cases i with
  | short => exact parseItem_inv hs h
  | long =>
    cases h
    exact hs

theorem delimiterOpen_main (hmain : i.isMain = true) : ¬ DelimiterOpen (items ++ [i]) := by
  rw [DelimiterOpen, delimiters_concat, if_pos hmain]
  simp

theorem delimiterOpen_concat (hmain : i.isMain = false) (hdelim : i.tag ≠ .delimiter) :
    DelimiterOpen (items ++ [i]) ↔ DelimiterOpen items := by
  rw [DelimiterOpen, delimiters_concat, hmain, if_neg Bool.false_ne_true,
    if_neg (fun h => hdelim (Item.is_iff.mp h)), List.append_nil]
  rfl

/-- An item that leaves the schema alone, once the scopes and the delimiter are dealt with. -/
theorem Tracks.same (hs : Tracks items s) (hinv : ParserInv s') (hsame : SameSchema s s')
    (hcol : i.tag ≠ .collection) (hend : i.tag ≠ .endCollection) (hdata : ∀ kind, i.tag ≠ .data kind)
    (hsaved : (items ++ [i]).countP (Item.is .push) =
      (items ++ [i]).countP (Item.is .pop) + s'.globalStack.length)
    (hglobals : Holds Item.scope Layout.note {} (items ++ [i])
      (s'.globals.layout :: s'.globalStack.map GlobalState.layout))
    (hdelim : s'.locals.delimiterOpen = true ↔ DelimiterOpen (items ++ [i])) :
    Tracks (items ++ [i]) s' := by
  obtain ⟨hmap, hstack⟩ := hsame
  have hnone : i.declares items = none := by
    rw [Option.eq_none_iff_forall_not_mem]
    intro d hd
    exact hdata _ (Item.declares_eq_some.mp hd).1
  refine ⟨hinv, ?_, ?_, ?_, hsaved, hglobals, hdelim, ?_⟩
  · rw [hmap]
    exact hs.used
  · rw [countP_concat, countP_concat, if_neg hcol, if_neg hend, hstack]
    exact hs.opened
  · rw [countP_concat, if_neg hcol, hmap]
    exact hs.collections
  · rw [declarations_other hnone, hmap]
    exact hs.fields

theorem Tracks.plain (hs : Tracks items s) (hplain : i.tag.isPlain = true)
    (h : applyItem off i s = .ok s') : Tracks (items ++ [i]) s' := by
  obtain ⟨hsame, hstack, hlayout, hopen⟩ := applyItem_plain hplain h
  have hne : ∀ t : ItemTag, t.isPlain = false → i.tag ≠ t := fun t => ItemTag.ne_of_isPlain hplain
  have hscope : i.scope = .plain := by
    unfold Item.scope
    have hpush := hne .push rfl
    have hpop := hne .pop rfl
    cases htag : i.tag <;> simp_all
  refine hs.same (applyItem_inv hs.inv h) hsame (hne _ rfl) (hne _ rfl) (fun kind => hne _ rfl) ?_ ?_ ?_
  · rw [countP_concat, countP_concat, if_neg (hne _ rfl), if_neg (hne _ rfl), hstack]
    exact hs.saved
  · rw [hlayout, hstack]
    exact hs.globals.plain hscope
  · rw [hopen]
    cases hmain : i.isMain
    · rw [delimiterOpen_concat hmain (hne _ rfl)]
      exact hs.delimiter
    · exact iff_of_false Bool.false_ne_true (delimiterOpen_main hmain)

theorem Tracks.push (hs : Tracks items s) (htag : i.tag = .push) :
    Tracks (items ++ [i]) { s with globalStack := s.globals :: s.globalStack } := by
  refine hs.same ⟨hs.inv.schema, hs.inv.fresh, hs.inv.opened⟩ ⟨rfl, rfl⟩ (by simp [htag]) (by simp [htag])
    (by simp [htag]) ?_ ?_ ?_
  · have := hs.saved
    rw [countP_concat, countP_concat, if_pos htag, if_neg (by simp [htag]), List.length_cons]
    omega
  · exact hs.globals.enter (by simp [Item.scope, htag])
  · rw [delimiterOpen_concat (by simp [i.isMain_of_tag, htag, ItemTag.isMain]) (by simp [htag])]
    exact hs.delimiter

theorem Tracks.pop (hs : Tracks items s) (htag : i.tag = .pop) {top : GlobalState}
    {rest : List GlobalState} (hstack : s.globalStack = top :: rest) :
    Tracks (items ++ [i]) { s with
      globals := top
      globalStack := rest } := by
  have hglobals := hs.globals
  rw [hstack] at hglobals
  refine hs.same ⟨hs.inv.schema, hs.inv.fresh, hs.inv.opened⟩ ⟨rfl, rfl⟩ (by simp [htag]) (by simp [htag])
    (by simp [htag]) ?_ ?_ ?_
  · have := hs.saved
    rw [hstack, List.length_cons] at this
    rw [countP_concat, countP_concat, if_pos htag, if_neg (by simp [htag])]
    dsimp only
    omega
  · exact hglobals.leave (by simp [Item.scope, htag])
  · rw [delimiterOpen_concat (by simp [i.isMain_of_tag, htag, ItemTag.isMain]) (by simp [htag])]
    exact hs.delimiter

theorem Tracks.delimiter_step (hs : Tracks items s) (htag : i.tag = .delimiter) {locals : LocalState}
    (hopen : locals.delimiterOpen = true ↔ i.raw = 1) :
    Tracks (items ++ [i]) { s with locals } := by
  refine hs.same ⟨hs.inv.schema, hs.inv.fresh, hs.inv.opened⟩ ⟨rfl, rfl⟩ (by simp [htag]) (by simp [htag])
    (by simp [htag]) ?_ ?_ ?_
  · rw [countP_concat, countP_concat, if_neg (by simp [htag]), if_neg (by simp [htag])]
    exact hs.saved
  · have hnote : s.globals.layout.note i = s.globals.layout := by simp [Layout.note, htag]
    rw [← hnote]
    exact hs.globals.plain (by simp [Item.scope, htag])
  · rw [DelimiterOpen, delimiters_concat, i.isMain_of_tag (by simp [htag]), htag, if_neg (by decide),
      if_pos (Item.is_iff.mpr htag), List.getLast?_concat, Option.some_inj]
    exact hopen

theorem Tracks.globals_main (hs : Tracks items s) (hmain : i.tag.isMain = true) :
    Holds Item.scope Layout.note {} (items ++ [i]) (s.globals.layout :: s.globalStack.map GlobalState.layout) := by
  have hnote : s.globals.layout.note i = s.globals.layout := by
    unfold Layout.note
    cases htag : i.tag <;> simp_all [ItemTag.isMain]
  have hscope : i.scope = .plain := by
    unfold Item.scope
    cases htag : i.tag <;> simp_all [ItemTag.isMain]
  rw [← hnote]
  exact hs.globals.plain hscope

theorem Tracks.saved_main (hs : Tracks items s) (hmain : i.tag.isMain = true) :
    (items ++ [i]).countP (Item.is .push) = (items ++ [i]).countP (Item.is .pop) + s.globalStack.length := by
  rw [countP_concat, countP_concat]
  cases htag : i.tag <;> simp_all [ItemTag.isMain, hs.saved]

theorem Tracks.collection (hs : Tracks items s) (htag : i.tag = .collection)
    (h : parseCollection off i.raw s = .ok s') : Tracks (items ++ [i]) s' := by
  have hinv := parseCollection_inv hs.inv h
  have hmain : i.isMain = true := by simp [i.isMain_of_tag, htag, ItemTag.isMain]
  unfold parseCollection fail at h
  split at h <;> cases h
  have hnone : i.declares items = none := by simp [Item.declares, htag]
  refine ⟨hinv, hs.used, ?_, ?_, hs.saved_main (by simp [htag, ItemTag.isMain]),
    hs.globals_main (by simp [htag, ItemTag.isMain]), ?_, ?_⟩
  · have := hs.opened
    rw [countP_concat, countP_concat, if_pos htag, if_neg (by simp [htag]), List.length_cons]
    omega
  · have := hs.collections
    rw [countP_concat, if_pos htag, List.length_append, List.length_singleton]
    omega
  · exact iff_of_false Bool.false_ne_true (delimiterOpen_main hmain)
  · rw [declarations_other hnone]
    exact hs.fields

theorem Tracks.endCollection (hs : Tracks items s) (htag : i.tag = .endCollection)
    (h : parseEndCollection off s = .ok s') : Tracks (items ++ [i]) s' := by
  have hinv := parseEndCollection_inv hs.inv h
  have hmain : i.isMain = true := by simp [i.isMain_of_tag, htag, ItemTag.isMain]
  unfold parseEndCollection fail at h
  split at h <;> cases h
  rename_i id rest hstack
  have hnone : i.declares items = none := by simp [Item.declares, htag]
  refine ⟨hinv, hs.used, ?_, ?_, hs.saved_main (by simp [htag, ItemTag.isMain]),
    hs.globals_main (by simp [htag, ItemTag.isMain]), ?_, ?_⟩
  · have := hs.opened
    rw [hstack, List.length_cons] at this
    rw [countP_concat, countP_concat, if_pos htag, if_neg (by simp [htag])]
    dsimp only
    omega
  · rw [countP_concat, if_neg (by simp [htag])]
    exact hs.collections
  · exact iff_of_false Bool.false_ne_true (delimiterOpen_main hmain)
  · rw [declarations_other hnone]
    exact hs.fields

theorem Tracks.data {kind : HIDReportKind} (hs : Tracks items s) (htag : i.tag = .data kind)
    (h : parseDataItem off kind i.raw s = .ok s') : Tracks (items ++ [i]) s' := by
  have hinv := parseDataItem_inv hs.inv h
  have hmain : i.isMain = true := by simp [i.isMain_of_tag, htag, ItemTag.isMain]
  obtain ⟨map, r, hmap, hr, rfl, -⟩ := parseDataItem_ok h
  obtain ⟨hm, hfeq, hceq, -⟩ := findOrAddReport_inv hs.inv.schema hmap
  have hdecl : i.declares items = some ⟨kind, s.globals.layout⟩ :=
    Item.declares_eq_some.mpr ⟨htag, hs.layout⟩
  refine ⟨hinv, ?_, ?_, ?_, hs.saved_main (by simp [htag, ItemTag.isMain]),
    hs.globals_main (by simp [htag, ItemTag.isMain]), ?_, ?_⟩
  · intro q hq
    simp only [declareField, List.mem_append, List.mem_singleton]
    rcases declareField_reports hm.distinct hr i.raw q hq with rfl | ⟨hmem, hnot⟩
    · obtain ⟨-, hreport⟩ := findReport_spec hr
      refine ⟨_, .inr rfl, ?_⟩
      rw [appendField_owns]
      exact (makeField_owner r).mpr hreport
    · have hother := mt (makeField_owner q).mpr (Bool.not_eq_true _ ▸ hnot)
      obtain ⟨f, hf, howns⟩ := hs.used q ((findOrAddReport_mem hmap q hmem).resolve_right hother)
      exact ⟨f, .inl (hfeq ▸ hf), howns⟩
  · rw [countP_concat, countP_concat, if_neg (by simp [htag]), if_neg (by simp [htag])]
    exact hs.opened
  · rw [countP_concat, if_neg (by simp [htag])]
    exact hceq ▸ hs.collections
  · exact iff_of_false Bool.false_ne_true (delimiterOpen_main hmain)
  · rw [declarations_data hdecl, ← hs.fields, ← hfeq]
    simp only [declareField, List.map_append, List.map_cons, List.map_nil]
    rfl

end

/-! ## The run -/

section
variable {items : List Item} {i : Item} {s s' : ParserState} {off : Nat}

/-- An item with an effect of its own is a short one. -/
theorem applyItem_short (off : Nat) (i : Item) (s : ParserState) (hplain : ¬ i.tag.isPlain = true) :
    ∃ p : UInt8, itemTag p.toNat = i.tag ∧ applyItem off i s = parseItem off p.toNat i.raw s := by
  cases i with
  | short p data => exact ⟨p, rfl, rfl⟩
  | long => exact absurd rfl hplain

theorem Tracks.fits (hs : Tracks items s) (hlegal : Legal items) (kind : HIDReportKind) (raw : Nat) :
    (∃ s', parseDataItem off kind raw s = .ok s') ↔
      Fits (declarations items) ⟨kind, layoutAfter items⟩ ∧ ¬ DelimiterOpen items := by
  have hbits := hs.reportBits_eq kind s.globals.reportId
  have hlen : s.map.fields.length = (declarations items).length := by
    rw [← hs.fields, List.length_map]
  have hcard := hs.reports_length
  have hle := hlegal.declarations.reports_le
  have hroom : ((s.map.findReport kind s.globals.reportId).isSome = true ∨
        s.map.reports.length < maxReports) ↔
      ((declarations items ++ [(⟨kind, s.globals.layout⟩ : Declaration)]).map
        Declaration.report).toFinset.card ≤ 64 := by
    have hfound : (s.map.findReport kind s.globals.reportId).isSome = true ↔
        (kind, s.globals.reportId) ∈ ((declarations items).map Declaration.report).toFinset := by
      rw [List.mem_toFinset, hs.mem_reports]
      simp [HIDReportMap.findReport, List.find?_isSome]
    have hset : ((declarations items ++ [(⟨kind, s.globals.layout⟩ : Declaration)]).map
          Declaration.report).toFinset =
        insert (kind, s.globals.reportId) ((declarations items).map Declaration.report).toFinset := by
      ext key
      simp [Declaration.report, GlobalState.layout]
    rw [hset, hfound, ← hcard]
    -- A report that is there already takes no room.
    by_cases hmem : (kind, s.globals.reportId) ∈ ((declarations items).map Declaration.report).toFinset
    · rw [Finset.insert_eq_of_mem hmem]
      exact iff_of_true (.inl hmem) hle
    · rw [Finset.card_insert_of_notMem hmem]
      exact ⟨fun h => h.resolve_left hmem, fun h => .inr h⟩
  rw [parseDataItem_isOk, hroom, hlen, ← hbits, ← hs.layout, ← hs.delimiter, Bool.not_eq_true]
  constructor
  · rintro ⟨⟨hsize, hcount⟩, hopen, hreports, hfields, hbits⟩
    exact ⟨⟨hsize, hcount, hreports, hfields, hbits⟩, hopen⟩
  · rintro ⟨⟨hsize, hcount, hreports, hfields, hbits⟩, hopen⟩
    exact ⟨⟨hsize, hcount⟩, hopen, hreports, hfields, hbits⟩

theorem error_not_ok {e : HIDParserDiagnostic} :
    ¬ ∃ s' : ParserState, (.error e : ParseResult ParserState) = .ok s' := by
  rintro ⟨s', h⟩
  cases h

theorem parseDelimiter_isOk (hs : Tracks items s) (hlegal : Legal items) (raw : Nat) :
    (∃ s', parseDelimiter off raw s = .ok s') ↔ raw = ((delimiters items).length + 1) % 2 := by
  have hopen : s.locals.delimiterOpen = true ↔ (delimiters items).length % 2 = 1 :=
    hs.delimiter.trans (hlegal.delimiters _ (List.prefix_refl _)).open_iff
  unfold parseDelimiter fail
  split_ifs with hone hdelim hzero hdelim
  · rw [hopen] at hdelim
    exact iff_of_false (by simp) (by omega)
  · rw [hopen] at hdelim
    exact iff_of_true ⟨_, rfl⟩ (by omega)
  · rw [hopen] at hdelim
    exact iff_of_true ⟨_, rfl⟩ (by omega)
  · rw [hopen] at hdelim
    exact iff_of_false (by simp) (by omega)
  · exact iff_of_false (by simp) (by omega)

theorem parseItem_push_isOk (hs : Tracks items s) {prefixByte : Nat} (hp : itemTag prefixByte = .push) (raw : Nat) :
    (∃ s', parseItem off prefixByte raw s = .ok s') ↔
      items.countP (Item.is .push) < items.countP (Item.is .pop) + 16 := by
  have hsaved := hs.saved
  have hmax : maxGlobalStackDepth = 16 := rfl
  simp only [parseItem, hp, fail]
  by_cases hfull : s.globalStack.length ≥ maxGlobalStackDepth
  · rw [if_pos hfull]
    exact iff_of_false error_not_ok (by omega)
  · rw [if_neg hfull]
    exact iff_of_true ⟨_, rfl⟩ (by omega)

theorem parseItem_pop_isOk (hs : Tracks items s) {prefixByte : Nat} (hp : itemTag prefixByte = .pop) (raw : Nat) :
    (∃ s', parseItem off prefixByte raw s = .ok s') ↔
      items.countP (Item.is .pop) < items.countP (Item.is .push) := by
  have hsaved := hs.saved
  simp only [parseItem, hp, fail]
  cases hstack : s.globalStack with
  | nil =>
    rw [hstack, List.length_nil] at hsaved
    exact iff_of_false error_not_ok (by omega)
  | cons top rest =>
    rw [hstack, List.length_cons] at hsaved
    exact iff_of_true ⟨_, rfl⟩ (by omega)

theorem parseCollection_isOk (hs : Tracks items s) (raw : Nat) :
    (∃ s', parseCollection off raw s = .ok s') ↔ items.countP (Item.is .collection) < 128 ∧
      items.countP (Item.is .collection) < items.countP (Item.is .endCollection) + 32 := by
  have hopened := hs.opened
  have hcollections := hs.collections
  unfold parseCollection fail maxCollections maxCollectionDepth
  split
  · exact iff_of_false error_not_ok (by omega)
  · exact iff_of_true ⟨_, rfl⟩ (by omega)

theorem parseEndCollection_isOk (hs : Tracks items s) :
    (∃ s', parseEndCollection off s = .ok s') ↔
      items.countP (Item.is .endCollection) < items.countP (Item.is .collection) := by
  have hopened := hs.opened
  unfold parseEndCollection fail
  split
  · rename_i hstack
    rw [hstack, List.length_nil] at hopened
    exact iff_of_false error_not_ok (by omega)
  · rename_i hstack
    rw [hstack, List.length_cons] at hopened
    exact iff_of_true ⟨_, rfl⟩ (by omega)

theorem applyItem_isOk (hs : Tracks items s) (hlegal : Legal items) :
    (∃ s', applyItem off i s = .ok s') ↔ Follows items i := by
  by_cases hplain : i.tag.isPlain = true
  · rw [applyItem_plain_isOk hplain]
    -- a plain item has none of the other tags, so only its own range counts
    have hne : ∀ t : ItemTag, t.isPlain = false → i.tag ≠ t := fun t => ItemTag.ne_of_isPlain hplain
    constructor
    · rintro ⟨hpage, hid⟩
      exact ⟨fun ht => absurd ht (hne _ rfl), fun ht => absurd ht (hne _ rfl), fun ht => absurd ht (hne _ rfl),
        fun ht => absurd ht (hne _ rfl), hpage, hid, fun ht => absurd ht (hne _ rfl),
        fun _ ht => absurd ht (hne _ rfl)⟩
    · exact fun h => ⟨h.usagePage, h.reportId⟩
  obtain ⟨p, hp, happly⟩ := applyItem_short off i s hplain
  rw [happly]
  cases htag : i.tag <;> simp only [htag, ItemTag.isPlain, not_true_eq_false] at hplain <;> rw [htag] at hp
  case push =>
    rw [parseItem_push_isOk hs hp]
    refine ⟨fun h => ?_, fun h => h.push htag⟩
    constructor <;> simp [htag, h]
  case pop =>
    rw [parseItem_pop_isOk hs hp]
    refine ⟨fun h => ?_, fun h => h.pop htag⟩
    constructor <;> simp [htag, h]
  case delimiter =>
    -- open and close in turn
    simp only [parseItem, hp]
    rw [parseDelimiter_isOk hs hlegal]
    constructor
    · intro h
      refine ⟨by simp [htag], by simp [htag], by simp [htag], by simp [htag], by simp [htag], by simp [htag],
        fun _ => h, by simp [htag]⟩
    · exact fun h => h.delimiter htag
  case collection =>
    simp only [parseItem, hp]
    rw [parseCollection_isOk hs]
    refine ⟨fun h => ?_, fun h => h.collection htag⟩
    constructor <;> simp [htag, h]
  case endCollection =>
    simp only [parseItem, hp]
    rw [parseEndCollection_isOk hs]
    refine ⟨fun h => ?_, fun h => h.endCollection htag⟩
    constructor <;> simp [htag, h]
  case data kind =>
    -- the one item with limits of its own
    simp only [parseItem, hp]
    rw [hs.fits hlegal]
    constructor
    · intro h
      refine ⟨by simp [htag], by simp [htag], by simp [htag], by simp [htag], by simp [htag], by simp [htag],
        by simp [htag], ?_⟩
      intro kind' hkind
      rw [htag] at hkind
      cases hkind
      exact h
    · exact fun h => h.data kind htag

/-- What one item does to a state that tracks the items before it. -/
theorem Tracks.concat (hs : Tracks items s) (hlegal : Legal items) (h : applyItem off i s = .ok s') :
    Tracks (items ++ [i]) s' := by
  by_cases hplain : i.tag.isPlain = true
  · exact hs.plain hplain h
  have hfollows : Follows items i := (applyItem_isOk hs hlegal).mp ⟨s', h⟩
  obtain ⟨p, hp, happly⟩ := applyItem_short off i s hplain
  rw [happly] at h
  cases htag : i.tag <;> simp only [htag, ItemTag.isPlain, not_true_eq_false] at hplain <;>
    simp only [parseItem, hp, htag] at h
  case push =>
    split at h <;> cases h
    exact hs.push htag
  case pop =>
    split at h <;> cases h
    rename_i hstack
    exact hs.pop htag hstack
  case delimiter =>
    unfold parseDelimiter fail at h
    split_ifs at h with hone hdelim hzero hdelim <;> cases h
    · exact hs.delimiter_step htag (by simp [hone])
    · exact hs.delimiter_step htag (by simp [hzero])
  case collection => exact hs.collection htag h
  case endCollection => exact hs.endCollection htag h
  case data kind => exact hs.data htag h

theorem applyItems_tracks (h : applyItems 0 items {} = .ok s) : Legal items ∧ Tracks items s := by
  induction items using List.reverseRecOn generalizing s with
  | nil =>
    cases h
    exact ⟨legal_nil, tracks_init⟩
  | append_singleton items i ih =>
    obtain ⟨s1, h1, hi⟩ := applyItems_concat.mp h
    obtain ⟨hlegal, hs⟩ := ih h1
    exact ⟨hlegal.concat ((applyItem_isOk hs hlegal).mp ⟨s, hi⟩), hs.concat hlegal hi⟩

theorem applyItems_isOk : (∃ s, applyItems 0 items {} = .ok s) ↔ Legal items := by
  constructor
  · rintro ⟨s, h⟩
    exact (applyItems_tracks h).1
  · intro h
    induction items using List.reverseRecOn with
    | nil => exact ⟨_, rfl⟩
    | append_singleton items i ih =>
      obtain ⟨s, hs⟩ := ih h.before
      obtain ⟨hlegal, htracks⟩ := applyItems_tracks hs
      obtain ⟨s', hs'⟩ := (applyItem_isOk htracks hlegal).mpr h.follows
      exact ⟨s', applyItems_concat.mpr ⟨s, hs, hs'⟩⟩

theorem Tracks.grammatical (hs : Tracks items s) (hlegal : Legal items) :
    (s.collectionStack = [] ∧ s.map.reports ≠ []) ↔ Grammatical items := by
  have hstack : s.collectionStack = [] ↔
      items.countP (Item.is .collection) = items.countP (Item.is .endCollection) := by
    rw [← List.length_eq_zero_iff, hs.opened]
    omega
  have hreports : s.map.reports ≠ [] ↔ ∃ i ∈ items, ∃ kind, i.tag = .data kind := by
    rw [ne_eq, ← List.length_eq_zero_iff, ← hs.reports_length, Finset.card_eq_zero, List.toFinset_eq_empty_iff,
      List.map_eq_nil_iff, declarations_eq_nil]
    simp only [ne_eq, not_forall, not_not, exists_prop]
  rw [hstack, hreports]
  exact ⟨fun h => ⟨hlegal, h.1, h.2⟩, fun h => ⟨h.balanced, h.declared⟩⟩

end

/-- Whatever the bytes, there is a map exactly when the grammar has them. -/
theorem parseReportMapData_accepts (data : List UInt8) :
    (parseReportMapData (.bytes data)).isSome = true ↔ IsReportMap data := by
  rw [parseReportMapData_isSome, IsReportMap, and_assoc]
  refine and_congr_right fun _ => and_congr_right fun _ => ?_
  constructor
  · rintro ⟨items, hdata, s, h, hend⟩
    obtain ⟨hlegal, hs⟩ := applyItems_tracks h
    exact ⟨items, hdata, (hs.grammatical hlegal).mp hend⟩
  · rintro ⟨items, hdata, hg⟩
    obtain ⟨s, h⟩ := applyItems_isOk.mpr hg.toLegal
    obtain ⟨hlegal, hs⟩ := applyItems_tracks h
    exact ⟨items, hdata, s, h, (hs.grammatical hlegal).mpr hg⟩

end HidParser

end BleClientHid
