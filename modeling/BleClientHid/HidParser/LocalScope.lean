import BleClientHid.HidParser.Acceptance
import BleClientHid.HidParser.GlobalOrder

/-! # Local items end with their Main item

Two prefixes that differ in their Local items leave the parser in states that differ in the
local attributes of what was declared so far, and the rest of the string never looks at these.
-/

namespace BleClientHid

/-! ## Without the local attributes -/

/-- A field as its Global items declare it. -/
def HIDFieldSchema.withoutLocals (f : HIDFieldSchema) : HIDFieldSchema :=
  { f with
    usages := [], alternativeUsages := [], usageMinimum := {}, usageMaximum := {}, hasUsageRange := false
    stringIndices := [], stringMinimum := 0, stringMaximum := 0, hasStringRange := false
    designatorIndices := [], designatorMinimum := 0, designatorMaximum := 0, hasDesignatorRange := false }

def HIDCollectionSchema.withoutLocals (c : HIDCollectionSchema) : HIDCollectionSchema :=
  { c with usage := {}, aliases := [] }

def HIDReportMap.withoutLocals (m : HIDReportMap) : HIDReportMap :=
  { m with
    fields := m.fields.map HIDFieldSchema.withoutLocals
    collections := m.collections.map HIDCollectionSchema.withoutLocals }

namespace HidParser

open HIDReportMap

def ParserState.withoutLocals (s : ParserState) : ParserState :=
  { s with map := s.map.withoutLocals, locals := {} }

/-! ## Local items -/

/-- Usages, designators, strings, delimiters and the reserved Local items. -/
def Item.isLocal : Item → Bool
  | .short prefixByte .. => prefixByte.toNat &&& 0x0C == 0x08
  | .long .. => false

def ItemTag.isLocal : ItemTag → Bool
  | .usage | .usageMinimum | .usageMaximum | .designatorIndex | .designatorMinimum | .designatorMaximum
  | .stringIndex | .stringMinimum | .stringMaximum | .delimiter => true
  | _ => false

theorem itemTag_isLocal :
    ∀ p < 256, itemTag p ≠ .unknown → (p &&& 0x0C == 0x08) = (itemTag p).isLocal := by
  decide +kernel

theorem Item.isLocal_of_tag (i : Item) (h : i.tag ≠ .unknown) : i.isLocal = i.tag.isLocal := by
  cases i with
  | short p data => exact itemTag_isLocal p.toNat p.toNat_lt h
  | long => exact absurd rfl h

section
variable {i : Item} {s t : ParserState}

theorem effect_local (hlocal : i.isLocal = true) (h : effect i s = some t) :
    t.withoutLocals = s.withoutLocals := by
  cases i with
  | long => cases hlocal
  | short p data hlong hdata =>
    have hmask : p.toNat &&& 0x0C = 0x08 := beq_iff_eq.mp hlocal
    have htag : itemTag p.toNat ≠ .unknown → (itemTag p.toNat).isLocal = true :=
      fun hknown => ((Item.short p data hlong hdata).isLocal_of_tag hknown).symm.trans hlocal
    unfold effect applyItem at h
    cases hp : itemTag p.toNat <;> rw [hp] at htag <;>
      simp only [ItemTag.isLocal, Bool.false_eq_true, ne_eq, reduceCtorEq, not_false_eq_true, imp_false,
        not_true_eq_false] at htag <;>
      simp only [parseItem, hp] at h
    case delimiter =>
      unfold parseDelimiter fail at h
      split_ifs at h <;> cases h <;> rfl
    case unknown =>
      rw [if_neg (by simp [hmask])] at h
      cases h
      rfl
    all_goals
      cases h
      rfl

theorem declareField_withoutLocals (s : ParserState) (m : HIDReportMap) (kind : HIDReportKind) (raw n : Nat) :
    declareField s.withoutLocals m.withoutLocals kind raw n = (declareField s m kind raw n).withoutLocals := by
  simp only [declareField, ParserState.withoutLocals, HIDReportMap.withoutLocals, List.map_append,
    List.map_singleton, makeField, List.length_map]
  rfl

theorem parseDataItem_withoutLocals (kind : HIDReportKind) (raw : Nat) (hopen : s.locals.delimiterOpen = false) :
    (parseDataItem 0 kind raw s.withoutLocals).toOption =
      (parseDataItem 0 kind raw s).toOption.map ParserState.withoutLocals := by
  have hglobals : s.withoutLocals.globals = s.globals := rfl
  have hclosed : s.withoutLocals.locals.delimiterOpen = false := rfl
  have hmap : s.withoutLocals.map = s.map.withoutLocals := rfl
  have hreport := @findOrAddReport_erased HIDReportMap.withoutLocals (fun _ => rfl) fun _ _ => rfl
  simp only [parseDataItem, hglobals, hclosed, hopen, hmap, hreport, Bool.false_eq_true, if_false]
  split
  · rfl
  · cases findOrAddReport s.map kind s.globals.reportId with
    | none => rfl
    | some m =>
      have hlength : m.withoutLocals.fields.length = m.fields.length := List.length_map _
      have hfind : m.withoutLocals.findReport kind s.globals.reportId = m.findReport kind s.globals.reportId := rfl
      simp only [Option.map_some, hlength, hfind]
      split
      · rfl
      · split
        · rfl
        · exact congrArg some (declareField_withoutLocals s m kind raw _)

/-- Any other item does not look at the local attributes of what was declared, and without Local items
in front of it it declares none. -/
theorem effect_withoutLocals (hlocal : i.isLocal = false) (h : effect i s = some t) :
    effect i s.withoutLocals = some t.withoutLocals := by
  cases i with
  | long =>
    cases h
    rfl
  | short p data hlong hdata =>
    have htag : itemTag p.toNat ≠ .unknown → (itemTag p.toNat).isLocal = false :=
      fun hknown => ((Item.short p data hlong hdata).isLocal_of_tag hknown).symm.trans hlocal
    have hcollections : s.withoutLocals.map.collections.length = s.map.collections.length := List.length_map _
    have hopened : s.withoutLocals.collectionStack = s.collectionStack := rfl
    have hsaved : s.withoutLocals.globalStack = s.globalStack := rfl
    unfold effect applyItem at h ⊢
    cases hp : itemTag p.toNat <;> rw [hp] at htag <;>
      simp only [ItemTag.isLocal, Bool.true_eq_false, ne_eq, reduceCtorEq, not_false_eq_true, imp_false,
        not_true_eq_false] at htag <;>
      simp only [parseItem, hp] at h ⊢
    case data kind =>
      -- a data item looks at the open Delimiter; that one is closed where the item is accepted
      have hopen : s.locals.delimiterOpen = false := by
        cases hok : parseDataItem 0 kind (readUnsignedItem data) s with
        | error e =>
          rw [hok] at h
          cases h
        | ok s' =>
          obtain ⟨-, -, -, -, -, -, -, -, hclosed⟩ := parseDataItem_ok hok
          exact hclosed
      rw [parseDataItem_withoutLocals kind _ hopen, h]
      rfl
    case collection =>
      -- only the number of collections decides
      simp only [parseCollection, hcollections, hopened, fail] at h ⊢
      split at h
      · cases h
      · rename_i hroom
        rw [if_neg hroom]
        cases h
        simp only [ParserState.withoutLocals, HIDReportMap.withoutLocals, List.map_append, List.map_singleton]
        rfl
    case endCollection =>
      simp only [parseEndCollection, hopened, fail] at h ⊢
      split at h <;> cases h
      rfl
    case usagePage =>
      split at h <;> rename_i hraw <;> cases h
      rw [if_neg hraw]
      rfl
    case reportId =>
      split at h <;> rename_i hraw <;> cases h
      rw [if_neg hraw]
      rfl
    case push =>
      rw [hsaved]
      split at h <;> rename_i hroom <;> cases h
      rw [if_neg hroom]
      rfl
    case pop =>
      rw [hsaved]
      split at h <;> cases h
      rfl
    case unknown =>
      split at h <;> rename_i hmask <;> cases h
      · rw [if_pos hmask]
        rfl
      · rw [if_neg hmask]
        rfl
    all_goals
      cases h
      rfl

/-- Every Main item leaves the local state as it was in the beginning. -/
theorem effect_main (hmain : i.isMain = true) (h : effect i s = some t) : t.locals = {} := by
  cases i with
  | long => cases hmain
  | short p data hlong hdata =>
    have hmask : p.toNat &&& 0x0C = 0x00 := beq_iff_eq.mp hmain
    have htag : itemTag p.toNat ≠ .unknown → (itemTag p.toNat).isMain = true :=
      fun hknown => ((Item.short p data hlong hdata).isMain_of_tag hknown).symm.trans hmain
    unfold effect applyItem at h
    cases hp : itemTag p.toNat <;> rw [hp] at htag <;>
      simp only [ItemTag.isMain, Bool.false_eq_true, ne_eq, reduceCtorEq, not_false_eq_true, imp_false,
        not_true_eq_false] at htag <;>
      simp only [parseItem, hp] at h
    case data kind =>
      cases hok : parseDataItem 0 kind (readUnsignedItem data) s with
      | error e =>
        rw [hok] at h
        cases h
      | ok s' =>
        rw [hok] at h
        cases h
        obtain ⟨map, r, -, -, rfl, -⟩ := parseDataItem_ok hok
        rfl
    case collection =>
      unfold parseCollection fail at h
      split at h <;> cases h
      rfl
    case endCollection =>
      unfold parseEndCollection fail at h
      split at h <;> cases h
      rfl
    case unknown =>
      rw [if_pos hmask] at h
      cases h
      rfl

theorem effect_eq_some : effect i s = some t ↔ applyItem 0 i s = .ok t := by
  unfold effect
  cases applyItem 0 i s <;> simp [Except.toOption]

theorem effect_grows (h : effect i s = some t) :
    s.map.fields <+: t.map.fields ∧ s.map.collections <+: t.map.collections := by
  rw [effect_eq_some] at h
  cases i with
  | long =>
    cases h
    exact ⟨List.prefix_rfl, List.prefix_rfl⟩
  | short p data hlong hdata =>
    rcases parseItem_cases h with ⟨-, hmap, -⟩ | ⟨-, h⟩ | ⟨-, h⟩ | ⟨kind, -, h⟩
    · rw [hmap]
      exact ⟨List.prefix_rfl, List.prefix_rfl⟩
    · unfold parseCollection fail at h
      split at h <;> cases h
      exact ⟨List.prefix_rfl, List.prefix_append _ _⟩
    · unfold parseEndCollection fail at h
      split at h <;> cases h
      exact ⟨List.prefix_rfl, List.prefix_rfl⟩
    · obtain ⟨map, r, hmap, -, rfl, -⟩ := parseDataItem_ok h
      unfold findOrAddReport at hmap
      split_ifs at hmap <;> cases hmap <;> exact ⟨List.prefix_append _ _, List.prefix_rfl⟩

end

/-! ## Prefixes that differ in Local items -/

theorem parsed_items_cons {i : Item} {items : List Item} {s t : ParserState} :
    parsed ((i :: items).flatMap Item.bytes) s = some t ↔
      ∃ s1, effect i s = some s1 ∧ parsed (items.flatMap Item.bytes) s1 = some t := by
  rw [List.flatMap_cons, parsed_cons, Option.bind_eq_some_iff]

/-- The run without the Local items gets through as well, to the same state up to the local attributes. -/
theorem parsed_withoutLocals {items : List Item} {s t : ParserState}
    (h : parsed (items.flatMap Item.bytes) s = some t) :
    parsed ((items.filter (!·.isLocal)).flatMap Item.bytes) s.withoutLocals = some t.withoutLocals := by
  induction items generalizing s with
  | nil =>
    cases h
    rfl
  | cons i items ih =>
    obtain ⟨s1, hi, hrest⟩ := parsed_items_cons.mp h
    cases hlocal : i.isLocal
    · rw [List.filter_cons_of_pos (by simp [hlocal])]
      exact parsed_items_cons.mpr ⟨s1.withoutLocals, effect_withoutLocals hlocal hi, ih hrest⟩
    · rw [List.filter_cons_of_neg (by simp [hlocal]), ← effect_local hlocal hi]
      exact ih hrest

theorem parsed_grows {items : List Item} {s t : ParserState} (h : parsed (items.flatMap Item.bytes) s = some t) :
    s.map.fields <+: t.map.fields ∧ s.map.collections <+: t.map.collections := by
  induction items generalizing s with
  | nil =>
    cases h
    exact ⟨List.prefix_rfl, List.prefix_rfl⟩
  | cons i items ih =>
    obtain ⟨s1, hi, hrest⟩ := parsed_items_cons.mp h
    obtain ⟨hfields, hcollections⟩ := effect_grows hi
    obtain ⟨hfields', hcollections'⟩ := ih hrest
    exact ⟨hfields.trans hfields', hcollections.trans hcollections'⟩

/-- The last item is a Main item. -/
def EndsWithMain (items : List Item) : Prop := ∃ before i, items = before ++ [i] ∧ i.isMain = true

theorem parsed_main {items : List Item} {s t : ParserState} (hend : EndsWithMain items)
    (h : parsed (items.flatMap Item.bytes) s = some t) : t.locals = {} := by
  obtain ⟨before, i, rfl, hmain⟩ := hend
  induction before generalizing s with
  | nil =>
    obtain ⟨s1, hi, hrest⟩ := parsed_items_cons.mp h
    cases hrest
    exact effect_main hmain hi
  | cons first before ih =>
    obtain ⟨s1, -, hrest⟩ := parsed_items_cons.mp h
    exact ih hrest

end HidParser

/-! ## Other fields and collections in front -/

/-- The first fields and collections exchanged for as many others. -/
def HIDReportMap.withFirst (fs : List HIDFieldSchema) (cs : List HIDCollectionSchema) (m : HIDReportMap) :
    HIDReportMap :=
  { m with
    fields := fs ++ m.fields.drop fs.length
    collections := cs ++ m.collections.drop cs.length }

namespace HidParser

def ParserState.withFirst (fs : List HIDFieldSchema) (cs : List HIDCollectionSchema) (s : ParserState) :
    ParserState :=
  { s with map := s.map.withFirst fs cs }

theorem length_withFirst {α : Type} {xs ys : List α} (h : xs.length ≤ ys.length) :
    (xs ++ ys.drop xs.length).length = ys.length := by
  rw [List.length_append, List.length_drop]
  omega

theorem concat_withFirst {α : Type} {xs ys : List α} (h : xs.length ≤ ys.length) (y : α) :
    (xs ++ ys.drop xs.length) ++ [y] = xs ++ (ys ++ [y]).drop xs.length := by
  rw [List.drop_append_of_le_length h, List.append_assoc]

section
variable {fs : List HIDFieldSchema} {cs : List HIDCollectionSchema} {s : ParserState}

theorem parseDataItem_withFirst (hfs : fs.length ≤ s.map.fields.length) (kind : HIDReportKind) (raw : Nat) :
    (parseDataItem 0 kind raw (s.withFirst fs cs)).toOption =
      (parseDataItem 0 kind raw s).toOption.map (ParserState.withFirst fs cs) := by
  have hglobals : (s.withFirst fs cs).globals = s.globals := rfl
  have hlocals : (s.withFirst fs cs).locals = s.locals := rfl
  have hmap : (s.withFirst fs cs).map = s.map.withFirst fs cs := rfl
  have hreport := @findOrAddReport_erased (HIDReportMap.withFirst fs cs) (fun _ => rfl) fun _ _ => rfl
  simp only [parseDataItem, hglobals, hlocals, hmap, hreport]
  split
  · rfl
  · split
    · rfl
    · cases hadd : findOrAddReport s.map kind s.globals.reportId with
      | none => rfl
      | some m =>
        have hfields : m.fields = s.map.fields := (findOrAddReport_bits hadd).1
        have hlength : (m.withFirst fs cs).fields.length = m.fields.length := length_withFirst (hfields ▸ hfs)
        have hfind : (m.withFirst fs cs).findReport kind s.globals.reportId =
            m.findReport kind s.globals.reportId := rfl
        simp only [Option.map_some, hlength, hfind]
        split
        · rfl
        · split
          · rfl
          · generalize ((m.findReport kind s.globals.reportId).getD {}).bitSize = n
            have hfield : makeField (s.withFirst fs cs) kind raw n = makeField s kind raw n := by
              unfold makeField
              rw [show (s.withFirst fs cs).map.fields.length = s.map.fields.length from length_withFirst hfs]
              rfl
            apply congrArg some
            simp only [declareField, hfield]
            simp only [ParserState.withFirst, HIDReportMap.withFirst, concat_withFirst (hfields ▸ hfs)]

/-- Of what was declared the parser knows only how much it is. -/
theorem effect_withFirst (hfs : fs.length ≤ s.map.fields.length) (hcs : cs.length ≤ s.map.collections.length)
    (i : Item) : effect i (s.withFirst fs cs) = (effect i s).map (ParserState.withFirst fs cs) := by
  cases i with
  | long => rfl
  | short p data hlong hdata =>
    have hcollections : (s.withFirst fs cs).map.collections.length = s.map.collections.length :=
      length_withFirst hcs
    have hopened : (s.withFirst fs cs).collectionStack = s.collectionStack := rfl
    have hsaved : (s.withFirst fs cs).globalStack = s.globalStack := rfl
    have hlocals : (s.withFirst fs cs).locals = s.locals := rfl
    unfold effect applyItem
    simp only [parseItem]
    cases itemTag p.toNat with
    | data kind => exact parseDataItem_withFirst hfs kind _
    | delimiter =>
      -- only the open delimiter is read, and the declarations put first do not touch it
      simp only [parseDelimiter, hlocals]
      split
      · split <;> rfl
      · split
        · split <;> rfl
        · rfl
    | collection =>
      -- a new identifier is the number of collections, which withFirst keeps
      simp only [parseCollection, hcollections, hopened, hlocals]
      split
      · rfl
      · simp only [ParserState.withFirst, HIDReportMap.withFirst, concat_withFirst hcs, Except.toOption,
          Option.map_some]
    | endCollection =>
      simp only [parseEndCollection, hopened]
      split <;> rfl
    | usagePage => simp only; split <;> rfl
    | reportId => simp only; split <;> rfl
    | push => simp only [hsaved]; split <;> rfl
    | pop =>
      simp only [hsaved]
      cases s.globalStack <;> rfl
    | unknown => simp only; split <;> rfl
    | _ => rfl

theorem parsed_withFirst (hfs : fs.length ≤ s.map.fields.length) (hcs : cs.length ≤ s.map.collections.length)
    (data : List UInt8) :
    parsed data (s.withFirst fs cs) = (parsed data s).map (ParserState.withFirst fs cs) := by
  by_cases hitems : ∃ items : List Item, data = items.flatMap Item.bytes
  · obtain ⟨items, rfl⟩ := hitems
    induction items generalizing s with
    | nil => rfl
    | cons i items ih =>
      rw [List.flatMap_cons, parsed_cons, parsed_cons, effect_withFirst hfs hcs]
      cases hi : effect i s with
      | none => rfl
      | some t =>
        obtain ⟨hfields, hcollections⟩ := effect_grows hi
        exact ih (hfs.trans hfields.length_le) (hcs.trans hcollections.length_le)
  · rw [parsed_not_items hitems, parsed_not_items hitems]
    rfl

theorem finish_withFirst (s : ParserState) (fs : List HIDFieldSchema) (cs : List HIDCollectionSchema) :
    finish (s.withFirst fs cs) = (finish s).map (HIDReportMap.withFirst fs cs) := by
  have hstack : (s.withFirst fs cs).collectionStack = s.collectionStack := rfl
  have hreports : (s.withFirst fs cs).map.reports = s.map.reports := rfl
  rw [finish, finish, hstack, hreports]
  split <;> rfl

/-- Two states behind a Main item that agree up to local attributes, one as the other with its own fields
and collections. -/
theorem eq_withFirst {t : ParserState} (h : s.withoutLocals = t.withoutLocals) (hs : s.locals = {})
    (ht : t.locals = {}) :
    (t.map.fields.length = s.map.fields.length ∧ t.map.collections.length = s.map.collections.length) ∧
      t = s.withFirst t.map.fields t.map.collections := by
  have hfields := congrArg (·.map.fields.length) h
  have hcollections := congrArg (·.map.collections.length) h
  simp only [ParserState.withoutLocals, HIDReportMap.withoutLocals, List.length_map] at hfields hcollections
  refine ⟨⟨hfields.symm, hcollections.symm⟩, ?_⟩
  rcases s with ⟨⟨reports, fields, collections, runtime, uses⟩, globals, locals, globalStack, stack⟩
  rcases t with ⟨⟨reports', fields', collections', runtime', uses'⟩, globals', locals', globalStack', stack'⟩
  simp only [ParserState.withoutLocals, HIDReportMap.withoutLocals, ParserState.mk.injEq,
    HIDReportMap.mk.injEq] at h
  simp only at hs ht hfields hcollections
  obtain ⟨⟨rfl, -, -, rfl, rfl⟩, rfl, -, rfl, rfl⟩ := h
  subst hs ht
  simp only [ParserState.withFirst, HIDReportMap.withFirst, ← hfields, ← hcollections, List.drop_length,
    List.append_nil]

end

/-! ## The two strings -/

theorem parsed_items_append (items : List Item) (rest : List UInt8) (s : ParserState) :
    parsed (items.flatMap Item.bytes ++ rest) s =
      (parsed (items.flatMap Item.bytes) s).bind (parsed rest) := by
  have hitems := parsed_flatMap items [] s
  have hnil : parsed [] = some := rfl
  rw [List.append_nil, hnil, Option.bind_fun_some] at hitems
  rw [parsed_flatMap, hitems]

end HidParser

/-- The fields and collections that are declared behind the state `s`. -/
def HIDReportMap.declaredAfter (m : HIDReportMap) (s : HidParser.ParserState) :
    List HIDFieldSchema × List HIDCollectionSchema :=
  (m.fields.drop s.map.fields.length, m.collections.drop s.map.collections.length)

namespace HidParser

theorem declaredAfter_withFirst {m : HIDReportMap} {s t : ParserState}
    (hfields : t.map.fields.length = s.map.fields.length)
    (hcollections : t.map.collections.length = s.map.collections.length) :
    (m.withFirst t.map.fields t.map.collections).declaredAfter t = m.declaredAfter s := by
  unfold HIDReportMap.declaredAfter HIDReportMap.withFirst
  simp only [hfields, hcollections, List.drop_left' hfields, List.drop_left' hcollections]

/-- What the items in front declared stays in front, as they left it. -/
theorem parse_declaredAfter {items : List Item} {B : List UInt8} {s : ParserState} {m : HIDReportMap}
    (hs : parsed (items.flatMap Item.bytes) {} = some s)
    (hm : parseReportMapData (.bytes (items.flatMap Item.bytes ++ B)) = some m) :
    m.fields = s.map.fields ++ (m.declaredAfter s).1 ∧
      m.collections = s.map.collections ++ (m.declaredAfter s).2 := by
  rw [parseReportMapData_eq] at hm
  split at hm
  · cases hm
  rw [parsed_items_append, hs, Option.bind_some, Option.bind_eq_some_iff] at hm
  obtain ⟨t, ht, hfinish⟩ := hm
  have hmap : t.map = m := by
    unfold finish at hfinish
    split at hfinish <;> cases hfinish
    rfl
  by_cases hitems : ∃ later : List Item, B = later.flatMap Item.bytes
  · obtain ⟨later, rfl⟩ := hitems
    obtain ⟨hfields, hcollections⟩ := parsed_grows ht
    rw [hmap] at hfields hcollections
    exact ⟨(List.prefix_iff_eq_append.mp hfields).symm, (List.prefix_iff_eq_append.mp hcollections).symm⟩
  · rw [parsed_not_items hitems] at ht
    cases ht

/-- Whatever Local items stand in front of the last Main item of `A`, the string behind it is accepted or
not, and declares what it declares. -/
theorem parse_locals_forgotten (A A' : List Item) (B : List UInt8) (s s' : ParserState)
    (hA : parseItems (A.flatMap Item.bytes).length 0 (A.flatMap Item.bytes) {} = .ok s)
    (hA' : parseItems (A'.flatMap Item.bytes).length 0 (A'.flatMap Item.bytes) {} = .ok s')
    (hend : EndsWithMain A) (hend' : EndsWithMain A')
    (hsame : A.filter (!·.isLocal) = A'.filter (!·.isLocal))
    (hlen : (A.flatMap Item.bytes ++ B).length ≤ 4096) (hlen' : (A'.flatMap Item.bytes ++ B).length ≤ 4096) :
    ((parseReportMapData (.bytes (A.flatMap Item.bytes ++ B))).isSome = true ↔
        (parseReportMapData (.bytes (A'.flatMap Item.bytes ++ B))).isSome = true) ∧
      ∀ m m', parseReportMapData (.bytes (A.flatMap Item.bytes ++ B)) = some m →
        parseReportMapData (.bytes (A'.flatMap Item.bytes ++ B)) = some m' →
        m.reports = m'.reports ∧ m.declaredAfter s = m'.declaredAfter s' := by
  have hparsed : parsed (A.flatMap Item.bytes) {} = some s := by rw [parsed, hA]; rfl
  have hparsed' : parsed (A'.flatMap Item.bytes) {} = some s' := by rw [parsed, hA']; rfl
  -- up to the local attributes both states are that of the common items
  have herased : s.withoutLocals = s'.withoutLocals := by
    have hcommon := parsed_withoutLocals hparsed
    rw [hsame, parsed_withoutLocals hparsed'] at hcommon
    exact (Option.some_inj.mp hcommon).symm
  obtain ⟨⟨hfields, hcollections⟩, heq⟩ :=
    eq_withFirst herased (parsed_main hend hparsed) (parsed_main hend' hparsed')
  have hrest : parsed B s' = (parsed B s).map (ParserState.withFirst s'.map.fields s'.map.collections) :=
    (congrArg (parsed B) heq).trans (parsed_withFirst (Nat.le_of_eq hfields) (Nat.le_of_eq hcollections) B)
  have hnonempty : ∀ {items : List Item}, EndsWithMain items → (items.flatMap Item.bytes ++ B).length ≠ 0 := by
    rintro _ ⟨before, i, rfl, -⟩
    have hpos := i.bytes_pos
    simp only [List.flatMap_append, List.flatMap_singleton, List.length_append]
    omega
  have hresult : parseReportMapData (.bytes (A'.flatMap Item.bytes ++ B)) =
      (parseReportMapData (.bytes (A.flatMap Item.bytes ++ B))).map
        (HIDReportMap.withFirst s'.map.fields s'.map.collections) := by
    have hmax : HIDReportMap.maxDescriptorBytes = 4096 := rfl
    rw [parseReportMapData_eq, parseReportMapData_eq, hmax,
      if_neg (not_or.mpr ⟨hnonempty hend', Nat.not_lt.mpr hlen'⟩),
      if_neg (not_or.mpr ⟨hnonempty hend, Nat.not_lt.mpr hlen⟩), parsed_items_append, parsed_items_append,
      hparsed, hparsed', Option.bind_some, Option.bind_some]
    rw [hrest]
    cases parsed B s with
    | none => rfl
    | some t => exact finish_withFirst t _ _
  rw [hresult, Option.isSome_map]
  refine ⟨Iff.rfl, ?_⟩
  intro m m' hm hm'
  rw [hm, Option.map_some, Option.some_inj] at hm'
  subst hm'
  exact ⟨rfl, (declaredAfter_withFirst hfields hcollections).symm⟩

theorem usage_short : (0x09 : UInt8) ≠ 0xFE := by decide

theorem usage_complete (usage : UInt8) : [usage].length = hidItemDataSize (0x09 : UInt8).toNat := rfl

theorem collection_short : (0xA1 : UInt8) ≠ 0xFE := by decide

theorem collection_complete : [(0x01 : UInt8)].length = hidItemDataSize (0xA1 : UInt8).toNat := rfl

/-- A Collection with the usage in front of it. -/
def collectionWith (usage : UInt8) : List Item :=
  [.short 0x09 [usage] usage_short (usage_complete usage)] ++
    [.short 0xA1 [0x01] collection_short collection_complete]

theorem collectionWith_main (usage : UInt8) : EndsWithMain (collectionWith usage) := ⟨_, _, rfl, by decide⟩

theorem parse_locals_forgotten_collection :
    (parseReportMapData (.bytes ((collectionWith 6).flatMap Item.bytes ++ (oneByteField ++ [0xC0])))).isSome =
        true ↔
      (parseReportMapData (.bytes ((collectionWith 2).flatMap Item.bytes ++ (oneByteField ++ [0xC0])))).isSome =
        true :=
  (parse_locals_forgotten (collectionWith 6) (collectionWith 2) (oneByteField ++ [0xC0]) _ _ rfl rfl
    (collectionWith_main 6) (collectionWith_main 2) rfl (by decide) (by decide)).1

end HidParser

end BleClientHid
