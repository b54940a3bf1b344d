import BleClientHid.HidParser.Descriptor
import BleClientHid.Lib.Tiling
import Mathlib.Data.List.Pairwise

/-! # Accepted Report Maps are well formed

An invariant of the descriptor loop: one lemma per kind of item, then the loop.
-/

namespace BleClientHid

def HIDFieldSchema.bits (f : HIDFieldSchema) : Nat := f.reportSize * f.reportCount

/-- The field was declared for this report. -/
def HIDReportSchema.owns (r : HIDReportSchema) (f : HIDFieldSchema) : Bool :=
  decide (r.kind = f.kind ∧ r.reportId = f.reportId)

def HIDReportMap.fieldsOf (m : HIDReportMap) (r : HIDReportSchema) : List HIDFieldSchema :=
  m.fields.filter r.owns

namespace HidParser

open Lib HIDReportMap

/-! ## What one item can do -/

/-- Neither the reports, fields and collections nor the open collections change. -/
def SameSchema (s s' : ParserState) : Prop :=
  s'.map = { s.map with usesReportIds := s'.map.usesReportIds } ∧
    s'.collectionStack = s.collectionStack

theorem setGlobals_same {s s' : ParserState} {g : GlobalState} (h : setGlobals s g = .ok s') :
    SameSchema s s' := by
  cases h
  exact ⟨rfl, rfl⟩

theorem setLocals_same {s s' : ParserState} {l : LocalState} (h : setLocals s l = .ok s') :
    SameSchema s s' := by
  cases h
  exact ⟨rfl, rfl⟩

theorem parseDelimiter_same {off raw : Nat} {s s' : ParserState}
    (h : parseDelimiter off raw s = .ok s') : SameSchema s s' := by
  unfold parseDelimiter fail at h
  split_ifs at h <;> cases h <;> exact ⟨rfl, rfl⟩

theorem parseItem_cases {off p raw : Nat} {s s' : ParserState} (h : parseItem off p raw s = .ok s') :
    ((itemTag p ≠ .collection ∧ itemTag p ≠ .endCollection ∧ ∀ kind, itemTag p ≠ .data kind) ∧ SameSchema s s') ∨
      (itemTag p = .collection ∧ parseCollection off raw s = .ok s') ∨
      (itemTag p = .endCollection ∧ parseEndCollection off s = .ok s') ∨
      ∃ kind, itemTag p = .data kind ∧ parseDataItem off kind raw s = .ok s' := by
  cases htag : itemTag p <;> simp only [parseItem, htag, fail] at h
  case collection => exact .inr (.inl ⟨rfl, h⟩)
  case endCollection => exact .inr (.inr (.inl ⟨rfl, h⟩))
  case data kind => exact .inr (.inr (.inr ⟨kind, rfl, h⟩))
  all_goals refine .inl ⟨by simp, ?_⟩
  case delimiter => exact parseDelimiter_same h
  case usagePage =>
    split at h
    · cases h
    · exact setGlobals_same h
  case reportId =>
    split at h
    · cases h
    · cases h
      exact ⟨rfl, rfl⟩
  case push =>
    split at h <;> cases h
    exact ⟨rfl, rfl⟩
  case pop =>
    split at h <;> cases h
    exact ⟨rfl, rfl⟩
  case unknown =>
    split at h
    · exact setLocals_same h
    · cases h
      exact ⟨rfl, rfl⟩
  all_goals first
    | exact setGlobals_same h
    | exact setLocals_same h

theorem parseItems_induct {I : ParserState → Prop}
    (step : ∀ off p raw s s', I s → parseItem off p raw s = .ok s' → I s') :
    ∀ fuel off data s s', I s → parseItems fuel off data s = .ok s' → I s' := by
  intro fuel
  induction fuel with
  | zero =>
    intro off data s s' hs h
    cases data <;> cases h
    exact hs
  | succ fuel ih =>
    intro off data s s' hs h
    cases data with
    | nil =>
      cases h
      exact hs
    | cons b rest =>
      simp only [parseItems, fail] at h
      split at h
      · split at h
        · split at h
          · cases h
          · exact ih _ _ _ _ hs h
        · cases h
      · split at h
        · cases h
        · split at h
          · cases h
          · rename_i s1 h1
            exact ih _ _ _ _ (step _ _ _ _ _ hs h1) h

/-! ## The list of reports -/

def Distinct (reports : List HIDReportSchema) : Prop :=
  reports.Pairwise fun a b => ¬ (a.kind = b.kind ∧ a.reportId = b.reportId)

theorem Distinct.eq {reports : List HIDReportSchema} (h : Distinct reports) {a b : HIDReportSchema}
    (ha : a ∈ reports) (hb : b ∈ reports) (hk : a.kind = b.kind) (hi : a.reportId = b.reportId) :
    a = b := by
  by_contra hne
  have : Std.Symm fun a b : HIDReportSchema => ¬ (a.kind = b.kind ∧ a.reportId = b.reportId) :=
    ⟨fun _ _ hxy hyx => hxy ⟨hyx.1.symm, hyx.2.symm⟩⟩
  exact List.Pairwise.forall h ha hb hne ⟨hk, hi⟩

theorem findReport_spec {m : HIDReportMap} {kind : HIDReportKind} {reportId : Nat} {r : HIDReportSchema}
    (h : m.findReport kind reportId = some r) : r ∈ m.reports ∧ r.kind = kind ∧ r.reportId = reportId := by
  have hmem := List.mem_of_find?_eq_some h
  have hp := List.find?_some h
  simp only [Bool.and_eq_true, beq_iff_eq] at hp
  exact ⟨hmem, hp⟩

theorem findReport_none {m : HIDReportMap} {kind : HIDReportKind} {reportId : Nat}
    (h : (m.findReport kind reportId).isSome = false) :
    ∀ r ∈ m.reports, ¬ (r.kind = kind ∧ r.reportId = reportId) := by
  intro r hr
  have hnone : m.findReport kind reportId = none := by simpa using h
  have := List.find?_eq_none.mp hnone r hr
  simpa using this

theorem findReport_of_mem {m : HIDReportMap} (hd : Distinct m.reports) {r : HIDReportSchema}
    (hr : r ∈ m.reports) : m.findReport r.kind r.reportId = some r := by
  cases hf : m.findReport r.kind r.reportId with
  | none => exact absurd ⟨rfl, rfl⟩ (findReport_none (by simp [hf]) r hr)
  | some r' =>
    obtain ⟨hr', hk, hi⟩ := findReport_spec hf
    rw [hd.eq hr' hr hk hi]

theorem updateReport_eq_map {reports : List HIDReportSchema} (hd : Distinct reports)
    (kind : HIDReportKind) (reportId : Nat) (f : HIDReportSchema → HIDReportSchema) :
    updateReport kind reportId f reports =
      reports.map fun r => if r.kind = kind ∧ r.reportId = reportId then f r else r := by
  induction reports with
  | nil => rfl
  | cons r rs ih =>
    obtain ⟨hr, hrs⟩ := List.pairwise_cons.mp hd
    rw [updateReport, List.map_cons]
    split
    · -- No later report matches, so the map leaves the rest alone.
      rename_i hmatch
      congr 1
      rw [← List.map_id rs, List.map_map]
      refine List.map_congr_left fun r' hr' => (if_neg ?_).symm
      rintro ⟨hk, hi⟩
      exact hr r' hr' ⟨hmatch.1.trans hk.symm, hmatch.2.trans hi.symm⟩
    · rw [ih hrs]

/-! ## The invariant -/

/-- The schema part of the invariant, in the form that the steps preserve. -/
structure SchemaInv (m : HIDReportMap) : Prop where
  distinct : Distinct m.reports
  reportsLe : m.reports.length ≤ maxReports
  fieldsLe : m.fields.length ≤ maxFields
  fieldIds : m.fields.map (·.id) = List.range m.fields.length
  fieldSize : ∀ f ∈ m.fields, 1 ≤ f.reportSize ∧ f.reportSize ≤ 32 ∧ 1 ≤ f.reportCount ∧
    f.reportCount ≤ maxReportCount
  reportFields : ∀ r ∈ m.reports, r.fieldIds = (m.fieldsOf r).map (·.id)
  tiles : ∀ r ∈ m.reports, Tiles HIDFieldSchema.bitOffset HIDFieldSchema.bits 0 (m.fieldsOf r) r.bitSize
  bitSizeLe : ∀ r ∈ m.reports, r.bitSize ≤ maxReportBits
  fieldReport : ∀ f ∈ m.fields, ∃ r ∈ m.reports, r.owns f
  collectionsLe : m.collections.length ≤ maxCollections
  collectionIds : m.collections.map (·.id) = List.range m.collections.length
  parents : ∀ c ∈ m.collections, c.parent = noParent ∨ c.parent < c.id
  fieldCollection : ∀ f ∈ m.fields, f.collectionId = noParent ∨ f.collectionId < m.collections.length

theorem SchemaInv.withRuntime {m : HIDReportMap} (hm : SchemaInv m) (runtime : Nat → FieldRuntime) :
    SchemaInv { m with runtime } :=
  { hm with }

structure ParserInv (s : ParserState) : Prop where
  schema : SchemaInv s.map
  fresh : s.map.runtime = fun _ => {}
  opened : ∀ id ∈ s.collectionStack, id < s.map.collections.length

theorem parserInv_init : ParserInv {} where
  schema := by constructor <;> simp [Distinct]
  fresh := rfl
  opened := by simp

theorem SameSchema.inv {s s' : ParserState} (h : SameSchema s s') (hs : ParserInv s) : ParserInv s' := by
  obtain ⟨hmap, hstack⟩ := h
  refine ⟨?_, ?_, ?_⟩
  · rw [hmap]
    exact { hs.schema with }
  · rw [hmap]
    exact hs.fresh
  · rw [hstack, hmap]
    exact hs.opened

/-- The innermost open collection, as a parent or as the collection of a field. -/
theorem ParserInv.innermost {s : ParserState} (hs : ParserInv s) :
    s.collectionStack.head?.getD noParent = noParent ∨
      s.collectionStack.head?.getD noParent < s.map.collections.length := by
  cases hstack : s.collectionStack with
  | nil => exact .inl rfl
  | cons id rest => exact .inr (hs.opened id (by simp [hstack]))

theorem parseCollection_inv {off raw : Nat} {s s' : ParserState} (hs : ParserInv s)
    (h : parseCollection off raw s = .ok s') : ParserInv s' := by
  unfold parseCollection fail at h
  split at h
  · cases h
  rename_i hlimit
  cases h
  simp only [maxCollections, ge_iff_le, not_or, Nat.not_le] at hlimit
  -- below the limit the 16-bit identifier does not wrap
  have hid : s.map.collections.length % 65536 = s.map.collections.length := by omega
  have hinner := hs.innermost
  refine ⟨{ hs.schema with
    collectionsLe := ?_
    collectionIds := ?_
    parents := ?_
    fieldCollection := ?_ }, hs.fresh, ?_⟩
  · simp only [List.length_append, List.length_singleton, maxCollections]
    omega
  · simp only [List.map_append, hs.schema.collectionIds, List.map_cons, List.map_nil, List.length_append,
      List.length_singleton, List.range_succ, hid]
  · simp only [List.mem_append, List.mem_singleton]
    -- the parent of the new collection is the innermost open one
    rintro c (hc | rfl)
    · exact hs.schema.parents c hc
    · simpa only [hid] using hinner
  · intro f hf
    simp only [List.length_append, List.length_singleton]
    exact (hs.schema.fieldCollection f hf).imp_right (fun hlt => by omega)
  · simp only [List.mem_cons, List.length_append, List.length_singleton]
    -- the new collection is open too
    rintro id (rfl | hmem)
    · omega
    · have := hs.opened id hmem
      omega

theorem parseEndCollection_inv {off : Nat} {s s' : ParserState} (hs : ParserInv s)
    (h : parseEndCollection off s = .ok s') : ParserInv s' := by
  unfold parseEndCollection fail at h
  split at h <;> cases h
  rename_i id rest hstack
  refine ⟨hs.schema, hs.fresh, ?_⟩
  intro id' hid'
  exact hs.opened id' (by simp [hstack, hid'])

/-! ## Data items -/

theorem findOrAddReport_inv {m m' : HIDReportMap} {kind : HIDReportKind} {reportId : Nat}
    (hm : SchemaInv m) (h : findOrAddReport m kind reportId = some m') :
    SchemaInv m' ∧ m'.fields = m.fields ∧ m'.collections = m.collections ∧ m'.runtime = m.runtime ∧
      ∃ r ∈ m'.reports, r.kind = kind ∧ r.reportId = reportId := by
  unfold findOrAddReport at h
  split_ifs at h with hfound hlimit <;> cases h
  · obtain ⟨r, hr⟩ := Option.isSome_iff_exists.mp hfound
    exact ⟨hm, rfl, rfl, rfl, r, findReport_spec hr⟩
  · have hnone := findReport_none (by simpa using hfound)
    -- A field of the new report would already have brought the report in.
    have hempty : m.fieldsOf { kind, reportId } = [] := by
      apply List.filter_eq_nil_iff.mpr
      intro f hf howns
      obtain ⟨r, hr, hrf⟩ := hm.fieldReport f hf
      simp only [HIDReportSchema.owns, decide_eq_true_eq] at howns hrf
      exact hnone r hr ⟨hrf.1.trans howns.1.symm, hrf.2.trans howns.2.symm⟩
    refine ⟨{ hm with
      distinct := ?_
      reportsLe := ?_
      reportFields := ?_
      tiles := ?_
      bitSizeLe := ?_
      fieldReport := ?_ }, rfl, rfl, rfl, _, List.mem_append_right _ (List.mem_singleton_self _), rfl, rfl⟩
    · refine List.pairwise_append.mpr ⟨hm.distinct, List.pairwise_singleton _ _, ?_⟩
      intro a ha b hb
      rw [List.mem_singleton.mp hb]
      exact hnone a ha
    · simp only [List.length_append, List.length_singleton]
      omega
    · simp only [List.mem_append, List.mem_singleton]
      rintro r (hr | rfl)
      · exact hm.reportFields r hr
      · exact (congrArg (List.map (·.id)) hempty).symm
    · simp only [List.mem_append, List.mem_singleton]
      rintro r (hr | rfl)
      · exact hm.tiles r hr
      · change Tiles _ _ 0 (m.fieldsOf { kind, reportId }) 0
        rw [hempty]
        rfl
    · simp only [List.mem_append, List.mem_singleton]
      rintro r (hr | rfl)
      · exact hm.bitSizeLe r hr
      · exact Nat.zero_le _
    · intro f hf
      obtain ⟨r, hr, hrf⟩ := hm.fieldReport f hf
      exact ⟨r, List.mem_append_left _ hr, hrf⟩

theorem parseDataItem_ok {off raw : Nat} {kind : HIDReportKind} {s s' : ParserState}
    (h : parseDataItem off kind raw s = .ok s') :
    ∃ map r, findOrAddReport s.map kind s.globals.reportId = some map ∧
      map.findReport kind s.globals.reportId = some r ∧
      s' = declareField s map kind raw r.bitSize ∧
      map.fields.length < maxFields ∧
      (1 ≤ s.globals.reportSize ∧ s.globals.reportSize ≤ 32 ∧ 1 ≤ s.globals.reportCount ∧
        s.globals.reportCount ≤ maxReportCount) ∧
      r.bitSize + s.globals.reportSize * s.globals.reportCount ≤ maxReportBits ∧
      s.locals.delimiterOpen = false := by
  simp only [parseDataItem, fail] at h
  split at h
  · cases h
  rename_i hsize
  split at h
  · cases h
  rename_i hopen
  split at h
  · cases h
  rename_i map hmap
  split at h
  · cases h
  rename_i hfields
  split at h
  · cases h
  rename_i hbits
  have hfound : (map.findReport kind s.globals.reportId).isSome := by
    unfold findOrAddReport at hmap
    split_ifs at hmap with hf <;> cases hmap
    · exact hf
    · simp [findReport]
  obtain ⟨r, hr⟩ := Option.isSome_iff_exists.mp hfound
  simp only [hr, Option.getD_some] at h hbits
  cases h
  exact ⟨map, r, hmap, hr, rfl, by omega, by omega, by omega, by simpa using hopen⟩

@[simp]
theorem appendField_owns (field : HIDFieldSchema) (n : Nat) (r : HIDReportSchema) :
    (appendField field n r).owns = r.owns := rfl

theorem declareField_fieldsOf (s : ParserState) (map : HIDReportMap) (kind : HIDReportKind)
    (raw n : Nat) (q : HIDReportSchema) :
    (declareField s map kind raw n).map.fieldsOf q =
      map.fieldsOf q ++ if q.owns (makeField s kind raw n) then [makeField s kind raw n] else [] := by
  simp [fieldsOf, declareField, List.filter_cons]

theorem makeField_owner {s : ParserState} {kind : HIDReportKind} {raw n : Nat} (q : HIDReportSchema) :
    q.owns (makeField s kind raw n) = true ↔ q.kind = kind ∧ q.reportId = s.globals.reportId := by
  simp [HIDReportSchema.owns, makeField]

section

variable {s : ParserState} {map : HIDReportMap} {kind : HIDReportKind} {r : HIDReportSchema}

/-- Each report of the new list, next to the one it comes from. -/
theorem declareField_reports (hd : Distinct map.reports) (hr : map.findReport kind s.globals.reportId = some r)
    (raw : Nat) :
    ∀ q ∈ (declareField s map kind raw r.bitSize).map.reports,
      q = appendField (makeField s kind raw r.bitSize) (s.globals.reportSize * s.globals.reportCount) r ∨
        q ∈ map.reports ∧ q.owns (makeField s kind raw r.bitSize) = false := by
  obtain ⟨hrmem, hrk, hri⟩ := findReport_spec hr
  intro q hq
  simp only [declareField, updateReport_eq_map hd, List.mem_map] at hq
  obtain ⟨a, ha, rfl⟩ := hq
  split
  · rename_i hmatch
    left
    rw [hd.eq ha hrmem (hmatch.1.trans hrk.symm) (hmatch.2.trans hri.symm)]
  · rename_i hmatch
    right
    exact ⟨ha, by rw [← Bool.not_eq_true, makeField_owner]; exact hmatch⟩

theorem declareField_keeps (hd : Distinct map.reports) {q : HIDReportSchema} (hq : q ∈ map.reports) (raw n : Nat) :
    ∃ q' ∈ (declareField s map kind raw n).map.reports, q'.owns = q.owns := by
  simp only [declareField, updateReport_eq_map hd, List.mem_map]
  refine ⟨_, ⟨q, hq, rfl⟩, ?_⟩
  split <;> rfl

theorem declareField_schema {raw : Nat} (hm : SchemaInv map) (hr : map.findReport kind s.globals.reportId = some r)
    (hid : (makeField s kind raw r.bitSize).id = map.fields.length) (hfields : map.fields.length < maxFields)
    (hsize : 1 ≤ s.globals.reportSize ∧ s.globals.reportSize ≤ 32 ∧ 1 ≤ s.globals.reportCount ∧
      s.globals.reportCount ≤ maxReportCount)
    (hbits : r.bitSize + s.globals.reportSize * s.globals.reportCount ≤ maxReportBits)
    (hinner : s.collectionStack.head?.getD noParent = noParent ∨
      s.collectionStack.head?.getD noParent < map.collections.length) :
    SchemaInv (declareField s map kind raw r.bitSize).map := by
  obtain ⟨hrmem, hrk, hri⟩ := findReport_spec hr
  have hcases := declareField_reports hm.distinct hr raw
  have howns : r.owns (makeField s kind raw r.bitSize) = true := (makeField_owner r).mpr ⟨hrk, hri⟩
  have hfit : (r.bitSize + s.globals.reportSize * s.globals.reportCount) % 2 ^ 32 =
      r.bitSize + s.globals.reportSize * s.globals.reportCount := by
    simp only [maxReportBits] at hbits
    omega
  refine { hm with
    distinct := ?_
    reportsLe := ?_
    fieldsLe := ?_
    fieldIds := ?_
    fieldSize := ?_
    reportFields := ?_
    tiles := ?_
    bitSizeLe := ?_
    fieldReport := ?_
    fieldCollection := ?_ }
  · -- kind and id of a report stay
    simp only [declareField, updateReport_eq_map hm.distinct, Distinct, List.pairwise_map]
    refine hm.distinct.imp fun {a b} hab => ?_
    split <;> split <;> exact hab
  · simpa only [declareField, updateReport_eq_map hm.distinct, List.length_map] using hm.reportsLe
  · simp only [declareField, List.length_append, List.length_singleton]
    omega
  · -- the new id is the number of fields so far
    simp only [declareField, List.map_append, hm.fieldIds, List.map_cons, List.map_nil, hid,
      List.length_append, List.length_singleton, List.range_succ]
  · simp only [declareField, List.mem_append, List.mem_singleton]
    rintro f (hf | rfl)
    · exact hm.fieldSize f hf
    · exact hsize
  · -- the report of the new field has its id behind the others, the others are as they were
    intro q hq
    rw [declareField_fieldsOf]
    rcases hcases q hq with rfl | ⟨hqmem, hnot⟩
    · simp only [fieldsOf, appendField_owns, howns, if_true, List.map_append]
      exact congrArg (· ++ [(makeField s kind raw r.bitSize).id]) (hm.reportFields r hrmem)
    · simpa [hnot] using hm.reportFields q hqmem
  · intro q hq
    rw [declareField_fieldsOf]
    rcases hcases q hq with rfl | ⟨hqmem, hnot⟩
    · simp only [fieldsOf, appendField_owns, howns, if_true]
      simp only [appendField, hfit]
      exact (hm.tiles r hrmem).append_singleton rfl
    · simpa [hnot] using hm.tiles q hqmem
  · -- and its bits behind theirs
    intro q hq
    rcases hcases q hq with rfl | ⟨hqmem, -⟩
    · simp only [appendField, hfit]
      exact hbits
    · exact hm.bitSizeLe q hqmem
  · intro f hf
    rcases List.mem_append.mp hf with hf | hf
    · -- the owner of an old field is still there, under the same kind and id
      obtain ⟨q, hq, hqf⟩ := hm.fieldReport f hf
      obtain ⟨q', hq', heq⟩ := declareField_keeps hm.distinct hq raw r.bitSize
      exact ⟨q', hq', heq ▸ hqf⟩
    · obtain ⟨q', hq', heq⟩ := declareField_keeps hm.distinct hrmem raw r.bitSize
      rw [List.mem_singleton.mp hf]
      exact ⟨q', hq', heq ▸ howns⟩
  · simp only [declareField, List.mem_append, List.mem_singleton]
    rintro f (hf | rfl)
    · exact hm.fieldCollection f hf
    · exact hinner

end

theorem parseDataItem_inv {off raw : Nat} {kind : HIDReportKind} {s s' : ParserState}
    (hs : ParserInv s) (h : parseDataItem off kind raw s = .ok s') : ParserInv s' := by
  obtain ⟨map, r, hmap, hr, rfl, hfields, hsize, hbits, -⟩ := parseDataItem_ok h
  obtain ⟨hm, hfeq, hceq, hreq, -⟩ := findOrAddReport_inv hs.schema hmap
  have hinner := hs.innermost
  have hopened := hs.opened
  rw [← hceq] at hinner hopened
  have hid : (makeField s kind raw r.bitSize).id = map.fields.length := by
    simp only [makeField, ← hfeq, maxFields] at *
    omega
  exact ⟨declareField_schema hm hr hid hfields hsize hbits hinner, hreq.trans hs.fresh, hopened⟩

/-! ## The loop -/

theorem parseItem_inv {off p raw : Nat} {s s' : ParserState} (hs : ParserInv s)
    (h : parseItem off p raw s = .ok s') : ParserInv s' := by
  rcases parseItem_cases h with ⟨-, h⟩ | ⟨-, h⟩ | ⟨-, h⟩ | ⟨kind, -, h⟩
  · exact h.inv hs
  · exact parseCollection_inv hs h
  · exact parseEndCollection_inv hs h
  · exact parseDataItem_inv hs h

theorem parseReportMapData_ok {data : Buffer} {m : HIDReportMap} (h : parseReportMapData data = some m) :
    ∃ bytes s, data = .bytes bytes ∧ parseItems bytes.length 0 bytes {} = .ok s ∧ s.map = m ∧
      s.collectionStack = [] := by
  unfold parseReportMapData at h
  split at h
  · cases h
  rename_i bytes
  split at h
  · cases h
  split at h
  · cases h
  rename_i s hs
  split at h
  · cases h
  rename_i hstack
  cases h
  simp only [ne_eq, not_or, Decidable.not_not] at hstack
  exact ⟨bytes, s, rfl, hs, rfl, hstack.1⟩

theorem parseReportMapData_inv {data : Buffer} {m : HIDReportMap}
    (h : parseReportMapData data = some m) : SchemaInv m ∧ m.runtime = fun _ => {} := by
  obtain ⟨bytes, s, -, hs, rfl, -⟩ := parseReportMapData_ok h
  have hinv := parseItems_induct (fun _ _ _ _ _ => parseItem_inv) _ _ _ _ _ parserInv_init hs
  exact ⟨hinv.schema, hinv.fresh⟩

/-! ## What the invariant says -/

theorem SchemaInv.fieldId {m : HIDReportMap} (hm : SchemaInv m) {i : Nat} {f : HIDFieldSchema}
    (hf : m.fields[i]? = some f) : f.id = i := by
  have := congrArg (fun l => l[i]?) hm.fieldIds
  have hlt := (List.getElem?_eq_some_iff.mp hf).1
  simpa [hf, List.getElem?_range hlt] using this

theorem SchemaInv.getD_id {m : HIDReportMap} (hm : SchemaInv m) {f : HIDFieldSchema}
    (hf : f ∈ m.fields) : m.fields.getD f.id {} = f := by
  obtain ⟨i, hi⟩ := List.getElem?_of_mem hf
  rw [hm.fieldId hi, List.getD_eq_getElem?_getD, hi, Option.getD_some]

theorem SchemaInv.fieldsOf_eq {m : HIDReportMap} (hm : SchemaInv m) {r : HIDReportSchema}
    (hr : r ∈ m.reports) : r.fieldIds.map (fun id => m.fields.getD id {}) = m.fieldsOf r := by
  rw [hm.reportFields r hr, List.map_map]
  conv_rhs => rw [← List.map_id (m.fieldsOf r)]
  exact List.map_congr_left fun f hf => hm.getD_id (List.mem_of_mem_filter hf)

theorem SchemaInv.mem_fieldIds {m : HIDReportMap} (hm : SchemaInv m) {r : HIDReportSchema}
    (hr : r ∈ m.reports) (id : Nat) :
    id ∈ r.fieldIds ↔ ∃ f ∈ m.fields, f.id = id ∧ f.kind = r.kind ∧ f.reportId = r.reportId := by
  simp only [hm.reportFields r hr, fieldsOf, List.mem_map, List.mem_filter, HIDReportSchema.owns,
    decide_eq_true_eq]
  constructor
  · rintro ⟨f, ⟨hf, hk, hi⟩, rfl⟩
    exact ⟨f, hf, rfl, hk.symm, hi.symm⟩
  · rintro ⟨f, hf, rfl, hk, hi⟩
    exact ⟨f, ⟨hf, hk.symm, hi.symm⟩, rfl⟩

theorem SchemaInv.fieldIds_increasing {m : HIDReportMap} (hm : SchemaInv m) {r : HIDReportSchema}
    (hr : r ∈ m.reports) : r.fieldIds.Pairwise (· < ·) := by
  rw [hm.reportFields r hr]
  apply List.Pairwise.sublist (List.filter_sublist.map _)
  rw [hm.fieldIds]
  exact List.pairwise_lt_range

theorem SchemaInv.one_report {m : HIDReportMap} (hm : SchemaInv m) {f : HIDFieldSchema}
    (hf : f ∈ m.fields) : ∃! r, r ∈ m.reports ∧ f.id ∈ r.fieldIds := by
  obtain ⟨r, hr, howns⟩ := hm.fieldReport f hf
  simp only [HIDReportSchema.owns, decide_eq_true_eq] at howns
  refine ⟨r, ⟨hr, (hm.mem_fieldIds hr _).mpr ⟨f, hf, rfl, howns.1.symm, howns.2.symm⟩⟩, ?_⟩
  rintro r' ⟨hr', hmem⟩
  obtain ⟨f', hf', hid, hk, hi⟩ := (hm.mem_fieldIds hr' _).mp hmem
  have hff : f' = f := by rw [← hm.getD_id hf', hid, hm.getD_id hf]
  subst hff
  exact hm.distinct.eq hr' hr (hk.symm.trans howns.1.symm) (hi.symm.trans howns.2.symm)

theorem SchemaInv.collectionId {m : HIDReportMap} (hm : SchemaInv m) {i : Nat}
    {c : HIDCollectionSchema} (hc : m.collections[i]? = some c) : c.id = i := by
  have := congrArg (fun l => l[i]?) hm.collectionIds
  have hlt := (List.getElem?_eq_some_iff.mp hc).1
  simpa [hc, List.getElem?_range hlt] using this

/-- What later code relies on when it indexes by ids and bit offsets without a check. -/
structure WellFormed (m : HIDReportMap) : Prop where
  reports_distinct : (m.reports.map fun r => (r.kind, r.reportId)).Nodup
  reports_le : m.reports.length ≤ 64
  fields_le : m.fields.length ≤ 512
  field_id : ∀ (i : Nat) (f : HIDFieldSchema), m.fields[i]? = some f → f.id = i
  field_size : ∀ f ∈ m.fields, 1 ≤ f.reportSize ∧ f.reportSize ≤ 32
  field_count : ∀ f ∈ m.fields, 1 ≤ f.reportCount ∧ f.reportCount ≤ 4096
  fieldIds_increasing : ∀ r ∈ m.reports, r.fieldIds.Pairwise (· < ·)
  mem_fieldIds : ∀ r ∈ m.reports, ∀ id,
    id ∈ r.fieldIds ↔ ∃ f ∈ m.fields, f.id = id ∧ f.kind = r.kind ∧ f.reportId = r.reportId
  one_report : ∀ f ∈ m.fields, ∃! r, r ∈ m.reports ∧ f.id ∈ r.fieldIds
  tiles : ∀ r ∈ m.reports, Tiles HIDFieldSchema.bitOffset HIDFieldSchema.bits 0
    (r.fieldIds.map fun id => m.fields.getD id {}) r.bitSize
  bitSize_le : ∀ r ∈ m.reports, r.bitSize ≤ 32768
  field_end_le : ∀ f ∈ m.fields, f.bitOffset + f.reportSize * f.reportCount ≤ 32768
  collections_le : m.collections.length ≤ 128
  collection_id : ∀ (i : Nat) (c : HIDCollectionSchema), m.collections[i]? = some c → c.id = i
  collection_parent : ∀ c ∈ m.collections, c.parent = noParent ∨ c.parent < c.id
  field_collection : ∀ f ∈ m.fields, f.collectionId = noParent ∨ f.collectionId < m.collections.length

theorem SchemaInv.wellFormed {m : HIDReportMap} (hm : SchemaInv m) : WellFormed m where
  reports_distinct := by
    refine List.pairwise_map.mpr (hm.distinct.imp fun {a b} hab heq => hab ?_)
    exact Prod.mk.injEq _ _ _ _ ▸ heq
  reports_le := hm.reportsLe
  fields_le := hm.fieldsLe
  field_id := fun _ _ => hm.fieldId
  field_size := fun f hf => ⟨(hm.fieldSize f hf).1, (hm.fieldSize f hf).2.1⟩
  field_count := fun f hf => (hm.fieldSize f hf).2.2
  fieldIds_increasing := fun _ => hm.fieldIds_increasing
  mem_fieldIds := fun _ => hm.mem_fieldIds
  one_report := fun _ => hm.one_report
  tiles := fun r hr => hm.fieldsOf_eq hr ▸ hm.tiles r hr
  bitSize_le := hm.bitSizeLe
  field_end_le := by
    intro f hf
    obtain ⟨r, hr, howns⟩ := hm.fieldReport f hf
    exact Nat.le_trans ((hm.tiles r hr).inside f (List.mem_filter.mpr ⟨hf, howns⟩)).2
      (hm.bitSizeLe r hr)
  collections_le := hm.collectionsLe
  collection_id := fun _ _ => hm.collectionId
  collection_parent := hm.parents
  field_collection := hm.fieldCollection

/-- Whatever the bytes, a map that is returned is well formed. -/
theorem parseReportMapData_wellFormed (data : Buffer) (m : HIDReportMap)
    (h : parseReportMapData data = some m) : WellFormed m :=
  (parseReportMapData_inv h).1.wellFormed

/-- Two key slots over the Keyboard page, without modifiers. -/
def keyboardDescriptor : List UInt8 :=
  [0x05, 0x07, 0x19, 0x00, 0x29, 0x65, 0x15, 0x00, 0x25, 0x65, 0x75, 0x08, 0x95, 0x02, 0x81, 0x00]

theorem parseReportMapData_wellFormed_keyboard :
    ∃ m, parseReportMapData (.bytes keyboardDescriptor) = some m ∧ WellFormed m := by
  have h : (parseReportMapData (.bytes keyboardDescriptor)).isSome := by decide +kernel
  obtain ⟨m, hm⟩ := Option.isSome_iff_exists.mp h
  exact ⟨m, hm, parseReportMapData_wellFormed _ m hm⟩

end HidParser

end BleClientHid
