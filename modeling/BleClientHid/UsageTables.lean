import BleClientHid.Lib.BinarySearch
import BleClientHid.Lib.Literals
import Mathlib.Algebra.GroupWithZero.Nat
import Mathlib.Data.List.Find
import Mathlib.Data.List.Forall2
import Mathlib.Data.List.Sort
import Mathlib.Data.List.TakeWhile

/-! # The usage tables

The arrays that `generate_cpp_usage_tables.py` emits for a document, and the lookups in them.
-/

namespace BleClientHid.UsageTables

open Lib

/-! ## The document -/

structure Usage where
  id : Nat
  name : String
  /-- `none` when the key is missing. -/
  kinds : Option (List String) := none
  deriving DecidableEq

structure UsagePage where
  id : Nat
  name : String
  usageIds : List Usage
  deriving DecidableEq

structure Document where
  usagePages : List UsagePage

/-- Distinct Ids of 16 bits, and fewer usages than 16 bits can count. -/
structure Document.Valid (doc : Document) : Prop where
  pages : (doc.usagePages.map (·.id)).Nodup
  usages : ∀ page ∈ doc.usagePages, (page.usageIds.map (·.id)).Nodup
  pageIds : ∀ page ∈ doc.usagePages, page.id < 2 ^ 16
  usageIds : ∀ page ∈ doc.usagePages, ∀ usage ∈ page.usageIds, usage.id < 2 ^ 16
  total : (doc.usagePages.map (·.usageIds.length)).sum < 2 ^ 16

/-! ## The generator -/

structure UsageRow where
  id : Nat
  name : String
  kinds : String

structure PageRow where
  id : Nat
  name : String
  first : Nat
  count : Nat

def sortedById {α : Type} (id : α → Nat) (l : List α) : List α := l.insertionSort fun a b => id a ≤ id b

def joinedKinds (usage : Usage) : String := "|".intercalate (usage.kinds.getD [])

def usageRow (usage : Usage) : UsageRow :=
  { id := usage.id, name := usage.name, kinds := joinedKinds usage }

/-- A round of the loop over the pages. -/
def addPage (rows : List UsageRow × List PageRow) (page : UsagePage) : List UsageRow × List PageRow :=
  let start := rows.1.length
  let usages := sortedById (·.id) page.usageIds
  (rows.1 ++ usages.map usageRow,
    rows.2 ++ [{ id := page.id, name := page.name, first := start, count := usages.length }])

def generate (doc : Document) : List UsageRow × List PageRow :=
  (sortedById (·.id) doc.usagePages).foldl addPage ([], [])

def cppString (value : String) : List Char := jsonString value.toList

/-! ## The arrays -/

/-- `name` and `kinds` are what is in the `char` arrays, before the NUL at their end. -/
structure UsageRecord where
  id : UInt16
  name : String
  kinds : String
  deriving DecidableEq

structure PageRecord where
  id : UInt16
  name : String
  first : UInt16
  count : UInt16
  deriving DecidableEq

structure Arrays where
  usages : List UsageRecord
  pages : List PageRecord

/-- A number in braces does not narrow. -/
def uint16 (n : Nat) : Checked UInt16 := do
  let n ← fits 16 n
  pure (.ofNat n)

def charArray (literal : List Char) : Checked String := do
  let text ← readStringLiteral literal
  pure (.ofList text)

def UsageRow.record (row : UsageRow) : Checked UsageRecord := do
  let id ← uint16 row.id
  let name ← charArray (cppString row.name)
  let kinds ← charArray (cppString row.kinds)
  pure { id, name, kinds }

def PageRow.record (row : PageRow) : Checked PageRecord := do
  let id ← uint16 row.id
  let name ← charArray (cppString row.name)
  let first ← uint16 row.first
  let count ← uint16 row.count
  pure { id, name, first, count }

def emit (rows : List UsageRow × List PageRow) : Checked Arrays := do
  let usages ← rows.1.mapM UsageRow.record
  let pages ← rows.2.mapM PageRow.record
  pure { usages, pages }

/-! ## The lookups -/

section

variable {α : Type}

/-- A pointer into an array, or one past its end. -/
def pointerTo (array : List α) (i : Nat) : Checked Nat :=
  if i ≤ array.length then .ok i else .error .outOfRange

/-- The search reads between `first` and `last` only, and ends within one round for each entry. -/
def binaryFind (array : List α) (first last : Nat) (id : UInt16) (getId : α → UInt16) : Checked (Option Nat) :=
  bisect (fun a => (getId a).toNat) id.toNat (readBetween array first last) (last - first + 1) first last

/-- `nullptr` has no entry. -/
def entryAt (array : List α) (pointer : Option Nat) : Checked (Option α) :=
  match pointer with
  | none => pure none
  | some i => do
    let entry ← getAt array i
    pure (some entry)

end

def nul : Char := Char.ofNat 0

/-- What a `const char *` to an array points at. -/
def cString (text : String) : String := .ofList (text.toList.takeWhile (· ≠ nul))

/-- `text[0]`; behind the text there is a NUL. -/
def firstChar (text : String) : Char := text.toList.headD nul

variable (arrays : Arrays)

def findPage (page : UInt16) : Checked (Option PageRecord) := do
  let first ← pointerTo arrays.pages 0
  let last ← pointerTo arrays.pages arrays.pages.length
  let found ← binaryFind arrays.pages first last page (·.id)
  entryAt arrays.pages found

def lookupUsagePageName (page : UInt16) : Checked (Option String) := do
  let entry ← findPage arrays page
  pure (entry.map fun entry => cString entry.name)

/-- What `lookup_usage_name` and `lookup_usage_kinds` share. -/
def lookupUsage (page usage : UInt16) : Checked (Option UsageRecord) := do
  match ← findPage arrays page with
  | none => pure none
  | some pageEntry =>
    if pageEntry.count = 0 then pure none
    else
      let first ← pointerTo arrays.usages pageEntry.first.toNat
      let last ← pointerTo arrays.usages (first + pageEntry.count.toNat)
      let found ← binaryFind arrays.usages first last usage (·.id)
      entryAt arrays.usages found

def lookupUsageName (page usage : UInt16) : Checked (Option String) := do
  let entry ← lookupUsage arrays page usage
  pure (entry.map fun entry => cString entry.name)

def lookupUsageKinds (page usage : UInt16) : Checked (Option String) := do
  let entry ← lookupUsage arrays page usage
  pure (entry.bind fun entry => if firstChar entry.kinds = nul then none else some (cString entry.kinds))

/-! ## A linear search -/

namespace Document

variable (doc : Document) (page usage : UInt16)

def page? : Option UsagePage := doc.usagePages.find? fun p => p.id = page.toNat

def usage? : Option Usage := (doc.page? page).bind fun p => p.usageIds.find? fun u => u.id = usage.toNat

end Document

/-- The Kinds, when there are any. -/
def givenKinds (usage : Usage) : Option String :=
  if usage.kinds.getD [] = [] then none else some (joinedKinds usage)

/-- The Kinds up to a NUL, when their text does not look empty. -/
def visibleKinds (usage : Usage) : Option String :=
  if firstChar (joinedKinds usage) = nul then none else some (cString (joinedKinds usage))

/-- Every lookup finds what a linear search of the document finds, and gives its texts in one way or another. -/
structure Agrees (doc : Document) (text : String → String) (kinds : Usage → Option String) (arrays : Arrays)
    (page usage : UInt16) : Prop where
  name : lookupUsageName arrays page usage = .ok ((doc.usage? page usage).map fun u => text u.name)
  pageName : lookupUsagePageName arrays page = .ok ((doc.page? page).map fun p => text p.name)
  kinds : lookupUsageKinds arrays page usage = .ok ((doc.usage? page usage).bind kinds)

def BasicText (text : String) : Prop := BasicPlane text.toList

instance (text : String) : Decidable (BasicText text) := inferInstanceAs (Decidable (BasicPlane _))

def Document.Basic (doc : Document) : Prop :=
  (∀ page ∈ doc.usagePages, ∀ usage ∈ page.usageIds, BasicText usage.name ∧ BasicText (joinedKinds usage)) ∧
    ∀ page ∈ doc.usagePages, BasicText page.name

instance (doc : Document) : Decidable doc.Basic := inferInstanceAs (Decidable (_ ∧ _))

/-- No text has a NUL, and no Kind is empty. -/
structure Document.Plain (doc : Document) : Prop where
  pages : ∀ page ∈ doc.usagePages, nul ∉ page.name.toList
  names : ∀ page ∈ doc.usagePages, ∀ usage ∈ page.usageIds, nul ∉ usage.name.toList
  kinds : ∀ page ∈ doc.usagePages, ∀ usage ∈ page.usageIds, ∀ kind ∈ usage.kinds.getD [],
    kind ≠ "" ∧ nul ∉ kind.toList

/-! ## Sorting -/

section

variable {α : Type} {id : α → Nat} {l : List α}

theorem sortedById_perm (id : α → Nat) (l : List α) : (sortedById id l).Perm l :=
  List.perm_insertionSort _ l

theorem sortedById_length (id : α → Nat) (l : List α) : (sortedById id l).length = l.length :=
  (sortedById_perm id l).length_eq

theorem sortedById_rises (hnodup : (l.map id).Nodup) : ((sortedById id l).map id).Pairwise (· < ·) := by
  have hsorted : (sortedById id l).Pairwise fun a b => id a ≤ id b := by
    have : Std.Total fun a b : α => id a ≤ id b := ⟨fun a b => Nat.le_total (id a) (id b)⟩
    have : IsTrans α fun a b => id a ≤ id b := ⟨fun _ _ _ => Nat.le_trans⟩
    exact List.pairwise_insertionSort _ l
  have hdistinct : ((sortedById id l).map id).Nodup := ((sortedById_perm id l).map id).nodup_iff.mpr hnodup
  rw [List.pairwise_map]
  rw [List.nodup_iff_pairwise_ne, List.pairwise_map] at hdistinct
  exact hsorted.imp₂ (fun _ _ => Nat.lt_of_le_of_ne) hdistinct

theorem find?_sortedById (hnodup : (l.map id).Nodup) (n : Nat) :
    (sortedById id l).find? (fun a => id a = n) = l.find? fun a => id a = n :=
  find?_key_perm (sortedById_perm id l) hnodup

end

/-! ## The generated rows -/

/-- The rows of a page, and where they are. -/
structure PageRow.Describes (usages : List UsageRow) (page : UsagePage) (row : PageRow) : Prop where
  id : row.id = page.id
  name : row.name = page.name
  count : row.count = page.usageIds.length
  inside : row.first + row.count ≤ usages.length
  rows : (usages.take (row.first + row.count)).drop row.first = (sortedById (·.id) page.usageIds).map usageRow

theorem PageRow.Describes.append {usages : List UsageRow} {page : UsagePage} {row : PageRow}
    (h : row.Describes usages page) (more : List UsageRow) : row.Describes (usages ++ more) page where
  id := h.id
  name := h.name
  count := h.count
  inside := by
    have := h.inside
    rw [List.length_append]
    omega
  rows := by
    rw [List.take_append_of_le_length h.inside]
    exact h.rows

/-- A round describes its page, and leaves the rows of the pages before it where they are. -/
theorem addPage_spec {pages : List UsagePage} {rows : List UsageRow × List PageRow}
    (h : List.Forall₂ (PageRow.Describes rows.1) pages rows.2) (page : UsagePage) :
    List.Forall₂ (PageRow.Describes (addPage rows page).1) (pages ++ [page]) (addPage rows page).2 := by
  apply List.rel_append
  · exact h.imp fun _ _ hrow => hrow.append _
  · refine .cons ⟨rfl, rfl, sortedById_length _ _, ?_, ?_⟩ .nil
    · simp [addPage]
    · simp [addPage, List.take_of_length_le]

theorem foldl_addPage_spec {pages : List UsagePage} {rows : List UsageRow × List PageRow}
    (h : List.Forall₂ (PageRow.Describes rows.1) pages rows.2) (later : List UsagePage) :
    List.Forall₂ (PageRow.Describes (later.foldl addPage rows).1) (pages ++ later)
      (later.foldl addPage rows).2 := by
  induction later generalizing pages rows with
  | nil => simpa using h
  | cons page later ih =>
    have hrest := ih (addPage_spec h page)
    rwa [List.append_assoc] at hrest

theorem generate_describes (doc : Document) :
    List.Forall₂ (PageRow.Describes (generate doc).1) (sortedById (·.id) doc.usagePages) (generate doc).2 := by
  have hstart : List.Forall₂ (PageRow.Describes []) [] [] := .nil
  exact @foldl_addPage_spec [] ([], []) hstart _

theorem foldl_addPage_usages (pages : List UsagePage) (rows : List UsageRow × List PageRow) :
    (pages.foldl addPage rows).1 =
      rows.1 ++ pages.flatMap fun page => (sortedById (·.id) page.usageIds).map usageRow := by
  induction pages generalizing rows with
  | nil => simp
  | cons page pages ih =>
    rw [List.foldl_cons, ih, List.flatMap_cons, ← List.append_assoc]
    rfl

theorem generate_usages (doc : Document) : (generate doc).1 =
    (sortedById (·.id) doc.usagePages).flatMap fun page => (sortedById (·.id) page.usageIds).map usageRow :=
  foldl_addPage_usages _ _

theorem generate_length (doc : Document) :
    (generate doc).1.length = (doc.usagePages.map (·.usageIds.length)).sum := by
  rw [generate_usages, List.length_flatMap]
  simp only [List.length_map, sortedById_length]
  exact ((sortedById_perm _ _).map _).sum_nat

/-! ## The emitted arrays -/

def UsageRow.emitted (row : UsageRow) : UsageRecord :=
  { id := .ofNat row.id, name := row.name, kinds := row.kinds }

def PageRow.emitted (row : PageRow) : PageRecord :=
  { id := .ofNat row.id, name := row.name, first := .ofNat row.first, count := .ofNat row.count }

theorem uint16_of_lt {n : Nat} (h : n < 2 ^ 16) : uint16 n = .ok (.ofNat n) := by
  rw [uint16, fits_of_lt h]
  rfl

theorem charArray_cppString (text : String) :
    charArray (cppString text) = if BasicText text then .ok text else .error .refused := by
  have hread : readStringLiteral (cppString text) = if BasicText text then .ok text.toList else .error .refused :=
    readStringLiteral_jsonString text.toList
  rw [charArray, hread]
  by_cases h : BasicText text
  · rw [if_pos h, if_pos h, ok_bind, String.ofList_toList]
    rfl
  · rw [if_neg h, if_neg h]
    rfl

theorem UsageRow.record_of_lt {row : UsageRow} (h : row.id < 2 ^ 16) :
    row.record = if BasicText row.name ∧ BasicText row.kinds then .ok row.emitted else .error .refused := by
  rw [record, uint16_of_lt h, ok_bind, charArray_cppString, charArray_cppString]
  by_cases hname : BasicText row.name
  · by_cases hkinds : BasicText row.kinds
    · rw [if_pos hname, if_pos hkinds, if_pos ⟨hname, hkinds⟩]
      rfl
    · rw [if_pos hname, if_neg hkinds, if_neg fun hboth => hkinds hboth.2]
      rfl
  · have hnot : ¬(BasicText row.name ∧ BasicText row.kinds) := fun hboth => hname hboth.1
    rw [if_neg hname, if_neg hnot]
    rfl

theorem PageRow.record_of_lt {row : PageRow} (hid : row.id < 2 ^ 16) (hrows : row.first + row.count < 2 ^ 16) :
    row.record = if BasicText row.name then .ok row.emitted else .error .refused := by
  rw [record, uint16_of_lt hid, ok_bind, charArray_cppString, uint16_of_lt (by omega), uint16_of_lt (by omega)]
  split <;> rfl

section

variable {doc : Document}

theorem generate_usage_lt (hdoc : doc.Valid) : ∀ row ∈ (generate doc).1, row.id < 2 ^ 16 := by
  intro row hrow
  rw [generate_usages, List.mem_flatMap] at hrow
  obtain ⟨page, hpage, hrow⟩ := hrow
  obtain ⟨usage, husage, rfl⟩ := List.mem_map.mp hrow
  exact hdoc.usageIds page ((sortedById_perm _ _).mem_iff.mp hpage) usage
    ((sortedById_perm _ _).mem_iff.mp husage)

/-- The row of a page of the document, small enough for its record. -/
structure PageRow.Fits (doc : Document) (page : UsagePage) (row : PageRow) : Prop
    extends PageRow.Describes (generate doc).1 page row where
  mem : page ∈ doc.usagePages
  idLt : row.id < 2 ^ 16
  rowsLt : row.first + row.count < 2 ^ 16

theorem generate_fits (hdoc : doc.Valid) :
    List.Forall₂ (PageRow.Fits doc) (sortedById (·.id) doc.usagePages) (generate doc).2 := by
  have hmem : List.Forall₂ (fun page row => page ∈ doc.usagePages ∧ row.Describes (generate doc).1 page)
      (sortedById (·.id) doc.usagePages) (generate doc).2 :=
    (List.forall₂_and_left _ _).mpr
      ⟨fun page hpage => (sortedById_perm _ _).mem_iff.mp hpage, generate_describes doc⟩
  apply hmem.imp
  rintro page row ⟨hpage, hrow⟩
  refine ⟨hrow, hpage, ?_, ?_⟩
  · rw [hrow.id]
    exact hdoc.pageIds page hpage
  · have hinside := hrow.inside
    rw [generate_length] at hinside
    exact Nat.lt_of_le_of_lt hinside hdoc.total

def emitted (doc : Document) : Arrays where
  usages := (generate doc).1.map UsageRow.emitted
  pages := (generate doc).2.map PageRow.emitted

theorem generate_pageNames (hdoc : doc.Valid) :
    (generate doc).2.map (·.name) = (sortedById (·.id) doc.usagePages).map (·.name) := by
  rw [← List.forall₂_eq_eq_eq, List.forall₂_map_left_iff, List.forall₂_map_right_iff]
  exact ((generate_fits hdoc).imp fun _ _ hrow => hrow.name).flip

theorem basic_iff (hdoc : doc.Valid) :
    doc.Basic ↔ (∀ row ∈ (generate doc).1, BasicText row.name ∧ BasicText row.kinds) ∧
      ∀ row ∈ (generate doc).2, BasicText row.name := by
  have hnames : (∀ row ∈ (generate doc).2, BasicText row.name) ↔ ∀ page ∈ doc.usagePages, BasicText page.name := by
    rw [← List.forall_mem_map (f := PageRow.name), generate_pageNames hdoc, List.forall_mem_map]
    exact forall_congr' fun page => imp_congr_left (sortedById_perm _ _).mem_iff
  unfold Document.Basic
  rw [hnames, and_congr_left_iff]
  rintro -
  rw [generate_usages, List.forall_mem_flatMap]
  simp only [List.forall_mem_map, (sortedById_perm _ _).mem_iff]
  rfl

/-- No number of a valid document narrows: only its texts can keep the file from being compiled. -/
theorem emit_generate (hdoc : doc.Valid) :
    emit (generate doc) = if doc.Basic then .ok (emitted doc) else .error .refused := by
  have husages := mapM_ite fun row hrow => UsageRow.record_of_lt (generate_usage_lt hdoc row hrow)
  have hpages : (generate doc).2.mapM PageRow.record = if ∀ row ∈ (generate doc).2, BasicText row.name then
      .ok ((generate doc).2.map PageRow.emitted) else .error .refused := by
    apply mapM_ite
    exact forall_mem_of_forall₂ (fun _ _ hrow => PageRow.record_of_lt hrow.idLt hrow.rowsLt) (generate_fits hdoc)
  rw [emit, husages, hpages]
  have hbasic := basic_iff hdoc
  by_cases husage : ∀ row ∈ (generate doc).1, BasicText row.name ∧ BasicText row.kinds
  · by_cases hpage : ∀ row ∈ (generate doc).2, BasicText row.name
    · rw [if_pos husage, if_pos hpage, if_pos (hbasic.mpr ⟨husage, hpage⟩)]
      rfl
    · have hnot : ¬doc.Basic := fun h => hpage (hbasic.mp h).2
      rw [if_pos husage, if_neg hpage, if_neg hnot]
      rfl
  · have hnot : ¬doc.Basic := fun h => husage (hbasic.mp h).1
    rw [if_neg husage, if_neg hnot]
    rfl

end

/-! ## The lookups in them -/

theorem toNat_ofNat {n : Nat} (h : n < 2 ^ 16) : (UInt16.ofNat n).toNat = n := by
  rw [UInt16.toNat_ofNat', Nat.mod_eq_of_lt h]

/-- Where the Ids of a part of an array rise, the search ends inside the part, with what a linear search finds. -/
theorem binaryFind_spec {α : Type} {array : List α} {getId : α → UInt16} {first last : Nat}
    (hlast : last ≤ array.length)
    (hrises : (((array.take last).drop first).map fun a => (getId a).toNat).Pairwise (· < ·)) (id : UInt16) :
    (do entryAt array (← binaryFind array first last id getId)) =
      .ok (((array.take last).drop first).find? fun a => (getId a).toNat = id.toNat) := by
  obtain ⟨found, hfound, hinside, hentry⟩ := bisect_readBetween (k := id.toNat) hlast hrises
  rw [binaryFind, hfound, ok_bind, ← hentry]
  cases found with
  | none => rfl
  | some i =>
    have hlt : i < array.length := Nat.lt_of_lt_of_le (hinside i rfl) hlast
    have hi : array[i]? = some array[i] := List.getElem?_eq_getElem hlt
    rw [entryAt, getAt_of_getElem? hi, Option.bind_some, hi]
    rfl

section

variable {doc : Document}

theorem PageRow.Fits.toNat_first {page : UsagePage} {row : PageRow} (h : row.Fits doc page) :
    row.emitted.first.toNat = row.first := toNat_ofNat (by have := h.rowsLt; omega)

theorem PageRow.Fits.toNat_count {page : UsagePage} {row : PageRow} (h : row.Fits doc page) :
    row.emitted.count.toNat = row.count := toNat_ofNat (by have := h.rowsLt; omega)

theorem PageRow.Fits.toNat_id {page : UsagePage} {row : PageRow} (h : row.Fits doc page) :
    row.emitted.id.toNat = page.id := (toNat_ofNat h.idLt).trans h.id

theorem findPage_spec (hdoc : doc.Valid) (page : UInt16) :
    ∃ row : Option PageRow, findPage (emitted doc) page = .ok (row.map PageRow.emitted) ∧
      Option.Rel (PageRow.Fits doc) (doc.page? page) row := by
  have hfits := generate_fits hdoc
  have hids : (emitted doc).pages.map (fun record => record.id.toNat) =
      (sortedById (·.id) doc.usagePages).map (·.id) := by
    rw [emitted, List.map_map, ← List.forall₂_eq_eq_eq, List.forall₂_map_left_iff, List.forall₂_map_right_iff]
    exact (hfits.imp fun _ _ hrow => hrow.toNat_id).flip
  have hwhole : ((emitted doc).pages.take (emitted doc).pages.length).drop 0 = (emitted doc).pages := by
    rw [List.take_length, List.drop_zero]
  have hsearch := @binaryFind_spec _ (emitted doc).pages (·.id) 0 _ (Nat.le_refl _)
    (by rw [hwhole, hids]; exact sortedById_rises hdoc.pages) page
  have hrow : (emitted doc).pages.find? (fun record => record.id.toNat = page.toNat) =
      ((generate doc).2.find? fun row => row.emitted.id.toNat = page.toNat).map PageRow.emitted := List.find?_map
  rw [hwhole, hrow] at hsearch
  refine ⟨(generate doc).2.find? fun row => row.emitted.id.toNat = page.toNat, ?_, ?_⟩
  · rw [findPage, pointerTo, if_pos (Nat.zero_le _), ok_bind, pointerTo, if_pos (Nat.le_refl _), ok_bind]
    exact hsearch
  · rw [Document.page?, ← find?_sortedById hdoc.pages]
    exact rel_find? (fun _ _ hrow => by simp only [hrow.toNat_id]) hfits

/-- A search of the rows of a page finds the usage of the document. -/
theorem usages_spec (hdoc : doc.Valid) {page : UsagePage} {row : PageRow} (h : row.Fits doc page)
    (usage : UInt16) :
    (do entryAt (emitted doc).usages (← binaryFind (emitted doc).usages row.first (row.first + row.count) usage
        (·.id))) =
      .ok ((page.usageIds.find? fun u => u.id = usage.toNat).map fun u => (usageRow u).emitted) := by
  have hmem : ∀ u ∈ sortedById (·.id) page.usageIds, (usageRow u).emitted.id.toNat = u.id := fun u hu =>
    toNat_ofNat (hdoc.usageIds page h.mem u ((sortedById_perm _ _).mem_iff.mp hu))
  have hpart : ((emitted doc).usages.take (row.first + row.count)).drop row.first =
      (sortedById (·.id) page.usageIds).map fun u => (usageRow u).emitted := by
    rw [emitted, ← List.map_take, ← List.map_drop, h.rows, List.map_map]
    rfl
  have hids : (((emitted doc).usages.take (row.first + row.count)).drop row.first).map (fun record =>
      record.id.toNat) = (sortedById (·.id) page.usageIds).map (·.id) := by
    rw [hpart, List.map_map]
    exact List.map_congr_left hmem
  have hlast : row.first + row.count ≤ (emitted doc).usages.length := by
    rw [emitted, List.length_map]
    exact h.inside
  have hsearch := @binaryFind_spec _ (emitted doc).usages (·.id) row.first _ hlast
    (by rw [hids]; exact sortedById_rises (hdoc.usages page h.mem)) usage
  rw [hsearch, hpart, List.find?_map, ← find?_sortedById (hdoc.usages page h.mem)]
  congr 2
  apply List.find?_congr
  intro u hu
  simp only [Function.comp_apply, hmem u hu]

theorem lookupUsage_spec (hdoc : doc.Valid) (page usage : UInt16) :
    lookupUsage (emitted doc) page usage =
      .ok ((doc.usage? page usage).map fun u => (usageRow u).emitted) := by
  obtain ⟨row, hfind, hrel⟩ := findPage_spec hdoc page
  rw [lookupUsage, hfind, ok_bind, Document.usage?]
  generalize doc.page? page = p at hrel
  cases hrel with
  | none => rfl
  | @some p row hrow =>
    dsimp only [Option.map_some, Option.bind_some]
    split
    · -- An empty page has no usages.
      rename_i hzero
      have hnone : p.usageIds = [] := by
        have hcount := hrow.toNat_count
        rw [hzero, hrow.count] at hcount
        exact List.eq_nil_of_length_eq_zero hcount.symm
      rw [hnone]
      rfl
    · have hlast : row.first + row.count ≤ (emitted doc).usages.length := by
        rw [emitted, List.length_map]
        exact hrow.inside
      rw [hrow.toNat_first, hrow.toNat_count, pointerTo, if_pos (by omega), ok_bind, pointerTo, if_pos hlast,
        ok_bind]
      exact usages_spec hdoc hrow usage

theorem lookupUsageName_spec (hdoc : doc.Valid) (page usage : UInt16) :
    lookupUsageName (emitted doc) page usage = .ok ((doc.usage? page usage).map fun u => cString u.name) := by
  rw [lookupUsageName, lookupUsage_spec hdoc, ok_bind, Option.map_map]
  rfl

theorem lookupUsagePageName_spec (hdoc : doc.Valid) (page : UInt16) :
    lookupUsagePageName (emitted doc) page = .ok ((doc.page? page).map fun p => cString p.name) := by
  obtain ⟨row, hfind, hrel⟩ := findPage_spec hdoc page
  rw [lookupUsagePageName, hfind, ok_bind, Option.map_map]
  generalize doc.page? page = p at hrel
  cases hrel with
  | none => rfl
  | some hrow => exact congrArg (fun name => Except.ok (some (cString name))) hrow.name

theorem lookupUsageKinds_spec (hdoc : doc.Valid) (page usage : UInt16) :
    lookupUsageKinds (emitted doc) page usage = .ok ((doc.usage? page usage).bind visibleKinds) := by
  rw [lookupUsageKinds, lookupUsage_spec hdoc, ok_bind, Option.bind_map]
  rfl

theorem emitted_agrees (hdoc : doc.Valid) (page usage : UInt16) :
    Agrees doc cString visibleKinds (emitted doc) page usage :=
  ⟨lookupUsageName_spec hdoc page usage, lookupUsagePageName_spec hdoc page, lookupUsageKinds_spec hdoc page usage⟩

end

/-! ## Texts that nothing is lost of -/

theorem cString_eq {text : String} (h : nul ∉ text.toList) : cString text = text := by
  have hwhole : text.toList.takeWhile (· ≠ nul) = text.toList := by
    rw [List.takeWhile_eq_self_iff]
    intro c hc
    simpa using fun heq : c = nul => h (heq ▸ hc)
  rw [cString, hwhole, String.ofList_toList]

/-- A text joined from several begins as the first of them, unless that one is empty. -/
theorem firstChar_intercalate {kind : String} (h : firstChar kind ≠ nul) (kinds : List String) :
    firstChar ("|".intercalate (kind :: kinds)) = firstChar kind := by
  unfold firstChar at h ⊢
  rw [String.toList_intercalate, List.map_cons]
  cases hkind : kind.toList with
  | nil =>
    rw [hkind] at h
    exact absurd rfl h
  | cons c rest =>
    cases kinds with
    | nil => rw [List.map_nil, List.intercalate_singleton]
    | cons kind' kinds =>
      rw [List.map_cons, List.intercalate_cons_cons, List.append_assoc, List.cons_append]
      rfl

theorem mem_intercalate {sep : List Char} {texts : List (List Char)} {c : Char}
    (h : c ∈ sep.intercalate texts) : c ∈ sep ∨ ∃ text ∈ texts, c ∈ text := by
  induction texts with
  | nil => simp at h
  | cons text texts ih =>
    cases texts with
    | nil =>
      rw [List.intercalate_singleton] at h
      exact .inr ⟨text, by simp, h⟩
    | cons text' texts =>
      rw [List.intercalate_cons_cons, List.mem_append, List.mem_append] at h
      rcases h with (h | h) | h
      · exact .inr ⟨text, by simp, h⟩
      · exact .inl h
      · exact (ih h).imp_right fun ⟨t, ht, hc⟩ => ⟨t, List.mem_cons_of_mem _ ht, hc⟩

theorem visibleKinds_eq_givenKinds {usage : Usage}
    (h : ∀ kind ∈ usage.kinds.getD [], kind ≠ "" ∧ nul ∉ kind.toList) : visibleKinds usage = givenKinds usage := by
  unfold visibleKinds givenKinds joinedKinds
  cases hkinds : usage.kinds.getD [] with
  | nil => rfl
  | cons kind kinds =>
    rw [hkinds] at h
    obtain ⟨hempty, hnul⟩ := h kind List.mem_cons_self
    have hfirst : firstChar kind ≠ nul := by
      unfold firstChar
      cases hchars : kind.toList with
      | nil => exact absurd (String.toList_inj.mp hchars) hempty
      | cons c rest =>
        intro heq
        rw [hchars] at hnul
        exact hnul (heq ▸ List.mem_cons_self)
    have hjoined : nul ∉ ("|".intercalate (kind :: kinds)).toList := by
      rw [String.toList_intercalate]
      intro hmem
      rcases mem_intercalate hmem with hbar | ⟨text, htext, hc⟩
      · exact absurd hbar (by decide)
      · obtain ⟨other, hother, rfl⟩ := List.mem_map.mp htext
        exact (h other hother).2 hc
    rw [if_neg (by rwa [firstChar_intercalate hfirst]), if_neg (List.cons_ne_nil _ _), cString_eq hjoined]

section

variable {doc : Document} {arrays : Arrays} {page usage : UInt16}

theorem mem_of_page? {p : UsagePage} (h : doc.page? page = some p) : p ∈ doc.usagePages :=
  List.mem_of_find?_eq_some h

theorem mem_of_usage? {u : Usage} (h : doc.usage? page usage = some u) :
    ∃ p ∈ doc.usagePages, u ∈ p.usageIds := by
  obtain ⟨p, hp, hu⟩ := Option.bind_eq_some_iff.mp h
  exact ⟨p, mem_of_page? hp, List.mem_of_find?_eq_some hu⟩

theorem Agrees.plain (h : Agrees doc cString visibleKinds arrays page usage) (hplain : doc.Plain) :
    Agrees doc id givenKinds arrays page usage := by
  refine ⟨h.name.trans ?_, h.pageName.trans ?_, h.kinds.trans ?_⟩
  · cases hu : doc.usage? page usage with
    | none => rfl
    | some u =>
      obtain ⟨p, hp, hmem⟩ := mem_of_usage? hu
      rw [Option.map_some, Option.map_some, cString_eq (hplain.names p hp u hmem), id_eq]
  · cases hp : doc.page? page with
    | none => rfl
    | some p => rw [Option.map_some, Option.map_some, cString_eq (hplain.pages p (mem_of_page? hp)), id_eq]
  · cases hu : doc.usage? page usage with
    | none => rfl
    | some u =>
      obtain ⟨p, hp, hmem⟩ := mem_of_usage? hu
      rw [Option.bind_some, Option.bind_some, visibleKinds_eq_givenKinds (hplain.kinds p hp u hmem)]

end

/-- For any valid document whose texts are in the basic plane the arrays are emitted, and every lookup ends, reads
only between the bounds it searches, and finds what a linear search of the document finds. A text ends at its first
NUL, and Kinds that begin like an empty text are none. -/
theorem lookups_agree (doc : Document) (hdoc : doc.Valid) :
    ((∃ arrays, emit (generate doc) = .ok arrays) ↔ doc.Basic) ∧
      ∀ arrays, emit (generate doc) = .ok arrays → ∀ page usage,
        Agrees doc cString visibleKinds arrays page usage ∧
          (doc.Plain → Agrees doc id givenKinds arrays page usage) := by
  rw [emit_generate hdoc]
  by_cases hbasic : doc.Basic
  · rw [if_pos hbasic]
    refine ⟨⟨fun _ => hbasic, fun _ => ⟨_, rfl⟩⟩, ?_⟩
    rintro arrays ⟨⟩ page usage
    exact ⟨emitted_agrees hdoc page usage, (emitted_agrees hdoc page usage).plain⟩
  · rw [if_neg hbasic]
    refine ⟨⟨?_, fun h => absurd h hbasic⟩, nofun⟩
    rintro ⟨arrays, ⟨⟩⟩

/-- A document with pages and usages out of order, an empty page, Ids at both ends and texts with escapes. -/
def exampleDocument : Document where
  usagePages := [
    { id := 0xFFFF, name := "Vendor", usageIds := [] },
    { id := 9, name := "Button", usageIds := [
      { id := 0xFFFF, name := "\"Last\"\n" },
      { id := 1, name := "Primär", kinds := some ["MC", "DV"] },
      { id := 0, name := "None" }] },
    { id := 0, name := "Undefined", usageIds := [{ id := 7, name := "Seven", kinds := some [] }] }]

example : (do
    let arrays ← emit (generate exampleDocument)
    let name ← lookupUsageName arrays 9 0xFFFF
    let kinds ← lookupUsageKinds arrays 9 1
    let kinds' ← lookupUsageKinds arrays 9 0
    pure (name, kinds, kinds')) = Except.ok (some "\"Last\"\n", some "MC|DV", none) := by
  decide +kernel

theorem exampleDocument_valid : exampleDocument.Valid where
  pages := by decide
  usages := by decide
  pageIds := by decide
  usageIds := by decide
  total := by decide

/-- The lookups give the texts of the document, as a linear search finds them. -/
def GivesTexts (doc : Document) : Prop :=
  ∃ arrays, emit (generate doc) = .ok arrays ∧ ∀ page usage, Agrees doc id givenKinds arrays page usage

theorem lookups_agree_example : GivesTexts exampleDocument := by
  obtain ⟨hemit, hagree⟩ := lookups_agree exampleDocument exampleDocument_valid
  obtain ⟨arrays, harrays⟩ := hemit.mpr (by decide +kernel)
  have hplain : exampleDocument.Plain := ⟨by decide +kernel, by decide +kernel, by decide +kernel⟩
  exact ⟨arrays, harrays, fun page usage => (hagree arrays harrays page usage).2 hplain⟩

/-! ## Texts that something is lost of -/

def oneUsage (name : String) (kinds : Option (List String)) : Document where
  usagePages := [{ id := 9, name := "Button", usageIds := [{ id := 1, name, kinds }] }]

theorem oneUsage_valid (name : String) (kinds : Option (List String)) : (oneUsage name kinds).Valid where
  pages := by simp [oneUsage]
  usages := by simp [oneUsage]
  pageIds := by simp [oneUsage]
  usageIds := by simp [oneUsage]
  total := by simp [oneUsage]

/-- A usage whose only Kind is an empty text has none in the lookup, a Name with a NUL is cut off there, and with a
Name outside the basic plane there is no file that compiles. -/
theorem texts_are_lost :
    ((oneUsage "Key" (some [""])).Valid ∧ ¬GivesTexts (oneUsage "Key" (some [""]))) ∧
    ((oneUsage "A\x00B" none).Valid ∧ ¬GivesTexts (oneUsage "A\x00B" none)) ∧
    ((oneUsage (.singleton (Char.ofNat 0x1F600)) none).Valid ∧
      ¬GivesTexts (oneUsage (.singleton (Char.ofNat 0x1F600)) none)) := by
  refine ⟨⟨oneUsage_valid _ _, ?_⟩, ⟨oneUsage_valid _ _, ?_⟩, oneUsage_valid _ _, ?_⟩
  · rintro ⟨arrays, hemit, hagrees⟩
    rw [emit_generate (oneUsage_valid _ _), if_pos (by decide +kernel)] at hemit
    obtain rfl := Except.ok.inj hemit
    have hkinds := (hagrees 9 1).kinds
    rw [lookupUsageKinds_spec (oneUsage_valid _ _)] at hkinds
    exact absurd hkinds (by decide +kernel)
  · rintro ⟨arrays, hemit, hagrees⟩
    rw [emit_generate (oneUsage_valid _ _), if_pos (by decide +kernel)] at hemit
    obtain rfl := Except.ok.inj hemit
    have hname := (hagrees 9 1).name
    rw [lookupUsageName_spec (oneUsage_valid _ _)] at hname
    exact absurd hname (by decide +kernel)
  · rintro ⟨arrays, hemit, -⟩
    rw [emit_generate (oneUsage_valid _ _), if_neg (by decide +kernel)] at hemit
    cases hemit

end BleClientHid.UsageTables
