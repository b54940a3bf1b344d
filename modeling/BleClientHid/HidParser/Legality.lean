import BleClientHid.HidParser.Grammar

/-! # Legal item lists

What makes an item legal behind a legal list: the grammar, one item at a time.
-/

namespace BleClientHid

namespace HidParser

open Lib

/-! ## Main items -/

/-- The known Main items. The others are reserved. -/
def ItemTag.isMain : ItemTag → Bool
  | .collection | .endCollection | .data _ => true
  | _ => false

theorem itemTag_isMain :
    ∀ p < 256, itemTag p ≠ .unknown → (p &&& 0x0C == 0x00) = (itemTag p).isMain := by
  decide +kernel

theorem Item.isMain_of_tag (i : Item) (h : i.tag ≠ .unknown) : i.isMain = i.tag.isMain := by
  cases i with
  | short p data => exact itemTag_isMain p.toNat p.toNat_lt h
  | long => exact absurd rfl h

/-! ## One more item -/

theorem delimiters_concat (items : List Item) (i : Item) :
    delimiters (items ++ [i]) =
      if i.isMain then [] else delimiters items ++ if i.is .delimiter then [i.raw] else [] := by
  unfold delimiters
  rw [List.rtakeWhile_concat]
  cases i.isMain
  · cases hd : i.is .delimiter <;> simp [hd]
  · rfl

theorem alternating_concat {values : List Nat} {v : Nat} :
    Alternating (values ++ [v]) ↔ Alternating values ∧ v = (values.length + 1) % 2 := by
  unfold Alternating
  constructor
  · intro h
    refine ⟨fun n u hn => h n u ?_, h _ _ (by simp)⟩
    rw [List.getElem?_append_left (List.getElem?_eq_some_iff.mp hn).1]
    exact hn
  · rintro ⟨h, hv⟩ n u hn
    rcases Nat.lt_trichotomy n values.length with hlt | rfl | hgt
    · rw [List.getElem?_append_left hlt] at hn
      exact h n u hn
    · simp at hn
      omega
    · rw [List.getElem?_eq_none (by simp; omega)] at hn
      cases hn

theorem Alternating.open_iff {values : List Nat} (h : Alternating values) :
    values.getLast? = some 1 ↔ values.length % 2 = 1 := by
  rcases List.eq_nil_or_concat values with rfl | ⟨before, v, rfl⟩
  · simp
  · rw [List.concat_eq_append] at h ⊢
    have hv := (alternating_concat.mp h).2
    simp
    omega

theorem declarationsAfter_concat (before items : List Item) (i : Item) :
    declarationsAfter before (items ++ [i]) =
      declarationsAfter before items ++ (i.declares (before ++ items)).toList := by
  induction items generalizing before with
  | nil => simp [declarationsAfter]
  | cons first rest ih => simp [declarationsAfter, ih]

theorem declarations_concat (items : List Item) (i : Item) :
    declarations (items ++ [i]) = declarations items ++ (i.declares items).toList :=
  declarationsAfter_concat [] items i

theorem declarations_eq_nil (items : List Item) :
    declarations items = [] ↔ ∀ i ∈ items, ∀ kind, i.tag ≠ .data kind := by
  induction items using List.reverseRecOn with
  | nil => simp [declarations, declarationsAfter]
  | append_singleton items i ih =>
    rw [declarations_concat, List.append_eq_nil_iff, ih]
    simp only [List.mem_append, List.mem_singleton, or_imp, forall_and, forall_eq]
    apply and_congr_right
    intro _
    unfold Item.declares
    cases i.tag <;> simp

/-! ## What may follow -/

/-- There is room for one more data item. -/
structure Fits (ds : List Declaration) (d : Declaration) : Prop where
  size : 1 ≤ d.layout.size ∧ d.layout.size ≤ 32
  count : 1 ≤ d.layout.count ∧ d.layout.count ≤ 4096
  reports : ((ds ++ [d]).map Declaration.report).toFinset.card ≤ 64
  length : ds.length < 512
  bits : reportBits d.report ds + d.bits ≤ 32768

theorem reportBits_concat (report : HIDReportKind × Nat) (ds : List Declaration) (d : Declaration) :
    reportBits report (ds ++ [d]) = reportBits report ds + if d.report = report then d.bits else 0 := by
  unfold reportBits
  by_cases h : d.report = report <;> simp [h]

theorem withinLimits_nil : WithinLimits [] := by
  constructor <;> simp [reportBits]

theorem withinLimits_concat {ds : List Declaration} {d : Declaration} :
    WithinLimits (ds ++ [d]) ↔ WithinLimits ds ∧ Fits ds d := by
  constructor
  · rintro ⟨hsize, hcount, hreports, hlength, hbits⟩
    have hlast : d ∈ ds ++ [d] := by simp
    rw [List.length_append, List.length_singleton] at hlength
    refine ⟨⟨fun e he => hsize e (List.mem_append_left _ he), fun e he => hcount e (List.mem_append_left _ he),
      ?_, by omega, fun report => ?_⟩, hsize d hlast, hcount d hlast, hreports, by omega, ?_⟩
    · rw [List.map_append, List.toFinset_append] at hreports
      exact Nat.le_trans (Finset.card_le_card Finset.subset_union_left) hreports
    · have := hbits report
      rw [reportBits_concat] at this
      omega
    · have := hbits d.report
      rwa [reportBits_concat, if_pos rfl] at this
  · rintro ⟨⟨hsize, hcount, -, -, hbits⟩, hfits⟩
    refine ⟨?_, ?_, hfits.reports, ?_, fun report => ?_⟩
    · simp only [List.mem_append, List.mem_singleton]
      rintro e (he | rfl)
      · exact hsize e he
      · exact hfits.size
    · simp only [List.mem_append, List.mem_singleton]
      rintro e (he | rfl)
      · exact hcount e he
      · exact hfits.count
    · have := hfits.length
      rw [List.length_append, List.length_singleton]
      omega
    · rw [reportBits_concat]
      split
      · rename_i hreport
        exact hreport ▸ hfits.bits
      · exact hbits report

/-- What makes `item` legal behind a legal list. -/
structure Follows (items : List Item) (item : Item) : Prop where
  collection : item.tag = .collection → items.countP (Item.is .collection) < 128 ∧
    items.countP (Item.is .collection) < items.countP (Item.is .endCollection) + 32
  endCollection : item.tag = .endCollection →
    items.countP (Item.is .endCollection) < items.countP (Item.is .collection)
  push : item.tag = .push → items.countP (Item.is .push) < items.countP (Item.is .pop) + 16
  pop : item.tag = .pop → items.countP (Item.is .pop) < items.countP (Item.is .push)
  usagePage : item.tag = .usagePage → item.raw < 2 ^ 16
  reportId : item.tag = .reportId → 1 ≤ item.raw ∧ item.raw ≤ 255
  delimiter : item.tag = .delimiter → item.raw = ((delimiters items).length + 1) % 2
  data : ∀ kind, item.tag = .data kind →
    Fits (declarations items) ⟨kind, layoutAfter items⟩ ∧ ¬ DelimiterOpen items

theorem Item.is_iff {tag : ItemTag} {i : Item} : i.is tag = true ↔ i.tag = tag := by
  unfold Item.is
  exact beq_iff_eq

theorem Item.is_disjoint {t u : ItemTag} (h : t ≠ u) (i : Item) : ¬ (i.is t = true ∧ i.is u = true) := by
  rintro ⟨ht, hu⟩
  exact h ((Item.is_iff.mp ht).symm.trans (Item.is_iff.mp hu))

theorem Item.declares_eq_some {before : List Item} {i : Item} {d : Declaration} :
    i.declares before = some d ↔ i.tag = .data d.kind ∧ d.layout = layoutAfter before := by
  unfold Item.declares
  rcases d with ⟨kind, layout⟩
  cases i.tag <;> simp [eq_comm]

theorem declarations_other {items : List Item} {i : Item} (h : i.declares items = none) :
    declarations (items ++ [i]) = declarations items := by
  rw [declarations_concat, h, Option.toList_none, List.append_nil]

theorem declarations_data {items : List Item} {i : Item} {d : Declaration} (h : i.declares items = some d) :
    declarations (items ++ [i]) = declarations items ++ [d] := by
  rw [declarations_concat, h, Option.toList_some]

theorem legal_nil : Legal [] where
  collections := nested_nil _ _ _
  collections_le := by simp
  globals := nested_nil _ _ _
  usagePage := by simp
  reportId := by simp
  delimiters := by
    intro p hp
    rw [List.prefix_nil.mp hp]
    rintro n v ⟨⟩
  delimiters_closed := by
    intro p i hp
    simpa using List.prefix_nil.mp hp
  declarations := withinLimits_nil

section
variable {items : List Item} {i : Item}

theorem Legal.before (h : Legal (items ++ [i])) : Legal items where
  collections p hp := h.collections p (hp.trans (List.prefix_append _ _))
  collections_le := by
    have := h.collections_le
    rw [List.countP_append] at this
    omega
  globals p hp := h.globals p (hp.trans (List.prefix_append _ _))
  usagePage j hj := h.usagePage j (List.mem_append_left _ hj)
  reportId j hj := h.reportId j (List.mem_append_left _ hj)
  delimiters p hp := h.delimiters p (hp.trans (List.prefix_append _ _))
  delimiters_closed p j hp := h.delimiters_closed p j (hp.trans (List.prefix_append _ _))
  declarations := by
    have hds := h.declarations
    cases hd : i.declares items with
    | none => rwa [declarations_other hd] at hds
    | some d =>
      rw [declarations_data hd] at hds
      exact (withinLimits_concat.mp hds).1

theorem Legal.follows (h : Legal (items ++ [i])) : Follows items i := by
  obtain ⟨-, hend, hopen⟩ := (nested_concat (Item.is_disjoint (by decide) i)).mp h.collections
  obtain ⟨-, hpop, hpush⟩ := (nested_concat (Item.is_disjoint (by decide) i)).mp h.globals
  have hmem : i ∈ items ++ [i] := by simp
  refine
    { collection := fun ht => ⟨?_, hopen (Item.is_iff.mpr ht)⟩
      endCollection := fun ht => hend (Item.is_iff.mpr ht)
      push := fun ht => hpush (Item.is_iff.mpr ht)
      pop := fun ht => hpop (Item.is_iff.mpr ht)
      usagePage := h.usagePage i hmem
      reportId := h.reportId i hmem
      delimiter := ?_
      data := ?_ }
  · have := h.collections_le
    rw [List.countP_append, List.countP_singleton, if_pos (Item.is_iff.mpr ht)] at this
    omega
  · intro ht
    have hlast := h.delimiters _ (List.prefix_refl _)
    rw [delimiters_concat, i.isMain_of_tag (by simp [ht]), ht, if_neg (by decide),
      if_pos (Item.is_iff.mpr ht)] at hlast
    exact (alternating_concat.mp hlast).2
  · intro kind ht
    have hd : i.declares items = some ⟨kind, layoutAfter items⟩ := Item.declares_eq_some.mpr ⟨ht, rfl⟩
    have hds := h.declarations
    rw [declarations_data hd] at hds
    exact ⟨(withinLimits_concat.mp hds).2, (forall_event_concat.mp h.delimiters_closed).2 kind ht⟩

theorem Legal.concat (h : Legal items) (hi : Follows items i) : Legal (items ++ [i]) := by
  refine
    { collections := ?_
      collections_le := ?_
      globals := ?_
      usagePage := ?_
      reportId := ?_
      delimiters := forall_prefix_concat.mpr ⟨h.delimiters, ?_⟩
      delimiters_closed := forall_event_concat.mpr ⟨h.delimiters_closed, fun kind ht => (hi.data kind ht).2⟩
      declarations := ?_ }
  · rw [nested_concat (Item.is_disjoint (by decide) i)]
    exact ⟨h.collections, fun ht => hi.endCollection (Item.is_iff.mp ht),
      fun ht => (hi.collection (Item.is_iff.mp ht)).2⟩
  · have := h.collections_le
    rw [List.countP_append, List.countP_singleton]
    split
    · rename_i ht
      have := (hi.collection (Item.is_iff.mp ht)).1
      omega
    · omega
  · rw [nested_concat (Item.is_disjoint (by decide) i)]
    exact ⟨h.globals, fun ht => hi.pop (Item.is_iff.mp ht), fun ht => hi.push (Item.is_iff.mp ht)⟩
  · simp only [List.mem_append, List.mem_singleton]
    rintro j (hj | rfl)
    · exact h.usagePage j hj
    · exact hi.usagePage
  · simp only [List.mem_append, List.mem_singleton]
    rintro j (hj | rfl)
    · exact h.reportId j hj
    · exact hi.reportId
  · rw [delimiters_concat]
    split
    · -- a Main item ends the list of Delimiters
      rintro n v ⟨⟩
    · split
      · rename_i ht
        exact alternating_concat.mpr ⟨h.delimiters _ (List.prefix_refl _), hi.delimiter (Item.is_iff.mp ht)⟩
      · rw [List.append_nil]
        exact h.delimiters _ (List.prefix_refl _)
  · cases hd : i.declares items with
    | none =>
      rw [declarations_other hd]
      exact h.declarations
    | some d =>
      -- a data item: its own fit is the new element of the limits
      obtain ⟨ht, hlayout⟩ := Item.declares_eq_some.mp hd
      have hfits := (hi.data d.kind ht).1
      rw [← hlayout] at hfits
      rw [declarations_data hd]
      exact withinLimits_concat.mpr ⟨h.declarations, hfits⟩

end

end HidParser

end BleClientHid
