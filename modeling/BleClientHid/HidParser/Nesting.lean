import BleClientHid.HidParser.Acceptance
import BleClientHid.Lib.OpenEvents

/-! # Collection parents and the nesting of the descriptor

The parser keeps a stack of open collections, the map only a parent for each collection.
-/

namespace BleClientHid

namespace HIDReportMap

/-- Following the parent links from `id` visits `chain` and ends at `NO_PARENT`. -/
def Visits (m : HIDReportMap) : Nat → List Nat → Prop
  | id, [] => id = noParent
  | id, k :: chain => id = k ∧ k ≠ noParent ∧ ∃ c, m.collections[k]? = some c ∧ m.Visits c.parent chain

/-- The usage of the first collection of type 0x01. -/
def applicationOf (m : HIDReportMap) (chain : List Nat) : HIDUsage :=
  ((chain.filterMap (m.collections[·]?)).find? (·.type == 0x01)).elim {} (·.usage)

end HIDReportMap

namespace HidParser

open Lib HIDReportMap

/-- The collections that are open behind the items, innermost first. -/
def OpenCollections (items : List Item) (chain : List Nat) : Prop :=
  chain.Pairwise (· > ·) ∧ ∀ k, k ∈ chain ↔ OpenAt (Item.is .collection) (Item.is .endCollection) items k

/-- Field `j` belongs to the data item with `j` data items before it, and its parent links are the collections
open there. -/
def DeclaredInside (items : List Item) (m : HIDReportMap) (j : Nat) (f : HIDFieldSchema) : Prop :=
  ∃ before i after chain, items = before ++ i :: after ∧ i.tag = .data f.kind ∧
    (declarations before).length = j ∧ OpenCollections before chain ∧ m.Visits f.collectionId chain

structure MirrorsNesting (items : List Item) (m : HIDReportMap) : Prop where
  types : m.collections.map (·.type) = (items.filter (Item.is .collection)).map (·.raw % 256)
  fields : ∀ j f, m.fields[j]? = some f → DeclaredInside items m j f

/-! ## The parent links -/

section
variable {m m' : HIDReportMap} {id : Nat} {chain : List Nat}

theorem Visits.head (h : m.Visits id chain) : id = chain.head?.getD noParent := by
  cases chain with
  | nil => exact h
  | cons k chain => exact h.1

theorem Visits.mono (hm : m.collections <+: m'.collections) (h : m.Visits id chain) : m'.Visits id chain := by
  induction chain generalizing id with
  | nil => exact h
  | cons k chain ih =>
    obtain ⟨rfl, hne, c, hc, hrest⟩ := h
    obtain ⟨more, hmore⟩ := hm
    refine ⟨rfl, hne, c, ?_, ih hrest⟩
    rw [← hmore, List.getElem?_append_left (List.getElem?_eq_some_iff.mp hc).1]
    exact hc

/-- With one round for each collection and one for the end, the loop finds the application. -/
theorem applicationUsageLoop_visits (h : m.Visits id chain) {fuel : Nat} (hfuel : chain.length < fuel) :
    m.applicationUsageLoop fuel id = some (m.applicationOf chain) := by
  induction chain generalizing id fuel with
  | nil =>
    obtain ⟨fuel, rfl⟩ : ∃ k, fuel = k + 1 := ⟨fuel - 1, by omega⟩
    obtain rfl : id = noParent := h
    rfl
  | cons k chain ih =>
    obtain ⟨fuel, rfl⟩ : ∃ k, fuel = k + 1 := ⟨fuel - 1, by omega⟩
    obtain ⟨rfl, hne, c, hc, hrest⟩ := h
    rw [List.length_cons] at hfuel
    unfold applicationUsageLoop
    rw [if_neg hne, hc]
    dsimp only
    by_cases htype : c.type = 0x01
    · simp [htype, applicationOf, hc]
    · rw [if_neg htype, ih hrest (by omega)]
      simp [htype, applicationOf, hc]

/-- The parents get smaller, so from every id the loop ends within one round for each collection. -/
theorem applicationUsageLoop_ends (hm : SchemaInv m) (id : Nat) :
    ∃ usage, ∀ fuel, m.collections.length < fuel → m.applicationUsageLoop fuel id = some usage := by
  -- by strong induction on the id: a parent is smaller than its child
  have hbelow : ∃ usage, ∀ fuel, min (id + 1) m.collections.length < fuel →
      m.applicationUsageLoop fuel id = some usage := by
    induction id using Nat.strong_induction_on with
    | _ id ih =>
      by_cases hnone : id = noParent
      · refine ⟨{}, fun fuel hfuel => ?_⟩
        obtain ⟨fuel, rfl⟩ : ∃ k, fuel = k + 1 := ⟨fuel - 1, by omega⟩
        rw [applicationUsageLoop, if_pos hnone]
      cases hc : m.collections[id]? with
      | none =>
        -- behind the last collection the loop stops
        refine ⟨{}, fun fuel hfuel => ?_⟩
        obtain ⟨fuel, rfl⟩ : ∃ k, fuel = k + 1 := ⟨fuel - 1, by omega⟩
        rw [applicationUsageLoop, if_neg hnone, hc]
      | some c =>
        have hlt := (List.getElem?_eq_some_iff.mp hc).1
        have hstep : ∀ fuel, m.applicationUsageLoop (fuel + 1) id =
            if c.type = 0x01 then some c.usage else m.applicationUsageLoop fuel c.parent := by
          intro fuel
          rw [applicationUsageLoop, if_neg hnone, hc]
        by_cases htype : c.type = 0x01
        · refine ⟨c.usage, fun fuel hfuel => ?_⟩
          obtain ⟨fuel, rfl⟩ : ∃ k, fuel = k + 1 := ⟨fuel - 1, by omega⟩
          rw [hstep, if_pos htype]
        rcases hm.parents c (List.mem_of_getElem? hc) with hparent | hparent
        · refine ⟨{}, fun fuel hfuel => ?_⟩
          obtain ⟨fuel, rfl⟩ : ∃ k, fuel = k + 2 := ⟨fuel - 2, by omega⟩
          rw [hstep, if_neg htype, hparent, applicationUsageLoop, if_pos rfl]
        · -- one round for this collection, the others by induction
          rw [hm.collectionId hc] at hparent
          obtain ⟨usage, husage⟩ := ih c.parent hparent
          refine ⟨usage, fun fuel hfuel => ?_⟩
          obtain ⟨fuel, rfl⟩ : ∃ k, fuel = k + 1 := ⟨fuel - 1, by omega⟩
          rw [hstep, if_neg htype]
          exact husage fuel (by omega)
  obtain ⟨usage, husage⟩ := hbelow
  exact ⟨usage, fun fuel hfuel => husage fuel (by omega)⟩

end

/-! ## The stack -/

/-- What the parser's stack and the map have in common after the items. -/
structure Nests (items : List Item) (s : ParserState) : Prop where
  opened : OpenStack (Item.is .collection) (Item.is .endCollection) items s.collectionStack
  links : s.map.Visits (s.collectionStack.head?.getD noParent) s.collectionStack
  mirrors : MirrorsNesting items s.map

theorem nests_init : Nests [] {} where
  opened := openStack_nil
  links := rfl
  mirrors := ⟨rfl, by simp⟩

theorem applyItem_cases {off : Nat} {i : Item} {s s' : ParserState} (h : applyItem off i s = .ok s') :
    ((i.tag ≠ .collection ∧ i.tag ≠ .endCollection ∧ ∀ kind, i.tag ≠ .data kind) ∧ SameSchema s s') ∨
      (i.tag = .collection ∧ parseCollection off i.raw s = .ok s') ∨
      (i.tag = .endCollection ∧ parseEndCollection off s = .ok s') ∨
      ∃ kind, i.tag = .data kind ∧ parseDataItem off kind i.raw s = .ok s' := by
  cases i with
  | short p data => exact parseItem_cases h
  | long =>
    cases h
    exact .inl ⟨by simp [Item.tag], rfl, rfl⟩

theorem openCollections_stack {items : List Item} {stack : List Nat}
    (h : OpenStack (Item.is .collection) (Item.is .endCollection) items stack) : OpenCollections items stack :=
  ⟨h.innermost_first, h.mem_iff⟩

section
variable {items : List Item} {i : Item} {s s' : ParserState} {off : Nat}

theorem DeclaredInside.concat {m m' : HIDReportMap} {j : Nat} {f : HIDFieldSchema} (i : Item)
    (hm : m.collections <+: m'.collections) (h : DeclaredInside items m j f) :
    DeclaredInside (items ++ [i]) m' j f := by
  obtain ⟨before, d, after, chain, rfl, hd, hj, hopen, hvisits⟩ := h
  exact ⟨before, d, after ++ [i], chain, by simp, hd, hj, hopen, Visits.mono hm hvisits⟩

theorem types_concat
    (htypes : s.map.collections.map (·.type) = (items.filter (Item.is .collection)).map (·.raw % 256))
    (hi : i.tag ≠ .collection) :
    s.map.collections.map (·.type) = ((items ++ [i]).filter (Item.is .collection)).map (·.raw % 256) := by
  have hnot : i.is .collection = false := by simpa [Item.is] using hi
  rw [htypes, List.filter_append, List.filter_cons_of_neg (by simp [hnot]), List.filter_nil, List.append_nil]

theorem Nests.same (hn : Nests items s) (hcol : i.tag ≠ .collection) (hend : i.tag ≠ .endCollection)
    (hsame : SameSchema s s') : Nests (items ++ [i]) s' := by
  obtain ⟨hmap, hstack⟩ := hsame
  have hcollections : s'.map.collections = s.map.collections := by rw [hmap]
  have hfields : s'.map.fields = s.map.fields := by rw [hmap]
  refine ⟨?_, ?_, ?_, ?_⟩
  · rw [hstack]
    exact hn.opened.plain (by simpa [Item.is] using hcol) (by simpa [Item.is] using hend)
  · rw [hstack]
    exact Visits.mono (hcollections ▸ List.prefix_rfl) hn.links
  · rw [hcollections]
    exact types_concat hn.mirrors.types hcol
  · intro j f hf
    rw [hfields] at hf
    exact (hn.mirrors.fields j f hf).concat i (hcollections ▸ List.prefix_rfl)

theorem Nests.collection (hn : Nests items s) (ht : Tracks items s) (htag : i.tag = .collection)
    (h : parseCollection off i.raw s = .ok s') : Nests (items ++ [i]) s' := by
  have hopens : i.is .collection = true := Item.is_iff.mpr htag
  have hcloses : i.is .endCollection = false := by simp [Item.is, htag]
  unfold parseCollection fail at h
  split at h
  · cases h
  rename_i hroom
  cases h
  simp only [maxCollections, not_or, Nat.not_le] at hroom
  have hlength := ht.collections
  have hid : s.map.collections.length % 65536 = items.countP (Item.is .collection) := by omega
  refine ⟨?_, ?_, ?_, ?_⟩
  · dsimp only
    rw [hid]
    exact hn.opened.push hopens hcloses
  · refine ⟨rfl, ?_, ?_⟩
    · unfold noParent
      omega
    · dsimp only
      rw [hid, ← hlength]
      exact ⟨_, List.getElem?_concat_length, Visits.mono (List.prefix_append _ _) hn.links⟩
  · dsimp only
    rw [List.map_append, hn.mirrors.types, List.filter_append, List.filter_cons_of_pos hopens, List.map_append]
    rfl
  · intro j f hf
    exact (hn.mirrors.fields j f hf).concat i (List.prefix_append _ _)

theorem Nests.endCollection (hn : Nests items s) (htag : i.tag = .endCollection)
    (h : parseEndCollection off s = .ok s') : Nests (items ++ [i]) s' := by
  unfold parseEndCollection fail at h
  split at h <;> cases h
  rename_i id rest hstack
  have hopened := hn.opened
  have hlinks := hn.links
  rw [hstack] at hopened hlinks
  obtain ⟨-, -, c, -, hrest⟩ := hlinks
  refine ⟨hopened.pop (by simp [Item.is, htag]) (Item.is_iff.mpr htag), ?_,
    types_concat hn.mirrors.types (by simp [htag]),
    fun j f hf => (hn.mirrors.fields j f hf).concat i List.prefix_rfl⟩
  -- the parent of the collection that is closed is the one below it
  exact Visits.head hrest ▸ hrest

theorem Nests.data (hn : Nests items s) (ht : Tracks items s) {kind : HIDReportKind} (htag : i.tag = .data kind)
    (h : parseDataItem off kind i.raw s = .ok s') : Nests (items ++ [i]) s' := by
  obtain ⟨map, r, hmap, -, rfl, -⟩ := parseDataItem_ok h
  obtain ⟨-, hfields, hcollections, -, -⟩ := findOrAddReport_inv ht.inv.schema hmap
  have hsame : (declareField s map kind i.raw r.bitSize).map.collections = s.map.collections := hcollections
  have hcol : i.tag ≠ .collection := by simp [htag]
  refine ⟨hn.opened.plain (by simp [Item.is, htag]) (by simp [Item.is, htag]), ?_, ?_, ?_⟩
  · exact Visits.mono (hsame ▸ List.prefix_rfl) hn.links
  · rw [hsame]
    exact types_concat hn.mirrors.types hcol
  · intro j f hf
    have hdeclared : (declareField s map kind i.raw r.bitSize).map.fields =
        s.map.fields ++ [makeField s kind i.raw r.bitSize] := congrArg (· ++ _) hfields
    rw [hdeclared] at hf
    rcases Nat.lt_or_ge j s.map.fields.length with hj | hj
    · rw [List.getElem?_append_left hj] at hf
      exact (hn.mirrors.fields j f hf).concat i (hsame ▸ List.prefix_rfl)
    · rw [List.getElem?_append_right hj, List.getElem?_singleton] at hf
      split at hf <;> cases hf
      refine ⟨items, i, [], s.collectionStack, rfl, htag, ?_, openCollections_stack hn.opened, ?_⟩
      · rw [← ht.fields, List.length_map]
        omega
      · exact Visits.mono (hsame ▸ List.prefix_rfl) hn.links

theorem applyItems_nests (h : applyItems 0 items {} = .ok s) : Nests items s := by
  induction items using List.reverseRecOn generalizing s with
  | nil =>
    cases h
    exact nests_init
  | append_singleton items i ih =>
    obtain ⟨s1, h1, hi⟩ := applyItems_concat.mp h
    have hn := ih h1
    have ht := (applyItems_tracks h1).2
    rcases applyItem_cases hi with ⟨⟨hcol, hend, -⟩, hsame⟩ | ⟨htag, hok⟩ | ⟨htag, hok⟩ | ⟨kind, htag, hok⟩
    · exact hn.same hcol hend hsame
    · exact hn.collection ht htag hok
    · exact hn.endCollection htag hok
    · exact hn.data ht htag hok

end

/-! ## Accepted strings -/

theorem applicationUsage_ends {m : HIDReportMap} (hm : SchemaInv m) (id : Nat) :
    ∀ fuel, m.collections.length < fuel → m.applicationUsageLoop fuel id = some (m.applicationUsage id) := by
  obtain ⟨usage, husage⟩ := applicationUsageLoop_ends hm id
  have heq : m.applicationUsage id = usage := by
    rw [applicationUsage, husage _ (by omega), Option.getD_some]
  exact heq ▸ husage

theorem applicationUsage_visits {m : HIDReportMap} (hm : SchemaInv m) {id : Nat} {chain : List Nat}
    (h : m.Visits id chain) : m.applicationUsage id = m.applicationOf chain := by
  have hends := applicationUsage_ends hm id (chain.length + m.collections.length + 1) (by omega)
  have hvisits :=
    applicationUsageLoop_visits h (show chain.length < chain.length + m.collections.length + 1 by omega)
  exact Option.some_inj.mp (hends.symm.trans hvisits)

/-- The parents of a field are the collections around its data item. The lookup of the application usage ends
for every id, and for a field it finds the innermost application around it. -/
theorem parse_collections_mirror_nesting (data : List UInt8) (m : HIDReportMap)
    (h : parseReportMapData (.bytes data) = some m) :
    (∃ items : List Item, data = items.flatMap Item.bytes ∧
      m.collections.map (·.type) = (items.filter (Item.is .collection)).map (·.raw % 256) ∧
      ∀ j f, m.fields[j]? = some f → ∃ before i after chain, items = before ++ i :: after ∧
        i.tag = .data f.kind ∧ (declarations before).length = j ∧ OpenCollections before chain ∧
        m.Visits f.collectionId chain ∧ m.applicationUsage f.collectionId = m.applicationOf chain) ∧
    ∀ id fuel, m.collections.length < fuel → m.applicationUsageLoop fuel id = some (m.applicationUsage id) := by
  have hm := (parseReportMapData_inv h).1
  refine ⟨?_, applicationUsage_ends hm⟩
  obtain ⟨bytes, s, hbytes, hs, rfl, -⟩ := parseReportMapData_ok h
  cases hbytes
  obtain ⟨items, rfl⟩ := parseItems_items hs
  rw [parseItems_flatMap (Nat.le_refl _)] at hs
  have hmirrors := (applyItems_nests hs).mirrors
  refine ⟨items, rfl, hmirrors.types, ?_⟩
  intro j f hf
  obtain ⟨before, i, after, chain, hitems, htag, hj, hopen, hvisits⟩ := hmirrors.fields j f hf
  exact ⟨before, i, after, chain, hitems, htag, hj, hopen, hvisits, applicationUsage_visits hm hvisits⟩

/-- An application with a closed physical collection in front of the field. -/
def nestedDescriptor : List UInt8 :=
  [0x05, 0x01, 0x09, 0x06, 0xA1, 0x01, 0xA1, 0x00, 0xC0, 0x75, 0x08, 0x95, 0x01, 0x81, 0x02, 0xC0]

theorem parse_collections_mirror_nesting_nested :
    ∃ m, parseReportMapData (.bytes nestedDescriptor) = some m ∧ ∃ f ∈ m.fields, ∃ chain,
      m.Visits f.collectionId chain ∧ m.applicationUsage f.collectionId = m.applicationOf chain := by
  have haccepted : (parseReportMapData (.bytes nestedDescriptor)).isSome := by decide +kernel
  obtain ⟨m, hm⟩ := Option.isSome_iff_exists.mp haccepted
  obtain ⟨⟨items, -, -, hfields⟩, -⟩ := parse_collections_mirror_nesting nestedDescriptor m hm
  have hlength : m.fields.length = 1 := by
    have hmap : (parseReportMapData (.bytes nestedDescriptor)).map (·.fields.length) = some 1 := by decide +kernel
    rw [hm] at hmap
    exact Option.some_inj.mp hmap
  obtain ⟨f, hf⟩ : ∃ f, m.fields[0]? = some f := ⟨m.fields[0], List.getElem?_eq_getElem (by omega)⟩
  obtain ⟨before, i, after, chain, -, -, -, -, hvisits, husage⟩ := hfields 0 f hf
  exact ⟨m, hm, f, List.mem_of_getElem? hf, chain, hvisits, husage⟩

end HidParser

end BleClientHid
