import BleClientHid.HidParser.Descriptor
import BleClientHid.Lib.Concatenation

/-! # The items of a descriptor

The loop of the parser, seen as a tokenizer and a run over the items.
-/

namespace BleClientHid

namespace HidParser

open Lib HIDReportMap

/-- A complete item. Its bytes can be told apart from those of the items behind it. -/
inductive Item where
  | short (prefixByte : UInt8) (data : List UInt8) (notLong : prefixByte ≠ 0xFE)
      (complete : data.length = hidItemDataSize prefixByte.toNat)
  | long (tag : UInt8) (payload : List UInt8) (complete : payload.length < 256)
  deriving DecidableEq

namespace Item

def bytes : Item → List UInt8
  | .short prefixByte data .. => prefixByte :: data
  | .long tag payload _ => 0xFE :: UInt8.ofNat payload.length :: tag :: payload

/-- A long item has no effect, as little as an unknown one. -/
def tag : Item → ItemTag
  | .short prefixByte .. => itemTag prefixByte.toNat
  | .long .. => .unknown

def raw : Item → Nat
  | .short _ data .. => readUnsignedItem data
  | .long .. => 0

/-- Input, Output, Feature, the two collection items and the reserved ones. -/
def isMain : Item → Bool
  | .short prefixByte .. => prefixByte.toNat &&& 0x0C == 0x00
  | .long .. => false

end Item

/-! ## A run over items -/

def applyItem (itemOffset : Nat) (item : Item) (s : ParserState) : ParseResult ParserState :=
  match item with
  | .short prefixByte data .. => parseItem itemOffset prefixByte.toNat (readUnsignedItem data) s
  | .long .. => .ok s

def applyItems : Nat → List Item → ParserState → ParseResult ParserState
  | _, [], s => .ok s
  | itemOffset, item :: rest, s =>
    match applyItem itemOffset item s with
    | .error e => .error e
    | .ok s' => applyItems (itemOffset + item.bytes.length) rest s'

theorem applyItems_concat {off : Nat} {items : List Item} {item : Item} {s s' : ParserState} :
    applyItems off (items ++ [item]) s = .ok s' ↔
      ∃ s1, applyItems off items s = .ok s1 ∧
        applyItem (off + (items.flatMap Item.bytes).length) item s1 = .ok s' := by
  induction items generalizing off s with
  | nil =>
    simp only [List.nil_append, applyItems, List.flatMap_nil, List.length_nil, Nat.add_zero]
    cases h : applyItem off item s <;> simp [h]
  | cons first rest ih =>
    simp only [List.cons_append, applyItems, List.flatMap_cons, List.length_append]
    cases applyItem off first s with
    | error e => simp
    | ok s1 => simp only [ih, Nat.add_assoc]

/-! ## The tokenizer -/

theorem take_short {n : Nat} {data r : List UInt8} (h : data.length = n) :
    (data ++ r).take n = data ∧ (data ++ r).drop n = r := by
  subst h
  exact ⟨List.take_left, List.drop_left⟩

theorem parseItems_cons (fuel off : Nat) (item : Item) (rest : List UInt8) (s : ParserState) :
    parseItems (fuel + 1) off (item.bytes ++ rest) s =
      (applyItem off item s).bind fun s' => parseItems fuel (off + item.bytes.length) rest s' := by
  cases item with
  | short p data hlong hdata =>
    have hp : p.toNat ≠ 0xFE := fun h => hlong (UInt8.toNat_inj.mp h)
    obtain ⟨htake, hdrop⟩ := take_short (r := rest) hdata
    have hlen : ¬ (data ++ rest).length < hidItemDataSize p.toNat := by
      rw [List.length_append]
      omega
    simp only [Item.bytes, List.cons_append, parseItems, if_neg hp, if_neg hlen, htake, hdrop, applyItem,
      List.length_cons, hdata, Nat.add_comm 1, Nat.add_assoc]
    cases parseItem off p.toNat (readUnsignedItem data) s <;> rfl
  | long tag payload hpayload =>
    have hsize : (UInt8.ofNat payload.length).toNat = payload.length := by
      rw [UInt8.toNat_ofNat']
      omega
    obtain ⟨-, hdrop⟩ := take_short (r := rest) (rfl : payload.length = _)
    have hlen : ¬ (payload ++ rest).length < payload.length := by
      rw [List.length_append]
      omega
    have hFE : (0xFE : UInt8).toNat = 0xFE := rfl
    simp only [Item.bytes, List.cons_append, parseItems, hFE, if_true, hsize, if_neg hlen, hdrop, applyItem,
      List.length_cons, Except.bind]
    rw [show off + 3 + payload.length = off + (payload.length + 1 + 1 + 1) by omega]

theorem Item.bytes_pos (item : Item) : 1 ≤ item.bytes.length := by
  cases item <;> simp [Item.bytes]

/-- No item begins another: a short one has its size in the prefix, a long one in the second byte. -/
theorem Item.prefixFree : PrefixFree Item.bytes Set.univ where
  nonempty item _ := List.ne_nil_of_length_pos item.bytes_pos
  eq_of_prefix a _ b _ h := by
    cases a with
    | short p data hp hdata =>
      cases b with
      | short q data' hq hdata' =>
        obtain ⟨rfl, hrest⟩ := List.cons_prefix_cons.mp h
        obtain rfl := hrest.eq_of_length (hdata.trans hdata'.symm)
        rfl
      | long => exact absurd (List.cons_prefix_cons.mp h).1 hp
    | long tag payload hpayload =>
      cases b with
      | short q data' hq => exact absurd (List.cons_prefix_cons.mp h).1.symm hq
      | long tag' payload' hpayload' =>
        obtain ⟨hsize, htail⟩ := List.cons_prefix_cons.mp (List.cons_prefix_cons.mp h).2
        obtain ⟨rfl, hdata⟩ := List.cons_prefix_cons.mp htail
        have hlength := congrArg UInt8.toNat hsize
        rw [UInt8.toNat_ofNat', UInt8.toNat_ofNat', Nat.mod_eq_of_lt hpayload,
          Nat.mod_eq_of_lt hpayload'] at hlength
        obtain rfl := hdata.eq_of_length hlength
        rfl

/-- The bytes tell the items. -/
theorem items_unique {items items' : List Item} (h : items.flatMap Item.bytes = items'.flatMap Item.bytes) :
    items = items' :=
  Item.prefixFree.injOn (fun _ _ => Set.mem_univ _) (fun _ _ => Set.mem_univ _) h

/-- Over the bytes of complete items the loop goes from item to item. -/
theorem parseItems_flatMap {fuel off : Nat} {items : List Item} {s : ParserState}
    (hfuel : (items.flatMap Item.bytes).length ≤ fuel) :
    parseItems fuel off (items.flatMap Item.bytes) s = applyItems off items s := by
  induction items generalizing fuel off s with
  | nil => cases fuel <;> rfl
  | cons item rest ih =>
    have hpos := item.bytes_pos
    simp only [List.flatMap_cons, List.length_append] at hfuel ⊢
    obtain ⟨fuel, rfl⟩ : ∃ k, fuel = k + 1 := ⟨fuel - 1, by omega⟩
    rw [parseItems_cons, applyItems]
    cases applyItem off item s with
    | error e => rfl
    | ok s1 => exact ih (by omega)

theorem parseItems_items {fuel off : Nat} {data : List UInt8} {s s' : ParserState}
    (h : parseItems fuel off data s = .ok s') :
    ∃ items : List Item, data = items.flatMap Item.bytes := by
  induction fuel generalizing off data s with
  | zero =>
    cases data with
    | nil => exact ⟨[], rfl⟩
    | cons b rest => cases h
  | succ fuel ih =>
    cases data with
    | nil => exact ⟨[], rfl⟩
    | cons b rest =>
      simp only [parseItems, fail] at h
      split at h
      · rename_i hb
        split at h
        · rename_i payloadSize tag payload
          split at h
          · cases h
          rename_i hlen
          obtain ⟨items, hitems⟩ := ih h
          -- a long item, by the size in its second byte
          have hsize : (payload.take payloadSize.toNat).length = payloadSize.toNat := by
            rw [List.length_take]
            omega
          have hlt : (payload.take payloadSize.toNat).length < 256 := by
            rw [hsize]
            exact payloadSize.toNat_lt
          refine ⟨.long tag (payload.take payloadSize.toNat) hlt :: items, ?_⟩
          obtain rfl : b = 0xFE := UInt8.toNat_inj.mp hb
          simp only [List.flatMap_cons, Item.bytes, hsize, UInt8.ofNat_toNat, List.cons_append,
            ← hitems, List.take_append_drop]
        · cases h
      · rename_i hb
        split at h
        · cases h
        rename_i hlen
        split at h
        · cases h
        obtain ⟨items, hitems⟩ := ih h
        -- a short item, by the size in its prefix
        have hsize : (rest.take (hidItemDataSize b.toNat)).length = hidItemDataSize b.toNat := by
          rw [List.length_take]
          omega
        refine ⟨.short b (rest.take (hidItemDataSize b.toNat)) (fun hfe => hb (hfe ▸ rfl)) hsize :: items, ?_⟩
        simp only [List.flatMap_cons, Item.bytes, List.cons_append, ← hitems, List.take_append_drop]

theorem parseReportMapData_isSome {data : List UInt8} :
    (parseReportMapData (.bytes data)).isSome = true ↔
      (1 ≤ data.length ∧ data.length ≤ maxDescriptorBytes) ∧
        ∃ items : List Item, data = items.flatMap Item.bytes ∧ ∃ s, applyItems 0 items {} = .ok s ∧
          s.collectionStack = [] ∧ s.map.reports ≠ [] := by
  have hlength : (data.length = 0 ∨ data.length > maxDescriptorBytes) ↔
      ¬ (1 ≤ data.length ∧ data.length ≤ maxDescriptorBytes) := by omega
  simp only [parseReportMapData, hlength]
  constructor
  · intro h
    split at h
    · cases h
    rename_i hlen
    split at h
    · cases h
    rename_i s hs
    split at h
    · cases h
    rename_i hend
    obtain ⟨items, rfl⟩ := parseItems_items hs
    rw [parseItems_flatMap (Nat.le_refl _)] at hs
    rw [not_or, Decidable.not_not] at hend
    exact ⟨Decidable.not_not.mp hlen, items, rfl, s, hs, hend⟩
  · rintro ⟨hlen, items, rfl, s, hs, hstack, hreports⟩
    rw [if_neg (not_not.mpr hlen), parseItems_flatMap (Nat.le_refl _), hs]
    simp [hstack, hreports]

theorem accepted_items {data : List UInt8} (h : (parseReportMapData (.bytes data)).isSome = true) :
    ∃! items : List Item, data = items.flatMap Item.bytes := by
  obtain ⟨-, items, hitems, -⟩ := parseReportMapData_isSome.mp h
  exact ⟨items, hitems, fun _ hother => items_unique (hother.symm.trans hitems)⟩

end HidParser

end BleClientHid
