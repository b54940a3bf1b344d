import BleClientHid.HidParser.Items
import BleClientHid.Lib.Checked

/-! # The descriptor log

`esp_logd_report_map` and the loop of `parse_report_map_data`, over a pointer and a length: both
with every read checked, the parser with a trace of the items it comes to.
-/

namespace BleClientHid

namespace HidParser

open Lib HIDReportMap

/-! ## The two loops -/

/-- `length - offset` in a `size_t` of 32 bits: below zero it wraps. -/
def remaining (length offset : Nat) : Nat :=
  if offset ≤ length then length - offset else length + 2 ^ 32 - offset

def readUnsignedItemChecked (data : List UInt8) (offset size : Nat) : Checked Nat :=
  (List.range size).foldlM (fun value i => do
    let byte ← getAt data (offset + i)
    return value ||| byte.toNat <<< (8 * i)) 0

/-- A complete item as a loop comes to it. The value of a short one, the tag of a long one. -/
inductive Visit where
  | short (offset : Nat) (prefixByte : UInt8) (size value : Nat)
  | long (offset : Nat) (tag payloadSize : UInt8)
  deriving DecidableEq, Repr

inductive Truncation where
  | longHeader
  | longPayload
  | shortItem
  deriving DecidableEq, Repr

def Truncation.status : Truncation → String
  | .longHeader => "truncated_long_header"
  | .longPayload => "truncated_long_payload"
  | .shortItem => "truncated_short"

/-- In the diagnostic of the parser. -/
def Truncation.message : Truncation → String
  | .longHeader => "truncated long-item header"
  | .longPayload => "truncated long-item payload"
  | .shortItem => "truncated short item"

/-- A verbose line for an item, a warning for a truncation. -/
inductive LogLine where
  | item (visit : Visit)
  | warning (offset : Nat) (status : String)
  deriving DecidableEq, Repr

def espLogdReportMapLoop (data : List UInt8) : Nat → Nat → Checked (List LogLine)
  | 0, offset => if offset < data.length then .error .outOfFuel else .ok []
  | fuel + 1, offset =>
    if offset < data.length then do
      let itemOffset := offset
      let prefixByte ← getAt data offset
      let offset := offset + 1
      if prefixByte = 0xFE then
        if remaining data.length offset < 2 then return [.warning itemOffset Truncation.longHeader.status]
        else
          let size ← getAt data offset
          let tag ← getAt data (offset + 1)
          let offset := offset + 2
          if remaining data.length offset < size.toNat then
            return [.warning itemOffset Truncation.longPayload.status]
          else
            let rest ← espLogdReportMapLoop data fuel (offset + size.toNat)
            return .item (.long itemOffset tag size) :: rest
      else
        let size := hidItemDataSize prefixByte.toNat
        if remaining data.length offset < size then return [.warning itemOffset Truncation.shortItem.status]
        else
          let value ← readUnsignedItemChecked data offset size
          let rest ← espLogdReportMapLoop data fuel (offset + size)
          return .item (.short itemOffset prefixByte size value) :: rest
    else .ok []

def espLogdReportMap : Buffer → Checked (List LogLine)
  | .null _ => .ok []
  | .bytes data => espLogdReportMapLoop data data.length 0

/-- The items that the loop comes to, and how it ends. -/
abbrev ParserTrace := List Visit × ParseResult ParserState

def parseReportMapLoop (data : List UInt8) : Nat → Nat → ParserState → Checked ParserTrace
  | 0, offset, s => if offset < data.length then .error .outOfFuel else .ok ([], .ok s)
  | fuel + 1, offset, s =>
    if offset < data.length then do
      let itemOffset := offset
      let prefixByte ← getAt data offset
      let offset := offset + 1
      if prefixByte = 0xFE then
        if remaining data.length offset < 2 then return ([], fail itemOffset Truncation.longHeader.message)
        else
          let payloadSize ← getAt data offset
          let tag ← getAt data (offset + 1)
          let offset := offset + 2
          if remaining data.length offset < payloadSize.toNat then
            return ([], fail itemOffset Truncation.longPayload.message)
          else
            let (visits, result) ← parseReportMapLoop data fuel (offset + payloadSize.toNat) s
            return (.long itemOffset tag payloadSize :: visits, result)
      else
        let itemSize := hidItemDataSize prefixByte.toNat
        if remaining data.length offset < itemSize then
          return ([], fail itemOffset Truncation.shortItem.message)
        else
          let raw ← readUnsignedItemChecked data offset itemSize
          let visit := Visit.short itemOffset prefixByte itemSize raw
          match parseItem itemOffset prefixByte.toNat raw s with
          | .error e => return ([visit], .error e)
          | .ok s' =>
            let (visits, result) ← parseReportMapLoop data fuel (offset + itemSize) s'
            return (visit :: visits, result)
    else .ok ([], .ok s)

def parseReportMapDataChecked : Buffer → Checked (List Visit × Option HIDReportMap)
  | .null _ => .ok ([], none)
  | .bytes data =>
    if data.length = 0 ∨ data.length > maxDescriptorBytes then .ok ([], none)
    else do
      let (visits, result) ← parseReportMapLoop data data.length 0 {}
      match result with
      | .error _ => return (visits, none)
      | .ok s => return (visits, if s.collectionStack ≠ [] ∨ s.map.reports = [] then none else some s.map)

/-! ## The loops side by side -/

theorem remaining_of_le {length offset : Nat} (h : offset ≤ length) : remaining length offset = length - offset :=
  if_pos h

theorem readUnsignedItemChecked_ok {data : List UInt8} {off n : Nat} (h : off + n ≤ data.length) :
    readUnsignedItemChecked data off n = .ok (readUnsignedItem ((data.drop off).take n)) := by
  have hlength : ((data.drop off).take n).length = n := by
    rw [List.length_take, List.length_drop]
    omega
  unfold readUnsignedItem
  rw [hlength]
  refine (foldlM_ok (I := fun _ => True) trivial ?_).1
  intro value _ i hi
  rw [List.mem_range] at hi
  have hsame : ((data.drop off).take n).getD i 0 = data.getD (off + i) 0 := by
    rw [List.getD_eq_getElem?_getD, List.getD_eq_getElem?_getD, List.getElem?_take_of_lt hi, List.getElem?_drop]
  rw [getAt_of_lt (show off + i < data.length by omega) 0, ok_bind, hsame]
  exact ⟨rfl, trivial⟩

def LogLine.visit : LogLine → Option Visit
  | .item visit => some visit
  | .warning .. => none

/-- The parser comes to the first of the logged items, and to all of them when it is not stopped. -/
structure Agree (lines : List LogLine) (visits : List Visit) (result : ParseResult ParserState) : Prop where
  first : visits <+: lines.filterMap LogLine.visit
  all : ∀ s, result = .ok s → lines = visits.map .item

theorem Agree.cons {lines : List LogLine} {visits : List Visit} {result : ParseResult ParserState}
    (h : Agree lines visits result) (visit : Visit) : Agree (.item visit :: lines) (visit :: visits) result where
  first := List.cons_prefix_cons.mpr ⟨rfl, h.first⟩
  all s hs := by rw [h.all s hs, List.map_cons]

theorem Agree.stop (lines : List LogLine) (off : Nat) (message : String) : Agree lines [] (fail off message) where
  first := List.nil_prefix
  all s hs := by cases hs

theorem getAt_of_drop {data front rest : List UInt8} {off : Nat} {b : UInt8}
    (h : data.drop off = front ++ b :: rest) : getAt data (off + front.length) = .ok b := by
  apply getAt_of_getElem?
  rw [← List.getElem?_drop, h, List.getElem?_append_right (Nat.le_refl _), Nat.sub_self]
  rfl

/-- From this offset both loops end, with the reads in range, and the traced one as the parser does. -/
def LoopsAgree (data : List UInt8) (fuel off : Nat) (s : ParserState) : Prop :=
  ∃ lines visits, espLogdReportMapLoop data fuel off = .ok lines ∧
    parseReportMapLoop data fuel off s = .ok (visits, parseItems fuel off (data.drop off) s) ∧
    Agree lines visits (parseItems fuel off (data.drop off) s)

section

variable {data : List UInt8} {fuel off : Nat} {s : ParserState}

theorem loopsAgree_end (hend : data.length ≤ off) : LoopsAgree data fuel off s := by
  unfold LoopsAgree
  rw [List.drop_of_length_le hend]
  cases fuel with
  | zero => exact ⟨[], [], if_neg (by omega), if_neg (by omega), List.nil_prefix, fun _ _ => rfl⟩
  | succ fuel => exact ⟨[], [], if_neg (by omega), if_neg (by omega), List.nil_prefix, fun _ _ => rfl⟩

/-- A long item, cut off in its header, in its payload or not at all. -/
theorem loopsAgree_long {rest : List UInt8} (hdrop : data.drop off = 0xFE :: rest)
    (ih : ∀ off' s', off < off' → off' ≤ data.length → LoopsAgree data fuel off' s') :
    LoopsAgree data (fuel + 1) off s := by
  have hlength := congrArg List.length hdrop
  simp only [List.length_drop, List.length_cons] at hlength
  have hget : getAt data off = .ok 0xFE := @getAt_of_drop _ [] _ _ _ hdrop
  have hFE : (0xFE : UInt8).toNat = 0xFE := rfl
  unfold LoopsAgree
  rw [espLogdReportMapLoop, parseReportMapLoop, if_pos (by omega), if_pos (by omega), hget, hdrop]
  simp only [ok_bind, pure_ok, parseItems, remaining_of_le (show off + 1 ≤ data.length by omega)]
  rw [if_pos trivial, if_pos trivial, if_pos hFE]
  rcases rest with _ | ⟨size, _ | ⟨tag, payload⟩⟩ <;> simp only [List.length_nil, List.length_cons] at hlength
  · rw [if_pos (by omega), if_pos (by omega)]
    exact ⟨_, _, rfl, rfl, Agree.stop _ _ _⟩
  · rw [if_pos (by omega), if_pos (by omega)]
    exact ⟨_, _, rfl, rfl, Agree.stop _ _ _⟩
  have hsize : getAt data (off + 1) = .ok size := @getAt_of_drop _ [0xFE] _ _ _ hdrop
  have htag : getAt data (off + 1 + 1) = .ok tag := @getAt_of_drop _ [0xFE, size] _ _ _ hdrop
  rw [if_neg (by omega), if_neg (by omega), hsize, ok_bind, ok_bind, htag, ok_bind, ok_bind,
    remaining_of_le (show off + 1 + 2 ≤ data.length by omega),
    show data.length - (off + 1 + 2) = payload.length by omega]
  dsimp only
  by_cases hpayload : payload.length < size.toNat
  · rw [if_pos hpayload, if_pos hpayload, if_pos hpayload]
    exact ⟨_, _, rfl, rfl, Agree.stop _ _ _⟩
  · rw [if_neg hpayload, if_neg hpayload, if_neg hpayload]
    have hnext : off + 1 + 2 + size.toNat = off + 3 + size.toNat := by omega
    have hbehind : payload.drop size.toNat = data.drop (off + 3 + size.toNat) := by
      rw [show off + 3 + size.toNat = off + (size.toNat + 3) by omega, ← List.drop_drop, hdrop]
      rfl
    obtain ⟨lines, visits, hlog, hparse, hagree⟩ := ih (off + 3 + size.toNat) s (by omega) (by omega)
    rw [hnext, hlog, hparse, hbehind]
    exact ⟨_, _, rfl, rfl, hagree.cons _⟩

theorem loopsAgree_short {b : UInt8} {rest : List UInt8} (hdrop : data.drop off = b :: rest) (hb : b ≠ 0xFE)
    (ih : ∀ off' s', off < off' → off' ≤ data.length → LoopsAgree data fuel off' s') :
    LoopsAgree data (fuel + 1) off s := by
  have hlength := congrArg List.length hdrop
  simp only [List.length_drop, List.length_cons] at hlength
  have hget : getAt data off = .ok b := @getAt_of_drop _ [] _ _ _ hdrop
  have hrest : rest = data.drop (off + 1) := by
    rw [← List.drop_drop, hdrop]
    rfl
  have hprefix : ¬ b.toNat = 0xFE := fun h => hb (UInt8.toNat_inj.mp h)
  unfold LoopsAgree
  rw [espLogdReportMapLoop, parseReportMapLoop, if_pos (by omega), if_pos (by omega), hget, hdrop]
  simp only [ok_bind, pure_ok, parseItems, remaining_of_le (show off + 1 ≤ data.length by omega)]
  rw [if_neg hb, if_neg hb, if_neg hprefix, show data.length - (off + 1) = rest.length by omega]
  by_cases hshort : rest.length < hidItemDataSize b.toNat
  · rw [if_pos hshort, if_pos hshort, if_pos hshort]
    exact ⟨_, _, rfl, rfl, Agree.stop _ _ _⟩
  rw [if_neg hshort, if_neg hshort, if_neg hshort, readUnsignedItemChecked_ok (by omega), ← hrest]
  simp only [ok_bind]
  generalize readUnsignedItem (rest.take (hidItemDataSize b.toNat)) = raw
  obtain ⟨lines, visits, hlog, -, -⟩ := ih (off + 1 + hidItemDataSize b.toNat) s (by omega) (by omega)
  rw [hlog]
  cases parseItem off b.toNat raw s with
  | error e =>
    refine ⟨_, _, rfl, rfl, List.cons_prefix_cons.mpr ⟨rfl, List.nil_prefix⟩, ?_⟩
    intro s' hs'
    cases hs'
  | ok s' =>
    obtain ⟨lines', visits, hlog', hparse, hagree⟩ :=
      ih (off + 1 + hidItemDataSize b.toNat) s' (by omega) (by omega)
    obtain rfl : lines = lines' := Except.ok.inj (hlog.symm.trans hlog')
    simp only [hparse, hrest, List.drop_drop]
    exact ⟨_, _, rfl, rfl, hagree.cons _⟩

theorem loops_agree (hoff : off ≤ data.length) (hfuel : data.length - off ≤ fuel) :
    LoopsAgree data fuel off s := by
  induction fuel generalizing off s with
  | zero => exact loopsAgree_end (by omega)
  | succ fuel ih =>
    rcases hdrop : data.drop off with _ | ⟨b, rest⟩
    · exact loopsAgree_end (List.drop_eq_nil_iff.mp hdrop)
    · have hnext : ∀ off' s', off < off' → off' ≤ data.length → LoopsAgree data fuel off' s' :=
        fun off' s' hlt hle => ih hle (by omega)
      by_cases hb : b = 0xFE
      · subst hb
        exact loopsAgree_long hdrop hnext
      · exact loopsAgree_short hdrop hb hnext

end

/-! ## Whole strings -/

/-- Neither loop reads past the bytes or fails to end. The parser comes to the items of the log in their order,
to all of them when it accepts, and it accepts nothing for which there is a warning. -/
theorem parser_agrees_with_log (data : List UInt8) :
    ∃ lines visits, espLogdReportMap (.bytes data) = .ok lines ∧
      parseReportMapDataChecked (.bytes data) = .ok (visits, parseReportMapData (.bytes data)) ∧
      visits <+: lines.filterMap LogLine.visit ∧
      ((parseReportMapData (.bytes data)).isSome = true → lines = visits.map .item) ∧
      ∀ offset status, .warning offset status ∈ lines → parseReportMapData (.bytes data) = none := by
  obtain ⟨lines, visits, hlog, hparse, hagree⟩ := @loops_agree data data.length 0 {} (Nat.zero_le _) (by omega)
  rw [List.drop_zero] at hparse hagree
  suffices h : ∃ visits, parseReportMapDataChecked (.bytes data) = .ok (visits, parseReportMapData (.bytes data)) ∧
      visits <+: lines.filterMap LogLine.visit ∧
      ((parseReportMapData (.bytes data)).isSome = true → lines = visits.map .item) by
    obtain ⟨visits, hchecked, hfirst, hall⟩ := h
    refine ⟨lines, visits, hlog, hchecked, hfirst, hall, ?_⟩
    intro offset status hwarning
    cases hmap : parseReportMapData (.bytes data) with
    | none => rfl
    | some m =>
      rw [hall (by rw [hmap]; rfl)] at hwarning
      simp at hwarning
  unfold parseReportMapDataChecked parseReportMapData
  dsimp only
  by_cases hlimits : data.length = 0 ∨ data.length > maxDescriptorBytes
  · rw [if_pos hlimits, if_pos hlimits]
    exact ⟨[], rfl, List.nil_prefix, nofun⟩
  rw [if_neg hlimits, if_neg hlimits, hparse]
  refine ⟨visits, ?_, hagree.first, ?_⟩
  · cases parseItems data.length 0 data {} <;> rfl
  · intro hsome
    cases hresult : parseItems data.length 0 data {} with
    | error e =>
      rw [hresult] at hsome
      cases hsome
    | ok s => exact hagree.all s hresult

end HidParser

end BleClientHid
