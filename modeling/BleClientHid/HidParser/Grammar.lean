import BleClientHid.HidParser.Items
import BleClientHid.Lib.Scopes
import Mathlib.Data.Finset.Card
import Mathlib.Data.List.DropRight

/-! # The grammar of Report Maps

Which byte strings are Report Maps, without a parser and its state: what every prefix of
the item list keeps to.
-/

namespace BleClientHid

namespace HidParser

open Lib

def Item.is (tag : ItemTag) (item : Item) : Bool := item.tag == tag

/-! ## Delimiters -/

/-- The values of the Delimiter items after the last Main item. -/
def delimiters (items : List Item) : List Nat :=
  ((items.rtakeWhile (!·.isMain)).filter (·.is .delimiter)).map Item.raw

/-- Open and close in turn: 1, 0, 1, ... -/
def Alternating (values : List Nat) : Prop := ∀ n v, values[n]? = some v → v = (n + 1) % 2

def DelimiterOpen (items : List Item) : Prop := (delimiters items).getLast? = some 1

/-! ## Globals -/

/-- The globals that bound a data item. -/
structure Layout where
  size : Nat := 0
  count : Nat := 0
  reportId : Nat := 0
  deriving DecidableEq, Repr

def Layout.note (layout : Layout) (item : Item) : Layout :=
  match item.tag with
  | .reportSize => { layout with size := item.raw }
  | .reportCount => { layout with count := item.raw }
  | .reportId => { layout with reportId := item.raw }
  | _ => layout

def Item.scope (item : Item) : Scope :=
  match item.tag with
  | .push => .enter
  | .pop => .leave
  | _ => .plain

/-- The globals after the items, with matched Push and Pop pairs undone. -/
def layoutAfter (items : List Item) : Layout := (inForce Item.scope 0 items).foldl Layout.note {}

/-! ## Data items -/

/-- An Input, Output or Feature item with the globals that apply to it. -/
structure Declaration where
  kind : HIDReportKind
  layout : Layout
  deriving DecidableEq, Repr

/-- The report that the data item belongs to. -/
def Declaration.report (d : Declaration) : HIDReportKind × Nat := (d.kind, d.layout.reportId)

def Declaration.bits (d : Declaration) : Nat := d.layout.size * d.layout.count

def Item.declares (before : List Item) (item : Item) : Option Declaration :=
  match item.tag with
  | .data kind => some ⟨kind, layoutAfter before⟩
  | _ => none

def declarationsAfter (before : List Item) : List Item → List Declaration
  | [] => []
  | item :: rest => (item.declares before).toList ++ declarationsAfter (before ++ [item]) rest

def declarations (items : List Item) : List Declaration := declarationsAfter [] items

def reportBits (report : HIDReportKind × Nat) (ds : List Declaration) : Nat :=
  ((ds.filter (·.report == report)).map Declaration.bits).sum

structure WithinLimits (ds : List Declaration) : Prop where
  size : ∀ d ∈ ds, 1 ≤ d.layout.size ∧ d.layout.size ≤ 32
  count : ∀ d ∈ ds, 1 ≤ d.layout.count ∧ d.layout.count ≤ 4096
  reports_le : (ds.map Declaration.report).toFinset.card ≤ 64
  length_le : ds.length ≤ 512
  bits_le : ∀ report, reportBits report ds ≤ 32768

/-! ## The grammar -/

/-- What holds of an item list at every point, so of its prefixes too. -/
structure Legal (items : List Item) : Prop where
  collections : Nested (Item.is .collection) (Item.is .endCollection) 32 items
  collections_le : items.countP (Item.is .collection) ≤ 128
  globals : Nested (Item.is .push) (Item.is .pop) 16 items
  usagePage : ∀ i ∈ items, i.tag = .usagePage → i.raw < 2 ^ 16
  reportId : ∀ i ∈ items, i.tag = .reportId → 1 ≤ i.raw ∧ i.raw ≤ 255
  delimiters : ∀ p, p <+: items → Alternating (delimiters p)
  delimiters_closed : ∀ p i, p ++ [i] <+: items → ∀ kind, i.tag = .data kind → ¬ DelimiterOpen p
  declarations : WithinLimits (declarations items)

/-- A whole item list: every Collection is ended, and something is declared. -/
structure Grammatical (items : List Item) : Prop extends Legal items where
  balanced : items.countP (Item.is .collection) = items.countP (Item.is .endCollection)
  declared : ∃ i ∈ items, ∃ kind, i.tag = .data kind

/-- The byte strings that are Report Maps. -/
def IsReportMap (data : List UInt8) : Prop :=
  1 ≤ data.length ∧ data.length ≤ 4096 ∧
    ∃ items : List Item, data = items.flatMap Item.bytes ∧ Grammatical items

end HidParser

end BleClientHid
