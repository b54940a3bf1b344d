import BleClientHid.HidParser.Schema

/-! # The coalescing buffer

Events are string maps. The buffer keeps one pending event per key, in the
order the keys were first seen.
-/

namespace BleClientHid

/-! ## Events -/

/-- `data` is a `std::map`: each key once, in no order that matters. -/
structure HIDEvent where
  data : List (String × String) := []
  deriving DecidableEq, Repr, Inhabited

namespace HIDEvent

def find (event : HIDEvent) (key : String) : Option String := event.data.lookup key

def assignEntry (key value : String) : List (String × String) → List (String × String)
  | [] => [(key, value)]
  | (k, v) :: rest => if key = k then (key, value) :: rest else (k, v) :: assignEntry key value rest

/-- `event.data[key] = value` -/
def assign (event : HIDEvent) (key value : String) : HIDEvent :=
  { event with data := assignEntry key value event.data }

/-- An `emplace` for a key that is there changes nothing. -/
def emplace (event : HIDEvent) (key value : String) : HIDEvent :=
  if (event.find key).isSome then event else { event with data := event.data ++ [(key, value)] }

@[simp]
theorem find_assign_self (event : HIDEvent) (key value : String) :
    (event.assign key value).find key = some value := by
  obtain ⟨data⟩ := event
  simp only [assign, find]
  induction data with
  | nil => simp [assignEntry]
  | cons entry rest ih =>
    obtain ⟨k, v⟩ := entry
    by_cases hk : key = k
    · simp [assignEntry, hk]
    · have hbeq : (key == k) = false := beq_eq_false_iff_ne.mpr hk
      simp only [assignEntry, if_neg hk, List.lookup_cons, hbeq, ih]

@[simp]
theorem find_assign_ne (event : HIDEvent) {key key' : String} (h : key' ≠ key) (value : String) :
    (event.assign key value).find key' = event.find key' := by
  obtain ⟨data⟩ := event
  have hbeq : (key' == key) = false := beq_eq_false_iff_ne.mpr h
  simp only [assign, find]
  induction data with
  | nil => simp only [assignEntry, List.lookup_cons, hbeq]
  | cons entry rest ih =>
    obtain ⟨k, v⟩ := entry
    by_cases hk : key = k
    · subst hk
      simp only [assignEntry, if_true, List.lookup_cons, hbeq]
    · simp only [assignEntry, if_neg hk, List.lookup_cons, ih]

end HIDEvent

/-! ## The buffer -/

structure SampledEventKey where
  serviceInstance : Nat
  fieldId : Nat
  reportId : Nat
  reportKind : Nat
  deriving DecidableEq, Repr

structure PendingEvent where
  key : SampledEventKey
  aggregation : Aggregation
  value : Int
  rawValue : Int
  event : HIDEvent
  deriving DecidableEq, Repr

structure OrderedEventBuffer where
  capacity : Nat := 16
  pending : List PendingEvent := []
  deriving DecidableEq, Repr

namespace OrderedEventBuffer

def int64Max : Int := 2 ^ 63 - 1
def int64Min : Int := -2 ^ 63

def saturatingAdd (left right : Int) : Int :=
  if right > 0 ∧ left > int64Max - right then int64Max
  else if right < 0 ∧ left < int64Min - right then int64Min
  else left + right

/-- The round of `accumulate` for the entry that has the key. -/
def mergeEvent (aggregation : Aggregation) (value rawValue : Int) (event : HIDEvent)
    (pending : PendingEvent) : PendingEvent :=
  let value := if aggregation = .sum then saturatingAdd pending.value value else value
  let rawValue := if aggregation = .sum then saturatingAdd pending.rawValue rawValue else rawValue
  let seqIdFrom := (pending.event.find "seq_id_from").getD ""
  { pending with
    value
    rawValue
    event := ((event.assign "value" (toString value)).assign "raw_value" (toString rawValue)).assign
      "seq_id_from" seqIdFrom }

/-- `none` when no entry has the key. -/
def mergePending (key : SampledEventKey) (merge : PendingEvent → PendingEvent) :
    List PendingEvent → Option (List PendingEvent)
  | [] => none
  | pending :: rest =>
    if pending.key = key then some (merge pending :: rest)
    else (mergePending key merge rest).map (pending :: ·)

/-- `none` when the buffer is full. -/
def accumulate (buffer : OrderedEventBuffer) (key : SampledEventKey) (aggregation : Aggregation)
    (value rawValue : Int) (event : HIDEvent) : Option OrderedEventBuffer :=
  match mergePending key (mergeEvent aggregation value rawValue event) buffer.pending with
  | some pending => some { buffer with pending }
  | none =>
    if buffer.pending.length ≥ buffer.capacity then none
    else
      let event := (event.assign "value" (toString value)).assign "raw_value" (toString rawValue)
      some { buffer with pending := buffer.pending ++ [{ key, aggregation, value, rawValue, event }] }

def drain (buffer : OrderedEventBuffer) : OrderedEventBuffer × List HIDEvent :=
  ({ buffer with pending := [] }, buffer.pending.map (·.event))

def drainBefore (buffer : OrderedEventBuffer) (barrier : HIDEvent) :
    OrderedEventBuffer × List HIDEvent :=
  let (buffer, events) := buffer.drain
  (buffer, events ++ [barrier])

def clear (buffer : OrderedEventBuffer) : OrderedEventBuffer := { buffer with pending := [] }

def empty (buffer : OrderedEventBuffer) : Bool := buffer.pending.isEmpty

end OrderedEventBuffer

end BleClientHid
