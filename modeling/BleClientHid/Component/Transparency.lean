import BleClientHid.Component.Sensors
import Mathlib.Algebra.Order.BigOperators.Group.List

/-! # Coalescing is transparent

A reader that follows the published events knows where every element stands. Coalescing changes what it
sees in between, never where it stands at a barrier or when the buffer has been emptied.
-/

namespace BleClientHid

open Lib BLEClientHID OrderedEventBuffer

/-! ## The reader -/

def decimal (text : String) : Nat := Nat.ofDigitChars 10 text.toList 0

/-- The element that an event is about, by its own entries. Without a Report ID it is 0. -/
def elementOf (event : HIDEvent) : SampledEventKey :=
  let number := fun (key : String) => decimal ((event.find key).getD "0")
  { serviceInstance := number "hid_service"
    fieldId := number "field_id"
    reportId := if event.find "report_id" = some "unknown" then 0 else number "report_id"
    reportKind := HIDReportKind.input.code }

/-- A relative value moves the element, any other says where it is. -/
def readEvent (positions : SampledEventKey → Int) (event : HIDEvent) : SampledEventKey → Int :=
  match event.find "value" with
  | none => positions
  | some value =>
    let element := elementOf event
    Function.update positions element
      (if event.find "relative" = some "true" then positions element + strtoll value else strtoll value)

/-- The same, from the decoded values. -/
def place (mode : SampledEventKey → Aggregation) (key : SampledEventKey) (c : Contribution) (position : Int) : Int :=
  if mode key = .sum then position + c.value else c.value

theorem decimal_repr (n : Nat) : decimal n.repr = n := by
  unfold decimal
  rw [Nat.toList_repr, Nat.ofDigitChars_ten_toDigits]

theorem elementOf_describes {d : DecodedReport} {value : HIDReportItemValue} {number : Int} {event : HIDEvent}
    (h : Describes d value number event) : elementOf event = d.sampledKey value := by
  have hfield : event.find "field_id" = some (toString value.fieldId) :=
    (h.entries _ (by decide)).trans (find_makeHidEvent_entry _ _ _ _ value (by simp [valueEntries]))
  have hservice : event.find "hid_service" = some (toString d.report.source.serviceInstance) :=
    (h.entries _ (by decide)).trans (find_makeHidEvent_envelope _ _ _ _ _ (by simp [envelope]))
  have hreport : event.find "report_id" =
      some (if d.report.source.hasReportId then toString d.report.source.reportId else "unknown") :=
    (h.entries _ (by decide)).trans (find_makeHidEvent_envelope _ _ _ _ _ (by simp [envelope]))
  unfold elementOf DecodedReport.sampledKey
  simp only [hfield, hservice, hreport, Option.getD_some, Nat.toString_eq_repr, decimal_repr]
  cases d.report.source.hasReportId with
  | true => simp [decimal_repr, repr_ne (by decide : "unknown".toList.all Char.isDigit = false)]
  | false => simp

theorem relative_describes {d : DecodedReport} {value : HIDReportItemValue} {number : Int} {event : HIDEvent}
    (h : Describes d value number event) : event.find "relative" = some "true" ↔ value.isRelative = true := by
  have hrelative : event.find "relative" = some (if value.isRelative then "true" else "false") :=
    (h.entries _ (by decide)).trans (find_makeHidEvent_entry _ _ _ _ value (by simp [valueEntries]))
  rw [hrelative]
  cases value.isRelative <;> decide

/-! ## Blocks -/

/-- How far the contributions go, all in all. -/
def Contribution.travel (c : Contribution) : Nat := c.value.natAbs

def travel (as : List SampledArrival) : Nat :=
  (as.map fun a => match a with
    | .contribution _ c => c.travel
    | .barrier _ => 0).sum

/-- Nothing saturates on the way. -/
theorem foldl_clampAdd (rest : List Int) {first : Int}
    (h : first.natAbs + (rest.map Int.natAbs).sum ≤ int64Max.toNat) :
    rest.foldl clampAdd first = first + rest.sum := by
  induction rest generalizing first with
  | nil => simp
  | cons v rest ih =>
    rw [List.map_cons, List.sum_cons] at h
    have hclamp : clampAdd first v = first + v := by
      unfold clampAdd int64Min
      unfold int64Max at h ⊢
      omega
    rw [List.foldl_cons, hclamp, ih (by omega), List.sum_cons, Int.add_assoc]

theorem foldl_sum {mode : SampledEventKey → Aggregation} {key : SampledEventKey} (hmode : mode key = .sum)
    (cs : List Contribution) (position : Int) :
    cs.foldl (fun position c => place mode key c position) position = position + (cs.map (·.value)).sum := by
  induction cs generalizing position with
  | nil => simp
  | cons c cs ih =>
    rw [List.foldl_cons, ih, place, if_pos hmode, List.map_cons, List.sum_cons, Int.add_assoc]

theorem foldl_set {mode : SampledEventKey → Aggregation} {key : SampledEventKey} (hmode : mode key ≠ .sum)
    (c : Contribution) (cs : List Contribution) (position : Int) :
    (c :: cs).foldl (fun position c => place mode key c position) position = (cs.map (·.value)).getLastD c.value := by
  induction cs generalizing c position with
  | nil => simp [place, hmode]
  | cons c' cs ih =>
    rw [List.foldl_cons, ih c', List.map_cons, List.getLastD_cons]

/-- The event of a block says what its contributions say one by one. -/
theorem readEvent_block {mode : SampledEventKey → Aggregation} {b : SampledBlock} {event : HIDEvent}
    (hcarries : CarriesBlock (mode b.key) b event)
    (hsourced : ∀ a ∈ (Emission.block (β := HIDEvent) b).arrivals, Sourced mode a)
    (hroom : (b.contributions.map Contribution.travel).sum ≤ int64Max.toNat) (positions : SampledEventKey → Int) :
    readEvent positions event = follow (place mode) positions (b.contributions.map (b.key, ·)) := by
  obtain ⟨d, value, hlast, hkey, hrelative, -⟩ := block_sourced hsourced (Block.last_mem b)
  have hdescribes := hcarries.describes hlast
  have hnumber := strtoll_toString (combine_sourced hsourced)
  unfold readEvent
  rw [hdescribes.value, follow_block]
  dsimp only
  rw [elementOf_describes hdescribes, ← hkey, hnumber]
  congr 1
  by_cases hmode : mode b.key = .sum
  · have hsum : (b.first.value).natAbs + ((b.rest.map (·.value)).map Int.natAbs).sum ≤ int64Max.toNat := by
      rw [List.map_map]
      exact hroom
    rw [if_pos ((relative_describes hdescribes).mpr (by rw [hrelative, hmode]; rfl)), foldl_sum hmode]
    unfold combine
    rw [if_pos hmode, foldl_clampAdd _ hsum]
    rfl
  · have habsolute : event.find "relative" ≠ some "true" := by
      intro h
      rw [(relative_describes hdescribes).mp h] at hrelative
      exact hmode (beq_iff_eq.mp hrelative.symm)
    rw [if_neg habsolute]
    unfold combine Block.contributions
    rw [if_neg hmode, foldl_set hmode]

/-! ## Room -/

theorem travel_block_le {as : List SampledArrival} {es : List SampledEmission} (h : Coalesces as es)
    {b : SampledBlock} (hb : .block b ∈ es) : (b.contributions.map Contribution.travel).sum ≤ travel as := by
  have hblock : travel (Emission.block b).arrivals = (b.contributions.map Contribution.travel).sum := by
    unfold travel Emission.arrivals
    rw [List.map_map]
    rfl
  rw [← hblock]
  exact ((h.sublist hb).map _).sum_le_sum fun _ _ => Nat.zero_le _

/-! ## Without coalescing -/

theorem Profile.accept_plain (p : Profile) (interval : UInt32) (intake : Intake) :
    ({ p with interval } : Profile).accept intake =
      ({ (p.accept intake).1 with interval }, (p.accept intake).2) := by
  cases intake with
  | window now => rfl
  | report platform clock report =>
    have hcontext : ({ p with interval } : Profile).component.findHidContext = p.component.findHidContext := rfl
    unfold accept decodeReport
    dsimp only
    rw [hcontext]
    split
    · rfl
    · split <;> rfl

theorem Profile.arrivals_plain (intakes : List Intake) (p : Profile) (interval : UInt32) :
    ({ p with interval } : Profile).arrivals intakes = p.arrivals intakes := by
  induction intakes generalizing p with
  | nil => rfl
  | cons intake intakes ih =>
    unfold arrivals
    rw [accept_plain, ih]

/-- What the same intakes publish when the interval is zero. -/
def BLEClientHID.uncoalesced (s : BLEClientHID) (intakes : List Intake) : List HIDEvent :=
  (Pipeline.acceptAll { profile := { s.profile.renewed with interval := 0 }, window := {}, events := [] } intakes).events

theorem uncoalesced_eq (s : BLEClientHID) (intakes : List Intake) :
    s.uncoalesced intakes = (s.profile.renewed.arrivals intakes).map SampledArrival.event := by
  unfold BLEClientHID.uncoalesced
  rw [Pipeline.acceptAll_plain _ rfl rfl, List.nil_append, Profile.arrivals_plain]

/-! ## Runs -/

/-- As long as the elements have not moved further than an `int64_t` reaches, a reader of the coalesced events stands
where a reader of the events of every single value stands, at each barrier and once the buffer is empty. -/
theorem coalescing_transparent (discoveryMode : DiscoveryMode) (policy : ProtocolModePolicy) (interval : UInt32)
    (hinterval : interval ≠ 0) (events : List Event)
    (hsearch : ∀ n < events.length, (run (initial discoveryMode policy interval) (events.take (n + 1))).OneSearch)
    (hroom : travel ((run (initial discoveryMode policy interval) events).profile.renewed.arrivals
      (received (initial discoveryMode policy interval) events)) ≤ int64Max.toNat)
    (positions : SampledEventKey → Int) :
    let s := run (initial discoveryMode policy interval) events
    let intakes := received (initial discoveryMode policy interval) events
    SameAtBarriers readEvent positions ((s.profile.renewed.arrivals intakes).filterMap Arrival.barrier?)
      (s.uncoalesced intakes) (s.hidEvents ++ s.window.sampledEvents.drain.2) := by
  intro s intakes
  have hfed := run_fed discoveryMode policy interval events hsearch
  obtain ⟨emissions, hcarries, hcoalesces⟩ := hfed.accountedFor hinterval
  let Out (emission : SampledEmission) (event : HIDEvent) : Prop :=
    (∀ a ∈ emission.arrivals, Sourced (modeOf s.hidServices) a) ∧ Carries (modeOf s.hidServices) emission event ∧
      ∀ b, emission = .block b → (b.contributions.map Contribution.travel).sum ≤ int64Max.toNat
  have hout {es : List SampledEmission} {stream : List HIDEvent} (h : Coalesces (s.profile.renewed.arrivals intakes) es)
      (hstream : List.Forall₂ (Carries (modeOf s.hidServices)) es stream) : List.Forall₂ Out es stream := by
    have hleft : ∀ emission ∈ es, (∀ a ∈ emission.arrivals, Sourced (modeOf s.hidServices) a) ∧
        ∀ b, emission = .block b → (b.contributions.map Contribution.travel).sum ≤ int64Max.toNat := by
      refine fun emission hemission => ⟨fun a ha => hfed.sourced a ((h.sublist hemission).subset ha), ?_⟩
      rintro b rfl
      exact (travel_block_le h hemission).trans hroom
    exact ((List.forall₂_and_left _ _).mpr ⟨hleft, hstream⟩).imp fun _ _ hboth => ⟨hboth.1.1, hboth.2, hboth.1.2⟩
  have hplain : List.Forall₂ (Carries (modeOf s.hidServices)) ((s.profile.renewed.arrivals intakes).map Arrival.alone)
      (s.uncoalesced intakes) := by
    rw [uncoalesced_eq, List.forall₂_map_left_iff, List.forall₂_map_right_iff, List.forall₂_same]
    exact fun a ha => carries_alone (hfed.sourced a ha)
  have hblock : ∀ b event, Out (.block b) event → ∀ values, readEvent values event =
      follow (place (modeOf s.hidServices)) values (b.contributions.map (b.key, ·)) := by
    rintro b event ⟨hsourced, hcarries, hroom⟩
    cases hcarries with
    | block hblock => exact readEvent_block hblock hsourced (hroom b rfl)
  have hbarrier : ∀ b event, Out (.barrier b) event → event = b := by
    rintro b event ⟨-, hcarries, -⟩
    cases hcarries
    rfl
  exact (coalesces_alone _).sameAtBarriers hblock hbarrier hcoalesces (hout (coalesces_alone _) hplain)
    (hout hcoalesces hcarries) positions

theorem coalescing_transparent_keyboard :
    let s := run (initial .standard .unchanged 500) secondConnection
    let intakes := received (initial .standard .unchanged 500) secondConnection
    SameAtBarriers readEvent (fun _ => 0) ((s.profile.renewed.arrivals intakes).filterMap Arrival.barrier?)
      (s.uncoalesced intakes) (s.hidEvents ++ s.window.sampledEvents.drain.2) :=
  coalescing_transparent .standard .unchanged 500 (by decide) secondConnection (by decide +kernel)
    (by decide +kernel) fun _ => 0

end BleClientHid
