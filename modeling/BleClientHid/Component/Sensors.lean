import BleClientHid.Component.Published
import BleClientHid.Lib.Readers

/-! # Sensors

`emit_hid_event_` hands an event to Home Assistant and to the sensors. What it looks up is
there, and the number it shows is the one that was decoded or put together.
-/

namespace BleClientHid

open Lib BLEClientHID HidParser HIDReportMap OrderedEventBuffer

/-! ## `strtoll` -/

def isSpace (c : Char) : Bool := c == ' ' || (9 ≤ c.toNat && c.toNat ≤ 13)

/-- In base 10: blanks, a sign, and digits up to the first other character. Out of range, the nearest bound. -/
def strtoll (text : String) : Int :=
  let digits := fun (cs : List Char) => (Nat.ofDigitChars 10 (cs.takeWhile Char.isDigit) 0 : Int)
  let clamp := fun (v : Int) => max int64Min (min int64Max v)
  match text.toList.dropWhile isSpace with
  | '-' :: cs => clamp (-digits cs)
  | '+' :: cs => clamp (digits cs)
  | cs => clamp (digits cs)

theorem digits_toDigits (n : Nat) : (Nat.toDigits 10 n).takeWhile Char.isDigit = Nat.toDigits 10 n := by
  rw [List.takeWhile_eq_self_iff]
  exact fun c hc => Nat.isDigit_of_mem_toDigits (by decide) (by decide) hc

theorem toDigits_cons (n : Nat) : ∃ c cs, Nat.toDigits 10 n = c :: cs ∧ c.isDigit = true := by
  cases h : Nat.toDigits 10 n with
  | nil => exact absurd h Nat.toDigits_ne_nil
  | cons c cs =>
    refine ⟨c, cs, rfl, Nat.isDigit_of_mem_toDigits (b := 10) (n := n) (by decide) (by decide) ?_⟩
    rw [h]
    exact List.mem_cons_self

theorem repr_ne {text : String} (h : text.toList.all Char.isDigit = false) (n : Nat) : n.repr ≠ text := by
  rintro rfl
  rw [Nat.toList_repr, List.all_eq_false] at h
  obtain ⟨c, hc, hdigit⟩ := h
  exact hdigit (Nat.isDigit_of_mem_toDigits (by decide) (by decide) hc)

theorem isDigit_range {c : Char} (h : c.isDigit = true) : 48 ≤ c.toNat ∧ c.toNat ≤ 57 := by
  simp only [Char.isDigit, Bool.and_eq_true, decide_eq_true_eq, ge_iff_le, UInt32.le_iff_toNat_le] at h
  exact h

theorem toList_toString_ofNat (n : Nat) : (toString (Int.ofNat n)).toList = Nat.toDigits 10 n := by
  change (Nat.repr n).toList = _
  exact Nat.toList_repr

theorem toList_toString_negSucc (n : Nat) : (toString (Int.negSucc n)).toList = '-' :: Nat.toDigits 10 (n + 1) := by
  change ("-" ++ Nat.repr (n + 1)).toList = _
  rw [String.toList_append, Nat.toList_repr]
  rfl

/-- `std::to_string`, read back. -/
theorem strtoll_toString {v : Int} (h : Int64Range v) : strtoll (toString v) = v := by
  obtain ⟨hmin, hmax⟩ := h
  unfold strtoll
  cases v with
  | ofNat n =>
    obtain ⟨c, cs, hdigits, hdigit⟩ := toDigits_cons n
    obtain ⟨hlow, hhigh⟩ := isDigit_range hdigit
    have hspace : isSpace c = false := by
      have hblank : c ≠ ' ' := by
        rintro rfl
        simp at hlow
      simp [isSpace, hblank]
      omega
    have hkept : (Nat.toDigits 10 n).dropWhile isSpace = c :: cs := by
      rw [hdigits, List.dropWhile_cons_of_neg (by simp [hspace])]
    have hvalue : Nat.ofDigitChars 10 ((c :: cs).takeWhile Char.isDigit) 0 = n := by
      rw [← hdigits, digits_toDigits, Nat.ofDigitChars_ten_toDigits]
    -- a digit is neither a minus nor a plus
    rw [toList_toString_ofNat, hkept]
    split
    · rename_i heq
      obtain ⟨rfl, -⟩ := List.cons.inj heq
      simp at hlow
    · rename_i heq
      obtain ⟨rfl, -⟩ := List.cons.inj heq
      simp at hlow
    · simp only [hvalue, Int.ofNat_eq_natCast] at hmin hmax ⊢
      omega
  | negSucc n =>
    -- the minus, then the digits of `n + 1`
    have hminus : isSpace '-' = false := by decide
    rw [toList_toString_negSucc, List.dropWhile_cons_of_neg (by simp [hminus])]
    simp only [digits_toDigits, Nat.ofDigitChars_ten_toDigits]
    omega

/-! ## The event goes out -/

/-- What is compiled in or registered. -/
structure Outlets where
  api : Bool
  lastEventUsage : Bool
  lastEventCode : Bool
  lastEventValue : Bool

inductive Announcement where
  | homeAssistant (name : String) (event : HIDEvent)
  | usage (text : String)
  | code (text : String)
  | value (value : Int)
  deriving DecidableEq, Repr

/-- The line `HID_EVENT` of the log. -/
structure EventLine where
  seqIdFrom : String
  seqIdTo : String
  serviceInstance : String
  reportId : String
  fieldId : String
  usage : String
  value : String
  decodeStatus : String
  deriving DecidableEq, Repr

/-- `none` when `at` finds no entry: it would throw. -/
def emitHidEvent (outlets : Outlets) (event : HIDEvent) : Option (List Announcement × EventLine) := do
  let fired := if outlets.api then [Announcement.homeAssistant "esphome.hid_events" event] else []
  let shown ← match event.find "usage" with
    | none => some []
    | some usage => do
      let text := if outlets.lastEventUsage then [Announcement.usage usage] else []
      let code ← if outlets.lastEventCode then do
          let page ← event.find "usage_page"
          let id ← event.find "usage_id"
          some [Announcement.code (page ++ "_" ++ id)]
        else some []
      let value ← if outlets.lastEventValue then do
          let value ← event.find "value"
          some [Announcement.value (strtoll value)]
        else some []
      some (text ++ code ++ value)
  let seqIdFrom ← event.find "seq_id_from"
  let seqIdTo ← event.find "seq_id_to"
  let serviceInstance ← event.find "hid_service"
  let reportId ← event.find "report_id"
  let decodeStatus ← event.find "decode_status"
  some (fired ++ shown, {
    seqIdFrom, seqIdTo, serviceInstance, reportId
    fieldId := (event.find "field_id").getD "unknown"
    usage := (event.find "usage").getD "unknown"
    value := (event.find "value").getD "unknown"
    decodeStatus })

/-! ## What arrives -/

/-- A value that is added up is a relative one. -/
def Summed (value : HIDReportItemValue) : Prop :=
  mergeable value = true → value.isRelative = (value.aggregation == .sum)

theorem variableValue_summed (m : HIDReportMap) (r : HIDReportSchema) (field : HIDFieldSchema) (index : Nat)
    (raw : Int) : Summed (variableValue m r field index raw) := by
  intro _
  simp only [variableValue, aggregationOf]
  cases hrelative : field.isRelative with
  | true => rfl
  | false =>
    simp only [Bool.false_eq_true, if_false]
    split <;> split <;> rfl

theorem parse_summed {m : HIDReportMap} (hm : SchemaInv m) (source : HIDReportSource) (payload : List UInt8) :
    ∀ value ∈ (parse m source (.bytes payload)).values, Summed value := by
  refine parse_forall hm source ?_ ?_ fun _ h => h
  · intro r field memory value hvalue
    obtain ⟨i, -, raw, rfl⟩ := variableElements_mem _ _ value hvalue
    exact variableValue_summed m r field i raw
  · intro r field memory value hvalue hmerge
    simp only [decodeArray, List.mem_append, List.mem_map] at hvalue
    rcases hvalue with ⟨entry, -, rfl⟩ | ⟨entry, -, rfl⟩ <;> cases hmerge

theorem decode_summed (d : HIDBootReportDecoder) (source : HIDReportSource) (data : Buffer) :
    ∀ value ∈ (BootReportDecoder.decode d source data).values, Summed value := by
  intro value hvalue hmerge
  have hboot := decode_boot d source data value hvalue
  rw [hboot.relative hmerge, hboot.sum hmerge]
  rfl

/-- Where an arrival comes from: a value that waits for others of its key, one that passes, or a report that
could not be decoded. -/
inductive Sourced (mode : SampledEventKey → Aggregation) : SampledArrival → Prop where
  | merged {key : SampledEventKey} {c : Contribution} (d : DecodedReport) (value : HIDReportItemValue)
      (hkey : key = d.sampledKey value) (hc : c = d.contribution value)
      (hrelative : value.isRelative = (mode key == .sum)) (hrange : InRange value) :
      Sourced mode (.contribution key c)
  | passed (d : DecodedReport) (value : HIDReportItemValue) (hrange : InRange value) :
      Sourced mode (.barrier (d.event (some value)))
  | raw (d : DecodedReport) : Sourced mode (.barrier (d.event none))

theorem arrivals_sourced {mode : SampledEventKey → Aggregation} {d : DecodedReport} (hmode : d.Mode mode)
    (hsummed : ∀ value ∈ d.values, Summed value) : ∀ a ∈ d.arrivals, Sourced mode a := by
  intro a ha
  unfold DecodedReport.arrivals at ha
  split at ha
  · rw [List.mem_singleton.mp ha]
    exact .raw d
  · obtain ⟨value, hvalue, rfl⟩ := List.mem_map.mp ha
    have hrange : InRange value := ⟨hmode.value value hvalue, hmode.rawValue value hvalue⟩
    unfold DecodedReport.arrival
    split
    · rename_i hmerge
      have haggregation := hmode.aggregation value hvalue hmerge
      exact .merged d value rfl rfl (haggregation ▸ hsummed value hvalue hmerge) hrange
    · exact .passed d value hrange

theorem accept_sourced {p : Profile} (h : p.renewed.Fresh) (intake : Intake) :
    ∀ a ∈ (p.accept intake).2.arrivals, Sourced (modeOf p.renewed.hidServices) a := by
  have hmode := accept_mode h intake
  cases intake with
  | window now => simp [Profile.accept, SamplingStep.arrivals]
  | report platform clock report =>
    refine arrivals_sourced hmode ?_
    intro value hvalue
    unfold decodeReport at hvalue
    split at hvalue
    · exact decode_summed p.bootDecoder report.source (.bytes report.payload) value hvalue
    · split at hvalue
      · simp at hvalue
      · rename_i m hmap
        have hm := schemaInv_of_renewed h (i := report.source.serviceInstance) hmap
        exact parse_summed hm report.source report.payload value hvalue

theorem Profile.arrivals_sourced (intakes : List Intake) {p : Profile} (h : p.renewed.Fresh) :
    ∀ a ∈ p.arrivals intakes, Sourced (modeOf p.renewed.hidServices) a := by
  induction intakes generalizing p with
  | nil => simp [Profile.arrivals]
  | cons intake intakes ih =>
    intro a ha
    have hrenewed := p.accept_renewed intake
    rcases List.mem_append.mp ha with ha | ha
    · exact accept_sourced h intake a ha
    · have hlater := ih (hrenewed ▸ h) a ha
      rwa [hrenewed] at hlater

/-! ## What is announced -/

section

variable (outlets : Outlets)

def Outlets.fires (event : HIDEvent) : List Announcement :=
  if outlets.api then [.homeAssistant "esphome.hid_events" event] else []

def Outlets.shows (platform : Platform) (usage : HIDUsage) (value : Int) : List Announcement :=
  (if outlets.lastEventUsage then [.usage (usageText platform usage)] else []) ++
    (if outlets.lastEventCode then [.code (toString usage.page ++ "_" ++ toString usage.usage)] else []) ++
    if outlets.lastEventValue then [.value value] else []

/-- The entries of an event, as one with this value would have them, but for the number. -/
structure Describes (d : DecodedReport) (value : HIDReportItemValue) (number : Int) (event : HIDEvent) : Prop where
  entries : ∀ key ∉ ["value", "raw_value", "seq_id_from"], event.find key = (d.event (some value)).find key
  value : event.find "value" = some (toString number)
  seqIdFrom : (event.find "seq_id_from").isSome = true

theorem describes_event (d : DecodedReport) (value : HIDReportItemValue) :
    Describes d value value.value (d.event (some value)) where
  entries := fun _ _ => rfl
  value := find_makeHidEvent_entry _ _ _ _ value (by simp [valueEntries])
  seqIdFrom := by
    have hfrom : (d.event (some value)).find "seq_id_from" = some (toString d.report.seqId) :=
      find_makeHidEvent_envelope _ _ _ _ _ (by simp [envelope])
    rw [hfrom]
    rfl

theorem Describes.emit {d : DecodedReport} {value : HIDReportItemValue} {number : Int} {event : HIDEvent}
    (h : Describes d value number event) (hrange : Int64Range number) :
    ∃ line, emitHidEvent outlets event =
      some (outlets.fires event ++ outlets.shows d.view.platform value.usage number, line) := by
  have hentry {key text : String} (hkey : key ∉ ["value", "raw_value", "seq_id_from"])
      (hmem : (key, text) ∈ valueEntries d.view.platform value) : event.find key = some text := by
    rw [h.entries key hkey]
    exact find_makeHidEvent_entry _ _ _ _ value hmem
  have henvelope {key text : String} (hkey : key ∉ ["value", "raw_value", "seq_id_from"])
      (hmem : (key, text) ∈ (envelope d.view d.report d.raw d.status).data) : event.find key = some text := by
    rw [h.entries key hkey]
    exact find_makeHidEvent_envelope _ _ _ _ _ hmem
  have husage : event.find "usage" = some (usageText d.view.platform value.usage) :=
    hentry (by decide) (by simp [valueEntries])
  have hpage : event.find "usage_page" = some (toString value.usage.page) :=
    hentry (by decide) (by simp [valueEntries])
  have hid : event.find "usage_id" = some (toString value.usage.usage) :=
    hentry (by decide) (by simp [valueEntries])
  have hservice : event.find "hid_service" = some (toString d.report.source.serviceInstance) :=
    henvelope (by decide) (by simp [envelope])
  have hreport : event.find "report_id" =
      some (if d.report.source.hasReportId then toString d.report.source.reportId else "unknown") :=
    henvelope (by decide) (by simp [envelope])
  have hstatus : event.find "decode_status" = some (hidDecodeStatusName d.status) :=
    henvelope (by decide) (by simp [envelope])
  have hto : event.find "seq_id_to" = some (toString d.report.seqId) :=
    henvelope (by decide) (by simp [envelope])
  obtain ⟨seqIdFrom, hfrom⟩ := Option.isSome_iff_exists.mp h.seqIdFrom
  unfold emitHidEvent Outlets.fires Outlets.shows
  simp only [husage, hpage, hid, h.value, hservice, hreport, hstatus, hto, hfrom, Option.bind_eq_bind, Option.bind_some,
    strtoll_toString hrange]
  cases outlets.lastEventCode <;> cases outlets.lastEventValue <;> exact ⟨_, rfl⟩

theorem emit_raw (d : DecodedReport) :
    ∃ line, emitHidEvent outlets (d.event none) = some (outlets.fires (d.event none), line) := by
  have hnone : (d.event none).find "usage" = none :=
    find_makeHidEvent_none _ _ _ _ "usage" (by decide)
  have henvelope {key text : String} (hmem : (key, text) ∈ (envelope d.view d.report d.raw d.status).data) :
      (d.event none).find key = some text := find_makeHidEvent_envelope _ _ _ _ _ hmem
  have hservice : (d.event none).find "hid_service" = some (toString d.report.source.serviceInstance) :=
    henvelope (by simp [envelope])
  have hreport : (d.event none).find "report_id" =
      some (if d.report.source.hasReportId then toString d.report.source.reportId else "unknown") :=
    henvelope (by simp [envelope])
  have hstatus : (d.event none).find "decode_status" = some (hidDecodeStatusName d.status) :=
    henvelope (by simp [envelope])
  have hto : (d.event none).find "seq_id_to" = some (toString d.report.seqId) :=
    henvelope (by simp [envelope])
  have hfrom : (d.event none).find "seq_id_from" = some (toString d.report.seqId) :=
    henvelope (by simp [envelope])
  unfold emitHidEvent Outlets.fires
  simp only [hnone, hservice, hreport, hstatus, hto, hfrom, Option.bind_eq_bind, Option.bind_some, List.append_nil]
  exact ⟨_, rfl⟩

end

/-! ## Blocks -/

theorem clampAdd_foldl_range (rest : List Int) {first : Int} (h : Int64Range first) :
    Int64Range (rest.foldl clampAdd first) := by
  induction rest generalizing first with
  | nil => exact h
  | cons v rest ih => exact ih (clampAdd_range first v)

theorem combine_range {mode : Aggregation} {first : Int} {rest : List Int} (hfirst : Int64Range first)
    (hrest : ∀ v ∈ rest, Int64Range v) : Int64Range (combine mode first rest) := by
  unfold combine
  split
  · exact clampAdd_foldl_range rest hfirst
  · rcases List.eq_nil_or_concat rest with rfl | ⟨front, last, rfl⟩
    · exact hfirst
    · rw [List.concat_eq_append, List.getLastD_concat]
      exact hrest last (by simp)

theorem block_sourced {mode : SampledEventKey → Aggregation} {b : SampledBlock}
    (h : ∀ a ∈ (Emission.block (β := HIDEvent) b).arrivals, Sourced mode a) {c : Contribution}
    (hc : c ∈ b.contributions) : ∃ d value, c = DecodedReport.contribution d value ∧ b.key = d.sampledKey value ∧
      value.isRelative = (mode b.key == .sum) ∧ InRange value := by
  cases h (.contribution b.key c) (List.mem_map.mpr ⟨c, hc, rfl⟩) with
  | merged d value hkey hc hrelative hrange => exact ⟨d, value, hc, hkey, hrelative, hrange⟩

/-- The event of a block describes its last value, with another number. -/
theorem CarriesBlock.describes {mode : Aggregation} {b : SampledBlock} {event : HIDEvent}
    (h : CarriesBlock mode b event) {d : DecodedReport} {value : HIDReportItemValue}
    (hlast : b.last = d.contribution value) :
    Describes d value (combine mode b.first.value (b.rest.map (·.value))) event := by
  refine ⟨fun key hkey => ?_, h.value, ?_⟩
  · rw [h.others key hkey, hlast]
    rfl
  · rw [h.seqIdFrom]
    rfl

theorem combine_sourced {mode : SampledEventKey → Aggregation} {b : SampledBlock}
    (h : ∀ a ∈ (Emission.block (β := HIDEvent) b).arrivals, Sourced mode a) :
    Int64Range (combine (mode b.key) b.first.value (b.rest.map (·.value))) := by
  have hrange (c : Contribution) (hc : c ∈ b.contributions) : Int64Range c.value := by
    obtain ⟨d, value, rfl, -, -, hrange⟩ := block_sourced h hc
    exact hrange.1
  refine combine_range (hrange b.first List.mem_cons_self) ?_
  intro v hv
  obtain ⟨c, hc, rfl⟩ := List.mem_map.mp hv
  exact hrange c (List.mem_cons_of_mem _ hc)

/-- An emission as the sensors see it: the last value of a block names it, all its values make the number. -/
inductive Announced (outlets : Outlets) (mode : SampledEventKey → Aggregation) : SampledEmission → HIDEvent → Prop where
  | block {b : SampledBlock} {event : HIDEvent} (d : DecodedReport) (value : HIDReportItemValue) (line : EventLine)
      (hlast : b.last = d.contribution value)
      (hemit : emitHidEvent outlets event = some (outlets.fires event ++ outlets.shows d.view.platform value.usage
        (combine (mode b.key) b.first.value (b.rest.map (·.value))), line)) :
      Announced outlets mode (.block b) event
  | passed (d : DecodedReport) (value : HIDReportItemValue) (line : EventLine)
      (hemit : emitHidEvent outlets (d.event (some value)) = some (outlets.fires (d.event (some value)) ++
        outlets.shows d.view.platform value.usage value.value, line)) :
      Announced outlets mode (.barrier (d.event (some value))) (d.event (some value))
  | raw (d : DecodedReport) (line : EventLine)
      (hemit : emitHidEvent outlets (d.event none) = some (outlets.fires (d.event none), line)) :
      Announced outlets mode (.barrier (d.event none)) (d.event none)

theorem announced_of_carries {outlets : Outlets} {mode : SampledEventKey → Aggregation} {emission : SampledEmission}
    {event : HIDEvent} (h : Carries mode emission event) (hsourced : ∀ a ∈ emission.arrivals, Sourced mode a) :
    Announced outlets mode emission event := by
  cases h with
  | @block b _ hcarries =>
    obtain ⟨d, value, hlast, -, -, -⟩ := block_sourced hsourced (Block.last_mem b)
    obtain ⟨line, hemit⟩ := (hcarries.describes hlast).emit outlets (combine_sourced hsourced)
    exact .block d value line hlast hemit
  | barrier =>
    cases hsourced (.barrier event) List.mem_cons_self with
    | passed d value hrange =>
      obtain ⟨line, hemit⟩ := (describes_event d value).emit outlets hrange.1
      exact .passed d value line hemit
    | raw d =>
      obtain ⟨line, hemit⟩ := emit_raw outlets d
      exact .raw d line hemit

/-! ## Runs -/

theorem carries_alone {mode : SampledEventKey → Aggregation} {a : SampledArrival} (h : Sourced mode a) :
    Carries mode a.alone a.event := by
  cases h with
  | @merged key c d value hkey hc =>
    subst hkey hc
    exact .block (carriesBlock_single _ d value)
  | passed d value => exact .barrier _
  | raw d => exact .barrier _

instance : Nonempty SampledEventKey := ⟨⟨0, 0, 0, 0⟩⟩

section

variable {interval : UInt32} {s : BLEClientHID} {intakes : List Intake}

theorem Fed.sourced (h : Fed interval s intakes) :
    ∀ a ∈ s.profile.renewed.arrivals intakes, Sourced (modeOf s.hidServices) a := by
  have hrenewed := h.fresh.renewed
  have hmode : modeOf s.profile.renewed.hidServices = modeOf s.hidServices := modeOf_fixed s.hidServices
  have hsourced := Profile.arrivals_sourced intakes (hrenewed.symm ▸ h.fresh)
  rw [hrenewed, hmode] at hsourced
  exact hsourced

theorem Fed.published (h : Fed interval s intakes) :
    ∃ emissions, List.Forall₂ (Carries (modeOf s.hidServices)) emissions s.hidEvents ∧
      ∀ emission ∈ emissions, emission.arrivals.Sublist (s.profile.renewed.arrivals intakes) := by
  by_cases hinterval : interval = 0
  · subst hinterval
    refine ⟨(s.profile.renewed.arrivals intakes).map Arrival.alone, ?_, ?_⟩
    · rw [h.plain, List.forall₂_map_left_iff, List.forall₂_map_right_iff, List.forall₂_same]
      exact fun a ha => carries_alone (h.sourced a ha)
    · exact fun emission hemission => (coalesces_alone _).sublist hemission
  · obtain ⟨emissions, hcarries, hcoalesces⟩ := h.accountedFor hinterval
    refine ⟨emissions.take s.hidEvents.length, List.forall₂_take_append emissions _ _ hcarries, ?_⟩
    exact fun emission hemission => hcoalesces.sublist (List.mem_of_mem_take hemission)

end

/-- Whatever happens, every event a connection publishes can be announced: no entry it needs is missing, and the
number it shows is the value that was decoded, or the sum or the last of the values that were put together. -/
theorem published_announced (discoveryMode : DiscoveryMode) (policy : ProtocolModePolicy) (interval : UInt32)
    (events : List Event) (outlets : Outlets)
    (hsearch : ∀ n < events.length, (run (initial discoveryMode policy interval) (events.take (n + 1))).OneSearch) :
    let s := run (initial discoveryMode policy interval) events
    ∃ emissions, List.Forall₂ (Announced outlets (modeOf s.hidServices)) emissions s.hidEvents ∧
      ∀ emission ∈ emissions, ∀ a ∈ emission.arrivals,
        a ∈ s.profile.renewed.arrivals (received (initial discoveryMode policy interval) events) := by
  intro s
  have hfed := run_fed discoveryMode policy interval events hsearch
  obtain ⟨emissions, hcarries, hsublist⟩ := hfed.published
  have harrivals : ∀ emission ∈ emissions, ∀ a ∈ emission.arrivals, a ∈ s.profile.renewed.arrivals _ :=
    fun emission hemission a ha => (hsublist emission hemission).subset ha
  have hsourced : ∀ emission ∈ emissions, ∀ a ∈ emission.arrivals, Sourced (modeOf s.hidServices) a :=
    fun emission hemission a ha => hfed.sourced a (harrivals emission hemission a ha)
  have hboth := (List.forall₂_and_left _ _).mpr ⟨hsourced, hcarries⟩
  exact ⟨emissions, hboth.imp fun _ _ h => announced_of_carries h.2 h.1, harrivals⟩

theorem published_announced_keyboard :
    let s := run (initial .standard .unchanged 500) secondConnection
    ∃ emissions, List.Forall₂ (Announced ⟨true, true, true, true⟩ (modeOf s.hidServices)) emissions s.hidEvents ∧
      ∀ emission ∈ emissions, ∀ a ∈ emission.arrivals,
        a ∈ s.profile.renewed.arrivals (received (initial .standard .unchanged 500) secondConnection) :=
  published_announced .standard .unchanged 500 secondConnection ⟨true, true, true, true⟩ (by decide +kernel)

end BleClientHid
