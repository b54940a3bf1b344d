import BleClientHid.Component.Sensors

/-! # Where an event comes from

`log_raw_notification_` writes a line for every notification. What a connection publishes
names the lines it stands for.
-/

namespace BleClientHid

open Lib BLEClientHID

/-! ## The line -/

/-- The line `HID_RAW` of the log. -/
structure RawLine where
  seqId : Nat
  classification : String
  serviceInstance : Nat
  handle : Nat
  uuid : String
  reportId : String
  reportType : String
  transport : String
  length : Nat
  data : String
  deriving DecidableEq, Repr

def rawReportId (source : HIDReportSource) : String :=
  if source.hasReportId then toString source.reportId else "-"

def rawReportType (source : HIDReportSource) : String :=
  if source.hasReportType then
    match source.reportType with
    | 1 => hidReportKindName .input
    | 2 => hidReportKindName .output
    | 3 => hidReportKindName .feature
    | _ => "-"
  else "-"

namespace BLEClientHID

/-- What `log_raw_notification_` says. A handle of the battery stays one, whatever else it is. -/
def rawLine (env : Env) (handle : Nat) (value : Buffer) (isNotify : Bool) (s : BLEClientHID) : RawLine where
  seqId := s.nextSeqId
  classification :=
    if handle ∈ s.batteryHandles then "BATTERY"
    else if handle ∈ s.serviceChangedHandles then "SERVICE_CHANGED"
    else if handle ∈ s.hidReportHandles then "HID" else "UNKNOWN"
  serviceInstance :=
    match findCharacteristic s.services handle with
    | none => (s.sourceOf handle).serviceInstance
    | some characteristic => characteristic.serviceInstance
  handle := handle
  uuid := characteristicText (s.view env) handle
  reportId := rawReportId (s.sourceOf handle)
  reportType := rawReportType (s.sourceOf handle)
  transport := if isNotify then "notify" else "indicate"
  length := value.length
  data := formatValue env.platform value

def rawLines (s : BLEClientHID) (event : Event) : List RawLine :=
  match event with
  | .gattc env (.notify _ _ handle value isNotify) _ =>
    if event.notifies then [s.rawLine env handle value isNotify] else []
  | _ => []

end BLEClientHID

/-- The lines since the connection began. -/
def rawLog (s : BLEClientHID) (events : List Event) : List RawLine :=
  history step BLEClientHID.rawLines Event.resetsConnection s events

/-! ## A report and its line -/

section

variable (platform : Platform) (services : List GattServiceInfo)

/-- The line of the notification that brought the report. -/
structure LineOf (line : RawLine) (report : PendingHIDReport) : Prop where
  classification : line.classification = "HID"
  seqId : line.seqId = report.seqId
  handle : line.handle = report.source.characteristicHandle
  uuid : line.uuid = characteristicText { platform, services } report.source.characteristicHandle
  reportId : line.reportId = rawReportId report.source
  reportType : line.reportType = rawReportType report.source
  transport : line.transport = if report.source.isNotification then "notify" else "indicate"
  hasTransport : report.source.hasTransport = true
  length : line.length = report.payload.length
  data : line.data = formatValue platform (.bytes report.payload)

/-- Every report has its line, in the order of the lines. -/
def Logged (lines : List RawLine) (reports : List PendingHIDReport) : Prop :=
  ∃ own, List.Forall₂ (LineOf platform services) own reports ∧ own.Sublist lines

variable {platform services}

theorem Logged.nil (lines : List RawLine) : Logged platform services lines [] := ⟨[], .nil, List.nil_sublist _⟩

theorem Logged.append {lines lines' : List RawLine} {reports reports' : List PendingHIDReport}
    (h : Logged platform services lines reports) (h' : Logged platform services lines' reports') :
    Logged platform services (lines ++ lines') (reports ++ reports') := by
  obtain ⟨own, hnotes, hsub⟩ := h
  obtain ⟨own', hnotes', hsub'⟩ := h'
  exact ⟨own ++ own', List.rel_append hnotes hnotes', hsub.append hsub'⟩

theorem Logged.sublist {lines : List RawLine} {reports reports' : List PendingHIDReport}
    (h : Logged platform services lines reports) (hsub : reports'.Sublist reports) :
    Logged platform services lines reports' := by
  obtain ⟨own, hnotes, hown⟩ := h
  induction hsub generalizing own lines with
  | slnil => exact Logged.nil _
  | cons report _ ih =>
    cases hnotes with
    | cons _ hrest => exact ih _ hrest ((List.sublist_cons_self ..).trans hown)
  | cons_cons report _ ih =>
    cases hnotes with
    | @cons line _ rest _ hline hrest =>
      obtain ⟨own', hnotes', hown'⟩ := ih _ hrest (List.Sublist.refl rest)
      exact ⟨line :: own', .cons hline hnotes', (hown'.cons_cons line).trans hown⟩

theorem admittedPayload_logged {value : Buffer} {payload : List UInt8} (h : admittedPayload value = some payload) :
    value.length = payload.length ∧ formatValue platform value = formatValue platform (.bytes payload) := by
  unfold admittedPayload at h
  split at h
  · obtain rfl := Option.some.inj h
    exact ⟨rfl, rfl⟩
  · cases h
  · split at h
    · obtain rfl := Option.some.inj h
      exact ⟨rfl, rfl⟩
    · cases h

theorem arriving_logged {s : BLEClientHID} {event : Event} (hplatform : event.env.platform = platform)
    {report : PendingHIDReport} (h : s.arriving event = some report) :
    Logged platform s.services (s.rawLines event) [report] := by
  unfold BLEClientHID.arriving at h
  split at h
  · cases h
  · rename_i hnotifies
    split at h
    · rename_i env connId remoteBda handle value isNotify gattcIf
      split at h
      · cases h
      · rename_i hhandle
        simp only [not_or, not_not] at hhandle
        obtain ⟨hchanged, hbattery, hreport⟩ := hhandle
        obtain ⟨payload, hpayload, rfl⟩ := Option.map_eq_some_iff.mp h
        obtain rfl : env.platform = platform := hplatform
        obtain ⟨hlength, hdata⟩ : value.length = payload.length ∧
          formatValue env.platform value = formatValue env.platform (.bytes payload) := admittedPayload_logged hpayload
        have hlines : s.rawLines (.gattc env (.notify connId remoteBda handle value isNotify) gattcIf) =
            [s.rawLine env handle value isNotify] := if_pos (by simpa using hnotifies)
        refine ⟨[s.rawLine env handle value isNotify], .cons ?_ .nil, by rw [hlines]⟩
        refine ⟨?_, rfl, rfl, rfl, rfl, rfl, rfl, rfl, hlength, hdata⟩
        unfold rawLine
        dsimp only
        rw [if_neg hbattery, if_neg hchanged, if_pos hreport]
    · cases h

end

/-! ## What a report brings -/

/-- The report as it left the decoder. -/
structure DecodedFrom (platform : Platform) (services : List GattServiceInfo) (report : PendingHIDReport)
    (d : DecodedReport) : Prop where
  raw : d.raw = formatValue platform (.bytes report.payload)
  report : d.report = report
  platform : d.view.platform = platform
  services : d.view.services = services

/-- The arrival is one of the report's. -/
inductive Brings (services : List GattServiceInfo) : Intake → SampledArrival → Prop where
  | report {platform : Platform} {clock : ReportClock} {report : PendingHIDReport} {a : SampledArrival}
      {value : Option HIDReportItemValue} (d : DecodedReport) (hreported : DecodedFrom platform services report d)
      (hevent : a.event = d.event value) : Brings services (.report platform clock report) a

theorem accept_brings (p : Profile) (intake : Intake) :
    ∀ a ∈ (p.accept intake).2.arrivals, Brings p.services intake a := by
  intro a ha
  cases intake with
  | window now => simp [Profile.accept, SamplingStep.arrivals] at ha
  | report platform clock report =>
    obtain ⟨d, hstep, hreported⟩ : ∃ d, (p.accept (.report platform clock report)).2 = .report clock d ∧
        DecodedFrom platform p.services report d := ⟨_, rfl, rfl, rfl, rfl, rfl⟩
    rw [hstep] at ha
    have hmem : a ∈ d.arrivals := ha
    unfold DecodedReport.arrivals at hmem
    split at hmem
    · obtain rfl := List.mem_singleton.mp hmem
      exact .report d hreported rfl
    · obtain ⟨value, -, rfl⟩ := List.mem_map.mp hmem
      have hevent : (d.arrival value).event = d.event (some value) := by
        unfold DecodedReport.arrival
        split <;> rfl
      exact .report d hreported hevent

theorem pair_sublist_append {α : Type} {a b : α} {l l' : List α} (h : [a, b].Sublist (l ++ l')) :
    [a, b].Sublist l ∨ a ∈ l ∧ b ∈ l' ∨ [a, b].Sublist l' := by
  obtain ⟨front, back, heq, hfront, hback⟩ := List.sublist_append_iff.mp h
  rcases front with - | ⟨c, - | ⟨d, rest⟩⟩
  · exact .inr (.inr (heq ▸ hback))
  · obtain ⟨rfl, rfl⟩ := List.cons.inj heq
    exact .inr (.inl ⟨hfront.subset List.mem_cons_self, hback.subset List.mem_cons_self⟩)
  · obtain ⟨rfl, htail⟩ := List.cons.inj heq
    obtain ⟨rfl, hnil⟩ := List.cons.inj htail
    obtain ⟨rfl, -⟩ := List.append_eq_nil_iff.mp hnil.symm
    exact .inl hfront

theorem Sourced.seqIdFrom {mode : SampledEventKey → Aggregation} {key : SampledEventKey} {c : Contribution}
    (h : Sourced mode (.contribution key c)) : c.event.find "seq_id_from" = some (toString c.seqId) := by
  cases h with
  | merged d value hkey hc =>
    have hfrom : (d.event (some value)).find "seq_id_from" = some (toString d.report.seqId) :=
      find_makeHidEvent_envelope _ _ _ _ _ (by simp [envelope])
    rw [hc]
    exact hfrom

theorem accept_services (p : Profile) (intake : Intake) : (p.accept intake).1.services = p.services := by
  have hrenewed := congrArg Profile.services (p.accept_renewed intake)
  exact hrenewed

theorem Profile.arrivals_brings (intakes : List Intake) {p : Profile} {a : SampledArrival}
    (ha : a ∈ p.arrivals intakes) : ∃ intake ∈ intakes, Brings p.services intake a := by
  induction intakes generalizing p with
  | nil => simp [Profile.arrivals] at ha
  | cons intake intakes ih =>
    rcases List.mem_append.mp ha with ha | ha
    · exact ⟨intake, List.mem_cons_self, accept_brings p intake a ha⟩
    · obtain ⟨later, hlater, hbrings⟩ := ih ha
      exact ⟨later, List.mem_cons_of_mem _ hlater, accept_services p intake ▸ hbrings⟩

theorem Profile.arrivals_ordered (intakes : List Intake) {p : Profile} {a b : SampledArrival}
    (h : [a, b].Sublist (p.arrivals intakes)) : ∃ i j, Brings p.services i a ∧ Brings p.services j b ∧
      (i = j ∧ i ∈ intakes ∨ [i, j].Sublist intakes) := by
  induction intakes generalizing p with
  | nil => simp [Profile.arrivals] at h
  | cons intake intakes ih =>
    have hservices := accept_services p intake
    rcases pair_sublist_append h with hboth | ⟨ha, hb⟩ | hlater
    · exact ⟨intake, intake, accept_brings p intake a (hboth.subset List.mem_cons_self),
        accept_brings p intake b (hboth.subset (by simp)), .inl ⟨rfl, List.mem_cons_self⟩⟩
    · obtain ⟨later, hmem, hbrings⟩ := Profile.arrivals_brings intakes hb
      exact ⟨intake, later, accept_brings p intake a ha, hservices ▸ hbrings,
        .inr ((List.singleton_sublist.mpr hmem).cons_cons intake)⟩
    · obtain ⟨i, j, hi, hj, horder⟩ := ih hlater
      refine ⟨i, j, hservices ▸ hi, hservices ▸ hj, ?_⟩
      rcases horder with ⟨rfl, hmem⟩ | hsub
      · exact .inl ⟨rfl, List.mem_cons_of_mem _ hmem⟩
      · exact .inr (hsub.cons intake)

/-! ## Runs -/

theorem arriving_unclaimed {s : BLEClientHID} (h : s.hidReportHandles = ∅) (event : Event) :
    s.arriving event = none := by
  unfold BLEClientHID.arriving
  split
  · rfl
  · split
    · rw [h]
      exact if_pos (.inr (.inr (Finset.notMem_empty _)))
    · rfl

theorem reset_queue {s : BLEClientHID} {event : Event} (h : event.resetsConnection = true) :
    (step s event).pendingReports = [] := by
  cases event with
  | loop env => cases h
  | gattc env event gattcIf =>
    rw [resetsConnection_eq, Bool.and_eq_true] at h
    rw [step_accepted h.1, (handleGattcEvent_reset env h.2).queue]
    rfl

/-- Every report that has reached the queue of this connection has its line. -/
structure LogsReports (platform : Platform) (s : BLEClientHID) (lines : List RawLine) (log : ReportLog) : Prop where
  logged : Logged platform s.services lines (arrivals log)
  early : planning s.setupPhase = true → arrivals log = []
  explains : Explains log [] s.pendingReports

theorem LogsReports.step {platform : Platform} {interval : UInt32} {s : BLEClientHID} {intakes : List Intake}
    {lines : List RawLine} {log : ReportLog} (h : LogsReports platform s lines log) (hreached : Reachable s)
    (hfed : Fed interval s intakes) (hqueued : Queued s) {event : Event} (hplatform : event.env.platform = platform)
    (hone : (step s event).OneSearch) :
    LogsReports platform (BleClientHid.step s event)
      (if event.resetsConnection then [] else lines ++ s.rawLines event)
      (if event.resetsConnection then [] else log ++ s.queueLog event) := by
  obtain ⟨-, hexplains⟩ := (step_acts event hqueued).kept hqueued
  cases hreset : event.resetsConnection with
  | true =>
    refine ⟨Logged.nil _, fun _ => rfl, ?_⟩
    -- a reset empties the queue, the lines and the log together
    rw [reset_queue hreset]
    exact .refl _
  | false =>
    rw [if_neg (by decide), if_neg (by decide)]
    have hnow := arrivals_queueLog s event
    cases hphase : planning s.setupPhase with
    | true =>
      -- before the profiles no notification is claimed, so nothing arrives
      have hnone : arrivals (log ++ s.queueLog event) = [] := by
        rw [arrivals_append, h.early hphase, hnow, arriving_unclaimed (hfed.unfed hphase).2]
        rfl
      refine ⟨?_, fun _ => hnone, h.explains.append hexplains⟩
      rw [hnone]
      exact Logged.nil _
    | false =>
      -- after them the services do not change, and a report logs its own line
      have hlate := step_planning hreached hone hreset hphase
      have hservices : (BleClientHid.step s event).services = s.services := by
        have hprofile := congrArg (·.profile.renewed) (late_pipeline hreached hphase hreset)
        have hrenewed := hprofile.trans (Pipeline.acceptAll_renewed _ _)
        have hservices := congrArg Profile.services hrenewed
        exact hservices
      refine ⟨?_, fun hplanning => absurd (hplanning.symm.trans hlate) (by decide), h.explains.append hexplains⟩
      rw [hservices, arrivals_append, hnow]
      refine h.logged.append ?_
      cases harriving : s.arriving event with
      | none => exact Logged.nil _
      | some report => exact arriving_logged hplatform harriving

theorem run_logsReports (platform : Platform) (discoveryMode : DiscoveryMode) (policy : ProtocolModePolicy)
    (interval : UInt32) (events : List Event)
    (hsearch : ∀ n < events.length, (run (initial discoveryMode policy interval) (events.take (n + 1))).OneSearch)
    (hplatform : ∀ event ∈ events, event.env.platform = platform) :
    LogsReports platform (run (initial discoveryMode policy interval) events)
      (rawLog (initial discoveryMode policy interval) events)
      (connectionLog (initial discoveryMode policy interval) events) := by
  revert hplatform
  refine run_induction (motive := fun events => (∀ event ∈ events, event.env.platform = platform) →
    LogsReports platform (run (initial discoveryMode policy interval) events)
      (rawLog (initial discoveryMode policy interval) events)
      (connectionLog (initial discoveryMode policy interval) events)) (.initial discoveryMode policy interval) ?_
    (fun events event hprefix hreached hone ih hplatform => ?_) events hsearch
  · exact fun _ => ⟨Logged.nil _, fun _ => rfl, .refl _⟩
  · have hbefore := ih fun earlier hearlier => hplatform earlier (List.mem_append_left _ hearlier)
    rw [run_append_singleton, rawLog, connectionLog, history_concat, history_concat]
    exact hbefore.step hreached (run_fed discoveryMode policy interval events hprefix)
      (accounted_run discoveryMode policy interval events).queued (hplatform event (by simp)) hone

theorem processing_platform {env : Env} {fuel n : Nat} {queue : List PendingHIDReport} {p : Platform}
    {clock : ReportClock} {report : PendingHIDReport} (h : .report p clock report ∈ processing env fuel n queue) :
    env.platform = p := by
  induction fuel generalizing n queue with
  | zero => simp [processing] at h
  | succ fuel ih =>
    cases queue with
    | nil => simp [processing] at h
    | cons first rest =>
      unfold processing at h
      split at h
      · rcases List.mem_cons.mp h with hfirst | hlater
        · exact (Intake.report.inj hfirst).1.symm
        · exact ih hlater
      · simp at h

theorem intakes_platform {s : BLEClientHID} {event : Event} {p : Platform} {clock : ReportClock}
    {report : PendingHIDReport} (h : .report p clock report ∈ s.intakes event) : event.env.platform = p := by
  cases event with
  | gattc env event gattcIf => simp [intakes] at h
  | loop env =>
    simp only [intakes, List.mem_cons, List.mem_append, reduceCtorEq, List.not_mem_nil, or_false, false_or] at h
    exact processing_platform h

/-! ## Echoes -/

def undashed (text : String) : String := if text = "-" then "unknown" else text

/-- The event spans the lines from the first to the last, and repeats the last. -/
structure Echoes (first last : RawLine) (event : HIDEvent) : Prop where
  firstHid : first.classification = "HID"
  lastHid : last.classification = "HID"
  seqIdFrom : event.find "seq_id_from" = some (toString first.seqId)
  seqIdTo : event.find "seq_id_to" = some (toString last.seqId)
  handle : event.find "handle" = some (toString last.handle)
  uuid : event.find "characteristic_uuid" = some last.uuid
  reportId : event.find "report_id" = some (undashed last.reportId)
  reportType : event.find "hid_report_type" = some (undashed last.reportType)
  transport : event.find "transport" = some (if last.transport = "notify" then "notification" else "indication")
  length : event.find "length" = some (toString last.length)
  rawData : event.find "raw_data" = some last.data

theorem undashed_reportId (source : HIDReportSource) :
    undashed (rawReportId source) = if source.hasReportId then toString source.reportId else "unknown" := by
  unfold undashed rawReportId
  cases source.hasReportId with
  | false => rfl
  | true => exact if_neg (repr_ne (by decide) _)

theorem undashed_reportType (source : HIDReportSource) : undashed (rawReportType source) = reportTypeName source := by
  unfold undashed rawReportType reportTypeName
  cases source.hasReportType with
  | false => rfl
  | true =>
    simp only [if_true]
    rcases source.reportType with - | - | - | - | n <;> rfl

/-- The entries of an event are those of the line of its report. -/
theorem DecodedFrom.echoes {platform : Platform} {services : List GattServiceInfo} {report : PendingHIDReport}
    {d : DecodedReport} (h : DecodedFrom platform services report d) {first last : RawLine}
    (hfirst : first.classification = "HID") (hline : LineOf platform services last report) {event : HIDEvent}
    (hfrom : event.find "seq_id_from" = some (toString first.seqId)) {value : Option HIDReportItemValue}
    (hothers : ∀ key ∉ ["value", "raw_value", "seq_id_from"], event.find key = (d.event value).find key) :
    Echoes first last event := by
  obtain ⟨hraw, rfl, rfl, rfl⟩ := h
  have hentry {key text : String} (hkey : key ∉ ["value", "raw_value", "seq_id_from"])
      (hmem : (key, text) ∈ (envelope d.view d.report d.raw d.status).data) : event.find key = some text := by
    rw [hothers key hkey]
    exact find_makeHidEvent_envelope _ _ _ _ _ hmem
  refine ⟨hfirst, hline.classification, hfrom, ?_, ?_, ?_, ?_, ?_, ?_, ?_, ?_⟩
  · rw [hline.seqId]
    exact hentry (by decide) (by simp [envelope])
  · rw [hline.handle]
    exact hentry (by decide) (by simp [envelope])
  · rw [hline.uuid]
    exact hentry (by decide) (by simp [envelope, characteristicText])
  · rw [hline.reportId, undashed_reportId]
    exact hentry (by decide) (by simp [envelope])
  · rw [hline.reportType, undashed_reportType]
    exact hentry (by decide) (by simp [envelope])
  · refine hentry (by decide) ?_
    rw [hline.transport]
    cases hnotification : d.report.source.isNotification <;> simp [envelope, hline.hasTransport, hnotification]
  · rw [hline.length]
    exact hentry (by decide) (by simp [envelope])
  · rw [hline.data, ← hraw]
    exact hentry (by decide) (by simp [envelope])

theorem rel_of_mem_right {α β : Type} {R : α → β → Prop} {l : List α} {l' : List β} (h : List.Forall₂ R l l') {b : β}
    (hb : b ∈ l') : ∃ a ∈ l, R a b := by
  induction h with
  | nil => cases hb
  | @cons a b' _ _ hab _ ih =>
    rcases List.mem_cons.mp hb with rfl | hb
    · exact ⟨a, List.mem_cons_self, hab⟩
    · obtain ⟨a', ha', hrel⟩ := ih hb
      exact ⟨a', List.mem_cons_of_mem _ ha', hrel⟩

/-- Two lines of the log, the first not behind the last. -/
def Spans (lines : List RawLine) (first last : RawLine) : Prop :=
  first = last ∧ first ∈ lines ∨ [first, last].Sublist lines

theorem Logged.spans {platform : Platform} {services : List GattServiceInfo} {lines : List RawLine}
    {reports : List PendingHIDReport} (h : Logged platform services lines reports) {r r' : PendingHIDReport}
    (horder : r = r' ∧ r ∈ reports ∨ [r, r'].Sublist reports) :
    ∃ first last, LineOf platform services first r ∧ LineOf platform services last r' ∧ Spans lines first last := by
  rcases horder with ⟨rfl, hmem⟩ | hsub
  · obtain ⟨own, hlines, hown⟩ := h.sublist (List.singleton_sublist.mpr hmem)
    obtain ⟨line, rest, hline, hrest, rfl⟩ := List.forall₂_cons_right_iff.mp hlines
    exact ⟨line, line, hline, hline, .inl ⟨rfl, hown.subset List.mem_cons_self⟩⟩
  · obtain ⟨own, hlines, hown⟩ := h.sublist hsub
    obtain ⟨first, rest, hfirst, hrest, rfl⟩ := List.forall₂_cons_right_iff.mp hlines
    obtain ⟨last, rest', hlast, hnil, rfl⟩ := List.forall₂_cons_right_iff.mp hrest
    obtain rfl := List.forall₂_nil_right_iff.mp hnil
    exact ⟨first, last, hfirst, hlast, .inr hown⟩

section

variable {platform : Platform} {interval : UInt32} {s : BLEClientHID} {lines : List RawLine} {log : ReportLog}
  {intakes : List Intake}

/-- The first line is that of the first arrival of an emission, the last that of the last. -/
theorem LogsReports.echoes (h : LogsReports platform s lines log)
    (hdone : intakes.filterMap Intake.report? = done log)
    (hplatform : ∀ intake ∈ intakes, ∀ p clock report, intake = .report p clock report → p = platform)
    {i j : Intake} {a b : SampledArrival} (hi : Brings s.services i a) (hj : Brings s.services j b)
    (horder : i = j ∧ i ∈ intakes ∨ [i, j].Sublist intakes) {event : HIDEvent}
    (hfrom : event.find "seq_id_from" = a.event.find "seq_id_from")
    (hothers : ∀ key ∉ ["value", "raw_value", "seq_id_from"], event.find key = b.event.find key) :
    ∃ first last, Echoes first last event ∧ Spans lines first last := by
  obtain @⟨p, clock, report, _, value, d, hreported, hevent⟩ := hi
  obtain @⟨p', clock', report', _, value', d', hreported', hevent'⟩ := hj
  have hmem : Intake.report p' clock' report' ∈ intakes := by
    rcases horder with ⟨heq, hmem⟩ | hsub
    · exact heq ▸ hmem
    · exact hsub.subset (by simp)
  obtain rfl := hplatform _ hmem _ _ _ rfl
  have hreports : report = report' ∧ report ∈ arrivals log ∨ [report, report'].Sublist (arrivals log) := by
    have hsublist : (intakes.filterMap Intake.report?).Sublist (arrivals log) := hdone ▸ h.explains.done_sublist
    rcases horder with ⟨heq, hmem⟩ | hsub
    · obtain ⟨-, -, rfl⟩ := Intake.report.inj heq
      exact .inl ⟨rfl, hsublist.subset (List.mem_filterMap.mpr ⟨_, hmem, rfl⟩)⟩
    · exact .inr ((hsub.filterMap Intake.report?).trans hsublist)
  obtain ⟨first, last, hfirst, hlast, hspans⟩ := h.logged.spans hreports
  have hseqId : event.find "seq_id_from" = some (toString first.seqId) := by
    have hseq : (d.event value).find "seq_id_from" = some (toString d.report.seqId) :=
      find_makeHidEvent_envelope _ _ _ _ _ (by simp [envelope])
    rw [hfrom, hevent, hseq, hreported.report, hfirst.seqId]
  have hentries : ∀ key ∉ ["value", "raw_value", "seq_id_from"], event.find key = (d'.event value').find key :=
    fun key hkey => (hothers key hkey).trans (congrArg (HIDEvent.find · key) hevent')
  exact ⟨first, last, hreported'.echoes hfirst.classification hlast hseqId hentries, hspans⟩

end

/-- Whatever is coalesced, every event a connection publishes names the log lines of the notifications it covers: the
first and the last, both of this connection and in this order, and says what the last one says. -/
theorem published_traceable (discoveryMode : DiscoveryMode) (policy : ProtocolModePolicy) (interval : UInt32)
    (events : List Event) (platform : Platform)
    (hsearch : ∀ n < events.length, (run (initial discoveryMode policy interval) (events.take (n + 1))).OneSearch)
    (hplatform : ∀ event ∈ events, event.env.platform = platform) :
    ∀ event ∈ (run (initial discoveryMode policy interval) events).hidEvents, ∃ first last,
      Echoes first last event ∧ Spans (rawLog (initial discoveryMode policy interval) events) first last := by
  intro event hevent
  have hfed := run_fed discoveryMode policy interval events hsearch
  have hlogs := run_logsReports platform discoveryMode policy interval events hsearch hplatform
  have hplatforms : ∀ intake ∈ received (initial discoveryMode policy interval) events,
      ∀ p clock report, intake = .report p clock report → p = platform := by
    rintro intake hintake p clock report rfl
    obtain ⟨earlier, hearlier, t, ht⟩ := mem_history hintake
    rw [← hplatform earlier hearlier]
    exact (intakes_platform ht).symm
  obtain ⟨emissions, hcarries, hsublist⟩ := hfed.published
  obtain ⟨emission, hemission, hcarried⟩ := rel_of_mem_right hcarries hevent
  have harrivals := hsublist emission hemission
  have hreports := received_reports (initial discoveryMode policy interval) events
  cases hcarried with
  | barrier =>
    obtain ⟨intake, hintake, hbrings⟩ := Profile.arrivals_brings _ (harrivals.subset List.mem_cons_self)
    exact hlogs.echoes hreports hplatforms hbrings hbrings (.inl ⟨rfl, hintake⟩) rfl fun _ _ => rfl
  | @block b _ hblock =>
    have hmem (c : Contribution) (hc : c ∈ b.contributions) := harrivals.subset (List.mem_map.mpr ⟨c, hc, rfl⟩)
    have hfrom : event.find "seq_id_from" = b.first.event.find "seq_id_from" := by
      rw [hblock.seqIdFrom, (hfed.sourced _ (hmem b.first List.mem_cons_self)).seqIdFrom]
    rcases b.first_last with hsame | hpair
    · obtain ⟨intake, hintake, hbrings⟩ := Profile.arrivals_brings _ (hmem b.last b.last_mem)
      exact hlogs.echoes hreports hplatforms hbrings hbrings (.inl ⟨rfl, hintake⟩) (hsame ▸ hfrom) hblock.others
    · have hboth := (hpair.map (Arrival.contribution (β := HIDEvent) b.key)).trans harrivals
      obtain ⟨i, j, hi, hj, horder⟩ := Profile.arrivals_ordered _ hboth
      exact hlogs.echoes hreports hplatforms hi hj horder hfrom hblock.others

theorem published_traceable_keyboard :
    (run (initial .standard .unchanged 500) secondConnection).hidEvents ≠ [] ∧
    ∀ event ∈ (run (initial .standard .unchanged 500) secondConnection).hidEvents, ∃ first last,
      Echoes first last event ∧ Spans (rawLog (initial .standard .unchanged 500) secondConnection) first last := by
  refine ⟨by decide +kernel, published_traceable .standard .unchanged 500 secondConnection examplePlatform
    (by decide +kernel) ?_⟩
  intro event hevent
  simp only [secondConnection, keyHeld, keyboardSetup, List.mem_append] at hevent
  rcases hevent with ((hevent | hevent) | hevent) | hevent <;>
    · obtain ⟨answer, -, rfl⟩ := List.mem_map.mp hevent
      cases answer <;> rfl

end BleClientHid
