import BleClientHid.Component.Catalog
import BleClientHid.Component.Ready

/-! # READY and the Protocol Mode

Each handle that the contexts hold is written, or the setup degrades. A service
that exposes no Protocol Mode leaves no handle, and nothing notices.
-/

namespace BleClientHid

open Setup

variable {fails : Bool}

/-! ## Requested and exposed -/

def ModeAccepted (s : BLEClientHID) : Prop :=
  ∀ service ∈ s.services, uuid16 service.uuid uuidHidService = true →
    ∃ characteristic ∈ service.characteristics, uuid16 characteristic.uuid uuidHidProtocolMode = true ∧
      .writeChar characteristic.handle (BLEClientHID.requestedMode s.protocolModePolicy) true ∈ s.trace

/-- The handles that the profiles keep, 0 where a HID service has no Protocol Mode. -/
def modeHandles (services : List GattServiceInfo) : List Nat :=
  (hidServicesOf services).map fun service => lastMode service.characteristics 0

def ModeExposed (s : BLEClientHID) : Prop :=
  ∀ service ∈ s.services, uuid16 service.uuid uuidHidService = true →
    ∃ characteristic ∈ service.characteristics, uuid16 characteristic.uuid uuidHidProtocolMode = true ∧
      characteristic.handle ≠ 0 ∧ characteristic.handle ∈ modeHandles s.services

theorem lastMode_of_none {characteristics : List GattCharacteristicInfo}
    (h : ∀ characteristic ∈ characteristics, uuid16 characteristic.uuid uuidHidProtocolMode = false) (last : Nat) :
    lastMode characteristics last = last := by
  unfold lastMode
  induction characteristics with
  | nil => rfl
  | cons characteristic rest ih =>
    obtain ⟨hhead, hrest⟩ := List.forall_mem_cons.mp h
    simp [hhead, ih hrest]

/-- With a Protocol Mode characteristic, what was there before does not matter. -/
theorem lastMode_of_mem {characteristics : List GattCharacteristicInfo} {characteristic : GattCharacteristicInfo}
    (hmem : characteristic ∈ characteristics) (hmode : uuid16 characteristic.uuid uuidHidProtocolMode = true)
    (last last' : Nat) : lastMode characteristics last = lastMode characteristics last' := by
  unfold lastMode
  induction characteristics generalizing last last' with
  | nil => simp at hmem
  | cons head rest ih =>
    rw [List.foldl_cons, List.foldl_cons]
    rcases List.mem_cons.mp hmem with rfl | hrest
    · rw [if_pos hmode, if_pos hmode]
    · exact ih hrest _ _

/-! ## The invariant -/

/-- An accepted write of the handle. -/
def Asked (handle value : Nat) (log : List TraceEntry) : Prop := .writeChar handle value true ∈ log

structure ModeLaw (s : Setup) : Prop where
  unexposed : s.degraded = false → ∀ service ∈ s.services, uuid16 service.uuid uuidHidService = true →
    (∀ characteristic ∈ service.characteristics, uuid16 characteristic.uuid uuidHidProtocolMode = false) →
      ∀ handle, modeHandleOf s.contexts service.serviceInstance = some handle → handle = 0
  exposed : built s.setupPhase = true → s.degraded = false → ∀ service ∈ s.services,
    uuid16 service.uuid uuidHidService = true →
      modeHandleOf s.contexts service.serviceInstance = some (lastMode service.characteristics 0)
  written : built s.setupPhase = true → s.degraded = false →
    ∀ handle ∈ protocolHandles s.protocolModePolicy s.contexts,
    handle ∈ s.protocolWriteHandles ∨ Asked handle (BLEClientHID.requestedMode s.protocolModePolicy) s.trace
  handles : built s.setupPhase = true → s.degraded = false → ∀ handle ∈ s.protocolWriteHandles,
    handle ∈ protocolHandles s.protocolModePolicy s.contexts
  emptied : built s.setupPhase = true → s.setupPhase ≠ .writingProtocolMode → s.degraded = false →
    s.protocolWriteHandles = []
  asked : s.degraded = false → ∀ handle value, Asked handle value s.trace →
    built s.setupPhase = true ∧ handle ∈ protocolHandles s.protocolModePolicy s.contexts

namespace ModeLaw

variable {s t : Setup}

theorem of_degraded (h : s.degraded = true) : ModeLaw s where
  unexposed hd := by simp [h] at hd
  exposed _ hd := by simp [h] at hd
  written _ hd := by simp [h] at hd
  handles _ hd := by simp [h] at hd
  emptied _ _ hd := by simp [h] at hd
  asked hd := by simp [h] at hd

/-- The phase stays on its side of the profiles, and nothing is written. -/
theorem keep (h : ModeLaw s) (hpolicy : t.protocolModePolicy = s.protocolModePolicy)
    (hservices : t.services = s.services)
    (hcontexts : t.contexts = s.contexts) (hhandles : t.protocolWriteHandles = s.protocolWriteHandles)
    (hdegraded : t.degraded = false → s.degraded = false) (hbuilt : built t.setupPhase = built s.setupPhase)
    (hwriting : s.setupPhase = .writingProtocolMode → t.setupPhase = .writingProtocolMode)
      (htrace : s.trace <+: t.trace)
    (hasked : ∀ handle value, Asked handle value t.trace → Asked handle value s.trace) : ModeLaw t where
  unexposed hd := by
    rw [hservices, hcontexts]
    exact h.unexposed (hdegraded hd)
  exposed hp hd := by
    rw [hservices, hcontexts]
    exact h.exposed (hbuilt ▸ hp) (hdegraded hd)
  written hp hd handle hhandle := by
    rw [hpolicy, hcontexts] at hhandle
    rw [hhandles, hpolicy]
    exact (h.written (hbuilt ▸ hp) (hdegraded hd) handle hhandle).imp_right fun hold => htrace.subset hold
  handles hp hd := by
    rw [hhandles, hpolicy, hcontexts]
    exact h.handles (hbuilt ▸ hp) (hdegraded hd)
  emptied hp hphase hd := by
    rw [hhandles]
    exact h.emptied (hbuilt ▸ hp) (fun hs => hphase (hwriting hs)) (hdegraded hd)
  asked hd handle value hnew := by
    rw [hbuilt, hpolicy, hcontexts]
    exact h.asked (hdegraded hd) handle value (hasked handle value hnew)

theorem unbuilt (hphase : built t.setupPhase = false) (hasked : ∀ handle value, ¬ Asked handle value t.trace)
    (hunexposed : t.degraded = false → ∀ service ∈ t.services, uuid16 service.uuid uuidHidService = true →
      (∀ characteristic ∈ service.characteristics, uuid16 characteristic.uuid uuidHidProtocolMode = false) →
        ∀ handle, modeHandleOf t.contexts service.serviceInstance = some handle → handle = 0) : ModeLaw t where
  unexposed := hunexposed
  exposed hp := by simp [hphase] at hp
  written hp := by simp [hphase] at hp
  handles hp := by simp [hphase] at hp
  emptied hp := by simp [hphase] at hp
  asked _ handle value h := absurd h (hasked handle value)

end ModeLaw

theorem not_mem_of_notes {entries : List TraceEntry} (h : Notes entries) (handle value : Nat) (accepted : Bool) :
    .writeChar handle value accepted ∉ entries := by
  intro hmem
  have hnote := h _ hmem
  simp [TraceEntry.isNote] at hnote

theorem modeHandleOf_contextsOf {services : List GattServiceInfo} {i handle : Nat}
    (h : modeHandleOf (contextsOf services) i = some handle) : handle = 0 := by
  unfold modeHandleOf at h
  obtain ⟨context, hfind, rfl⟩ := Option.map_eq_some_iff.mp h
  have hmem := List.mem_of_find?_eq_some hfind
  unfold contextsOf at hmem
  obtain ⟨service, -, rfl⟩ := List.mem_map.mp hmem
  rfl

/-- After a planned read a handle is an old one, or that of a Protocol Mode characteristic of its service. -/
theorem Setup.ReadEffect.mode {operation : GattReadOperation} {s : Setup} {contexts : List HIDServiceContext}
    {sources : List (Nat × HIDReportSource)} {d : Bool} (heffect : ReadEffect operation s contexts sources d)
    (hwanted : operation ∈ BLEClientHID.wantedReads s.discoveryMode s.services) {i handle : Nat}
    (hhandle : modeHandleOf contexts i = some handle) :
    modeHandleOf s.contexts i = some handle ∨
      ∃ service ∈ s.services, service.serviceInstance = i ∧ uuid16 service.uuid uuidHidService = true ∧
        ∃ characteristic ∈ service.characteristics, uuid16 characteristic.uuid uuidHidProtocolMode = true ∧
          characteristic.handle = handle := by
  cases heffect with
  | plain | reference => exact .inl hhandle
  | reportMap hash m hpurpose =>
    rw [modeHandleOf_updateContext (by intro context; rfl) (by intro context; rfl)] at hhandle
    exact .inl hhandle
  | protocolMode mode hpurpose =>
    unfold modeHandleOf at hhandle
    rw [findHidContext_updateContext (by intro context; rfl)] at hhandle
    split at hhandle
    · rename_i hsame
      obtain ⟨service, hservice, characteristic, hmem, hinstance, hcharacteristic, hstandard⟩ :=
        BLEClientHID.mem_wantedReads hwanted (.inr hpurpose)
      rw [hpurpose] at hstandard
      obtain ⟨hhid, hshort⟩ := BLEClientHID.standardPurpose_protocolMode hstandard
      refine .inr ⟨service, hservice, hinstance.symm.trans hsame, hhid, characteristic, hmem,
        BLEClientHID.uuid16_of_short hshort (by decide), ?_⟩
      rw [← hcharacteristic]
      cases hfind : findHidContext s.contexts i with
      | none => simp [hfind] at hhandle
      | some context =>
        rw [hfind] at hhandle
        exact Option.some.inj hhandle
    · exact .inl hhandle

/-- A read leaves a handle only where a Protocol Mode characteristic was planned. -/
theorem ModeLaw.read {s : Setup} (h : ModeLaw s) (hcatalog : Catalog s) (hd : s.degraded = false)
    {operation : GattReadOperation} (hactive : s.activeRead = some operation) {contexts : List HIDServiceContext}
    {sources : List (Nat × HIDReportSource)} {d : Bool} (heffect : ReadEffect operation s contexts sources d)
    {service : GattServiceInfo} (hservice : service ∈ s.services) (hhid : uuid16 service.uuid uuidHidService = true)
    (hnone : ∀ characteristic ∈ service.characteristics, uuid16 characteristic.uuid uuidHidProtocolMode = false)
    {handle : Nat} (hhandle : modeHandleOf contexts service.serviceInstance = some handle) : handle = 0 := by
  have hwanted := mem_of_mem_firstReads (hcatalog.planned hd operation (.inr hactive))
  rcases heffect.mode hwanted hhandle with hold | ⟨service', hservice', hsame, -, characteristic, hmem, hmode, -⟩
  · exact h.unexposed hd service hservice hhid hnone handle hold
  · -- the read belongs to this service, which has a Protocol Mode characteristic then
    obtain rfl : service' = service := List.inj_on_of_nodup_map hcatalog.distinct hservice' hservice hsame
    simp [hnone characteristic hmem] at hmode

namespace ModeLaw

theorem unasked {s : Setup} (h : ModeLaw s) (hphase : built s.setupPhase = false) (hd : s.degraded = false)
    (handle value : Nat) : ¬ Asked handle value s.trace := by
  intro hasked
  have hbuilt := (h.asked hd handle value hasked).1
  simp [hphase] at hbuilt

/-- The profiles leave each HID service with its last Protocol Mode characteristic, or with none. -/
theorem exposed_buildHidProfiles {s : BLEClientHID} (hcatalog : Catalog s.setup) (h : ModeLaw s.setup)
    (hd : s.buildHidProfiles.degraded = false) {service : GattServiceInfo}
    (hservice : service ∈ s.buildHidProfiles.services) (hhid : uuid16 service.uuid uuidHidService = true) :
    modeHandleOf s.buildHidProfiles.setup.collectWrites.contexts service.serviceInstance =
      some (lastMode service.characteristics 0) := by
  obtain ⟨-, -, hservices, -, -, -⟩ := s.buildHidProfiles_same
  rw [hservices] at hservice
  obtain ⟨context, hcontext⟩ := hcatalog.context hservice hhid
  have hold : modeHandleOf s.hidServices service.serviceInstance = some context.protocolModeHandle := by
    rw [← modeHandleOf_fixed]
    exact congrArg (Option.map _) hcontext
  have hfold := (BLEClientHID.foldl_profileService_spec s.services hcatalog.distinct s hservice hhid).1
  change modeHandleOf (s.buildHidProfiles.hidServices.map _) _ = _
  rw [modeHandleOf_fixed, BLEClientHID.buildHidProfiles, hfold, hold, Option.map_some, Option.some.injEq]
  by_cases hmode : ∃ characteristic ∈ service.characteristics,
      uuid16 characteristic.uuid uuidHidProtocolMode = true
  · obtain ⟨characteristic, hmem, hmode⟩ := hmode
    exact lastMode_of_mem hmem hmode _ _
  · have hnone : ∀ characteristic ∈ service.characteristics,
        uuid16 characteristic.uuid uuidHidProtocolMode = false := by simpa using hmode
    have hzero := h.unexposed (BLEClientHID.degraded_of_profiles s.buildHidProfiles_profiles hd) service hservice
      hhid hnone context.protocolModeHandle (by rw [← hold]; exact modeHandleOf_fixed _ _)
    rw [hzero]

theorem buildProfiles {s : BLEClientHID} (hcatalog : Catalog s.setup) (h : ModeLaw s.setup)
    (hphase : s.setupPhase = .buildingProfile) : ModeLaw s.buildHidProfiles.setup.collectWrites := by
  have hbuilding : s.setup.setupPhase = .buildingProfile := hphase
  obtain ⟨-, -, -, -, -, hsame⟩ := s.buildHidProfiles_same
  refine ⟨fun hd service hservice hhid hnone handle hhandle => ?_,
    fun _ hd service hservice hhid => h.exposed_buildHidProfiles hcatalog hd hservice hhid,
    fun _ _ handle hhandle => .inl hhandle, fun _ _ handle hhandle => hhandle,
    fun _ hwriting => absurd rfl hwriting, fun hd handle value hnew => ?_⟩
  · rw [h.exposed_buildHidProfiles hcatalog hd hservice hhid, lastMode_of_none hnone] at hhandle
    exact (Option.some.inj hhandle).symm
  · have hasked : Asked handle value s.trace := by
      have hnew' : Asked handle value (s.buildHidProfiles.trace ++ [.transition .writingProtocolMode]) := hnew
      rw [hsame] at hnew'
      simpa [Asked] using hnew'
    exact absurd hasked (h.unasked (by simp [hbuilding, built, subscribing])
      (BLEClientHID.degraded_of_profiles s.buildHidProfiles_profiles hd) handle value)

/-- An accepted write leaves the handles to be written and joins the ones asked for. -/
theorem writeMode {s : Setup} (h : ModeLaw s) (handle : Nat) (rest : List Nat) (entries : List TraceEntry)
    (hphase : s.setupPhase = .writingProtocolMode) (hhandles : s.protocolWriteHandles = handle :: rest)
    (hnotes : Notes entries) :
    ModeLaw ({ s with protocolWriteHandles := rest }.marked false
      (.writeChar handle (BLEClientHID.requestedMode s.protocolModePolicy) true :: entries)) := by
  have hbuilt : built s.setupPhase = true := by simp [hphase, built]
  have hor {d : Bool} (hd : (s.degraded || d) = false) : s.degraded = false := (Bool.or_eq_false_iff.mp hd).1
  refine ⟨fun hd => h.unexposed (hor hd), fun hp hd => h.exposed hbuilt (hor hd), fun _ hd handle' hhandle' => ?_,
    fun _ hd handle' hrest => ?_, fun _ hwriting => absurd hphase hwriting, fun hd handle' value hnew => ?_⟩
  · rcases h.written hbuilt (hor hd) handle' hhandle' with hwaiting | hold
    · rw [hhandles] at hwaiting
      rcases List.mem_cons.mp hwaiting with rfl | hrest
      · exact .inr (by simp [Asked, marked])
      · exact .inl hrest
    · exact .inr (List.mem_append_left _ hold)
  · apply h.handles hbuilt (hor hd) handle'
    rw [hhandles]
    exact List.mem_cons_of_mem _ hrest
  · simp only [Asked, marked, List.mem_append, List.mem_cons, not_mem_of_notes hnotes, or_false] at hnew
    rcases hnew with hold | heq
    · exact h.asked (hor hd) handle' value hold
    · refine ⟨hbuilt, h.handles hbuilt (hor hd) handle' ?_⟩
      rw [hhandles, (TraceEntry.writeChar.inj heq).1]
      exact List.mem_cons_self

end ModeLaw

theorem Setup.Move.modeLaw {s t : Setup} (hphased : Phased s) (hcatalog : Catalog s) (h : ModeLaw s)
    (hmove : Move fails s t) : ModeLaw t := by
  have hor {d : Bool} (hd : (s.degraded || d) = false) : s.degraded = false := (Bool.or_eq_false_iff.mp hd).1
  have htrace := hmove.trace
  cases hmove with
  | mark d entries hnotes =>
    refine h.keep rfl rfl rfl rfl hor rfl id htrace fun handle value hnew => ?_
    simpa [Asked, marked, not_mem_of_notes hnotes] using hnew
  | inventory services hphase =>
    -- new contexts know no handle yet
    by_cases hd : s.degraded = true
    · exact .of_degraded hd
    · exact .unbuilt (by simp [hphase, built, subscribing])
        (h.unasked (by simp [hphase, built, subscribing]) (by simpa using hd))
        fun _ service _ _ _ handle hhandle => modeHandleOf_contextsOf hhandle
  | inventoryFailed entries hphase hnotes hdegraded => exact .of_degraded hdegraded
  | noHid hphase | planReads queue hphase | readsDone hphase =>
    refine h.keep rfl rfl rfl rfl id (by rw [hphase]; rfl) (by simp [hphase]) htrace ?_
    simp [Asked, goto]
  | startRead operation rest accepted entries hphase hidle hqueue hnotes =>
    refine h.keep rfl rfl rfl rfl hor rfl id htrace fun handle value hnew => ?_
    simpa [Asked, marked, not_mem_of_notes hnotes] using hnew
  | finishRead operation contexts sources d entries hactive heffect hnotes =>
    -- only the read of a Protocol Mode brings a handle
    have hreading := hphased.reading_of_active hactive
    by_cases hd : s.degraded = true
    · exact .of_degraded (by simp [marked, hd])
    · rw [Bool.not_eq_true] at hd
      refine .unbuilt (by simp [marked, hreading, built, subscribing]) (fun handle value hnew => ?_) ?_
      · apply h.unasked (by simp [hreading, built, subscribing]) hd handle value
        simpa [Asked, marked, not_mem_of_notes hnotes] using hnew
      · intro _ service hservice hhid hnone handle hhandle
        exact h.read hcatalog hd hactive heffect hservice hhid hnone hhandle
  | buildProfiles s hphase => exact h.buildProfiles hcatalog hphase
  | writeMode handle rest accepted entries hphase hhandles hnotes =>
    -- a write that is refused degrades, and then nothing is claimed
    cases accepted with
    | false => exact .of_degraded (by simp [marked])
    | true => exact h.writeMode handle rest entries hphase hhandles hnotes
  | planSubscriptions queue hphase hhandles =>
    -- the queue of writes is empty here, so every handle has been written
    have hbuilt : built s.setupPhase = true := by simp [hphase, built]
    refine ⟨h.unexposed, fun _ => h.exposed hbuilt, fun _ hd handle hhandle => ?_, fun _ => h.handles hbuilt,
      fun _ _ _ => hhandles, fun hd handle value hnew => ?_⟩
    · exact (h.written hbuilt hd handle hhandle).imp_right fun hold => htrace.subset hold
    · exact ⟨by simp [goto, built, subscribing], (h.asked hd handle value (by simpa [Asked, goto] using hnew)).2⟩
  | begin | registrationIgnored | cccdIgnored | retry | writeCccd =>
    exact h.keep rfl rfl rfl rfl id rfl id htrace (by simp [Asked, append, begun])
  | beginWithoutCccd sub rest entries _ _ _ _ hnotes | notScheduled sub entries _ hnotes =>
    refine h.keep rfl rfl rfl rfl hor rfl id htrace fun handle value hnew => ?_
    simpa [Asked, abandon, begun, not_mem_of_notes hnotes] using hnew
  | registered sub fallbackAtMs hactive | complete sub hactive =>
    have hsubscribing := hphased.subscribing_of_active hactive
    refine h.keep rfl rfl rfl rfl id (by rw [built_of_subscribing hsubscribing]; rfl) (fun hwriting => ?_) htrace ?_
    · simp [hwriting, subscribing] at hsubscribing
    · simp [Asked, goto, append]
  | registrationFailed sub entries hactive hnotes | writeRejected sub value entries hactive _ hnotes
  | cccdFailed sub entries hfails hactive _ hnotes =>
    have hsubscribing := hphased.subscribing_of_active hactive
    refine h.keep rfl rfl rfl rfl hor (by rw [built_of_subscribing hsubscribing]; rfl) (fun hwriting => ?_)
      htrace ?_
    · simp [hwriting, subscribing] at hsubscribing
    · intro handle value hnew
      simpa [Asked, goto, abandon, not_mem_of_notes hnotes] using hnew
  | finish entries hphase _ _ hnotes =>
    -- an end without a mark takes nothing back
    by_cases hd : s.degraded = true
    · exact .of_degraded hd
    · rw [Bool.not_eq_true] at hd
      refine h.keep rfl rfl rfl rfl id ?_ (by simp [hphase]) htrace fun handle value hnew => ?_
      · simp [Setup.finish, append, goto, hd, hphase, built, subscribing]
      · simpa [Asked, Setup.finish, goto, append, not_mem_of_notes hnotes] using hnew
  | readTimeout | subscriptionTimeout | timeout => exact .of_degraded (by simp [goto, marked])

theorem ModeLaw.searched {s : Setup} (h : ModeLaw s) (hbefore : beforeSearch s.setupPhase = true)
    (status : GattStatus)
    (entries : List TraceEntry) : ModeLaw (s.searched status entries) := by
  unfold Setup.searched
  split
  · refine h.keep rfl rfl rfl rfl id ?_ ?_ (by simp [goto, append]) (by simp [Asked, goto, append])
    · have hunbuilt : built s.setupPhase = false := by
        revert hbefore
        cases s.setupPhase <;> decide
      rw [hunbuilt]
      rfl
    · intro hphase
      simp [hphase, beforeSearch] at hbefore
  · exact .of_degraded (by simp [goto, marked])

theorem reachable_modeLaw {s : BLEClientHID} (h : Reachable s) :
    Phased s.setup ∧ Catalog s.setup ∧ ModeLaw s.setup := by
  refine catalog_invariant ModeLaw ?_ ?_ ?_ ?_ h
  · intro discoveryMode policy
    exact .unbuilt rfl (by simp [Asked, Setup.initial]) (by simp [Setup.initial])
  · intro fails s t hphased hcatalog hinv hmove
    exact hmove.modeLaw hphased hcatalog hinv
  · intro s phase entries hnotes hphase
    refine .unbuilt ?_ (fun handle value hasked => ?_) (by simp [reset])
    · cases phase <;> simp_all [beforeSearch, reset, built, subscribing]
    · exact not_mem_of_notes hnotes handle value true hasked
  · intro s status entries _ _ hbefore hinv
    exact hinv.searched hbefore status entries

/-! ## Ready components -/

/-- The handles that are written are those of the services, where there are any. -/
theorem mem_protocolHandles {s : Setup} (hcatalog : Catalog s) (hpolicy : s.protocolModePolicy ≠ .unchanged)
    (hexposed : ∀ service ∈ s.services, uuid16 service.uuid uuidHidService = true →
      modeHandleOf s.contexts service.serviceInstance = some (lastMode service.characteristics 0)) (handle : Nat) :
    handle ∈ protocolHandles s.protocolModePolicy s.contexts ↔ handle ≠ 0 ∧ handle ∈ modeHandles s.services := by
  unfold protocolHandles modeHandles
  rw [if_neg hpolicy, List.mem_filter, List.mem_map, List.mem_map, and_comm, decide_eq_true_eq]
  refine and_congr_right fun _ => ⟨?_, ?_⟩
  · rintro ⟨context, hcontext, rfl⟩
    have hinstance : context.serviceInstance ∈ (hidServicesOf s.services).map (·.serviceInstance) := by
      rw [← hcatalog.contexts]
      exact List.mem_map_of_mem hcontext
    obtain ⟨service, hservice, hsame⟩ := List.mem_map.mp hinstance
    obtain ⟨hmem, hhid⟩ := List.mem_filter.mp hservice
    refine ⟨service, hservice, ?_⟩
    have hhandle := hexposed service hmem hhid
    unfold modeHandleOf at hhandle
    rw [hsame, findHidContext_of_mem hcatalog.contexts_distinct hcontext] at hhandle
    exact (Option.some.inj hhandle).symm
  · rintro ⟨service, hservice, rfl⟩
    obtain ⟨hmem, hhid⟩ := List.mem_filter.mp hservice
    obtain ⟨context, hfind, hhandle⟩ := Option.map_eq_some_iff.mp (hexposed service hmem hhid)
    exact ⟨context, List.mem_of_find?_eq_some hfind, hhandle⟩

/-- In a ready component the requested mode is accepted exactly where every HID service exposes one. -/
theorem modeAccepted_iff {s : BLEClientHID} (h : Reachable s) (hready : s.setupPhase = .ready)
    (hpolicy : s.protocolModePolicy ≠ .unchanged) : ModeAccepted s ↔ ModeExposed s := by
  obtain ⟨hphased, hcatalog, hlaw⟩ := reachable_modeLaw h
  have hphase : s.setup.setupPhase = .ready := hready
  have hbuilt : built s.setup.setupPhase = true := by simp [hphase, built]
  have hdegraded : s.setup.degraded = false := (reachable_ready h).2.complete hready
  have hempty := hlaw.emptied hbuilt (by simp [hphase]) hdegraded
  have hhandles := mem_protocolHandles hcatalog hpolicy (hlaw.exposed hbuilt hdegraded)
  -- a handle is written exactly when it is one of the services'
  have hasked (handle : Nat) : Asked handle (BLEClientHID.requestedMode s.protocolModePolicy) s.trace ↔
      handle ≠ 0 ∧ handle ∈ modeHandles s.services := by
    refine Iff.trans ⟨fun hnew => (hlaw.asked hdegraded handle _ hnew).2, fun hhandle => ?_⟩ (hhandles handle)
    rcases hlaw.written hbuilt hdegraded handle hhandle with hwaiting | hdone
    · simp [hempty] at hwaiting
    · exact hdone
  unfold ModeAccepted ModeExposed
  simp only [← hasked]
  rfl

/-- A Protocol Mode that can be written, not read. -/
def modeCharacteristic : GattCharacteristicInfo := { uuid := .uuid16 0x2A4E, handle := 9, properties := 0x04 }

def modeServices : List GattServiceInfo :=
  [hidService [reportMapCharacteristic, reportCharacteristic, modeCharacteristic]]

def modeSetup : List Event :=
  exampleRun modeServices (connectAndSearch ++ [none] ++ readReportMap ++ readReference ++ [none] ++ subscribe)

/-- The keyboard with a Protocol Mode is asked for Report mode. -/
theorem modeAccepted_keyboard : ModeAccepted (run (initial .standard .report 0) modeSetup) := by
  refine (modeAccepted_iff (reachable_run (.initial .standard .report 0) modeSetup (by decide +kernel))
    (by decide +kernel) (by decide +kernel)).mpr ?_
  have hservices : (run (initial .standard .report 0) modeSetup).services = modeServices := by decide +kernel
  intro service hservice hhid
  rw [hservices] at hservice ⊢
  obtain rfl := List.mem_singleton.mp hservice
  exact ⟨modeCharacteristic, by decide, rfl, by decide, by decide⟩

/-- The keyboard without one gets ready all the same. -/
theorem ready_without_mode :
    ¬ ∀ s, Reachable s → s.protocolModePolicy ≠ .unchanged → s.setupPhase = .ready → ModeAccepted s := by
  intro hclaim
  have hreached := reachable_run (.initial .standard .report 0) keyboardSetup (by decide +kernel)
  have hservices : (run (initial .standard .report 0) keyboardSetup).services =
    keyboardServices := by decide +kernel
  obtain ⟨characteristic, hmem, hmode, -⟩ := hclaim _ hreached (by decide +kernel) (by decide +kernel)
    (hidService [reportMapCharacteristic, reportCharacteristic]) (by rw [hservices]; decide) (by decide)
  have hnone : ∀ characteristic ∈ (hidService [reportMapCharacteristic, reportCharacteristic]).characteristics,
      uuid16 characteristic.uuid uuidHidProtocolMode = false := by decide
  simp [hnone characteristic hmem] at hmode

end BleClientHid
