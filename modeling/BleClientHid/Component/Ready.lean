import BleClientHid.Component.Attempts

/-! # READY means that the subscriptions are live

Every HID input that can be subscribed waits in the queue, is being subscribed,
or has been: registered first, its CCCD written after that. A subscription that
is given up degrades the setup.
-/

namespace BleClientHid

open Setup

variable {fails : Bool}

/-! ## What the log shows -/

/-- A successful registration of the active subscription, in an attempt that has not been followed by another. -/
def Registered (sub : SubscriptionInfo) (log : List TraceEntry) : Prop :=
  ∃ before attempt, log = before ++
    .registrationResult (some sub) sub.characteristicHandle true .waitForCccd :: attempt ∧ NoBegin attempt

/-- A successful write of the CCCD of the active subscription, after its registration. -/
def Live (sub : SubscriptionInfo) (log : List TraceEntry) : Prop :=
  ∃ before after, log = before ++ .cccdResult (some sub) sub.cccdHandle true .complete :: after ∧
    Registered sub before

section

variable {sub : SubscriptionInfo} {log entries : List TraceEntry}

theorem noBegin_of_notes (h : Notes entries) : NoBegin entries := by
  intro entry hentry
  have hnote := h entry hentry
  cases entry <;> simp_all [TraceEntry.isNote, TraceEntry.isBegin]

theorem NoBegin.append {entries' : List TraceEntry} (h : NoBegin entries) (h' : NoBegin entries') :
    NoBegin (entries ++ entries') := by
  intro entry hentry
  rcases List.mem_append.mp hentry with hold | hnew
  · exact h entry hold
  · exact h' entry hnew

theorem Registered.append (h : Registered sub log) (hentries : NoBegin entries) :
    Registered sub (log ++ entries) := by
  obtain ⟨before, attempt, rfl, hattempt⟩ := h
  refine ⟨before, attempt ++ entries, by simp, hattempt.append hentries⟩

theorem Live.append (h : Live sub log) (entries : List TraceEntry) : Live sub (log ++ entries) := by
  obtain ⟨before, after, rfl, hbefore⟩ := h
  exact ⟨before, after ++ entries, by simp, hbefore⟩

theorem Live.mono {log' : List TraceEntry} (h : Live sub log) (hlog : log <+: log') : Live sub log' := by
  obtain ⟨entries, rfl⟩ := hlog
  exact h.append entries

end

/-! ## The invariant -/

/-- The subscription of a HID input. -/
def Wanted (services : List GattServiceInfo) (sub : SubscriptionInfo) : Prop :=
  ∃ service ∈ services, ∃ characteristic ∈ service.characteristics,
    BLEClientHID.isHidInput service characteristic = true ∧ characteristic.canSubscribe = true ∧
      sub = BLEClientHID.subscription service characteristic

theorem Wanted.required {services : List GattServiceInfo} {sub : SubscriptionInfo} (h : Wanted services sub) :
    sub.required = true := by
  obtain ⟨service, -, characteristic, -, hinput, -, rfl⟩ := h
  exact hinput

def planned (phase : SetupPhase) : Bool := subscribing phase || phase == .ready

structure Ready (s : Setup) : Prop where
  usable : ∀ sub, s.activeSubscription = some sub → sub.cccdHandle ≠ 0
  registered : ∀ sub, s.activeSubscription = some sub → s.subscriptionState.stage = .waitingForCccd →
    Registered sub s.trace
  progress : planned s.setupPhase = true → s.degraded = false → ∀ sub, Wanted s.services sub →
    sub ∈ s.subscriptionQueue ∨ s.activeSubscription = some sub ∨ sub.cccdHandle ≠ 0 ∧ Live sub s.trace
  complete : s.setupPhase = .ready → s.degraded = false

namespace Ready

variable {s t : Setup}

theorem unplanned (hphase : planned t.setupPhase = false) (hactive : t.activeSubscription = none) : Ready t where
  usable := by simp [hactive]
  registered := by simp [hactive]
  progress hp := by simp [hphase] at hp
  complete hp := by simp [hp, planned] at hphase

/-- When the next attempt begins, what is wanted is this attempt, waits behind it, or is done. -/
theorem next (h : Ready s) {sub : SubscriptionInfo} {rest : List SubscriptionInfo}
    (hphase : s.setupPhase = .registering) (hidle : s.activeSubscription = none)
    (hqueue : s.subscriptionQueue = sub :: rest) (hd : s.degraded = false)
    {sub' : SubscriptionInfo} (hwanted : Wanted s.services sub') :
    sub' = sub ∨ sub' ∈ rest ∨ sub'.cccdHandle ≠ 0 ∧ Live sub' s.trace := by
  have hprogress := h.progress (by simp [hphase, planned, subscribing]) hd sub' hwanted
  rw [hqueue, hidle] at hprogress
  rcases hprogress with hold | hsub | hlive
  · rcases List.mem_cons.mp hold with heq | hrest
    · exact .inl heq
    · exact .inr (.inl hrest)
  · simp at hsub
  · exact .inr (.inr hlive)

/-- The log grows inside a phase, and nothing happens to the attempt. -/
theorem same (h : Ready s) (entries : List TraceEntry) (hbegin : NoBegin entries)
    (htrace : t.trace = s.trace ++ entries)
    (hactive : t.activeSubscription = s.activeSubscription)
    (hstage : t.subscriptionState.stage = s.subscriptionState.stage)
      (hqueue : t.subscriptionQueue = s.subscriptionQueue)
    (hservices : t.services = s.services) (hphase : t.setupPhase = s.setupPhase)
    (hdegraded : t.degraded = s.degraded) : Ready t where
  usable := by
    rw [hactive]
    exact h.usable
  registered sub hsub hwaiting := by
    rw [hactive] at hsub
    rw [hstage] at hwaiting
    rw [htrace]
    exact (h.registered sub hsub hwaiting).append hbegin
  progress hp hd sub hwanted := by
    rw [hphase] at hp
    rw [hdegraded] at hd
    rw [hservices] at hwanted
    rw [hqueue, hactive, htrace]
    exact (h.progress hp hd sub hwanted).imp_right (Or.imp_right (And.imp_right fun hlive => hlive.append entries))
  complete hp := by
    rw [hphase] at hp
    rw [hdegraded]
    exact h.complete hp

/-- An attempt that is given up degrades the setup when it was wanted. -/
theorem abandon (h : Ready s) {sub : SubscriptionInfo} (hactive : s.activeSubscription = some sub)
    (hphase : subscribing s.setupPhase = true) (hactive' : t.activeSubscription = none)
    (hqueue : t.subscriptionQueue = s.subscriptionQueue) (hservices : t.services = s.services)
    (hphase' : subscribing t.setupPhase = true) (hdegraded : t.degraded = (s.degraded || sub.required))
    (htrace : s.trace <+: t.trace) : Ready t where
  usable := by simp [hactive']
  registered := by simp [hactive']
  progress _ hd sub' hwanted := by
    rw [hdegraded, Bool.or_eq_false_iff] at hd
    rw [hservices] at hwanted
    rw [hqueue]
    rcases h.progress (by simp [planned, hphase]) hd.1 sub' hwanted with hold | hsub | hlive
    · exact .inl hold
    · obtain rfl : sub = sub' := Option.some.inj (hactive.symm.trans hsub)
      simp [hwanted.required] at hd
    · exact .inr (.inr ⟨hlive.1, hlive.2.mono htrace⟩)
  complete hp := by simp [hp, subscribing] at hphase'

end Ready

theorem Setup.Move.ready {s t : Setup} (hphased : Phased s) (h : Ready s) (hmove : Move fails s t) : Ready t := by
  have htrace := hmove.trace
  have hidle (hphase : subscribing s.setupPhase = false) : s.activeSubscription = none :=
    (hphased.attempts hphase).1
  cases hmove with
  | mark d entries hnotes hworking =>
    -- a mark begins no attempt, but it may take the premise away
    refine ⟨h.usable, fun sub hsub hwaiting => ?_, fun hp hd sub hwanted => ?_, fun hp => ?_⟩
    · exact (h.registered sub hsub hwaiting).append (noBegin_of_notes hnotes)
    · rw [marked, Bool.or_eq_false_iff] at hd
      exact (h.progress hp hd.1 sub hwanted).imp_right (Or.imp_right
        (And.imp_right fun hlive => hlive.append entries))
    · have hready : s.setupPhase = .ready := hp
      cases d with
      | false => simpa [marked] using h.complete hready
      | true => simp [hready, BLEClientHID.waits] at hworking
  | inventory services hphase | inventoryFailed entries hphase | noHid hphase | planReads queue hphase
  | startRead operation rest accepted entries hphase | readsDone hphase
  | writeMode handle rest accepted entries hphase | readTimeout entries hphase =>
    -- before the subscriptions are planned there is nothing to show
    apply Ready.unplanned
    · simp [goto, marked, planned, subscribing, hphase]
    · exact hidle (by simp [hphase, subscribing])
  | finishRead operation contexts sources d entries hactive =>
    have hreading := hphased.reading_of_active hactive
    apply Ready.unplanned
    · simp [marked, planned, subscribing, hreading]
    · exact hidle (by simp [hreading, subscribing])
  | buildProfiles s hphase =>
    obtain ⟨d, contexts, sources, heq⟩ := s.buildHidProfiles_profiles
    have hbuilding : s.setup.setupPhase = .buildingProfile := hphase
    rw [heq]
    apply Ready.unplanned
    · simp [collectWrites, goto, planned, subscribing]
    · exact hidle (by simp [hbuilding, subscribing])
  | timeout entries hphase hphase' =>
    apply Ready.unplanned
    · simp [goto, planned, subscribing]
    · exact hidle (by simp [hphase, hphase', subscribing])
  | subscriptionTimeout => exact .unplanned (by simp [goto, planned, subscribing]) rfl
  | planSubscriptions queue hphase hhandles hall =>
    have hnone := hidle (by simp [hphase, subscribing])
    refine ⟨by simp [goto, hnone], by simp [goto, hnone], fun _ hd sub hwanted => .inl ?_, by simp [goto]⟩
    obtain ⟨service, hservice, characteristic, hmem, hinput, hnotify, rfl⟩ := hwanted
    exact hall hd service hservice characteristic hmem (by simp [BLEClientHID.subscribes, hinput, hnotify])
  | begin sub rest hphase hnone hqueue hcccd =>
    -- the subscription leaves the queue and becomes the attempt
    refine ⟨?_, by simp [begun, SubscriptionAttemptState.begin], fun _ hd sub' hwanted =>
      ?_, by simp [begun, hphase]⟩
    · intro sub' hsub
      rwa [← Option.some.inj hsub]
    · rcases h.next hphase hnone hqueue hd hwanted with rfl | hrest | hlive
      · exact .inr (.inl rfl)
      · exact .inl hrest
      · exact .inr (.inr ⟨hlive.1, hlive.2.mono htrace⟩)
  | beginWithoutCccd sub rest entries hphase hnone hqueue hcccd hnotes =>
    -- it leaves the queue for good, so it must not have been wanted
    refine ⟨by simp [abandon], by simp [abandon], fun _ hd sub' hwanted => ?_, by simp [abandon, begun, hphase]⟩
    obtain ⟨hd, hoptional⟩ := Bool.or_eq_false_iff.mp hd
    rcases h.next hphase hnone hqueue hd hwanted with rfl | hrest | hlive
    · simp [hwanted.required] at hoptional
    · exact .inl hrest
    · exact .inr (.inr ⟨hlive.1, hlive.2.mono htrace⟩)
  | notScheduled sub entries hactive =>
    have hphase := hphased.subscribing_of_active hactive
    exact h.abandon hactive hphase rfl rfl rfl hphase rfl htrace
  | registrationFailed sub entries hactive | writeRejected sub value entries hactive
  | cccdFailed sub entries hfails hactive =>
    exact h.abandon hactive (hphased.subscribing_of_active hactive) rfl rfl rfl rfl rfl htrace
  | registrationIgnored | cccdIgnored | retry =>
    exact h.same _ (by simp [NoBegin, TraceEntry.isBegin]) rfl rfl rfl rfl rfl rfl rfl
  | writeCccd sub value hactive hstage =>
    exact h.same _ (by simp [NoBegin, TraceEntry.isBegin]) rfl rfl rfl rfl rfl rfl rfl
  | registered sub fallbackAtMs hactive hstage =>
    refine ⟨h.usable, fun sub' hsub _ => ?_, fun _ hd sub' hwanted => ?_, by simp [goto]⟩
    · obtain rfl : sub = sub' := Option.some.inj (hactive.symm.trans hsub)
      exact ⟨s.trace, [.transition .waitingForCccd], by simp [goto, append], by simp [NoBegin, TraceEntry.isBegin]⟩
    · have hphase := hphased.subscribing_of_active hactive
      exact (h.progress (by simp [planned, hphase]) hd sub' hwanted).imp_right
        (Or.imp_right (And.imp_right fun hlive => hlive.mono htrace))
  | complete sub hactive hstage hcccd =>
    -- the only way into the log of what is live
    refine ⟨by simp [goto, append], by simp [goto, append], fun _ hd sub' hwanted => ?_, by simp [goto]⟩
    have hphase := hphased.subscribing_of_active hactive
    rcases h.progress (by simp [planned, hphase]) hd sub' hwanted with hold | hsub | hlive
    · exact .inl hold
    · obtain rfl : sub = sub' := Option.some.inj (hactive.symm.trans hsub)
      refine .inr (.inr ⟨h.usable sub hactive, s.trace, [.subscriptionReset, .transition .registering], ?_, ?_⟩)
      · simp [goto, append]
      · exact h.registered sub hactive hstage
    · exact .inr (.inr ⟨hlive.1, hlive.2.mono htrace⟩)
  | finish entries hphase hnone hqueue =>
    -- READY is reached undegraded only
    refine ⟨by simp [Setup.finish, goto, append, hnone], by simp [Setup.finish, goto, append, hnone],
      fun _ hd sub hwanted => ?_, fun hp => ?_⟩
    · exact (h.progress (by simp [hphase, planned, subscribing]) hd sub hwanted).imp_right
        (Or.imp_right (And.imp_right fun hlive => hlive.mono htrace))
    · cases hd : s.degraded with
      | false => exact hd
      | true => simp [Setup.finish, goto, append, hd] at hp

/-! ## Reachable states -/

theorem reachable_ready {s : BLEClientHID} (h : Reachable s) : Phased s.setup ∧ Ready s.setup := by
  refine (reachable_invariant Ready ?_ ?_ ?_ ?_ h).2
  · intro discoveryMode policy
    exact .unplanned rfl rfl
  · intro fails s t _ hphased hready hmove
    exact hmove.ready hphased hready
  · intro s phase entries _ hphase
    refine .unplanned ?_ rfl
    cases phase <;> simp_all [beforeSearch, reset, planned, subscribing]
  · intro s status entries _ hphased hphase _
    have hnone : s.activeSubscription = none :=
      (hphased.attempts (by cases hp : s.setupPhase <;> simp_all [beforeSearch, subscribing])).1
    unfold searched
    split
    · exact .unplanned rfl hnone
    · exact .unplanned rfl hnone

/-- A ready component is not degraded, and every HID input has been registered and then enabled on its CCCD. -/
theorem ready_live {s : BLEClientHID} (h : Reachable s) (hready : s.setupPhase = .ready) :
    s.degraded = false ∧ ∀ service ∈ s.services, ∀ characteristic ∈ service.characteristics,
      BLEClientHID.isHidInput service characteristic = true → characteristic.canSubscribe = true →
        ∃ cccd, findDescriptor characteristic uuidCccd = some cccd ∧
          (BLEClientHID.subscription service characteristic).cccdHandle = cccd.handle ∧
          Live (BLEClientHID.subscription service characteristic) s.trace := by
  obtain ⟨hphased, hinv⟩ := reachable_ready h
  have hphase : s.setup.setupPhase = .ready := hready
  obtain ⟨hnone, hqueue⟩ := hphased.attempts (by simp [hphase, subscribing])
  have hdegraded := hinv.complete hready
  refine ⟨hdegraded, fun service hservice characteristic hmem hinput hnotify => ?_⟩
  have hwanted : Wanted s.services (BLEClientHID.subscription service characteristic) :=
    ⟨service, hservice, characteristic, hmem, hinput, hnotify, rfl⟩
  rcases hinv.progress (by simp [hphase, planned]) hdegraded _ hwanted with hold | hsub | ⟨hcccd, hlive⟩
  · simp [hqueue] at hold
  · simp [hnone] at hsub
  · cases hfind : findDescriptor characteristic uuidCccd with
    | none => simp [BLEClientHID.subscription, hfind] at hcccd
    | some cccd => exact ⟨cccd, rfl, by simp [BLEClientHID.subscription, hfind], hlive⟩

/-- The keyboard's Report is registered, then enabled by the framework. -/
theorem ready_live_keyboard :
    (run (initial .standard .unchanged 0) keyboardSetup).degraded = false ∧
      ∃ cccd, findDescriptor reportCharacteristic uuidCccd = some cccd ∧ cccd.handle = 6 ∧
        Live (BLEClientHID.subscription (hidService []) reportCharacteristic)
          (run (initial .standard .unchanged 0) keyboardSetup).trace := by
  obtain ⟨hdegraded, hlive⟩ := ready_live
    (reachable_run (.initial .standard .unchanged 0) keyboardSetup (by decide +kernel)) (by decide +kernel)
  obtain ⟨cccd, hfind, hhandle, hlive⟩ := hlive (hidService [reportMapCharacteristic, reportCharacteristic])
    (by decide +kernel) reportCharacteristic (by decide +kernel) (by decide +kernel) (by decide +kernel)
  exact ⟨hdegraded, cccd, hfind, hhandle.symm, hlive⟩

end BleClientHid
