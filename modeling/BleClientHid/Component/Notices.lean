import BleClientHid.Component.LinkRequests

/-! # After the plans

From the plan of the subscriptions to the end of the connection the routes of the notifications
are fixed. What is left, but for the reports, is a small machine.
-/

namespace BleClientHid

open Lib Setup BLEClientHID

/-! ## The phases -/

/-- The phases after the last plan. -/
def afterPlans (phase : SetupPhase) : Bool := planned phase || phase == .degraded || phase == .noHid

theorem afterPlans_absorbing : Absorbing afterPlans where
  entered := by decide
  outside := by decide
  searched phase := by cases phase <;> decide

/-! ## The machine -/

/-- What becomes of notifications that carry no report: the Battery Levels published, a Service Changed
that no `loop()` has seen, and the disconnects asked for. -/
structure Notices where
  levels : List Nat
  changed : Bool
  disconnects : Nat

namespace Notices

def receive (env : Env) (route : Route) (value : Buffer) (n : Notices) : Notices :=
  match route with
  | .serviceChanged => { n with changed := true }
  | .battery => { n with levels := n.levels ++ env.sensed value.level }
  | .hid | .unknown => n

def next (route : Nat → Route) (n : Notices) : Event → Notices
  | .loop _ => { n with changed := false, disconnects := n.disconnects + n.changed.toNat }
  | .gattc env (.notify connId remoteBda handle value _) gattcIf =>
    if accepted env gattcIf = true ∧ connId = env.connId ∧ remoteBda = env.remoteBda then
      n.receive env (route handle) value
    else n
  | .gattc env (.srvcChg remoteBda) gattcIf =>
    if accepted env gattcIf = true ∧ remoteBda = env.remoteBda then { n with changed := true } else n
  | .gattc .. => n

end Notices

namespace BLEClientHID

def disconnects (s : BLEClientHID) : Nat := s.trace.count .disconnect

def notices (s : BLEClientHID) : Notices where
  levels := s.levels
  changed := s.rediscoveryRequested
  disconnects := s.disconnects

section

variable (env : Env) {s t : BLEClientHID}

/-! ## One step -/

theorem notices_of_sideband (h : t.sideband = s.sideband) (hdisconnects : t.disconnects = s.disconnects) :
    t.notices = s.notices := by
  have hlevels : t.levels = s.levels := congrArg Sideband.levels h
  have hchanged : t.rediscoveryRequested = s.rediscoveryRequested := congrArg Sideband.rediscoveryRequested h
  unfold notices
  rw [hlevels, hchanged, hdisconnects]

theorem finalizeSetup_disconnects (s : BLEClientHID) : (s.finalizeSetup env).disconnects = s.disconnects := by
  rw [finalizeSetup_eq]
  cases s.preferredConnParamsValid <;> simp [disconnects]

theorem startNextSubscription_disconnects (s : BLEClientHID) :
    (s.startNextSubscription env).disconnects = s.disconnects := by
  have hlink : TraceEntry.disconnect.isLink = true := rfl
  rcases startNextSubscription_asked hlink env s with hfinal | ⟨hasked, -⟩
  · rw [hfinal, finalizeSetup_disconnects]
  · exact hasked

theorem handlePhaseTimeout_disconnects (s : BLEClientHID) :
    (s.handlePhaseTimeout env).disconnects = s.disconnects := by
  have hlink : TraceEntry.disconnect.isLink = true := rfl
  rcases handlePhaseTimeout_asked hlink env s with
    hearly | ⟨-, ⟨hasked, -⟩ | ⟨t, -, -, hasked, hfinal⟩⟩
  · rw [hearly]
  · exact hasked
  · rw [hfinal, finalizeSetup_disconnects]
    exact hasked

/-- The setup goes on, and nobody else is touched. -/
structure Unheard (s t : BLEClientHID) : Prop where
  fixture : t.fixture = s.fixture
  disconnects : t.disconnects = s.disconnects

theorem Unheard.refl (s : BLEClientHID) : Unheard s s := ⟨rfl, rfl⟩

theorem Unheard.trans {u : BLEClientHID} (h : Unheard s t) (h' : Unheard t u) : Unheard s u :=
  ⟨h'.fixture.trans h.fixture, h'.disconnects.trans h.disconnects⟩

theorem route_congr (h : ∀ r, t.handlesOf r = s.handlesOf r) : t.route = s.route := by
  funext handle
  have hchanged : t.serviceChangedHandles = s.serviceChangedHandles := h .serviceChanged
  have hbattery : t.batteryHandles = s.batteryHandles := h .battery
  have hclaimed : t.hidReportHandles = s.hidReportHandles := h .hid
  unfold route
  rw [hchanged, hbattery, hclaimed]

theorem Unheard.route (h : Unheard s t) : t.route = s.route := route_congr (Steady.fixed_handles h.fixture).2

theorem Unheard.notices (h : Unheard s t) : t.notices = s.notices :=
  notices_of_sideband (sideband_of_fixture h.fixture) h.disconnects

theorem runPhase_unheard (h : afterPlans s.setupPhase = true) : Unheard s (s.runPhase env) := by
  unfold runPhase
  split <;> rename_i hphase
  · rw [hphase] at h
    cases h
  · rw [hphase] at h
    cases h
  · rw [hphase] at h
    cases h
  · rw [hphase] at h
    cases h
  · exact ⟨startNextSubscription_fixture env s, startNextSubscription_disconnects env s⟩
  · split
    · exact ⟨writeCurrentCccd_fixture env s, writeCurrentCccd_asked rfl env s⟩
    · exact .refl s
  · exact .refl s

theorem loop_notices (s : BLEClientHID) :
    (s.loop env).route = (s.loopSetup env).route ∧ (s.loop env).notices = (s.loopSetup env).notices := by
  have hsideband := loop_sideband env s
  have hclaimed := congrArg Profile.hidReportHandles (loop_renewed env s)
  have htrace : (s.loop env).trace = (s.loopSetup env).trace := congrArg Setup.trace (loop_beside env s).setup
  exact ⟨route_congr (handlesOf_eq hclaimed hsideband),
    notices_of_sideband hsideband (asked_of_trace htrace)⟩

theorem requestPendingRediscovery_notices (s : BLEClientHID) :
    s.requestPendingRediscovery.route = s.route ∧
      s.requestPendingRediscovery.notices = s.notices.next s.route (.loop env) := by
  unfold requestPendingRediscovery
  split
  · rename_i hchanged
    refine ⟨rfl, ?_⟩
    simp [notices, Notices.next, disconnects, log, levels, hchanged]
  · rename_i hquiet
    rw [Bool.not_eq_true] at hquiet
    refine ⟨rfl, ?_⟩
    simp [notices, Notices.next, hquiet]

theorem loop_next (h : afterPlans s.setupPhase = true) :
    (s.loop env).route = s.route ∧ (s.loop env).notices = s.notices.next s.route (.loop env) := by
  obtain ⟨hroute, hnotices⟩ := loop_notices env s
  obtain ⟨hroute', hnotices'⟩ := requestPendingRediscovery_notices env s
  have hphase : afterPlans s.requestPendingRediscovery.setupPhase = true := by
    rwa [requestPendingRediscovery_phase]
  have hrun := runPhase_unheard env hphase
  have hunheard : Unheard s.requestPendingRediscovery (s.loopSetup env) :=
    hrun.trans ⟨handlePhaseTimeout_fixture env _, handlePhaseTimeout_disconnects env _⟩
  exact ⟨(hroute.trans hunheard.route).trans hroute', (hnotices.trans hunheard.notices).trans hnotices'⟩

theorem handleAs_notices (handle : Nat) (value : Buffer) (isNotify : Bool) (s : BLEClientHID) (r : Route) :
    (s.handleAs env handle value isNotify r).notices = s.notices.receive env r value := by
  cases r with
  | serviceChanged => rfl
  | battery =>
    cases value with
    | null length => simp [handleAs, Notices.receive, Buffer.level, notices, levels, disconnects, logRawNotification]
    | bytes data =>
      cases data with
      | nil => simp [handleAs, Notices.receive, Buffer.level, notices, levels, disconnects, logRawNotification]
      | cons level rest =>
        have hsideband := publishBattery_sideband env s.logRawNotification.1 level
        have hlevels : (s.logRawNotification.1.publishBattery env level).levels =
            s.levels ++ env.sensed [level.toNat] := congrArg Sideband.levels hsideband
        have hchanged : (s.logRawNotification.1.publishBattery env level).rediscoveryRequested =
            s.rediscoveryRequested := congrArg Sideband.rediscoveryRequested hsideband
        have htrace : (s.logRawNotification.1.publishBattery env level).trace = s.trace := by
          rw [publishBattery_eq]
          rfl
        unfold notices disconnects
        rw [handleAs, hlevels, hchanged, htrace]
        rfl
  | hid =>
    have hsideband := enqueueInputReport_sideband env s.logRawNotification.1 handle value isNotify s.nextSeqId
    have hsetup := (enqueueInputReport_beside env handle value isNotify s.nextSeqId s.logRawNotification.1).setup
    exact notices_of_sideband hsideband (asked_of_trace (congrArg Setup.trace hsetup))
  | unknown => rfl

theorem handleNotification_next (handle : Nat) (value : Buffer) (isNotify : Bool) (s : BLEClientHID) :
    (s.handleNotification env handle value isNotify).route = s.route ∧
      (s.handleNotification env handle value isNotify).notices = s.notices.receive env (s.route handle) value := by
  refine ⟨route_congr (handleNotification_steady env handle value isNotify s).handles, ?_⟩
  rw [handleNotification_route, handleAs_notices]

end

end BLEClientHID

section

variable {s : BLEClientHID}

theorem handleGattcEvent_next {env : Env} {event : GattcEvent} {gattcIf : Option Nat}
    (haccepted : accepted env gattcIf = true) (h : Reachable s) (hone : (s.handleGattcEvent env event).OneSearch)
    (hreset : resetsConnection env event = false) (hphase : afterPlans s.setupPhase = true) :
    (s.handleGattcEvent env event).route = s.route ∧
      (s.handleGattcEvent env event).notices = s.notices.next s.route (.gattc env event gattcIf) := by
  -- the reads are over, so a value that arrives late answers none
  have hidle : s.activeRead = none := by
    cases hactive : s.activeRead with
    | none => rfl
    | some operation =>
      have hreading : s.setupPhase = .reading := (reachable_phased h).2.reading_of_active hactive
      rw [hreading] at hphase
      cases hphase
  cases event with
  | connect remoteBda | disconnect remoteBda =>
    -- of another peer
    have hother : remoteBda ≠ env.remoteBda := by simpa [resetsConnection] using hreset
    rw [handleGattcEvent, if_neg hother]
    exact ⟨rfl, rfl⟩
  | searchCmpl connId status =>
    -- a second search is excluded
    rw [handleGattcEvent] at hone ⊢
    split
    · rename_i hconn
      rw [if_pos hconn] at hone
      have hbefore := search_first h hone
      rw [afterPlans_absorbing.searched _ hbefore] at hphase
      cases hphase
    · exact ⟨rfl, rfl⟩
  | read connId handle status value =>
    have hsame : s.handleGattcEvent env (.read connId handle status value) = s := by
      rw [handleGattcEvent, handleRead, hidle, ite_self]
    rw [hsame]
    exact ⟨rfl, rfl⟩
  | regForNotify handle status =>
    -- the attempts change neither handles nor notices
    have hunheard : Unheard s (s.handleRegistrationResult env handle status) :=
      ⟨handleRegistrationResult_fixture env s handle status,
        handleRegistrationResult_asked rfl env handle status s⟩
    exact ⟨hunheard.route, hunheard.notices⟩
  | writeDescr connId handle status =>
    rw [handleGattcEvent]
    split
    · have hunheard : Unheard s (s.handleCccdResult env handle status) :=
        ⟨handleCccdResult_fixture env s handle status, handleCccdResult_asked rfl env handle status s⟩
      exact ⟨hunheard.route, hunheard.notices⟩
    · exact ⟨rfl, rfl⟩
  | notify connId remoteBda handle value isNotify =>
    rw [handleGattcEvent, Notices.next]
    by_cases hpeer : connId = env.connId ∧ remoteBda = env.remoteBda
    · rw [if_pos hpeer, if_pos ⟨haccepted, hpeer⟩]
      exact handleNotification_next env handle value isNotify s
    · rw [if_neg hpeer, if_neg fun hboth => hpeer hboth.2]
      exact ⟨rfl, rfl⟩
  | srvcChg remoteBda =>
    -- the two checks of the peer are those of the machine
    rw [handleGattcEvent, Notices.next]
    by_cases hpeer : remoteBda = env.remoteBda
    · rw [if_pos hpeer, if_pos ⟨haccepted, hpeer⟩]
      exact ⟨rfl, rfl⟩
    · rw [if_neg hpeer, if_neg fun hboth => hpeer hboth.2]
      exact ⟨rfl, rfl⟩
  | congest | queueFull =>
    rw [handleGattcEvent]
    split <;> exact ⟨rfl, rfl⟩
  | other => exact ⟨rfl, rfl⟩

/-- After the plans every step is one of the machine. -/
theorem step_next (h : Reachable s) {event : Event} (hone : (step s event).OneSearch)
    (hreset : event.resetsConnection = false) (hphase : afterPlans s.setupPhase = true) :
    (step s event).route = s.route ∧ (step s event).notices = s.notices.next s.route event := by
  cases event with
  | loop env => exact loop_next env hphase
  | gattc env event gattcIf =>
    cases haccepted : accepted env gattcIf with
    | false =>
      rw [step_refused haccepted]
      refine ⟨rfl, ?_⟩
      unfold Notices.next
      split <;> simp_all
    | true =>
      rw [step_accepted haccepted] at hone ⊢
      rw [resetsConnection_eq, haccepted, Bool.true_and] at hreset
      exact handleGattcEvent_next haccepted h hone hreset hphase

/-! ## The law -/

theorem run_next (h : Reachable s) (hphase : afterPlans s.setupPhase = true) (events : List Event)
    (hsearch : ∀ n < events.length, (run s (events.take (n + 1))).OneSearch)
    (hstays : ∀ event ∈ events, event.resetsConnection = false) :
    afterPlans (run s events).setupPhase = true ∧ (run s events).route = s.route ∧
      (run s events).notices = events.foldl (Notices.next s.route) s.notices := by
  refine run_induction (motive := fun events => (∀ event ∈ events, event.resetsConnection = false) →
    afterPlans (run s events).setupPhase = true ∧ (run s events).route = s.route ∧
      (run s events).notices = events.foldl (Notices.next s.route) s.notices) h ?_ ?_ events hsearch hstays
  · exact fun _ => ⟨hphase, rfl, rfl⟩
  · intro events event _ hreached hone ih hstays
    obtain ⟨hlate, hroute, hnotices⟩ := ih fun e he => hstays e (List.mem_append_left _ he)
    have hreset := hstays event (by simp)
    obtain ⟨hroute', hnotices'⟩ := step_next hreached hone hreset hlate
    rw [run_append_singleton]
    refine ⟨step_absorbed afterPlans_absorbing hreached hone hreset hlate, hroute'.trans hroute, ?_⟩
    rw [hnotices', hroute, hnotices, List.foldl_append]
    rfl

end

/-- The Battery Levels that one event brings. -/
def Event.levels (route : Nat → Route) (event : Event) : List Nat :=
  (Notices.next route { levels := [], changed := false, disconnects := 0 } event).levels

namespace Notices

variable (route : Nat → Route)

theorem next_levels (n : Notices) (event : Event) :
    (n.next route event).levels = n.levels ++ event.levels route := by
  have hreceive (env : Env) (r : Route) (value : Buffer) : (n.receive env r value).levels =
      n.levels ++ (Notices.receive env r value { levels := [], changed := false, disconnects := 0 }).levels := by
    cases r <;> simp [receive]
  unfold Event.levels next
  split
  · simp
  · split
    · exact hreceive _ _ _
    · simp
  · split <;> simp
  · simp

theorem foldl_next_levels (n : Notices) (events : List Event) :
    (events.foldl (next route) n).levels = n.levels ++ events.flatMap (·.levels route) := by
  induction events generalizing n with
  | nil => simp
  | cons event events ih => rw [List.foldl_cons, ih, next_levels, List.flatMap_cons, List.append_assoc]

end Notices

/-- From the last plan to the end of the connection the routes are fixed, every Battery Level notified on its route
while there is a sensor is published, in order and alone, and every `loop()` that finds a Service Changed asks for
one disconnect. -/
theorem notices_follow (discoveryMode : DiscoveryMode) (policy : ProtocolModePolicy) (interval : UInt32)
    (before after : List Event)
    (hsearch : ∀ n < (before ++ after).length,
      (run (initial discoveryMode policy interval) ((before ++ after).take (n + 1))).OneSearch)
    (hphase : afterPlans (run (initial discoveryMode policy interval) before).setupPhase = true)
    (hstays : ∀ event ∈ after, event.resetsConnection = false) :
    let s := run (initial discoveryMode policy interval) before
    let t := run (initial discoveryMode policy interval) (before ++ after)
    t.route = s.route ∧ t.notices = after.foldl (Notices.next s.route) s.notices ∧
      t.levels = s.levels ++ after.flatMap (·.levels s.route) := by
  intro s t
  have hbefore : ∀ n < before.length,
      (run (initial discoveryMode policy interval) (before.take (n + 1))).OneSearch := by
    intro n hn
    have hone := hsearch n (by rw [List.length_append]; omega)
    rwa [List.take_append_of_le_length (by omega)] at hone
  have hafter : ∀ n < after.length, (run s (after.take (n + 1))).OneSearch := by
    intro n hn
    have hone := hsearch (before.length + n) (by rw [List.length_append]; omega)
    rw [Nat.add_assoc, List.take_length_add_append] at hone
    rwa [run, List.foldl_append] at hone
  have hreached : Reachable s := reachable_run (.initial discoveryMode policy interval) before hbefore
  have hrun : t = run s after := List.foldl_append
  obtain ⟨-, hroute, hnotices⟩ := run_next hreached hphase after hafter hstays
  rw [hrun]
  refine ⟨hroute, hnotices, ?_⟩
  have hlevels : (run s after).levels = (run s after).notices.levels := rfl
  rw [hlevels, hnotices, Notices.foldl_next_levels]
  rfl

/-! ## A keyboard with a battery -/

def batteryServices : List GattServiceInfo :=
  [hidService [reportMapCharacteristic, reportCharacteristic],
    { uuid := .uuid16 0x180F, startHandle := 21, endHandle := 30
      characteristics := [{ uuid := .uuid16 0x2A19, handle := 23, properties := 0x12
                            descriptors := [{ uuid := .uuid16 0x2902, handle := 24 }] }] }]

/-- From the connection to `REGISTERING`, with a Battery Level of 100. -/
def batterySetup : List Event :=
  exampleRun batteryServices (connectAndSearch ++ [none] ++ BleClientHid.readReportMap ++
    [none, some (.read 0 7 .ok (.bytes [0, 1])), none, some (.read 0 23 .ok (.bytes [100])), none, none])

/-- The level falls to 42, and the services change. -/
def batteryNews : List Event :=
  exampleRun batteryServices [some (.notify 0 0 23 (.bytes [42]) true), some (.srvcChg 0), none, none]

/-- The level is published once more, and one disconnect is asked for. -/
theorem notices_follow_battery :
    let t := run (initial .standard .unchanged 0) (batterySetup ++ batteryNews)
    t.levels = [100, 42] ∧ t.disconnects = 1 := by
  intro t
  obtain ⟨-, hnotices, hlevels⟩ := notices_follow .standard .unchanged 0 batterySetup batteryNews
    (by decide +kernel) (by decide +kernel) (by decide +kernel)
  have hbefore : (run (initial .standard .unchanged 0) batterySetup).levels = [100] := by decide +kernel
  have hnews : batteryNews.flatMap (·.levels (run (initial .standard .unchanged 0) batterySetup).route) = [42] := by
    decide +kernel
  have hdisconnects (u : BLEClientHID) : u.disconnects = u.notices.disconnects := rfl
  constructor
  · rw [hlevels, hbefore, hnews, List.singleton_append]
  · rw [hdisconnects, hnotices]
    decide +kernel

end BleClientHid
