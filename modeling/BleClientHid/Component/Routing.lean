import BleClientHid.Component.Ready
import BleClientHid.Component.Sideband

/-! # Where a notification goes

The sets of handles that tell notifications apart, and the characteristics they stand for.
-/

namespace BleClientHid

open Lib Setup BLEClientHID

/-! ## Routes -/

inductive Route where
  | serviceChanged
  | battery
  | hid
  | unknown
  deriving DecidableEq, Repr

namespace Route

def text : Route → String
  | .serviceChanged => "SERVICE_CHANGED"
  | .battery => "BATTERY"
  | .hid => "HID"
  | .unknown => "UNKNOWN"

/-- The characteristics whose notifications go there. -/
def admits : Route → GattServiceInfo → GattCharacteristicInfo → Bool
  | .serviceChanged => isServiceChanged
  | .battery => isBatteryLevel
  | .hid => isHidInput
  | .unknown => fun _ _ => false

def wants (r : Route) (service : GattServiceInfo) (characteristic : GattCharacteristicInfo) : Bool :=
  characteristic.canSubscribe && r.admits service characteristic

/-- The service whose characteristics go there. -/
def service : Route → Nat
  | .serviceChanged => uuidGattService
  | .battery => uuidBatteryService
  | .hid => uuidHidService
  | .unknown => 0

theorem admits_service {r : Route} {service : GattServiceInfo} {characteristic : GattCharacteristicInfo}
    (h : r.admits service characteristic = true) : service.uuid = .uuid16 r.service := by
  have huuid {value : Nat} (hvalue : uuid16 service.uuid value = true) : service.uuid = .uuid16 value := by
    unfold uuid16 at hvalue
    split at hvalue
    · simp_all
    · cases hvalue
  cases r with
  | unknown => cases h
  | _ => exact huuid (Bool.and_eq_true_iff.mp h).1

theorem admits_unique {r r' : Route} {service : GattServiceInfo} {characteristic : GattCharacteristicInfo}
    (h : r.admits service characteristic = true) (h' : r'.admits service characteristic = true) : r = r' := by
  have hservice : r.service = r'.service := ESPBTUUID.uuid16.inj ((admits_service h).symm.trans (admits_service h'))
  revert hservice
  cases r <;> cases r' <;> decide

end Route

/-- The route of a characteristic, by its own UUID and that of its service. -/
def routeOf (service : GattServiceInfo) (characteristic : GattCharacteristicInfo) : Route :=
  if isServiceChanged service characteristic then .serviceChanged
  else if isBatteryLevel service characteristic then .battery
  else if isHidInput service characteristic then .hid
  else .unknown

theorem routeOf_eq {r : Route} {service : GattServiceInfo} {characteristic : GattCharacteristicInfo}
    (h : r.admits service characteristic = true) : routeOf service characteristic = r := by
  have hother (r' : Route) (h' : r'.admits service characteristic = true) : r' = r := Route.admits_unique h' h
  unfold routeOf
  split
  · exact hother .serviceChanged ‹_›
  · split
    · exact hother .battery ‹_›
    · split
      · exact hother .hid ‹_›
      · cases r <;> simp_all [Route.admits]

theorem routeOf_admits {service : GattServiceInfo} {characteristic : GattCharacteristicInfo}
    (h : routeOf service characteristic ≠ .unknown) :
    (routeOf service characteristic).admits service characteristic = true := by
  unfold routeOf at h ⊢
  split
  · assumption
  · split
    · assumption
    · split
      · assumption
      · simp_all

def handlesWhere (p : GattServiceInfo → GattCharacteristicInfo → Bool) (services : List GattServiceInfo) :
    List Nat :=
  services.flatMap fun service => (service.characteristics.filter (p service)).map (·.handle)

theorem mem_handlesWhere {p : GattServiceInfo → GattCharacteristicInfo → Bool} {services : List GattServiceInfo}
    {handle : Nat} : handle ∈ handlesWhere p services ↔ ∃ service ∈ services,
      ∃ characteristic ∈ service.characteristics, p service characteristic = true ∧
        characteristic.handle = handle := by
  simp [handlesWhere, and_assoc]

namespace BLEClientHID

def handlesOf (s : BLEClientHID) : Route → Finset Nat
  | .serviceChanged => s.serviceChangedHandles
  | .battery => s.batteryHandles
  | .hid => s.hidReportHandles
  | .unknown => ∅

/-- The order of the tests in `gattc_event_handler`. -/
def route (s : BLEClientHID) (handle : Nat) : Route :=
  if handle ∈ s.serviceChangedHandles then .serviceChanged
  else if handle ∈ s.batteryHandles then .battery
  else if handle ∈ s.hidReportHandles then .hid
  else .unknown

theorem route_mem {s : BLEClientHID} {handle : Nat} (h : s.route handle ≠ .unknown) :
    handle ∈ s.handlesOf (s.route handle) := by
  unfold route at h ⊢
  split
  · assumption
  · split
    · assumption
    · split
      · assumption
      · simp_all

/-- Where a handle has one route at most, it has this one. -/
theorem route_eq {s : BLEClientHID} {handle : Nat} {r : Route} (h : handle ∈ s.handlesOf r)
    (hunique : ∀ r', handle ∈ s.handlesOf r' → r' = r) : s.route handle = r := by
  by_cases hunknown : s.route handle = .unknown
  · unfold route at hunknown
    cases r <;> simp_all [handlesOf]
  · exact hunique _ (route_mem hunknown)

end BLEClientHID

/-! ## What the setup puts there -/

/-- The route has got these handles, all of them unless the setup is degraded. -/
structure Noted (r : Route) (handles : List Nat) (s t : BLEClientHID) : Prop where
  grows : s.handlesOf r ⊆ t.handlesOf r
  sound : ∀ handle ∈ t.handlesOf r, handle ∈ s.handlesOf r ∨ handle ∈ handles
  complete : t.degraded = false → s.degraded = false ∧ ∀ handle ∈ handles, handle ∈ t.handlesOf r

namespace Noted

variable {r : Route} {s t u : BLEClientHID} {handles handles' : List Nat}

theorem refl (r : Route) (s : BLEClientHID) : Noted r [] s s where
  grows := Finset.Subset.refl _
  sound handle h := .inl h
  complete h := ⟨h, by simp⟩

theorem trans (h : Noted r handles s t) (h' : Noted r handles' t u) : Noted r (handles ++ handles') s u where
  grows := h.grows.trans h'.grows
  sound handle hhandle := by
    rcases h'.sound handle hhandle with hold | hnew
    · exact (h.sound handle hold).imp_right (List.mem_append_left _)
    · exact .inr (List.mem_append_right _ hnew)
  complete hu := by
    obtain ⟨ht, hlater⟩ := h'.complete hu
    obtain ⟨hs, hhere⟩ := h.complete ht
    refine ⟨hs, fun handle hhandle => ?_⟩
    rcases List.mem_append.mp hhandle with hfirst | hsecond
    · exact h'.grows (hhere handle hfirst)
    · exact hlater handle hsecond

end Noted

namespace BLEClientHID

section

variable {r : Route} {s : BLEClientHID}

theorem addSubscription_noted (hr : r ≠ .hid) (service : GattServiceInfo)
    (characteristic : GattCharacteristicInfo) :
    Noted r (if r.admits service characteristic then [characteristic.handle] else []) s
      (s.addSubscription service characteristic) := by
  have hset : (s.addSubscription service characteristic).handlesOf r =
      if r.admits service characteristic then insert characteristic.handle (s.handlesOf r) else s.handlesOf r := by
    cases r with
    | hid => exact absurd rfl hr
    | _ => rfl
  refine ⟨?_, ?_, ?_⟩ <;> rw [hset] <;> split
  · exact Finset.subset_insert _ _
  · exact Finset.Subset.refl _
  · intro handle hhandle
    rw [Finset.mem_insert] at hhandle
    exact hhandle.symm.imp_right List.mem_singleton.mpr
  · exact fun handle hhandle => .inl hhandle
  · exact fun hd => ⟨hd, by simp⟩
  · exact fun hd => ⟨hd, by simp⟩

theorem planCharacteristics_noted (hr : r ≠ .hid) (service : GattServiceInfo)
    (characteristics : List GattCharacteristicInfo) (s : BLEClientHID) :
    Noted r ((characteristics.filter (r.wants service)).map (·.handle)) s
      (planCharacteristics service characteristics s) := by
  induction characteristics generalizing s with
  | nil => exact .refl r s
  | cons characteristic rest ih =>
    unfold planCharacteristics
    split
    · rename_i hskip
      rw [List.filter_cons_of_neg ?_]
      · exact ih s
      · rw [Bool.not_eq_true', subscribes] at hskip
        unfold Route.wants
        cases r <;> simp_all [Route.admits]
    · rename_i hwanted
      have hsubscribe : characteristic.canSubscribe = true := by
        rw [Bool.not_eq_true, Bool.not_eq_false', subscribes, Bool.and_eq_true] at hwanted
        exact hwanted.1
      split
      · exact ⟨Finset.Subset.refl _, fun handle h => .inl h, fun hd => absurd hd (by simp [markDegraded])⟩
      · have hboth := (addSubscription_noted hr service characteristic (s := s)).trans (ih _)
        have hfilter : ((characteristic :: rest).filter (r.wants service)).map (·.handle) =
            (if r.admits service characteristic then [characteristic.handle] else []) ++
              (rest.filter (r.wants service)).map (·.handle) := by
          simp only [List.filter_cons, Route.wants, hsubscribe, Bool.true_and]
          split <;> rfl
        rw [hfilter]
        exact hboth

theorem planSubscriptions_noted (hr : r ≠ .hid) (s : BLEClientHID) :
    Noted r (handlesWhere r.wants s.services) s s.planSubscriptions := by
  have hfold (services : List GattServiceInfo) (t : BLEClientHID) : Noted r (handlesWhere r.wants services) t
      (services.foldl (fun s service => planCharacteristics service service.characteristics s) t) := by
    induction services generalizing t with
    | nil => exact .refl r t
    | cons service rest ih => exact (planCharacteristics_noted hr service service.characteristics t).trans (ih _)
  obtain ⟨hgrows, hsound, hcomplete⟩ := hfold s.services { s with subscriptionQueue := [] }
  have hstart : BLEClientHID.handlesOf { s with subscriptionQueue := [] } r = s.handlesOf r := by cases r <;> rfl
  rw [hstart] at hgrows hsound
  exact ⟨hgrows, hsound, hcomplete⟩

/-! ## The profiles -/

theorem claimInput_claims (service : GattServiceInfo) (handle uuid : Nat) :
    (s.claimInput service handle uuid).hidReportHandles = insert handle s.hidReportHandles := rfl

theorem profileCharacteristic_claims (service : GattServiceInfo) (characteristic : GattCharacteristicInfo)
    (s : BLEClientHID) {handle : Nat} :
    handle ∈ (s.profileCharacteristic service characteristic).hidReportHandles ↔
      handle ∈ s.hidReportHandles ∨
        isInputUuid characteristic.uuid.short = true ∧ characteristic.handle = handle := by
  unfold profileCharacteristic
  split
  · rename_i uuid huuid
    have hshort : characteristic.uuid.short = uuid := by rw [huuid]; rfl
    have hclaim : handle ∈ (if isInputUuid uuid then s.claimInput service characteristic.handle uuid
        else s).hidReportHandles ↔
        handle ∈ s.hidReportHandles ∨ isInputUuid uuid = true ∧ characteristic.handle = handle := by
      split
      · rename_i hinput
        rw [claimInput_claims, Finset.mem_insert, hinput]
        simp [or_comm, eq_comm]
      · simp_all
    rw [hshort]
    dsimp only
    split <;> exact hclaim
  · rename_i hlong
    have hshort : characteristic.uuid.short = 0 := by
      cases huuid : characteristic.uuid with
      | uuid16 value => exact absurd huuid (hlong value)
      | _ => rfl
    have hnone : isInputUuid 0 = false := by decide
    rw [hshort, hnone]
    simp

theorem foldl_profileCharacteristic_claims (service : GattServiceInfo)
    (characteristics : List GattCharacteristicInfo) (s : BLEClientHID) {handle : Nat} :
    handle ∈ (characteristics.foldl (profileCharacteristic service) s).hidReportHandles ↔
      handle ∈ s.hidReportHandles ∨ ∃ characteristic ∈ characteristics,
        isInputUuid characteristic.uuid.short = true ∧ characteristic.handle = handle := by
  induction characteristics generalizing s with
  | nil => simp
  | cons characteristic rest ih =>
    rw [List.foldl_cons, ih, profileCharacteristic_claims]
    simp [or_assoc]

theorem profileService_claims (service : GattServiceInfo) (s : BLEClientHID) {handle : Nat} :
    handle ∈ (s.profileService service).hidReportHandles ↔
      handle ∈ s.hidReportHandles ∨ handle ∈ handlesWhere isHidInput [service] := by
  have hchecked (t : BLEClientHID) (serviceInstance : Nat) :
      (t.checkReferences serviceInstance).hidReportHandles = t.hidReportHandles := by
    unfold checkReferences
    split
    · rfl
    · split <;> rfl
  unfold profileService
  split
  · simp_all [mem_handlesWhere, isHidInput]
  · rw [hchecked, foldl_profileCharacteristic_claims]
    simp_all [mem_handlesWhere, isHidInput]

theorem buildHidProfiles_claims (s : BLEClientHID) {handle : Nat} :
    handle ∈ s.buildHidProfiles.hidReportHandles ↔
      handle ∈ s.hidReportHandles ∨ handle ∈ handlesWhere isHidInput s.services := by
  have hfold (services : List GattServiceInfo) (t : BLEClientHID) :
      handle ∈ (services.foldl profileService t).hidReportHandles ↔
        handle ∈ t.hidReportHandles ∨ handle ∈ handlesWhere isHidInput services := by
    induction services generalizing t with
    | nil => simp [handlesWhere]
    | cons service rest ih =>
      rw [List.foldl_cons, ih, profileService_claims]
      simp [handlesWhere, or_assoc]
  exact hfold s.services s

end

end BLEClientHID

namespace BLEClientHID

theorem handlesOf_eq {s t : BLEClientHID} (hprofile : t.hidReportHandles = s.hidReportHandles)
    (hsideband : t.sideband = s.sideband) (r : Route) : t.handlesOf r = s.handlesOf r := by
  cases r with
  | serviceChanged => exact congrArg Sideband.serviceChangedHandles hsideband
  | battery => exact congrArg Sideband.batteryHandles hsideband
  | hid => exact hprofile
  | unknown => rfl

end BLEClientHID

/-! ## The invariant -/

/-- Every handle stands for a characteristic, and every characteristic that matters has its handle. -/
structure Routed (s : BLEClientHID) : Prop where
  sound : ∀ r, ∀ handle ∈ s.handlesOf r, handle ∈ handlesWhere r.admits s.services
  early : searching s.setupPhase = true → ∀ r, s.handlesOf r = ∅
  inputs : built s.setupPhase = true →
    ∀ handle ∈ handlesWhere isHidInput s.services, handle ∈ s.hidReportHandles
  complete : planned s.setupPhase = true → s.degraded = false →
    ∀ r, ∀ handle ∈ handlesWhere r.wants s.services, handle ∈ s.handlesOf r

/-- The handles stay, and nothing that needs them begins. -/
structure Steady (s t : BLEClientHID) : Prop where
  services : t.services = s.services
  handles : ∀ r, t.handlesOf r = s.handlesOf r
  searching : searching t.setupPhase = true → searching s.setupPhase = true
  built : built t.setupPhase = true → built s.setupPhase = true
  planned : planned t.setupPhase = true → t.degraded = false → planned s.setupPhase = true ∧ s.degraded = false

theorem built_of_planned {phase : SetupPhase} (h : planned phase = true) : built phase = true := by
  unfold built
  unfold planned at h
  rw [Bool.or_assoc, h, Bool.or_true]

section

variable {s t u : BLEClientHID}

namespace Steady

theorem refl (s : BLEClientHID) : Steady s s := ⟨rfl, fun _ => rfl, id, id, fun h hd => ⟨h, hd⟩⟩

theorem trans (h : Steady s t) (h' : Steady t u) : Steady s u where
  services := h'.services.trans h.services
  handles r := (h'.handles r).trans (h.handles r)
  searching hphase := h.searching (h'.searching hphase)
  built hphase := h.built (h'.built hphase)
  planned hphase hd := (h'.planned hphase hd).elim h.planned

theorem fixed_handles (h : t.fixture = s.fixture) :
    t.services = s.services ∧ ∀ r, t.handlesOf r = s.handlesOf r := by
  have hprofile := profile_of_fixture h
  exact ⟨congrArg Profile.services hprofile,
    handlesOf_eq (congrArg Profile.hidReportHandles hprofile) (sideband_of_fixture h)⟩

theorem away (h : t.fixture = s.fixture) (hsearching : BleClientHid.searching t.setupPhase = false)
    (hbuilt : BleClientHid.built t.setupPhase = false) : Steady s t where
  services := (fixed_handles h).1
  handles := (fixed_handles h).2
  searching hphase := absurd (hphase.symm.trans hsearching) (by decide)
  built hphase := absurd (hphase.symm.trans hbuilt) (by decide)
  planned hphase := absurd ((built_of_planned hphase).symm.trans hbuilt) (by decide)

theorem late (h : t.fixture = s.fixture) (hphase : BleClientHid.planned s.setupPhase = true)
    (hsearching : BleClientHid.searching t.setupPhase = false) (hd : t.degraded = false → s.degraded = false) :
    Steady s t where
  services := (fixed_handles h).1
  handles := (fixed_handles h).2
  searching hphase := absurd (hphase.symm.trans hsearching) (by decide)
  built _ := built_of_planned hphase
  planned _ hdegraded := ⟨hphase, hd hdegraded⟩

theorem within (h : t.fixture = s.fixture) (hphase : t.setupPhase = s.setupPhase)
    (hd : t.degraded = false → s.degraded = false) : Steady s t where
  services := (fixed_handles h).1
  handles := (fixed_handles h).2
  searching := by rw [hphase]; exact id
  built := by rw [hphase]; exact id
  planned hplanned hdegraded := ⟨hphase ▸ hplanned, hd hdegraded⟩

end Steady

namespace Routed

theorem keep (h : Routed s) (hsteady : Steady s t) : Routed t where
  sound r := by
    rw [hsteady.services, hsteady.handles]
    exact h.sound r
  early hphase r := (hsteady.handles r).trans (h.early (hsteady.searching hphase) r)
  inputs hphase := by
    rw [hsteady.services, show t.hidReportHandles = s.hidReportHandles from hsteady.handles .hid]
    exact h.inputs (hsteady.built hphase)
  complete hphase hd r := by
    obtain ⟨hplanned, hdegraded⟩ := hsteady.planned hphase hd
    rw [hsteady.services, hsteady.handles]
    exact h.complete hplanned hdegraded r

theorem of_empty (h : ∀ r, s.handlesOf r = ∅) (hbuilt : built s.setupPhase = false) : Routed s where
  sound r handle hhandle := by simp [h] at hhandle
  early _ := h
  inputs hphase := absurd (hphase.symm.trans hbuilt) (by decide)
  complete hphase := absurd ((built_of_planned hphase).symm.trans hbuilt) (by decide)

theorem unplanned (hsound : ∀ r, ∀ handle ∈ s.handlesOf r, handle ∈ handlesWhere r.admits s.services)
    (hsearching : searching s.setupPhase = false) (hplanned : planned s.setupPhase = false)
    (hinputs : built s.setupPhase = true →
      ∀ handle ∈ handlesWhere isHidInput s.services, handle ∈ s.hidReportHandles) :
    Routed s where
  sound := hsound
  early hphase := absurd (hphase.symm.trans hsearching) (by decide)
  inputs := hinputs
  complete hphase := absurd (hphase.symm.trans hplanned) (by decide)

end Routed

/-! ## Steps that keep the handles -/

theorem requestPendingRediscovery_steady (s : BLEClientHID) : Steady s s.requestPendingRediscovery := by
  unfold requestPendingRediscovery
  split
  · exact ⟨rfl, fun r => by cases r <;> rfl, id, id, fun h hd => ⟨h, hd⟩⟩
  · exact .refl s

theorem finalizeSetup_degraded (env : Env) (h : s.degraded = true) :
    (s.finalizeSetup env).setupPhase = .degraded := by
  rw [finalizeSetup_eq]
  exact if_pos h

theorem startNextRead_phase (env : Env) (hphase : s.setupPhase = .reading) :
    (s.startNextRead env).setupPhase = .reading ∨ (s.startNextRead env).setupPhase = .buildingProfile := by
  unfold startNextRead
  split
  · exact .inl hphase
  · split
    · exact .inr rfl
    · dsimp only
      split
      · exact .inl hphase
      · rw [operationFailed_eq]
        exact .inl hphase

theorem startNextRead_steady (env : Env) (hphase : s.setupPhase = .reading) : Steady s (s.startNextRead env) := by
  refine .away (startNextRead_fixture env s) ?_ ?_ <;>
    rcases startNextRead_phase env hphase with h | h <;> rw [h] <;> rfl

theorem Setup.Move.undegraded {fails : Bool} {s t : Setup} (hmove : Setup.Move fails s t) (h : t.degraded = false) :
    s.degraded = false := by
  have hmarked {d : Bool} (h : (s.degraded || d) = false) : s.degraded = false := (Bool.or_eq_false_iff.mp h).1
  cases hmove with
  | mark | startRead | finishRead | writeMode => exact hmarked h
  | beginWithoutCccd | notScheduled | registrationFailed | writeRejected | cccdFailed => exact hmarked h
  | readTimeout | subscriptionTimeout | timeout => exact hmarked h
  | buildProfiles s => exact degraded_of_profiles s.buildHidProfiles_profiles h
  | _ => exact h

theorem Moves.undegraded {fails : Bool} {s t : Setup} (hmoves : Moves fails s t) (h : t.degraded = false) :
    s.degraded = false := by
  induction hmoves with
  | refl => exact h
  | tail _ hlast ih => exact ih (hlast.undegraded h)

theorem searching_of_planning {phase : SetupPhase} (h : planning phase = false) : searching phase = false := by
  unfold planning at h
  unfold searching
  simp_all

theorem planning_of_planned {phase : SetupPhase} (h : planned phase = true) : planning phase = false := by
  cases phase <;> first | rfl | cases h

theorem Steady.moved {fails : Bool} (hfixture : t.fixture = s.fixture)
    (hphase : BleClientHid.planned s.setupPhase = true) (hmoves : Moves fails s.setup t.setup) : Steady s t :=
  .late hfixture hphase (searching_of_planning (Moves.planning hmoves (planning_of_planned hphase)))
    (Moves.undegraded hmoves)

theorem runPhase_steady (env : Env) (h : Aligned s.setup) (hinventory : s.setupPhase ≠ .inventory)
    (hbuilding : s.setupPhase ≠ .buildingProfile) (hwriting : s.setupPhase ≠ .writingProtocolMode) :
    Steady s (s.runPhase env) := by
  have hmoves : Moves false s.setup (s.runPhase env).setup := acts_moves env h (runPhase_acts env s)
  unfold runPhase at hmoves ⊢
  split at hmoves <;> rename_i hphase
  · exact absurd hphase hinventory
  · exact startNextRead_steady env hphase
  · exact absurd hphase hbuilding
  · exact absurd hphase hwriting
  · exact .moved (startNextSubscription_fixture env s) (by rw [hphase]; rfl) hmoves
  · split
    · rename_i hdue
      rw [if_pos hdue] at hmoves
      exact .moved (writeCurrentCccd_fixture env s) (by rw [hphase]; rfl) hmoves
    · exact .refl s
  · exact .refl s

theorem handlePhaseTimeout_steady (env : Env) (s : BLEClientHID) : Steady s (s.handlePhaseTimeout env) := by
  have hfixture := handlePhaseTimeout_fixture env s
  cases hdue : waits s.setupPhase || !elapsed env.timeoutMs s.phaseStartedMs phaseTimeoutMs with
  | true =>
    rw [handlePhaseTimeout_of_not_due env hdue]
    exact .refl s
  | false =>
    have hcases : (s.handlePhaseTimeout env).setupPhase = .buildingProfile ∨
        (s.handlePhaseTimeout env).setupPhase = .degraded := by
      have hdeadline := handlePhaseTimeout_deadline env hdue
      generalize s.handlePhaseTimeout env = t at hdeadline
      cases hdeadline with
      | reading => exact .inl rfl
      | subscribing | other => exact .inr (finalizeSetup_degraded env rfl)
    refine .away hfixture ?_ ?_ <;> rcases hcases with h | h <;> rw [h] <;> rfl

theorem handleSearchComplete_steady (env : Env) (status : GattStatus) (hbefore : beforeSearch s.setupPhase = true) :
    Steady s (s.handleSearchComplete env status) := by
  have hfixture := handleSearchComplete_fixture env s status
  unfold handleSearchComplete at hfixture ⊢
  dsimp only at hfixture ⊢
  split
  · rename_i hfailed
    rw [if_pos hfailed] at hfixture
    have hphase := finalizeSetup_degraded env (s := (s.log (.searchComplete status)).markDegraded
      "GATT service discovery failed") rfl
    refine .away hfixture ?_ ?_ <;> rw [hphase] <;> rfl
  · refine ⟨rfl, fun r => by cases r <;> rfl, fun _ => ?_, fun h => ?_, fun h => ?_⟩
    · simp [searching, hbefore]
    · cases h
    · cases h

theorem Steady.answer {fails : Bool} (hphased : Phased s.setup) (hfixture : t.fixture = s.fixture)
    (hmoves : Moves fails s.setup t.setup)
    (hidle : s.activeSubscription = none → t.setupPhase = s.setupPhase ∧ t.degraded = s.degraded) :
    Steady s t := by
  cases hactive : s.activeSubscription with
  | none =>
    obtain ⟨hphase, hdegraded⟩ := hidle hactive
    exact .within hfixture hphase (by rw [hdegraded]; exact id)
  | some sub =>
    have hplanned : BleClientHid.planned s.setupPhase = true := by
      have hsubscribing := hphased.subscribing_of_active hactive
      unfold BleClientHid.planned
      rw [show subscribing s.setupPhase = true from hsubscribing, Bool.true_or]
    exact .moved hfixture hplanned hmoves

theorem handleRegistrationResult_steady (env : Env) (haligned : Aligned s.setup) (hphased : Phased s.setup)
    (handle : Nat) (status : GattStatus) : Steady s (s.handleRegistrationResult env handle status) := by
  have hacts : Acts env false s _ := handleRegistrationResult_acts env haligned handle status
  refine .answer hphased (handleRegistrationResult_fixture env s handle status) (acts_moves env haligned hacts) ?_
  intro hidle
  unfold handleRegistrationResult
  dsimp only [log]
  rw [hidle]
  exact ⟨rfl, rfl⟩

theorem handleCccdResult_steady (env : Env) (haligned : Aligned s.setup) (hphased : Phased s.setup) (handle : Nat)
    (status : GattStatus) : Steady s (s.handleCccdResult env handle status) := by
  have hidle (hidle : s.activeSubscription = none) :
      (s.handleCccdResult env handle status).setupPhase = s.setupPhase ∧
        (s.handleCccdResult env handle status).degraded = s.degraded := by
    unfold handleCccdResult
    dsimp only [log]
    rw [hidle]
    exact ⟨rfl, rfl⟩
  have hfixture := handleCccdResult_fixture env s handle status
  by_cases hfailed : (s.subscriptionState.cccdResult handle (status == .ok)).2 = .failed
  · have hmove := handleCccdResult_failed_move env s haligned handle status hfailed
    exact .answer hphased hfixture (.single hmove) hidle
  · have hmoves : Moves false _ _ := handleCccdResult_moves env s haligned handle status hfailed
    exact .answer hphased hfixture hmoves hidle

theorem handleNotification_steady (env : Env) (handle : Nat) (value : Buffer) (isNotify : Bool)
    (s : BLEClientHID) :
    Steady s (s.handleNotification env handle value isNotify) := by
  have hsetup := (handleNotification_beside env handle value isNotify s).setup
  have hprofile := handleNotification_profile env s handle value isNotify
  have hsets : (s.handleNotification env handle value isNotify).batteryHandles = s.batteryHandles ∧
      (s.handleNotification env handle value isNotify).serviceChangedHandles = s.serviceChangedHandles := by
    rw [handleNotification_eq]
    unfold receive
    split
    · exact ⟨rfl, rfl⟩
    · split
      · split
        · rw [publishBattery_eq]
          exact ⟨rfl, rfl⟩
        · exact ⟨rfl, rfl⟩
      · split
        · have hsideband := enqueueInputReport_sideband env s.logRawNotification.1 handle value isNotify s.nextSeqId
          exact ⟨congrArg Sideband.batteryHandles hsideband, congrArg Sideband.serviceChangedHandles hsideband⟩
        · exact ⟨rfl, rfl⟩
  generalize s.handleNotification env handle value isNotify = t at hsetup hprofile hsets
  have hphase : t.setupPhase = s.setupPhase := congrArg Setup.setupPhase hsetup
  have hdegraded : t.degraded = s.degraded := congrArg Setup.degraded hsetup
  refine ⟨congrArg Profile.services hprofile, fun r => ?_, hphase ▸ id, hphase ▸ id, fun h hd => ?_⟩
  · cases r with
    | serviceChanged => exact hsets.2
    | battery => exact hsets.1
    | hid => exact congrArg Profile.hidReportHandles hprofile
    | unknown => rfl
  · exact ⟨hphase ▸ h, hdegraded ▸ hd⟩

/-! ## Steps that bring handles -/

theorem runInventory_routed (env : Env) (h : Routed s) (hphase : s.setupPhase = .inventory) :
    Routed (s.runInventory env) := by
  have hnone := h.early (by rw [hphase]; rfl)
  have hsideband : (s.runInventory env).sideband = s.sideband := by
    have hinventory := inventoryGattDatabase_sideband env s
    unfold runInventory
    generalize s.inventoryGattDatabase env = out at hinventory
    dsimp only at hinventory ⊢
    split
    · exact (sideband_of_fixture (finalizeSetup_fixture env _)).trans hinventory
    · split
      · exact hinventory
      · exact (sideband_of_fixture (planReads_fixture out.1)).trans hinventory
  have hhandles (r : Route) : (s.runInventory env).handlesOf r = ∅ :=
    (handlesOf_eq (runInventory_renews env s).2 hsideband r).trans (hnone r)
  refine .of_empty hhandles ?_
  unfold runInventory
  generalize s.inventoryGattDatabase env = out
  dsimp only
  split
  · rw [finalizeSetup_degraded env rfl]
    rfl
  · split <;> rfl

theorem planSubscriptions_routed (env : Env) (h : Routed s) (hbuilt : built s.setupPhase = true) :
    Routed (s.planSubscriptions.transition env .registering) := by
  have hprofile := planSubscriptions_profile s
  have hservices : (s.planSubscriptions.transition env .registering).services = s.services :=
    congrArg Profile.services hprofile
  have hclaimed : (s.planSubscriptions.transition env .registering).hidReportHandles = s.hidReportHandles :=
    congrArg Profile.hidReportHandles hprofile
  have hnoted {r : Route} (hr : r ≠ .hid) : Noted r (handlesWhere r.wants s.services) s
      (s.planSubscriptions.transition env .registering) := by
    obtain ⟨hgrows, hsound, hcomplete⟩ := planSubscriptions_noted hr s
    have hset :
        (s.planSubscriptions.transition env .registering).handlesOf r = s.planSubscriptions.handlesOf r := by
      cases r <;> rfl
    exact ⟨hset ▸ hgrows, hset ▸ hsound, hset ▸ hcomplete⟩
  have hwanted {r : Route} {handle : Nat} (hmem : handle ∈ handlesWhere r.wants s.services) :
      handle ∈ handlesWhere r.admits s.services := by
    obtain ⟨service, hservice, characteristic, hcharacteristic, hwants, hhandle⟩ := mem_handlesWhere.mp hmem
    exact mem_handlesWhere.mpr
      ⟨service, hservice, characteristic, hcharacteristic, (Bool.and_eq_true_iff.mp hwants).2, hhandle⟩
  have hinputs := h.inputs hbuilt
  have hhid : (s.planSubscriptions.transition env .registering).handlesOf .hid = s.handlesOf .hid := hclaimed
  refine ⟨fun r handle hhandle => ?_, (fun hphase => by cases hphase), fun _ => ?_, fun _ hd r handle hmem => ?_⟩
  · rw [hservices]
    by_cases hr : r = .hid
    · subst hr
      exact h.sound .hid handle (hhid ▸ hhandle)
    · rcases (hnoted hr).sound handle hhandle with hold | hnew
      · exact h.sound r handle hold
      · exact hwanted hnew
  · rw [hservices, hclaimed]
    exact hinputs
  · rw [hservices] at hmem
    by_cases hr : r = .hid
    · subst hr
      exact hhid ▸ hinputs handle (hwanted hmem)
    · exact ((hnoted hr).complete hd).2 handle hmem

theorem nextProtocolModeWrite_routed (env : Env) (h : Routed s) (hphase : s.setupPhase = .writingProtocolMode) :
    Routed (s.nextProtocolModeWrite env) := by
  unfold nextProtocolModeWrite
  split
  · exact planSubscriptions_routed env h (by rw [hphase]; rfl)
  · dsimp only
    split
    · exact h.keep (.within rfl rfl id)
    · exact h.keep (.within rfl rfl fun hd => absurd hd (by simp [markDegraded]))

theorem buildHidProfiles_routed (env : Env) (h : Routed s) :
    Routed (s.buildHidProfiles.collectProtocolWrites env) := by
  obtain ⟨d, contexts, sources, heq⟩ := s.buildHidProfiles_profiles
  have hservices : (s.buildHidProfiles.collectProtocolWrites env).services = s.services :=
    congrArg Setup.services heq
  have hsideband : (s.buildHidProfiles.collectProtocolWrites env).sideband = s.sideband :=
    buildHidProfiles_sideband s
  have hclaims {handle : Nat} : handle ∈ (s.buildHidProfiles.collectProtocolWrites env).hidReportHandles ↔
      handle ∈ s.hidReportHandles ∨ handle ∈ handlesWhere isHidInput s.services := buildHidProfiles_claims s
  have hphase : (s.buildHidProfiles.collectProtocolWrites env).setupPhase = .writingProtocolMode := rfl
  generalize s.buildHidProfiles.collectProtocolWrites env = t at hservices hsideband hclaims hphase
  have hbattery : t.handlesOf .battery = s.handlesOf .battery := congrArg Sideband.batteryHandles hsideband
  have hchanged : t.handlesOf .serviceChanged = s.handlesOf .serviceChanged :=
    congrArg Sideband.serviceChangedHandles hsideband
  refine .unplanned (fun r handle hhandle => ?_) (by rw [hphase]; rfl) (by rw [hphase]; rfl)
    fun _ handle hhandle => ?_
  · rw [hservices]
    cases r with
    | hid => exact (hclaims.mp hhandle).elim (h.sound .hid handle) id
    | battery => exact h.sound .battery handle (hbattery ▸ hhandle)
    | serviceChanged => exact h.sound .serviceChanged handle (hchanged ▸ hhandle)
    | unknown => exact absurd hhandle (by simp [handlesOf])
  · rw [hservices] at hhandle
    exact hclaims.mpr (.inr hhandle)

theorem standardPurpose_batteryLevel {serviceUuid : ESPBTUUID} {uuid : Nat} {required : Bool}
    (h : standardPurpose serviceUuid uuid = some (.batteryLevel, required)) :
    uuid16 serviceUuid uuidBatteryService = true ∧ uuid = uuidBatteryLevel := by
  unfold standardPurpose at h
  grind

theorem standardDescriptorPurpose_batteryLevel (uuid : ESPBTUUID) :
    standardDescriptorPurpose uuid ≠ some .batteryLevel := by
  unfold standardDescriptorPurpose
  grind

theorem mem_levels_of_wanted {mode : DiscoveryMode} {services : List GattServiceInfo}
    {operation : GattReadOperation} (h : operation ∈ wantedReads mode services)
    (hpurpose : operation.purpose = .batteryLevel) :
    operation.characteristicHandle ∈ handlesWhere isBatteryLevel services := by
  obtain ⟨service, hservice, characteristic, hmem, -, hhandle,
    hforensic | hstandard | ⟨descriptor, -, hdescriptor⟩⟩ := mem_wantedReads_cases h
  · simp [hforensic] at hpurpose
  · rw [hpurpose] at hstandard
    obtain ⟨hservice', huuid⟩ := standardPurpose_batteryLevel hstandard
    refine mem_handlesWhere.mpr ⟨service, hservice, characteristic, hmem, ?_, hhandle.symm⟩
    simp [isBatteryLevel, hservice', huuid]
  · rw [hpurpose] at hdescriptor
    exact absurd hdescriptor (standardDescriptorPurpose_batteryLevel _)

theorem delivered_active {status : GattStatus} {value : Buffer} {operation : GattReadOperation}
    {bytes : List UInt8} (h : s.delivered status value = some (operation, bytes)) : s.activeRead = some operation := by
  unfold delivered at h
  grind

theorem finishActiveRead_routed (env : Env) (status : GattStatus) (value : Buffer) (hphased : Phased s.setup)
    (hstocked : Stocked s.setup) (h : Routed s) : Routed (s.finishActiveRead env status value) := by
  cases hactive : s.activeRead with
  | none =>
    unfold finishActiveRead
    rw [hactive]
    exact h
  | some operation =>
    have hphase : s.setupPhase = .reading := hphased.reading_of_active hactive
    have hclaimed := (finishActiveRead_renews env status value s).2
    have hsideband := finishActiveRead_sideband env s status value
    obtain ⟨contexts, sources, d, entries, -, -, heq⟩ := finishActiveRead_reads env status value hactive
    generalize s.finishActiveRead env status value = t at hclaimed hsideband heq
    have hservices : t.services = s.services := congrArg Setup.services heq
    have hreading : t.setupPhase = .reading := (congrArg Setup.setupPhase heq).trans hphase
    have hhid : t.handlesOf .hid = s.handlesOf .hid := hclaimed
    -- a read may add a Battery Level, and touches no other set
    have hsets : t.handlesOf .serviceChanged = s.handlesOf .serviceChanged ∧ ∀ handle ∈ t.handlesOf .battery,
        handle ∈ s.handlesOf .battery ∨ handle ∈ handlesWhere isBatteryLevel s.services := by
      cases hdelivered : s.delivered status value with
      | none =>
        rw [hdelivered] at hsideband
        have hbattery : t.handlesOf .battery = s.handlesOf .battery := congrArg Sideband.batteryHandles hsideband
        exact ⟨congrArg Sideband.serviceChangedHandles hsideband, fun handle hhandle => .inl (hbattery ▸ hhandle)⟩
      | some out =>
        rw [hdelivered] at hsideband
        obtain rfl : out.1 = operation := Option.some.inj ((delivered_active hdelivered).symm.trans hactive)
        have hchanged : t.serviceChangedHandles = (s.sideband.read env out.1 out.2).serviceChangedHandles :=
          congrArg Sideband.serviceChangedHandles hsideband
        have hbattery : t.handlesOf .battery = (s.sideband.read env out.1 out.2).batteryHandles :=
          congrArg Sideband.batteryHandles hsideband
        rw [Sideband.read_serviceChanged] at hchanged
        refine ⟨hchanged, fun handle hhandle => ?_⟩
        rw [hbattery, Sideband.mem_read_battery] at hhandle
        refine hhandle.imp_right ?_
        rintro ⟨hpurpose, rfl⟩
        -- it was planned, so it is read of a Battery Level
        exact mem_levels_of_wanted (hstocked.reads out.1 (.inr hactive)) hpurpose
    refine .unplanned (fun r handle hhandle => ?_) (by rw [hreading]; rfl) (by rw [hreading]; rfl) fun hbuilt => ?_
    · rw [hservices]
      cases r with
      | hid => exact h.sound .hid handle (hhid ▸ hhandle)
      | serviceChanged => exact h.sound .serviceChanged handle (hsets.1 ▸ hhandle)
      | unknown => exact absurd hhandle (by simp [handlesOf])
      | battery => exact (hsets.2 handle hhandle).elim (h.sound .battery handle) id
    · rw [hreading] at hbuilt
      cases hbuilt

theorem loopSetup_routed (env : Env) (haligned : Aligned s.setup) (h : Routed s) : Routed (s.loopSetup env) := by
  have hasked := h.keep (requestPendingRediscovery_steady s)
  have hphase := requestPendingRediscovery_phase s
  have haligned' : Aligned s.requestPendingRediscovery.setup := by
    have hacts : Acts env false s _ := requestPendingRediscovery_acts env s
    exact Moves.aligned (acts_moves env haligned hacts) haligned
  unfold loopSetup
  refine Routed.keep ?_ (handlePhaseTimeout_steady env _)
  by_cases hinventory : s.setupPhase = .inventory
  · have hrun : s.requestPendingRediscovery.runPhase env = s.requestPendingRediscovery.runInventory env := by
      unfold runPhase
      rw [hphase, hinventory]
    rw [hrun]
    exact runInventory_routed env hasked (hphase.trans hinventory)
  · by_cases hbuilding : s.setupPhase = .buildingProfile
    · have hrun : s.requestPendingRediscovery.runPhase env =
          (s.requestPendingRediscovery.buildHidProfiles.collectProtocolWrites env).nextProtocolModeWrite env := by
        unfold runPhase startProtocolModeWrite
        rw [hphase, hbuilding]
        dsimp only
        rw [if_pos ((buildHidProfiles_phase _).trans (hphase.trans hbuilding))]
      rw [hrun]
      exact nextProtocolModeWrite_routed env (buildHidProfiles_routed env hasked) rfl
    · by_cases hwriting : s.setupPhase = .writingProtocolMode
      · have hrun : s.requestPendingRediscovery.runPhase env =
            s.requestPendingRediscovery.nextProtocolModeWrite env := by
          unfold runPhase startProtocolModeWrite
          rw [hphase, hwriting]
          rfl
        rw [hrun]
        exact nextProtocolModeWrite_routed env hasked (hphase.trans hwriting)
      · exact hasked.keep (runPhase_steady env haligned' (hphase.trans_ne hinventory) (hphase.trans_ne hbuilding)
          (hphase.trans_ne hwriting))

theorem loop_routed (env : Env) (haligned : Aligned s.setup) (h : Routed s) : Routed (s.loop env) := by
  have hsetup := (loop_beside env s).setup
  have hprofile := loop_renewed env s
  have hhandles := handlesOf_eq (congrArg Profile.hidReportHandles hprofile) (loop_sideband env s)
  have hservices : (s.loop env).services = (s.loopSetup env).services := congrArg Profile.services hprofile
  refine (loopSetup_routed env haligned h).keep ?_
  generalize s.loop env = t at hsetup hhandles hservices
  have hphase : t.setupPhase = (s.loopSetup env).setupPhase := congrArg Setup.setupPhase hsetup
  have hdegraded : t.degraded = (s.loopSetup env).degraded := congrArg Setup.degraded hsetup
  exact ⟨hservices, hhandles, hphase ▸ id, hphase ▸ id, fun hplanned hd => ⟨hphase ▸ hplanned, hdegraded ▸ hd⟩⟩

theorem reset_routed (env : Env) (phase : SetupPhase) (hbuilt : built phase = false) (s : BLEClientHID) :
    Routed (s.resetConnectionState.transition env phase) :=
  .of_empty (fun r => by cases r <;> rfl) hbuilt

theorem handleGattcEvent_routed (env : Env) (event : GattcEvent) (hreached : Reachable s)
    (hone : (s.handleGattcEvent env event).OneSearch) (h : Routed s) : Routed (s.handleGattcEvent env event) := by
  obtain ⟨haligned, hphased⟩ := reachable_phased hreached
  cases event with
  | connect remoteBda =>
    rw [handleGattcEvent]
    split
    · exact (reset_routed env .waitingForDiscovery rfl s).keep (.within rfl rfl id)
    · exact h
  | disconnect remoteBda =>
    rw [handleGattcEvent]
    split
    · exact reset_routed env .disconnected rfl s
    · exact h
  | searchCmpl connId status =>
    rw [handleGattcEvent] at hone ⊢
    split
    · rename_i hconn
      rw [if_pos hconn] at hone
      exact h.keep (handleSearchComplete_steady env status (search_first hreached hone))
    · exact h
  | read connId handle status value =>
    rw [handleGattcEvent, handleRead]
    split
    · split
      · exact h
      · split
        · exact finishActiveRead_routed env status value hphased (reachable_stocked hreached) h
        · exact h
    · exact h
  | regForNotify handle status => exact h.keep (handleRegistrationResult_steady env haligned hphased handle status)
  | writeDescr connId handle status =>
    rw [handleGattcEvent]
    split
    · exact h.keep (handleCccdResult_steady env haligned hphased handle status)
    · exact h
  | notify connId remoteBda handle value isNotify =>
    rw [handleGattcEvent]
    split
    · exact h.keep (handleNotification_steady env handle value isNotify s)
    · exact h
  | srvcChg | congest | queueFull =>
    rw [handleGattcEvent]
    split
    · exact h.keep ⟨rfl, fun r => by cases r <;> rfl, id, id, fun hplanned hd => ⟨hplanned, hd⟩⟩
    · exact h
  | other => exact h

theorem reachable_routed (h : Reachable s) : Routed s := by
  induction h with
  | initial discoveryMode policy interval => exact .of_empty (fun r => by cases r <;> rfl) rfl
  | @step s event hreached hone ih =>
    cases event with
    | loop env => exact loop_routed env (reachable_phased hreached).1 ih
    | gattc env event gattcIf =>
      cases haccepted : accepted env gattcIf with
      | false =>
        rw [step_refused haccepted]
        exact ih
      | true =>
        rw [step_accepted haccepted] at hone ⊢
        exact handleGattcEvent_routed env event hreached hone ih

end

/-! ## The law -/

theorem owner_of_handle {services : List GattServiceInfo} (hdistinct : (characteristicHandles services).Nodup)
    {service service' : GattServiceInfo} {characteristic characteristic' : GattCharacteristicInfo}
    (hservice : service ∈ services) (hservice' : service' ∈ services)
    (hmem : characteristic ∈ service.characteristics) (hmem' : characteristic' ∈ service'.characteristics)
    (hhandle : characteristic.handle = characteristic'.handle) :
    service = service' ∧ characteristic = characteristic' := by
  obtain rfl : service = service' := eq_of_mem hdistinct hservice hservice' (List.mem_map_of_mem hmem)
    (hhandle ▸ List.mem_map_of_mem hmem')
  exact ⟨rfl, List.inj_on_of_nodup_map ((List.nodup_flatMap.mp hdistinct).1 service hservice) hmem hmem' hhandle⟩

namespace Routed

variable {s : BLEClientHID}

theorem characteristic (h : Routed s) {r : Route} {handle : Nat} (hhandle : handle ∈ s.handlesOf r) :
    ∃ service ∈ s.services, ∃ characteristic ∈ service.characteristics, characteristic.handle = handle ∧
      routeOf service characteristic = r := by
  obtain ⟨service, hservice, characteristic, hmem, hadmits, hown⟩ := mem_handlesWhere.mp (h.sound r handle hhandle)
  exact ⟨service, hservice, characteristic, hmem, hown, routeOf_eq hadmits⟩

theorem unique (h : Routed s) (hdistinct : (characteristicHandles s.services).Nodup) {r r' : Route} {handle : Nat}
    (hhandle : handle ∈ s.handlesOf r) (hhandle' : handle ∈ s.handlesOf r') : r' = r := by
  obtain ⟨service, hservice, characteristic, hmem, hown, rfl⟩ := h.characteristic hhandle
  obtain ⟨service', hservice', characteristic', hmem', hown', rfl⟩ := h.characteristic hhandle'
  obtain ⟨rfl, rfl⟩ := owner_of_handle hdistinct hservice hservice' hmem hmem' (hown.trans hown'.symm)
  rfl

/-- The tests of the log come in another order than those of the handler. -/
theorem line (h : Routed s) (hdistinct : (characteristicHandles s.services).Nodup) (env : Env) (handle : Nat)
    (value : Buffer) (isNotify : Bool) :
    (s.rawLine env handle value isNotify).classification = (s.route handle).text := by
  have hapart (hbattery : handle ∈ s.batteryHandles) : handle ∉ s.serviceChangedHandles := by
    intro hchanged
    have hsame := h.unique hdistinct (show handle ∈ s.handlesOf .battery from hbattery)
      (show handle ∈ s.handlesOf .serviceChanged from hchanged)
    cases hsame
  unfold rawLine route
  dsimp only
  by_cases hbattery : handle ∈ s.batteryHandles
  · rw [if_pos hbattery, if_neg (hapart hbattery), if_pos hbattery]
    rfl
  · rw [if_neg hbattery, if_neg hbattery]
    split
    · rfl
    · split <;> rfl

/-- Once the subscriptions are planned, and nothing has failed, the UUIDs decide. -/
theorem subscribed (h : Routed s) (hdistinct : (characteristicHandles s.services).Nodup)
    (hphase : planned s.setupPhase = true) (hdegraded : s.degraded = false) {service : GattServiceInfo}
    (hservice : service ∈ s.services) {characteristic : GattCharacteristicInfo}
    (hmem : characteristic ∈ service.characteristics) (hsubscribe : characteristic.canSubscribe = true) :
    s.route characteristic.handle = routeOf service characteristic := by
  by_cases hunknown : routeOf service characteristic = .unknown
  · rw [hunknown]
    by_contra hroute
    obtain ⟨service', hservice', characteristic', hmem', hown, hsame⟩ := h.characteristic (route_mem hroute)
    obtain ⟨rfl, rfl⟩ := owner_of_handle hdistinct hservice hservice' hmem hmem' hown.symm
    exact hroute (hsame.symm.trans hunknown)
  · have hadmits := routeOf_admits hunknown
    have hhandle : characteristic.handle ∈ s.handlesOf (routeOf service characteristic) := by
      apply h.complete hphase hdegraded
      refine mem_handlesWhere.mpr ⟨service, hservice, characteristic, hmem, ?_, rfl⟩
      unfold Route.wants
      rw [hsubscribe, hadmits]
      rfl
    exact route_eq hhandle fun r' hhandle' => h.unique hdistinct hhandle hhandle'

end Routed

/-- What is done with a notification that goes there. -/
def BLEClientHID.handleAs (env : Env) (handle : Nat) (value : Buffer) (isNotify : Bool) (s : BLEClientHID) :
    Route → BLEClientHID
  | .serviceChanged => { s.logRawNotification.1 with rediscoveryRequested := true }
  | .battery =>
    match value with
    | .bytes (level :: _) => s.logRawNotification.1.publishBattery env level
    | _ => s.logRawNotification.1
  | .hid => s.logRawNotification.1.enqueueInputReport env handle value isNotify s.nextSeqId
  | .unknown => s.logRawNotification.1

theorem handleNotification_route (env : Env) (handle : Nat) (value : Buffer) (isNotify : Bool) (s : BLEClientHID) :
    s.handleNotification env handle value isNotify = s.handleAs env handle value isNotify (s.route handle) := by
  rw [handleNotification_eq]
  unfold receive route
  have hsets : s.logRawNotification.1.serviceChangedHandles = s.serviceChangedHandles ∧
      s.logRawNotification.1.batteryHandles = s.batteryHandles ∧
      s.logRawNotification.1.hidReportHandles = s.hidReportHandles := ⟨rfl, rfl, rfl⟩
  rw [hsets.1, hsets.2.1, hsets.2.2]
  split
  · rfl
  · split
    · rfl
    · split <;> rfl

/-- In every run a notification goes where a characteristic of its handle sends it. Where handles are distinct, the
log names the route that is taken, and once the subscriptions are planned without a failure, the route of a
subscribed characteristic is the one of its UUIDs. -/
theorem notifications_routed (discoveryMode : DiscoveryMode) (policy : ProtocolModePolicy) (interval : UInt32)
    (events : List Event)
    (hsearch : ∀ n < events.length, (run (initial discoveryMode policy interval) (events.take (n + 1))).OneSearch) :
    let s := run (initial discoveryMode policy interval) events
    (∀ handle, s.route handle ≠ .unknown → ∃ service ∈ s.services, ∃ characteristic ∈ service.characteristics,
      characteristic.handle = handle ∧ routeOf service characteristic = s.route handle) ∧
    ((characteristicHandles s.services).Nodup →
      (∀ env handle value isNotify, ∃ r, (s.rawLine env handle value isNotify).classification = r.text ∧
        s.handleNotification env handle value isNotify = s.handleAs env handle value isNotify r) ∧
      (planned s.setupPhase = true → s.degraded = false → ∀ service ∈ s.services,
        ∀ characteristic ∈ service.characteristics, characteristic.canSubscribe = true →
          s.route characteristic.handle = routeOf service characteristic)) := by
  intro s
  have hrouted : Routed s := reachable_routed (reachable_run (.initial discoveryMode policy interval) events hsearch)
  refine ⟨fun handle hroute => hrouted.characteristic (route_mem hroute), fun hdistinct => ⟨?_, ?_⟩⟩
  · intro env handle value isNotify
    exact ⟨s.route handle, hrouted.line hdistinct env handle value isNotify,
      handleNotification_route env handle value isNotify s⟩
  · intro hphase hdegraded service hservice characteristic hmem hsubscribe
    exact hrouted.subscribed hdistinct hphase hdegraded hservice hmem hsubscribe

theorem notifications_routed_keyboard : (run (initial .standard .unchanged 0) keyboardSetup).route 5 = .hid :=
  ((notifications_routed .standard .unchanged 0 keyboardSetup (by decide +kernel)).2 (by decide +kernel)).2
    (by decide +kernel) (by decide +kernel) (hidService [reportMapCharacteristic, reportCharacteristic])
    (by decide +kernel) reportCharacteristic (by decide +kernel) (by decide)

end BleClientHid
