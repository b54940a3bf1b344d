import BleClientHid.Component.Turns

/-! # Plans

What the setup plans to read, to write and to subscribe, in closed form, and the
phases it goes through.
-/

namespace BleClientHid

open Setup BLEClientHID

/-! ## The reads -/

theorem foldl_addRead_queue (wanted : List GattReadOperation) (s : BLEClientHID) :
    (wanted.foldl addRead s).readQueue = s.readQueue ++
      ((firstReads wanted).filter (·.handle ∉ s.plannedReadHandles)).take
        (maxReadOperations - s.readQueue.length) := by
  induction wanted generalizing s with
  | nil => simp [firstReads]
  | cons operation wanted ih =>
    rw [List.foldl_cons, ih, addRead]
    split
    · rename_i hplanned
      rw [firstReads_filter_seen hplanned]
    · rename_i hnew
      split
      · rename_i hfull
        simp [markDegraded, Nat.sub_eq_zero_of_le hfull]
      · rename_i hroom
        obtain ⟨room, hlength⟩ : ∃ room, maxReadOperations - s.readQueue.length = room + 1 :=
          ⟨maxReadOperations - s.readQueue.length - 1, by omega⟩
        have hrest : maxReadOperations - (s.readQueue.length + 1) = room := by omega
        rw [firstReads_filter_new hnew, hlength, List.take_succ_cons, List.length_append, List.length_singleton,
          hrest, List.append_assoc, List.singleton_append]

/-- `plan_reads_` queues the first read of each handle, up to the limit. -/
theorem planReads_queue (s : BLEClientHID) :
    s.planReads.readQueue = (firstReads (wantedReads s.discoveryMode s.services)).take maxReadOperations := by
  unfold planReads
  rw [foldl_addRead_queue, List.filter_eq_self.mpr (by simp)]
  rfl

theorem firstReads_nodup (wanted : List GattReadOperation) : ((firstReads wanted).map (·.handle)).Nodup := by
  induction wanted with
  | nil => exact List.nodup_nil
  | cons operation wanted ih =>
    rw [firstReads, List.map_cons, List.nodup_cons]
    refine ⟨?_, (List.filter_sublist.map _).nodup ih⟩
    simp

theorem planReads_nodup (s : BLEClientHID) : (s.planReads.readQueue.map (·.handle)).Nodup := by
  rw [planReads_queue]
  exact ((List.take_sublist _ _).map _).nodup (firstReads_nodup _)

/-! ## The subscriptions -/

/-- The subscriptions that `plan_subscriptions_` asks for, in the order of the database. -/
def wantedSubscriptions (mode : DiscoveryMode) (services : List GattServiceInfo) : List SubscriptionInfo :=
  services.flatMap fun service =>
    (service.characteristics.filter (subscribes mode service)).map (subscription service)

theorem planCharacteristics_queue (service : GattServiceInfo) (characteristics : List GattCharacteristicInfo)
    (s : BLEClientHID) : (planCharacteristics service characteristics s).discoveryMode = s.discoveryMode ∧
      (planCharacteristics service characteristics s).subscriptionQueue = s.subscriptionQueue ++
        ((characteristics.filter (subscribes s.discoveryMode service)).map (subscription service)).take
          (maxSubscriptions - s.subscriptionQueue.length) := by
  induction characteristics generalizing s with
  | nil => simp [planCharacteristics]
  | cons characteristic characteristics ih =>
    unfold planCharacteristics
    split
    · rename_i hskip
      rw [List.filter_cons_of_neg (by simpa using hskip)]
      exact ih s
    · rename_i hwanted
      split
      · rename_i hfull
        simp [markDegraded, Nat.sub_eq_zero_of_le hfull]
      · rename_i hroom
        obtain ⟨room, hlength⟩ : ∃ room, maxSubscriptions - s.subscriptionQueue.length = room + 1 :=
          ⟨maxSubscriptions - s.subscriptionQueue.length - 1, by omega⟩
        have hrest : maxSubscriptions - (s.subscriptionQueue.length + 1) = room := by omega
        obtain ⟨hmode, hqueue⟩ := ih (s.addSubscription service characteristic)
        refine ⟨hmode, hqueue.trans ?_⟩
        rw [List.filter_cons_of_pos (by simpa using hwanted), List.map_cons, hlength, List.take_succ_cons]
        simp [addSubscription, hrest]

theorem foldl_planCharacteristics_queue (services : List GattServiceInfo) (s : BLEClientHID) :
    (services.foldl (fun s service => planCharacteristics service service.characteristics s) s).subscriptionQueue =
      s.subscriptionQueue ++
        (wantedSubscriptions s.discoveryMode services).take (maxSubscriptions - s.subscriptionQueue.length) := by
  induction services generalizing s with
  | nil => simp [wantedSubscriptions]
  | cons service services ih =>
    obtain ⟨hmode, hqueue⟩ := planCharacteristics_queue service service.characteristics s
    rw [List.foldl_cons, ih, hmode, hqueue, List.append_assoc, wantedSubscriptions, wantedSubscriptions,
      List.flatMap_cons, List.take_append]
    congr 3
    simp
    omega

theorem planSubscriptions_queue (s : BLEClientHID) :
    s.planSubscriptions.subscriptionQueue =
      (wantedSubscriptions s.discoveryMode s.services).take maxSubscriptions := by
  unfold planSubscriptions
  rw [foldl_planCharacteristics_queue]
  rfl

end BleClientHid
