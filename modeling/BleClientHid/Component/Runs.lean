import BleClientHid.Component.Loop

/-! # Reachable states

Runs in which every connection completes at most one service search.
-/

namespace BleClientHid

namespace TraceEntry

def isSearchComplete : TraceEntry → Bool
  | .searchComplete _ => true
  | _ => false

end TraceEntry

namespace BLEClientHID

/-- The log of the connection has at most one search completion. -/
def OneSearch (s : BLEClientHID) : Prop := s.trace.countP TraceEntry.isSearchComplete ≤ 1

instance (s : BLEClientHID) : Decidable s.OneSearch := inferInstanceAs (Decidable (_ ≤ _))

end BLEClientHID

/-- Every order of callbacks and `loop()` calls, with one search completion for each connection. -/
inductive Reachable : BLEClientHID → Prop where
  | initial (discoveryMode : DiscoveryMode) (policy : ProtocolModePolicy) (interval : UInt32) :
      Reachable (initial discoveryMode policy interval)
  | step {s : BLEClientHID} (event : Event) (h : Reachable s) (hsearch : (step s event).OneSearch) :
      Reachable (step s event)

/-- The same with a condition on every step. -/
inductive ReachableWhen (allowed : BLEClientHID → Event → Prop) : BLEClientHID → Prop where
  | initial (discoveryMode : DiscoveryMode) (policy : ProtocolModePolicy) (interval : UInt32) :
      ReachableWhen allowed (initial discoveryMode policy interval)
  | step {s : BLEClientHID} (event : Event) (h : ReachableWhen allowed s) (hsearch : (step s event).OneSearch)
      (hallowed : allowed s event) : ReachableWhen allowed (step s event)

theorem ReachableWhen.reachable {allowed : BLEClientHID → Event → Prop} {s : BLEClientHID}
    (h : ReachableWhen allowed s) : Reachable s := by
  induction h with
  | initial discoveryMode policy interval => exact .initial discoveryMode policy interval
  | step event _ hsearch _ ih => exact .step event ih hsearch

theorem Reachable.always {s : BLEClientHID} (h : Reachable s) : ReachableWhen (fun _ _ => True) s := by
  induction h with
  | initial discoveryMode policy interval => exact .initial discoveryMode policy interval
  | step event _ hsearch ih => exact .step event ih hsearch trivial

theorem run_append_singleton (s : BLEClientHID) (events : List Event) (event : Event) :
    run s (events ++ [event]) = step (run s events) event := by
  simp [run, List.foldl_append]

theorem reachable_run {s : BLEClientHID} (h : Reachable s) (events : List Event)
    (hsearch : ∀ n < events.length, (run s (events.take (n + 1))).OneSearch) :
    Reachable (run s events) := by
  induction events using List.reverseRecOn with
  | nil => exact h
  | append_singleton events event ih =>
    have hprefix : Reachable (run s events) := by
      apply ih
      intro n hn
      have := hsearch n (by simp; omega)
      rwa [List.take_append_of_le_length (by omega)] at this
    have hlast := hsearch events.length (by simp)
    rw [List.take_of_length_le (by simp), run_append_singleton] at hlast
    rw [run_append_singleton]
    exact .step event hprefix hlast

theorem reachableWhen_run {allowed : BLEClientHID → Event → Prop} {s : BLEClientHID} (h : ReachableWhen allowed s)
    (events : List Event) (hsearch : ∀ n < events.length, (run s (events.take (n + 1))).OneSearch)
    (hallowed : ∀ n, ∀ hn : n < events.length, allowed (run s (events.take n)) events[n]) :
    ReachableWhen allowed (run s events) := by
  induction events using List.reverseRecOn with
  | nil => exact h
  | append_singleton events event ih =>
    have hprefix : ReachableWhen allowed (run s events) := by
      apply ih
      · intro n hn
        have hone := hsearch n (by simp; omega)
        rwa [List.take_append_of_le_length (by omega)] at hone
      · intro n hn
        have hstep := hallowed n (by simp; omega)
        rwa [List.take_append_of_le_length (by omega), List.getElem_append_left hn] at hstep
    have hone := hsearch events.length (by simp)
    have hlast := hallowed events.length (by simp)
    rw [List.take_of_length_le (by simp), run_append_singleton] at hone
    rw [List.take_left, List.getElem_concat_length rfl] at hlast
    rw [run_append_singleton]
    exact .step event hprefix hone hlast

/-! ## A keyboard -/

def exampleEnv (services : List GattServiceInfo) : Env :=
  { platform := examplePlatform, gatt := .ofServices services }

/-- Loops with the callbacks that answer them, on a stack that knows the database. -/
def exampleRun (services : List GattServiceInfo) (events : List (Option GattcEvent)) : List Event :=
  events.map fun event => match event with
    | none => .loop (exampleEnv services)
    | some event => .gattc (exampleEnv services) event none

def reportMapCharacteristic : GattCharacteristicInfo :=
  { uuid := .uuid16 0x2A4B, handle := 3, properties := 0x02 }

/-- A Report with a CCCD and a Report Reference. -/
def reportCharacteristic : GattCharacteristicInfo :=
  { uuid := .uuid16 0x2A4D, handle := 5, properties := 0x10
    descriptors := [{ uuid := .uuid16 0x2902, handle := 6 }, { uuid := .uuid16 0x2908, handle := 7 }] }

def hidService (characteristics : List GattCharacteristicInfo) : GattServiceInfo :=
  { uuid := .uuid16 0x1812, startHandle := 1, endHandle := 20, characteristics }

def connectAndSearch : List (Option GattcEvent) := [some (.connect 0), some (.searchCmpl 0 .ok)]

/-- From `READING` with the reference of the Report still to read, to `REGISTERING`. -/
def readReference : List (Option GattcEvent) :=
  [none, some (.read 0 7 .ok (.bytes [0, 1])), none, none]

def readReportMap : List (Option GattcEvent) :=
  [none, some (.read 0 3 .ok (.bytes [0x05, 0x07, 0x19, 0x00, 0x29, 0x65, 0x15, 0x00, 0x25, 0x65, 0x75,
    0x08, 0x95, 0x02, 0x81, 0x00]))]

/-- One subscription, answered, and the `loop()` that finds none left. -/
def subscribe : List (Option GattcEvent) :=
  [none, some (.regForNotify 5 .ok), some (.writeDescr 0 6 .ok), none]

def keyboardServices : List GattServiceInfo := [hidService [reportMapCharacteristic, reportCharacteristic]]

def keyboardSetup : List Event :=
  exampleRun keyboardServices (connectAndSearch ++ [none] ++ readReportMap ++ readReference ++ subscribe)

example : (run (initial .standard .unchanged 0) keyboardSetup).setupPhase = .ready := by decide +kernel

end BleClientHid
