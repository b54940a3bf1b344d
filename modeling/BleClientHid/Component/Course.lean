import BleClientHid.Types

/-! # The course of a setup

A setup as numbers: its phase, how often it has changed the phase, what is still
to be done, and what is planned and counted.
-/

namespace BleClientHid

structure Course where
  phase : SetupPhase
  turns : Nat
  /-- Reads that are queued or active. -/
  reads : Nat
  writes : Nat
  queued : Nat
  active : Bool
  counted : Nat
  plannedReads : Nat
  plannedWrites : Nat
  plannedSubscriptions : Nat

namespace Course

/-- The operations that the phase still has to finish. -/
def outstanding (c : Course) : Nat :=
  match c.phase with
  | .reading => c.reads
  | .writingProtocolMode => c.writes
  | .registering | .waitingForCccd => c.queued + c.active.toNat
  | _ => 0

def planned (c : Course) : Nat := c.plannedReads + c.plannedWrites + c.plannedSubscriptions

/-- The turns that are left, at most. -/
def budget (c : Course) : Nat :=
  match c.phase with
  | .disconnected | .waitingForDiscovery => 6
  | .inventory => 5
  | .reading => 4
  | .buildingProfile => 3
  | .writingProtocolMode => 2
  | .registering => 1 + 2 * c.queued + 2 * c.active.toNat
  | .waitingForCccd => 2 + 2 * c.queued
  | .ready | .degraded | .noHid => 0

/-- The phase changes, or starts again. -/
def turn (phase : SetupPhase) (c : Course) : Course := { c with phase, turns := c.turns + 1 }

def count (n : Nat) (c : Course) : Course := { c with counted := c.counted + n }

/-- What an act does; `n` operations or failures of another kind may be counted on the way. -/
inductive Step (c : Course) : Course → Prop where
  | count (n : Nat) : Step c (c.count n)
  | inventoryFailed (n : Nat) (hphase : c.phase = .inventory) : Step c ((c.count n).turn .degraded)
  | noHid (hphase : c.phase = .inventory) : Step c (c.turn .noHid)
  | planReads (reads n : Nat) (hphase : c.phase = .inventory) (hfirst : c.plannedReads = 0) :
      Step c ({ c.count n with reads, plannedReads := reads }.turn .reading)
  | settleRead (reads n : Nat) (hphase : c.phase = .reading) (hreads : c.reads = reads + 1) :
      Step c { c.count (n + 1) with reads }
  | readsDone (hphase : c.phase = .reading) (hreads : c.reads = 0) : Step c (c.turn .buildingProfile)
  | collectWrites (writes : Nat) (hphase : c.phase = .buildingProfile) (hfirst : c.plannedWrites = 0) :
      Step c ({ c with writes, plannedWrites := writes }.turn .writingProtocolMode)
  | write (writes : Nat) (hphase : c.phase = .writingProtocolMode) (hwrites : c.writes = writes + 1) :
      Step c { c.count 1 with writes }
  | planSubscriptions (queued n : Nat) (hphase : c.phase = .writingProtocolMode) (hwrites : c.writes = 0)
      (hidle : c.active = false) (hfirst : c.plannedSubscriptions = 0) :
      Step c ({ c.count n with queued, plannedSubscriptions := queued }.turn .registering)
  | begin (queued : Nat) (hphase : c.phase = .registering) (hidle : c.active = false)
    (hqueued : c.queued = queued + 1) :
      Step c { c with queued, active := true }
  | beginWithoutCccd (queued : Nat) (hphase : c.phase = .registering) (hidle : c.active = false)
      (hqueued : c.queued = queued + 1) : Step c { c.count 1 with queued }
  | notScheduled (hphase : c.phase = .registering) (hactive : c.active = true) :
      Step c { c.count 1 with active := false }
  | registered (hphase : c.phase = .registering) (hactive : c.active = true) : Step c (c.turn .waitingForCccd)
  | ended (hphase : c.phase = .registering ∨ c.phase = .waitingForCccd) (hactive : c.active = true) :
      Step c ({ c.count 1 with active := false }.turn .registering)
  | finish (phase : SetupPhase) (hphase : c.phase = .registering) (hidle : c.active = false)
    (hqueued : c.queued = 0)
      (hfinal : phase = .ready ∨ phase = .degraded) : Step c (c.turn phase)

/-- The deadline of a phase gives up what is outstanding, and counts once. -/
inductive Cut (c : Course) : Course → Prop where
  | reading (hphase : c.phase = .reading) : Cut c ({ c.count 1 with reads := 0 }.turn .buildingProfile)
  | subscribing (hphase : c.phase = .registering ∨ c.phase = .waitingForCccd) :
      Cut c ({ c.count 1 with queued := 0, active := false }.turn .degraded)
  | other (hphase : c.phase = .inventory ∨ c.phase = .buildingProfile ∨ c.phase = .writingProtocolMode) :
      Cut c ((c.count 1).turn .degraded)

/-- The answer of the service search. -/
inductive Search (c : Course) : Course → Prop where
  | inventory (hphase : c.phase = .disconnected ∨ c.phase = .waitingForDiscovery) : Search c (c.turn .inventory)
  | failed (hphase : c.phase = .disconnected ∨ c.phase = .waitingForDiscovery) :
      Search c ((c.count 1).turn .degraded)

/-- A connection that has just begun or ended. -/
def start (phase : SetupPhase) : Course where
  phase
  turns := 1
  reads := 0
  writes := 0
  queued := 0
  active := false
  counted := 0
  plannedReads := 0
  plannedWrites := 0
  plannedSubscriptions := 0

/-! ## Two laws -/

/-- The turns are paid from the budget, and every subscription adds two. -/
def Bounded (c : Course) : Prop := c.turns + c.budget ≤ 7 + 2 * c.plannedSubscriptions

/-- No operation leaves the phase without being counted on the way. -/
def Accounts (c d : Course) : Prop := d.planned + (c.counted + c.outstanding) ≤ c.planned +
    (d.counted + d.outstanding)

/-- Every planned operation is counted or outstanding. -/
def Counted (c : Course) : Prop := c.planned ≤ c.counted + c.outstanding

variable {c d : Course}

theorem Step.bounded (hstep : Step c d) (h : c.Bounded) : d.Bounded := by
  unfold Bounded budget at *
  cases hstep with
  | ended hphase hactive =>
    rcases hphase with hphase | hphase <;>
      · simp only [turn, Course.count, hphase, hactive, Bool.toNat_true, Bool.toNat_false] at h ⊢
        omega
  | finish phase hphase hidle hqueued hfinal =>
    rcases hfinal with rfl | rfl <;>
      · simp only [turn, hphase] at h ⊢
        omega
  | _ => simp_all [turn, Course.count] <;> omega

theorem Cut.bounded (hcut : Cut c d) (h : c.Bounded) : d.Bounded := by
  unfold Bounded budget at *
  cases hcut with
  | reading hphase =>
    simp only [turn, Course.count, hphase] at h ⊢
    omega
  | subscribing hphase =>
    rcases hphase with hphase | hphase <;>
      · simp only [turn, Course.count, hphase] at h ⊢
        omega
  | other hphase =>
    rcases hphase with hphase | hphase | hphase <;>
      · simp only [turn, Course.count, hphase] at h ⊢
        omega

theorem Search.bounded (hsearch : Search c d) (h : c.Bounded) : d.Bounded := by
  unfold Bounded budget at *
  cases hsearch with
  | inventory hphase | failed hphase =>
    rcases hphase with hphase | hphase <;>
      · simp only [turn, Course.count, hphase] at h ⊢
        omega

theorem Step.turns_le (hstep : Step c d) : c.turns ≤ d.turns := by
  cases hstep <;> simp [turn, Course.count]

theorem Cut.turns_lt (hcut : Cut c d) : c.turns < d.turns := by
  cases hcut <;> exact Nat.lt_succ_self _

theorem Accounts.refl (c : Course) : Accounts c c := le_refl _

theorem Accounts.trans {b : Course} (h : Accounts b c) (h' : Accounts c d) : Accounts b d := by
  unfold Accounts at *
  omega

theorem Accounts.counted (haccounts : Accounts c d) (h : c.Counted) : d.Counted := by
  unfold Accounts at haccounts
  unfold Counted at *
  omega

theorem Step.accounts (hstep : Step c d) : Accounts c d := by
  unfold Accounts planned outstanding
  cases hstep with
  | ended hphase hactive =>
    rcases hphase with hphase | hphase <;>
      · simp only [turn, Course.count, hphase, hactive, Bool.toNat_true, Bool.toNat_false]
        omega
  | finish phase hphase hidle hqueued hfinal =>
    rcases hfinal with rfl | rfl <;>
      · simp only [turn, hphase, hidle, hqueued, Bool.toNat_false]
        omega
  | count n =>
    simp only [Course.count]
    omega
  | _ => simp_all [turn, Course.count] <;> omega

theorem Search.accounts (hsearch : Search c d) : Accounts c d := by
  unfold Accounts planned outstanding
  cases hsearch with
  | inventory hphase | failed hphase =>
    rcases hphase with hphase | hphase <;>
      · simp only [turn, Course.count, hphase]
        omega

theorem Cut.accounts_iff (hcut : Cut c d) : Accounts c d ↔ c.outstanding ≤ 1 := by
  have hnone : d.counted = c.counted + 1 ∧ d.planned = c.planned ∧ d.outstanding = 0 := by
    cases hcut <;> exact ⟨rfl, rfl, rfl⟩
  unfold Accounts
  omega

end Course

end BleClientHid
