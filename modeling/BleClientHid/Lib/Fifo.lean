import Mathlib.Algebra.GroupWithZero.Nat
import Mathlib.Data.List.Basic
import Mathlib.Order.Bounds.Basic
import Mathlib.Tactic.Common

/-! # Bounded queues

A queue with a limit on its length and one on its weight, that drops its oldest
elements to make room, and the log of what comes and goes.
-/

namespace BleClientHid.Lib

variable {α : Type}

/-! ## Room for one more -/

structure Limits where
  length : Nat
  weight : Nat

section

variable (limits : Limits) (size : α → Nat)

def totalWeight (queue : List α) : Nat := (queue.map size).sum

/-- An element of this weight can be put behind the queue. -/
def Fits (weight : Nat) (queue : List α) : Prop :=
  queue.length < limits.length ∧ totalWeight size queue + weight ≤ limits.weight

instance (weight : Nat) (queue : List α) : Decidable (Fits limits size weight queue) :=
  inferInstanceAs (Decidable (_ ∧ _))

/-- How many of the oldest have to go. -/
def evictions (weight : Nat) : List α → Nat
  | [] => 0
  | a :: queue => if Fits limits size weight (a :: queue) then 0 else evictions weight queue + 1

variable {limits size} {weight : Nat}

theorem fits_nil (hlength : 0 < limits.length) (hweight : weight ≤ limits.weight) : Fits limits size weight [] :=
  ⟨hlength, by simpa [totalWeight] using hweight⟩

theorem fits_evictions (hlength : 0 < limits.length) (hweight : weight ≤ limits.weight) (queue : List α) :
    Fits limits size weight (queue.drop (evictions limits size weight queue)) := by
  induction queue with
  | nil => exact fits_nil hlength hweight
  | cons a queue ih =>
    unfold evictions
    split
    · assumption
    · exact ih

theorem not_fits_of_lt {queue : List α} {k : Nat} (h : k < evictions limits size weight queue) :
    ¬Fits limits size weight (queue.drop k) := by
  induction queue generalizing k with
  | nil => simp [evictions] at h
  | cons a queue ih =>
    unfold evictions at h
    split at h
    · simp at h
    · cases k with
      | zero => assumption
      | succ k => exact ih (by omega)

theorem evictions_isLeast (hlength : 0 < limits.length) (hweight : weight ≤ limits.weight) (queue : List α) :
    IsLeast {k | Fits limits size weight (queue.drop k)} (evictions limits size weight queue) := by
  refine ⟨fits_evictions hlength hweight queue, fun k hk => ?_⟩
  by_contra hlt
  exact not_fits_of_lt (by omega) hk

theorem evictions_le (queue : List α) : evictions limits size weight queue ≤ queue.length := by
  induction queue with
  | nil => exact le_refl _
  | cons a queue ih =>
    unfold evictions
    split
    · exact Nat.zero_le _
    · exact Nat.succ_le_succ ih

end

/-! ## Logs -/

inductive QueueEntry (α : Type) where
  | admitted (a : α)
  | processed (a : α)
  | evicted (a : α)
  | discarded (a : α)
  deriving DecidableEq, Repr

namespace QueueEntry

def arrival : QueueEntry α → Option α
  | admitted a => some a
  | _ => none

/-- An element leaves in one of three ways. -/
def departure : QueueEntry α → Option α
  | admitted _ => none
  | processed a | evicted a | discarded a => some a

def done : QueueEntry α → Option α
  | processed a => some a
  | _ => none

def dropped : QueueEntry α → Option α
  | evicted a => some a
  | _ => none

end QueueEntry

variable {log log' : List (QueueEntry α)} {queue queue' queue'' : List α}

def arrivals (log : List (QueueEntry α)) : List α := log.filterMap QueueEntry.arrival

def departures (log : List (QueueEntry α)) : List α := log.filterMap QueueEntry.departure

def done (log : List (QueueEntry α)) : List α := log.filterMap QueueEntry.done

def dropped (log : List (QueueEntry α)) : List α := log.filterMap QueueEntry.dropped

theorem arrivals_append : arrivals (log ++ log') = arrivals log ++ arrivals log' := List.filterMap_append

theorem departures_append : departures (log ++ log') = departures log ++ departures log' := List.filterMap_append

theorem dropped_append : dropped (log ++ log') = dropped log ++ dropped log' := List.filterMap_append

theorem done_append : done (log ++ log') = done log ++ done log' := List.filterMap_append

theorem arrivals_map {f : α → QueueEntry α} (hf : ∀ a, (f a).arrival = none) (queue : List α) :
    arrivals (queue.map f) = [] := by
  simp [arrivals, List.filterMap_map, hf]

theorem departures_map {f : α → QueueEntry α} (hf : ∀ a, (f a).departure = some a) (queue : List α) :
    departures (queue.map f) = queue := by
  simp [departures, List.filterMap_map, hf]

theorem dropped_map {f : α → QueueEntry α} (hf : ∀ a, (f a).dropped = some a) (queue : List α) :
    dropped (queue.map f) = queue := by
  simp [dropped, List.filterMap_map, hf]

theorem dropped_map_none {f : α → QueueEntry α} (hf : ∀ a, (f a).dropped = none) (queue : List α) :
    dropped (queue.map f) = [] := by
  simp [dropped, List.filterMap_map, hf]

theorem done_map {f : α → QueueEntry α} (hf : ∀ a, (f a).done = some a) (queue : List α) :
    done (queue.map f) = queue := by
  simp [done, List.filterMap_map, hf]

theorem done_map_none {f : α → QueueEntry α} (hf : ∀ a, (f a).done = none) (queue : List α) :
    done (queue.map f) = [] := by
  simp [done, List.filterMap_map, hf]

theorem done_sublist (log : List (QueueEntry α)) : (done log).Sublist (departures log) := by
  induction log with
  | nil => exact .refl _
  | cons entry log ih =>
    cases entry with
    | admitted => exact ih
    | processed a => exact ih.cons_cons a
    | evicted a | discarded a => exact ih.cons a

/-- What was there and what came is what went and what is there, in this order. -/
def Explains (log : List (QueueEntry α)) (queue queue' : List α) : Prop :=
  queue ++ arrivals log = departures log ++ queue'

namespace Explains

theorem refl (queue : List α) : Explains [] queue queue := List.append_nil _

theorem append (h : Explains log queue queue') (h' : Explains log' queue' queue'') :
    Explains (log ++ log') queue queue'' := by
  unfold Explains at *
  rw [arrivals_append, departures_append, ← List.append_assoc, h, List.append_assoc, h', List.append_assoc]

theorem push (queue : List α) (a : α) : Explains [.admitted a] queue (queue ++ [a]) := rfl

theorem process (a : α) (queue : List α) : Explains [.processed a] (a :: queue) queue := List.append_nil _

theorem evict (a : α) (queue : List α) : Explains [.evicted a] (a :: queue) queue := List.append_nil _

theorem discard (queue : List α) : Explains (queue.map .discarded) queue [] := by
  unfold Explains
  rw [arrivals_map fun _ => rfl, departures_map fun _ => rfl]

theorem length_eq (h : Explains log queue queue') :
    queue.length + (arrivals log).length = (departures log).length + queue'.length := by
  have hlength := congrArg List.length h
  rwa [List.length_append, List.length_append] at hlength

theorem prefix_departures (h : Explains log queue queue') (hlength : queue.length ≤ (departures log).length) :
    queue <+: departures log := by
  apply List.prefix_of_prefix_length_le _ (List.prefix_append (departures log) queue') hlength
  rw [← h]
  exact List.prefix_append queue (arrivals log)

theorem done_sublist (h : Explains log [] queue) : (done log).Sublist (arrivals log) := by
  unfold Explains at h
  rw [List.nil_append] at h
  rw [h]
  exact (Lib.done_sublist log).trans (List.sublist_append_left ..)

end Explains

end BleClientHid.Lib
