import Mathlib.Data.List.Induction
import Mathlib.Data.List.Nodup
import Mathlib.Logic.Function.Basic
import Mathlib.Tactic.Common

/-! # Replaying key events

Events that set a key to a value, and switches that show each change of
position once.
-/

namespace BleClientHid.Lib

variable {κ ι : Type} [DecidableEq κ]

/-! ## Replay -/

def replay (state : κ → Int) (events : List (κ × Int)) : κ → Int :=
  events.foldl (fun state event => Function.update state event.1 event.2) state

/-- The values that one key is set to. -/
def valuesAt (key : κ) (events : List (κ × Int)) : List Int :=
  (events.filter fun event => event.1 = key).map (·.2)

@[simp]
theorem valuesAt_nil (key : κ) : valuesAt key [] = [] := rfl

@[simp]
theorem valuesAt_append (key : κ) (events later : List (κ × Int)) :
    valuesAt key (events ++ later) = valuesAt key events ++ valuesAt key later := by
  simp [valuesAt]

theorem valuesAt_of_ne {key : κ} {events : List (κ × Int)} (h : ∀ event ∈ events, event.1 ≠ key) :
    valuesAt key events = [] := by
  rw [valuesAt, List.filter_eq_nil_iff.mpr, List.map_nil]
  simpa using h

theorem valuesAt_singleton (key : κ) (event : κ × Int) :
    valuesAt key [event] = if event.1 = key then [event.2] else [] := by
  by_cases h : event.1 = key <;> simp [valuesAt, h]

theorem replay_apply (state : κ → Int) (events : List (κ × Int)) (key : κ) :
    replay state events key = (valuesAt key events).getLastD (state key) := by
  induction events using List.reverseRecOn with
  | nil => rfl
  | append_singleton events event ih =>
    have hstep : replay state (events ++ [event]) = Function.update (replay state events) event.1 event.2 := by
      simp [replay, List.foldl_append]
    rw [hstep, valuesAt_append, valuesAt_singleton]
    by_cases h : event.1 = key
    · subst h
      rw [Function.update_self, if_pos rfl, List.getLastD_concat]
    · rw [Function.update_of_ne (Ne.symm h), if_neg h, List.append_nil, ih]

theorem valuesAt_map [DecidableEq ι] {key : ι → κ} (hkey : Function.Injective key) (value : ι → Int)
    {l : List ι} (hl : l.Nodup) (i : ι) :
    valuesAt (key i) (l.map fun j => (key j, value j)) = if i ∈ l then [value i] else [] := by
  induction l with
  | nil => rfl
  | cons j l ih =>
    obtain ⟨hj, hl⟩ := List.nodup_cons.mp hl
    have hcons : valuesAt (key i) ((j :: l).map fun j => (key j, value j)) =
        valuesAt (key i) [(key j, value j)] ++ valuesAt (key i) (l.map fun j => (key j, value j)) :=
      valuesAt_append (key i) [(key j, value j)] _
    rw [hcons, ih hl]
    by_cases hij : i = j
    · subst hij
      simp [valuesAt, hj]
    · have hne : key j ≠ key i := fun h => hij (hkey h).symm
      simp [valuesAt, hne, hij]

/-! ## Switches -/

def Toggles (values : List Int) : Prop := ∀ n v, values[n]? = some v → v = if n % 2 = 0 then 1 else 0

/-- What is shown of a move from one position to the next. -/
def shown (position next : Int) : List Int := if position = next then [] else [next]

/-- What a switch that starts at 0 has shown, and where it stands. -/
structure Switch (values : List Int) (position : Int) : Prop where
  toggles : Toggles values
  position : position = if values.length % 2 = 0 then 0 else 1

theorem Switch.start : Switch [] 0 := ⟨by simp [Toggles], rfl⟩

/-- The switch is moved, and shows it when that is a change. -/
theorem Switch.move {values : List Int} {position next : Int} (h : Switch values position)
    (hnext : next = 0 ∨ next = 1) : Switch (values ++ shown position next) next := by
  obtain ⟨htoggles, hposition⟩ := h
  unfold shown
  by_cases hsame : position = next
  · rw [if_pos hsame, List.append_nil]
    exact ⟨htoggles, hsame ▸ hposition⟩
  · rw [if_neg hsame]
    refine ⟨fun n v hv => ?_, ?_⟩
    · rcases Nat.lt_or_ge n values.length with hn | hn
      · rw [List.getElem?_append_left hn] at hv
        exact htoggles n v hv
      · rw [List.getElem?_append_right hn] at hv
        obtain ⟨hzero, hv⟩ := List.getElem?_eq_some_iff.mp hv
        obtain rfl : n = values.length := by simp at hzero; omega
        simp at hv
        split at hposition <;> split <;> omega
    · rw [List.length_append, List.length_singleton]
      split at hposition <;> split <;> omega

theorem Switch.last {values : List Int} {position : Int} (h : Switch values position) :
    values.getLastD 0 = position := by
  obtain ⟨htoggles, rfl⟩ := h
  cases values using List.reverseRecOn with
  | nil => rfl
  | append_singleton values v =>
    have hv := htoggles values.length v (by simp)
    rw [List.getLastD_concat, hv, List.length_append, List.length_singleton]
    split <;> split <;> omega

end BleClientHid.Lib
