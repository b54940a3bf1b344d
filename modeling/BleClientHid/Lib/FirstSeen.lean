import Mathlib.Data.List.DropRight
import Mathlib.Data.List.Nodup
import Mathlib.Tactic.Common

/-! # Keys in the order they were first seen

A log of entries that bring keys to a table, or empty it.
-/

namespace BleClientHid.Lib

variable {α κ : Type}

/-! ## A law about every entry -/

/-- Every entry of the log obeys `P`, given the entries before it. -/
def AtEvery (P : List α → α → Prop) (log : List α) : Prop :=
  ∀ before a after, log = before ++ a :: after → P before a

theorem atEvery_nil (P : List α → α → Prop) : AtEvery P [] := by
  intro before a after h
  simp at h

theorem AtEvery.concat {P : List α → α → Prop} {log : List α} (h : AtEvery P log) {a : α} (ha : P log a) :
    AtEvery P (log ++ [a]) := by
  intro before b after hsplit
  rcases after.eq_nil_or_concat with rfl | ⟨inside, last, rfl⟩
  · obtain ⟨rfl, hlast⟩ := List.append_inj' hsplit rfl
    obtain rfl := (List.cons.inj hlast).1
    exact ha
  · rw [List.concat_eq_append, ← List.cons_append, ← List.append_assoc] at hsplit
    exact h before b inside (List.append_inj' hsplit rfl).1

/-! ## The keys -/

theorem eraseDups_concat [BEq κ] [LawfulBEq κ] (seen : List κ) (k : κ) :
    (seen ++ [k]).eraseDups = if k ∈ seen.eraseDups then seen.eraseDups else seen.eraseDups ++ [k] := by
  rw [List.eraseDups_append, List.removeAll]
  by_cases hk : k ∈ seen <;> simp [hk, List.eraseDups_cons]

section

variable [DecidableEq κ] (empties : α → Bool) (key : α → Option κ)

/-- The entries behind the last one that empties the table. -/
def sinceEmptied (log : List α) : List α := log.rtakeWhile fun a => !empties a

/-- The keys the table holds, in the order they were first seen. -/
def firstSeen (log : List α) : List κ := ((sinceEmptied empties log).filterMap key).eraseDups

@[simp]
theorem firstSeen_nil : firstSeen empties key [] = [] := by
  simp [firstSeen, sinceEmptied]

variable {empties key} {log : List α} {a : α}

theorem firstSeen_empties (h : empties a = true) : firstSeen empties key (log ++ [a]) = [] := by
  rw [firstSeen, sinceEmptied, List.rtakeWhile_concat_neg _ _ _ (by simp [h])]
  rfl

theorem sinceEmptied_concat (h : empties a = false) :
    sinceEmptied empties (log ++ [a]) = sinceEmptied empties log ++ [a] :=
  List.rtakeWhile_concat_pos _ _ _ (by simp [h])

theorem firstSeen_quiet (h : empties a = false) (hkey : key a = none) :
    firstSeen empties key (log ++ [a]) = firstSeen empties key log := by
  rw [firstSeen, sinceEmptied_concat h, List.filterMap_append, List.filterMap_cons_none hkey, List.filterMap_nil,
    List.append_nil, firstSeen]

/-- A key that comes again keeps its place, a new one goes to the end. -/
theorem firstSeen_key (h : empties a = false) {k : κ} (hkey : key a = some k) :
    firstSeen empties key (log ++ [a]) =
      if k ∈ firstSeen empties key log then firstSeen empties key log else firstSeen empties key log ++ [k] := by
  rw [firstSeen, sinceEmptied_concat h, List.filterMap_append, List.filterMap_cons_some hkey, List.filterMap_nil,
    eraseDups_concat]
  rfl

end

end BleClientHid.Lib
