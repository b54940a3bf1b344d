import Mathlib.Data.List.Induction
import Mathlib.Data.List.Nodup
import Mathlib.Tactic.Common

/-! # Spacing

A history of keyed entries in time, where an entry without a key ends what
came before it, and the law that two entries of one key keep their distance.
-/

namespace BleClientHid.Lib

variable {α κ : Type} (key : α → Option κ) (time : α → Nat) (excused : α → Prop)

/-- The entries behind the last one without a key, latest first. -/
def recent (history : List α) : List α := history.reverse.takeWhile fun a => (key a).isSome

@[simp]
theorem recent_nil : recent key [] = [] := rfl

theorem recent_concat_some {history : List α} {b : α} (h : (key b).isSome = true) :
    recent key (history ++ [b]) = b :: recent key history := by
  simp [recent, h]

theorem recent_concat_none {history : List α} {b : α} (h : key b = none) :
    recent key (history ++ [b]) = [] := by
  simp [recent, h]

theorem mem_recent_append {history later : List α} {a : α} (h : a ∈ recent key (history ++ later)) :
    a ∈ recent key history ∨ a ∈ later := by
  induction later using List.reverseRecOn with
  | nil => exact .inl (by simpa using h)
  | append_singleton later b ih =>
    rw [← List.append_assoc] at h
    cases hb : key b with
    | none =>
      rw [recent_concat_none key hb] at h
      cases h
    | some k =>
      rw [recent_concat_some key (by simp [hb])] at h
      rcases List.mem_cons.mp h with rfl | h
      · exact .inr (by simp)
      · exact (ih h).imp_right fun hmem => List.mem_append_left _ hmem

theorem mem_recent {before after : List α} {a : α} (ha : (key a).isSome = true)
    (h : ∀ c ∈ after, key c ≠ none) : a ∈ recent key (before ++ a :: after) := by
  induction after using List.reverseRecOn with
  | nil =>
    rw [recent_concat_some key ha]
    exact List.mem_cons_self
  | append_singleton after c ih =>
    have hc : (key c).isSome = true := Option.isSome_iff_ne_none.mpr (h c (by simp))
    rw [show before ++ a :: (after ++ [c]) = (before ++ a :: after) ++ [c] by simp,
      recent_concat_some key hc]
    exact List.mem_cons_of_mem _ (ih fun d hd => h d (by simp [hd]))

/-- Of two consecutive entries of one key, the later one comes at least `gap` after the earlier one, unless
it is excused or an entry without a key lies between the two. -/
def Spaced (gap : Nat) (history : List α) : Prop :=
  ∀ before a between b after, history = before ++ a :: (between ++ b :: after) →
    (key a).isSome = true → key b = key a → (∀ c ∈ between, key c ≠ key a) →
    time a + gap ≤ time b ∨ excused b ∨ ∃ c ∈ between, key c = none

variable {key time excused} {gap : Nat} {history : List α}

theorem Spaced.nil : Spaced key time excused gap [] := by
  intro before a between b after h
  simp at h

/-- A new entry has to keep its distance from the recent ones only. -/
theorem Spaced.concat (h : Spaced key time excused gap history) {b : α}
    (hb : (key b).isSome = true → ¬ excused b → ∀ a ∈ recent key history, key b = key a → time a + gap ≤ time b) :
    Spaced key time excused gap (history ++ [b]) := by
  intro before a between c after hsplit ha hca hbetween
  rcases List.eq_nil_or_concat after with rfl | ⟨after, last, rfl⟩
  · -- The later entry is the new one.
    have hsplit' : history ++ [b] = (before ++ a :: between) ++ [c] := by
      rw [hsplit]
      simp
    obtain ⟨rfl, hbc⟩ := List.append_inj' hsplit' rfl
    obtain rfl := List.singleton_inj.mp hbc
    by_cases hnone : ∃ d ∈ between, key d = none
    · exact .inr (.inr hnone)
    · by_cases hexcused : excused b
      · exact .inr (.inl hexcused)
      · have hrecent : a ∈ recent key (before ++ a :: between) :=
          mem_recent key ha fun d hd hkey => hnone ⟨d, hd, hkey⟩
        exact .inl (hb (by rw [hca]; exact ha) hexcused a hrecent hca)
  · have hsplit' : history ++ [b] = (before ++ a :: (between ++ c :: after)) ++ [last] := by
      rw [hsplit]
      simp
    obtain ⟨hhistory, -⟩ := List.append_inj' hsplit' rfl
    exact h before a between c after hhistory ha hca hbetween

theorem Spaced.append (h : Spaced key time excused gap history) {group : List α}
    (hkeys : (group.map key).Nodup)
    (hgroup : ∀ b ∈ group, ¬ excused b → ∀ a ∈ recent key history, key b = key a → time a + gap ≤ time b) :
    Spaced key time excused gap (history ++ group) := by
  induction group using List.reverseRecOn with
  | nil => simpa using h
  | append_singleton group b ih =>
    rw [List.map_append, List.nodup_append] at hkeys
    obtain ⟨hkeys, -, hdisjoint⟩ := hkeys
    rw [← List.append_assoc]
    apply (ih hkeys fun c hc => hgroup c (by simp [hc])).concat
    intro _ hexcused a ha hba
    rcases mem_recent_append key ha with ha | ha
    · exact hgroup b (by simp) hexcused a ha hba
    · exact absurd hba.symm (hdisjoint _ (List.mem_map_of_mem ha) _ (by simp))

end BleClientHid.Lib
