import BleClientHid.Lib.Checked
import Mathlib.Data.List.Forall2
import Mathlib.Data.List.Nodup
import Mathlib.Order.Lattice

/-! # Binary search

A halving search in a part of an array, that may read nothing outside that part, and the linear
search it stands for.
-/

namespace BleClientHid.Lib

variable {α κ : Type}

/-! ## Linear search -/

section

variable [DecidableEq κ] {key : α → κ} {k : κ} {l : List α}

theorem find?_key_eq_some (hnodup : (l.map key).Nodup) {a : α} :
    l.find? (fun b => key b = k) = some a ↔ a ∈ l ∧ key a = k := by
  constructor
  · intro h
    exact ⟨List.mem_of_find?_eq_some h, by simpa using List.find?_some h⟩
  · rintro ⟨hmem, rfl⟩
    cases hfind : l.find? (fun b => key b = key a) with
    | none =>
      have hnone := List.find?_eq_none.mp hfind a hmem
      simp at hnone
    | some b =>
      have hkey : key b = key a := by simpa using List.find?_some hfind
      rw [List.inj_on_of_nodup_map hnodup (List.mem_of_find?_eq_some hfind) hmem hkey]

theorem find?_key_perm {l' : List α} (hperm : l'.Perm l) (hnodup : (l.map key).Nodup) :
    l'.find? (fun b => key b = k) = l.find? fun b => key b = k := by
  have hnodup' : (l'.map key).Nodup := (hperm.map key).nodup_iff.mpr hnodup
  apply Option.ext
  intro a
  rw [find?_key_eq_some hnodup, find?_key_eq_some hnodup', hperm.mem_iff]

end

theorem rel_find? {β : Type} {R : α → β → Prop} {p : α → Bool} {q : β → Bool} (hpq : ∀ a b, R a b → p a = q b)
    {l : List α} {l' : List β} (h : List.Forall₂ R l l') : Option.Rel R (l.find? p) (l'.find? q) := by
  induction h with
  | nil => exact .none
  | @cons a b _ _ hab _ ih =>
    rw [List.find?_cons, List.find?_cons, hpq a b hab]
    cases q b with
    | true => exact .some hab
    | false => exact ih

theorem forall_mem_of_forall₂ {β : Type} {R : α → β → Prop} {P : β → Prop} (hP : ∀ a b, R a b → P b)
    {l : List α} {l' : List β} (h : List.Forall₂ R l l') : ∀ b ∈ l', P b := by
  induction h with
  | nil => simp
  | @cons a b _ _ hab _ ih => exact List.forall_mem_cons.mpr ⟨hP a b hab, ih⟩

/-! ## The search -/

variable [LinearOrder κ] (key : α → κ) (k : κ)

def readBetween (array : List α) (first last i : Nat) : Checked α :=
  if first ≤ i ∧ i < last then getAt array i else .error .outOfRange

/-- The position of the key between `first` and `last`, when there is one. -/
def bisect (read : Nat → Checked α) : Nat → Nat → Nat → Checked (Option Nat)
  | 0, _, _ => .error .outOfFuel
  | fuel + 1, first, last =>
    if first < last then do
      let middle := first + (last - first) / 2
      let a ← read middle
      if key a < k then bisect read fuel (middle + 1) last
      else if k < key a then bisect read fuel first middle
      else pure (some middle)
    else pure none

variable {key k}

section

variable {f : Nat → α} {first last middle i : Nat}

def Rises (key : α → κ) (f : Nat → α) (first last : Nat) : Prop :=
  ∀ i j, first ≤ i → i < j → j < last → key (f i) < key (f j)

def KeyAt (key : α → κ) (k : κ) (f : Nat → α) (first last i : Nat) : Prop :=
  first ≤ i ∧ i < last ∧ key (f i) = k

theorem Rises.part (h : Rises key f first last) {first' last' : Nat} (hfirst : first ≤ first')
    (hlast : last' ≤ last) : Rises key f first' last' :=
  fun i j hi hij hj => h i j (Nat.le_trans hfirst hi) hij (Nat.lt_of_lt_of_le hj hlast)

theorem Rises.keyAt_above (h : Rises key f first last) (hfirst : first ≤ middle) (hlast : middle < last)
    (hkey : key (f middle) < k) : KeyAt key k f (middle + 1) last i ↔ KeyAt key k f first last i := by
  constructor
  · rintro ⟨hi, hj, hk⟩
    exact ⟨by omega, hj, hk⟩
  · rintro ⟨hi, hj, rfl⟩
    refine ⟨?_, hj, rfl⟩
    by_contra hle
    rcases Nat.lt_or_eq_of_le (show i ≤ middle by omega) with him | rfl
    · exact lt_asymm hkey (h i middle hi him hlast)
    · exact lt_irrefl _ hkey

theorem Rises.keyAt_below (h : Rises key f first last) (hfirst : first ≤ middle) (hlast : middle < last)
    (hkey : k < key (f middle)) : KeyAt key k f first middle i ↔ KeyAt key k f first last i := by
  constructor
  · rintro ⟨hi, hj, hk⟩
    exact ⟨hi, by omega, hk⟩
  · rintro ⟨hi, hj, rfl⟩
    refine ⟨hi, ?_, rfl⟩
    by_contra hle
    rcases Nat.lt_or_eq_of_le (show middle ≤ i by omega) with him | rfl
    · exact lt_asymm hkey (h middle i hfirst him hj)
    · exact lt_irrefl _ hkey

theorem Rises.keyAt_unique (h : Rises key f first last) {j : Nat} (hi : KeyAt key k f first last i)
    (hj : KeyAt key k f first last j) : i = j := by
  obtain ⟨hfirst, hlast, hkey⟩ := hi
  obtain ⟨hfirst', hlast', hkey'⟩ := hj
  rcases Nat.lt_trichotomy i j with hij | hij | hij
  · exact absurd (hkey.trans hkey'.symm) (ne_of_lt (h i j hfirst hij hlast'))
  · exact hij
  · exact absurd (hkey'.trans hkey.symm) (ne_of_lt (h j i hfirst' hij hlast))

theorem bisect_spec {read : Nat → Checked α} {fuel : Nat} (hfuel : last - first < fuel)
    (hread : ∀ i, first ≤ i → i < last → read i = .ok (f i)) (hrises : Rises key f first last) :
    ∃ found, bisect key k read fuel first last = .ok found ∧
      ∀ i, found = some i ↔ KeyAt key k f first last i := by
  induction fuel generalizing first last with
  | zero => omega
  | succ fuel ih =>
    unfold bisect
    by_cases hlt : first < last
    · rw [if_pos hlt]
      have hmiddle : first + (last - first) / 2 < last := by omega
      generalize hm : first + (last - first) / 2 = middle at hmiddle
      have hfirst : first ≤ middle := by omega
      dsimp only
      rw [hread middle hfirst hmiddle, ok_bind]
      split
      · -- the key can only stand behind the middle
        rename_i hsmall
        obtain ⟨found, hfound, hiff⟩ := @ih (middle + 1) last (by omega)
          (fun i hi hj => hread i (by omega) hj) (hrises.part (by omega) (Nat.le_refl _))
        exact ⟨found, hfound, fun i => (hiff i).trans (hrises.keyAt_above hfirst hmiddle hsmall)⟩
      · rename_i hnotSmall
        split
        · -- or in front of it
          rename_i hlarge
          obtain ⟨found, hfound, hiff⟩ := @ih first middle (by omega)
            (fun i hi hj => hread i hi (by omega)) (hrises.part (Nat.le_refl _) (by omega))
          exact ⟨found, hfound, fun i => (hiff i).trans (hrises.keyAt_below hfirst hmiddle hlarge)⟩
        · -- neither smaller nor larger: the middle holds it, and only the middle
          rename_i hnotLarge
          have hkeyAt : KeyAt key k f first last middle :=
            ⟨hfirst, hmiddle, le_antisymm (not_lt.mp hnotLarge) (not_lt.mp hnotSmall)⟩
          refine ⟨some middle, rfl, fun i => ?_⟩
          constructor
          · rintro ⟨⟩
            exact hkeyAt
          · intro hi
            rw [hrises.keyAt_unique hkeyAt hi]
    · rw [if_neg hlt]
      refine ⟨none, rfl, fun i => ?_⟩
      constructor
      · intro h
        cases h
      · rintro ⟨hi, hj, -⟩
        omega

end

theorem part_getElem? {array : List α} {first last : Nat} {f : Nat → α}
    (hf : ∀ i, i < last → array[i]? = some (f i)) {i : Nat} (h : first + i < last) :
    ((array.take last).drop first)[i]? = some (f (first + i)) := by
  rw [List.getElem?_drop, List.getElem?_take_of_lt h]
  exact hf _ h

theorem mem_part {array : List α} {first last : Nat} {f : Nat → α} (hf : ∀ i, i < last → array[i]? = some (f i))
    {a : α} : a ∈ (array.take last).drop first ↔ ∃ i, first ≤ i ∧ i < last ∧ f i = a := by
  constructor
  · intro hmem
    obtain ⟨i, hi⟩ := List.mem_iff_getElem?.mp hmem
    have hlt : first + i < last := by
      have := (List.getElem?_eq_some_iff.mp hi).1
      simp only [List.length_drop, List.length_take] at this
      omega
    rw [part_getElem? hf hlt] at hi
    exact ⟨first + i, by omega, hlt, Option.some.inj hi⟩
  · rintro ⟨i, hi, hlt, rfl⟩
    apply List.mem_of_getElem? (i := i - first)
    rw [part_getElem? hf (by omega), Nat.add_sub_cancel' hi]

theorem rises_of_pairwise {array : List α} {first last : Nat} {f : Nat → α}
    (hf : ∀ i, i < last → array[i]? = some (f i))
    (hrises : (((array.take last).drop first).map key).Pairwise (· < ·)) : Rises key f first last := by
  intro i j hi hij hj
  have hi' : ((array.take last).drop first)[i - first]? = some (f i) := by
    rw [part_getElem? hf (by omega), Nat.add_sub_cancel' hi]
  have hj' : ((array.take last).drop first)[j - first]? = some (f j) := by
    rw [part_getElem? hf (by omega), Nat.add_sub_cancel' (by omega)]
  obtain ⟨hlti, hgeti⟩ := List.getElem?_eq_some_iff.mp hi'
  obtain ⟨hltj, hgetj⟩ := List.getElem?_eq_some_iff.mp hj'
  have hpair := List.pairwise_iff_getElem.mp (List.pairwise_map.mp hrises) _ _ hlti hltj (by omega)
  rwa [hgeti, hgetj] at hpair

/-- In a part of an array whose keys rise, the search finds what a linear search of that part finds. -/
theorem bisect_readBetween {array : List α} {first last : Nat} (hlast : last ≤ array.length)
    (hrises : (((array.take last).drop first).map key).Pairwise (· < ·)) :
    ∃ found, bisect key k (readBetween array first last) (last - first + 1) first last = .ok found ∧
      (∀ i, found = some i → i < last) ∧
      found.bind (array[·]?) = ((array.take last).drop first).find? fun a => key a = k := by
  by_cases hlt : first < last
  · -- Any entry serves as the default of reads that never happen.
    have hinside : first < array.length := by omega
    let f : Nat → α := fun i => array.getD i array[first]
    have hf : ∀ i, i < last → array[i]? = some (f i) := by
      intro i hi
      simp only [f, List.getD_eq_getElem?_getD, List.getElem?_eq_getElem (show i < array.length by omega),
        Option.getD_some]
    have hread : ∀ i, first ≤ i → i < last → readBetween array first last i = .ok (f i) := by
      intro i hi hj
      rw [readBetween, if_pos ⟨hi, hj⟩, getAt_of_getElem? (hf i hj)]
    obtain ⟨found, hfound, hiff⟩ := bisect_spec (k := k) (Nat.lt_succ_self _) hread (rises_of_pairwise hf hrises)
    refine ⟨found, hfound, fun i hi => ((hiff i).mp hi).2.1, ?_⟩
    apply Option.ext
    intro a
    rw [find?_key_eq_some (hrises.imp ne_of_lt), mem_part hf, Option.bind_eq_some_iff]
    constructor
    · rintro ⟨i, hi, hget⟩
      obtain ⟨hfirst, hlt', hkey⟩ := (hiff i).mp hi
      obtain rfl := Option.some.inj ((hf i hlt').symm.trans hget)
      exact ⟨⟨i, hfirst, hlt', rfl⟩, hkey⟩
    · rintro ⟨⟨i, hfirst, hlt', rfl⟩, hkey⟩
      exact ⟨i, (hiff i).mpr ⟨hfirst, hlt', hkey⟩, hf i hlt'⟩
  · refine ⟨none, ?_, by simp, ?_⟩
    · rw [bisect, if_neg hlt]
      rfl
    · rw [List.drop_eq_nil_of_le (by simp; omega)]
      rfl

end BleClientHid.Lib
