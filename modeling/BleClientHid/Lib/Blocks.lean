import Mathlib.Data.List.Basic
import Mathlib.Data.List.Nodup

/-! # Coalescing

A stream of keyed contributions and barriers goes in, blocks of contributions
and barriers come out.
-/

namespace BleClientHid.Lib

variable {κ γ β : Type}

inductive Arrival (κ γ β : Type) where
  | contribution (key : κ) (c : γ)
  | barrier (b : β)

/-- Consecutive contributions of one key, at least one. -/
structure Block (κ γ : Type) where
  key : κ
  first : γ
  rest : List γ := []

def Block.contributions (b : Block κ γ) : List γ := b.first :: b.rest

def Block.last (b : Block κ γ) : γ := b.rest.getLastD b.first

inductive Emission (κ γ β : Type) where
  | block (b : Block κ γ)
  | barrier (b : β)

/-- The arrivals that an emission accounts for. -/
def Emission.arrivals : Emission κ γ β → List (Arrival κ γ β)
  | .block b => b.contributions.map (.contribution b.key)
  | .barrier b => [.barrier b]

variable [DecidableEq κ]

/-- A contribution of the key, or a barrier. -/
def Arrival.concerns (k : κ) : Arrival κ γ β → Bool
  | .contribution key _ => key = k
  | .barrier _ => true

/-- For every key, the blocks and barriers that go out account for the contributions and
barriers that came in, in the same order. -/
def Coalesces (arrivals : List (Arrival κ γ β)) (emissions : List (Emission κ γ β)) : Prop :=
  ∀ k, (emissions.flatMap Emission.arrivals).filter (Arrival.concerns k) =
    arrivals.filter (Arrival.concerns k)

theorem Coalesces.nil : Coalesces ([] : List (Arrival κ γ β)) [] := fun _ => rfl

theorem Coalesces.append {as as' : List (Arrival κ γ β)} {es es' : List (Emission κ γ β)}
    (h : Coalesces as es) (h' : Coalesces as' es') : Coalesces (as ++ as') (es ++ es') := by
  intro k
  rw [List.flatMap_append, List.filter_append, List.filter_append, h k, h' k]

theorem Coalesces.emit (e : Emission κ γ β) : Coalesces e.arrivals [e] := by
  intro k
  rw [List.flatMap_singleton]

/-! ## Open blocks -/

/-- A contribution joins the open block of its key, or opens one behind the others. -/
def joinBlock (k : κ) (c : γ) : List (Block κ γ) → List (Block κ γ)
  | [] => [{ key := k, first := c }]
  | b :: bs => if b.key = k then { b with rest := b.rest ++ [c] } :: bs else b :: joinBlock k c bs

theorem joinBlock_keys (k : κ) (c : γ) (blocks : List (Block κ γ)) :
    (joinBlock k c blocks).map (·.key) =
      if k ∈ blocks.map (·.key) then blocks.map (·.key) else blocks.map (·.key) ++ [k] := by
  induction blocks with
  | nil => rfl
  | cons b bs ih =>
    unfold joinBlock
    by_cases hb : b.key = k
    · simp [hb]
    · rw [if_neg hb, List.map_cons, ih]
      by_cases hk : k ∈ bs.map (·.key)
      · simp [hk]
      · simp [hk, Ne.symm hb]

theorem joinBlock_nodup {k : κ} {c : γ} {blocks : List (Block κ γ)} (h : (blocks.map (·.key)).Nodup) :
    ((joinBlock k c blocks).map (·.key)).Nodup := by
  rw [joinBlock_keys]
  split
  · exact h
  · rename_i hk
    exact h.append (List.nodup_singleton k) (by simpa [List.disjoint_singleton] using hk)

theorem filter_block_arrivals {k : κ} {blocks : List (Block κ γ)} (h : k ∉ blocks.map (·.key)) :
    ((blocks.map (Emission.block (β := β))).flatMap Emission.arrivals).filter (Arrival.concerns k) = [] := by
  rw [List.filter_eq_nil_iff]
  intro a ha
  simp only [List.flatMap_map, List.mem_flatMap, Emission.arrivals, List.mem_map] at ha
  obtain ⟨b, hb, c, -, rfl⟩ := ha
  have hne : b.key ≠ k := fun heq => h (List.mem_map.mpr ⟨b, hb, heq⟩)
  simpa [Arrival.concerns] using hne

theorem joinBlock_coalesces {k : κ} {c : γ} {blocks : List (Block κ γ)}
    (h : (blocks.map (·.key)).Nodup) :
    Coalesces ((blocks.map (Emission.block (β := β))).flatMap Emission.arrivals ++ [.contribution k c])
      ((joinBlock k c blocks).map .block) := by
  induction blocks with
  | nil => exact fun _ => rfl
  | cons b bs ih =>
    obtain ⟨hb, hbs⟩ := List.nodup_cons.mp h
    intro k'
    unfold joinBlock
    by_cases hk : b.key = k
    · subst hk
      rw [if_pos rfl]
      simp only [List.map_cons, List.flatMap_cons, Emission.arrivals, Block.contributions,
        List.filter_append, List.map_append, List.append_assoc, ← List.cons_append]
      congr 1
      by_cases hk' : k' = b.key
      · rw [hk', filter_block_arrivals hb, List.append_nil, List.nil_append]
        rfl
      · have hskip : [Arrival.contribution (β := β) b.key c].filter (Arrival.concerns k') = [] := by
          simp [Arrival.concerns, Ne.symm hk']
        rw [List.map_nil, hskip, List.append_nil, List.nil_append]
    · rw [if_neg hk]
      simp only [List.map_cons, List.flatMap_cons, List.filter_append, List.append_assoc]
      have := ih hbs k'
      rw [List.filter_append] at this
      rw [this]

theorem Coalesces.join {as : List (Arrival κ γ β)} {es : List (Emission κ γ β)}
    {blocks : List (Block κ γ)} (h : Coalesces as (es ++ blocks.map .block))
    (hnodup : (blocks.map (·.key)).Nodup) (k : κ) (c : γ) :
    Coalesces (as ++ [.contribution k c]) (es ++ (joinBlock k c blocks).map .block) := by
  intro k'
  have hjoin := joinBlock_coalesces (β := β) (c := c) (k := k) hnodup k'
  have hold := h k'
  simp only [List.flatMap_append, List.filter_append] at hold hjoin ⊢
  rw [hjoin, ← hold, List.append_assoc]

end BleClientHid.Lib
