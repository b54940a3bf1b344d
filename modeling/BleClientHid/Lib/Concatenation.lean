import Mathlib.Data.Set.Function
import Mathlib.Tactic.Common

/-! # Reading a concatenation back

When the parts of a list can be told from the whole: codes of which none begins
another, fields of one length, fields up to a delimiter, and blocks led by a mark.
-/

namespace BleClientHid.Lib

variable {α β : Type}

/-! ## Prefix codes -/

/-- Of the letters in `S` no code begins another, and none is empty. -/
structure PrefixFree (code : β → List α) (S : Set β) : Prop where
  nonempty : ∀ b ∈ S, code b ≠ []
  eq_of_prefix : ∀ b ∈ S, ∀ c ∈ S, code b <+: code c → b = c

theorem PrefixFree.injOn {code : β → List α} {S : Set β} (h : PrefixFree code S) :
    Set.InjOn (List.flatMap code) {l | ∀ b ∈ l, b ∈ S} := by
  intro l hl l' hl' hflat
  induction l generalizing l' with
  | nil =>
    cases l' with
    | nil => rfl
    | cons c l' =>
      have hempty : code c = [] := (List.append_eq_nil_iff.mp hflat.symm).1
      exact absurd hempty (h.nonempty c (hl' c List.mem_cons_self))
  | cons b l ih =>
    have hb := hl b List.mem_cons_self
    cases l' with
    | nil =>
      have hempty : code b = [] := (List.append_eq_nil_iff.mp hflat).1
      exact absurd hempty (h.nonempty b hb)
    | cons c l' =>
      have hc := hl' c List.mem_cons_self
      rw [List.flatMap_cons, List.flatMap_cons] at hflat
      -- of two beginnings of one list the shorter begins the longer
      have hsame : b = c := by
        rcases List.prefix_or_prefix_of_prefix (List.prefix_append (code b) (l.flatMap code))
          (hflat ▸ List.prefix_append (code c) (l'.flatMap code)) with hbc | hcb
        · exact h.eq_of_prefix b hb c hc hbc
        · exact (h.eq_of_prefix c hc b hb hcb).symm
      subst hsame
      rw [ih (fun d hd => hl d (List.mem_cons_of_mem _ hd)) (fun d hd => hl' d (List.mem_cons_of_mem _ hd))
        (List.append_cancel_left hflat)]

/-! ## Fields -/

theorem prefix_of_same_length {u v x y : List α} (hlen : u.length = v.length) (h : u ++ x <+: v ++ y) :
    u = v ∧ x <+: y := by
  obtain ⟨rest, hrest⟩ := h
  rw [List.append_assoc] at hrest
  obtain ⟨rfl, hxy⟩ := List.append_inj hrest hlen
  exact ⟨rfl, rest, hxy⟩

theorem eq_of_delimited {c : α} {u v : List α} (hv : c ∉ v) (h : u ++ [c] <+: v ++ [c]) : u = v := by
  obtain ⟨rest, hrest⟩ := h
  rcases Nat.lt_or_ge u.length v.length with hlt | hge
  · -- a shorter `u` would put its delimiter inside `v`
    have hget := congrArg (·[u.length]?) hrest
    simp only [List.append_assoc, List.getElem?_append_right (Nat.le_refl _), Nat.sub_self,
      List.getElem?_append_left hlt] at hget
    exact absurd (List.mem_of_getElem? hget.symm) hv
  · have hlen := congrArg List.length hrest
    simp only [List.length_append, List.length_singleton] at hlen
    rw [List.append_assoc] at hrest
    exact (List.append_inj hrest (by omega)).1

/-! ## Blocks -/

section

variable {p : α → Prop}

theorem append_inj_of_mark {u v x y : List α} (hu : ∀ a ∈ u, ¬p a) (hv : ∀ a ∈ v, ¬p a) (hx : ∀ a ∈ x.head?, p a)
    (hy : ∀ a ∈ y.head?, p a) (h : u ++ x = v ++ y) : u = v ∧ x = y := by
  induction u generalizing v with
  | nil =>
    cases v with
    | nil => exact ⟨rfl, h⟩
    | cons b v =>
      rw [List.nil_append] at h
      exact absurd (hx b (by rw [h]; rfl)) (hv b List.mem_cons_self)
  | cons a u ih =>
    cases v with
    | nil =>
      rw [List.nil_append] at h
      exact absurd (hy a (by rw [← h]; rfl)) (hu a List.mem_cons_self)
    | cons b v =>
      obtain ⟨rfl, hrest⟩ := List.cons.inj h
      obtain ⟨rfl, rfl⟩ := ih (fun c hc => hu c (List.mem_cons_of_mem _ hc))
        (fun c hc => hv c (List.mem_cons_of_mem _ hc)) hrest
      exact ⟨rfl, rfl⟩

def Marked (p : α → Prop) (block : List α) : Prop := ∃ a rest, block = a :: rest ∧ p a ∧ ∀ b ∈ rest, ¬p b

theorem head_of_marked {f : β → List α} (hf : ∀ b, Marked p (f b)) (l : List β) :
    ∀ a ∈ (l.flatMap f).head?, p a := by
  cases l with
  | nil => simp
  | cons b l =>
    obtain ⟨a, rest, hblock, ha, -⟩ := hf b
    rw [List.flatMap_cons, hblock]
    simpa using ha

theorem flatMap_injective_of_marked {f : β → List α} (hf : ∀ b, Marked p (f b)) (hinj : Function.Injective f) :
    Function.Injective (List.flatMap f) := by
  intro l l' h
  induction l generalizing l' with
  | nil =>
    cases l' with
    | nil => rfl
    | cons b l' =>
      obtain ⟨a, rest, hblock, -⟩ := hf b
      rw [List.flatMap_cons, hblock] at h
      exact absurd h.symm (List.cons_ne_nil _ _)
  | cons b l ih =>
    obtain ⟨a, rest, hblock, -, hrest⟩ := hf b
    cases l' with
    | nil =>
      rw [List.flatMap_cons, hblock] at h
      exact absurd h (List.cons_ne_nil _ _)
    | cons b' l' =>
      obtain ⟨a', rest', hblock', -, hrest'⟩ := hf b'
      rw [List.flatMap_cons, List.flatMap_cons, hblock, hblock'] at h
      obtain ⟨rfl, htail⟩ := List.cons.inj h
      obtain ⟨rfl, hmore⟩ := append_inj_of_mark hrest hrest' (head_of_marked hf l) (head_of_marked hf l') htail
      rw [hinj (hblock.trans hblock'.symm), ih hmore]

end

end BleClientHid.Lib
