import BleClientHid.HidParser.Acceptance

/-! # Delimiters that are left open

A data item refuses an open Delimiter. A Collection, an End Collection, a reserved Main
item and the end of the string do not look.
-/

namespace BleClientHid

namespace HidParser

open Lib HIDReportMap

def Item.opensDelimiter (item : Item) : Bool := item.is .delimiter && item.raw == 1

def Item.closesDelimiter (item : Item) : Bool := item.is .delimiter && item.raw == 0

def DelimitersTerminated (items : List Item) : Prop :=
  ∀ before i after, items = before ++ i :: after → i.opensDelimiter = true →
    ∃ between j rest, after = between ++ j :: rest ∧ (∀ k ∈ between, k.isMain = false) ∧
      j.closesDelimiter = true

/-- An even number of Delimiters behind the last Main item, at every Main item that is no data item
and at the end. -/
structure DelimitersPaired (items : List Item) : Prop where
  main : ∀ p i, p ++ [i] <+: items → i.isMain = true → (∀ kind, i.tag ≠ .data kind) →
    Even (delimiters p).length
  last : Even (delimiters items).length

/-! ## The Delimiters behind the last Main item -/

theorem Item.isMain_of_is_delimiter {i : Item} (h : i.is .delimiter = true) : i.isMain = false := by
  have htag := Item.is_iff.mp h
  rw [i.isMain_of_tag (by simp [htag]), htag]
  rfl

theorem delimiters_append {p seg : List Item} (h : ∀ k ∈ seg, k.isMain = false) :
    delimiters (p ++ seg) = delimiters p ++ (seg.filter (·.is .delimiter)).map Item.raw := by
  induction seg using List.reverseRecOn with
  | nil => simp
  | append_singleton seg k ih =>
    rw [← List.append_assoc, delimiters_concat, if_neg (by simp [h k (by simp)]),
      ih fun j hj => h j (List.mem_append_left _ hj), List.filter_append, List.map_append, List.append_assoc]
    cases hk : k.is .delimiter <;> simp [hk]

theorem delimiterOpen_split {p : List Item} (h : DelimiterOpen p) :
    ∃ before i seg, p = before ++ i :: seg ∧ i.opensDelimiter = true ∧
      ∀ k ∈ seg, k.isMain = false ∧ k.is .delimiter = false := by
  induction p using List.reverseRecOn with
  | nil => simp [DelimiterOpen, delimiters] at h
  | append_singleton p k ih =>
    cases hmain : k.isMain
    case true => exact absurd h (delimiterOpen_main hmain)
    cases hk : k.is .delimiter
    case true =>
      rw [DelimiterOpen, delimiters_concat, hmain, hk, if_neg Bool.false_ne_true, if_pos rfl,
        List.getLast?_concat, Option.some_inj] at h
      exact ⟨p, k, [], rfl, by simp [Item.opensDelimiter, hk, h], by simp⟩
    have htag : k.tag ≠ .delimiter := fun htag => by simp [Item.is_iff.mpr htag] at hk
    obtain ⟨before, i, seg, rfl, hi, hseg⟩ := ih ((delimiterOpen_concat hmain htag).mp h)
    refine ⟨before, i, seg ++ [k], by simp, hi, ?_⟩
    simp only [List.mem_append, List.mem_singleton]
    rintro j (hj | rfl)
    · exact hseg j hj
    · exact ⟨hmain, hk⟩

theorem exists_main_split (l : List Item) :
    ∃ seg rest, l = seg ++ rest ∧ (∀ k ∈ seg, k.isMain = false) ∧ ∀ k ∈ rest.head?, k.isMain = true := by
  induction l with
  | nil => exact ⟨[], [], rfl, by simp, by simp⟩
  | cons i l ih =>
    cases hmain : i.isMain
    · obtain ⟨seg, rest, rfl, hseg, hrest⟩ := ih
      exact ⟨i :: seg, rest, rfl, by simpa [hmain] using hseg, hrest⟩
    · exact ⟨[], i :: l, rfl, by simp, by simp [hmain]⟩

section
variable {items : List Item}

theorem DelimitersTerminated.not_open (h : DelimitersTerminated items) {p after : List Item}
    (hp : items = p ++ after) (hafter : ∀ i ∈ after.head?, i.isMain = true) : ¬ DelimiterOpen p := by
  intro hopen
  obtain ⟨before, i, seg, rfl, hi, hseg⟩ := delimiterOpen_split hopen
  obtain ⟨between, j, rest, hsplit, hbetween, hj⟩ := h before i (seg ++ after) (by simp [hp]) hi
  have hdelim : j.is .delimiter = true := by
    unfold Item.closesDelimiter at hj
    simp only [Bool.and_eq_true] at hj
    exact hj.1
  have hplain : j.isMain = false := Item.isMain_of_is_delimiter hdelim
  rcases List.append_eq_append_iff.mp hsplit with ⟨more, rfl, hmore⟩ | ⟨more, rfl, hmore⟩
  · -- the close stands behind the Main item, or in its place
    cases more with
    | nil => simp [hafter j (by simp [hmore])] at hplain
    | cons k more => simpa [hafter k (by simp [hmore])] using hbetween k (by simp)
  · cases more with
    | nil =>
      rw [List.nil_append] at hmore
      simp [hafter j (by simp [← hmore])] at hplain
    | cons k more =>
      obtain ⟨rfl, -⟩ := List.cons.inj hmore
      simpa [hdelim] using (hseg j (by simp)).2

theorem DelimitersPaired.even (h : DelimitersPaired items) (hlegal : Legal items) {p after : List Item}
    (hp : items = p ++ after) (hafter : ∀ i ∈ after.head?, i.isMain = true) : Even (delimiters p).length := by
  cases after with
  | nil =>
    rw [List.append_nil] at hp
    exact hp ▸ h.last
  | cons i after =>
    have hprefix : p ++ [i] <+: items := ⟨after, by simp [hp]⟩
    by_cases hdata : ∃ kind, i.tag = .data kind
    · -- the parser refuses an open Delimiter here
      obtain ⟨kind, hkind⟩ := hdata
      have halt := hlegal.delimiters p ((List.prefix_append p [i]).trans hprefix)
      have hclosed := hlegal.delimiters_closed p i hprefix kind hkind
      rw [DelimiterOpen, halt.open_iff] at hclosed
      rw [Nat.even_iff]
      omega
    · exact h.main p i hprefix (hafter i rfl) (not_exists.mp hdata)

theorem terminated_iff (hlegal : Legal items) : DelimitersTerminated items ↔ DelimitersPaired items := by
  constructor
  · intro h
    have heven : ∀ p after, items = p ++ after → (∀ i ∈ after.head?, i.isMain = true) →
        Even (delimiters p).length := by
      intro p after hp hafter
      have halt := hlegal.delimiters p ⟨after, hp.symm⟩
      have hclosed := h.not_open hp hafter
      rw [DelimiterOpen, halt.open_iff] at hclosed
      rw [Nat.even_iff]
      omega
    refine ⟨?_, heven items [] (by simp) (by simp)⟩
    rintro p i ⟨after, hp⟩ hmain -
    exact heven p (i :: after) (by simp [← hp]) (by simpa using hmain)
  · rintro h before i after hitems hi
    obtain ⟨seg, rest, rfl, hseg, hrest⟩ := exists_main_split after
    have hp : items = (before ++ i :: seg) ++ rest := by simp [hitems]
    have heven := h.even hlegal hp hrest
    have halt := hlegal.delimiters (before ++ i :: seg) ⟨rest, hp.symm⟩
    unfold Item.opensDelimiter at hi
    simp only [Bool.and_eq_true, beq_iff_eq] at hi
    obtain ⟨hdelim, hraw⟩ := hi
    have hopened : delimiters (before ++ [i]) = delimiters before ++ [1] := by
      rw [delimiters_concat, if_neg (by simp [Item.isMain_of_is_delimiter hdelim]), if_pos hdelim, hraw]
    rw [List.append_cons, delimiters_append hseg, hopened] at heven halt
    have hone : 1 = ((delimiters before).length + 1) % 2 := halt _ 1 (by simp)
    -- an open alone would be odd, so the segment has a Delimiter more: the value after 1 is 0
    cases hfilter : seg.filter (·.is .delimiter) with
    | nil =>
      rw [hfilter, Nat.even_iff] at heven
      simp at heven
      omega
    | cons j more =>
      have hj : j ∈ seg.filter (·.is .delimiter) := by simp [hfilter]
      have hzero := halt ((delimiters before).length + 1) j.raw (by simp [hfilter])
      obtain ⟨hmem, hjdelim⟩ := List.mem_filter.mp hj
      obtain ⟨between, more, rfl⟩ := List.append_of_mem hmem
      refine ⟨between, j, more ++ rest, by simp, fun k hk => hseg k (by simp [hk]), ?_⟩
      have hclose : j.raw = 0 := by omega
      simp [Item.closesDelimiter, hjdelim, hclose]

end

/-! ## Accepted strings -/

/-- The Delimiters of an accepted string are terminated exactly when they come in pairs at the places
where the parser does not look. -/
theorem parse_delimiters_terminated_iff (data : List UInt8)
    (h : (parseReportMapData (.bytes data)).isSome = true) :
    (∃! items : List Item, data = items.flatMap Item.bytes) ∧
      ∀ items : List Item, data = items.flatMap Item.bytes →
        (DelimitersTerminated items ↔ DelimitersPaired items) := by
  obtain ⟨-, items, hitems, s, hs, -⟩ := parseReportMapData_isSome.mp h
  refine ⟨accepted_items h, ?_⟩
  intro other hother
  obtain rfl := items_unique (hitems.symm.trans hother)
  exact terminated_iff (applyItems_tracks hs).1

def aliasDescriptor : List UInt8 :=
  [0x05, 0x01, 0x09, 0x30, 0xA9, 0x01, 0x09, 0x31, 0xA9, 0x00, 0x75, 0x08, 0x95, 0x01, 0x81, 0x02]

theorem parse_delimiters_terminated_iff_alias :
    ∃ items : List Item, aliasDescriptor = items.flatMap Item.bytes ∧
      (DelimitersTerminated items ↔ DelimitersPaired items) := by
  obtain ⟨⟨items, hitems, -⟩, hiff⟩ := parse_delimiters_terminated_iff aliasDescriptor (by decide +kernel)
  exact ⟨items, hitems, hiff items hitems⟩

def openDelimiterDescriptor : List UInt8 :=
  [0x05, 0x01, 0xA9, 0x01, 0x09, 0x06, 0xA1, 0x01, 0x75, 0x08, 0x95, 0x01, 0x81, 0x02, 0xC0]

/-- The string is accepted, and the usage of its collection has become an alias. -/
theorem openDelimiter_accepted :
    (parseReportMapData (.bytes openDelimiterDescriptor)).map
        (·.collections.map fun c => (c.usage, c.aliases)) = some [({}, [{ usage := 6, page := 1 }])] ∧
      ∃ items : List Item, openDelimiterDescriptor = items.flatMap Item.bytes ∧ ¬ DelimitersTerminated items := by
  refine ⟨by decide +kernel, ?_⟩
  let before : List Item :=
    [.short 0x05 [0x01] (by decide) (by decide), .short 0xA9 [0x01] (by decide) (by decide),
      .short 0x09 [0x06] (by decide) (by decide)]
  let after : List Item :=
    [.short 0xA1 [0x01] (by decide) (by decide), .short 0x75 [0x08] (by decide) (by decide),
      .short 0x95 [0x01] (by decide) (by decide), .short 0x81 [0x02] (by decide) (by decide),
      .short 0xC0 [] (by decide) (by decide)]
  refine ⟨before ++ after, by decide, ?_⟩
  intro h
  exact h.not_open rfl (by decide) (show (delimiters before).getLast? = some 1 by decide)

end HidParser

end BleClientHid
