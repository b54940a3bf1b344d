import BleClientHid.Lib.Checked

/-! # String literals

Texts escaped to printable ASCII, as JSON does it, and what a C++ compiler reads in such a literal.
-/

namespace BleClientHid.Lib

/-! ## Escapes -/

def lowerHexDigit (n : Nat) : Char := "0123456789abcdef".toList.getD n '0'

/-- A code unit of UTF-16, in four digits. -/
def unicodeEscape (n : Nat) : List Char :=
  ['\\', 'u', lowerHexDigit (n / 4096 % 16), lowerHexDigit (n / 256 % 16), lowerHexDigit (n / 16 % 16),
    lowerHexDigit (n % 16)]

/-- The letters, and what they stand for behind a backslash. -/
def jsonEscapes : List (Char × Char) :=
  [('"', '"'), ('\\', '\\'), ('n', '\n'), ('r', '\r'), ('t', '\t'), ('f', Char.ofNat 12), ('b', Char.ofNat 8)]

def escapeChar (c : Char) : List Char :=
  match jsonEscapes.find? fun escape => escape.2 = c with
  | some escape => ['\\', escape.1]
  | none =>
    if 0x20 ≤ c.toNat ∧ c.toNat ≤ 0x7E then [c]
    else if c.toNat < 0x10000 then unicodeEscape c.toNat
    else unicodeEscape (0xD800 + (c.toNat - 0x10000) / 0x400) ++
      unicodeEscape (0xDC00 + (c.toNat - 0x10000) % 0x400)

/-- `json.dumps` with `ensure_ascii`. -/
def jsonString (text : List Char) : List Char := '"' :: (text.flatMap escapeChar ++ ['"'])

/-! ## The compiler -/

def hexValue (c : Char) : Option Nat :=
  if 48 ≤ c.toNat ∧ c.toNat ≤ 57 then some (c.toNat - 48)
  else if 97 ≤ c.toNat ∧ c.toNat ≤ 102 then some (c.toNat - 87)
  else if 65 ≤ c.toNat ∧ c.toNat ≤ 70 then some (c.toNat - 55)
  else none

/-- The letters of C++, without those of numbers. -/
def simpleEscapes : List (Char × Char) :=
  jsonEscapes ++ [(Char.ofNat 39, Char.ofNat 39), ('?', '?'), ('a', Char.ofNat 7), ('v', Char.ofNat 11)]

/-- The character of a `\u` escape. A surrogate is no character. -/
def universalChar (digits : List Char) : Checked Char :=
  match digits.mapM hexValue with
  | none => .error .refused
  | some values =>
    let n := values.foldl (fun n value => 16 * n + value) 0
    if n.isValidChar then .ok (Char.ofNat n) else .error .refused

/-- What is in a literal, behind its first quote. Octal and hexadecimal escapes are left out. -/
def readLiteral : List Char → Checked (List Char)
  | [] => .error .refused
  | c :: rest =>
    if c = '"' then if rest = [] then .ok [] else .error .refused
    else if c = '\\' then
      match rest with
      | 'u' :: a :: b :: c :: d :: rest => do
        let char ← universalChar [a, b, c, d]
        let text ← readLiteral rest
        pure (char :: text)
      | letter :: rest =>
        match simpleEscapes.find? fun escape => escape.1 = letter with
        | none => .error .refused
        | some escape => do
          let text ← readLiteral rest
          pure (escape.2 :: text)
      | [] => .error .refused
    else if c = '\n' then .error .refused
    else do
      let text ← readLiteral rest
      pure (c :: text)

/-- A literal from its first quote on. -/
def readStringLiteral : List Char → Checked (List Char)
  | '"' :: rest => readLiteral rest
  | _ => .error .refused

/-! ## Reading back -/

theorem hexValue_lowerHexDigit : ∀ n < 16, hexValue (lowerHexDigit n) = some n := by decide

theorem universalChar_digits {n : Nat} (h : n < 0x10000) :
    universalChar [lowerHexDigit (n / 4096 % 16), lowerHexDigit (n / 256 % 16), lowerHexDigit (n / 16 % 16),
      lowerHexDigit (n % 16)] = if n.isValidChar then .ok (Char.ofNat n) else .error .refused := by
  have hdigit (m : Nat) : hexValue (lowerHexDigit (m % 16)) = some (m % 16) :=
    hexValue_lowerHexDigit _ (Nat.mod_lt _ (by decide))
  have hvalue : 16 * (16 * (16 * (16 * 0 + n / 4096 % 16) + n / 256 % 16) + n / 16 % 16) + n % 16 = n := by omega
  simp only [universalChar, List.mapM_cons, List.mapM_nil, hdigit, Option.pure_def, Option.bind_eq_bind,
    Option.bind_some, List.foldl_cons, List.foldl_nil, hvalue]

variable (rest : List Char)

theorem readLiteral_u (a b c d : Char) :
    readLiteral ('\\' :: 'u' :: a :: b :: c :: d :: rest) = (do
      let char ← universalChar [a, b, c, d]
      let text ← readLiteral rest
      pure (char :: text)) := by
  rw [readLiteral.eq_def]
  dsimp only
  rw [if_neg (by decide), if_pos rfl]
  rfl

theorem readLiteral_unicode {n : Nat} (h : n < 0x10000) :
    readLiteral (unicodeEscape n ++ rest) =
      if n.isValidChar then (readLiteral rest).map (Char.ofNat n :: ·) else .error .refused := by
  unfold unicodeEscape
  simp only [List.cons_append, List.nil_append]
  rw [readLiteral_u, universalChar_digits h]
  split
  · cases readLiteral rest <;> rfl
  · rfl

theorem simpleEscapes_json : ∀ escape ∈ jsonEscapes, escape.1 ≠ 'u' ∧
    simpleEscapes.find? (fun other => other.1 = escape.1) = some escape := by decide

theorem readLiteral_simple {escape : Char × Char} (h : escape ∈ jsonEscapes) :
    readLiteral ('\\' :: escape.1 :: rest) = (readLiteral rest).map (escape.2 :: ·) := by
  obtain ⟨hletter, hfind⟩ := simpleEscapes_json escape h
  rw [readLiteral.eq_def]
  dsimp only
  rw [if_neg (by decide), if_pos rfl]
  split
  · rename_i heq
    exact absurd (List.cons.inj heq).1 hletter
  · rename_i letter rest' _ heq
    obtain ⟨rfl, rfl⟩ := List.cons.inj heq
    rw [hfind]
    cases readLiteral rest <;> rfl
  · rename_i heq
    cases heq

theorem readLiteral_plain {c : Char} (h : jsonEscapes.find? (fun escape => escape.2 = c) = none) :
    readLiteral (c :: rest) = (readLiteral rest).map (c :: ·) := by
  have hother : ∀ escape ∈ jsonEscapes, c ≠ escape.2 := by
    intro escape hescape heq
    exact List.find?_eq_none.mp h escape hescape (by simp [heq])
  rw [readLiteral.eq_def]
  dsimp only
  rw [if_neg (hother ('"', '"') (by decide)), if_neg (hother ('\\', '\\') (by decide)),
    if_neg (hother ('n', '\n') (by decide))]
  cases readLiteral rest <;> rfl

/-- An escaped character is read as itself, when it is in the basic plane. Others are written as surrogates. -/
theorem readLiteral_escapeChar (c : Char) :
    readLiteral (escapeChar c ++ rest) =
      if c.toNat < 0x10000 then (readLiteral rest).map (c :: ·) else .error .refused := by
  have hchar : c.toNat.isValidChar := c.valid
  unfold escapeChar
  split
  · rename_i escape hfind
    have hmem := List.mem_of_find?_eq_some hfind
    obtain rfl : escape.2 = c := by simpa using List.find?_some hfind
    have hsmall : ∀ escape ∈ jsonEscapes, escape.2.toNat < 0x10000 := by decide
    rw [if_pos (hsmall escape hmem)]
    exact readLiteral_simple rest hmem
  · rename_i hfind
    split
    · rename_i hplain
      rw [if_pos (by omega)]
      exact readLiteral_plain rest hfind
    · split
      · rename_i hsmall
        rw [readLiteral_unicode rest hsmall, if_pos hchar, Char.ofNat_toNat]
      · -- The first half of the pair ends the reading.
        rename_i hlarge
        have hsurrogate : ¬(0xD800 + (c.toNat - 0x10000) / 0x400).isValidChar := by
          unfold Nat.isValidChar at hchar ⊢
          omega
        rw [List.append_assoc, readLiteral_unicode _ (by unfold Nat.isValidChar at hchar; omega), if_neg hsurrogate]

def BasicPlane (text : List Char) : Prop := ∀ c ∈ text, c.toNat < 0x10000

-- Found by itself, the instance would be one that tries every character.
instance (text : List Char) : Decidable (BasicPlane text) := List.decidableBAll (fun c : Char => c.toNat < 0x10000) text

theorem basicPlane_cons {c : Char} {text : List Char} :
    BasicPlane (c :: text) ↔ c.toNat < 0x10000 ∧ BasicPlane text := List.forall_mem_cons

/-- A literal compiles exactly when all its characters are in the basic plane, and is then the text it was made of. -/
theorem readStringLiteral_jsonString (text : List Char) :
    readStringLiteral (jsonString text) =
      if BasicPlane text then .ok text else .error .refused := by
  change readLiteral (text.flatMap escapeChar ++ ['"']) = _
  induction text with
  | nil => rfl
  | cons c text ih =>
    rw [List.flatMap_cons, List.append_assoc, readLiteral_escapeChar, ih]
    by_cases hc : c.toNat < 0x10000
    · by_cases htext : BasicPlane text
      · rw [if_pos hc, if_pos htext, if_pos (basicPlane_cons.mpr ⟨hc, htext⟩)]
        rfl
      · rw [if_pos hc, if_neg htext, if_neg fun hall => htext (basicPlane_cons.mp hall).2]
        rfl
    · rw [if_neg hc, if_neg fun hall => hc (basicPlane_cons.mp hall).1]

end BleClientHid.Lib
