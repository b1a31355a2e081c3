import Nexus.Postgres.Jsonb

/-! JSONB reads back every string map that `json.Marshal` writes, unless NUL
occurs in it. -/

set_option autoImplicit false

namespace Nexus.Postgres

open Nexus.Go.JsonText

def nul : Char := Char.ofNat 0

theorem hexValue_hexDigit {value : Nat} (small : value < 16) :
    hexValue (hexDigit value) = some value := by
  have all : ∀ value < 16, hexValue (hexDigit value) = some value := by decide
  exact all value small

/-- A character read in front of what the rest of a string holds. -/
def readBefore (c : Char) (rest : List Char) : Except JsonbError (List Char × List Char) :=
  (lexString rest).map fun lexed => (c :: lexed.1, lexed.2)

theorem unescapeUnicode_hexDigits {code : Nat} (small : code < 0xD800) :
    unescapeUnicode (hexDigit (code / 0x1000 % 16)) (hexDigit (code / 0x100 % 16))
        (hexDigit (code / 0x10 % 16)) (hexDigit (code % 16)) =
      if code = 0 then .error .untranslatableCharacter else .ok (Char.ofNat code) := by
  have whole : ((code / 0x1000 % 16 * 16 + code / 0x100 % 16) * 16 + code / 0x10 % 16) * 16 +
      code % 16 = code := by omega
  have paired : ¬ (0xD800 ≤ code ∧ code < 0xE000) := by omega
  simp only [unescapeUnicode, hexValue_hexDigit (Nat.mod_lt _ (by decide : 0 < 16)), whole,
    if_neg paired]

theorem lexString_unicodeEscape {code : Nat} (small : code < 0xD800) (rest : List Char) :
    lexString (unicodeEscape code ++ rest) =
      if code = 0 then .error .untranslatableCharacter
      else readBefore (Char.ofNat code) rest := by
  have notQuote : backslash ≠ quote := by decide
  simp only [unicodeEscape, List.cons_append, List.nil_append]
  rw [lexString, if_neg notQuote, if_pos rfl]
  simp only [unescapeUnicode_hexDigits small]
  by_cases zero : code = 0
  · simp only [if_pos zero]
  · simp only [if_neg zero, readBefore]

theorem shortEscape_eq_some {c letter : Char} (short : shortEscape c = some letter) :
    letter ≠ 'u' ∧ unescape letter = some c ∧ c ≠ nul := by
  unfold shortEscape at short
  split at short
  · rename_i itself
    cases short
    rcases itself with rfl | rfl <;> decide
  · repeat' split at short
    all_goals
      cases short
      try
        rename_i code
        rw [← Char.ofNat_toNat c, code]
        decide

theorem shortEscape_eq_none {c : Char} (long : shortEscape c = none) :
    c ≠ quote ∧ c ≠ backslash := by
  unfold shortEscape at long
  split at long
  · cases long
  · rename_i neither
    exact ⟨fun same => neither (.inr same), fun same => neither (.inl same)⟩

theorem lexString_plain {c : Char} (notQuote : c ≠ quote) (notBackslash : c ≠ backslash)
    (printable : ¬ c.toNat < 0x20) (rest : List Char) :
    lexString (c :: rest) = readBefore c rest := by
  rw [lexString.eq_def]
  simp only [if_neg notQuote, if_neg notBackslash, if_neg printable, readBefore]

theorem lexString_shortEscape {letter c : Char} (notUnicode : letter ≠ 'u')
    (escaped : unescape letter = some c) (rest : List Char) :
    lexString (backslash :: letter :: rest) = readBefore c rest := by
  have notQuote : backslash ≠ quote := by decide
  rw [lexString.eq_def]
  simp only [if_neg notQuote, if_true]
  split
  · rename_i same
    exact absurd (List.cons.inj same).1 notUnicode
  · rename_i same
    obtain ⟨rfl, rfl⟩ := List.cons.inj same
    rw [escaped, readBefore]
  · rename_i same
    cases same

/-- Reading what Go wrote for a character gives the character back. -/
theorem lexString_escape (c : Char) (rest : List Char) :
    lexString (escape c ++ rest) =
      if c = nul then .error .untranslatableCharacter else readBefore c rest := by
  unfold escape
  cases short : shortEscape c with
  | some letter =>
      obtain ⟨notUnicode, escaped, notNul⟩ := shortEscape_eq_some short
      rw [if_neg notNul]
      exact lexString_shortEscape notUnicode escaped rest
  | none =>
      obtain ⟨notQuote, notBackslash⟩ := shortEscape_eq_none short
      have zero : c.toNat = 0 ↔ c = nul := by
        constructor
        · intro code
          rw [← Char.ofNat_toNat c, code, nul]
        · rintro rfl
          rfl
      dsimp only
      split
      · rename_i special
        have small : c.toNat < 0xD800 := by
          rcases special with low | rfl | rfl | rfl | code | code
          · omega
          · decide
          · decide
          · decide
          · omega
          · omega
        rw [lexString_unicodeEscape small, Char.ofNat_toNat]
        simp only [zero]
      · rename_i plain
        have printable : ¬ c.toNat < 0x20 := fun low => plain (.inl low)
        rw [if_neg (by rw [← zero]; omega)]
        exact lexString_plain notQuote notBackslash printable rest

theorem lexString_escaped (text rest : List Char) :
    lexString (text.flatMap escape ++ quote :: rest) =
      if nul ∈ text then .error .untranslatableCharacter else .ok (text, rest) := by
  induction text with
  | nil =>
      rw [List.flatMap_nil, List.nil_append, lexString.eq_def]
      simp only [if_true, if_neg List.not_mem_nil]
  | cons c text ih =>
      rw [List.flatMap_cons, List.append_assoc, lexString_escape, readBefore, ih]
      by_cases zero : c = nul
      · simp [zero]
      · have another : nul ≠ c := fun same => zero same.symm
        by_cases later : nul ∈ text
        · simp [zero, later, Except.map]
        · simp [zero, later, another, Except.map]

theorem parseString_appendString (text : String) (rest : List Char) :
    parseString (appendString text ++ rest) =
      if nul ∈ text.toList then .error .untranslatableCharacter else .ok (text, rest) := by
  simp only [appendString, List.cons_append, List.append_assoc, List.nil_append, parseString,
    if_true, lexString_escaped]
  by_cases zero : nul ∈ text.toList
  · simp [zero, Except.map]
  · simp [zero, Except.map]

/-- NUL occurs in a key or a value. -/
def HoldsNul (map : List (String × String)) : Prop :=
  ∃ member ∈ map, nul ∈ member.1.toList ∨ nul ∈ member.2.toList

instance (map : List (String × String)) : Decidable (HoldsNul map) :=
  inferInstanceAs (Decidable (∃ member ∈ map, _))

theorem parseMember_appendMember (member : String × String) (rest : List Char) :
    parseMember (appendMember member ++ rest) =
      if nul ∈ member.1.toList ∨ nul ∈ member.2.toList then .error .untranslatableCharacter
      else .ok (member, rest) := by
  rw [parseMember, appendMember, List.append_assoc, List.cons_append, parseString_appendString]
  by_cases first : nul ∈ member.1.toList
  · simp [first]
  · by_cases second : nul ∈ member.2.toList
    · simp [first, second, parseString_appendString, Except.map]
    · simp [first, second, parseString_appendString, Except.map]

theorem holdsNul_cons (member : String × String) (map : List (String × String)) :
    HoldsNul (member :: map) ↔
      (nul ∈ member.1.toList ∨ nul ∈ member.2.toList) ∨ HoldsNul map := by
  simp [HoldsNul]

theorem parseMembers_appendMembers {map : List (String × String)} (nonempty : map ≠ [])
    {fuel : Nat} (enough : map.length ≤ fuel) :
    parseMembers fuel (appendMembers map ++ ['}']) =
      if HoldsNul map then .error .untranslatableCharacter else .ok map := by
  induction map generalizing fuel with
  | nil => exact absurd rfl nonempty
  | cons member map ih =>
      obtain ⟨fuel, rfl⟩ : ∃ less, fuel = less + 1 :=
        ⟨fuel - 1, by rw [List.length_cons] at enough; omega⟩
      cases map with
      | nil =>
          rw [appendMembers, parseMembers, parseMember_appendMember]
          simp only [holdsNul_cons]
          by_cases zero : nul ∈ member.1.toList ∨ nul ∈ member.2.toList
          · simp [zero]
          · simp [zero, HoldsNul]
      | cons next map =>
          have later := ih (List.cons_ne_nil next map) (Nat.le_of_succ_le_succ enough)
          rw [appendMembers, parseMembers, List.append_assoc, parseMember_appendMember]
          · simp only [holdsNul_cons member]
            by_cases zero : nul ∈ member.1.toList ∨ nul ∈ member.2.toList
            · simp only [zero, true_or, if_true]
            · by_cases remaining : HoldsNul (next :: map)
              · simp [zero, later, remaining, Except.map]
              · simp [zero, later, remaining, Except.map]
          · exact List.cons_ne_nil next map

theorem appendMembers_head {map : List (String × String)} (nonempty : map ≠ []) :
    ∃ rest, appendMembers map = quote :: rest := by
  match map with
  | [] => exact absurd rfl nonempty
  | [member] => exact ⟨_, rfl⟩
  | member :: next :: map => exact ⟨_, rfl⟩

theorem length_le_appendMembers (map : List (String × String)) :
    map.length ≤ (appendMembers map).length := by
  induction map with
  | nil => exact Nat.zero_le _
  | cons member map ih =>
      cases map with
      | nil =>
          obtain ⟨rest, shape⟩ := appendMembers_head (List.cons_ne_nil member [])
          rw [shape]
          exact Nat.succ_le_succ (Nat.zero_le _)
      | cons next map =>
          rw [appendMembers, List.length_append, List.length_cons, List.length_cons]
          · exact Nat.le_add_left_of_le (Nat.succ_le_succ ih)
          · exact List.cons_ne_nil next map

/-- What `json.Marshal` makes of a string map is valid JSONB exactly if the map
is free of NUL, and it then holds the same map. -/
theorem jsonb_marshal (map : List (String × String)) :
    jsonb (marshal map) =
      if map = [] then .ok .null
      else if HoldsNul map then .error .untranslatableCharacter
      else .ok (.object map) := by
  by_cases empty : map = []
  · rw [empty]
    rfl
  · have enough : map.length ≤ (appendMembers map ++ ['}']).length := by
      rw [List.length_append]
      exact Nat.le_add_right_of_le (length_le_appendMembers map)
    have parsed := parseMembers_appendMembers empty enough
    obtain ⟨rest, shape⟩ := appendMembers_head empty
    rw [marshal, if_neg empty, if_neg empty, jsonb, String.toList_ofList]
    split
    · rename_i same
      cases (List.cons.inj same).1
    · rename_i same
      rw [shape] at same
      cases (List.cons.inj (List.cons.inj same).2).1
    · rename_i rest _ same
      have members : appendMembers map ++ ['}'] = rest := (List.cons.inj same).2
      rw [← members, parsed]
      split
      · rfl
      · rfl
    · rename_i other
      exact absurd rfl (other _)

end Nexus.Postgres
