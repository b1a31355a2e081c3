import Mathlib.Data.List.TakeWhile

/-! Uniform resource identifiers as byte strings: what each of their delimiters
cuts off, and percent-decoding. A `%` that no two hexadecimal digits follow
stands for itself. -/

set_option autoImplicit false

namespace Nexus.Lib.Uri

universe u

/-! ## Cutting at a delimiter -/

section
variable {α : Type u} [DecidableEq α]

/-- What precedes the first delimiter, or everything. -/
def upTo (delimiter : α) (src : List α) : List α := src.takeWhile (· ≠ delimiter)

/-- What follows the first delimiter, or nothing. -/
def after (delimiter : α) (src : List α) : List α := (src.dropWhile (· ≠ delimiter)).tail

variable {delimiter : α} {src front back : List α}

theorem upTo_append (clean : delimiter ∉ front) :
    upTo delimiter (front ++ delimiter :: back) = front := by
  have kept : ∀ symbol ∈ front, decide (symbol ≠ delimiter) = true := by
    intro symbol member
    exact decide_eq_true fun same => clean (same ▸ member)
  rw [upTo, List.takeWhile_append_of_pos kept, List.takeWhile_cons_of_neg (by simp),
    List.append_nil]

theorem after_append (clean : delimiter ∉ front) :
    after delimiter (front ++ delimiter :: back) = back := by
  have kept : ∀ symbol ∈ front, decide (symbol ≠ delimiter) = true := by
    intro symbol member
    exact decide_eq_true fun same => clean (same ▸ member)
  rw [after, List.dropWhile_append_of_pos kept, List.dropWhile_cons_of_neg (by simp),
    List.tail_cons]

theorem upTo_of_notMem (clean : delimiter ∉ src) : upTo delimiter src = src := by
  rw [upTo, List.takeWhile_eq_self_iff]
  intro symbol member
  exact decide_eq_true fun same => clean (same ▸ member)

theorem upTo_append_of_notMem (clean : delimiter ∉ front) :
    upTo delimiter (front ++ back) = front ++ upTo delimiter back := by
  rw [upTo, List.takeWhile_append_of_pos]
  · rfl
  · intro symbol member
    exact decide_eq_true fun same => clean (same ▸ member)

theorem after_append_of_notMem (clean : delimiter ∉ front) :
    after delimiter (front ++ back) = after delimiter back := by
  rw [after, List.dropWhile_append_of_pos]
  · rfl
  · intro symbol member
    exact decide_eq_true fun same => clean (same ▸ member)

theorem upTo_starts (delimiter : α) (src : List α) : upTo delimiter src <+: src :=
  List.takeWhile_prefix _

theorem notMem_upTo (delimiter : α) (src : List α) : delimiter ∉ upTo delimiter src := by
  intro member
  simpa using List.mem_takeWhile_imp member

end

section
variable {α : Type u} [DecidableEq α] {first second : α} {front back : List α}

/-- What two delimiters leave of a text, of which the second one follows. -/
theorem upTo_twice_starts : upTo second (upTo first (front ++ second :: back)) <+: front := by
  have whole := (upTo_starts second _).trans (upTo_starts first (front ++ second :: back))
  have clean := notMem_upTo second (upTo first (front ++ second :: back))
  rcases List.prefix_or_prefix_of_prefix whole (List.prefix_append _ _) with shorter | longer
  · exact shorter
  · obtain ⟨rest, split⟩ := longer
    rw [← split] at whole clean ⊢
    cases rest with
    | nil =>
        exact ⟨[], by simp⟩
    | cons symbol rest =>
        obtain ⟨same, _⟩ := List.cons_prefix_cons.mp ((List.prefix_append_right_inj front).mp whole)
        exact absurd (List.mem_append_right front (same ▸ List.mem_cons_self)) clean

theorem upTo_twice_eq_iff (different : first ≠ second) :
    upTo second (upTo first (front ++ second :: back)) = front ↔
      first ∉ front ∧ second ∉ front := by
  constructor
  · intro same
    refine ⟨fun member => ?_, fun member => ?_⟩
    · rw [← same] at member
      exact notMem_upTo first _ ((upTo_starts second _).subset member)
    · rw [← same] at member
      exact notMem_upTo second _ member
  · rintro ⟨noFirst, noSecond⟩
    have kept : upTo first (second :: back) = second :: upTo first back := by
      rw [upTo, List.takeWhile_cons_of_pos (by simpa using different.symm)]
      rfl
    rw [upTo_append_of_notMem noFirst, kept, upTo_append noSecond]

end

/-! ## Percent-decoding -/

def hexValue (digit : UInt8) : Option UInt8 :=
  if 0x30 ≤ digit ∧ digit ≤ 0x39 then some (digit - 0x30)
  else if 0x41 ≤ digit ∧ digit ≤ 0x46 then some (digit - 0x41 + 10)
  else if 0x61 ≤ digit ∧ digit ≤ 0x66 then some (digit - 0x61 + 10)
  else none

/-- The byte that three symbols stand for if they are an escape. -/
def escape (percent high low : UInt8) : Option UInt8 :=
  if percent = 0x25 then
    match hexValue high, hexValue low with
    | some x, some y => some (16 * x + y)
    | _, _ => none
  else none

def percentDecode : List UInt8 → List UInt8
  | a :: b :: c :: rest =>
      match escape a b c with
      | some byte => byte :: percentDecode rest
      | none => a :: percentDecode (b :: c :: rest)
  | src => src

def hasEscape : List UInt8 → Bool
  | a :: b :: c :: rest => (escape a b c).isSome || hasEscape (b :: c :: rest)
  | _ => false

theorem percentDecode_short {src : List UInt8}
    (short : ∀ a b c rest, src = a :: b :: c :: rest → False) :
    percentDecode src = src ∧ hasEscape src = false := by
  match src, short with
  | [], _ => exact ⟨rfl, rfl⟩
  | [_], _ => exact ⟨rfl, rfl⟩
  | [_, _], _ => exact ⟨rfl, rfl⟩
  | a :: b :: c :: rest, short => exact (short a b c rest rfl).elim

theorem percentDecode_of_clean {src : List UInt8} (clean : hasEscape src = false) :
    percentDecode src = src := by
  induction src using percentDecode.induct with
  | case1 a b c rest byte escaped _ => simp [hasEscape, escaped] at clean
  | case2 a b c rest unescaped ih =>
      rw [hasEscape, Bool.or_eq_false_iff] at clean
      rw [percentDecode, unescaped]
      exact congrArg (a :: ·) (ih clean.2)
  | case3 src short => exact (percentDecode_short short).1

theorem hasEscape_cons_of_ne {symbol : UInt8} (other : symbol ≠ 0x25) (src : List UInt8) :
    hasEscape (symbol :: src) = hasEscape src := by
  match src with
  | [] => rfl
  | [_] => rfl
  | b :: c :: rest =>
      have unescaped : escape symbol b c = none := if_neg other
      rw [hasEscape, unescaped, Option.isSome_none, Bool.false_or]

theorem hasEscape_append {front : List UInt8} (clean : 0x25 ∉ front) (src : List UInt8) :
    hasEscape (front ++ src) = hasEscape src := by
  induction front with
  | nil => rfl
  | cons symbol front ih =>
      rw [List.mem_cons, not_or] at clean
      rw [List.cons_append, hasEscape_cons_of_ne (Ne.symm clean.1), ih clean.2]

theorem hasEscape_of_notMem {src : List UInt8} (clean : 0x25 ∉ src) : hasEscape src = false := by
  have whole := hasEscape_append clean []
  rwa [List.append_nil] at whole

theorem length_percentDecode_le (src : List UInt8) : (percentDecode src).length ≤ src.length := by
  induction src using percentDecode.induct with
  | case1 a b c rest byte escaped ih =>
      rw [percentDecode, escaped]
      simp only [List.length_cons]
      omega
  | case2 a b c rest unescaped ih =>
      rw [percentDecode, unescaped]
      exact Nat.succ_le_succ ih
  | case3 src short => rw [(percentDecode_short short).1]

/-- An escape is longer than what it stands for. -/
theorem length_percentDecode_lt {src : List UInt8} (escapes : hasEscape src = true) :
    (percentDecode src).length < src.length := by
  induction src using percentDecode.induct with
  | case1 a b c rest byte escaped _ =>
      have shorter := length_percentDecode_le rest
      rw [percentDecode, escaped]
      simp only [List.length_cons]
      omega
  | case2 a b c rest unescaped ih =>
      rw [hasEscape, unescaped, Option.isSome_none, Bool.false_or] at escapes
      rw [percentDecode, unescaped]
      exact Nat.succ_lt_succ (ih escapes)
  | case3 src short =>
      rw [(percentDecode_short short).2] at escapes
      cases escapes

/-- A part of a text decodes to the whole text only if it is the whole text and
has no escapes. -/
theorem percentDecode_prefix_iff {part whole : List UInt8} (prefixed : part <+: whole) :
    percentDecode part = whole ↔ part = whole ∧ hasEscape whole = false := by
  constructor
  · intro decoded
    have longest := length_percentDecode_le part
    rw [decoded] at longest
    have same := prefixed.eq_of_length_le longest
    refine ⟨same, Bool.eq_false_iff.mpr fun escapes => ?_⟩
    have shorter := length_percentDecode_lt escapes
    rw [← same, decoded, same] at shorter
    exact Nat.lt_irrefl _ shorter
  · rintro ⟨rfl, clean⟩
    exact percentDecode_of_clean clean

/-! ## Identifiers -/

structure Parsed where
  scheme : List UInt8
  authority : List UInt8
  path : List UInt8
  parameters : List (List UInt8 × List UInt8)

def parameter (field : List UInt8) : List UInt8 × List UInt8 :=
  (percentDecode (upTo 0x3D field), percentDecode (after 0x3D field))

/-- Reads `scheme://authority/path?name=value&name=value#fragment`. -/
def parse (src : List UInt8) : Option Parsed :=
  let src := upTo 0x23 src
  let hierarchy := upTo 0x3F src
  let query := after 0x3F src
  match after 0x3A hierarchy with
  | 0x2F :: 0x2F :: rest =>
      some {
        scheme := upTo 0x3A hierarchy
        authority := percentDecode (upTo 0x2F rest)
        path := percentDecode (after 0x2F rest)
        parameters := (query.splitOn 0x26).map parameter }
  | _ => none

/-- An identifier in its parts; only the delimiters within the tail are yet to be
found. -/
theorem parse_parts {scheme authority : List UInt8} (tail : List UInt8)
    (schemeClean : 0x3A ∉ scheme ∧ 0x23 ∉ scheme ∧ 0x3F ∉ scheme)
    (authorityClean : 0x2F ∉ authority ∧ 0x23 ∉ authority ∧ 0x3F ∉ authority) :
    parse (scheme ++ 0x3A :: 0x2F :: 0x2F :: (authority ++ 0x2F :: tail)) = some {
      scheme := scheme
      authority := percentDecode authority
      path := percentDecode (upTo 0x3F (upTo 0x23 tail))
      parameters := ((after 0x3F (upTo 0x23 tail)).splitOn 0x26).map parameter } := by
  obtain ⟨noColon, noHash, noMark⟩ := schemeClean
  obtain ⟨noSlash, noHash', noMark'⟩ := authorityClean
  have front : scheme ++ 0x3A :: 0x2F :: 0x2F :: (authority ++ 0x2F :: tail) =
      (scheme ++ 0x3A :: 0x2F :: 0x2F :: (authority ++ [0x2F])) ++ tail := by simp
  have cleanHash : 0x23 ∉ scheme ++ 0x3A :: 0x2F :: 0x2F :: (authority ++ [0x2F]) := by
    simp [noHash, noHash']
  have cleanMark : 0x3F ∉ scheme ++ 0x3A :: 0x2F :: 0x2F :: (authority ++ [0x2F]) := by
    simp [noMark, noMark']
  unfold parse
  simp only [front, upTo_append_of_notMem cleanHash, upTo_append_of_notMem cleanMark,
    after_append_of_notMem cleanMark]
  have back (rest : List UInt8) :
      (scheme ++ 0x3A :: 0x2F :: 0x2F :: (authority ++ [0x2F])) ++ rest =
        scheme ++ 0x3A :: 0x2F :: 0x2F :: (authority ++ 0x2F :: rest) := by simp
  simp only [back, after_append noColon, upTo_append noColon, upTo_append noSlash,
    after_append noSlash]

def Parsed.values (uri : Parsed) (name : List UInt8) : List (List UInt8) :=
  (uri.parameters.filter fun parameter => parameter.1 == name).map Prod.snd

end Nexus.Lib.Uri
