import Nexus.Go.Bytes
import Nexus.Go.JsonText
import Nexus.JavaScript.Json

/-! What `JSON.parse` makes of a struct that Go wrote, if every byte of its UTF-8
is taken for a unit: what Go escaped comes back, and a character outside ASCII
that Go left alone becomes two units or more. -/

set_option autoImplicit false

namespace Nexus.JavaScript.Json

open Nexus.Go Nexus.Go.JsonText

/-! ## Bytes as units -/

def binary (cs : List Char) : List ℕ :=
  cs.flatMap fun c => (String.utf8EncodeChar c).map UInt8.toNat

theorem binary_cons (c : Char) (cs : List Char) :
    binary (c :: cs) = (String.utf8EncodeChar c).map UInt8.toNat ++ binary cs := rfl

theorem binary_append (front back : List Char) :
    binary (front ++ back) = binary front ++ binary back := List.flatMap_append

theorem map_toNat_bytes (cs : List Char) :
    (bytes (String.ofList cs)).map UInt8.toNat = binary cs := by
  unfold bytes
  rw [String.toUTF8_eq_toByteArray, String.toByteArray_ofList]
  induction cs with
  | nil => rfl
  | cons c cs ih =>
      rw [List.utf8Encode_cons, List.utf8Encode_singleton, ByteArray.data_append,
        Array.toList_append, List.map_append, ih, List.data_toByteArray, binary_cons]

theorem utf8EncodeChar_ascii {c : Char} (ascii : c.toNat < 0x80) :
    String.utf8EncodeChar c = [.ofNat c.toNat] := if_pos (Nat.le_of_lt_succ ascii)

theorem binary_ascii {cs : List Char} (ascii : Ascii cs) : binary cs = cs.map Char.toNat := by
  induction cs with
  | nil => rfl
  | cons c cs ih =>
      have first := ascii c List.mem_cons_self
      have later : Ascii cs := fun other listed => ascii other (List.mem_cons_of_mem c listed)
      have byte : (UInt8.ofNat c.toNat).toNat = c.toNat :=
        UInt8.toNat_ofNat_of_lt' (Nat.lt_trans first (by decide))
      rw [binary_cons, utf8EncodeChar_ascii first, ih later, List.map_singleton, byte]
      rfl

theorem utf8EncodeChar_high {c : Char} (high : 0x80 ≤ c.toNat) :
    ∀ byte ∈ String.utf8EncodeChar c, 0x80 ≤ byte.toNat := by
  have start : ¬ c.val.toNat ≤ 0x7F := by
    change ¬ c.toNat ≤ 0x7F
    omega
  unfold String.utf8EncodeChar
  dsimp only
  rw [if_neg start]
  split
  · simp only [List.forall_mem_cons, UInt8.toNat_ofNat']
    exact ⟨by omega, by omega, List.forall_mem_nil _⟩
  · split
    · simp only [List.forall_mem_cons, UInt8.toNat_ofNat']
      exact ⟨by omega, by omega, by omega, List.forall_mem_nil _⟩
    · simp only [List.forall_mem_cons, UInt8.toNat_ofNat']
      exact ⟨by omega, by omega, by omega, by omega, List.forall_mem_nil _⟩

/-! ## Strings -/

/-- The units read for a character. -/
def readChar (c : Char) : List ℕ := if escape c = [c] then binary [c] else [c.toNat]

def readText (s : String) : List ℕ := s.toList.flatMap readChar

/-- Units read in front of what the rest of a string holds. -/
def readBefore (units : List ℕ) (rest : List ℕ) : Option (List ℕ × List ℕ) :=
  (lexString rest).map fun lexed => (units ++ lexed.1, lexed.2)

/-- A unit that stands for itself in a string. -/
structure Plain (unit : ℕ) : Prop where
  notQuote : unit ≠ quote
  notBackslash : unit ≠ backslash
  printable : 0x20 ≤ unit

theorem lexString_plain {unit : ℕ} (plain : Plain unit) (rest : List ℕ) :
    lexString (unit :: rest) = readBefore [unit] rest := by
  have printable : ¬ unit < 0x20 := Nat.not_lt.mpr plain.printable
  rw [lexString.eq_def]
  simp only [if_neg plain.notQuote, if_neg plain.notBackslash, if_neg printable]
  rfl

theorem readBefore_append (front back rest : List ℕ) :
    readBefore (front ++ back) rest =
      (readBefore back rest).map fun lexed => (front ++ lexed.1, lexed.2) := by
  simp only [readBefore, Option.map_map, Function.comp_def, List.append_assoc]

theorem lexString_plains {units : List ℕ} (plain : ∀ unit ∈ units, Plain unit) (rest : List ℕ) :
    lexString (units ++ rest) = readBefore units rest := by
  induction units with
  | nil => simp [readBefore]
  | cons unit units ih =>
      rw [List.forall_mem_cons] at plain
      rw [List.cons_append, lexString_plain plain.1, readBefore, ih plain.2]
      exact (readBefore_append [unit] units rest).symm

theorem lexString_shortEscape {letter unit : ℕ} (notUnicode : letter ≠ 'u'.toNat)
    (escaped : unescape letter = some unit) (rest : List ℕ) :
    lexString (backslash :: letter :: rest) = readBefore [unit] rest := by
  have notQuote : backslash ≠ quote := by decide
  rw [lexString.eq_def]
  simp only [if_neg notQuote, if_true, if_neg notUnicode, escaped]
  rfl

theorem hexValue_hexDigit {value : ℕ} (small : value < 16) :
    hexValue (hexDigit value).toNat = some value := by
  have all : ∀ value < 16, hexValue (hexDigit value).toNat = some value := by decide
  exact all value small

theorem lexString_unicodeEscape {code : ℕ} (small : code < 0x10000) (rest : List ℕ) :
    lexString ((unicodeEscape code).map Char.toNat ++ rest) = readBefore [code] rest := by
  have notQuote : backslash ≠ quote := by decide
  have whole : ((code / 0x1000 % 16 * 16 + code / 0x100 % 16) * 16 + code / 0x10 % 16) * 16 +
      code % 16 = code := by omega
  have unescaped : unescapeUnicode (hexDigit (code / 0x1000 % 16)).toNat
      (hexDigit (code / 0x100 % 16)).toNat (hexDigit (code / 0x10 % 16)).toNat
      (hexDigit (code % 16)).toNat = some code := by
    simp only [unescapeUnicode, hexValue_hexDigit (Nat.mod_lt _ (by decide : 0 < 16)), whole]
  change lexString (backslash :: 'u'.toNat :: _ :: _ :: _ :: _ :: rest) = _
  rw [lexString.eq_def]
  simp only [if_neg notQuote, if_true, unescaped]
  rfl

theorem shortEscape_ascii {c letter : Char} (short : shortEscape c = some letter) :
    letter.toNat < 0x80 ∧ letter.toNat ≠ 'u'.toNat ∧ unescape letter.toNat = some c.toNat := by
  unfold shortEscape at short
  split at short
  · rename_i itself
    cases short
    rcases itself with rfl | rfl <;> decide
  · repeat' split at short
    all_goals
      cases short
      try
        rename_i code
        rw [code]
        decide

theorem unicodeEscape_ascii (code : ℕ) : Ascii (unicodeEscape code) := by
  have digits : ∀ value < 16, (hexDigit value).toNat < 0x80 := by decide
  have digit (value : ℕ) : (hexDigit (value % 16)).toNat < 0x80 :=
    digits (value % 16) (Nat.mod_lt value (by decide))
  intro c listed
  simp only [unicodeEscape, List.mem_cons, List.not_mem_nil, or_false] at listed
  rcases listed with rfl | rfl | rfl | rfl | rfl | rfl
  · decide
  · decide
  · exact digit _
  · exact digit _
  · exact digit _
  · exact digit _

/-- A character that Go writes as it is has plain units only. -/
theorem binary_plain {c : Char} (long : shortEscape c = none) (printable : 0x20 ≤ c.toNat) :
    ∀ unit ∈ binary [c], Plain unit := by
  have others : c ≠ JsonText.quote ∧ c ≠ JsonText.backslash := by
    unfold shortEscape at long
    split at long
    · cases long
    · rename_i neither
      exact ⟨fun same => neither (.inr same), fun same => neither (.inl same)⟩
  rcases Nat.lt_or_ge c.toNat 0x80 with ascii | high
  · have single : binary [c] = [c.toNat] := binary_ascii (by simpa [Ascii] using ascii)
    rw [single, List.forall_mem_singleton]
    refine ⟨fun same => others.1 ?_, fun same => others.2 ?_, printable⟩
    · rw [← Char.ofNat_toNat c, same]
      rfl
    · rw [← Char.ofNat_toNat c, same]
      rfl
  · intro unit listed
    simp only [binary, List.flatMap_singleton, List.mem_map] at listed
    obtain ⟨byte, member, rfl⟩ := listed
    have large := utf8EncodeChar_high high byte member
    refine ⟨?_, ?_, by omega⟩
    · unfold quote
      omega
    · unfold backslash
      omega

/-- The ways in which Go writes a character of a string. -/
inductive EscapeForm (c : Char) : Prop where
  | short (letter : Char) (written : escape c = [JsonText.backslash, letter])
      (another : escape c ≠ [c]) (ascii : Ascii (escape c))
      (notUnicode : letter.toNat ≠ 'u'.toNat)
      (unescaped : unescape letter.toNat = some c.toNat)
  | long (written : escape c = unicodeEscape c.toNat) (another : escape c ≠ [c])
      (ascii : Ascii (escape c)) (small : c.toNat < 0x10000)
  | itself (written : escape c = [c]) (long : shortEscape c = none)
      (printable : 0x20 ≤ c.toNat) (apart : ¬ (c.toNat = 0x2028 ∨ c.toNat = 0x2029))

theorem escape_form (c : Char) : EscapeForm c := by
  cases short : shortEscape c with
  | some letter =>
      obtain ⟨small, notUnicode, unescaped⟩ := shortEscape_ascii short
      have written : escape c = [JsonText.backslash, letter] := by rw [escape, short]
      have ascii : Ascii (escape c) := by
        rw [written, Ascii, List.forall_mem_cons, List.forall_mem_singleton]
        exact ⟨by decide, small⟩
      have another : escape c ≠ [c] := by
        rw [written]
        simp
      exact .short letter written another ascii notUnicode unescaped
  | none =>
      by_cases special : c.toNat < 0x20 ∨ c = '<' ∨ c = '>' ∨ c = '&' ∨ c.toNat = 0x2028 ∨
          c.toNat = 0x2029
      · have written : escape c = unicodeEscape c.toNat := by
          simp only [escape, short, if_pos special]
        have small : c.toNat < 0x10000 := by
          rcases special with low | rfl | rfl | rfl | code | code
          · omega
          · decide
          · decide
          · decide
          · omega
          · omega
        have another : escape c ≠ [c] := by
          rw [written]
          simp [unicodeEscape]
        exact .long written another (written ▸ unicodeEscape_ascii c.toNat) small
      · have written : escape c = [c] := by simp only [escape, short, if_neg special]
        have printable : 0x20 ≤ c.toNat := Nat.not_lt.mp fun low => special (.inl low)
        have apart : ¬ (c.toNat = 0x2028 ∨ c.toNat = 0x2029) :=
          fun separator => special (.inr (.inr (.inr (.inr separator))))
        exact .itself written short printable apart

/-- Reading what Go wrote for a character. -/
theorem lexString_escape (c : Char) (rest : List ℕ) :
    lexString (binary (escape c) ++ rest) = readBefore (readChar c) rest := by
  cases escape_form c with
  | short letter written another ascii notUnicode unescaped =>
      rw [readChar, if_neg another, binary_ascii ascii, written]
      exact lexString_shortEscape notUnicode unescaped rest
  | long written another ascii small =>
      rw [readChar, if_neg another, binary_ascii ascii, written]
      exact lexString_unicodeEscape small rest
  | itself written long printable _ =>
      rw [readChar, if_pos written, written]
      exact lexString_plains (binary_plain long printable) rest

/-- A string is read piece by piece up to its closing quote. -/
theorem lexString_pieces {α : Type} {written read : α → List ℕ}
    (piece : ∀ a rest, lexString (written a ++ rest) = readBefore (read a) rest)
    (pieces : List α) (rest : List ℕ) :
    lexString (pieces.flatMap written ++ quote :: rest) = some (pieces.flatMap read, rest) := by
  induction pieces with
  | nil =>
      rw [List.flatMap_nil, List.nil_append, lexString.eq_def]
      simp only [if_true, List.flatMap_nil]
  | cons a pieces ih =>
      rw [List.flatMap_cons, List.append_assoc, piece, readBefore, ih]
      rfl

theorem lexString_escaped (text : List Char) (rest : List ℕ) :
    lexString (binary (text.flatMap escape) ++ quote :: rest) =
      some (text.flatMap readChar, rest) := by
  rw [binary, List.flatMap_assoc]
  exact lexString_pieces lexString_escape text rest

theorem binary_appendString (text : String) :
    binary (appendString text) = quote :: (binary (text.toList.flatMap escape) ++ [quote]) := by
  have mark : binary [JsonText.quote] = [quote] := by decide
  rw [appendString, List.cons_append, ← List.singleton_append, binary_append, binary_append, mark]
  rfl

/-! ## Numbers -/

theorem isDigit_toDigits {n : ℕ} : ∀ c ∈ Nat.toDigits 10 n, isDigit c.toNat = true := by
  intro c listed
  have digit := Nat.isDigit_of_mem_toDigits (by decide) (by decide) listed
  rw [Char.isDigit, Bool.and_eq_true, decide_eq_true_eq, decide_eq_true_eq] at digit
  obtain ⟨low, high⟩ := digit
  rw [isDigit, Bool.and_eq_true, decide_eq_true_eq, decide_eq_true_eq]
  exact ⟨UInt32.le_iff_toNat_le.mp low, UInt32.le_iff_toNat_le.mp high⟩

/-- A positive number has no leading zero. -/
theorem toDigits_head {n : ℕ} (positive : 0 < n) :
    ∃ first digits, Nat.toDigits 10 n = first :: digits ∧ first ≠ '0' := by
  induction n using Nat.strongRecOn with
  | ind n ih =>
      rw [Nat.toDigits_eq_if (by decide)]
      by_cases small : n < 10
      · have nonzero : ∀ n < 10, 0 < n → Nat.digitChar n ≠ '0' := by decide
        exact ⟨_, [], if_pos small, nonzero n small positive⟩
      · obtain ⟨first, digits, shape, nonzero⟩ := ih (n / 10) (by omega) (by omega)
        rw [if_neg small, shape]
        exact ⟨first, _, rfl, nonzero⟩

theorem lexDigits_append {digits : List ℕ} (nonempty : digits ≠ [])
    (numeric : ∀ unit ∈ digits, isDigit unit = true) {sep : ℕ} (ends : isDigit sep = false)
    (rest : List ℕ) : lexDigits (digits ++ sep :: rest) = some (digits, sep :: rest) := by
  have taken : (sep :: rest).takeWhile isDigit = [] := by rw [List.takeWhile_cons, ends]; rfl
  have dropped : (sep :: rest).dropWhile isDigit = sep :: rest := by
    rw [List.dropWhile_cons, ends]
    rfl
  simp only [lexDigits, List.takeWhile_append_of_pos numeric,
    List.dropWhile_append_of_pos numeric, taken, dropped, List.append_nil, if_neg nonempty]

/-- A unit at which a number ends. -/
structure EndsNumber (sep : ℕ) : Prop where
  digit : isDigit sep = false
  point : sep ≠ '.'.toNat
  exponent : ¬ (sep = 'e'.toNat ∨ sep = 'E'.toNat)

theorem lexInteger_toDigits (n : ℕ) {sep : ℕ} (ends : EndsNumber sep) (rest : List ℕ) :
    lexInteger ((Nat.toDigits 10 n).map Char.toNat ++ sep :: rest) =
      some ((Nat.toDigits 10 n).map Char.toNat, sep :: rest) := by
  rcases Nat.eq_zero_or_pos n with rfl | positive
  · rfl
  · obtain ⟨first, digits, shape, nonzero⟩ := toDigits_head positive
    have numeric : ∀ unit ∈ (Nat.toDigits 10 n).map Char.toNat, isDigit unit = true := by
      intro unit listed
      obtain ⟨c, member, rfl⟩ := List.mem_map.mp listed
      exact isDigit_toDigits c member
    have another : first.toNat ≠ '0'.toNat := fun same => nonzero (Char.toNat_inj.mp same)
    rw [shape] at numeric ⊢
    rw [List.map_cons, List.cons_append, lexInteger, if_neg another]
    exact lexDigits_append (List.cons_ne_nil _ _) numeric ends.digit rest

theorem lexNumber_appendInt (value : ℤ) {sep : ℕ} (ends : EndsNumber sep) (rest : List ℕ) :
    lexNumber ((appendInt value).map Char.toNat ++ sep :: rest) =
      some ((appendInt value).map Char.toNat, sep :: rest) := by
  have integer := lexInteger_toDigits value.natAbs ends rest
  have fraction : lexFraction (sep :: rest) = some ([], sep :: rest) := if_neg ends.point
  have exponent : lexExponent (sep :: rest) = some ([], sep :: rest) := if_neg ends.exponent
  by_cases negative : value < 0
  · rw [appendInt, if_pos negative, List.map_cons, List.cons_append, lexNumber, lexMinus,
      if_pos rfl]
    simp only [integer, fraction, exponent, Option.map_some, List.append_nil]
    rfl
  · rw [appendInt, if_neg negative]
    have unsigned : lexMinus ((Nat.toDigits 10 value.natAbs).map Char.toNat ++ sep :: rest) =
        ([], (Nat.toDigits 10 value.natAbs).map Char.toNat ++ sep :: rest) := by
      cases shape : Nat.toDigits 10 value.natAbs with
      | nil => exact absurd shape Nat.toDigits_ne_nil
      | cons first digits =>
          have digit : isDigit first.toNat = true :=
            isDigit_toDigits first (by rw [shape]; exact List.mem_cons_self)
          refine if_neg ?_
          intro minus
          rw [minus] at digit
          exact absurd digit (by decide)
    rw [lexNumber, unsigned]
    simp only [integer, fraction, exponent, Option.map_some, List.append_nil]
    rfl

/-- What holds of the minus sign and the digits holds of a number. -/
theorem forall_appendInt {holds : Char → Prop} (minus : holds '-')
    (digits : ∀ c, isDigit c.toNat = true → holds c) (value : ℤ) :
    ∀ c ∈ appendInt value, holds c := by
  unfold appendInt
  split
  · rw [List.forall_mem_cons]
    exact ⟨minus, fun c listed => digits c (isDigit_toDigits c listed)⟩
  · exact fun c listed => digits c (isDigit_toDigits c listed)

theorem appendInt_ascii (value : ℤ) : Ascii (appendInt value) := by
  refine forall_appendInt (by decide) (fun c digit => ?_) value
  rw [isDigit, Bool.and_eq_true, decide_eq_true_eq, decide_eq_true_eq] at digit
  exact Nat.lt_of_le_of_lt digit.2 (by decide)

/-! ## Structs -/

def readScalar : Scalar → Value
  | .str value => .string (readText value)
  | .int value => .number ((appendInt value).map Char.toNat)

def readField (field : String × Scalar) : List ℕ × Value :=
  (readText field.1, readScalar field.2)

theorem skipSpace_eq {unit : ℕ} (solid : isSpace unit = false) (rest : List ℕ) :
    skipSpace (unit :: rest) = unit :: rest := by
  rw [skipSpace, List.dropWhile_cons, solid]
  rfl

/-- A unit that a number starts with. -/
def StartsNumber (unit : ℕ) : Prop := unit = '-'.toNat ∨ isDigit unit = true

instance (unit : ℕ) : Decidable (StartsNumber unit) := inferInstanceAs (Decidable (_ ∨ _))

theorem StartsNumber.ne {unit other : ℕ} (starts : StartsNumber unit)
    (another : ¬ StartsNumber other) : unit ≠ other := by
  rintro rfl
  exact another starts

theorem appendInt_head (value : ℤ) :
    ∃ unit rest, (appendInt value).map Char.toNat = unit :: rest ∧ StartsNumber unit := by
  by_cases negative : value < 0
  · rw [appendInt, if_pos negative]
    exact ⟨_, _, rfl, .inl rfl⟩
  · rw [appendInt, if_neg negative]
    cases shape : Nat.toDigits 10 value.natAbs with
    | nil => exact absurd shape Nat.toDigits_ne_nil
    | cons first digits =>
        have listed : first ∈ Nat.toDigits 10 value.natAbs := by
          rw [shape]
          exact List.mem_cons_self
        exact ⟨_, _, rfl, .inr (isDigit_toDigits first listed)⟩

/-- A unit that no white space, array or object starts with. -/
structure StartsScalar (unit : ℕ) : Prop where
  solid : isSpace unit = false
  notArray : unit ≠ '['.toNat
  notObject : unit ≠ '{'.toNat

theorem StartsNumber.startsScalar {unit : ℕ} (starts : StartsNumber unit) :
    StartsScalar unit where
  solid := by
    rcases starts with rfl | digit
    · decide
    · rw [isDigit, Bool.and_eq_true, decide_eq_true_eq, decide_eq_true_eq] at digit
      obtain ⟨low, _⟩ := digit
      replace low : 48 ≤ unit := low
      simp only [isSpace, Bool.or_eq_false_iff, beq_eq_false_iff_ne]
      omega
  notArray := starts.ne (by decide)
  notObject := starts.ne (by decide)

theorem parseScalar_appendScalar (scalar : Scalar) {sep : ℕ} (ends : EndsNumber sep)
    (rest : List ℕ) :
    parseScalar (binary (appendScalar scalar) ++ sep :: rest) =
      some (readScalar scalar, sep :: rest) := by
  cases scalar with
  | str value =>
      rw [appendScalar, binary_appendString, List.cons_append, parseScalar, if_pos rfl,
        List.append_assoc]
      exact congrArg (Option.map _) (lexString_escaped value.toList (sep :: rest))
  | int value =>
      have lexed := lexNumber_appendInt value ends rest
      obtain ⟨unit, digits, shape, starts⟩ := appendInt_head value
      rw [appendScalar, binary_ascii (appendInt_ascii value), readScalar]
      rw [shape] at lexed ⊢
      rw [List.cons_append] at lexed ⊢
      rw [parseScalar, if_neg (starts.ne (by decide)), if_neg (starts.ne (by decide)),
        if_neg (starts.ne (by decide)), if_neg (starts.ne (by decide)), lexed]
      rfl

theorem parseValue_appendScalar (scalar : Scalar) {sep : ℕ} (ends : EndsNumber sep)
    (rest : List ℕ) (fuel : ℕ) :
    parseValue (fuel + 1) (binary (appendScalar scalar) ++ sep :: rest) =
      some (readScalar scalar, sep :: rest) := by
  have parsed := parseScalar_appendScalar scalar ends rest
  have head : ∃ unit others, binary (appendScalar scalar) = unit :: others ∧
      StartsScalar unit := by
    cases scalar with
    | str value =>
        rw [appendScalar, binary_appendString]
        exact ⟨_, _, rfl, by decide, by decide, by decide⟩
    | int value =>
        obtain ⟨unit, digits, shape, starts⟩ := appendInt_head value
        rw [appendScalar, binary_ascii (appendInt_ascii value)]
        exact ⟨unit, digits, shape, starts.startsScalar⟩
  obtain ⟨unit, others, shape, starts⟩ := head
  rw [shape, List.cons_append] at parsed ⊢
  rw [parseValue, skipSpace_eq starts.solid]
  simp only [if_neg starts.notArray, if_neg starts.notObject, parsed]

/-- A key is a string before a colon. -/
theorem lexKey_quoted {text key rest : List ℕ}
    (read : lexString text = some (key, ':'.toNat :: rest)) :
    lexKey (quote :: text) = some (key, rest) := by
  have solid : isSpace quote = false := by decide
  have colon : isSpace ':'.toNat = false := by decide
  rw [lexKey, skipSpace_eq solid]
  simp only [if_true, read, skipSpace_eq colon]

theorem lexKey_appendString (name : String) (rest : List ℕ) :
    lexKey (binary (appendString name) ++ ':'.toNat :: rest) = some (readText name, rest) := by
  rw [binary_appendString, List.cons_append, List.append_assoc, List.singleton_append]
  exact lexKey_quoted (lexString_escaped name.toList (':'.toNat :: rest))

theorem setMember_new {key : List ℕ} {value : Value} {members : List (List ℕ × Value)}
    (fresh : key ∉ members.map Prod.fst) :
    setMember key value members = members ++ [(key, value)] := by
  induction members with
  | nil => rfl
  | cons member members ih =>
      rw [List.map_cons, List.mem_cons, not_or] at fresh
      have another : member.1 ≠ key := fun same => fresh.1 same.symm
      rw [setMember, if_neg another, ih fresh.2, List.cons_append]

theorem binary_appendField (field : String × Scalar) (rest : List ℕ) :
    binary (appendField field) ++ rest =
      binary (appendString field.1) ++ ':'.toNat :: (binary (appendScalar field.2) ++ rest) := by
  have colon : binary [':'] = [':'.toNat] := by decide
  rw [appendField, ← List.singleton_append, binary_append, binary_append, colon]
  simp only [List.append_assoc, List.cons_append, List.nil_append]

theorem endsNumber_comma : EndsNumber ','.toNat := ⟨by decide, by decide, by decide⟩

theorem endsNumber_brace : EndsNumber '}'.toNat := ⟨by decide, by decide, by decide⟩

theorem parseMembers_last (field : String × Scalar) {before : List (List ℕ × Value)}
    (fresh : readText field.1 ∉ before.map Prod.fst) (fuel : ℕ) (rest : List ℕ) :
    parseMembers (fuel + 2) before (binary (appendField field) ++ '}'.toNat :: rest) =
      some (.object (before ++ [readField field]), rest) := by
  have solid : isSpace '}'.toNat = false := by decide
  have notComma : '}'.toNat ≠ ','.toNat := by decide
  rw [binary_appendField, parseMembers, lexKey_appendString]
  simp only [parseValue_appendScalar field.2 endsNumber_brace, skipSpace_eq solid,
    if_neg notComma, if_true, setMember_new fresh]
  rfl

theorem parseMembers_next (field : String × Scalar) {before : List (List ℕ × Value)}
    (fresh : readText field.1 ∉ before.map Prod.fst) (fuel : ℕ) (rest : List ℕ) :
    parseMembers (fuel + 2) before (binary (appendField field) ++ ','.toNat :: rest) =
      parseMembers (fuel + 1) (before ++ [readField field]) rest := by
  have solid : isSpace ','.toNat = false := by decide
  rw [binary_appendField, parseMembers, lexKey_appendString]
  simp only [parseValue_appendScalar field.2 endsNumber_comma, skipSpace_eq solid, if_true,
    setMember_new fresh]
  rfl

theorem parseMembers_appendFields {fields : List (String × Scalar)} (nonempty : fields ≠ [])
    {before : List (List ℕ × Value)}
    (distinct : ((before ++ fields.map readField).map Prod.fst).Nodup) {fuel : ℕ}
    (enough : fields.length < fuel) (rest : List ℕ) :
    parseMembers fuel before (binary (appendFields fields) ++ '}'.toNat :: rest) =
      some (.object (before ++ fields.map readField), rest) := by
  induction fields generalizing before fuel with
  | nil => exact absurd rfl nonempty
  | cons field fields ih =>
      have fresh : readText field.1 ∉ before.map Prod.fst := by
        rw [List.map_append, List.nodup_append] at distinct
        intro listed
        exact distinct.2.2 _ listed _ List.mem_cons_self rfl
      obtain ⟨fuel, rfl⟩ : ∃ less, fuel = less + 2 :=
        ⟨fuel - 2, by rw [List.length_cons] at enough; omega⟩
      cases fields with
      | nil => exact parseMembers_last field fresh fuel rest
      | cons next fields =>
          have comma : binary [','] = [','.toNat] := by decide
          have split : binary (appendFields (field :: next :: fields)) =
              binary (appendField field) ++
                ','.toNat :: binary (appendFields (next :: fields)) := by
            rw [appendFields, ← List.singleton_append, binary_append, binary_append, comma]
            · rfl
            · exact List.cons_ne_nil next fields
          have moved : before ++ (field :: next :: fields).map readField =
              (before ++ [readField field]) ++ (next :: fields).map readField := by simp
          rw [moved] at distinct ⊢
          rw [split, List.append_assoc, List.cons_append, parseMembers_next field fresh]
          exact ih (List.cons_ne_nil next fields) distinct (Nat.lt_of_succ_lt_succ enough)

theorem length_le_binary (cs : List Char) : cs.length ≤ (binary cs).length := by
  induction cs with
  | nil => exact Nat.le_refl 0
  | cons c cs ih =>
      have positive := List.length_pos_iff.mpr (String.utf8EncodeChar_ne_nil (c := c))
      rw [binary_cons, List.length_append, List.length_map, List.length_cons]
      omega

theorem length_le_appendFields (fields : List (String × Scalar)) :
    fields.length ≤ (appendFields fields).length := by
  induction fields with
  | nil => exact Nat.le_refl 0
  | cons field fields ih =>
      have positive : 0 < (appendField field).length := by
        rw [appendField, appendString, List.length_append, List.length_cons]
        omega
      cases fields with
      | nil => exact positive
      | cons next fields =>
          rw [appendFields, List.length_append]
          · simp only [List.length_cons] at ih ⊢
            omega
          · exact List.cons_ne_nil next fields

theorem binary_appendFields_head {fields : List (String × Scalar)} (nonempty : fields ≠ [])
    (after : List ℕ) : ∃ rest, binary (appendFields fields) ++ after = quote :: rest := by
  have field_head (field : String × Scalar) (after : List ℕ) :
      ∃ rest, binary (appendField field) ++ after = quote :: rest := by
    rw [binary_appendField, binary_appendString]
    exact ⟨_, rfl⟩
  match fields with
  | [] => exact absurd rfl nonempty
  | [field] => exact field_head field after
  | field :: next :: fields =>
      rw [appendFields, binary_append, List.append_assoc]
      · exact field_head field _
      · exact List.cons_ne_nil next fields

/-- A struct whose field names stay apart is read as an object with its fields. -/
theorem parse_marshalStruct {fields : List (String × Scalar)} (nonempty : fields ≠ [])
    (distinct : (fields.map fun field => readText field.1).Nodup) :
    parse (binary (marshalStruct fields).toList) = some (.object (fields.map readField)) := by
  have brace : binary ['{'] = ['{'.toNat] := by decide
  have closing : binary ['}'] = ['}'.toNat] := by decide
  have solid : isSpace '{'.toNat = false := by decide
  have notArray : '{'.toNat ≠ '['.toNat := by decide
  have text : binary (marshalStruct fields).toList =
      '{'.toNat :: (binary (appendFields fields) ++ ['}'.toNat]) := by
    rw [marshalStruct, String.toList_ofList, List.cons_append, ← List.singleton_append,
      binary_append, binary_append, brace, closing]
    rfl
  obtain ⟨rest, head⟩ := binary_appendFields_head nonempty ['}'.toNat]
  have enough : fields.length < 2 * (binary (appendFields fields) ++ ['}'.toNat]).length + 1 := by
    have fewer := length_le_appendFields fields
    have units := length_le_binary (appendFields fields)
    rw [List.length_append]
    omega
  have names : ((fields.map readField).map Prod.fst).Nodup := by
    rw [List.map_map]
    exact distinct
  have members : parseMembers (2 * (binary (appendFields fields) ++ ['}'.toNat]).length + 1) []
      (binary (appendFields fields) ++ ['}'.toNat]) = some (.object (fields.map readField), []) :=
    parseMembers_appendFields nonempty names enough []
  have quoted : isSpace quote = false := by decide
  have notBrace : quote ≠ '}'.toNat := by decide
  rw [head] at members text
  rw [parse, text, List.length_cons, Nat.mul_succ, parseValue, skipSpace_eq solid]
  simp only [if_neg notArray, if_true, skipSpace_eq quoted, if_neg notBrace, members]
  rfl

/-! ## Faithful reading -/

/-- A character that comes back as itself: ASCII, or escaped by Go. -/
def Faithful (c : Char) : Prop := c.toNat < 0x80 ∨ c.toNat = 0x2028 ∨ c.toNat = 0x2029

instance (c : Char) : Decidable (Faithful c) := inferInstanceAs (Decidable (_ ∨ _))

theorem readChar_faithful {c : Char} (faithful : Faithful c) : readChar c = codeUnits c := by
  have single : codeUnits c = [c.toNat] := if_pos (by unfold Faithful at faithful; omega)
  rw [single, readChar]
  cases escape_form c with
  | short _ _ another | long _ another => exact if_neg another
  | itself written _ _ apart =>
      rw [if_pos written]
      exact binary_ascii (by simpa [Ascii] using faithful.resolve_right apart)

theorem escape_high {c : Char} (high : 0x80 ≤ c.toNat)
    (other : ¬ (c.toNat = 0x2028 ∨ c.toNat = 0x2029)) : escape c = [c] := by
  have above (d : Char) (low : d.toNat < 0x80) : c ≠ d := by
    rintro rfl
    omega
  have long : shortEscape c = none := by
    simp only [shortEscape, above JsonText.backslash (by decide),
      above JsonText.quote (by decide), or_self, if_false]
    rw [if_neg (by omega), if_neg (by omega), if_neg (by omega), if_neg (by omega),
      if_neg (by omega)]
  simp only [escape, long, above '<' (by decide), above '>' (by decide), above '&' (by decide),
    false_or]
  exact if_neg (by omega)

/-- What Go writes for a faithful character is ASCII. -/
theorem escape_ascii {c : Char} (faithful : Faithful c) : Ascii (escape c) := by
  cases escape_form c with
  | short _ _ _ ascii | long _ _ ascii => exact ascii
  | itself written _ _ apart =>
      rw [written, Ascii, List.forall_mem_singleton]
      exact faithful.resolve_right apart

/-- Another character comes back as more units than it has. -/
theorem length_codeUnits_lt {c : Char} (unfaithful : ¬ Faithful c) :
    (codeUnits c).length < (readChar c).length := by
  have others : 0x80 ≤ c.toNat ∧ ¬ (c.toNat = 0x2028 ∨ c.toNat = 0x2029) := by
    unfold Faithful at unfaithful
    omega
  rw [readChar, if_pos (escape_high others.1 others.2), binary, List.flatMap_singleton,
    List.length_map]
  by_cases narrow : c.toNat < 0x10000
  · have several : c.utf8Size ≠ 1 := by
      rw [Ne, Char.utf8Size_eq_one_iff, UInt32.le_iff_toNat_le]
      change ¬ c.toNat ≤ 127
      omega
    have positive := c.utf8Size_pos
    rw [codeUnits, if_pos narrow, String.length_utf8EncodeChar, List.length_singleton]
    omega
  · have four : (String.utf8EncodeChar c).length = 4 := by
      unfold String.utf8EncodeChar
      dsimp only
      change (if c.toNat ≤ 0x7F then _ else if c.toNat ≤ 0x7FF then _ else
        if c.toNat ≤ 0xFFFF then _ else _ : List UInt8).length = 4
      rw [if_neg (by omega), if_neg (by omega), if_neg (by omega)]
      rfl
    rw [codeUnits, if_neg narrow, four]
    simp

theorem length_codeUnits_le (c : Char) : (codeUnits c).length ≤ (readChar c).length := by
  by_cases faithful : Faithful c
  · rw [readChar_faithful faithful]
  · exact Nat.le_of_lt (length_codeUnits_lt faithful)

theorem length_ofString_le (cs : List Char) :
    (cs.flatMap codeUnits).length ≤ (cs.flatMap readChar).length := by
  induction cs with
  | nil => exact Nat.le_refl 0
  | cons c cs ih =>
      have first := length_codeUnits_le c
      rw [List.flatMap_cons, List.flatMap_cons, List.length_append, List.length_append]
      omega

theorem length_ofString_lt {cs : List Char} {c : Char} (listed : c ∈ cs)
    (unfaithful : ¬ Faithful c) :
    (cs.flatMap codeUnits).length < (cs.flatMap readChar).length := by
  obtain ⟨front, back, rfl⟩ := List.append_of_mem listed
  have before := length_ofString_le front
  have longer := length_codeUnits_lt unfaithful
  have after := length_ofString_le back
  simp only [List.flatMap_append, List.flatMap_cons, List.length_append]
  omega

theorem readText_eq_iff (s : String) :
    readText s = ofString s ↔ ∀ c ∈ s.toList, Faithful c := by
  unfold readText ofString
  constructor
  · intro same c listed
    by_contra unfaithful
    have longer := length_ofString_lt listed unfaithful
    rw [same] at longer
    exact Nat.lt_irrefl _ longer
  · intro faithful
    exact List.flatMap_congr fun c listed => readChar_faithful (faithful c listed)

/-! ## The characters of a struct -/

section Written

variable {holds : Char → Prop}

theorem forall_appendString (quoted : holds JsonText.quote) {s : String}
    (text : ∀ c ∈ s.toList, ∀ written ∈ escape c, holds written) :
    ∀ c ∈ appendString s, holds c := by
  intro c listed
  simp only [appendString, List.cons_append, List.mem_cons, List.mem_append, List.mem_flatMap,
    List.not_mem_nil, or_false] at listed
  rcases listed with rfl | ⟨source, member, written⟩ | rfl
  · exact quoted
  · exact text source member c written
  · exact quoted

theorem forall_appendFields (marks : holds ':' ∧ holds ',') {fields : List (String × Scalar)}
    (parts : ∀ field ∈ fields, (∀ c ∈ appendString field.1, holds c) ∧
      ∀ c ∈ appendScalar field.2, holds c) :
    ∀ c ∈ appendFields fields, holds c := by
  have whole : ∀ field ∈ fields, ∀ c ∈ appendField field, holds c := by
    intro field listed c member
    obtain ⟨name, value⟩ := parts field listed
    rw [appendField, List.mem_append, List.mem_cons] at member
    rcases member with inName | rfl | inValue
    · exact name c inName
    · exact marks.1
    · exact value c inValue
  clear parts
  induction fields with
  | nil => exact List.forall_mem_nil _
  | cons field fields ih =>
      rw [List.forall_mem_cons] at whole
      cases fields with
      | nil => exact whole.1
      | cons next fields =>
          intro c listed
          rw [appendFields, List.mem_append, List.mem_cons] at listed
          · rcases listed with first | rfl | later
            · exact whole.1 c first
            · exact marks.2
            · exact ih whole.2 c later
          · exact List.cons_ne_nil next fields

theorem forall_marshalStruct (marks : holds ':' ∧ holds ',' ∧ holds '{' ∧ holds '}')
    {fields : List (String × Scalar)}
    (parts : ∀ field ∈ fields, (∀ c ∈ appendString field.1, holds c) ∧
      ∀ c ∈ appendScalar field.2, holds c) :
    ∀ c ∈ (marshalStruct fields).toList, holds c := by
  obtain ⟨colon, comma, opening, closing⟩ := marks
  intro c listed
  rw [marshalStruct, String.toList_ofList, List.cons_append, List.mem_cons, List.mem_append,
    List.mem_singleton] at listed
  rcases listed with rfl | inside | rfl
  · exact opening
  · exact forall_appendFields ⟨colon, comma⟩ parts c inside
  · exact closing

end Written

def FaithfulScalar : Scalar → Prop
  | .str value => ∀ c ∈ value.toList, Faithful c
  | .int _ => True

theorem marshalStruct_ascii {fields : List (String × Scalar)}
    (faithful : ∀ field ∈ fields, (∀ c ∈ field.1.toList, Faithful c) ∧ FaithfulScalar field.2) :
    Ascii (marshalStruct fields).toList := by
  have quoted : JsonText.quote.toNat < 0x80 := by decide
  refine forall_marshalStruct (by decide) fun field listed => ?_
  obtain ⟨name, value⟩ := faithful field listed
  refine ⟨forall_appendString quoted fun c member => escape_ascii (name c member), ?_⟩
  cases shape : field.2 with
  | str text =>
      rw [shape] at value
      exact forall_appendString quoted fun c member => escape_ascii (value c member)
  | int number => exact appendInt_ascii number

end Nexus.JavaScript.Json
