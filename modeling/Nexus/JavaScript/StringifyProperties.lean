import Nexus.Go.JsonDecode
import Nexus.JavaScript.JsonProperties
import Nexus.JavaScript.Stringify
import Mathlib.Data.Bool.AllAny

/-! What Go decodes from an object that `JSON.stringify` wrote: every string
without its lone surrogates, every boolean and every integer as it was. -/

set_option autoImplicit false

namespace Nexus.JavaScript.Json

open Nexus.Go

/-! ## Code points on the wire -/

/-- What is left of a written code point when pairs of surrogates are joined. -/
def joinedPoint (point : ℕ) : List ℕ :=
  match escapeLetter point with
  | some letter => [backslash, letter]
  | none => if point < 0x20 || isSurrogate point then escapeUnit point else [point]

/-- A code point of Unicode, surrogates included. -/
def IsPoint (point : ℕ) : Prop := point < 0x110000

theorem points_plains {front : List ℕ} (plain : ∀ unit ∈ front, isSurrogate unit = false)
    (rest : List ℕ) : points (front ++ rest) = front ++ points rest := by
  induction front with
  | nil => rfl
  | cons unit front ih =>
      rw [List.forall_mem_cons] at plain
      rw [List.cons_append, points_plain plain.1, ih plain.2, List.cons_append]

theorem isSurrogate_ascii {unit : ℕ} (ascii : unit < 0x80) : isSurrogate unit = false := by
  rw [Bool.eq_false_iff, Ne, isSurrogate_iff]
  omega

theorem escapeUnit_units (point : ℕ) : ∀ unit ∈ escapeUnit point, unit < 0x80 := by
  intro unit listed
  obtain ⟨c, member, rfl⟩ := List.mem_map.mp listed
  exact unicodeEscape_ascii point c member

theorem escapeLetter_some {point letter : ℕ} (short : escapeLetter point = some letter) :
    letter < 0x80 ∧ letter ≠ 'u'.toNat ∧ unescape letter = some point := by
  unfold escapeLetter at short
  split at short
  · rename_i itself
    cases short
    rcases itself with rfl | rfl <;> decide
  · repeat' split at short
    all_goals
      cases short
      try
        rename_i same
        rw [same]
        decide

theorem escapeLetter_none {point : ℕ} (long : escapeLetter point = none) :
    point ≠ quote ∧ point ≠ backslash := by
  unfold escapeLetter at long
  split at long
  · cases long
  · rename_i other
    exact not_or.mp other

theorem points_encodePoint {point : ℕ} (valid : IsPoint point)
    (plain : isSurrogate point = false) (rest : List ℕ) :
    points (encodePoint point ++ rest) = point :: points rest := by
  unfold IsPoint at valid
  unfold encodePoint
  split
  · exact points_plain plain rest
  · have whole : combine (0xD800 + (point - 0x10000) / 0x400)
        (0xDC00 + (point - 0x10000) % 0x400) = point := by
      unfold combine
      omega
    change points (_ :: _ :: rest) = _
    rw [points_pair (isHigh_iff.mpr (by omega)) (isLow_iff.mpr (by omega)), whole]

theorem points_quotePoint {point : ℕ} (valid : IsPoint point) (rest : List ℕ) :
    points (quotePoint point ++ rest) = joinedPoint point ++ points rest := by
  unfold quotePoint joinedPoint
  cases short : escapeLetter point with
  | some letter =>
      have ascii := (escapeLetter_some short).1
      apply points_plains
      intro unit listed
      simp only [List.mem_cons, List.not_mem_nil, or_false] at listed
      rcases listed with rfl | rfl
      · rfl
      · exact isSurrogate_ascii ascii
  | none =>
      dsimp only
      split
      · exact points_plains (fun unit listed =>
          isSurrogate_ascii (escapeUnit_units point unit listed)) rest
      · rename_i printable
        have plain : isSurrogate point = false :=
          (Bool.or_eq_false_iff.mp (Bool.eq_false_iff.mpr printable)).2
        exact points_encodePoint valid plain rest

theorem lexString_joinedPoint (point : ℕ) (rest : List ℕ) :
    lexString (joinedPoint point ++ rest) = readBefore [point] rest := by
  unfold joinedPoint
  cases short : escapeLetter point with
  | some letter =>
      obtain ⟨_, notUnicode, unescaped⟩ := escapeLetter_some short
      exact lexString_shortEscape notUnicode unescaped rest
  | none =>
      obtain ⟨notQuote, notBackslash⟩ := escapeLetter_none short
      dsimp only
      split
      · rename_i special
        have small : point < 0x10000 := by
          rw [Bool.or_eq_true, decide_eq_true_eq, isSurrogate_iff] at special
          omega
        exact lexString_unicodeEscape small rest
      · rename_i printable
        have high : 0x20 ≤ point := by
          have low := (Bool.or_eq_false_iff.mp (Bool.eq_false_iff.mpr printable)).1
          exact Nat.not_lt.mp (of_decide_eq_false low)
        exact lexString_plain ⟨notQuote, notBackslash, high⟩ rest

theorem lexString_joined (text rest : List ℕ) :
    lexString (text.flatMap joinedPoint ++ quote :: rest) = some (text, rest) := by
  rw [lexString_pieces lexString_joinedPoint text rest, List.flatMap_singleton']

/-! ## Objects on the wire -/

/-- The code points that Go reads from the bytes of a string. -/
def codes (units : List ℕ) : List ℕ := (scalars units).map Char.toNat

theorem codes_eq (units : List ℕ) :
    codes units = (points units).map fun point => (scalar point).toNat := by
  rw [codes, scalars, List.map_map]
  rfl

theorem scalar_of_plain {point : ℕ} (valid : IsPoint point) (plain : isSurrogate point = false) :
    (scalar point).toNat = point := by
  have bounds : ¬ (0xD800 ≤ point ∧ point < 0xE000) := by
    rw [← isSurrogate_iff, plain]
    exact Bool.false_ne_true
  unfold IsPoint at valid
  have isChar : point.isValidChar := by
    unfold Nat.isValidChar
    omega
  rw [scalar, plain, if_neg Bool.false_ne_true, Char.ofNat, dif_pos isChar]
  rfl

/-- What is written for a code point is sent as it is. -/
theorem joinedPoint_plain {point : ℕ} (valid : IsPoint point) :
    ∀ unit ∈ joinedPoint point, IsPoint unit ∧ isSurrogate unit = false := by
  have low : ∀ {unit : ℕ}, unit < 0x80 → IsPoint unit ∧ isSurrogate unit = false :=
    fun ascii => ⟨Nat.lt_trans ascii (by decide), isSurrogate_ascii ascii⟩
  intro unit listed
  unfold joinedPoint at listed
  cases short : escapeLetter point with
  | some letter =>
      rw [short] at listed
      simp only [List.mem_cons, List.not_mem_nil, or_false] at listed
      rcases listed with rfl | rfl
      · exact low (by decide)
      · exact low (escapeLetter_some short).1
  | none =>
      rw [short] at listed
      dsimp only at listed
      split at listed
      · exact low (escapeUnit_units point unit listed)
      · rename_i printable
        rw [List.mem_singleton.mp listed]
        exact ⟨valid, (Bool.or_eq_false_iff.mp (Bool.eq_false_iff.mpr printable)).2⟩

theorem codes_quotePoint {point : ℕ} (valid : IsPoint point) (rest : List ℕ) :
    codes (quotePoint point ++ rest) = joinedPoint point ++ codes rest := by
  have itself : (joinedPoint point).map (fun point => (scalar point).toNat) =
      joinedPoint point := by
    rw [List.map_congr_left (g := id), List.map_id]
    intro unit listed
    obtain ⟨valid, plain⟩ := joinedPoint_plain valid unit listed
    exact scalar_of_plain valid plain
  rw [codes_eq, points_quotePoint valid, List.map_append, itself, ← codes_eq]

theorem codes_ascii {front : List ℕ} (ascii : ∀ unit ∈ front, unit < 0x80) (rest : List ℕ) :
    codes (front ++ rest) = front ++ codes rest := by
  have plain : ∀ unit ∈ front, isSurrogate unit = false :=
    fun unit listed => isSurrogate_ascii (ascii unit listed)
  have itself : front.map (fun point => (scalar point).toNat) = front := by
    rw [List.map_congr_left (g := id), List.map_id]
    intro unit listed
    exact scalar_of_plain (Nat.lt_trans (ascii unit listed) (by decide)) (plain unit listed)
  rw [codes_eq, points_plains plain, List.map_append, itself, ← codes_eq]

theorem codes_cons {unit : ℕ} (ascii : unit < 0x80) (rest : List ℕ) :
    codes (unit :: rest) = unit :: codes rest :=
  codes_ascii (List.forall_mem_singleton.mpr ascii) rest

/-- A string of JavaScript: its units have 16 bits. -/
def IsString (units : List ℕ) : Prop := ∀ unit ∈ units, unit < 0x10000

theorem points_valid {units : List ℕ} (string : IsString units) :
    ∀ point ∈ points units, IsPoint point := by
  have narrow : ∀ {unit : ℕ}, unit < 0x10000 → IsPoint unit :=
    fun small => Nat.lt_trans small (by decide)
  induction units using points.induct with
  | case1 => exact List.forall_mem_nil _
  | case2 unit =>
      rw [points, List.forall_mem_singleton]
      exact narrow (string unit List.mem_cons_self)
  | case3 unit next rest pair ih =>
      rw [points, if_pos pair, List.forall_mem_cons]
      rw [Bool.and_eq_true, isHigh_iff, isLow_iff] at pair
      refine ⟨?_, ih fun other listed => string other
        (List.mem_cons_of_mem _ (List.mem_cons_of_mem _ listed))⟩
      unfold IsPoint combine
      omega
  | case4 unit next rest alone ih =>
      rw [points, if_neg alone, List.forall_mem_cons]
      exact ⟨narrow (string unit List.mem_cons_self),
        ih fun other listed => string other (List.mem_cons_of_mem _ listed)⟩

theorem ofString_isString (s : String) : IsString (ofString s) := by
  intro unit listed
  obtain ⟨c, _, member⟩ := List.mem_flatMap.mp listed
  have valid := toNat_valid c
  unfold codeUnits at member
  split at member
  · rw [List.mem_singleton.mp member]
    assumption
  · simp only [List.mem_cons, List.not_mem_nil, or_false] at member
    omega

theorem codes_quoteString {units : List ℕ} (string : IsString units) (rest : List ℕ) :
    codes (quoteString quotePoint units ++ rest) = quoteString joinedPoint units ++ codes rest := by
  have text : ∀ list : List ℕ, (∀ point ∈ list, IsPoint point) → ∀ rest,
      codes (list.flatMap quotePoint ++ rest) = list.flatMap joinedPoint ++ codes rest := by
    intro list valid
    induction list with
    | nil => exact fun _ => rfl
    | cons point list ih =>
        intro rest
        rw [List.forall_mem_cons] at valid
        rw [List.flatMap_cons, List.append_assoc, codes_quotePoint valid.1, ih valid.2,
          List.flatMap_cons, List.append_assoc]
  have mark : quote < 0x80 := by decide
  rw [quoteString, List.cons_append, List.cons_append, List.append_assoc, codes_cons mark,
    text _ (points_valid string), List.singleton_append, codes_cons mark, quoteString]
  simp only [List.cons_append, List.append_assoc, List.nil_append]

theorem codes_stringifyMember {member : Member}
    (string : ∀ units, member = .string units → IsString units) (rest : List ℕ) :
    codes (stringifyMember quotePoint member ++ rest) =
      stringifyMember joinedPoint member ++ codes rest := by
  cases member with
  | string units => exact codes_quoteString (string units rfl) rest
  | boolean value =>
      refine codes_ascii ?_ rest
      cases value with
      | true => exact List.all_iff_forall_prop.mp (by decide)
      | false => exact List.all_iff_forall_prop.mp (by decide)
  | integer value =>
      refine codes_ascii (fun unit listed => ?_) rest
      obtain ⟨c, member, rfl⟩ := List.mem_map.mp listed
      exact appendInt_ascii value.val c member

/-- The strings of an object are strings of JavaScript. -/
def StringsIn (properties : List (String × Member)) : Prop :=
  ∀ property ∈ properties, ∀ units, property.2 = .string units → IsString units

theorem codes_stringifyProperty {property : String × Member}
    (string : ∀ units, property.2 = .string units → IsString units) (rest : List ℕ) :
    codes (stringifyProperty quotePoint property ++ rest) =
      stringifyProperty joinedPoint property ++ codes rest := by
  rw [stringifyProperty, List.append_assoc, codes_quoteString (ofString_isString _),
    List.cons_append, codes_cons (by decide), codes_stringifyMember string, stringifyProperty,
    List.append_assoc, List.cons_append]

theorem codes_stringifyProperties {properties : List (String × Member)}
    (strings : StringsIn properties) (rest : List ℕ) :
    codes (stringifyProperties quotePoint properties ++ rest) =
      stringifyProperties joinedPoint properties ++ codes rest := by
  induction properties with
  | nil => rfl
  | cons property properties ih =>
      obtain ⟨first, others⟩ := List.forall_mem_cons.mp strings
      cases properties with
      | nil => exact codes_stringifyProperty first rest
      | cons next properties =>
          rw [stringifyProperties, List.append_assoc, codes_stringifyProperty first,
            List.cons_append, codes_cons (by decide), ih others, stringifyProperties,
            List.append_assoc, List.cons_append]

theorem codes_stringify {properties : List (String × Member)} (strings : StringsIn properties) :
    codes (stringify properties) = stringifyObject joinedPoint properties := by
  have nothing : codes [] = [] := rfl
  rw [stringify, stringifyObject, List.cons_append, codes_cons (by decide),
    codes_stringifyProperties strings, codes_cons (by decide), nothing]
  rfl

/-! ## Scanning -/

def readMember : Member → Value
  | .string units => .string (points units)
  | .boolean value => .boolean value
  | .integer value => .number ((Go.JsonText.appendInt value.val).map Char.toNat)

def readProperty (property : String × Member) : List ℕ × Value :=
  (points (ofString property.1), readMember property.2)

theorem parseScalar_member (member : Member) {sep : ℕ} (ends : EndsNumber sep) (rest : List ℕ) :
    parseScalar (stringifyMember joinedPoint member ++ sep :: rest) =
      some (readMember member, sep :: rest) := by
  cases member with
  | string units =>
      rw [stringifyMember, quoteString, List.cons_append, List.cons_append, List.append_assoc,
        List.singleton_append, parseScalar, if_pos rfl, lexString_joined]
      rfl
  | boolean value =>
      cases value with
      | true => rfl
      | false => rfl
  | integer value =>
      have parsed := parseScalar_appendScalar (.int value.val) ends rest
      rw [JsonText.appendScalar, binary_ascii (appendInt_ascii value.val)] at parsed
      exact parsed

theorem member_head (member : Member) :
    ∃ unit others, stringifyMember joinedPoint member = unit :: others ∧ StartsScalar unit := by
  cases member with
  | string units => exact ⟨quote, _, rfl, by decide, by decide, by decide⟩
  | boolean value =>
      cases value with
      | true => exact ⟨_, _, rfl, by decide, by decide, by decide⟩
      | false => exact ⟨_, _, rfl, by decide, by decide, by decide⟩
  | integer value =>
      obtain ⟨unit, digits, shape, starts⟩ := appendInt_head value.val
      exact ⟨unit, digits, shape, starts.startsScalar⟩

theorem scanValue_member (member : Member) {sep : ℕ} (ends : EndsNumber sep) (rest : List ℕ)
    (fuel depth : ℕ) :
    scanValue (fuel + 1) depth (stringifyMember joinedPoint member ++ sep :: rest) =
      some (readMember member, sep :: rest) := by
  have parsed := parseScalar_member member ends rest
  obtain ⟨unit, others, shape, starts⟩ := member_head member
  rw [shape, List.cons_append] at parsed ⊢
  rw [scanValue, skipSpace_eq starts.solid]
  simp only [if_neg starts.notArray, if_neg starts.notObject, parsed]

theorem lexKey_joined (name : List ℕ) (rest : List ℕ) :
    lexKey (quoteString joinedPoint name ++ ':'.toNat :: rest) = some (points name, rest) := by
  rw [quoteString, List.cons_append, List.cons_append, List.append_assoc, List.singleton_append]
  exact lexKey_quoted (lexString_joined (points name) (':'.toNat :: rest))

theorem scanMembers_properties {properties : List (String × Member)} (nonempty : properties ≠ [])
    (before : List (List ℕ × Value)) {fuel : ℕ} (enough : properties.length < fuel)
    (depth : ℕ) (rest : List ℕ) :
    scanMembers fuel depth before
        (stringifyProperties joinedPoint properties ++ '}'.toNat :: rest) =
      some (.object (before ++ properties.map readProperty), rest) := by
  have closing : isSpace '}'.toNat = false := by decide
  have comma : isSpace ','.toNat = false := by decide
  have notComma : '}'.toNat ≠ ','.toNat := by decide
  induction properties generalizing before fuel with
  | nil => exact absurd rfl nonempty
  | cons property properties ih =>
      obtain ⟨fuel, rfl⟩ : ∃ less, fuel = less + 2 :=
        ⟨fuel - 2, by rw [List.length_cons] at enough; omega⟩
      cases properties with
      | nil =>
          rw [stringifyProperties, stringifyProperty, List.append_assoc, List.cons_append,
            scanMembers, lexKey_joined]
          simp only [scanValue_member property.2 endsNumber_brace, skipSpace_eq closing,
            if_neg notComma, if_true]
          rfl
      | cons next properties =>
          rw [stringifyProperties, stringifyProperty, List.append_assoc, List.append_assoc,
            List.cons_append, List.cons_append, scanMembers, lexKey_joined]
          simp only [scanValue_member property.2 endsNumber_comma, skipSpace_eq comma, if_true]
          rw [ih (List.cons_ne_nil _ _) _ (Nat.lt_of_succ_lt_succ enough), List.append_assoc]
          rfl

theorem properties_head (property : String × Member) (properties : List (String × Member)) :
    ∃ others, stringifyProperties joinedPoint (property :: properties) = quote :: others := by
  cases properties with
  | nil => exact ⟨_, rfl⟩
  | cons next properties => exact ⟨_, rfl⟩

theorem length_le_properties (properties : List (String × Member)) :
    properties.length ≤ (stringifyProperties joinedPoint properties).length := by
  induction properties with
  | nil => exact Nat.le_refl 0
  | cons property properties ih =>
      cases properties with
      | nil =>
          obtain ⟨others, head⟩ := properties_head property []
          rw [head]
          simp
      | cons next properties =>
          rw [stringifyProperties, List.length_append]
          simp only [List.length_cons] at ih ⊢
          omega

theorem scan_stringifyObject {properties : List (String × Member)} (nonempty : properties ≠ []) :
    scan (stringifyObject joinedPoint properties) =
      some (.object (properties.map readProperty), []) := by
  have solid : isSpace '{'.toNat = false := by decide
  have notArray : '{'.toNat ≠ '['.toNat := by decide
  have quoted : isSpace quote = false := by decide
  have notEnd : quote ≠ '}'.toNat := by decide
  have enough : properties.length <
      2 * (stringifyProperties joinedPoint properties ++ ['}'.toNat]).length + 1 := by
    have fewer := length_le_properties properties
    rw [List.length_append]
    omega
  have members := scanMembers_properties nonempty [] enough (maxNestingDepth - 1) []
  have levels : maxNestingDepth = maxNestingDepth - 1 + 1 := rfl
  cases properties with
  | nil => exact absurd rfl nonempty
  | cons property properties =>
      obtain ⟨others, head⟩ := properties_head property properties
      rw [head, List.cons_append] at members
      rw [scan, stringifyObject, List.cons_append, List.length_cons, Nat.mul_succ, head,
        List.cons_append, scanValue, skipSpace_eq solid, levels]
      simp only [if_neg notArray, if_true, skipSpace_eq quoted, if_neg notEnd, members]
      rfl

/-- A body within the limit arrives member by member. -/
theorem decode_stringify {S : Type} {properties : List (String × Member)}
    (strings : StringsIn properties) (nonempty : properties ≠ []) {limit : ℕ}
    (fits : (toBytes (stringify properties)).length ≤ limit) (fields : List (StructField S))
    (zero : S) :
    decode fields zero (Reader.maxBytes limit { content := toBytes (stringify properties) }) =
      unmarshal fields zero (.object (properties.map readProperty)) := by
  have received : (runes (toBytes (stringify properties))).map Char.toNat =
      stringifyObject joinedPoint properties := by
    rw [toBytes, runes_encoded]
    exact codes_stringify strings
  rw [Reader.maxBytes, if_neg (Nat.not_lt.mpr fits), decode, received,
    scan_stringifyObject nonempty]
  rfl

end Nexus.JavaScript.Json
