import Nexus.Go.JsonEncode
import Nexus.JavaScript.JsonProperties
import Nexus.JavaScript.Utf16

/-! What `response.json()` makes of a body that Go encoded: the same value, as
long as no object repeats a name. -/

set_option autoImplicit false

namespace Nexus.JavaScript.Json

open Nexus.Go
open Nexus.Go.JsonText (escape shortEscape unicodeEscape appendString appendInt)

/-! ## Values -/

mutual

/-- The value as JavaScript has it. -/
def view : Go.Json → Value
  | .str value => .string (ofString value)
  | .num value => .number ((appendInt value).map Char.toNat)
  | .bool value => .boolean value
  | .time value => .string ((Time.format value).map Char.toNat)
  | .arr items => .array (viewItems items)
  | .obj fields => .object (viewFields fields)

def viewItems : List Go.Json → List Value
  | [] => []
  | item :: items => view item :: viewItems items

def viewField : String × Go.Json → List ℕ × Value
  | (name, value) => (ofString name, view value)

def viewFields : List (String × Go.Json) → List (List ℕ × Value)
  | [] => []
  | field :: fields => viewField field :: viewFields fields

end

mutual

/-- No object repeats a name. -/
def Distinct : Go.Json → Prop
  | .str _ | .num _ | .bool _ | .time _ => True
  | .arr items => DistinctItems items
  | .obj fields => (fields.map Prod.fst).Nodup ∧ DistinctFields fields

def DistinctItems : List Go.Json → Prop
  | [] => True
  | item :: items => Distinct item ∧ DistinctItems items

def DistinctField : String × Go.Json → Prop
  | (_, value) => Distinct value

def DistinctFields : List (String × Go.Json) → Prop
  | [] => True
  | field :: fields => DistinctField field ∧ DistinctFields fields

end

/-! ## Text as code units -/

def units (cs : List Char) : List ℕ := cs.flatMap codeUnits

theorem units_append (front back : List Char) : units (front ++ back) = units front ++ units back :=
  List.flatMap_append

theorem units_ascii {cs : List Char} (ascii : Ascii cs) : units cs = cs.map Char.toNat := by
  have same := ofString_ascii ascii
  rw [ofString, String.toList_ofList] at same
  exact same

theorem units_cons {c : Char} (ascii : c.toNat < 0x80) (cs : List Char) :
    units (c :: cs) = c.toNat :: units cs := by
  rw [units, List.flatMap_cons, codeUnits_ascii ascii]
  rfl

/-- The units of a character that is not escaped stand for themselves. -/
theorem codeUnits_plain {c : Char} (long : shortEscape c = none) (printable : 0x20 ≤ c.toNat) :
    ∀ unit ∈ codeUnits c, Plain unit := by
  have notQuote : c ≠ JsonText.quote := by
    rintro rfl
    exact absurd long (by decide)
  have notBackslash : c ≠ JsonText.backslash := by
    rintro rfl
    exact absurd long (by decide)
  intro unit listed
  unfold codeUnits at listed
  split at listed
  · rw [List.mem_singleton] at listed
    subst listed
    exact ⟨fun same => notQuote (Char.toNat_inj.mp same),
      fun same => notBackslash (Char.toNat_inj.mp same), printable⟩
  · simp only [List.mem_cons, List.not_mem_nil, or_false] at listed
    have high : 0xD800 ≤ unit := by omega
    have bounds : quote < 0xD800 ∧ backslash < 0xD800 := by decide
    exact ⟨by omega, by omega, by omega⟩

theorem unescape_ascii {letter unit : ℕ} (escaped : unescape letter = some unit) :
    unit < 0x80 := by
  unfold unescape at escaped
  split at escaped
  · rename_i itself
    cases escaped
    rcases itself with rfl | rfl | rfl <;> decide
  · repeat' split at escaped
    all_goals
      cases escaped
      try decide

theorem lexString_escape_units (c : Char) (rest : List ℕ) :
    lexString (units (escape c) ++ rest) = readBefore (codeUnits c) rest := by
  cases escape_form c with
  | short letter written _ ascii notUnicode unescaped =>
      rw [units_ascii ascii, written, codeUnits_ascii (unescape_ascii unescaped)]
      exact lexString_shortEscape notUnicode unescaped rest
  | long written _ ascii small =>
      rw [units_ascii ascii, written, codeUnits, if_pos small]
      exact lexString_unicodeEscape small rest
  | itself written long printable _ =>
      rw [written, units, List.flatMap_singleton]
      exact lexString_plains (codeUnits_plain long printable) rest

theorem lexString_escaped_units (text : List Char) (rest : List ℕ) :
    lexString (units (text.flatMap escape) ++ quote :: rest) = some (units text, rest) := by
  rw [units, List.flatMap_assoc]
  exact lexString_pieces lexString_escape_units text rest

theorem units_appendString (text : String) (rest : List ℕ) :
    units (appendString text) ++ rest =
      quote :: (units (text.toList.flatMap escape) ++ quote :: rest) := by
  have mark : units [JsonText.quote] = [quote] := by decide
  rw [appendString, List.cons_append, ← List.singleton_append, units_append, units_append, mark]
  simp only [List.cons_append, List.append_assoc, List.nil_append]

/-! ## Scalars -/

theorem parseScalar_string (text : String) (rest : List ℕ) :
    parseScalar (units (appendString text) ++ rest) = some (.string (ofString text), rest) := by
  rw [units_appendString, parseScalar, if_pos rfl, lexString_escaped_units]
  rfl

theorem format_plain (t : Time) : ∀ c ∈ Time.format t, c.toNat < 0x80 ∧ Plain c.toNat := by
  refine forall_format (fun c digit => ?_) ?_ t
  · rw [Char.isDigit, Bool.and_eq_true, decide_eq_true_eq, decide_eq_true_eq] at digit
    have low : 48 ≤ c.toNat := UInt32.le_iff_toNat_le.mp digit.1
    have high : c.toNat ≤ 57 := UInt32.le_iff_toNat_le.mp digit.2
    have marks : quote = 34 ∧ backslash = 92 := by decide
    exact ⟨by omega, by omega, by omega, by omega⟩
  · refine ⟨?_, ?_, ?_, ?_, ?_⟩ <;> exact ⟨by decide, by decide, by decide, by decide⟩

theorem parseScalar_time (t : Time) (rest : List ℕ) :
    parseScalar (units (JsonText.quote :: Time.format t ++ [JsonText.quote]) ++ rest) =
      some (.string ((Time.format t).map Char.toNat), rest) := by
  have ascii : Ascii (Time.format t) := fun c listed => (format_plain t c listed).1
  have plain : ∀ unit ∈ (Time.format t).map Char.toNat, Plain unit := by
    intro unit listed
    obtain ⟨c, member, rfl⟩ := List.mem_map.mp listed
    exact (format_plain t c member).2
  have mark : units [JsonText.quote] = [quote] := by decide
  have ends : lexString (quote :: rest) = some ([], rest) := by
    rw [lexString.eq_def]
    simp only [if_true]
  rw [List.cons_append, ← List.singleton_append, units_append, units_append, mark,
    units_ascii ascii, List.append_assoc, List.append_assoc, List.singleton_append,
    List.singleton_append, parseScalar, if_pos rfl, lexString_plains plain, readBefore, ends]
  simp only [Option.map_some, List.append_nil]

theorem parseScalar_num (value : ℤ) {sep : ℕ} (ends : EndsNumber sep) (rest : List ℕ) :
    parseScalar (units (appendInt value) ++ sep :: rest) =
      some (.number ((appendInt value).map Char.toNat), sep :: rest) := by
  have parsed := parseScalar_appendScalar (.int value) ends rest
  rw [JsonText.appendScalar, binary_ascii (appendInt_ascii value)] at parsed
  rw [units_ascii (appendInt_ascii value), parsed]
  rfl

theorem parseScalar_bool (value : Bool) (rest : List ℕ) :
    parseScalar (units (if value then "true".toList else "false".toList) ++ rest) =
      some (.boolean value, rest) := by
  cases value with
  | true => rfl
  | false => rfl

theorem parseValue_scalar {text rest : List ℕ} {value : Value}
    (head : ∃ unit others, text = unit :: others ∧ StartsScalar unit)
    (parsed : parseScalar text = some (value, rest)) (fuel : ℕ) :
    parseValue (fuel + 1) text = some (value, rest) := by
  obtain ⟨unit, others, rfl, starts⟩ := head
  rw [parseValue, skipSpace_eq starts.solid]
  simp only [if_neg starts.notArray, if_neg starts.notObject, parsed]

theorem startsScalar_quote : StartsScalar quote := ⟨by decide, by decide, by decide⟩

/-! ## Nested values -/

/-- A unit that stands for neither white space nor the end of an array. -/
structure StartsValue (unit : ℕ) : Prop where
  solid : isSpace unit = false
  notEnd : unit ≠ ']'.toNat

theorem units_head {c : Char} (ascii : c.toNat < 0x80) (cs : List Char) :
    ∃ others, units (c :: cs) = c.toNat :: others := ⟨units cs, units_cons ascii cs⟩

theorem encode_head (value : Go.Json) :
    ∃ unit others, units (encode value) = unit :: others ∧ StartsValue unit := by
  cases value with
  | str text =>
      obtain ⟨others, head⟩ := units_head (c := JsonText.quote) (by decide) _
      exact ⟨_, others, head, by decide, by decide⟩
  | num number =>
      obtain ⟨unit, others, head, starts⟩ := appendInt_head number
      rw [encode, units_ascii (appendInt_ascii number)]
      exact ⟨unit, others, head, starts.startsScalar.solid, starts.ne (by decide)⟩
  | bool truth =>
      cases truth with
      | true => exact ⟨_, _, rfl, by decide, by decide⟩
      | false => exact ⟨_, _, rfl, by decide, by decide⟩
  | time t =>
      obtain ⟨others, head⟩ := units_head (c := JsonText.quote) (by decide) _
      exact ⟨_, others, head, by decide, by decide⟩
  | arr items =>
      obtain ⟨others, head⟩ := units_head (c := '[') (by decide) _
      exact ⟨_, others, head, by decide, by decide⟩
  | obj fields =>
      obtain ⟨others, head⟩ := units_head (c := '{') (by decide) _
      exact ⟨_, others, head, by decide, by decide⟩

theorem units_encodeItems (item next : Go.Json) (items : List Go.Json) :
    units (encodeItems (item :: next :: items)) =
      units (encode item) ++ ','.toNat :: units (encodeItems (next :: items)) := by
  rw [encodeItems, units_append, units_cons (by decide)]

theorem units_encodeFields (field next : String × Go.Json) (fields : List (String × Go.Json)) :
    units (encodeFields (field :: next :: fields)) =
      units (encodeField field) ++ ','.toNat :: units (encodeFields (next :: fields)) := by
  rw [encodeFields, units_append, units_cons (by decide)]

theorem units_encodeField (name : String) (value : Go.Json) :
    units (encodeField (name, value)) =
      units (appendString name) ++ ':'.toNat :: units (encode value) := by
  rw [encodeField, units_append, units_cons (by decide)]

theorem units_encode_arr (items : List Go.Json) (rest : List ℕ) :
    units (encode (.arr items)) ++ rest =
      '['.toNat :: (units (encodeItems items) ++ ']'.toNat :: rest) := by
  rw [encode, List.cons_append, units_cons (by decide), units_append,
    units_cons (by decide)]
  simp only [List.cons_append, List.append_assoc]
  rfl

theorem units_encode_obj (fields : List (String × Go.Json)) (rest : List ℕ) :
    units (encode (.obj fields)) ++ rest =
      '{'.toNat :: (units (encodeFields fields) ++ '}'.toNat :: rest) := by
  rw [encode, List.cons_append, units_cons (by decide), units_append,
    units_cons (by decide)]
  simp only [List.cons_append, List.append_assoc]
  rfl

theorem lexKey_units (name : String) (rest : List ℕ) :
    lexKey (units (appendString name) ++ ':'.toNat :: rest) = some (ofString name, rest) := by
  rw [units_appendString]
  exact lexKey_quoted (lexString_escaped_units name.toList (':'.toNat :: rest))

theorem encodeItems_head (item : Go.Json) (items : List Go.Json) :
    ∃ unit others, units (encodeItems (item :: items)) = unit :: others ∧ StartsValue unit := by
  obtain ⟨unit, others, head, starts⟩ := encode_head item
  cases items with
  | nil =>
      rw [encodeItems]
      exact ⟨unit, others, head, starts⟩
  | cons next items =>
      rw [units_encodeItems, head]
      exact ⟨unit, _, rfl, starts⟩

theorem encodeFields_head (field : String × Go.Json) (fields : List (String × Go.Json)) :
    ∃ others, units (encodeFields (field :: fields)) = quote :: others := by
  obtain ⟨name, value⟩ := field
  have head : ∃ others, units (encodeField (name, value)) = quote :: others := by
    rw [units_encodeField, units_appendString]
    exact ⟨_, rfl⟩
  obtain ⟨others, head⟩ := head
  cases fields with
  | nil =>
      rw [encodeFields]
      exact ⟨others, head⟩
  | cons next fields =>
      rw [units_encodeFields, head]
      exact ⟨_, rfl⟩

theorem endsNumber_bracket : EndsNumber ']'.toNat := ⟨by decide, by decide, by decide⟩

theorem viewFields_names (fields : List (String × Go.Json)) :
    (viewFields fields).map Prod.fst = (fields.map Prod.fst).map ofString := by
  induction fields with
  | nil => rfl
  | cons field fields ih =>
      obtain ⟨name, value⟩ := field
      rw [viewFields, List.map_cons, ih]
      rfl

/-- An object is read when its members are, whatever follows it. -/
theorem parseValue_object (fields : List (String × Go.Json)) (rest : List ℕ) {fuel : ℕ}
    (parsed : fields ≠ [] →
      parseMembers fuel [] (units (encodeFields fields) ++ '}'.toNat :: rest) =
        some (.object (viewFields fields), rest)) :
    parseValue (fuel + 1) (units (encode (.obj fields)) ++ rest) =
      some (view (.obj fields), rest) := by
  have solid : isSpace '{'.toNat = false := by decide
  have notArray : '{'.toNat ≠ '['.toNat := by decide
  rw [units_encode_obj, parseValue, skipSpace_eq solid]
  simp only [if_neg notArray, if_true]
  cases fields with
  | nil => rfl
  | cons field fields =>
      have parsed := parsed (List.cons_ne_nil _ _)
      have quoted : isSpace quote = false := by decide
      have notEnd : quote ≠ '}'.toNat := by decide
      obtain ⟨others, head⟩ := encodeFields_head field fields
      rw [head, List.cons_append] at parsed ⊢
      simp only [skipSpace_eq quoted, if_neg notEnd, parsed]
      rfl

mutual

/-- A value is read back whatever follows it, if it does not go on as a number
does. -/
theorem parseValue_encode (value : Go.Json) (distinct : Distinct value) {sep : ℕ}
    (ends : EndsNumber sep) (rest : List ℕ) {fuel : ℕ}
    (enough : 2 * (units (encode value)).length ≤ fuel) :
    parseValue fuel (units (encode value) ++ sep :: rest) = some (view value, sep :: rest) := by
  obtain ⟨unit, others, head, starts⟩ := encode_head value
  obtain ⟨fuel, rfl⟩ : ∃ less, fuel = less + 1 := by
    rw [head, List.length_cons] at enough
    exact ⟨fuel - 1, by omega⟩
  cases value with
  | str text =>
      refine parseValue_scalar ?_ (parseScalar_string text (sep :: rest)) fuel
      rw [units_appendString]
      exact ⟨_, _, rfl, startsScalar_quote⟩
  | num number =>
      refine parseValue_scalar ?_ (parseScalar_num number ends rest) fuel
      obtain ⟨first, digits, shape, starts⟩ := appendInt_head number
      rw [units_ascii (appendInt_ascii number), shape]
      exact ⟨_, _, rfl, starts.startsScalar⟩
  | bool truth =>
      refine parseValue_scalar ?_ (parseScalar_bool truth (sep :: rest)) fuel
      cases truth with
      | true => exact ⟨_, _, rfl, by decide, by decide, by decide⟩
      | false => exact ⟨_, _, rfl, by decide, by decide, by decide⟩
  | time t =>
      refine parseValue_scalar ?_ (parseScalar_time t (sep :: rest)) fuel
      rw [List.cons_append, units_cons (by decide)]
      exact ⟨_, _, rfl, startsScalar_quote⟩
  | arr items =>
      have solid : isSpace '['.toNat = false := by decide
      have length := congrArg List.length (units_encode_arr items [])
      simp only [List.append_nil, List.length_append, List.length_cons] at length
      rw [units_encode_arr, parseValue, skipSpace_eq solid]
      simp only [if_true]
      cases items with
      | nil => rfl
      | cons item items =>
          have inner : 2 * (units (encodeItems (item :: items))).length < fuel := by omega
          have parsed := parseItems_encode (item :: items) distinct (List.cons_ne_nil _ _) []
            (sep :: rest) inner
          obtain ⟨first, others, head, starts⟩ := encodeItems_head item items
          rw [head, List.cons_append] at parsed ⊢
          simp only [skipSpace_eq starts.solid, if_neg starts.notEnd, parsed]
          rfl
  | obj fields =>
      have length := congrArg List.length (units_encode_obj fields [])
      simp only [List.append_nil, List.length_append, List.length_cons] at length
      refine parseValue_object fields (sep :: rest) ?_
      intro nonempty
      have names : ((viewFields fields).map Prod.fst).Nodup := by
        rw [viewFields_names]
        exact distinct.1.map ofString_injective
      have inner : 2 * (units (encodeFields fields)).length < fuel := by omega
      exact parseFields_encode fields distinct.2 nonempty [] names (sep :: rest) inner

theorem parseItems_encode (items : List Go.Json) (distinct : DistinctItems items)
    (nonempty : items ≠ []) (before : List Value) (rest : List ℕ) {fuel : ℕ}
    (enough : 2 * (units (encodeItems items)).length < fuel) :
    parseItems fuel before (units (encodeItems items) ++ ']'.toNat :: rest) =
      some (.array (before ++ viewItems items), rest) := by
  have solid : isSpace ']'.toNat = false := by decide
  have comma : isSpace ','.toNat = false := by decide
  obtain ⟨fuel, rfl⟩ : ∃ less, fuel = less + 1 := ⟨fuel - 1, by omega⟩
  cases items with
  | nil => exact absurd rfl nonempty
  | cons item items =>
      cases items with
      | nil =>
          rw [encodeItems] at enough ⊢
          rw [parseItems, parseValue_encode item distinct.1 endsNumber_bracket rest (by omega)]
          simp only [skipSpace_eq solid]
          rfl
      | cons next items =>
          rw [units_encodeItems, List.length_append, List.length_cons] at enough
          rw [units_encodeItems, List.append_assoc, List.cons_append, parseItems,
            parseValue_encode item distinct.1 endsNumber_comma _ (by omega)]
          simp only [skipSpace_eq comma, if_true]
          rw [parseItems_encode (next :: items) distinct.2 (List.cons_ne_nil _ _) _ rest
            (by omega), List.append_assoc]
          rfl

theorem parseFields_encode (fields : List (String × Go.Json)) (distinct : DistinctFields fields)
    (nonempty : fields ≠ []) (before : List (List ℕ × Value))
    (names : ((before ++ viewFields fields).map Prod.fst).Nodup) (rest : List ℕ) {fuel : ℕ}
    (enough : 2 * (units (encodeFields fields)).length < fuel) :
    parseMembers fuel before (units (encodeFields fields) ++ '}'.toNat :: rest) =
      some (.object (before ++ viewFields fields), rest) := by
  have solid : isSpace '}'.toNat = false := by decide
  have comma : isSpace ','.toNat = false := by decide
  have notComma : '}'.toNat ≠ ','.toNat := by decide
  obtain ⟨fuel, rfl⟩ : ∃ less, fuel = less + 1 := ⟨fuel - 1, by omega⟩
  cases fields with
  | nil => exact absurd rfl nonempty
  | cons field fields =>
      obtain ⟨name, value⟩ := field
      have fresh : ofString name ∉ before.map Prod.fst := by
        rw [List.map_append, List.nodup_append] at names
        intro listed
        exact names.2.2 _ listed _ List.mem_cons_self rfl
      cases fields with
      | nil =>
          rw [encodeFields, units_encodeField] at enough ⊢
          rw [List.length_append, List.length_cons] at enough
          have inner : 2 * (units (encode value)).length ≤ fuel := by omega
          rw [List.append_assoc, List.cons_append, parseMembers, lexKey_units]
          simp only [parseValue_encode value distinct.1 endsNumber_brace rest inner,
            skipSpace_eq solid, if_neg notComma, if_true, setMember_new fresh]
          rfl
      | cons next fields =>
          have moved : before ++ viewFields ((name, value) :: next :: fields) =
              (before ++ [(ofString name, view value)]) ++ viewFields (next :: fields) := by
            rw [List.append_assoc]
            rfl
          rw [units_encodeFields, units_encodeField] at enough ⊢
          rw [List.length_append, List.length_append, List.length_cons, List.length_cons] at enough
          have inner : 2 * (units (encode value)).length ≤ fuel := by omega
          rw [moved] at names ⊢
          rw [List.append_assoc, List.append_assoc, List.cons_append, List.cons_append,
            parseMembers, lexKey_units]
          simp only [parseValue_encode value distinct.1 endsNumber_comma _ inner,
            skipSpace_eq comma, if_true, setMember_new fresh]
          exact parseFields_encode (next :: fields) distinct.2 (List.cons_ne_nil _ _) _ names
            rest (by omega)

end

/-- An object needs nothing after it. -/
theorem parse_encode_obj {fields : List (String × Go.Json)} (distinct : Distinct (.obj fields)) :
    parse (units (encode (.obj fields))) = some (view (.obj fields)) := by
  have shape := units_encode_obj fields []
  rw [List.append_nil] at shape
  obtain ⟨fuel, enough⟩ : ∃ fuel, 2 * (units (encode (.obj fields))).length = fuel + 1 ∧
      2 * (units (encodeFields fields)).length < fuel := by
    rw [shape, List.length_cons, List.length_append, List.length_singleton]
    exact ⟨2 * (units (encodeFields fields)).length + 3, by omega, by omega⟩
  have read : parseValue (fuel + 1) (units (encode (.obj fields)) ++ []) =
      some (view (.obj fields), []) := by
    refine parseValue_object fields [] ?_
    intro nonempty
    have names : ((viewFields fields).map Prod.fst).Nodup := by
      rw [viewFields_names]
      exact distinct.1.map ofString_injective
    exact parseFields_encode fields distinct.2 nonempty [] names [] enough.2
  rw [List.append_nil] at read
  rw [parse, enough.1, read]
  rfl

/-! ## Sorted maps -/

theorem distinctFields_iff (fields : List (String × Go.Json)) :
    DistinctFields fields ↔ ∀ field ∈ fields, Distinct field.2 := by
  induction fields with
  | nil => exact ⟨fun _ => List.forall_mem_nil _, fun _ => trivial⟩
  | cons field fields ih =>
      obtain ⟨name, value⟩ := field
      rw [DistinctFields, ih, List.forall_mem_cons]
      rfl

theorem distinctItems_iff (items : List Go.Json) :
    DistinctItems items ↔ ∀ item ∈ items, Distinct item := by
  induction items with
  | nil => exact ⟨fun _ => List.forall_mem_nil _, fun _ => trivial⟩
  | cons item items ih => rw [DistinctItems, ih, List.forall_mem_cons]

theorem distinct_sortKeys {value : Go.Json} (distinct : Distinct value) :
    Distinct value.sortKeys := by
  cases value with
  | obj fields =>
      have sorted := List.perm_insertionSort
        (fun field other : String × Go.Json => field.1 ≤ other.1) fields
      refine ⟨(sorted.map Prod.fst).nodup_iff.mpr distinct.1, ?_⟩
      rw [distinctFields_iff]
      intro field listed
      exact (distinctFields_iff fields).mp distinct.2 field (sorted.mem_iff.mp listed)
  | str | num | bool | time | arr => exact distinct

theorem sortFields_names (fields : List (String × Go.Json)) :
    (sortFields fields).map Prod.fst = fields.map Prod.fst := by
  induction fields with
  | nil => rfl
  | cons field fields ih =>
      obtain ⟨name, value⟩ := field
      rw [sortFields, List.map_cons, ih]
      rfl

mutual

theorem distinct_sortMaps : ∀ value : Go.Json, Distinct value → Distinct value.sortMaps
  | .str _, _ | .num _, _ | .bool _, _ | .time _, _ => trivial
  | .arr items, distinct => distinct_sortItems items distinct
  | .obj fields, distinct =>
      ⟨by rw [sortFields_names]; exact distinct.1, distinct_sortFields fields distinct.2⟩

theorem distinct_sortItems : ∀ items : List Go.Json,
    DistinctItems items → DistinctItems (sortItems items)
  | [], _ => trivial
  | item :: items, distinct =>
      ⟨distinct_sortMaps item distinct.1, distinct_sortItems items distinct.2⟩

theorem distinct_sortField : ∀ field : String × Go.Json,
    DistinctField field → DistinctField (sortField field)
  | (name, value), distinct => by
      rw [sortField]
      split
      · exact distinct_sortKeys distinct
      · exact distinct_sortMaps value distinct

theorem distinct_sortFields : ∀ fields : List (String × Go.Json),
    DistinctFields fields → DistinctFields (sortFields fields)
  | [], _ => trivial
  | field :: fields, distinct =>
      ⟨distinct_sortField field distinct.1, distinct_sortFields fields distinct.2⟩

end

/-! ## Bodies -/

/-- `response.json()`, a rejection of its promise being `none`. -/
def responseJson (body : Body) : Option Value := parse (ofString body.text)

/-- A body that encodes is read as the value it was made from, and another one
not at all. -/
theorem responseJson_json {value : Go.Json} (distinct : Distinct value) :
    responseJson (.json value) = if value.marshals then some (view value.sortMaps) else none := by
  rw [responseJson, Body.text]
  cases value.marshals with
  | false => rfl
  | true =>
      let newline : ℕ := 0x0A
      have ends : EndsNumber newline := ⟨by decide, by decide, by decide⟩
      have space : isSpace newline = true := by decide
      have text : ofString (String.ofList (encode value.sortMaps ++ [Char.ofNat 0x0A])) =
          units (encode value.sortMaps) ++ newline :: [] := by
        rw [ofString, String.toList_ofList, List.flatMap_append]
        rfl
      have enough : 2 * (units (encode value.sortMaps)).length ≤
          2 * (units (encode value.sortMaps) ++ newline :: []).length := by
        rw [List.length_append]
        omega
      simp only [if_true, text]
      rw [parse, parseValue_encode _ (distinct_sortMaps value distinct) ends [] enough]
      simp only [skipSpace, List.dropWhile_cons, space, if_true, List.dropWhile_nil]

end Nexus.JavaScript.Json
