import Nexus.Go.Mux

/-! Paths and queries of plain words, which need no escapes, arrive as they are
written. -/

set_option autoImplicit false

namespace Nexus.Go

open Nexus.Lib

/-! ## Plain words -/

def plainChar (c : Char) : Bool := c.isAlphanum || c == '-' || c == '_'

/-- A word that a URL holds as it is. -/
structure Plain (text : String) : Prop where
  nonempty : text ≠ ""
  chars : ∀ c ∈ text.toList, plainChar c = true

instance (text : String) : Decidable (Plain text) :=
  decidable_of_iff (text ≠ "" ∧ text.toList.all plainChar = true)
    ⟨fun plain => ⟨plain.1, List.all_eq_true.mp plain.2⟩,
      fun plain => ⟨plain.1, List.all_eq_true.mpr plain.2⟩⟩

theorem plainChar_ascii {c : Char} (plain : plainChar c = true) : c.toNat < 0x80 := by
  delta plainChar Char.isAlphanum Char.isAlpha Char.isUpper Char.isLower Char.isDigit at plain
  simp only [Bool.or_eq_true, Bool.and_eq_true, decide_eq_true_eq, beq_iff_eq, ge_iff_le,
    UInt32.le_iff_toNat_le] at plain
  rcases plain with ((upperOrLower | digit) | rfl) | rfl
  · rcases upperOrLower with upper | lower
    · exact Nat.lt_of_le_of_lt upper.2 (by decide)
    · exact Nat.lt_of_le_of_lt lower.2 (by decide)
  · exact Nat.lt_of_le_of_lt digit.2 (by decide)
  · decide
  · decide

theorem Plain.notMem {text : String} (plain : Plain text) {c : Char}
    (special : plainChar c = false) : c ∉ text.toList := by
  intro member
  rw [plain.chars c member] at special
  cases special

theorem Plain.toList_ne_nil {text : String} (plain : Plain text) : text.toList ≠ [] := by
  intro empty
  exact plain.nonempty (String.toList_eq_nil_iff.mp empty)

theorem Plain.bytes_eq {text : String} (plain : Plain text) :
    bytes text = text.toList.map asciiByte := by
  have whole := bytes_ofList fun c member => plainChar_ascii (plain.chars c member)
  rwa [String.ofList_toList] at whole

/-- No byte of a plain word has a meaning of its own. -/
theorem Plain.byte {text : String} (plain : Plain text) (special : Char)
    (ascii : special.toNat < 0x80) (reserved : plainChar special = false) :
    asciiByte special ∉ bytes text := by
  rw [plain.bytes_eq]
  intro member
  obtain ⟨c, listed, same⟩ := List.mem_map.mp member
  have value := congrArg UInt8.toNat same
  rw [toNat_asciiByte ascii, toNat_asciiByte (plainChar_ascii (plain.chars c listed))] at value
  have : c = special := Char.toNat_inj.mp value
  exact plain.notMem reserved (this ▸ listed)

theorem unescape_clean (query : Bool) {src : List UInt8} (percent : 0x25 ∉ src)
    (plus : 0x2B ∉ src) : unescape query src = some src := by
  induction src with
  | nil => rfl
  | cons byte src ih =>
      obtain ⟨notPercent, percent⟩ := not_or.mp (List.mem_cons.not.mp percent)
      obtain ⟨notPlus, plus⟩ := not_or.mp (List.mem_cons.not.mp plus)
      rw [unescape.eq_def]
      simp only [if_neg (Ne.symm notPercent), ih percent plus, Option.map_some]
      have kept : (query && byte == 0x2B) = false := by simp [Ne.symm notPlus]
      rw [kept]
      rfl

theorem ofBytes_bytes (text : String) : ofBytes (bytes text) = text := by
  have encoded : ∀ cs : List Char,
      bytes (String.ofList cs) = cs.flatMap String.utf8EncodeChar := by
    intro cs
    unfold bytes
    rw [String.toUTF8_eq_toByteArray, String.toByteArray_ofList]
    induction cs with
    | nil => rfl
    | cons c cs ih =>
        rw [List.utf8Encode_cons, List.utf8Encode_singleton, ByteArray.data_append,
          Array.toList_append, ih, List.data_toByteArray, List.flatMap_cons]
  rw [← String.ofList_toList (s := text), encoded, ofBytes, runes_encoded]

theorem Plain.unescape_eq {text : String} (plain : Plain text) (query : Bool) :
    unescape query (bytes text) = some (bytes text) :=
  unescape_clean query (plain.byte '%' (by decide) (by decide))
    (plain.byte '+' (by decide) (by decide))

theorem Plain.pathUnescape_eq {text : String} (plain : Plain text) : pathUnescape text = text := by
  rw [pathUnescape, plain.unescape_eq]
  exact ofBytes_bytes text

theorem Plain.queryUnescape_eq {text : String} (plain : Plain text) :
    queryUnescape text = some text := by
  rw [queryUnescape, plain.unescape_eq, Option.map_some, ofBytes_bytes]

/-! ## Paths -/

/-- The path of these segments. -/
def pathOf (words : List String) : String :=
  String.ofList ('/' :: ['/'].intercalate (words.map String.toList))

section
variable {words : List String} (plain : ∀ word ∈ words, Plain word) (nonempty : words ≠ [])
include plain nonempty

theorem split_pathOf : (pathOf words).toList.splitOn '/' = [] :: words.map String.toList := by
  have clean : ∀ word ∈ words.map String.toList, '/' ∉ word := by
    intro word listed
    obtain ⟨text, member, rfl⟩ := List.mem_map.mp listed
    exact (plain text member).notMem (by decide)
  have inner := List.splitOn_intercalate '/' clean (by simpa using nonempty)
  have first := List.splitOn_append_cons_self_of_not_mem (a := '/') List.not_mem_nil
    (['/'].intercalate (words.map String.toList))
  rw [inner] at first
  rw [pathOf, String.toList_ofList]
  exact first

omit nonempty in
theorem cleanSegments_plain (kept : List (List Char)) :
    (words.map String.toList).foldl (fun kept segment =>
      if segment = [] ∨ segment = ['.'] then kept
      else if segment = ['.', '.'] then kept.dropLast
      else kept ++ [segment]) kept = kept ++ words.map String.toList := by
  induction words generalizing kept with
  | nil => simp
  | cons word words ih =>
      have first := plain word List.mem_cons_self
      have noDot : '.' ∉ word.toList := first.notMem (by decide)
      have ordinary : ¬ (word.toList = [] ∨ word.toList = ['.']) := by
        rintro (empty | dot)
        · exact first.toList_ne_nil empty
        · exact noDot (by simp [dot])
      have notUp : word.toList ≠ ['.', '.'] := fun up => noDot (by simp [up])
      rw [List.map_cons, List.foldl_cons, if_neg ordinary, if_neg notUp,
        ih fun other member => plain other (List.mem_cons_of_mem word member),
        List.append_assoc, List.singleton_append]

theorem cleanPath_pathOf : cleanPath (pathOf words) = pathOf words := by
  have split := split_pathOf plain nonempty
  have head : (pathOf words).toList.head? = some '/' := by
    rw [pathOf, String.toList_ofList]
    rfl
  have segments : cleanSegments ((pathOf words).toList.splitOn '/') =
      words.map String.toList := by
    rw [split, cleanSegments, List.foldl_cons, if_pos (.inl rfl), cleanSegments_plain plain,
      List.nil_append]
  have last : ¬ (pathOf words).toList.getLast? = some '/' := by
    intro slash
    obtain ⟨front, shape⟩ := List.getLast?_eq_some_iff.mp slash
    rw [shape, List.splitOn_append_cons_self, List.splitOn_nil] at split
    have ends := congrArg List.getLast? split
    have listed : words.map String.toList ≠ [] := by simpa using nonempty
    rw [List.getLast?_concat, List.getLast?_cons, List.getLast?_eq_some_getLast listed] at ends
    have member := List.getLast_mem listed
    rw [Option.getD_some] at ends
    rw [← Option.some.inj ends] at member
    obtain ⟨word, known, empty⟩ := List.mem_map.mp member
    exact (plain word known).toList_ne_nil empty
  simp only [cleanPath, head, if_true, segments, last, and_false, if_false]
  rfl

theorem segments_pathOf : segments (pathOf words) = words := by
  rw [segments, split_pathOf plain nonempty, List.tail_cons]
  clear nonempty
  induction words with
  | nil => rfl
  | cons word words ih =>
      have first := plain word List.mem_cons_self
      have rest := ih fun other member => plain other (List.mem_cons_of_mem word member)
      cases shape : word.toList with
      | nil => exact absurd shape first.toList_ne_nil
      | cons c cs =>
          have whole : String.ofList (c :: cs) = word := by
            rw [← shape, String.ofList_toList]
          rw [List.map_cons, shape]
          have step : pathSegments ((c :: cs) :: words.map String.toList) =
              pathUnescape (String.ofList (c :: cs)) :: pathSegments (words.map String.toList) := by
            cases words <;> rfl
          rw [step, whole, first.pathUnescape_eq, rest]

end

variable {Handler : Type}

/-- The handler of a path of plain words is found without a redirect. -/
theorem findHandler_pathOf {patterns : List (Pattern × Handler)} {method : String}
    {words : List String} (plain : ∀ word ∈ words, Plain word) (nonempty : words ≠ [])
    {handler : Handler} {values : List (String × String)}
    (matched : matchRequest patterns method words = some (handler, values)) :
    findHandler patterns method (pathOf words) = .handler handler values := by
  have path : (if method = "CONNECT" then pathOf words else cleanPath (pathOf words)) =
      pathOf words := by
    rw [cleanPath_pathOf plain nonempty, ite_self]
  simp only [findHandler, path, ne_eq, not_true_eq_false, if_false,
    segments_pathOf plain nonempty, matched]

/-! ## Queries -/

/-- The query of these settings. -/
def queryOf (settings : List (String × String)) : String :=
  String.ofList (['&'].intercalate
    (settings.map fun setting => setting.1.toList ++ '=' :: setting.2.toList))

theorem parseSetting_plain {name value : String} (plainName : Plain name)
    (plainValue : Plain value) :
    parseSetting (name.toList ++ '=' :: value.toList) = some (name, value) := by
  have noEquals : '=' ∉ name.toList := plainName.notMem (by decide)
  have ordinary : ¬ (';' ∈ name.toList ++ '=' :: value.toList ∨
      name.toList ++ '=' :: value.toList = []) := by
    rintro (semicolon | empty)
    · rw [List.mem_append, List.mem_cons] at semicolon
      rcases semicolon with front | isEquals | back
      · exact plainName.notMem (by decide) front
      · exact absurd isEquals (by decide)
      · exact plainValue.notMem (by decide) back
    · simp at empty
  rw [parseSetting, if_neg ordinary, Uri.upTo_append noEquals, Uri.after_append noEquals,
    String.ofList_toList, String.ofList_toList, plainName.queryUnescape_eq,
    plainValue.queryUnescape_eq]

theorem settings_queryOf {settings : List (String × String)} (nonempty : settings ≠ [])
    (plain : ∀ setting ∈ settings, Plain setting.1 ∧ Plain setting.2) :
    ((queryOf settings).toList.splitOn '&').filterMap parseSetting = settings := by
  have clean : ∀ text ∈ settings.map fun setting =>
      setting.1.toList ++ '=' :: setting.2.toList, '&' ∉ text := by
    intro text listed member
    obtain ⟨setting, known, rfl⟩ := List.mem_map.mp listed
    obtain ⟨plainName, plainValue⟩ := plain setting known
    rw [List.mem_append, List.mem_cons] at member
    rcases member with front | isEquals | back
    · exact plainName.notMem (by decide) front
    · exact absurd isEquals (by decide)
    · exact plainValue.notMem (by decide) back
  rw [queryOf, String.toList_ofList, List.splitOn_intercalate '&' clean (by simpa using nonempty),
    List.filterMap_map]
  clear clean nonempty
  induction settings with
  | nil => rfl
  | cons setting settings ih =>
      obtain ⟨plainName, plainValue⟩ := plain setting List.mem_cons_self
      have parsed : (parseSetting ∘ fun setting : String × String =>
          setting.1.toList ++ '=' :: setting.2.toList) setting = some setting :=
        parseSetting_plain plainName plainValue
      rw [List.filterMap_cons_some parsed,
        ih fun other member => plain other (List.mem_cons_of_mem setting member)]

end Nexus.Go
