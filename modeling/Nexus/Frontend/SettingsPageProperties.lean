import Mathlib.Data.Bool.AllAny
import Nexus.Auth.ServiceProperties
import Nexus.Auth.Token
import Nexus.Frontend.SettingsPage
import Nexus.JavaScript.JsonProperties

/-! Which tokens the settings page can decode, and when what it shows is what
was signed. `atob` does not know the last two symbols of URL Base64, and a
character outside ASCII falls apart into bytes. -/

set_option autoImplicit false

namespace Nexus.Frontend

open Nexus.Auth Nexus.Go Nexus.Go.JsonText Nexus.JavaScript Nexus.JavaScript.Json Nexus.Lib

/-! ## Segments -/

theorem splitOn_compact (header payload signature : List UInt8) :
    (ofString (compact header payload signature)).splitOn '.'.toNat =
      [(Go.Base64.rawURLEncode header).map Char.toNat,
        (Go.Base64.rawURLEncode payload).map Char.toNat,
        (Go.Base64.rawURLEncode signature).map Char.toNat] := by
  have clean (segment : List UInt8) :
      '.'.toNat ∉ (Go.Base64.rawURLEncode segment).map Char.toNat := by
    have letters : ∀ c ∈ Go.Base64.urlAlphabet, c.toNat ≠ '.'.toNat :=
      List.all_iff_forall_prop.mp (by decide)
    intro listed
    obtain ⟨c, member, same⟩ := List.mem_map.mp listed
    exact Go.Base64.forall_rawURLEncode letters segment c member same
  have ascii : ∀ c ∈ Go.Base64.rawURLEncode header ++ '.' :: (Go.Base64.rawURLEncode payload ++
      '.' :: Go.Base64.rawURLEncode signature), c.toNat < 0x80 := by
    intro c listed
    simp only [List.mem_append, List.mem_cons] at listed
    rcases listed with first | rfl | second | rfl | third
    · exact Go.Base64.rawURLEncode_ascii header c first
    · decide
    · exact Go.Base64.rawURLEncode_ascii payload c second
    · decide
    · exact Go.Base64.rawURLEncode_ascii signature c third
  have joined : ofString (compact header payload signature) = ['.'.toNat].intercalate
      [(Go.Base64.rawURLEncode header).map Char.toNat,
        (Go.Base64.rawURLEncode payload).map Char.toNat,
        (Go.Base64.rawURLEncode signature).map Char.toNat] := by
    rw [compact, ofString_ascii ascii]
    simp [List.intercalate]
  rw [joined, List.splitOn_intercalate]
  · intro segment listed
    simp only [List.mem_cons, List.not_mem_nil, or_false] at listed
    rcases listed with rfl | rfl | rfl
    · exact clean header
    · exact clean payload
    · exact clean signature
  · exact List.cons_ne_nil _ _

/-- `atob` decodes URL Base64 unless one of its own two symbols occurs. -/
theorem atob_rawURLEncode (src : List UInt8) :
    atob ((Go.Base64.rawURLEncode src).map Char.toNat) =
      if ∀ value ∈ Lib.Base64.values src, value < 62 then some (src.map UInt8.toNat)
      else none := by
  have clean : ∀ unit ∈ (Go.Base64.rawURLEncode src).map Char.toNat,
      isAsciiWhitespace unit = false ∧ unit ≠ padding := by
    have letters : ∀ c ∈ Go.Base64.urlAlphabet,
        isAsciiWhitespace c.toNat = false ∧ c.toNat ≠ padding :=
      List.all_iff_forall_prop.mp (by decide)
    intro unit listed
    obtain ⟨c, member, rfl⟩ := List.mem_map.mp listed
    exact Go.Base64.forall_rawURLEncode letters src c member
  have known : ∀ n < 62, base64Value (Go.Base64.urlSymbol n).toNat = some n := by decide +kernel
  have unknown : ∀ n < 64, 62 ≤ n → base64Value (Go.Base64.urlSymbol n).toNat = none := by
    decide +kernel
  have whole : ((Go.Base64.rawURLEncode src).map Char.toNat).length % 4 ≠ 1 := by
    rw [List.length_map, Go.Base64.rawURLEncode, List.length_map]
    exact Lib.Base64.length_values_mod src
  rw [atob_eq (fun unit listed => (clean unit listed).1)
    (fun listed => (clean _ listed).2 rfl) whole, Go.Base64.rawURLEncode, List.map_map]
  split
  · rename_i small
    have read : ((Lib.Base64.values src).map (Char.toNat ∘ Go.Base64.urlSymbol)).mapM base64Value =
        some (Lib.Base64.values src) :=
      Lib.Base64.mapM_known fun n listed => known n (small n listed)
    rw [read, Option.map_some, Lib.Base64.octets_values]
  · rename_i large
    push Not at large
    obtain ⟨n, listed, high⟩ := large
    have missing := unknown n (Lib.Base64.values_small src n listed) high
    have unread : ((Lib.Base64.values src).map (Char.toNat ∘ Go.Base64.urlSymbol)).mapM
        base64Value = none := Lib.Base64.mapM_unknown listed missing
    rw [unread]
    rfl

/-! ## Claims -/

def signedScalar : Scalar → Value
  | .str value => .string (ofString value)
  | .int value => .number (ofString (String.ofList (appendInt value)))

def signedField (field : String × Scalar) : List ℕ × Value :=
  (ofString field.1, signedScalar field.2)

/-- The claims that were signed, as a page would hold them. -/
def signedPayload (claims : Claims) : Value := .object (claims.fields.map signedField)

theorem readScalar_eq_iff (scalar : Scalar) :
    readScalar scalar = signedScalar scalar ↔ FaithfulScalar scalar := by
  cases scalar with
  | str value =>
      rw [readScalar, signedScalar, Value.string.injEq, readText_eq_iff]
      rfl
  | int value =>
      rw [readScalar, signedScalar, ofString_ascii (appendInt_ascii value)]
      exact iff_of_true rfl trivial

def claimNames : List String :=
  ["user_id", "username", "role", "iss", "exp", "nbf", "iat", "jti"]

theorem stringField_sublist (name value : String) :
    ((stringField name value).map Prod.fst).Sublist [name] := by
  unfold stringField
  split
  · exact List.nil_sublist _
  · exact List.Sublist.refl _

theorem dateField_sublist (name : String) (date : Option Time) :
    ((dateField name date).map Prod.fst).Sublist [name] := by
  cases date with
  | none => exact List.nil_sublist _
  | some date => exact List.Sublist.refl _

theorem names_sublist (claims : Claims) : (claims.fields.map Prod.fst).Sublist claimNames := by
  unfold Claims.fields
  simp only [List.map_append]
  exact (((((List.Sublist.refl _).append (stringField_sublist _ _)).append
    (dateField_sublist _ _)).append (dateField_sublist _ _)).append
    (dateField_sublist _ _)).append (stringField_sublist _ _)

theorem names_ascii (claims : Claims) :
    ∀ field ∈ claims.fields, ∀ c ∈ field.1.toList, c.toNat < 0x80 := by
  have letters : (claimNames.all fun name => name.toList.all fun c =>
      decide (c.toNat < 0x80)) = true := by decide
  simp only [List.all_eq_true, decide_eq_true_eq] at letters
  intro field listed
  exact letters field.1 ((names_sublist claims).mem (List.mem_map_of_mem listed))

theorem names_distinct (claims : Claims) :
    (claims.fields.map fun field => readText field.1).Nodup := by
  have distinct : (claimNames.map readText).Nodup := by decide
  have sub := (names_sublist claims).map readText
  rw [List.map_map] at sub
  exact distinct.sublist sub

theorem readFields_eq_iff (claims : Claims) :
    claims.fields.map readField = claims.fields.map signedField ↔
      ∀ field ∈ claims.fields, FaithfulScalar field.2 := by
  rw [List.map_inj_left]
  refine forall₂_congr fun field listed => ?_
  have name : readText field.1 = ofString field.1 :=
    (readText_eq_iff field.1).mpr fun c member => .inl (names_ascii claims field listed c member)
  rw [readField, signedField, Prod.mk.injEq, name, readScalar_eq_iff]
  exact and_iff_right rfl

/-- Every text comes back, and no symbol that `atob` lacks occurs: among every
three bytes of the JSON text the third is no question mark, tilde or DEL. -/
structure Legible (claims : Claims) : Prop where
  faithful : ∀ field ∈ claims.fields, FaithfulScalar field.2
  aligned : Lib.Base64.ThirdsBelow 62 0 (bytes claims.json)

theorem json_ascii {claims : Claims}
    (faithful : ∀ field ∈ claims.fields, FaithfulScalar field.2) :
    ∀ byte ∈ bytes claims.json, byte < 0x80 := by
  have ascii : Ascii claims.json.toList := marshalStruct_ascii fun field listed =>
    ⟨fun c member => .inl (names_ascii claims field listed c member), faithful field listed⟩
  intro byte listed
  rw [← String.ofList_toList (s := claims.json), bytes_ofList ascii] at listed
  obtain ⟨c, member, rfl⟩ := List.mem_map.mp listed
  rw [UInt8.lt_iff_toNat_lt, toNat_asciiByte (ascii c member)]
  exact ascii c member

theorem decodedPayload_parts {token : Token} {first second third : List ℕ}
    (parts : (ofString token.text).splitOn '.'.toNat = [first, second, third]) :
    decodedPayload (some token) = (atob second).bind parse := by
  simp only [decodedPayload, parts]
  rfl

theorem decodedPayload_compact {token : Token} {claims : Claims} {header signature : List UInt8}
    (issued : token.text = compact header (bytes claims.json) signature) :
    decodedPayload (some token) =
      if ∀ value ∈ Lib.Base64.values (bytes claims.json), value < 62 then
        some (.object (claims.fields.map readField))
      else none := by
  have payload : (bytes claims.json).map UInt8.toNat = binary claims.json.toList := by
    rw [← map_toNat_bytes, String.ofList_toList]
  have parsed : parse (binary claims.json.toList) =
      some (.object (claims.fields.map readField)) :=
    parse_marshalStruct (List.cons_ne_nil _ _) (names_distinct claims)
  have parts := splitOn_compact header (bytes claims.json) signature
  rw [← issued] at parts
  rw [decodedPayload_parts parts, atob_rawURLEncode, payload]
  split
  · rw [Option.bind_some, parsed]
  · rw [Option.bind_none]

/-- The page shows the claims that were signed exactly if they are legible. -/
theorem shown_iff {token : Token} {claims : Claims} {header signature : List UInt8}
    (issued : token.text = compact header (bytes claims.json) signature) :
    decodedPayload (some token) = some (signedPayload claims) ↔ Legible claims := by
  rw [decodedPayload_compact issued]
  constructor
  · intro shown
    split at shown
    · rename_i small
      have fields := Value.object.inj (Option.some.inj shown)
      have faithful := (readFields_eq_iff claims).mp fields
      exact ⟨faithful, (Lib.Base64.values_below_iff (json_ascii faithful)).mp small⟩
    · cases shown
  · intro legible
    have ascii := json_ascii legible.faithful
    have small : ∀ value ∈ Lib.Base64.values (bytes claims.json), value < 62 :=
      (Lib.Base64.values_below_iff ascii).mpr legible.aligned
    rw [if_pos small, (readFields_eq_iff claims).mpr legible.faithful, signedPayload]

/-! ## Registered accounts -/

/-- A UUID in its usual form. -/
structure IsUUID (id : String) : Prop where
  length : id.toList.length = 36
  digits : ∀ c ∈ id.toList, c ∈ "0123456789abcdef-".toList

/-- The part of `Legible` that a registered user's name decides. The name starts
at a position that is 2 modulo 3. -/
structure LegibleName (name : String) : Prop where
  faithful : ∀ c ∈ name.toList, Faithful c
  aligned : Lib.Base64.ThirdsBelow 62 2 (bytes (String.ofList (name.toList.flatMap escape)))

def wordLetters : List Char := "abcdefghijklmnopqrstuvwxyz0123456789-_".toList

def WordScalar : Scalar → Prop
  | .str value => ∀ c ∈ value.toList, c ∈ wordLetters
  | .int _ => True

/-- A character that Go leaves alone and that needs neither of the two symbols. -/
def Harmless (c : Char) : Prop := c.toNat < 0x80 ∧ c.toNat % 64 < 62

instance (c : Char) : Decidable (Harmless c) := inferInstanceAs (Decidable (_ ∧ _))

theorem wordLetters_plain : ∀ c ∈ wordLetters, escape c = [c] ∧ Harmless c :=
  List.all_iff_forall_prop.mp (by decide)

theorem IsUUID.word {id : String} (uuid : IsUUID id) : WordScalar (.str id) := by
  have letters : ∀ c ∈ "0123456789abcdef-".toList, c ∈ wordLetters :=
    List.all_iff_forall_prop.mp (by decide)
  exact fun c listed => letters c (uuid.digits c listed)

theorem appendString_word {s : String} (word : ∀ c ∈ s.toList, c ∈ wordLetters) :
    ∀ c ∈ appendString s, Harmless c := by
  have quoted : Harmless JsonText.quote := by decide
  refine forall_appendString quoted fun c listed written escaped => ?_
  obtain ⟨itself, harmless⟩ := wordLetters_plain c (word c listed)
  rw [itself] at escaped
  exact List.mem_singleton.mp escaped ▸ harmless

theorem appendScalar_word {scalar : Scalar} (word : WordScalar scalar) :
    ∀ c ∈ appendScalar scalar, Harmless c := by
  cases scalar with
  | str value => exact appendString_word word
  | int value =>
      refine forall_appendInt (by decide) (fun c digit => ?_) value
      rw [isDigit, Bool.and_eq_true, decide_eq_true_eq, decide_eq_true_eq] at digit
      obtain ⟨low, high⟩ := digit
      replace high : c.toNat ≤ 57 := high
      exact ⟨by omega, by omega⟩

/-- The fields behind the username. -/
def laterFields (claims : Claims) : List (String × Scalar) :=
  stringField "iss" claims.issuer ++ dateField "exp" claims.expiresAt ++
    dateField "nbf" claims.notBefore ++ dateField "iat" claims.issuedAt ++
    stringField "jti" claims.id

theorem fields_eq (claims : Claims) :
    claims.fields = ("user_id", .str claims.userID) :: ("username", .str claims.username) ::
      ("role", .str claims.role) :: laterFields claims := by
  simp only [Claims.fields, laterFields, List.cons_append, List.nil_append, List.append_assoc]

theorem laterFields_word {claims : Claims} (issuer : WordScalar (.str claims.issuer))
    (id : WordScalar (.str claims.id)) :
    ∀ field ∈ laterFields claims, WordScalar field.2 := by
  have text (name : String) {value : String} (word : WordScalar (.str value)) :
      ∀ field ∈ stringField name value, WordScalar field.2 := by
    intro field listed
    unfold stringField at listed
    split at listed
    · cases listed
    · rw [List.mem_singleton.mp listed]
      exact word
  have date (name : String) (value : Option Time) :
      ∀ field ∈ dateField name value, WordScalar field.2 := by
    intro field listed
    cases value with
    | none => cases listed
    | some value =>
        rw [List.mem_singleton.mp listed]
        trivial
  simp only [laterFields, List.forall_mem_append]
  exact ⟨⟨⟨⟨text _ issuer, date _ _⟩, date _ _⟩, date _ _⟩, text _ id⟩

/-- The JSON text around a username. -/
def beforeName (id : String) : List Char :=
  '{' :: (appendField ("user_id", .str id) ++
    ',' :: (appendString "username" ++ [':', JsonText.quote]))

def afterName (claims : Claims) : List Char :=
  JsonText.quote :: ',' ::
    (appendFields (("role", .str claims.role) :: laterFields claims) ++ ['}'])

theorem toList_json (claims : Claims) :
    claims.json.toList = beforeName claims.userID ++
      (claims.username.toList.flatMap escape ++ afterName claims) := by
  have username : appendString claims.username =
      JsonText.quote :: claims.username.toList.flatMap escape ++ [JsonText.quote] := rfl
  have name : appendField ("username", .str claims.username) =
      appendString "username" ++ ':' :: appendString claims.username := rfl
  rw [Claims.json, marshalStruct, String.toList_ofList, fields_eq, appendFields, appendFields,
    name, username, beforeName, afterName]
  · simp only [List.cons_append, List.append_assoc, List.nil_append]
  · exact List.cons_ne_nil _ _
  · exact List.cons_ne_nil _ _

theorem beforeName_harmless {id : String} (word : ∀ c ∈ id.toList, c ∈ wordLetters) :
    ∀ c ∈ beforeName id, Harmless c := by
  have marks : Harmless '{' ∧ Harmless ':' ∧ Harmless ',' ∧ Harmless JsonText.quote := by decide
  have name : ∀ c ∈ appendString "user_id", Harmless c :=
    appendString_word (List.all_iff_forall_prop.mp (by decide))
  have next : ∀ c ∈ appendString "username", Harmless c :=
    appendString_word (List.all_iff_forall_prop.mp (by decide))
  have value : ∀ c ∈ appendString id, Harmless c := appendString_word word
  obtain ⟨opening, colon, comma, quoted⟩ := marks
  unfold beforeName appendField appendScalar
  simp only [List.forall_mem_cons, List.forall_mem_append]
  exact ⟨opening, ⟨name, colon, value⟩, comma, next, colon, quoted, List.forall_mem_nil _⟩

theorem length_beforeName {id : String} (uuid : IsUUID id)
    (word : ∀ c ∈ id.toList, c ∈ wordLetters) : (beforeName id).length = 62 := by
  have itself : id.toList.flatMap escape = id.toList := by
    have plain : ∀ c ∈ id.toList, escape c = [c] :=
      fun c listed => (wordLetters_plain c (word c listed)).1
    rw [List.flatMap_congr plain]
    simp
  have name : (appendString "user_id").length = 9 := by decide
  have next : (appendString "username").length = 10 := by decide
  have value : (appendString id).length = 38 := by
    rw [appendString, itself, List.length_append, List.length_cons, uuid.length]
    rfl
  simp only [beforeName, appendField, appendScalar, List.length_cons, List.length_append, name,
    next, value, List.length_nil]

theorem afterName_harmless {claims : Claims} (role : WordScalar (.str claims.role))
    (issuer : WordScalar (.str claims.issuer)) (id : WordScalar (.str claims.id)) :
    ∀ c ∈ afterName claims, Harmless c := by
  have marks : Harmless ':' ∧ Harmless ',' ∧ Harmless '}' ∧ Harmless JsonText.quote := by decide
  obtain ⟨colon, comma, closing, quoted⟩ := marks
  have names : (claimNames.all fun name => name.toList.all fun c =>
      decide (c ∈ wordLetters)) = true := by decide
  simp only [List.all_eq_true, decide_eq_true_eq] at names
  have fields : ∀ c ∈ appendFields (("role", .str claims.role) :: laterFields claims),
      Harmless c := by
    refine forall_appendFields ⟨colon, comma⟩ fun field listed => ?_
    have member : field ∈ claims.fields := by
      rw [fields_eq]
      exact List.mem_cons_of_mem _ (List.mem_cons_of_mem _ listed)
    have name := (names_sublist claims).mem (List.mem_map_of_mem member)
    refine ⟨appendString_word (names field.1 name), ?_⟩
    rcases List.mem_cons.mp listed with rfl | later
    · exact appendScalar_word role
    · exact appendScalar_word (laterFields_word issuer id field later)
  unfold afterName
  simp only [List.forall_mem_cons, List.forall_mem_append]
  exact ⟨quoted, comma, fields, closing, List.forall_mem_nil _⟩

theorem WordScalar.faithful {scalar : Scalar} (word : WordScalar scalar) :
    FaithfulScalar scalar := by
  cases scalar with
  | str value => exact fun c listed => .inl (wordLetters_plain c (word c listed)).2.1
  | int value => trivial

theorem fields_faithful_iff {claims : Claims} (owner : WordScalar (.str claims.userID))
    (role : WordScalar (.str claims.role)) (issuer : WordScalar (.str claims.issuer))
    (id : WordScalar (.str claims.id)) :
    (∀ field ∈ claims.fields, FaithfulScalar field.2) ↔
      ∀ c ∈ claims.username.toList, Faithful c := by
  have later : ∀ field ∈ laterFields claims, FaithfulScalar field.2 :=
    fun field listed => (laterFields_word issuer id field listed).faithful
  rw [fields_eq]
  simp only [List.forall_mem_cons]
  exact ⟨fun all => all.2.1, fun name => ⟨owner.faithful, name, role.faithful, later⟩⟩

theorem thirdsBelow_harmless {cs : List Char} (harmless : ∀ c ∈ cs, Harmless c) (offset : ℕ) :
    Lib.Base64.ThirdsBelow 62 offset (cs.map asciiByte) := by
  refine Lib.Base64.thirdsBelow_of_all (fun byte listed => ?_) offset
  obtain ⟨c, member, rfl⟩ := List.mem_map.mp listed
  rw [toNat_asciiByte (harmless c member).1]
  exact (harmless c member).2

/-- What stands around the name stays clear of the two symbols, and 62 characters
stand before it. -/
theorem aligned_iff_name {claims : Claims} (uuid : IsUUID claims.userID)
    (role : WordScalar (.str claims.role)) (issuer : WordScalar (.str claims.issuer))
    (id : WordScalar (.str claims.id)) (name : ∀ c ∈ claims.username.toList, Faithful c) :
    Lib.Base64.ThirdsBelow 62 0 (bytes claims.json) ↔ Lib.Base64.ThirdsBelow 62 2
      (bytes (String.ofList (claims.username.toList.flatMap escape))) := by
  have escaped : Ascii (claims.username.toList.flatMap escape) := by
    intro c listed
    obtain ⟨source, member, written⟩ := List.mem_flatMap.mp listed
    exact escape_ascii (name source member) c written
  have front := beforeName_harmless uuid.word
  have back := afterName_harmless role issuer id
  have whole : Ascii claims.json.toList := by
    rw [toList_json]
    simp only [Ascii, List.forall_mem_append]
    exact ⟨fun c listed => (front c listed).1, escaped, fun c listed => (back c listed).1⟩
  have start := Lib.Base64.thirdsBelow_mod 62 62
    ((claims.username.toList.flatMap escape).map asciiByte)
  rw [← String.ofList_toList (s := claims.json), bytes_ofList whole, bytes_ofList escaped,
    toList_json, List.map_append, List.map_append, Lib.Base64.thirdsBelow_append,
    Lib.Base64.thirdsBelow_append, List.length_map, length_beforeName uuid uuid.word, start,
    and_iff_right (thirdsBelow_harmless front 0), Nat.zero_add,
    and_iff_left (thirdsBelow_harmless back _)]

/-- Around a username that is all right, the rest is; only the name's own third
bytes matter. -/
theorem legible_iff_name {claims : Claims} (uuid : IsUUID claims.userID)
    (role : WordScalar (.str claims.role)) (issuer : WordScalar (.str claims.issuer))
    (id : WordScalar (.str claims.id)) :
    Legible claims ↔ LegibleName claims.username := by
  have faithful := fields_faithful_iff uuid.word role issuer id
  constructor
  · intro legible
    have name := faithful.mp legible.faithful
    exact ⟨name, (aligned_iff_name uuid role issuer id name).mp legible.aligned⟩
  · intro legible
    have aligned := (aligned_iff_name uuid role issuer id legible.faithful).mpr legible.aligned
    exact ⟨faithful.mpr legible.faithful, aligned⟩

/-- The settings page shows the claims of an issued token as they were signed
exactly if they are legible. For an account with a UUID and a valid role that
depends on the username alone. -/
theorem inspector_iff {svc : Service} (compacts : svc.jwt.Compact) {env : Env} {u : Users.User}
    {token : Token} (issued : svc.generateJWT env u = .ok token.text) :
    (decodedPayload (some token) = some (signedPayload (claimsFor env u)) ↔
      Legible (claimsFor env u)) ∧
    (IsUUID u.id → IsUUID env.newID → u.role ∈ Users.validRoles →
      (Legible (claimsFor env u) ↔ LegibleName u.username)) := by
  obtain ⟨header, signature, text⟩ := compacts _ _ _ issued
  refine ⟨shown_iff text, fun owner drawn valid => ?_⟩
  have roles : (Users.validRoles.all fun role => role.toList.all fun c =>
      decide (c ∈ wordLetters)) = true := by decide
  simp only [List.all_eq_true, decide_eq_true_eq] at roles
  have issuer : ∀ c ∈ jwtIssuer.toList, c ∈ wordLetters :=
    List.all_iff_forall_prop.mp (by decide)
  exact legible_iff_name owner (roles u.role valid) issuer drawn.word

/-- The text of a token whose signature is all zeros. -/
def zeroSigned (claims : Claims) : String :=
  compact (bytes (marshalStruct [("alg", .str "HS256"), ("typ", .str "JWT")]))
    (bytes claims.json) (.replicate 32 0)

theorem zeroSigned_nonempty (claims : Claims) : zeroSigned claims ≠ "" := by
  intro empty
  have none : (zeroSigned claims).toList = [] := by
    rw [empty]
    rfl
  rw [zeroSigned, compact, String.toList_ofList, List.append_eq_nil_iff] at none
  cases none.2

def zeroToken (claims : Claims) : Token := ⟨zeroSigned claims, zeroSigned_nonempty claims⟩

def zeroService : Service where
  bcrypt := plainBcrypt
  jwt := {
    signedString := fun _ claims _ => .ok (zeroSigned claims)
    parseUnverified := fun _ => .error ⟨"token is malformed", []⟩
    verify := fun _ _ _ => true }
  signingKey := [1]
  keyNonempty := List.cons_ne_nil 1 []

theorem zeroService_compact : zeroService.jwt.Compact := by
  intro claims key token signed
  have text : zeroSigned claims = token := Except.ok.inj signed
  exact ⟨_, _, text.symm⟩

theorem zeroService_issues (env : Env) (u : Users.User) :
    zeroService.generateJWT env u = .ok (zeroToken (claimsFor env u)).text := rfl

def accountID : String := "6ba7b810-9dad-11d1-80b4-00c04fd430c8"

theorem accountID_uuid : IsUUID accountID :=
  ⟨by decide, List.all_iff_forall_prop.mp (by decide)⟩

theorem inspector_alice :
    decodedPayload (some (zeroToken (claimsFor (plainEnv hour accountID)
        { alice with id := accountID }))) =
      some (signedPayload (claimsFor (plainEnv hour accountID) { alice with id := accountID })) :=
  have inspected := inspector_iff zeroService_compact
    (zeroService_issues (plainEnv hour accountID) { alice with id := accountID })
  have legible := (inspected.2 accountID_uuid accountID_uuid (by decide)).mpr
    ⟨List.all_iff_forall_prop.mp (by decide), by decide⟩
  inspected.1.mpr legible

/-- A username that registration admits, with a question mark at a third byte. -/
def doubting : RegisterInput where
  username := "who?"
  password := "hunter22"
  role := "viewer"

def doubtingUser : Users.User where
  id := accountID
  username := "who?"
  passwordHash := "$2a$hunter22"
  role := "viewer"
  status := "active"

theorem inspector_question_mark :
    ¬ ∀ (svc : Service) (joined now : Env) (input : RegisterInput) (u : Users.User)
        (token : Token), svc.jwt.Compact → svc.newUser joined input = .ok u →
      svc.generateJWT now u = .ok token.text →
      decodedPayload (some token) = some (signedPayload (claimsFor now u)) := by
  intro always
  have registered : zeroService.newUser (plainEnv 0 accountID) doubting = .ok doubtingUser := by
    decide
  have shown := always zeroService (plainEnv 0 accountID) (plainEnv hour accountID) doubting
    doubtingUser (zeroToken _) zeroService_compact registered (zeroService_issues _ _)
  obtain ⟨header, signature, text⟩ := zeroService_compact _ _ _
    (zeroService_issues (plainEnv hour accountID) doubtingUser)
  have legible := (shown_iff text).mp shown
  have role : WordScalar (.str "viewer") := List.all_iff_forall_prop.mp (by decide)
  have issuer : WordScalar (.str jwtIssuer) := List.all_iff_forall_prop.mp (by decide)
  have drawn : WordScalar (.str accountID) := List.all_iff_forall_prop.mp (by decide)
  have aligned := ((legible_iff_name accountID_uuid role issuer drawn).mp legible).aligned
  exact absurd aligned (by decide)

end Nexus.Frontend
