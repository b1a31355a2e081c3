import Mathlib.Data.Bool.AllAny
import Nexus.Auth.MfaHandler
import Nexus.Auth.ServiceProperties
import Nexus.Lib.Uri
import Nexus.Security.SecretRoundTrip

/-! What an authenticator reads from the identifier that enrolment hands out.
The username is written into it as it is. -/

set_option autoImplicit false

namespace Nexus.Auth

open Nexus.Lib Nexus.Lib.Uri Nexus.Go Nexus.Server

/-- The identifier names the account and has each parameter once, with the
values that the verifier uses. -/
structure ReadsBack (uri : Parsed) (username secret : String) : Prop where
  scheme : uri.scheme = bytes "otpauth"
  type : uri.authority = bytes "totp"
  label : uri.path = bytes ("NEXUS:" ++ username)
  secret : uri.values (bytes "secret") = [bytes secret]
  issuer : uri.values (bytes "issuer") = [bytes "NEXUS"]
  algorithm : uri.values (bytes "algorithm") = [bytes "SHA1"]
  digits : uri.values (bytes "digits") = [bytes "6"]
  period : uri.values (bytes "period") = [bytes (toString totpTimeStep)]

/-- No delimiter that ends a path, and no escape. -/
def PlainPath (src : List UInt8) : Prop :=
  0x23 ∉ src ∧ 0x3F ∉ src ∧ hasEscape src = false

instance (src : List UInt8) : Decidable (PlainPath src) :=
  inferInstanceAs (Decidable (_ ∧ _ ∧ _))

theorem bytes_totpURI (username secret : String) :
    bytes (totpURI username secret) = bytes "otpauth" ++ 0x3A :: 0x2F :: 0x2F ::
      (bytes "totp" ++ 0x2F :: (bytes ("NEXUS:" ++ username) ++ 0x3F ::
        (bytes "secret" ++ 0x3D :: bytes secret ++ 0x26 ::
          bytes "issuer=NEXUS&algorithm=SHA1&digits=6&period=30"))) := by
  have start : bytes "otpauth://totp/NEXUS:" = bytes "otpauth" ++ 0x3A :: 0x2F :: 0x2F ::
    (bytes "totp" ++ 0x2F :: bytes "NEXUS:") := by decide
  have mark : bytes "?secret=" = 0x3F :: (bytes "secret" ++ [0x3D]) := by decide
  have ampersand : bytes "&issuer=NEXUS&algorithm=SHA1&digits=6&period=30" =
    0x26 :: bytes "issuer=NEXUS&algorithm=SHA1&digits=6&period=30" := by decide
  change bytes ("otpauth://totp/NEXUS:" ++ username ++ "?secret=" ++ secret ++
    "&issuer=NEXUS&algorithm=SHA1&digits=6&period=30") = _
  simp only [bytes_append, start, mark, ampersand, List.append_assoc, List.cons_append,
    List.nil_append]

/-- A generated secret has no delimiter and no escape. -/
theorem generated_clean {env : Env} {secret : String} (drawn : generateMFASecret env = some secret)
    {delimiter : UInt8} (outside : ∀ c ∈ Base32.alphabet, asciiByte c ≠ delimiter) :
    delimiter ∉ bytes secret := by
  unfold generateMFASecret at drawn
  cases random : env.randRead 20 with
  | none =>
      rw [random] at drawn
      cases drawn
  | some src =>
      rw [random] at drawn
      cases drawn
      have printable := (Security.encoded_printable src.toList).ascii
      have spelled := bytes_ofList printable
      rw [String.ofList_toList] at spelled
      rw [spelled]
      intro member
      obtain ⟨c, listed, same⟩ := List.mem_map.mp member
      exact outside c (Security.encoded_mem listed) same

/-- The path and the query as they are written. -/
def written (username secret : String) : List UInt8 :=
  bytes ("NEXUS:" ++ username) ++ 0x3F :: (bytes "secret" ++ 0x3D :: bytes secret ++
    0x26 :: bytes "issuer=NEXUS&algorithm=SHA1&digits=6&period=30")

theorem parse_totpURI (username secret : String) :
    parse (bytes (totpURI username secret)) = some {
      scheme := bytes "otpauth"
      authority := bytes "totp"
      path := percentDecode (upTo 0x3F (upTo 0x23 (written username secret)))
      parameters :=
        ((after 0x3F (upTo 0x23 (written username secret))).splitOn 0x26).map parameter } := by
  rw [bytes_totpURI]
  exact parse_parts _ (by decide) (by decide)

theorem plain_label_iff (username : String) :
    PlainPath (bytes ("NEXUS:" ++ username)) ↔ PlainPath (bytes username) := by
  have noHash : 0x23 ∉ bytes "NEXUS:" := by decide
  have noMark : 0x3F ∉ bytes "NEXUS:" := by decide
  have noPercent : 0x25 ∉ bytes "NEXUS:" := by decide
  simp only [PlainPath, bytes_append, List.mem_append, noHash, noMark, false_or,
    hasEscape_append noPercent]

theorem label_iff (username secret : String) :
    percentDecode (upTo 0x3F (upTo 0x23 (written username secret))) =
      bytes ("NEXUS:" ++ username) ↔ PlainPath (bytes username) := by
  rw [written, percentDecode_prefix_iff upTo_twice_starts, upTo_twice_eq_iff (by decide), and_assoc]
  exact plain_label_iff username

theorem parameters_eq {env : Env} {secret : String} (drawn : generateMFASecret env = some secret)
    {username : String} (plain : PlainPath (bytes username)) :
    ((after 0x3F (upTo 0x23 (written username secret))).splitOn 0x26).map parameter =
      [(bytes "secret", bytes secret), (bytes "issuer", bytes "NEXUS"),
        (bytes "algorithm", bytes "SHA1"), (bytes "digits", bytes "6"),
        (bytes "period", bytes "30")] := by
  obtain ⟨noHash, noMark, _⟩ := (plain_label_iff username).mpr plain
  have secretHash : 0x23 ∉ bytes secret := generated_clean drawn <|
    List.all_iff_forall_prop.mp (by decide)
  have secretAmpersand : 0x26 ∉ bytes secret := generated_clean drawn <|
    List.all_iff_forall_prop.mp (by decide)
  have secretPercent : 0x25 ∉ bytes secret := generated_clean drawn <|
    List.all_iff_forall_prop.mp (by decide)
  have nameHash : 0x23 ∉ bytes "secret" := by decide
  have nameAmpersand : 0x26 ∉ bytes "secret" := by decide
  have restHash : 0x23 ∉ bytes "issuer=NEXUS&algorithm=SHA1&digits=6&period=30" := by decide
  have wholeHash : 0x23 ∉ written username secret := by
    simp [written, noHash, secretHash, nameHash, restHash]
  have first : 0x26 ∉ bytes "secret" ++ 0x3D :: bytes secret := by
    simp [nameAmpersand, secretAmpersand]
  have named : parameter (bytes "secret" ++ 0x3D :: bytes secret) =
      (bytes "secret", bytes secret) := by
    have equals : 0x3D ∉ bytes "secret" := by decide
    rw [parameter, upTo_append equals, after_append equals,
      percentDecode_of_clean (hasEscape_of_notMem secretPercent)]
    rfl
  have others : ((bytes "issuer=NEXUS&algorithm=SHA1&digits=6&period=30").splitOn 0x26).map
      parameter = [(bytes "issuer", bytes "NEXUS"), (bytes "algorithm", bytes "SHA1"),
        (bytes "digits", bytes "6"), (bytes "period", bytes "30")] := by decide
  rw [upTo_of_notMem wholeHash, written, after_append noMark,
    List.splitOn_append_cons_self_of_not_mem first, List.map_cons, named, others]

/-- An authenticator reads the identifier of an enrolment as it is meant exactly
if the username holds neither a `#` nor a `?` nor an escape. Any other `%` stands
for itself. -/
theorem totp_uri_iff {σ : Type} [UserStore σ] {env : Env} {secret : String}
    (drawn : generateMFASecret env = some secret) (claims : Claims) (r : HttpRequest)
    (w : World σ) :
    ∃ uri, Handler.mfaSetup env r (some claims) w = (w, respond (writeJSON 200 (.obj
        [("message",
            .str "Scan the QR code or enter the secret into your authenticator app"),
          ("secret", .str secret), ("totp_uri", .str uri)]))) ∧
      ((∃ parsed, parse (bytes uri) = some parsed ∧ ReadsBack parsed claims.username secret) ↔
        PlainPath (bytes claims.username)) := by
  refine ⟨totpURI claims.username secret, by simp only [Handler.mfaSetup, drawn], ?_⟩
  rw [parse_totpURI]
  constructor
  · rintro ⟨parsed, read, meant⟩
    cases read
    exact (label_iff claims.username secret).mp meant.label
  · intro plain
    refine ⟨_, rfl, rfl, rfl, (label_iff claims.username secret).mpr plain, ?_, ?_, ?_, ?_, ?_⟩
    all_goals
      rw [Parsed.values, parameters_eq drawn plain]
      rfl

def enrolmentWorld : World MemoryUserStore where
  store := .new
  engine := Policy.newEngine "dev" "adm" "vwr"
  audit := Audit.newMemoryLogger
  limiter := .redis ∅

theorem totp_uri_alice :
    ∃ uri parsed, parse (bytes uri) = some parsed ∧
      ReadsBack parsed aliceClaims.username (Base32.encodeToString (List.replicate 20 0)) := by
  have drawn : generateMFASecret (plainEnv 0 "n-1") =
      some (Base32.encodeToString (List.replicate 20 0)) := rfl
  obtain ⟨uri, _, read⟩ := totp_uri_iff drawn aliceClaims {} enrolmentWorld
  exact ⟨uri, read.mpr (by decide)⟩

/-- A username with a question mark, as registration admits it. -/
def questioning : RegisterInput where
  username := "ann?x"
  password := "hunter22"
  role := "viewer"

theorem totp_uri_question_mark :
    ¬ ∀ (env : Env) (input : RegisterInput) (u : Users.User) (secret : String),
      plainService.newUser env input = .ok u → generateMFASecret env = some secret →
      ∃ parsed, parse (bytes (totpURI u.username secret)) = some parsed ∧
        ReadsBack parsed u.username secret := by
  intro always
  have admitted : ∃ u, plainService.newUser (plainEnv 0 "u-1") questioning = .ok u ∧
      u.username = "ann?x" := ⟨_, rfl, rfl⟩
  obtain ⟨u, registered, name⟩ := admitted
  obtain ⟨parsed, read, meant⟩ := always _ questioning u _ registered rfl
  rw [parse_totpURI] at read
  cases read
  have plain := (label_iff u.username _).mp meant.label
  rw [name] at plain
  exact absurd plain (by decide)

end Nexus.Auth
