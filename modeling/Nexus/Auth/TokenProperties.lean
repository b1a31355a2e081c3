import Nexus.Auth.ServiceProperties
import Nexus.Auth.Token

/-! What the service makes of a token depends on its signed text and its HMAC
alone; and a concrete instance of the library, whose tokens have three segments. -/

set_option autoImplicit false

namespace Nexus.Auth

open Nexus.Go

theorem dot_notMem_rawURLEncode (src : List UInt8) : '.' ∉ Base64.rawURLEncode src := by
  have symbols : ∀ c ∈ Base64.rawURLEncode src, (c != '.') = true :=
    Base64.forall_rawURLEncode (List.all_iff_forall_prop.mp (by decide)) src
  exact fun listed => absurd (symbols '.' listed) (by decide)

/-- What the library joins it takes apart. -/
theorem segments_join {header payload : List Char} (clean : '.' ∉ header) (plain : '.' ∉ payload)
    (mac : List UInt8) :
    segments (String.ofList (header ++ '.' :: (payload ++ '.' :: Base64.rawURLEncode mac))) =
      some { signingString := String.ofList (header ++ '.' :: payload), signature := mac } := by
  simp only [segments, String.toList_ofList, List.splitOn_append_cons_self,
    List.splitOn_eq_singleton clean, List.splitOn_eq_singleton plain,
    List.splitOn_eq_singleton (dot_notMem_rawURLEncode mac), List.singleton_append,
    Base64.rawURLDecode_rawURLEncode, Option.map_some]

/-- A token that is accepted and has the content of a generated one has its HMAC
too, and then the generated one is accepted in its place. -/
theorem Service.Accepts.generated {svc : Service} (sound : svc.jwt.Sound)
    {hmac : SigningMethod → Key → String → List UInt8} (segmented : svc.jwt.Segmented hmac)
    {env : Env} {u : Users.User} {issued token : String}
    (signed : svc.generateJWT env u = .ok issued) (content : SameContent token issued)
    {now : Time} {method : SigningMethod} {claims : Claims}
    (accepts : svc.Accepts now token method claims) :
    SameSegments token issued ∧ svc.Accepts now issued method claims := by
  obtain ⟨read, same, presented, genuine, text⟩ := content
  have decodes := segmented.parses token issued read same presented genuine text
  have parsed := sound.parses _ _ _ (claimsFor_wholeSeconds env u) signed
  have verified := sound.verifies _ _ _ signed
  have hs256 : method = .hs256 := by
    have payload := accepts.decodes.symm.trans (decodes.trans parsed)
    rw [Except.ok.injEq, Prod.mk.injEq] at payload
    exact payload.1
  subst hs256
  constructor
  · obtain ⟨other, again, mac⟩ := (segmented.verifies _ _ _ rfl).mp accepts.signed
    obtain ⟨another, once, expected⟩ := (segmented.verifies _ _ _ rfl).mp verified
    cases presented.symm.trans again
    cases genuine.symm.trans once
    have signatures : read.signature = same.signature := by rw [mac, expected, text]
    refine ⟨read, presented, genuine.trans ?_⟩
    cases read
    cases same
    cases text
    cases signatures
    rfl
  · exact { accepts with
      decodes := decodes.symm.trans accepts.decodes
      signed := verified }

/-! ## A concrete instance

One chosen claims value has a content of its own; every other one has its number
in unary. Every HMAC is a zero byte. -/

def signedText (named claims : Claims) : List Char × List Char :=
  if claims = named then ("jwt".toList, "claims".toList)
  else ([], List.replicate (Encodable.encode claims) 'x')

def zeroHmac (_ : SigningMethod) (_ : Key) (_ : String) : List UInt8 := [0]

def segmentedJwt (named : Claims) : Jwt where
  signedString _ claims _ :=
    let text := signedText named claims
    .ok (String.ofList (text.1 ++ '.' :: (text.2 ++ '.' :: Base64.rawURLEncode [0])))
  parseUnverified token :=
    match segments token with
    | none => .error ⟨"token is malformed", []⟩
    | some read =>
        if read.signingString = "jwt.claims" then .ok (.hs256, named)
        else
          match (Encodable.decode (read.signingString.length - 1) : Option Claims) with
          | none => .error ⟨"token is malformed", []⟩
          | some claims => .ok (.hs256, claims)
  verify method key token :=
    (segments token).any fun read => read.signature == zeroHmac method key read.signingString

theorem segments_signed {named claims : Claims} {method : SigningMethod} {key : Key}
    {token : String} (signed : (segmentedJwt named).signedString method claims key = .ok token) :
    segments token = some {
      signingString := String.ofList
        ((signedText named claims).1 ++ '.' :: (signedText named claims).2)
      signature := [0] } := by
  simp only [segmentedJwt, Except.ok.injEq] at signed
  rw [← signed]
  apply segments_join
  · unfold signedText
    split
    · decide
    · exact List.not_mem_nil
  · unfold signedText
    split
    · decide
    · intro listed
      exact absurd (List.eq_of_mem_replicate listed) (by decide)

theorem segmentedJwt_sound (named : Claims) : (segmentedJwt named).Sound where
  signs claims key := ⟨_, rfl⟩
  parses claims key token _ signed := by
    simp only [segmentedJwt, segments_signed signed]
    unfold signedText
    by_cases same : claims = named
    · rw [if_pos same, if_pos (by decide), same]
    · rw [if_neg same, List.nil_append]
      have different : String.ofList ('.' :: List.replicate (Encodable.encode claims) 'x') ≠
          "jwt.claims" := by
        intro equal
        have first : "jwt.claims".toList.head? = some '.' := by
          rw [← equal, String.toList_ofList, List.head?_cons]
        exact absurd first (by decide)
      have length : (String.ofList ('.' :: List.replicate (Encodable.encode claims) 'x')).length -
          1 = Encodable.encode claims := by
        rw [String.length_ofList, List.length_cons, List.length_replicate, Nat.add_sub_cancel]
      rw [if_neg different, length, Encodable.encodek]
  verifies claims key token signed := by
    simp [segmentedJwt, segments_signed signed, zeroHmac]

theorem segmentedJwt_segmented (named : Claims) : (segmentedJwt named).Segmented zeroHmac where
  parses token other read same presented genuine text := by
    simp only [segmentedJwt, presented, genuine, text]
  verifies method key token _ := by
    simp only [segmentedJwt]
    cases segments token with
    | none => simp
    | some read => simp

end Nexus.Auth
