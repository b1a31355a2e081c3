import Nexus.Auth.Handler
import Nexus.Auth.Totp

/-! HTTP handlers for MFA enrolment and verification. -/

set_option autoImplicit false

namespace Nexus.Auth

open Nexus.Go Nexus.Server Nexus.Audit

variable {σ : Type} [UserStore σ] (p : Platform)

structure MFAVerifyRequest where
  code : String

def Handler.mfaVerify (body : Option MFAVerifyRequest) : HandlerFunc σ :=
  fun env r ctx w =>
    match ctx with
    | none => (w, respond (writeError 401 "unauthorized"))
    | some claims =>
        match body with
        | none => (w, respond (writeError 400 "invalid JSON body"))
        | some req =>
            if len req.code ≠ 6 then
              (w, respond (writeError 400 "MFA code must be 6 digits"))
            else
              match getUserByID w.store claims.userID with
              | .error _ => (w, respond (writeError 404 "user not found"))
              | .ok u =>
                  if !u.mfaEnabled || u.mfaSecret == "" then
                    (w, respond (writeError 400 "MFA is not enabled for this user"))
                  else
                    match verifyTOTP p.hmacSHA1 p.unicode u.mfaSecret req.code env.now with
                    | .error .panic => (w, panicked)
                    | .error (.error _) =>
                        (w, respond (writeError 500 "MFA verification error"))
                    | .ok false =>
                        (w.log env {
                          userID := u.id
                          action := actionMFAFailed
                          ipAddress := r.remoteAddr
                          userAgent := r.userAgent },
                          respond (writeError 401 errInvalidMFACode.text))
                    | .ok true =>
                        (w.log env {
                          userID := u.id
                          action := actionMFASuccess
                          ipAddress := r.remoteAddr
                          userAgent := r.userAgent },
                          respond (writeJSON 200 (.obj
                            [("message", .str "MFA verified successfully"),
                              ("mfa_verified", .bool true), ("user_id", .str u.id)])))

/-- 20 random bytes in Base32; `none` is a failure of the random source. -/
def generateMFASecret (env : Env) : Option String :=
  match env.randRead 20 with
  | none => none
  | some bytes => some (Base32.encodeToString bytes.toList)

def totpURI (username secret : String) : String :=
  s!"otpauth://totp/NEXUS:{username}?secret={secret}" ++
    "&issuer=NEXUS&algorithm=SHA1&digits=6&period=30"

def Handler.mfaSetup : HandlerFunc σ :=
  fun env _ ctx w =>
    match ctx with
    | none => (w, respond (writeError 401 "unauthorized"))
    | some claims =>
        match generateMFASecret env with
        | none => (w, respond (writeError 500 "failed to generate MFA secret"))
        | some secret =>
            (w, respond (writeJSON 200 (.obj
              [("message",
                  .str "Scan the QR code or enter the secret into your authenticator app"),
                ("secret", .str secret),
                ("totp_uri", .str (totpURI claims.username secret))])))

end Nexus.Auth
