import Nexus.Python.Bytes

/-! The stand-alone TOTP script. HMAC-SHA1 is the parameter `hmacSHA1`. The
timestamp `at` is given, and given in whole seconds; a number of digits is at
least 0, below which `10 ** digits` leaves the integers. -/

set_option autoImplicit false

namespace Nexus.Security.TotpVerify

open Nexus.Python

def base32Decode (tables : CaseTables) (secret : String) : Except Raised (List UInt8) :=
  if secret = "" ∨ strip secret = "" then .error (.valueError "Secret must not be empty")
  else
    let clean := strip (upper tables secret)
    let pad := clean.length % 8
    let clean :=
      if pad ≠ 0 then clean ++ String.ofList (List.replicate (8 - pad) '=') else clean
    b32decode clean

section
variable (hmacSHA1 : List UInt8 → List UInt8 → Vector UInt8 20) (tables : CaseTables)

def hotp (key : List UInt8) (counter : Int) (digits : Nat) : Except Raised String :=
  match packQ counter with
  | .error raised => .error raised
  | .ok counterBytes =>
      let mac := (hmacSHA1 key counterBytes).toList
      let offset := (mac.getLastD 0 &&& 0x0F).toNat
      match unpackI ((mac.drop offset).take 4) with
      | .error raised => .error raised
      | .ok truncated =>
          let truncated := truncated &&& 0x7FFFFFFF
          let modulus := 10 ^ digits
          let otp := truncated % modulus
          .ok (zfill (str otp) digits)

def generateTotp (secret : String) (timeStep : Int) (digits : Nat) (at_ : Int) :
    Except Raised String :=
  if timeStep = 0 then .error .zeroDivisionError
  else
    let counter := at_.fdiv timeStep
    match base32Decode tables secret with
    | .error raised => .error raised
    | .ok key => hotp hmacSHA1 key counter digits

/-- The loop over `range(-window, window + 1)`, from `delta` on, with so many
deltas left. -/
def verifyFrom (key : List UInt8) (code : String) (counter delta : Int) :
    Nat → Except Raised Bool
  | 0 => .ok false
  | left + 1 =>
      match hotp hmacSHA1 key (counter + delta) code.length with
      | .error raised => .error raised
      | .ok expected =>
          match compareDigest expected code with
          | .error raised => .error raised
          | .ok true => .ok true
          | .ok false => verifyFrom key code counter (delta + 1) left

def verifyTotp (secret code : String) (timeStep window at_ : Int) : Except Raised Bool :=
  if timeStep = 0 then .error .zeroDivisionError
  else
    let counter := at_.fdiv timeStep
    match base32Decode tables secret with
    | .error raised => .error raised
    | .ok key => verifyFrom hmacSHA1 key code counter (-window) (2 * window + 1).toNat

end

end Nexus.Security.TotpVerify
