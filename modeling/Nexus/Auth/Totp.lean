import Nexus.Go.Base32
import Nexus.Go.Bytes
import Nexus.Go.Math
import Nexus.Go.Strings
import Nexus.Go.Runtime

/-! Time-based one-time passwords. HMAC-SHA1 is the parameter `hmacSHA1`, from
key and message to 20 bytes. A `Fault` is an error value or a run-time panic;
the decoder's own text in an error, which only reaches the log, is left out. -/

set_option autoImplicit false

namespace Nexus.Auth

open Nexus.Go

inductive Fault where
  | error (text : String)
  | panic
  deriving DecidableEq

def totpTimeStep : UInt64 := 30

def base32Decode (unicode : UnicodeTables) (secret : String) : Option (List UInt8) :=
  let upper := toUpper unicode (trimSpace secret)
  let pad := len upper % 8
  let upper := if pad ≠ 0 then upper ++ String.ofList (List.replicate (8 - pad) '=') else upper
  Base32.decodeString upper

def bigEndian (value : UInt64) : List UInt8 :=
  [(value >>> 56).toUInt8, (value >>> 48).toUInt8, (value >>> 40).toUInt8,
    (value >>> 32).toUInt8, (value >>> 24).toUInt8, (value >>> 16).toUInt8,
    (value >>> 8).toUInt8, value.toUInt8]

def uint32OfBytes (a b c d : UInt8) : UInt32 :=
  (a.toUInt32 <<< 24) ||| (b.toUInt32 <<< 16) ||| (c.toUInt32 <<< 8) ||| d.toUInt32

/-- `fmt.Sprintf("%0*d", digits, value)`. -/
def zeroPadded (digits : Nat) (value : UInt32) : String :=
  let decimal := Nat.toDigits 10 value.toNat
  String.ofList (List.replicate (digits - decimal.length) '0' ++ decimal)

section
variable (hmacSHA1 : List UInt8 → List UInt8 → Vector UInt8 20) (unicode : UnicodeTables)

def hotp (key : List UInt8) (counter : UInt64) (digits : Int) : Except Fault String :=
  let h := (hmacSHA1 key (bigEndian counter)).toList
  let offset := h.getLastD 0 &&& 0x0F
  match slice h offset.toNat (offset + 4).toNat with
  | some [a, b, c, d] =>
      let truncated := uint32OfBytes a b c d &&& 0x7FFFFFFF
      let modulus := uint32OfFloat64 (Math.pow10 digits)
      -- A power below one or beyond int64 converts to zero, and the remainder panics.
      if modulus = 0 then .error .panic
      else .ok (zeroPadded digits.toNat (truncated % modulus))
  | _ => .error .panic

def generateTOTP (secret : String) (at_ : Time) : Except Fault String :=
  match base32Decode unicode secret with
  | none => .error (.error "totp: invalid secret")
  | some key =>
      let counter := (Int64.ofInt (Time.unix at_)).toUInt64 / totpTimeStep
      hotp hmacSHA1 key counter 6

def verifySteps (key : List UInt8) (code : String) (counter : Int64) :
    List Int64 → Except Fault Bool
  | [] => .ok false
  | delta :: deltas =>
      match hotp hmacSHA1 key (counter + delta).toUInt64 6 with
      | .error fault => .error fault
      | .ok expected =>
          if expected = code then .ok true else verifySteps key code counter deltas

def verifyTOTP (secret code : String) (at_ : Time) : Except Fault Bool :=
  match base32Decode unicode secret with
  | none => .error (.error "totp: invalid secret")
  | some key =>
      let counter := Int64.ofInt (Time.unix at_) / 30
      verifySteps hmacSHA1 key code counter [-1, 0, 1]

end

end Nexus.Auth
