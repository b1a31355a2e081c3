import Nexus.Lib.BigEndian
import Nexus.Python.Strings

/-! `struct` and `base64` of Python, as far as the scripts use them. The two
integer formats are big-endian; `int.to_bytes` is only called on integers that
fit. In `b32decode` a quantum is up to eight characters, `acc` outlives the
loop over them, and `bytes` is a list. -/

set_option autoImplicit false

namespace Nexus.Python

open Nexus.Lib.BigEndian

/-- `struct.pack(">Q", value)`. -/
def packQ (value : Int) : Except Raised (List UInt8) :=
  if 0 ≤ value ∧ value < 2 ^ 64 then .ok (toBytes 8 value.toNat) else .error .structError

/-- `struct.unpack(">I", buffer)[0]`. -/
def unpackI (buffer : List UInt8) : Except Raised Nat :=
  if buffer.length = 4 then .ok (ofBytes buffer) else .error .structError

def b32alphabet : List UInt8 :=
  "ABCDEFGHIJKLMNOPQRSTUVWXYZ234567".toList.map fun c => c.val.toUInt8

def b32rev (c : UInt8) : Option Nat := b32alphabet.idxOf? c

def padChar : UInt8 := 0x3D

/-- `acc = (acc << 5) + b32rev[c]` over one quantum; `none` is the `KeyError`. -/
def accumulate (acc : Nat) : List UInt8 → Option Nat
  | [] => some acc
  | c :: quantum =>
      match b32rev c with
      | none => none
      | some value => accumulate ((acc <<< 5) + value) quantum

/-- `s[i:i + 8] for i in range(0, len(s), 8)`. -/
def quanta (s : List UInt8) : List (List UInt8) :=
  (List.range ((s.length + 7) / 8)).map fun i => (s.drop (8 * i)).take 8

def decodeQuanta (acc : Nat) (decoded : List UInt8) :
    List (List UInt8) → Option (Nat × List UInt8)
  | [] => some (acc, decoded)
  | quantum :: rest =>
      match accumulate 0 quantum with
      | none => none
      | some acc => decodeQuanta acc (decoded ++ toBytes 5 acc) rest

/-- `decoded[-5:] = last[:leftover]`, where characters are missing. -/
def fixLast (padchars acc : Nat) (decoded : List UInt8) : List UInt8 :=
  if padchars ≠ 0 ∧ decoded ≠ [] then
    let last := toBytes 5 (acc <<< (5 * padchars))
    let leftover := (43 - 5 * padchars) / 8
    decoded.take (decoded.length - 5) ++ last.take leftover
  else decoded

def b32decodeBytes (s : List UInt8) : Except Raised (List UInt8) :=
  if s.length % 8 ≠ 0 then .error (.binasciiError "Incorrect padding")
  else
    let stripped := s.rdropWhile (· == padChar)
    let padchars := s.length - stripped.length
    match decodeQuanta 0 [] (quanta stripped) with
    | none => .error (.binasciiError "Non-base32 digit found")
    | some (acc, decoded) =>
        if padchars ∉ [0, 1, 3, 4, 6] then .error (.binasciiError "Incorrect padding")
        else .ok (fixLast padchars acc decoded)

def b32decode (s : String) : Except Raised (List UInt8) :=
  if isAscii s then b32decodeBytes (s.toList.map fun c => c.val.toUInt8)
  else .error (.valueError "string argument should contain only ASCII characters")

example : b32decode "MZXW6YTBOI======" = .ok [0x66, 0x6F, 0x6F, 0x62, 0x61, 0x72] := by
  decide

end Nexus.Python
