import Mathlib.Data.List.Basic

/-! Package `encoding/base32` with the standard alphabet. The encoder writes no
padding; the decoder is `StdEncoding`, which demands it. `readQuantum` is the
inner loop of the decoder, up to eight symbols, and `decodeQuanta` the outer
one. Line breaks are dropped before decoding, and whatever follows a padded
quantum is ignored, as in the source of the package. -/

set_option autoImplicit false

namespace Nexus.Go.Base32

def alphabet : List Char := "ABCDEFGHIJKLMNOPQRSTUVWXYZ234567".toList

def encodeSymbol (value : UInt8) : Char := alphabet.getD value.toNat 'A'

def encodeValues : List UInt8 → List UInt8
  | [] => []
  | [a] => [a >>> 3, (a <<< 2) &&& 0x1F]
  | [a, b] => [a >>> 3, ((a <<< 2) ||| (b >>> 6)) &&& 0x1F, (b >>> 1) &&& 0x1F,
      (b <<< 4) &&& 0x1F]
  | [a, b, c] => [a >>> 3, ((a <<< 2) ||| (b >>> 6)) &&& 0x1F, (b >>> 1) &&& 0x1F,
      ((b <<< 4) ||| (c >>> 4)) &&& 0x1F, (c <<< 1) &&& 0x1F]
  | [a, b, c, d] => [a >>> 3, ((a <<< 2) ||| (b >>> 6)) &&& 0x1F, (b >>> 1) &&& 0x1F,
      ((b <<< 4) ||| (c >>> 4)) &&& 0x1F, ((c <<< 1) ||| (d >>> 7)) &&& 0x1F,
      (d >>> 2) &&& 0x1F, (d <<< 3) &&& 0x1F]
  | a :: b :: c :: d :: e :: rest =>
      [a >>> 3, ((a <<< 2) ||| (b >>> 6)) &&& 0x1F, (b >>> 1) &&& 0x1F,
        ((b <<< 4) ||| (c >>> 4)) &&& 0x1F, ((c <<< 1) ||| (d >>> 7)) &&& 0x1F,
        (d >>> 2) &&& 0x1F, ((d <<< 3) ||| (e >>> 5)) &&& 0x1F, e &&& 0x1F] ++
      encodeValues rest

/-- `StdEncoding.WithPadding(NoPadding).EncodeToString`. -/
def encodeToString (src : List UInt8) : String :=
  String.ofList ((encodeValues src).map encodeSymbol)

def padChar : UInt8 := 0x3D

def decodeMap (symbol : UInt8) : Option UInt8 :=
  if 0x41 ≤ symbol ∧ symbol ≤ 0x5A then some (symbol - 0x41)
  else if 0x32 ≤ symbol ∧ symbol ≤ 0x37 then some (symbol - 0x32 + 26)
  else none

structure Quantum where
  symbols : List UInt8
  rest : List UInt8
  last : Bool

/-- The symbols of one quantum, `symbols` being those read so far. `none` is a
`CorruptInputError`. -/
def readQuantum (symbols : List UInt8) : List UInt8 → Option Quantum
  | [] => if symbols.length = 8 then some ⟨symbols, [], false⟩ else none
  | head :: src =>
      let j := symbols.length
      if j = 8 then some ⟨symbols, head :: src, false⟩
      else if head = padChar ∧ j ≥ 2 ∧ src.length < 8 then
        if src.length + j < 7 then none
        else if (src.take (7 - j)).any (· != padChar) then none
        else if j = 3 ∨ j = 6 then none
        else some ⟨symbols, src, true⟩
      else
        match decodeMap head with
        | none => none
        | some value => readQuantum (symbols ++ [value]) src

def packQuantum : List UInt8 → List UInt8
  | [a, b] => [(a <<< 3) ||| (b >>> 2)]
  | [a, b, c, d] => [(a <<< 3) ||| (b >>> 2), (b <<< 6) ||| (c <<< 1) ||| (d >>> 4)]
  | [a, b, c, d, e] => [(a <<< 3) ||| (b >>> 2), (b <<< 6) ||| (c <<< 1) ||| (d >>> 4),
      (d <<< 4) ||| (e >>> 1)]
  | [a, b, c, d, e, f, g] => [(a <<< 3) ||| (b >>> 2), (b <<< 6) ||| (c <<< 1) ||| (d >>> 4),
      (d <<< 4) ||| (e >>> 1), (e <<< 7) ||| (f <<< 2) ||| (g >>> 3)]
  | [a, b, c, d, e, f, g, h] =>
      [(a <<< 3) ||| (b >>> 2), (b <<< 6) ||| (c <<< 1) ||| (d >>> 4),
        (d <<< 4) ||| (e >>> 1), (e <<< 7) ||| (f <<< 2) ||| (g >>> 3), (g <<< 5) ||| h]
  | _ => []

-- Every quantum consumes a symbol, so the length of the input is enough fuel.
def decodeQuanta : Nat → List UInt8 → Option (List UInt8)
  | _, [] => some []
  | 0, _ :: _ => none
  | fuel + 1, src =>
      match readQuantum [] src with
      | none => none
      | some quantum =>
          if quantum.last then some (packQuantum quantum.symbols)
          else
            match decodeQuanta fuel quantum.rest with
            | none => none
            | some bytes => some (packQuantum quantum.symbols ++ bytes)

def decodeString (s : String) : Option (List UInt8) :=
  let src := s.toUTF8.data.toList.filter fun byte => byte != 0x0D && byte != 0x0A
  decodeQuanta src.length src

example : decodeString "MZXW6YTBOI======" = some [0x66, 0x6F, 0x6F, 0x62, 0x61, 0x72] := by
  decide

end Nexus.Go.Base32
