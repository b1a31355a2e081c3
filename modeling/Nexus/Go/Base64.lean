import Mathlib.Data.Bool.AllAny
import Nexus.Go.Bytes
import Nexus.Lib.Base64

/-! `base64.RawURLEncoding`, which has its own two last symbols and no padding. Its
decoder skips line breaks and is not strict: where the last symbol has bits that
fill up no byte, it ignores them, so that several texts decode to the same bytes. -/

set_option autoImplicit false

namespace Nexus.Go.Base64

def urlAlphabet : List Char :=
  "ABCDEFGHIJKLMNOPQRSTUVWXYZabcdefghijklmnopqrstuvwxyz0123456789-_".toList

def urlSymbol (value : ℕ) : Char := urlAlphabet.getD value 'A'

def rawURLEncode (src : List UInt8) : List Char := (Lib.Base64.values src).map urlSymbol

/-- What holds of every symbol holds of an encoded text. -/
theorem forall_rawURLEncode {holds : Char → Prop} (letters : ∀ c ∈ urlAlphabet, holds c)
    (src : List UInt8) : ∀ c ∈ rawURLEncode src, holds c := by
  intro c listed
  obtain ⟨value, member, rfl⟩ := List.mem_map.mp listed
  have small : value < urlAlphabet.length := Lib.Base64.values_small src value member
  rw [urlSymbol, List.getD_eq_getElem?_getD, List.getElem?_eq_getElem small, Option.getD_some]
  exact letters _ (List.getElem_mem small)

theorem rawURLEncode_ascii (src : List UInt8) : Ascii (rawURLEncode src) :=
  forall_rawURLEncode (List.all_iff_forall_prop.mp (by decide)) src

/-! ## Decoding -/

def urlValue (symbol : Char) : Option ℕ := urlAlphabet.idxOf? symbol

def lineBreaks : List Char := [Char.ofNat 0x0A, Char.ofNat 0x0D]

def rawURLDecode (text : List Char) : Option (List UInt8) :=
  let symbols := text.filter fun c => !lineBreaks.contains c
  if symbols.length % 4 = 1 then none
  else (symbols.mapM urlValue).map Lib.Base64.octets

theorem rawURLDecode_rawURLEncode (src : List UInt8) :
    rawURLDecode (rawURLEncode src) = some src := by
  have clean : ∀ c ∈ rawURLEncode src, (!lineBreaks.contains c) = true :=
    forall_rawURLEncode (List.all_iff_forall_prop.mp (by decide)) src
  have known : ∀ n ∈ Lib.Base64.values src, urlValue (urlSymbol n) = some n := by
    have symbols : ∀ n < 64, urlValue (urlSymbol n) = some n := by decide +kernel
    exact fun n listed => symbols n (Lib.Base64.values_small src n listed)
  have whole : (rawURLEncode src).length % 4 ≠ 1 := by
    rw [rawURLEncode, List.length_map]
    exact Lib.Base64.length_values_mod src
  simp only [rawURLDecode, List.filter_eq_self.mpr clean, if_neg whole]
  rw [rawURLEncode, Lib.Base64.mapM_known known, Option.map_some, Lib.Base64.octets_values]

end Nexus.Go.Base64
