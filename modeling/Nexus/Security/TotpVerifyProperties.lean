import Nexus.Auth.TotpProperties
import Nexus.Lib.OneTimeCode
import Nexus.Security.TotpVerify

/-! What the TOTP script accepts: a code of any length that matches the last
digits of a step in the window, so exactly the generated codes among those of
six characters. -/

set_option autoImplicit false

namespace Nexus.Security.TotpVerify

open Nexus.Python Nexus.Lib
open Nexus.Auth (sampleHMAC sampleSecret)

theorem zfill_str (width value : Nat) :
    zfill (str (value % 10 ^ width)) width = String.ofList (OneTimeCode.digits width value) := by
  simp only [zfill, str, String.length_ofList, String.toList_ofList, OneTimeCode.digits]

section
variable (hmacSHA1 : List UInt8 → List UInt8 → Vector UInt8 20) (tables : CaseTables)

/-- A counter that fits eight bytes has the one-time code of its number. -/
theorem hotp_counter (key : List UInt8) {counter : Int} (positive : 0 ≤ counter)
    (fits : counter < 2 ^ 64) (digits : Nat) :
    hotp hmacSHA1 key counter digits =
      .ok (OneTimeCode.code hmacSHA1 key counter.toNat digits) := by
  have masked : ∀ number : Nat, number &&& 0x7FFFFFFF = number % 2 ^ 31 :=
    fun number => Nat.and_two_pow_sub_one_eq_mod number 31
  have four := OneTimeCode.length_selected (hmacSHA1 key (BigEndian.toBytes 8 counter.toNat))
  unfold OneTimeCode.selected at four
  simp only [hotp, packQ, positive, fits, and_self, if_true, unpackI, OneTimeCode.offset_eq, four,
    masked, zfill_str]
  rfl

theorem hotp_outside (key : List UInt8) {counter : Int}
    (outside : ¬(0 ≤ counter ∧ counter < 2 ^ 64)) (digits : Nat) :
    hotp hmacSHA1 key counter digits = .error .structError := by
  simp only [hotp, packQ, if_neg outside]

theorem fdiv_shifted (at_ delta : Int) : (at_ + 30 * delta).fdiv 30 = at_.fdiv 30 + delta := by
  rw [Int.fdiv_eq_ediv_of_nonneg _ (by decide), Int.fdiv_eq_ediv_of_nonneg _ (by decide)]
  omega

theorem generateTotp_shifted {secret : String} {key : List UInt8}
    (decoded : base32Decode tables secret = .ok key) (digits : Nat) (at_ delta : Int) :
    generateTotp hmacSHA1 tables secret 30 digits (at_ + 30 * delta) =
      hotp hmacSHA1 key (at_.fdiv 30 + delta) digits := by
  simp only [generateTotp, decoded, fdiv_shifted]
  rfl

theorem isAscii_code (key : List UInt8) (counter digits : Nat) :
    isAscii (OneTimeCode.code hmacSHA1 key counter digits) = true := by
  simp only [isAscii, OneTimeCode.code, String.toList_ofList, List.all_eq_true, decide_eq_true_eq]
  intro c member
  exact OneTimeCode.ascii_of_mem_digits member

theorem compareDigest_ascii {a b : String} (left : isAscii a = true) (right : isAscii b = true) :
    compareDigest a b = .ok (a == b) := by
  simp only [compareDigest, left, right, Bool.and_self, if_true]

/-- The loop raises nothing while the counters of the window fit. -/
theorem verifyFrom_ok {code : String} (key : List UInt8) {counter delta : Int}
    (ascii : isAscii code = true) (positive : 0 ≤ counter + delta) {left : Nat}
    (fits : counter + delta + left ≤ 2 ^ 64) :
    ∃ accepted, verifyFrom hmacSHA1 key code counter delta left = .ok accepted := by
  induction left generalizing delta with
  | zero => exact ⟨false, rfl⟩
  | succ left ih =>
      have expected := hotp_counter hmacSHA1 key positive (by omega) code.length
      have compared := compareDigest_ascii
        (isAscii_code hmacSHA1 key (counter + delta).toNat code.length) ascii
      obtain ⟨accepted, later⟩ := @ih (delta + 1) (by omega) (by omega)
      simp only [verifyFrom, expected, compared, later]
      cases OneTimeCode.code hmacSHA1 key (counter + delta).toNat code.length == code with
      | true => exact ⟨true, rfl⟩
      | false => exact ⟨accepted, rfl⟩

variable {hmacSHA1 tables}

/-- The loop finds the first matching step. A step whose counter no longer fits
raises, and so would all later ones: nothing is missed. -/
theorem verifyFrom_true_iff {key : List UInt8} {code : String} {counter delta : Int}
    (ascii : isAscii code = true) (positive : 0 ≤ counter + delta) (left : Nat) :
    verifyFrom hmacSHA1 key code counter delta left = .ok true ↔
      ∃ d, delta ≤ d ∧ d < delta + left ∧
        hotp hmacSHA1 key (counter + d) code.length = .ok code := by
  induction left generalizing delta with
  | zero =>
      constructor
      · intro accepted
        cases accepted
      · intro found
        obtain ⟨d, low, high, _⟩ := found
        omega
  | succ left ih =>
      have later := @ih (delta + 1) (by omega)
      by_cases fits : counter + delta < 2 ^ 64
      · have expected := hotp_counter hmacSHA1 key positive fits code.length
        have compared := compareDigest_ascii
          (isAscii_code hmacSHA1 key (counter + delta).toNat code.length) ascii
        by_cases same : OneTimeCode.code hmacSHA1 key (counter + delta).toNat code.length = code
        · have accepted : verifyFrom hmacSHA1 key code counter delta (left + 1) = .ok true := by
            simp only [verifyFrom, expected, compared, beq_iff_eq.mpr same]
          refine ⟨fun _ => ⟨delta, by omega, by omega, ?_⟩, fun _ => accepted⟩
          rw [expected, same]
        · have skipped : verifyFrom hmacSHA1 key code counter delta (left + 1) =
              verifyFrom hmacSHA1 key code counter (delta + 1) left := by
            simp only [verifyFrom, expected, compared, beq_eq_false_iff_ne.mpr same]
          rw [skipped, later]
          constructor
          · intro found
            obtain ⟨d, low, high, matched⟩ := found
            exact ⟨d, by omega, by omega, matched⟩
          · intro found
            obtain ⟨d, low, high, matched⟩ := found
            have other : d ≠ delta := by
              rintro rfl
              rw [expected] at matched
              exact same (Except.ok.inj matched)
            exact ⟨d, by omega, by omega, matched⟩
      · have raised : ∀ d, delta ≤ d →
            hotp hmacSHA1 key (counter + d) code.length = .error .structError :=
          fun d low => hotp_outside hmacSHA1 key (by omega) code.length
        constructor
        · intro accepted
          simp only [verifyFrom, raised delta (Int.le_refl delta)] at accepted
          cases accepted
        · intro found
          obtain ⟨d, low, _, matched⟩ := found
          rw [raised d low] at matched
          cases matched

theorem verifyTotp_eq {secret : String} {key : List UInt8}
    (decoded : base32Decode tables secret = .ok key) (code : String) (window at_ : Int) :
    verifyTotp hmacSHA1 tables secret code 30 window at_ =
      verifyFrom hmacSHA1 key code (at_.fdiv 30) (-window) (2 * window + 1).toNat := by
  simp only [verifyTotp, decoded]
  rfl

/-- Acceptance, whatever the length of the code: the script generates it with
that many digits at a step in the window. -/
theorem verifyTotp_true_iff {secret code : String} {key : List UInt8} {window at_ : Int}
    (decoded : base32Decode tables secret = .ok key) (ascii : isAscii code = true)
    (nonneg : 0 ≤ window) (started : window ≤ at_.fdiv 30) :
    verifyTotp hmacSHA1 tables secret code 30 window at_ = .ok true ↔
      ∃ d, |d| ≤ window ∧
        generateTotp hmacSHA1 tables secret 30 code.length (at_ + 30 * d) = .ok code := by
  rw [verifyTotp_eq decoded, verifyFrom_true_iff ascii (by omega)]
  simp only [generateTotp_shifted hmacSHA1 tables decoded]
  constructor
  · intro found
    obtain ⟨d, low, high, matched⟩ := found
    exact ⟨d, abs_le.mpr ⟨low, by omega⟩, matched⟩
  · intro found
    obtain ⟨d, near, matched⟩ := found
    obtain ⟨low, high⟩ := abs_le.mp near
    exact ⟨d, low, by omega, matched⟩

theorem length_generateTotp {secret code : String} {key : List UInt8} {digits : Nat}
    {at_ delta : Int} (decoded : base32Decode tables secret = .ok key) (positive : 0 < digits)
    (generated : generateTotp hmacSHA1 tables secret 30 digits (at_ + 30 * delta) = .ok code) :
    code.length = digits := by
  rw [generateTotp_shifted hmacSHA1 tables decoded] at generated
  by_cases fits : 0 ≤ at_.fdiv 30 + delta ∧ at_.fdiv 30 + delta < 2 ^ 64
  · rw [hotp_counter hmacSHA1 key fits.1 fits.2] at generated
    cases generated
    exact OneTimeCode.length_code hmacSHA1 key _ positive
  · rw [hotp_outside hmacSHA1 key fits] at generated
    cases generated

/-- A guess at a single digit can succeed: there is an accepted code of every
length from 1 on. -/
theorem short_code_accepted {secret : String} {key : List UInt8} {window at_ : Int}
    (decoded : base32Decode tables secret = .ok key) (nonneg : 0 ≤ window)
    (started : window ≤ at_.fdiv 30) (fits : at_.fdiv 30 < 2 ^ 64) {width : Nat}
    (positive : 0 < width) :
    ∃ code, code.length = width ∧
      verifyTotp hmacSHA1 tables secret code 30 window at_ = .ok true := by
  have generated := generateTotp_shifted hmacSHA1 tables decoded width at_ 0
  rw [Int.add_zero, hotp_counter hmacSHA1 key (by omega) fits] at generated
  have length := OneTimeCode.length_code hmacSHA1 key (at_.fdiv 30).toNat positive
  refine ⟨OneTimeCode.code hmacSHA1 key (at_.fdiv 30).toNat width, length, ?_⟩
  rw [verifyTotp_true_iff decoded (isAscii_code hmacSHA1 key _ width) nonneg started]
  refine ⟨0, by simpa using nonneg, ?_⟩
  rw [length]
  exact generated

/-- Only the generated codes of six digits are accepted, except where the
submitted code has another length and matches the digits of that number. -/
theorem accepts_genuine_iff {secret code : String} {key : List UInt8} {window at_ : Int}
    (decoded : base32Decode tables secret = .ok key) (ascii : isAscii code = true)
    (nonneg : 0 ≤ window) (started : window ≤ at_.fdiv 30) :
    (verifyTotp hmacSHA1 tables secret code 30 window at_ = .ok true ↔
        ∃ d, |d| ≤ window ∧
          generateTotp hmacSHA1 tables secret 30 6 (at_ + 30 * d) = .ok code) ↔
      (code.length = 6 ∨ ∀ d, |d| ≤ window →
        generateTotp hmacSHA1 tables secret 30 code.length (at_ + 30 * d) ≠ .ok code) := by
  rw [verifyTotp_true_iff decoded ascii nonneg started]
  by_cases six : code.length = 6
  · simp only [six, true_or]
  · have never : ¬∃ d, |d| ≤ window ∧
        generateTotp hmacSHA1 tables secret 30 6 (at_ + 30 * d) = .ok code := by
      intro found
      obtain ⟨d, _, generated⟩ := found
      exact six (length_generateTotp decoded (by decide) generated)
    rw [iff_false_right never]
    simp only [six, false_or, not_exists, not_and, ne_eq]

end

theorem one_digit_accepted :
    isAscii "2" = true ∧
      ¬(verifyTotp sampleHMAC ⟨fun c => [c]⟩ sampleSecret "2" 30 1 59 = .ok true ↔
        ∃ d, |d| ≤ 1 ∧
          generateTotp sampleHMAC ⟨fun c => [c]⟩ sampleSecret 30 6 (59 + 30 * d) = .ok "2") := by
  refine ⟨by decide, ?_⟩
  intro genuine
  obtain ⟨d, near, generated⟩ := genuine.mp (by decide)
  obtain rfl | rfl | rfl : d = -1 ∨ d = 0 ∨ d = 1 := by
    rw [abs_le] at near
    omega
  · exact absurd generated (by decide)
  · exact absurd generated (by decide)
  · exact absurd generated (by decide)

theorem accepts_genuine_sample :
    verifyTotp sampleHMAC ⟨fun c => [c]⟩ sampleSecret "287082" 30 1 59 = .ok true ↔
      ∃ d, |d| ≤ 1 ∧
        generateTotp sampleHMAC ⟨fun c => [c]⟩ sampleSecret 30 6 (59 + 30 * d) =
          .ok "287082" :=
  (accepts_genuine_iff (show base32Decode _ _ =
      .ok ("12345678901234567890".toList.map fun c => c.val.toUInt8) by decide)
    (by decide) (by decide) (by decide)).mpr (.inl (by decide))

end Nexus.Security.TotpVerify
