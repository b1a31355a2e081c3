import Nexus.Auth.Totp
import Nexus.Lib.OneTimeCode

/-! One-time codes: `hotp` returns the digits asked for and never panics on up
to nine; the window in which a code is accepted; instants before 1970. -/

set_option autoImplicit false

namespace Nexus.Auth

open Nexus.Go Nexus.Lib

theorem bigEndian_eq (value : UInt64) : bigEndian value = BigEndian.toBytes 8 value.toNat := by
  simp only [bigEndian, BigEndian.toBytes, List.cons.injEq, and_true, ← UInt8.toNat_inj,
    UInt64.toNat_toUInt8, UInt64.toNat_shiftRight, Nat.shiftRight_eq_div_pow, UInt8.toNat_ofNat']
  simp

private theorem shifted_byte (byte : UInt8) {bits : UInt32} (room : bits.toNat ≤ 24) :
    (byte.toUInt32 <<< bits).toNat = byte.toNat * 2 ^ bits.toNat := by
  have small := byte.toNat_lt
  have scaled : byte.toNat * 2 ^ bits.toNat < 2 ^ 8 * 2 ^ 24 :=
    Nat.mul_lt_mul_of_lt_of_le small (Nat.pow_le_pow_right (by decide) room)
      (Nat.pow_pos (by decide))
  rw [UInt32.toNat_shiftLeft, Nat.shiftLeft_eq, UInt8.toNat_toUInt32,
    Nat.mod_eq_of_lt (by omega : bits.toNat < 32)]
  exact Nat.mod_eq_of_lt scaled

theorem uint32OfBytes_toNat (a b c d : UInt8) :
    (uint32OfBytes a b c d).toNat = BigEndian.ofBytes [a, b, c, d] := by
  have first : (a.toUInt32 <<< 24).toNat = a.toNat * 2 ^ 24 := shifted_byte a (by decide)
  have second : (b.toUInt32 <<< 16).toNat = b.toNat * 2 ^ 16 := shifted_byte b (by decide)
  have third : (c.toUInt32 <<< 8).toNat = c.toNat * 2 ^ 8 := shifted_byte c (by decide)
  have small := b.toNat_lt
  have smaller := c.toNat_lt
  have smallest := d.toNat_lt
  simp only [uint32OfBytes, UInt32.toNat_or, first, second, third, UInt8.toNat_toUInt32]
  rw [BigEndian.or_of_disjoint (b.toNat * 2 ^ 16) 24 (by omega) (by omega),
    BigEndian.or_of_disjoint (c.toNat * 2 ^ 8) 16 (by omega) (by omega),
    BigEndian.or_of_disjoint d.toNat 8 (by omega) (by omega)]
  simp only [BigEndian.ofBytes, List.foldl_cons, List.foldl_nil]
  omega

/-- The end of the slice does not wrap around. -/
theorem slice_end (mac : Vector UInt8 20) :
    ((mac.toList.getLastD 0 &&& 0x0F) + 4).toNat = OneTimeCode.offset mac + 4 := by
  have bounded := OneTimeCode.offset_lt mac
  have four : (4 : UInt8).toNat = 4 := rfl
  rw [UInt8.toNat_add, OneTimeCode.offset_eq, four]
  exact Nat.mod_eq_of_lt (by omega)

theorem slice_bounds (mac : Vector UInt8 20) :
    (mac.toList.getLastD 0 &&& 0x0F).toNat ≤ ((mac.toList.getLastD 0 &&& 0x0F) + 4).toNat ∧
      ((mac.toList.getLastD 0 &&& 0x0F) + 4).toNat ≤ mac.toList.length := by
  have bounded := OneTimeCode.offset_lt mac
  rw [slice_end, OneTimeCode.offset_eq, Vector.length_toList]
  omega

theorem slice_selected (mac : Vector UInt8 20) :
    slice mac.toList (mac.toList.getLastD 0 &&& 0x0F).toNat
      ((mac.toList.getLastD 0 &&& 0x0F) + 4).toNat = some (OneTimeCode.selected mac) := by
  rw [slice, if_pos (slice_bounds mac), slice_end, OneTimeCode.offset_eq, Nat.add_sub_cancel_left,
    OneTimeCode.selected]

theorem truncated_toNat {mac : Vector UInt8 20} {a b c d : UInt8}
    (bytes : OneTimeCode.selected mac = [a, b, c, d]) :
    (uint32OfBytes a b c d &&& 0x7FFFFFFF).toNat = OneTimeCode.truncation mac := by
  rw [UInt32.toNat_and, uint32OfBytes_toNat, OneTimeCode.truncation, bytes]
  exact Nat.and_two_pow_sub_one_eq_mod _ 31

/-- Up to nine digits `hotp` computes the code, whatever the authentication code is. -/
theorem hotp_eq_code (hmacSHA1 : List UInt8 → List UInt8 → Vector UInt8 20) (key : List UInt8)
    (counter : UInt64) {digits : Nat} (small : digits ≤ 9) :
    hotp hmacSHA1 key counter digits =
      .ok (OneTimeCode.code hmacSHA1 key counter.toNat digits) := by
  obtain ⟨a, b, c, d, bytes⟩ := List.length_eq_four.mp
    (OneTimeCode.length_selected (hmacSHA1 key (bigEndian counter)))
  have sliced := slice_selected (hmacSHA1 key (bigEndian counter))
  rw [bytes] at sliced
  have reduced : ((uint32OfBytes a b c d &&& 0x7FFFFFFF) %
      uint32OfFloat64 (Math.pow10 digits)).toNat =
      OneTimeCode.truncation (hmacSHA1 key (bigEndian counter)) % 10 ^ digits := by
    rw [UInt32.toNat_mod, truncated_toNat bytes, (uint32OfFloat64_pow10 small).1]
  rw [OneTimeCode.code, ← bigEndian_eq]
  simp only [hotp, sliced, if_neg (uint32OfFloat64_pow10_ne_zero small), zeroPadded, reduced,
    Int.toNat_natCast, OneTimeCode.digits]

theorem hotp_code (hmacSHA1 : List UInt8 → List UInt8 → Vector UInt8 20) (key : List UInt8)
    (counter : UInt64) :
    hotp hmacSHA1 key counter 6 = .ok (OneTimeCode.code hmacSHA1 key counter.toNat 6) :=
  hotp_eq_code hmacSHA1 key counter (by decide : 6 ≤ 9)

/-- Whatever 20 bytes the authentication code has, `hotp` slices it within
bounds, divides by the power of ten itself and returns the digits of the truncation. -/
theorem hotp_well_formed (hmacSHA1 : List UInt8 → List UInt8 → Vector UInt8 20)
    (key : List UInt8) (counter : UInt64) {digits : Nat} (positive : 0 < digits)
    (small : digits ≤ 9) :
    let mac := hmacSHA1 key (bigEndian counter)
    let offset := mac.toList.getLastD 0 &&& 0x0F
    let modulus := uint32OfFloat64 (Math.pow10 digits)
    (offset.toNat ≤ (offset + 4).toNat ∧ (offset + 4).toNat ≤ mac.toList.length) ∧
      (modulus.toNat = 10 ^ digits ∧ modulus.toFloat = Math.pow10 digits ∧ modulus ≠ 0) ∧
      ∃ code, hotp hmacSHA1 key counter digits = .ok code ∧
        OneTimeCode.IsNumeral code digits (OneTimeCode.truncation mac % 10 ^ digits) := by
  intro mac offset modulus
  obtain ⟨power, converted⟩ := uint32OfFloat64_pow10 small
  have nonzero : modulus ≠ 0 := uint32OfFloat64_pow10_ne_zero small
  have numeral := OneTimeCode.isNumeral_code hmacSHA1 key counter.toNat positive
  rw [← bigEndian_eq] at numeral
  exact ⟨slice_bounds mac, ⟨power, converted, nonzero⟩, _,
    hotp_eq_code hmacSHA1 key counter small, numeral⟩

/-- The last offset selects four bytes with the top bit set. -/
def topBitHMAC (_ _ : List UInt8) : Vector UInt8 20 :=
  #v[0, 0, 0, 0, 0, 0, 0, 0, 0, 0, 0, 0, 0, 0, 0, 0x80, 0x00, 0x00, 0x07, 0xBF]

theorem hotp_well_formed_top_bit :
    ∃ code, hotp topBitHMAC [] 0 9 = .ok code ∧ OneTimeCode.IsNumeral code 9 7 := by
  obtain ⟨_, _, code, computed, numeral⟩ :=
    hotp_well_formed topBitHMAC [] 0 (by decide : 0 < 9) (by decide)
  have value : OneTimeCode.truncation (topBitHMAC [] (bigEndian 0)) % 10 ^ 9 = 7 := by decide
  rw [value] at numeral
  exact ⟨code, computed, numeral⟩

theorem hotp_ok (hmacSHA1 : List UInt8 → List UInt8 → Vector UInt8 20) (key : List UInt8)
    (counter : UInt64) :
    ∃ code, hotp hmacSHA1 key counter 6 = .ok code ∧ len code = 6 := by
  refine ⟨_, hotp_code hmacSHA1 key counter, ?_⟩
  rw [OneTimeCode.code, len_ofList, OneTimeCode.length_digits (by decide)]
  intro c member
  exact OneTimeCode.ascii_of_mem_digits member

section
variable {hmacSHA1 : List UInt8 → List UInt8 → Vector UInt8 20} {unicode : UnicodeTables}

theorem verifySteps_true {key : List UInt8} {code : String} {counter : Int64}
    {deltas : List Int64}
    (accepted : verifySteps hmacSHA1 key code counter deltas = .ok true) :
    ∃ delta ∈ deltas, hotp hmacSHA1 key (counter + delta).toUInt64 6 = .ok code := by
  induction deltas with
  | nil => cases accepted
  | cons delta deltas ih =>
      unfold verifySteps at accepted
      cases expected : hotp hmacSHA1 key (counter + delta).toUInt64 6 with
      | error fault =>
          rw [expected] at accepted
          cases accepted
      | ok generated =>
          rw [expected] at accepted
          by_cases same : generated = code
          · exact ⟨delta, List.mem_cons_self, by rw [expected, same]⟩
          · simp only [if_neg same] at accepted
            obtain ⟨later, member, found⟩ := ih accepted
            exact ⟨later, List.mem_cons_of_mem delta member, found⟩

theorem len_of_verifyTOTP {secret code : String} {at_ : Time}
    (accepted : verifyTOTP hmacSHA1 unicode secret code at_ = .ok true) : len code = 6 := by
  unfold verifyTOTP at accepted
  cases decoded : base32Decode unicode secret with
  | none =>
      rw [decoded] at accepted
      cases accepted
  | some key =>
      rw [decoded] at accepted
      obtain ⟨delta, _, generated⟩ := verifySteps_true accepted
      obtain ⟨other, expected, digits⟩ := hotp_ok hmacSHA1 key
        (Int64.ofInt (Time.unix at_) / 30 + delta).toUInt64
      rw [expected] at generated
      cases generated
      exact digits

/-! ## The window -/

theorem verifySteps_true_iff {key : List UInt8} {code : String} {counter : Int64}
    {deltas : List Int64} :
    verifySteps hmacSHA1 key code counter deltas = .ok true ↔
      ∃ delta ∈ deltas, hotp hmacSHA1 key (counter + delta).toUInt64 6 = .ok code := by
  refine ⟨verifySteps_true, ?_⟩
  intro found
  induction deltas with
  | nil =>
      obtain ⟨delta, member, _⟩ := found
      cases member
  | cons delta deltas ih =>
      obtain ⟨expected, generated, _⟩ := hotp_ok hmacSHA1 key (counter + delta).toUInt64
      unfold verifySteps
      rw [generated]
      by_cases same : expected = code
      · simp only [if_pos same]
      · simp only [if_neg same]
        obtain ⟨other, member, matched⟩ := found
        rcases List.mem_cons.mp member with rfl | later
        · rw [generated] at matched
          exact absurd (Except.ok.inj matched) same
        · exact ih ⟨other, later, matched⟩

theorem verifySteps_ok (hmacSHA1 : List UInt8 → List UInt8 → Vector UInt8 20)
    (key : List UInt8) (code : String) (counter : Int64) (deltas : List Int64) :
    ∃ accepted, verifySteps hmacSHA1 key code counter deltas = .ok accepted := by
  induction deltas with
  | nil => exact ⟨false, rfl⟩
  | cons delta deltas ih =>
      obtain ⟨expected, generated, _⟩ := hotp_ok hmacSHA1 key (counter + delta).toUInt64
      obtain ⟨accepted, later⟩ := ih
      unfold verifySteps
      rw [generated]
      by_cases same : expected = code
      · exact ⟨true, if_pos same⟩
      · exact ⟨accepted, (if_neg same).trans later⟩

/-- The time step of an instant from the epoch on. -/
def timeStep (seconds : Int) : UInt64 := UInt64.ofNat (seconds / 30).toNat

theorem toUInt64_ofInt {value : Int} (positive : 0 ≤ value) :
    (Int64.ofInt value).toUInt64 = UInt64.ofNat value.toNat := by
  obtain ⟨number, rfl⟩ := Int.eq_ofNat_of_zero_le positive
  rfl

/-- `GenerateTOTP` divides the unsigned second. -/
theorem generated_step {seconds : Int} (positive : 0 ≤ seconds)
    (fits : seconds ≤ Int64.maxValue.toInt) :
    (Int64.ofInt seconds).toUInt64 / totpTimeStep = timeStep seconds := by
  rw [Int64.toInt_maxValue] at fits
  have small : seconds.toNat < 2 ^ 64 := by omega
  have stepSmall : (seconds / 30).toNat < 2 ^ 64 := by omega
  rw [toUInt64_ofInt positive, timeStep]
  apply UInt64.toNat_inj.mp
  rw [UInt64.toNat_div, UInt64.toNat_ofNat_of_lt' small, UInt64.toNat_ofNat_of_lt' stepSmall]
  change seconds.toNat / 30 = (seconds / 30).toNat
  omega

/-- `VerifyTOTP` divides the signed second and then adds the delta. -/
theorem verified_step {seconds : Int} (delta : Int) (positive : 0 ≤ seconds + 30 * delta)
    (earlier : 0 ≤ seconds) (fits : seconds ≤ Int64.maxValue.toInt) :
    (Int64.ofInt seconds / 30 + Int64.ofInt delta).toUInt64 =
      timeStep (seconds + 30 * delta) := by
  have low : Int64.minValue.toInt ≤ seconds := by
    rw [Int64.toInt_minValue]
    omega
  have divided : Int64.ofInt (seconds.tdiv 30) = Int64.ofInt seconds / Int64.ofInt 30 :=
    Int64.ofInt_tdiv low fits (by decide) (by decide)
  have moved : seconds / 30 + delta = (seconds + 30 * delta) / 30 := by omega
  change (Int64.ofInt seconds / Int64.ofInt 30 + Int64.ofInt delta).toUInt64 = _
  rw [← divided, Int.tdiv_eq_ediv_of_nonneg earlier, ← Int64.ofInt_add, moved,
    toUInt64_ofInt (by omega), timeStep]

theorem generateTOTP_eq (hmacSHA1 : List UInt8 → List UInt8 → Vector UInt8 20)
    {secret : String} {key : List UInt8} {at_ : Time}
    (decoded : base32Decode unicode secret = some key) (positive : 0 ≤ Time.unix at_)
    (fits : Time.unix at_ ≤ Int64.maxValue.toInt) :
    generateTOTP hmacSHA1 unicode secret at_ =
      hotp hmacSHA1 key (timeStep (Time.unix at_)) 6 := by
  simp only [generateTOTP, decoded, generated_step positive fits]

theorem unix_add_seconds (at_ : Time) (seconds : Int) :
    Time.unix (at_ + seconds * second) = Time.unix at_ + seconds :=
  Int.add_mul_ediv_right at_ seconds (by decide)

/-- Generating at a shifted instant takes the step verification reaches by its
delta. -/
theorem generateTOTP_shifted (hmacSHA1 : List UInt8 → List UInt8 → Vector UInt8 20)
    {secret : String} {key : List UInt8} (at_ : Time)
    (decoded : base32Decode unicode secret = some key) (delta : Int)
    (earlier : 0 ≤ Time.unix at_) (positive : 0 ≤ Time.unix at_ + 30 * delta)
    (fits : Time.unix at_ ≤ Int64.maxValue.toInt)
    (shiftFits : Time.unix at_ + 30 * delta ≤ Int64.maxValue.toInt) :
    generateTOTP hmacSHA1 unicode secret (at_ + 30 * delta * second) =
      hotp hmacSHA1 key (Int64.ofInt (Time.unix at_) / 30 + Int64.ofInt delta).toUInt64 6 := by
  have shifted := unix_add_seconds at_ (30 * delta)
  rw [verified_step delta positive earlier fits, ← shifted]
  rw [← shifted] at positive shiftFits
  exact generateTOTP_eq hmacSHA1 decoded positive shiftFits

/-- The acceptance window is exact: a code is accepted if and only if it is the
code of one step earlier, of now or of one step later, and verification fails
just as generation does. -/
theorem verifyTOTP_iff (hmacSHA1 : List UInt8 → List UInt8 → Vector UInt8 20)
    (unicode : UnicodeTables) (secret code : String) (at_ : Time)
    (start : 30 ≤ Time.unix at_) (fits : Time.unix at_ + 30 ≤ Int64.maxValue.toInt) :
    (verifyTOTP hmacSHA1 unicode secret code at_ = .ok true ↔
        ∃ shift ∈ [-30, 0, 30],
          generateTOTP hmacSHA1 unicode secret (at_ + shift * second) = .ok code) ∧
      ∀ fault, verifyTOTP hmacSHA1 unicode secret code at_ = .error fault ↔
        generateTOTP hmacSHA1 unicode secret at_ = .error fault := by
  cases decoded : base32Decode unicode secret with
  | none => simp [verifyTOTP, generateTOTP, decoded]
  | some key =>
      have unfolded : verifyTOTP hmacSHA1 unicode secret code at_ = verifySteps hmacSHA1 key code
          (Int64.ofInt (Time.unix at_) / 30) [Int64.ofInt (-1), Int64.ofInt 0, Int64.ofInt 1] := by
        simp only [verifyTOTP, decoded]
        rfl
      have previous := generateTOTP_shifted hmacSHA1 at_ decoded (-1) (by omega) (by omega)
        (by omega) (by omega)
      have current := generateTOTP_shifted hmacSHA1 at_ decoded 0 (by omega) (by omega)
        (by omega) (by omega)
      have next := generateTOTP_shifted hmacSHA1 at_ decoded 1 (by omega) (by omega)
        (by omega) (by omega)
      have now := generateTOTP_eq hmacSHA1 decoded (by omega : 0 ≤ Time.unix at_)
        (by omega)
      rw [unfolded, now]
      refine ⟨?_, ?_⟩
      · rw [verifySteps_true_iff]
        simp only [List.mem_cons, List.not_mem_nil, or_false, exists_eq_or_imp,
          exists_eq_left]
        rw [← previous, ← current, ← next]
        rfl
      · intro fault
        obtain ⟨accepted, verified⟩ := verifySteps_ok hmacSHA1 key code
          (Int64.ofInt (Time.unix at_) / 30) [Int64.ofInt (-1), Int64.ofInt 0, Int64.ofInt 1]
        obtain ⟨expected, generated, _⟩ := hotp_ok hmacSHA1 key (timeStep (Time.unix at_))
        rw [verified, generated]
        simp only [reduceCtorEq]

end

/-- HMAC-SHA1 under the key "12345678901234567890", for the counters 0 to 2 and 2 ^ 64 - 1. -/
def sampleHMAC (_ message : List UInt8) : Vector UInt8 20 :=
  match message.getLastD 0 with
  | 0 => #v[0xCC, 0x93, 0xCF, 0x18, 0x50, 0x8D, 0x94, 0x93, 0x4C, 0x64, 0xB6, 0x5D,
        0x8B, 0xA7, 0x66, 0x7F, 0xB7, 0xCD, 0xE4, 0xB0]
  | 1 => #v[0x75, 0xA4, 0x8A, 0x19, 0xD4, 0xCB, 0xE1, 0x00, 0x64, 0x4E, 0x8A, 0xC1,
        0x39, 0x7E, 0xEA, 0x74, 0x7A, 0x2D, 0x33, 0xAB]
  | 0xFF => #v[0xF6, 0x16, 0xFD, 0x66, 0xB7, 0xF0, 0x62, 0x90, 0x68, 0x6B, 0x63, 0x20,
        0xCE, 0xB3, 0x4D, 0x65, 0xB1, 0xFE, 0x93, 0xEA]
  | _ => #v[0x0B, 0xAC, 0xB7, 0xFA, 0x08, 0x2F, 0xEF, 0x30, 0x78, 0x22, 0x11, 0x93,
        0x8B, 0xC1, 0xC5, 0xE7, 0x04, 0x16, 0xFF, 0x44]

def sampleSecret : String := "GEZDGNBVGY3TQOJQGEZDGNBVGY3TQOJQ"

theorem verifyTOTP_sample :
    verifyTOTP sampleHMAC ⟨id, id⟩ sampleSecret "287082" (59 * second) = .ok true :=
  (verifyTOTP_iff sampleHMAC ⟨id, id⟩ sampleSecret "287082" (59 * second) (by decide)
    (by decide)).1.mpr ⟨0, by decide, by decide⟩

/-! ## Instants before 1970 -/

theorem toUInt64_ofInt_toNat (value : Int) :
    (Int64.ofInt value).toUInt64.toNat = (value % 2 ^ 64).toNat :=
  BitVec.toNat_ofInt value

/-- The first of the bytes that are authenticated. -/
theorem bigEndian_head (counter : UInt64) :
    ((bigEndian counter).headD 0).toNat = counter.toNat / 2 ^ 56 := by
  have bounded := counter.toNat_lt
  simp only [bigEndian, List.headD_cons, UInt64.toNat_toUInt8, UInt64.toNat_shiftRight,
    Nat.shiftRight_eq_div_pow]
  exact Nat.mod_eq_of_lt (by simp; omega)

/-- The counters between 2 ^ 58 and 9 * 2 ^ 56. -/
def InBand (counter : UInt64) : Prop :=
  4 ≤ counter.toNat / 2 ^ 56 ∧ counter.toNat / 2 ^ 56 ≤ 8

/-- An authentication code that tells the counters of the band from all others. -/
def splittingHMAC (_ message : List UInt8) : Vector UInt8 20 :=
  if 4 ≤ (message.headD 0).toNat ∧ (message.headD 0).toNat ≤ 8 then Vector.replicate 20 0
  else #v[0, 0, 0, 1, 0, 0, 0, 0, 0, 0, 0, 0, 0, 0, 0, 0, 0, 0, 0, 0]

theorem hotp_congr {hmacSHA1 : List UInt8 → List UInt8 → Vector UInt8 20} {key : List UInt8}
    {counter : UInt64} {mac : Vector UInt8 20} (same : hmacSHA1 key (bigEndian counter) = mac)
    (digits : Int) : hotp hmacSHA1 key counter digits = hotp (fun _ _ => mac) [] 0 digits := by
  simp only [hotp, same]

theorem hotp_splitting_inside {key : List UInt8} {counter : UInt64}
    (inside : InBand counter) :
    hotp splittingHMAC key counter 6 = .ok "000000" := by
  have mac : splittingHMAC key (bigEndian counter) = Vector.replicate 20 0 := by
    rw [splittingHMAC, bigEndian_head]
    exact if_pos inside
  rw [hotp_congr mac]
  decide

theorem hotp_splitting_outside {key : List UInt8} {counter : UInt64}
    (outside : ¬InBand counter) :
    hotp splittingHMAC key counter 6 = .ok "000001" := by
  have mac : splittingHMAC key (bigEndian counter) =
      #v[0, 0, 0, 1, 0, 0, 0, 0, 0, 0, 0, 0, 0, 0, 0, 0, 0, 0, 0, 0] := by
    rw [splittingHMAC, bigEndian_head]
    exact if_neg outside
  rw [hotp_congr mac]
  decide

/-- Before 1970 the generator divides a number near 2 ^ 64. -/
theorem generated_before_epoch {seconds : Int} (early : Int64.minValue.toInt ≤ seconds)
    (negative : seconds < 0) :
    InBand ((Int64.ofInt seconds).toUInt64 / totpTimeStep) := by
  rw [Int64.toInt_minValue] at early
  have step : totpTimeStep.toNat = 30 := rfl
  rw [InBand, UInt64.toNat_div, toUInt64_ofInt_toNat, step]
  omega

/-- The verifier divides the negative second. -/
theorem verified_before_epoch {seconds : Int} (early : Int64.minValue.toInt ≤ seconds)
    (negative : seconds < 0) {delta : Int} (low : -1 ≤ delta) (high : delta ≤ 1) :
    ¬InBand (Int64.ofInt seconds / 30 + Int64.ofInt delta).toUInt64 := by
  have fits : seconds ≤ Int64.maxValue.toInt := by
    rw [Int64.toInt_maxValue]
    omega
  have divided : Int64.ofInt (seconds.tdiv 30) = Int64.ofInt seconds / Int64.ofInt 30 :=
    Int64.ofInt_tdiv early fits (by decide) (by decide)
  have thirty : (30 : Int64) = Int64.ofInt 30 := rfl
  rw [Int64.toInt_minValue] at early
  rw [InBand, thirty, ← divided, ← Int64.ofInt_add, toUInt64_ofInt_toNat]
  have truncated : seconds.tdiv 30 = -((-seconds) / 30) := by
    rw [← Int.neg_neg seconds, Int.neg_tdiv, Int.tdiv_eq_ediv_of_nonneg (by omega), Int.neg_neg]
  rw [truncated]
  omega

/-- A code verifies at the instant it was generated for, whatever the function
used as HMAC-SHA1, exactly from 1970 on. -/
theorem fresh_code_iff {unicode : UnicodeTables} {secret : String} {key : List UInt8}
    (decoded : base32Decode unicode secret = some key) {at_ : Time}
    (early : Int64.minValue.toInt ≤ Time.unix at_) (late : Time.unix at_ ≤ Int64.maxValue.toInt) :
    (∀ hmacSHA1, ∃ code, generateTOTP hmacSHA1 unicode secret at_ = .ok code ∧
        verifyTOTP hmacSHA1 unicode secret code at_ = .ok true) ↔ 0 ≤ Time.unix at_ := by
  constructor
  · intro fresh
    by_contra! negative
    obtain ⟨code, generated, verified⟩ := fresh splittingHMAC
    simp only [generateTOTP, decoded] at generated
    simp only [verifyTOTP, decoded] at verified
    rw [hotp_splitting_inside (generated_before_epoch early negative)] at generated
    obtain ⟨delta, member, matched⟩ := verifySteps_true verified
    have stepped : ∃ step : Int, Int64.ofInt step = delta ∧ -1 ≤ step ∧ step ≤ 1 := by
      simp only [List.mem_cons, List.not_mem_nil, or_false] at member
      rcases member with rfl | rfl | rfl
      · exact ⟨-1, rfl, by decide, by decide⟩
      · exact ⟨0, rfl, by decide, by decide⟩
      · exact ⟨1, rfl, by decide, by decide⟩
    obtain ⟨step, rfl, low, high⟩ := stepped
    rw [hotp_splitting_outside (verified_before_epoch early negative low high)] at matched
    exact absurd (generated.trans matched.symm) (by decide)
  · intro positive hmacSHA1
    obtain ⟨code, hashed, _⟩ := hotp_ok hmacSHA1 key (timeStep (Time.unix at_))
    refine ⟨code, (generateTOTP_eq hmacSHA1 decoded positive late).trans hashed, ?_⟩
    simp only [verifyTOTP, decoded]
    have current := verified_step 0 (by omega) positive late
    rw [Int.mul_zero, Int.add_zero] at current
    refine verifySteps_true_iff.mpr ⟨0, by simp, ?_⟩
    exact (congrArg (hotp hmacSHA1 key · 6) current).trans hashed

theorem fresh_code_sample :
    ∃ code, generateTOTP sampleHMAC ⟨id, id⟩ sampleSecret (59 * second) = .ok code ∧
      verifyTOTP sampleHMAC ⟨id, id⟩ sampleSecret code (59 * second) = .ok true :=
  (fresh_code_iff (show base32Decode ⟨id, id⟩ sampleSecret = some (bytes "12345678901234567890")
    by decide) (by decide) (by decide)).mpr (by decide) sampleHMAC

def zeroTime : Time := -62135596800 * second

theorem fresh_code_zero_time :
    ¬ ∀ (hmacSHA1 : List UInt8 → List UInt8 → Vector UInt8 20) (at_ : Time),
      Int64.minValue.toInt ≤ Time.unix at_ → Time.unix at_ ≤ Int64.maxValue.toInt →
      ∃ code, generateTOTP hmacSHA1 ⟨id, id⟩ sampleSecret at_ = .ok code ∧
        verifyTOTP hmacSHA1 ⟨id, id⟩ sampleSecret code at_ = .ok true := by
  intro always
  obtain ⟨code, generated, verified⟩ := always splittingHMAC zeroTime (by decide) (by decide)
  have fresh : generateTOTP splittingHMAC ⟨id, id⟩ sampleSecret zeroTime = .ok "000000" := by
    decide
  rw [fresh] at generated
  cases generated
  exact absurd verified (by decide)

end Nexus.Auth
