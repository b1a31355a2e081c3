import Nexus.Auth.TotpProperties
import Nexus.Go.Base32Properties
import Nexus.Python.Base32Properties
import Nexus.Security.TotpVerifyProperties

/-! The server and the script implement the same one-time passwords: they read
a printable secret alike, generate the same codes and, from the second time
step on, accept the same ones. -/

set_option autoImplicit false

namespace Nexus.Security

open Nexus.Go Nexus.Lib
open Nexus.Auth (generateTOTP verifyTOTP timeStep sampleHMAC sampleSecret)
open Nexus.Python (Raised CaseTables)
open TotpVerify (generateTotp verifyTotp)

def Printable (cs : List Char) : Prop := ∀ c ∈ cs, 0x20 ≤ c.toNat ∧ c.toNat ≤ 0x7E

instance (cs : List Char) : Decidable (Printable cs) :=
  decidable_of_iff (cs.all fun c => 0x20 ≤ c.toNat && c.toNat ≤ 0x7E) (by simp [Printable])

theorem Printable.ascii {cs : List Char} (printable : Printable cs) : Ascii cs := by
  intro c member
  have bounds := printable c member
  omega

/-! ## Reading a secret -/

def trimmed (cs : List Char) : List Char :=
  (cs.dropWhile (· == ' ')).rdropWhile (· == ' ')

/-- A secret without the spaces around it, in upper case. -/
def clean (cs : List Char) : List Char := (trimmed cs).map Char.toUpper

theorem dropWhile_congr {p q : Char → Bool} {cs : List Char} (agree : ∀ c ∈ cs, p c = q c) :
    cs.dropWhile p = cs.dropWhile q := by
  induction cs with
  | nil => rfl
  | cons c cs ih =>
      have rest := ih fun other member => agree other (List.mem_cons_of_mem c member)
      simp only [List.dropWhile_cons, agree c List.mem_cons_self, rest]

theorem trim_congr {p q : Char → Bool} {cs : List Char} (agree : ∀ c ∈ cs, p c = q c) :
    (cs.dropWhile p).rdropWhile p = (cs.dropWhile q).rdropWhile q := by
  rw [dropWhile_congr agree, List.rdropWhile, List.rdropWhile, dropWhile_congr]
  intro c member
  exact agree c ((List.dropWhile_sublist q).mem (List.mem_reverse.mp member))

theorem trim_map {p : Char → Bool} {f : Char → Char} (cs : List Char) :
    ((cs.map f).dropWhile p).rdropWhile p =
      ((cs.dropWhile (p ∘ f)).rdropWhile (p ∘ f)).map f := by
  simp only [List.rdropWhile, List.dropWhile_map, ← List.map_reverse]

theorem trim_subset (p : Char → Bool) (cs : List Char) :
    (cs.dropWhile p).rdropWhile p ⊆ cs := by
  intro c member
  have front := List.rdropWhile_prefix p (l := cs.dropWhile p)
  exact (List.dropWhile_sublist p).mem (front.subset member)

theorem forall_printable (fact : Char → Prop)
    (checked : ∀ n < 0x7F, 0x20 ≤ n → fact (Char.ofNat n)) {c : Char}
    (printable : 0x20 ≤ c.toNat ∧ c.toNat ≤ 0x7E) : fact c := by
  have listed := checked c.toNat (by omega) printable.1
  rwa [Char.ofNat_toNat] at listed

section
variable {c : Char} (printable : 0x20 ≤ c.toNat ∧ c.toNat ≤ 0x7E)
include printable

theorem go_isSpace_printable : Go.isSpace c = (c == ' ') :=
  forall_printable (fun c => Go.isSpace c = (c == ' ')) (by decide) printable

theorem python_isSpace_printable : Python.isSpace c = (c == ' ') :=
  forall_printable (fun c => Python.isSpace c = (c == ' ')) (by decide) printable

theorem python_isSpace_toUpper : Python.isSpace c.toUpper = (c == ' ') :=
  forall_printable (fun c => Python.isSpace c.toUpper = (c == ' ')) (by decide) printable

theorem toUpper_printable : 0x20 ≤ c.toUpper.toNat ∧ c.toUpper.toNat ≤ 0x7E :=
  forall_printable (fun c => 0x20 ≤ c.toUpper.toNat ∧ c.toUpper.toNat ≤ 0x7E) (by decide) printable

end

theorem clean_printable {cs : List Char} (printable : Printable cs) : Printable (clean cs) := by
  intro c member
  obtain ⟨original, kept, rfl⟩ := List.mem_map.mp member
  exact toUpper_printable (printable original (trim_subset _ cs kept))

theorem trimmed_ne_nil {cs : List Char} {c : Char} (member : c ∈ cs) (visible : c ≠ ' ') :
    trimmed cs ≠ [] := by
  intro empty
  rw [trimmed, List.rdropWhile_eq_nil_iff] at empty
  rw [← List.takeWhile_append_dropWhile (p := (· == ' ')) (l := cs)] at member
  rcases List.mem_append.mp member with front | rest
  · exact visible (by simpa using List.mem_takeWhile_imp front)
  · exact visible (by simpa using empty c rest)

section
variable {secret : String}

theorem toUpper_trimSpace (unicode : UnicodeTables) (printable : Printable secret.toList) :
    toUpper unicode (trimSpace secret) = String.ofList (clean secret.toList) := by
  have spaces : (trimSpace secret).toList = trimmed secret.toList := by
    rw [toList_trimSpace]
    exact trim_congr fun c member => go_isSpace_printable (printable c member)
  have ascii : ∀ c ∈ (trimSpace secret).toList, c.toNat < 0x80 := by
    intro c member
    rw [spaces] at member
    exact printable.ascii c (trim_subset _ _ member)
  apply String.toList_inj.mp
  rw [toList_toUpper unicode ascii, spaces, String.toList_ofList, clean]

theorem strip_visible (printable : Printable secret.toList) {c : Char}
    (member : c ∈ secret.toList) (visible : c ≠ ' ') : Python.strip secret ≠ "" := by
  have spaces : Python.strip secret = String.ofList (trimmed secret.toList) := by
    rw [Python.strip]
    congr 1
    exact trim_congr fun c member => python_isSpace_printable (printable c member)
  rw [spaces]
  intro empty
  have nothing := congrArg String.toList empty
  rw [String.toList_ofList] at nothing
  exact trimmed_ne_nil member visible nothing

theorem strip_upper (tables : CaseTables) (printable : Printable secret.toList) :
    Python.strip (Python.upper tables secret) = String.ofList (clean secret.toList) := by
  have raised : (Python.upper tables secret).toList = secret.toList.map Char.toUpper := by
    rw [Python.upper, String.toList_ofList, List.map_eq_flatMap]
    exact List.flatMap_congr fun c member => if_pos (printable.ascii c member)
  have spaces : (secret.toList.dropWhile (Python.isSpace ∘ Char.toUpper)).rdropWhile
      (Python.isSpace ∘ Char.toUpper) = trimmed secret.toList :=
    trim_congr fun c member => python_isSpace_toUpper (printable c member)
  rw [Python.strip, raised, trim_map, spaces, clean]

/-- The text with padding up to a multiple of eight characters. -/
def padded (cs : List Char) : List Char :=
  let pad := cs.length % 8
  if pad ≠ 0 then cs ++ List.replicate (8 - pad) '=' else cs

theorem padded_whole (cs : List Char) : 8 ∣ (padded cs).length := by
  unfold padded
  by_cases ragged : cs.length % 8 ≠ 0
  · simp only [if_pos ragged, List.length_append, List.length_replicate]
    omega
  · simp only [if_neg ragged]
    omega

theorem padded_printable {cs : List Char} (printable : Printable cs) : Printable (padded cs) := by
  intro c member
  unfold padded at member
  by_cases ragged : cs.length % 8 ≠ 0
  · simp only [if_pos ragged] at member
    rcases List.mem_append.mp member with original | padding
    · exact printable c original
    · rw [List.eq_of_mem_replicate padding]
      decide
  · simp only [if_neg ragged] at member
    exact printable c member

theorem padded_ne_nil {cs : List Char} (started : cs ≠ []) : padded cs ≠ [] := by
  unfold padded
  by_cases ragged : cs.length % 8 ≠ 0
  · simp only [if_pos ragged]
    exact List.append_ne_nil_of_left_ne_nil started _
  · simp only [if_neg ragged]
    exact started

theorem ofList_padded (cs : List Char) :
    (if cs.length % 8 ≠ 0 then
        String.ofList cs ++ String.ofList (List.replicate (8 - cs.length % 8) '=')
      else String.ofList cs) = String.ofList (padded cs) := by
  unfold padded
  by_cases ragged : cs.length % 8 ≠ 0
  · simp only [if_pos ragged, String.ofList_append]
  · simp only [if_neg ragged]

theorem decodeString_printable {cs : List Char} (printable : Printable cs) :
    Go.Base32.decodeString (String.ofList cs) =
      Go.Base32.decodeQuanta (cs.map asciiByte).length (cs.map asciiByte) := by
  have src : (String.ofList cs).toUTF8.data.toList = cs.map asciiByte :=
    bytes_ofList printable.ascii
  have kept : (cs.map asciiByte).filter (fun byte => byte != 0x0D && byte != 0x0A) =
      cs.map asciiByte := by
    rw [List.filter_eq_self]
    intro byte member
    obtain ⟨c, listed, rfl⟩ := List.mem_map.mp member
    have low := (printable c listed).1
    have ascii := printable.ascii c listed
    have value : (asciiByte c).toNat = c.toNat := by
      rw [asciiByte, UInt32.toNat_toUInt8]
      exact Nat.mod_eq_of_lt (by omega : c.toNat < 2 ^ 8)
    simp only [Bool.and_eq_true, bne_iff_ne, ne_eq, ← UInt8.toNat_inj, value]
    exact ⟨by simp; omega, by simp; omega⟩
  rw [Go.Base32.decodeString, src, kept]

theorem b32decode_printable {cs : List Char} (printable : Printable cs) :
    Python.b32decode (String.ofList cs) = Python.b32decodeBytes (cs.map asciiByte) := by
  have ascii : Python.isAscii (String.ofList cs) = true := by
    simp only [Python.isAscii, String.toList_ofList, List.all_eq_true, decide_eq_true_eq]
    exact printable.ascii
  rw [Python.b32decode, if_pos ascii, String.toList_ofList]
  rfl

theorem symbolValue_eq : Go.Base32.symbolValue = Python.b32rev := by
  funext symbol
  revert symbol
  exact BigEndian.forall_byte (by decide +kernel)

/-- Both decoders read the same text, in which they find the same base32. -/
theorem base32Decode_agree (unicode : UnicodeTables) (tables : CaseTables)
    (printable : Printable secret.toList) {c : Char} (member : c ∈ secret.toList)
    (visible : c ≠ ' ') (key : List UInt8) :
    Auth.base32Decode unicode secret = some key ↔
      TotpVerify.base32Decode tables secret = .ok key := by
  have cleaned := clean_printable printable
  have text := padded_printable cleaned
  have started : (padded (clean secret.toList)).map asciiByte ≠ [] := by
    rw [ne_eq, List.map_eq_nil_iff]
    exact padded_ne_nil (mt List.map_eq_nil_iff.mp (trimmed_ne_nil member visible))
  have whole : 8 ∣ ((padded (clean secret.toList)).map asciiByte).length := by
    rw [List.length_map]
    exact padded_whole _
  have server : Auth.base32Decode unicode secret =
      Go.Base32.decodeString (String.ofList (padded (clean secret.toList))) := by
    simp only [Auth.base32Decode, toUpper_trimSpace unicode printable, len_ofList cleaned.ascii,
      ofList_padded]
  have script : TotpVerify.base32Decode tables secret =
      Python.b32decode (String.ofList (padded (clean secret.toList))) := by
    have shown : ¬(secret = "" ∨ Python.strip secret = "") := by
      rintro (rfl | blank)
      · cases member
      · exact strip_visible printable member visible blank
    simp only [TotpVerify.base32Decode, if_neg shown, strip_upper tables printable,
      String.length_ofList, ofList_padded]
  rw [server, script, decodeString_printable text, b32decode_printable text,
    Go.Base32.decodeQuanta_iff started whole, Python.b32decodeBytes_iff started, Go.Base32.Decoded,
    symbolValue_eq]
  rfl

end

/-! ## Codes -/

theorem timeStep_toNat {seconds : Int} (fits : seconds < 2 ^ 63) :
    (timeStep seconds).toNat = (seconds.fdiv 30).toNat := by
  rw [timeStep, UInt64.toNat_ofNat', Int.fdiv_eq_ediv_of_nonneg _ (by decide)]
  exact Nat.mod_eq_of_lt (by omega)

section
variable (hmacSHA1 : List UInt8 → List UInt8 → Vector UInt8 20)
variable (unicode : UnicodeTables) (tables : CaseTables)

/-- Both generators refuse a printable secret, or both return the same code of
six digits. -/
theorem generators_agree {secret : String} (printable : Printable secret.toList) {c : Char}
    (member : c ∈ secret.toList) (visible : c ≠ ' ') (at_ : Time)
    (positive : 0 ≤ Time.unix at_) (fits : Time.unix at_ < 2 ^ 63) :
    (∃ text raised, generateTOTP hmacSHA1 unicode secret at_ = .error (.error text) ∧
        generateTotp hmacSHA1 tables secret 30 6 (Time.unix at_) = .error raised) ∨
      ∃ code, generateTOTP hmacSHA1 unicode secret at_ = .ok code ∧
        generateTotp hmacSHA1 tables secret 30 6 (Time.unix at_) = .ok code ∧
        code.length = 6 ∧ ∀ c ∈ code.toList, c.isDigit = true := by
  have agree := base32Decode_agree unicode tables printable member visible
  cases decoded : Auth.base32Decode unicode secret with
  | none =>
      cases read : TotpVerify.base32Decode tables secret with
      | error raised =>
          refine .inl ⟨"totp: invalid secret", raised, ?_, ?_⟩
          · simp only [generateTOTP, decoded]
          · simp only [generateTotp, read]
            rfl
      | ok key =>
          rw [(agree key).mpr read] at decoded
          cases decoded
  | some key =>
      have read := (agree key).mp decoded
      have server := Auth.generateTOTP_eq hmacSHA1 decoded positive
        (by rw [Int64.toInt_maxValue]; omega)
      have script := TotpVerify.generateTotp_shifted hmacSHA1 tables read 6 (Time.unix at_) 0
      have counter : 0 ≤ (Time.unix at_).fdiv 30 ∧ (Time.unix at_).fdiv 30 < 2 ^ 64 := by
        rw [Int.fdiv_eq_ediv_of_nonneg _ (by decide)]
        omega
      rw [Auth.hotp_code, timeStep_toNat fits] at server
      rw [Int.mul_zero, Int.add_zero, Int.add_zero,
        TotpVerify.hotp_counter hmacSHA1 key counter.1 counter.2] at script
      refine .inr ⟨_, server, script, OneTimeCode.length_code hmacSHA1 key _ (by decide), ?_⟩
      intro digit listed
      rw [OneTimeCode.code, String.toList_ofList] at listed
      exact OneTimeCode.digits_isDigit listed

theorem generators_agree_sample :
    (∃ text raised, generateTOTP sampleHMAC ⟨id, id⟩ sampleSecret (59 * second) =
          .error (.error text) ∧
        generateTotp sampleHMAC ⟨fun c => [c]⟩ sampleSecret 30 6 59 = .error raised) ∨
      ∃ code, generateTOTP sampleHMAC ⟨id, id⟩ sampleSecret (59 * second) = .ok code ∧
        generateTotp sampleHMAC ⟨fun c => [c]⟩ sampleSecret 30 6 59 = .ok code ∧
        code.length = 6 ∧ ∀ c ∈ code.toList, c.isDigit = true :=
  generators_agree sampleHMAC ⟨id, id⟩ ⟨fun c => [c]⟩ (c := 'G')
    (by decide) (by decide) (by decide) (59 * second) (by decide) (by decide)

/-- The counter of a step in the window, on the server and in the script. -/
theorem hotp_window (key : List UInt8) (code : String) {seconds : Int} (delta : Int)
    (earlier : 0 ≤ seconds) (positive : 0 ≤ seconds + 30 * delta)
    (fits : seconds + 30 * delta < 2 ^ 63) (narrow : seconds < 2 ^ 63) :
    Auth.hotp hmacSHA1 key (Int64.ofInt seconds / 30 + Int64.ofInt delta).toUInt64 6 = .ok code ↔
      TotpVerify.hotp hmacSHA1 key (seconds.fdiv 30 + delta) 6 = .ok code := by
  have moved := TotpVerify.fdiv_shifted seconds delta
  have counter : 0 ≤ seconds.fdiv 30 + delta ∧ seconds.fdiv 30 + delta < 2 ^ 64 := by
    rw [← moved, Int.fdiv_eq_ediv_of_nonneg _ (by decide)]
    omega
  rw [Auth.verified_step delta positive earlier (by rw [Int64.toInt_maxValue]; omega),
    Auth.hotp_code, timeStep_toNat fits, moved,
    TotpVerify.hotp_counter hmacSHA1 key counter.1 counter.2]
  simp only [Except.ok.injEq]

/-- The loop of the server and the loop of the script find the same steps. -/
theorem windows_agree (key : List UInt8) {code : String} (six : code.length = 6)
    (ascii : Python.isAscii code = true) {seconds : Int} (started : 30 ≤ seconds)
    (fits : seconds < 2 ^ 62) :
    Auth.verifySteps hmacSHA1 key code (Int64.ofInt seconds / 30) [-1, 0, 1] = .ok true ↔
      TotpVerify.verifyFrom hmacSHA1 key code (seconds.fdiv 30) (-1) 3 = .ok true := by
  have floor := Int.fdiv_eq_ediv_of_nonneg seconds (by decide : (0 : Int) ≤ 30)
  have step := fun delta (positive : 0 ≤ seconds + 30 * delta)
      (later : seconds + 30 * delta < 2 ^ 63) =>
    hotp_window hmacSHA1 key code delta (by omega) positive later (by omega)
  have previous := step (-1) (by omega) (by omega)
  have current := step 0 (by omega) (by omega)
  have next := step 1 (by omega) (by omega)
  change Auth.verifySteps hmacSHA1 key code (Int64.ofInt seconds / 30)
    [Int64.ofInt (-1), Int64.ofInt 0, Int64.ofInt 1] = .ok true ↔ _
  rw [Auth.verifySteps_true_iff, TotpVerify.verifyFrom_true_iff ascii (by omega), six]
  simp only [List.mem_cons, List.not_mem_nil, or_false, exists_eq_or_imp, exists_eq_left, previous,
    current, next]
  constructor
  · rintro (matched | matched | matched)
    · exact ⟨-1, by decide, by decide, matched⟩
    · exact ⟨0, by decide, by decide, matched⟩
    · exact ⟨1, by decide, by decide, matched⟩
  · intro found
    obtain ⟨delta, low, high, matched⟩ := found
    obtain rfl | rfl | rfl : delta = -1 ∨ delta = 0 ∨ delta = 1 := by omega
    · exact .inl matched
    · exact .inr (.inl matched)
    · exact .inr (.inr matched)

/-- Both verifiers answer, and answer alike, from the second time step on; in
the first one the script fails. -/
theorem verifiers_agree_iff {secret code : String} {key : List UInt8}
    (printable : Printable secret.toList) {c : Char} (member : c ∈ secret.toList)
    (visible : c ≠ ' ') (decoded : Auth.base32Decode unicode secret = some key)
    (six : code.length = 6) (ascii : Python.isAscii code = true) (at_ : Time)
    (positive : 0 ≤ Time.unix at_) (fits : Time.unix at_ < 2 ^ 62) :
    (∃ accepted, verifyTOTP hmacSHA1 unicode secret code at_ = .ok accepted ∧
        verifyTotp hmacSHA1 tables secret code 30 1 (Time.unix at_) = .ok accepted) ↔
      30 ≤ Time.unix at_ := by
  have read := (base32Decode_agree unicode tables printable member visible key).mp decoded
  have floor := Int.fdiv_eq_ediv_of_nonneg (Time.unix at_) (by decide : (0 : Int) ≤ 30)
  rw [TotpVerify.verifyTotp_eq read]
  constructor
  · intro both
    obtain ⟨accepted, _, script⟩ := both
    by_contra early
    have raised := TotpVerify.hotp_outside hmacSHA1 key
      (by omega : ¬(0 ≤ (Time.unix at_).fdiv 30 + -1 ∧ (Time.unix at_).fdiv 30 + -1 < 2 ^ 64))
      code.length
    change TotpVerify.verifyFrom hmacSHA1 key code _ (-1) 3 = _ at script
    simp only [TotpVerify.verifyFrom, raised] at script
    cases script
  · intro started
    have agree := windows_agree hmacSHA1 key six ascii started fits
    obtain ⟨accepted, server⟩ := Auth.verifySteps_ok hmacSHA1 key code
      (Int64.ofInt (Time.unix at_) / 30) [-1, 0, 1]
    obtain ⟨alsoAccepted, script⟩ := TotpVerify.verifyFrom_ok hmacSHA1 key ascii
      (by omega : 0 ≤ (Time.unix at_).fdiv 30 + -1)
      (by omega : (Time.unix at_).fdiv 30 + -1 + (3 : Nat) ≤ 2 ^ 64)
    rw [server, script, Except.ok.injEq, Except.ok.injEq, ← Bool.eq_iff_iff] at agree
    refine ⟨accepted, ?_, ?_⟩
    · simp only [verifyTOTP, decoded]
      exact server
    · rw [agree]
      exact script

end

theorem first_step_disagrees :
    Auth.base32Decode ⟨id, id⟩ sampleSecret ≠ none ∧
      verifyTOTP sampleHMAC ⟨id, id⟩ sampleSecret "755224" 0 = .ok true ∧
      verifyTotp sampleHMAC ⟨fun c => [c]⟩ sampleSecret "755224" 30 1 0 =
        .error .structError := by
  decide

theorem verifiers_agree_sample :
    ∃ accepted, verifyTOTP sampleHMAC ⟨id, id⟩ sampleSecret "287082" (59 * second) =
        .ok accepted ∧
      verifyTotp sampleHMAC ⟨fun c => [c]⟩ sampleSecret "287082" 30 1 59 = .ok accepted :=
  (verifiers_agree_iff sampleHMAC ⟨id, id⟩ ⟨fun c => [c]⟩ (c := 'G')
    (by decide) (by decide) (by decide)
    (show Auth.base32Decode _ _ = some ("12345678901234567890".toList.map asciiByte) by decide)
    (by decide) (by decide) (59 * second) (by decide) (by decide)).mpr (by decide)

end Nexus.Security
