import Mathlib.Data.Bool.AllAny
import Nexus.Security.TotpAgreement

/-! The secret handed out at enrolment, as a user may type it in again. -/

set_option autoImplicit false

namespace Nexus.Security

open Nexus.Go Nexus.Lib Nexus.Go.Base32

/-- The Base32 text of the bytes, in letters of either case and with spaces and
tabs around it. -/
def WrittenAs (src : List UInt8) (secret : String) : Prop :=
  ∃ before text after, secret.toList = before ++ text ++ after ∧
    (∀ c ∈ before, c = ' ' ∨ c = '\t') ∧ (∀ c ∈ after, c = ' ' ∨ c = '\t') ∧
    text.map Char.toUpper = (encodeToString src).toList

theorem trim_surrounded {p : Char → Bool} {before text after : List Char}
    (front : ∀ c ∈ before, p c = true) (kept : ∀ c ∈ text, p c = false)
    (back : ∀ c ∈ after, p c = true) :
    ((before ++ text ++ after).dropWhile p).rdropWhile p = text := by
  have started : text.dropWhile p = text := by
    rw [List.dropWhile_eq_self_iff]
    intro nonempty
    simp [kept _ (List.getElem_mem nonempty)]
  have ended : text.rdropWhile p = text := by
    rw [List.rdropWhile_eq_self_iff]
    intro nonempty
    simp [kept _ (List.getLast_mem nonempty)]
  rw [List.append_assoc, List.dropWhile_append_of_pos front]
  have trailing : (text ++ after).rdropWhile p = text := by
    rw [List.rdropWhile, List.reverse_append, List.dropWhile_append_of_pos]
    · exact ended
    · exact fun c member => back c (List.mem_reverse.mp member)
  cases text with
  | nil =>
      rw [List.nil_append, List.dropWhile_eq_nil_iff.mpr back]
      rfl
  | cons c text =>
      have visible := kept c List.mem_cons_self
      rw [List.cons_append, List.dropWhile_cons_of_neg (by simp [visible]), ← List.cons_append]
      exact trailing

theorem alphabet_printable : ∀ c ∈ alphabet, 0x20 ≤ c.toNat ∧ c.toNat ≤ 0x7E :=
  List.all_iff_forall_prop.mp (by decide)

theorem encodeSymbol_mem {value : UInt8} (small : value.toNat < 32) :
    encodeSymbol value ∈ alphabet := by
  have listed : value.toNat < alphabet.length := small
  rw [encodeSymbol, List.getD_eq_getElem _ _ listed]
  exact List.getElem_mem listed

theorem encoded_mem {src : List UInt8} {c : Char} (member : c ∈ (encodeToString src).toList) :
    c ∈ alphabet := by
  rw [encodeToString, String.toList_ofList] at member
  obtain ⟨value, listed, rfl⟩ := List.mem_map.mp member
  exact encodeSymbol_mem (encodeValues_small src value listed)

/-- A character and its upper-case letter are both printable or neither is. -/
theorem printable_of_toUpper {c : Char}
    (printable : 0x20 ≤ c.toUpper.toNat ∧ c.toUpper.toNat ≤ 0x7E) :
    0x20 ≤ c.toNat ∧ c.toNat ≤ 0x7E := by
  by_cases letter : c.val ≥ 97 ∧ c.val ≤ 122
  · obtain ⟨low, high⟩ := letter
    exact ⟨Nat.le_trans (by decide) (UInt32.le_iff_toNat_le.mp low),
      Nat.le_trans (UInt32.le_iff_toNat_le.mp high) (by decide)⟩
  · have same : c.toUpper = c := by
      unfold Char.toUpper
      exact dif_neg letter
    rwa [same] at printable

theorem bytes_encoded (src : List UInt8) (padding : Nat) :
    ((encodeToString src).toList ++ List.replicate padding '=').map asciiByte =
      (encodeValues src).map encodedByte ++ List.replicate padding padChar := by
  rw [List.map_append, List.map_replicate, encodeToString, String.toList_ofList, List.map_map]
  rfl

theorem padded_eq (cs : List Char) :
    padded cs = cs ++ List.replicate (missing cs.length) '=' := by
  unfold padded missing
  by_cases ragged : cs.length % 8 ≠ 0
  · have gap : (8 - cs.length % 8) % 8 = 8 - cs.length % 8 := by omega
    simp only [if_pos ragged, gap]
  · have gap : (8 - cs.length % 8) % 8 = 0 := by omega
    simp only [if_neg ragged, gap, List.replicate_zero, List.append_nil]

theorem encoded_printable (src : List UInt8) : Printable (encodeToString src).toList :=
  fun c member => alphabet_printable c (encoded_mem member)

/-- The decoder undoes the encoder once the text is trimmed and in upper case. -/
theorem decodeString_padded (src : List UInt8) :
    decodeString (String.ofList (padded (encodeToString src).toList)) = some src := by
  rw [decodeString_printable (padded_printable (encoded_printable src)), padded_eq, bytes_encoded]
  cases started : src with
  | nil => rfl
  | cons first rest =>
      have counted : (encodeToString (first :: rest)).toList.length =
          (encodeValues (first :: rest)).length := by
        rw [encodeToString, String.toList_ofList, List.length_map]
      rw [counted]
      exact decodeQuanta_of_decodes (decodes_encode (List.cons_ne_nil first rest)) (by omega)

theorem upper_written (unicode : UnicodeTables) {src : List UInt8} {secret : String}
    (written : WrittenAs src secret) : toUpper unicode (trimSpace secret) = encodeToString src := by
  obtain ⟨before, text, after, spelled, front, back, cased⟩ := written
  have symbol : ∀ c ∈ text, c.toUpper ∈ alphabet := by
    intro c member
    have listed := List.mem_map_of_mem (f := Char.toUpper) member
    rw [cased] at listed
    exact encoded_mem listed
  have printable : Printable text :=
    fun c member => printable_of_toUpper (alphabet_printable _ (symbol c member))
  have visible : ∀ c ∈ text, isSpace c = false := by
    intro c member
    rw [go_isSpace_printable (printable c member), beq_eq_false_iff_ne]
    rintro rfl
    exact absurd (symbol _ member) (by decide)
  have blank : ∀ {c : Char}, c = ' ' ∨ c = '\t' → isSpace c = true := by
    rintro c (rfl | rfl) <;> decide
  have shown : (trimSpace secret).toList = text := by
    rw [toList_trimSpace, spelled]
    exact trim_surrounded (fun c member => blank (front c member)) visible
      fun c member => blank (back c member)
  apply String.toList_inj.mp
  rw [toList_toUpper unicode (by rw [shown]; exact printable.ascii), shown, cased]

theorem base32Decode_written (unicode : UnicodeTables) {src : List UInt8} {secret : String}
    (written : WrittenAs src secret) : Auth.base32Decode unicode secret = some src := by
  have bytes : len (encodeToString src) = (encodeToString src).toList.length := by
    have counted := len_ofList (encoded_printable src).ascii
    rwa [String.ofList_toList] at counted
  have filled := ofList_padded (encodeToString src).toList
  rw [String.ofList_toList] at filled
  simp only [Auth.base32Decode, upper_written unicode written, bytes, filled]
  exact decodeString_padded src

theorem writtenAs_self (src : List UInt8) : WrittenAs src (encodeToString src) := by
  refine ⟨[], (encodeToString src).toList, [], by simp, by simp, by simp, ?_⟩
  have upper : ∀ c ∈ alphabet, c.toUpper = c := List.all_iff_forall_prop.mp (by decide)
  exact (List.map_congr_left fun c member => upper c (encoded_mem member)).trans (List.map_id _)

/-- The secret of an enrolment decodes to the bytes it was drawn as, however it
is typed in, and no other secret decodes to the same key. -/
theorem secret_round_trip (unicode : UnicodeTables) {src : List UInt8} {secret : String}
    (written : WrittenAs src secret) :
    Auth.base32Decode unicode secret = some src ∧
      ∀ other : List UInt8, encodeToString other ≠ encodeToString src →
        Auth.base32Decode unicode (encodeToString other) ≠ Auth.base32Decode unicode secret := by
  have decoded := base32Decode_written unicode written
  refine ⟨decoded, ?_⟩
  intro other different same
  rw [decoded, base32Decode_written unicode (writtenAs_self other)] at same
  exact different (congrArg encodeToString (Option.some.inj same))

theorem secret_round_trip_typed :
    Auth.base32Decode ⟨id, id⟩ " \tmzXW6ytboI " =
      some [0x66, 0x6F, 0x6F, 0x62, 0x61, 0x72] :=
  (secret_round_trip ⟨id, id⟩ ⟨[' ', '\t'], "mzXW6ytboI".toList, [' '], by decide,
    List.all_iff_forall_prop.mp (by decide), List.all_iff_forall_prop.mp (by decide),
    by decide⟩).1

end Nexus.Security
