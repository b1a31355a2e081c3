import Nexus.Lib.Base32
import Nexus.Python.Bytes

/-! `base64.b32decode` accepts padded base32 text and nothing else. -/

set_option autoImplicit false

namespace Nexus.Python

open Nexus.Lib.BigEndian Nexus.Lib.Base32

abbrev Decoded : List UInt8 → List UInt8 → Prop := Decodes b32rev padChar

theorem b32rev_padChar : b32rev padChar = none := by decide

theorem accumulate_iff {acc : Nat} {quantum : List UInt8} {number : Nat} :
    accumulate acc quantum = some number ↔
      ∃ values, Valued b32rev quantum values ∧ Lib.Base32.accumulate acc values = number := by
  induction quantum generalizing acc with
  | nil => simp [accumulate, Lib.Base32.accumulate]
  | cons c quantum ih =>
      rw [accumulate]
      cases named : b32rev c with
      | none =>
          refine iff_of_false (by simp) ?_
          intro found
          obtain ⟨values, valued, _⟩ := found
          cases valued with
          | cons other _ =>
              rw [named] at other
              cases other
      | some value =>
          simp only [Nat.shiftLeft_eq]
          rw [ih]
          constructor
          · intro found
            obtain ⟨values, valued, total⟩ := found
            exact ⟨value :: values, .cons named valued, total⟩
          · intro found
            obtain ⟨values, valued, total⟩ := found
            cases valued with
            | cons other valued =>
                rw [named] at other
                cases other
                exact ⟨_, valued, total⟩

/-! ## Quanta -/

theorem quanta_short {s : List UInt8} (started : s ≠ []) (short : s.length ≤ 8) :
    quanta s = [s] := by
  have positive := List.length_pos_iff.mpr started
  have one : (s.length + 7) / 8 = 1 := by omega
  simp only [quanta, one, List.range_one, List.map_cons, List.map_nil, Nat.mul_zero,
    List.drop_zero, List.take_of_length_le short]

theorem quanta_append {quantum : List UInt8} (full : quantum.length = 8) (rest : List UInt8) :
    quanta (quantum ++ rest) = quantum :: quanta rest := by
  have further : ((quantum ++ rest).length + 7) / 8 = (rest.length + 7) / 8 + 1 := by
    rw [List.length_append, full]
    omega
  simp only [quanta, further, List.range_succ_eq_map, List.map_cons, Nat.mul_zero, List.drop_zero,
    List.map_map, List.take_left' full]
  congr 1
  apply List.map_congr_left
  intro i _
  have next : 8 * (i + 1) = quantum.length + 8 * i := by omega
  simp only [Function.comp_apply, Nat.succ_eq_add_one, next, List.drop_length_add_append]

theorem fixLast_append {decoded : List UInt8} (long : 5 ≤ decoded.length)
    (padchars acc : Nat) (earlier : List UInt8) :
    fixLast padchars acc (earlier ++ decoded) = earlier ++ fixLast padchars acc decoded := by
  have something : decoded ≠ [] := List.length_pos_iff.mp (by omega)
  by_cases unpadded : padchars = 0
  · simp only [fixLast, unpadded, ne_eq, not_true_eq_false, false_and, if_false]
  · have kept : (earlier ++ decoded).length - 5 = earlier.length + (decoded.length - 5) := by
      rw [List.length_append]
      omega
    simp only [fixLast, ne_eq, unpadded, not_false_eq_true, List.append_eq_nil_iff, something,
      and_false, and_self, if_true, kept, List.take_length_add_append, List.append_assoc]

theorem fixLast_single (padchars : Nat) (values : List Nat) :
    fixLast padchars (Lib.Base32.accumulate 0 values)
        (toBytes 5 (Lib.Base32.accumulate 0 values)) = quantumBytes padchars values := by
  have power : (2 : Nat) ^ (5 * padchars) = 32 ^ padchars := Nat.pow_mul 2 5 padchars
  by_cases unpadded : padchars = 0
  · simp only [fixLast, unpadded, ne_eq, not_true_eq_false, false_and, if_false,
      quantumBytes_full]
  · have something : toBytes 5 (Lib.Base32.accumulate 0 values) ≠ [] :=
      List.length_pos_iff.mp (by rw [length_toBytes]; decide)
    simp only [fixLast, ne_eq, unpadded, not_false_eq_true, something, and_self, if_true,
      length_toBytes, Nat.sub_self, List.take_zero, List.nil_append, Nat.shiftLeft_eq, power,
      quantumBytes]

/-! ## Decoding -/

theorem decodeQuanta_of_decodes {src bytes : List UInt8} (decodes : Decoded src bytes) :
    ∃ body padchars acc decoded, src = body ++ List.replicate padchars padChar ∧ body ≠ [] ∧
      (∀ symbol ∈ body, symbol ≠ padChar) ∧ padchars ∈ legalPadding ∧
      (∀ before earlier, decodeQuanta before earlier (quanta body) =
        some (acc, earlier ++ decoded)) ∧
      5 ≤ decoded.length ∧ bytes = fixLast padchars acc decoded := by
  induction decodes with
  | @last symbols values padding valued counted legal =>
      have started : symbols ≠ [] := by
        rintro rfl
        simp only [legalPadding, List.mem_cons, List.not_mem_nil, or_false] at legal
        rw [List.length_nil] at counted
        omega
      have summed : accumulate 0 symbols = _ := accumulate_iff.mpr ⟨values, valued, rfl⟩
      refine ⟨symbols, padding, Lib.Base32.accumulate 0 values, _, rfl, started,
        fun symbol => valued.ne_pad b32rev_padChar, legal, ?_, ?_,
        (fixLast_single padding values).symm⟩
      · intro before earlier
        rw [quanta_short started (by omega)]
        simp only [decodeQuanta, summed]
      · rw [length_toBytes]
  | @more quantum values rest bytes valued full later ih =>
      obtain ⟨body, padchars, acc, decoded, rfl, _, clean, legal, read, long, rfl⟩ := ih
      have summed : accumulate 0 quantum = _ := accumulate_iff.mpr ⟨values, valued, rfl⟩
      refine ⟨quantum ++ body, padchars, acc, toBytes 5 (Lib.Base32.accumulate 0 values) ++ decoded,
        (List.append_assoc _ _ _).symm, ?_, ?_, legal, ?_, ?_, ?_⟩
      · intro empty
        rw [(List.append_eq_nil_iff.mp empty).1] at full
        cases full
      · intro symbol member
        rcases List.mem_append.mp member with first | further
        · exact valued.ne_pad b32rev_padChar first
        · exact clean symbol further
      · intro before earlier
        rw [quanta_append full]
        simp only [decodeQuanta, summed, read, List.append_assoc]
      · rw [List.length_append]
        omega
      · rw [fixLast_append long, quantumBytes_full]

theorem decodes_of_decodeQuanta {padchars : Nat} (legal : padchars ∈ legalPadding) (more : Nat)
    {body : List UInt8} (whole : body.length + padchars = 8 * (more + 1)) {before acc : Nat}
    {earlier total : List UInt8}
    (read : decodeQuanta before earlier (quanta body) = some (acc, total)) :
    ∃ decoded, total = earlier ++ decoded ∧ 5 ≤ decoded.length ∧
      Decoded (body ++ List.replicate padchars padChar) (fixLast padchars acc decoded) := by
  have few : padchars ≤ 6 := by
    simp only [legalPadding, List.mem_cons, List.not_mem_nil, or_false] at legal
    omega
  induction more generalizing body before earlier with
  | zero =>
      have started : body ≠ [] := List.length_pos_iff.mp (by omega)
      rw [quanta_short started (by omega)] at read
      cases summed : accumulate 0 body with
      | none =>
          simp only [decodeQuanta, summed] at read
          cases read
      | some number =>
          obtain ⟨values, valued, rfl⟩ := accumulate_iff.mp summed
          simp only [decodeQuanta, summed] at read
          cases read
          refine ⟨_, rfl, by rw [length_toBytes], ?_⟩
          rw [fixLast_single]
          exact .last valued whole legal
  | succ more ih =>
      have full : (body.take 8).length = 8 := by
        rw [List.length_take]
        omega
      have split : body = body.take 8 ++ body.drop 8 := (List.take_append_drop 8 body).symm
      rw [split, quanta_append full] at read
      cases summed : accumulate 0 (body.take 8) with
      | none =>
          simp only [decodeQuanta, summed] at read
          cases read
      | some number =>
          obtain ⟨values, valued, rfl⟩ := accumulate_iff.mp summed
          simp only [decodeQuanta, summed] at read
          have shorter : (body.drop 8).length + padchars = 8 * (more + 1) := by
            rw [List.length_drop]
            omega
          obtain ⟨decoded, rfl, long, decodes⟩ := ih shorter read
          refine ⟨toBytes 5 (Lib.Base32.accumulate 0 values) ++ decoded,
            List.append_assoc _ _ _, ?_, ?_⟩
          · rw [List.length_append]
            omega
          · rw [fixLast_append long, ← quantumBytes_full, split, List.append_assoc]
            exact .more valued full decodes

theorem rstrip_padded {body : List UInt8} (clean : ∀ symbol ∈ body, symbol ≠ padChar)
    (padchars : Nat) :
    (body ++ List.replicate padchars padChar).rdropWhile (· == padChar) = body := by
  induction padchars with
  | zero =>
      rw [List.replicate_zero, List.append_nil, List.rdropWhile_eq_self_iff]
      intro started
      simpa using clean _ (List.getLast_mem started)
  | succ padchars ih =>
      rw [List.replicate_succ', ← List.append_assoc, List.rdropWhile_concat_pos _ _ _ (by simp), ih]

theorem rstrip_split (s : List UInt8) :
    ∃ padchars, s.length = (s.rdropWhile (· == padChar)).length + padchars ∧
      s = s.rdropWhile (· == padChar) ++ List.replicate padchars padChar := by
  have split : s.rdropWhile (· == padChar) ++ s.rtakeWhile (· == padChar) = s :=
    List.rdropWhile_append_rtakeWhile
  have padding : s.rtakeWhile (· == padChar) =
      List.replicate (s.rtakeWhile (· == padChar)).length padChar := by
    rw [List.eq_replicate_iff]
    exact ⟨rfl, fun byte member => by simpa using List.mem_rtakeWhile_imp member⟩
  refine ⟨(s.rtakeWhile (· == padChar)).length, ?_, ?_⟩
  · rw [← List.length_append, split]
  · rw [← padding, split]

theorem b32decodeBytes_iff {s bytes : List UInt8} (started : s ≠ []) :
    b32decodeBytes s = .ok bytes ↔ Decoded s bytes := by
  constructor
  · intro decoded
    obtain ⟨padchars, length, split⟩ := rstrip_split s
    have counted : s.length - (s.rdropWhile (· == padChar)).length = padchars := by omega
    unfold b32decodeBytes at decoded
    by_cases ragged : s.length % 8 ≠ 0
    · rw [if_pos ragged] at decoded
      cases decoded
    simp only [if_neg ragged, counted] at decoded
    cases read : decodeQuanta 0 [] (quanta (s.rdropWhile (· == padChar))) with
    | none =>
        rw [read] at decoded
        cases decoded
    | some result =>
        obtain ⟨acc, total⟩ := result
        rw [read] at decoded
        by_cases legal : padchars ∈ legalPadding
        · have whole : (s.rdropWhile (· == padChar)).length + padchars =
              8 * (s.length / 8 - 1 + 1) := by
            have positive := List.length_pos_iff.mpr started
            omega
          obtain ⟨tail, rfl, _, decodes⟩ := decodes_of_decodeQuanta legal _ whole read
          have kept : ¬padchars ∉ [0, 1, 3, 4, 6] := not_not.mpr legal
          simp only [if_neg kept, Except.ok.injEq] at decoded
          rw [split, ← decoded]
          exact decodes
        · have refused : padchars ∉ [0, 1, 3, 4, 6] := legal
          simp only [if_pos refused] at decoded
          cases decoded
  · intro decodes
    obtain ⟨more, whole⟩ := decodes.whole
    obtain ⟨body, padchars, acc, decoded, rfl, _, clean, legal, read, _, rfl⟩ :=
      decodeQuanta_of_decodes decodes
    have even : ¬(body ++ List.replicate padchars padChar).length % 8 ≠ 0 := by omega
    have counted : (body ++ List.replicate padchars padChar).length - body.length = padchars := by
      rw [List.length_append, List.length_replicate]
      omega
    have kept : ¬padchars ∉ [0, 1, 3, 4, 6] := not_not.mpr legal
    simp only [b32decodeBytes, if_neg even, rstrip_padded clean, counted, read, if_neg kept,
      List.nil_append]

end Nexus.Python
