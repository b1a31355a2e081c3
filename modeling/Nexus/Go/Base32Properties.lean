import Nexus.Go.Base32
import Nexus.Go.Bytes
import Nexus.Lib.Base32

/-! The decoder of `encoding/base32` accepts padded base32 text and nothing
else, where the length of the input is a multiple of eight; and the text the
encoder writes for a byte string stands for it. -/

set_option autoImplicit false

namespace Nexus.Go.Base32

open Nexus.Lib Nexus.Lib.BigEndian Nexus.Lib.Base32

def symbolValue (symbol : UInt8) : Option Nat := (decodeMap symbol).map UInt8.toNat

abbrev Decoded : List UInt8 → List UInt8 → Prop := Decodes symbolValue padChar

abbrev Mapped : List UInt8 → List UInt8 → Prop :=
  List.Forall₂ fun symbol value => decodeMap symbol = some value

theorem decodeMap_padChar : decodeMap padChar = none := by decide

theorem decodeMap_small {symbol value : UInt8} (named : decodeMap symbol = some value) :
    value.toNat < 32 := by
  have checked : ∀ symbol, (decodeMap symbol).all (fun value => value.toNat < 32) = true :=
    forall_byte (by decide +kernel)
  have small := checked symbol
  rw [named] at small
  simpa using small

theorem Mapped.small {symbols values : List UInt8} (mapped : Mapped symbols values) :
    ∀ value ∈ values, value.toNat < 32 := by
  induction mapped with
  | nil => simp
  | cons named _ ih =>
      simp only [List.forall_mem_cons]
      exact ⟨decodeMap_small named, ih⟩

theorem Mapped.valued {symbols values : List UInt8} (mapped : Mapped symbols values) :
    Valued symbolValue symbols (values.map UInt8.toNat) := by
  induction mapped with
  | nil => exact .nil
  | cons named _ ih => exact .cons (by rw [symbolValue, named]; rfl) ih

theorem Mapped.of_valued {symbols : List UInt8} {numbers : List Nat}
    (valued : Valued symbolValue symbols numbers) :
    ∃ values, Mapped symbols values ∧ numbers = values.map UInt8.toNat := by
  induction valued with
  | nil => exact ⟨[], .nil, rfl⟩
  | cons named _ ih =>
      obtain ⟨values, mapped, rfl⟩ := ih
      obtain ⟨value, found, rfl⟩ := Option.map_eq_some_iff.mp named
      exact ⟨value :: values, .cons found mapped, rfl⟩

/-! ## Packing -/

theorem packQuantum_full {a b c d e f g h : UInt8}
    (small : ∀ value ∈ [a, b, c, d, e, f, g, h], value.toNat < 32) :
    packQuantum [a, b, c, d, e, f, g, h] =
      toBytes 5 (accumulate 0 ([a, b, c, d, e, f, g, h].map UInt8.toNat)) := by
  simp only [List.mem_cons, List.not_mem_nil, or_false, forall_eq_or_imp, forall_eq] at small
  obtain ⟨ha, hb, hc, hd, he, hf, hg, hh⟩ := small
  simp only [packQuantum, accumulate, List.map_cons, List.map_nil, List.foldl_cons, List.foldl_nil,
    toBytes, List.cons.injEq, and_true, ← UInt8.toNat_inj, UInt8.toNat_or, UInt8.toNat_ofNat',
    UInt8.toNat_shiftLeft, UInt8.toNat_shiftRight, UInt8.reduceToNat, Nat.reduceMod,
    Nat.shiftLeft_eq, Nat.shiftRight_eq_div_pow, Nat.reducePow]
  -- The bits of neighbouring symbols do not overlap within a byte.
  refine ⟨?_, ?_, ?_, ?_, ?_⟩
  · rw [or_of_disjoint (b.toNat / 4) 3 (by omega) (by omega)]
    omega
  · rw [or_of_disjoint (c.toNat * 2 % 256) 6 (by omega) (by omega),
      or_of_disjoint (d.toNat / 16) 1 (by omega) (by omega)]
    omega
  · rw [or_of_disjoint (e.toNat / 2) 4 (by omega) (by omega)]
    omega
  · rw [or_of_disjoint (f.toNat * 4 % 256) 7 (by omega) (by omega),
      or_of_disjoint (g.toNat / 8) 2 (by omega) (by omega)]
    omega
  · rw [or_of_disjoint h.toNat 5 (by omega) (by omega)]
    omega

private theorem eight_values {values : List UInt8} (counted : values.length = 8) :
    ∃ a b c d e f g h, values = [a, b, c, d, e, f, g, h] := by
  match values, counted with
  | [a, b, c, d, e, f, g, h], _ => exact ⟨a, b, c, d, e, f, g, h, rfl⟩

/-- A padded quantum has the first bytes of the quantum that ends in zeros. -/
theorem packQuantum_eq {values : List UInt8} {padding : Nat}
    (small : ∀ value ∈ values, value.toNat < 32) (counted : values.length + padding = 8)
    (legal : padding ∈ legalPadding) :
    packQuantum values = quantumBytes padding (values.map UInt8.toNat) := by
  have filled : (values ++ List.replicate padding 0).length = 8 := by
    rw [List.length_append, List.length_replicate, counted]
  have zeros : (values ++ List.replicate padding 0).map UInt8.toNat =
      values.map UInt8.toNat ++ List.replicate padding 0 := by
    rw [List.map_append, List.map_replicate]
    rfl
  have front : (values ++ List.replicate padding 0).take (8 - padding) = values := by
    rw [List.take_left']
    omega
  have alsoSmall : ∀ value ∈ values ++ List.replicate padding 0, value.toNat < 32 := by
    intro value member
    rcases List.mem_append.mp member with read | zero
    · exact small value read
    · rw [List.eq_of_mem_replicate zero]
      decide
  obtain ⟨a, b, c, d, e, f, g, h, whole⟩ := eight_values filled
  rw [quantumBytes, ← accumulate_zeros, ← zeros, whole,
    ← packQuantum_full (by rw [← whole]; exact alsoSmall), ← front, whole]
  simp only [legalPadding, List.mem_cons, List.not_mem_nil, or_false] at legal
  rcases legal with rfl | rfl | rfl | rfl | rfl <;> rfl

/-! ## Reading -/

theorem readQuantum_mapped {read values : List UInt8} (mapped : Mapped read values)
    (symbols src : List UInt8) (room : symbols.length + read.length ≤ 8) :
    readQuantum symbols (read ++ src) = readQuantum (symbols ++ values) src := by
  induction mapped generalizing symbols with
  | nil => rw [List.nil_append, List.append_nil]
  | @cons symbol value read values named _ ih =>
      rw [List.length_cons] at room
      have unpadded : symbol ≠ padChar := by
        rintro rfl
        rw [decodeMap_padChar] at named
        cases named
      have short : symbols.length ≠ 8 := by omega
      have later := ih (symbols ++ [value]) (by simp; omega)
      rw [List.cons_append, readQuantum]
      simp only [short, if_false, unpadded, false_and, named]
      rw [later, List.append_assoc, List.singleton_append]

theorem readQuantum_done {symbols : List UInt8} (full : symbols.length = 8) (src : List UInt8) :
    readQuantum symbols src = some ⟨symbols, src, false⟩ := by
  cases src with
  | nil => simp [readQuantum, full]
  | cons head src => simp [readQuantum, full]

theorem readQuantum_padded {symbols : List UInt8} {padding : Nat}
    (counted : symbols.length + (padding + 1) = 8) (legal : padding + 1 ∈ legalPadding) :
    readQuantum symbols (List.replicate (padding + 1) padChar) =
      some ⟨symbols, List.replicate padding padChar, true⟩ := by
  simp only [legalPadding, List.mem_cons, List.not_mem_nil, or_false] at legal
  have clean : ((List.replicate padding padChar).take (7 - symbols.length)).any (· != padChar) =
      false := by
    rw [List.any_eq_false]
    intro byte member
    simp [List.eq_of_mem_replicate (List.mem_of_mem_take member)]
  have short : symbols.length ≠ 8 := by omega
  have started : symbols.length ≥ 2 := by omega
  have lastOne : padding < 8 := by omega
  have enough : ¬(padding + symbols.length < 7) := by omega
  have allowed : ¬(symbols.length = 3 ∨ symbols.length = 6) := by omega
  rw [List.replicate_succ, readQuantum]
  simp only [short, if_false, started, List.length_replicate, lastOne, and_self, if_true, enough,
    clean, Bool.false_eq_true, allowed]

/-- Padding that is read to the end: the rest of the quantum, of a legal length. -/
theorem readQuantum_pad_some {symbols src : List UInt8} {quantum : Quantum}
    (read : readQuantum symbols (padChar :: src) = some quantum) (started : symbols.length ≥ 2)
    (remaining : src.length = 7 - symbols.length) (short : symbols.length < 8) :
    7 - symbols.length + 1 ∈ legalPadding ∧
      src = List.replicate (7 - symbols.length) padChar ∧
      quantum = ⟨symbols, List.replicate (7 - symbols.length) padChar, true⟩ := by
  have unfinished : symbols.length ≠ 8 := by omega
  have lastOne : src.length < 8 := by omega
  have enough : ¬(src.length + symbols.length < 7) := by omega
  rw [readQuantum] at read
  simp only [unfinished, started, lastOne, and_self, if_true, enough, if_false] at read
  by_cases stray : (src.take (7 - symbols.length)).any (· != padChar) = true
  · simp only [stray, if_true] at read
    cases read
  by_cases illegal : symbols.length = 3 ∨ symbols.length = 6
  · simp only [stray, illegal, if_true] at read
    cases read
  simp only [stray, if_false, illegal, Option.some.injEq, Bool.false_eq_true] at read
  have padding : src = List.replicate (7 - symbols.length) padChar := by
    rw [← remaining, List.take_length] at stray
    rw [List.eq_replicate_iff]
    refine ⟨remaining, ?_⟩
    intro byte member
    simp only [Bool.not_eq_true, List.any_eq_false, bne_iff_ne, ne_eq, not_not] at stray
    exact stray byte member
  refine ⟨?_, padding, ?_⟩
  · simp only [legalPadding, List.mem_cons, List.not_mem_nil, or_false]
    omega
  · rw [← read, ← padding]

/-- What a quantum is read from: eight symbols, or fewer and their padding. -/
theorem readQuantum_some {symbols src : List UInt8} {quantum : Quantum}
    (read : readQuantum symbols src = some quantum) (room : symbols.length ≤ 8)
    (whole : 8 ∣ symbols.length + src.length) :
    ∃ front values, Mapped front values ∧
      ((symbols.length + front.length = 8 ∧ ∃ rest, src = front ++ rest ∧
          quantum = ⟨symbols ++ values, rest, false⟩) ∨
        ∃ padding, symbols.length + front.length + (padding + 1) = 8 ∧
          padding + 1 ∈ legalPadding ∧ src = front ++ List.replicate (padding + 1) padChar ∧
          quantum = ⟨symbols ++ values, List.replicate padding padChar, true⟩) := by
  induction src generalizing symbols with
  | nil =>
      by_cases full : symbols.length = 8
      · simp only [readQuantum, full, if_true, Option.some.injEq] at read
        exact ⟨[], [], .nil, .inl ⟨full, [], rfl, by rw [← read, List.append_nil]⟩⟩
      · simp only [readQuantum, full, if_false] at read
        cases read
  | cons head src ih =>
      by_cases full : symbols.length = 8
      · rw [readQuantum_done full, Option.some.injEq] at read
        exact ⟨[], [], .nil, .inl ⟨full, head :: src, rfl, by rw [← read, List.append_nil]⟩⟩
      by_cases padded : head = padChar ∧ symbols.length ≥ 2 ∧ src.length < 8
      · obtain ⟨rfl, started, lastOne⟩ := padded
        rw [List.length_cons] at whole
        obtain ⟨legal, padding, rfl⟩ :=
          readQuantum_pad_some read started (by omega) (by omega)
        refine ⟨[], [], .nil, .inr ⟨7 - symbols.length, ?_, legal, ?_, ?_⟩⟩
        · rw [List.length_nil]
          omega
        · rw [List.nil_append, List.replicate_succ, ← padding]
        · rw [List.append_nil]
      · rw [readQuantum] at read
        simp only [full, padded, if_false] at read
        rw [List.length_cons] at whole
        cases named : decodeMap head with
        | none =>
            rw [named] at read
            cases read
        | some value =>
            rw [named] at read
            have wholeLater : 8 ∣ (symbols ++ [value]).length + src.length := by
              rw [List.length_append, List.length_singleton]
              omega
            obtain ⟨front, values, mapped, shapes⟩ := ih read (by simp; omega) wholeLater
            refine ⟨head :: front, value :: values, .cons named mapped, ?_⟩
            simpa [Nat.add_assoc, Nat.add_comm 1] using shapes

/-! ## Decoding -/

theorem decodeQuanta_cons {src : List UInt8} (started : src ≠ []) (fuel : Nat) :
    decodeQuanta (fuel + 1) src =
      match readQuantum [] src with
      | none => none
      | some quantum =>
          if quantum.last then some (packQuantum quantum.symbols)
          else
            match decodeQuanta fuel quantum.rest with
            | none => none
            | some bytes => some (packQuantum quantum.symbols ++ bytes) := by
  obtain ⟨head, rest, rfl⟩ := List.exists_cons_of_ne_nil started
  rfl

theorem decodeQuanta_of_decodes {src bytes : List UInt8} (decodes : Decoded src bytes)
    {fuel : Nat} (enough : src.length ≤ 8 * fuel) : decodeQuanta fuel src = some bytes := by
  induction decodes generalizing fuel with
  | @last symbols numbers padding valued counted legal =>
      obtain ⟨values, mapped, rfl⟩ := Mapped.of_valued valued
      have sized : values.length + padding = 8 := by rw [← mapped.length_eq, counted]
      have packed := packQuantum_eq mapped.small sized legal
      have read := readQuantum_mapped mapped [] (List.replicate padding padChar)
        (by rw [List.length_nil]; omega)
      have started : symbols ++ List.replicate padding padChar ≠ [] := by
        intro empty
        have length := congrArg List.length empty
        rw [List.length_append, List.length_replicate, counted] at length
        cases length
      rw [List.length_append, List.length_replicate, counted] at enough
      obtain ⟨fuel, rfl⟩ := Nat.exists_eq_succ_of_ne_zero (by omega : fuel ≠ 0)
      rw [decodeQuanta_cons started, read]
      cases padding with
      | zero =>
          have nothing : decodeQuanta fuel [] = some [] := by cases fuel <;> rfl
          simp only [List.replicate_zero, List.nil_append, readQuantum_done sized,
            Bool.false_eq_true, if_false, nothing, packed, List.append_nil]
      | succ padding =>
          simp only [List.nil_append, readQuantum_padded sized legal, if_true, packed]
  | @more quantum numbers rest bytes valued full later ih =>
      obtain ⟨values, mapped, rfl⟩ := Mapped.of_valued valued
      have sized : values.length = 8 := by rw [← mapped.length_eq, full]
      have packed :=
        packQuantum_eq mapped.small (by rwa [Nat.add_zero]) (by decide : 0 ∈ legalPadding)
      have read := readQuantum_mapped mapped [] rest (by rw [full]; decide)
      have started : quantum ++ rest ≠ [] := by
        intro empty
        rw [(List.append_eq_nil_iff.mp empty).1] at full
        cases full
      rw [List.length_append, full] at enough
      obtain ⟨fuel, rfl⟩ := Nat.exists_eq_succ_of_ne_zero (by omega : fuel ≠ 0)
      rw [decodeQuanta_cons started, read, List.nil_append, readQuantum_done sized]
      simp only [Bool.false_eq_true, if_false, packed, ih (by omega : rest.length ≤ 8 * fuel)]

theorem decodes_of_decodeQuanta {fuel : Nat} {src bytes : List UInt8} (started : src ≠ [])
    (whole : 8 ∣ src.length) (decoded : decodeQuanta fuel src = some bytes) :
    Decoded src bytes := by
  induction fuel generalizing src bytes with
  | zero =>
      obtain ⟨head, rest, rfl⟩ := List.exists_cons_of_ne_nil started
      cases decoded
  | succ fuel ih =>
      rw [decodeQuanta_cons started] at decoded
      cases read : readQuantum [] src with
      | none =>
          rw [read] at decoded
          cases decoded
      | some quantum =>
          rw [read] at decoded
          obtain ⟨front, values, mapped, shapes⟩ := readQuantum_some read (by simp) (by simpa)
          rcases shapes with ⟨full, rest, rfl, rfl⟩ | ⟨padding, counted, legal, rfl, rfl⟩
          · have counted : front.length = 8 := by simpa using full
            have sized : values.length + 0 = 8 := by rw [← mapped.length_eq, counted]
            have packed := packQuantum_eq mapped.small sized (by decide)
            simp only [Bool.false_eq_true, if_false, List.nil_append, packed] at decoded
            rw [List.length_append, counted] at whole
            cases later : decodeQuanta fuel rest with
            | none =>
                rw [later] at decoded
                cases decoded
            | some more =>
                rw [later] at decoded
                cases decoded
                cases rest with
                | nil =>
                    have nothing : more = [] := by cases fuel <;> cases later <;> rfl
                    have final : Decoded (front ++ List.replicate 0 padChar)
                        (quantumBytes 0 (values.map UInt8.toNat)) :=
                      .last mapped.valued counted (by decide)
                    simpa only [nothing, List.replicate_zero, List.append_nil] using final
                | cons head rest =>
                    exact .more mapped.valued counted (ih (List.cons_ne_nil _ _) (by omega) later)
          · have length : front.length + (padding + 1) = 8 := by simpa using counted
            have packed := packQuantum_eq mapped.small (by rw [← mapped.length_eq, length]) legal
            simp only [if_true, List.nil_append, packed, Option.some.injEq] at decoded
            rw [← decoded]
            exact .last mapped.valued length legal

theorem decodeQuanta_iff {src bytes : List UInt8} (started : src ≠ []) (whole : 8 ∣ src.length) :
    decodeQuanta src.length src = some bytes ↔ Decoded src bytes :=
  ⟨decodes_of_decodeQuanta started whole,
    fun decodes => decodeQuanta_of_decodes decodes (by omega)⟩

/-! ## Encoding -/

def encodedByte (value : UInt8) : UInt8 := asciiByte (encodeSymbol value)

theorem decodeMap_encodedByte {value : UInt8} (small : value.toNat < 32) :
    decodeMap (encodedByte value) = some value := by
  have checked : ∀ n < 32, decodeMap (encodedByte (UInt8.ofNat n)) = some (UInt8.ofNat n) := by
    decide
  have listed := checked value.toNat small
  rwa [UInt8.ofNat_toNat] at listed

theorem mapped_encode {values : List UInt8} (small : ∀ value ∈ values, value.toNat < 32) :
    Mapped (values.map encodedByte) values := by
  induction values with
  | nil => exact .nil
  | cons value values ih =>
      rw [List.forall_mem_cons] at small
      exact .cons (decodeMap_encodedByte small.1) (ih small.2)

private theorem masked_small (value : UInt8) : (value &&& 0x1F).toNat < 32 := by
  rw [UInt8.toNat_and]
  exact Nat.lt_of_le_of_lt Nat.and_le_right (by decide)

private theorem shifted_small (value : UInt8) : (value >>> 3).toNat < 32 := by
  have bounded := value.toNat_lt
  rw [UInt8.toNat_shiftRight, Nat.shiftRight_eq_div_pow]
  simp
  omega

theorem encodeValues_small (src : List UInt8) : ∀ value ∈ encodeValues src, value.toNat < 32 := by
  induction src using encodeValues.induct with
  | case1 => simp [encodeValues]
  | case2 a =>
      simp only [encodeValues, List.forall_mem_cons, shifted_small, masked_small, true_and]
      exact List.forall_mem_nil _
  | case3 a b =>
      simp only [encodeValues, List.forall_mem_cons, shifted_small, masked_small, true_and]
      exact List.forall_mem_nil _
  | case4 a b c =>
      simp only [encodeValues, List.forall_mem_cons, shifted_small, masked_small, true_and]
      exact List.forall_mem_nil _
  | case5 a b c d =>
      simp only [encodeValues, List.forall_mem_cons, shifted_small, masked_small, true_and]
      exact List.forall_mem_nil _
  | case6 a b c d e rest ih =>
      simp only [encodeValues, List.cons_append, List.nil_append, List.forall_mem_cons]
      exact ⟨shifted_small _, masked_small _, masked_small _, masked_small _, masked_small _,
        masked_small _, masked_small _, masked_small _, ih⟩

theorem toBytes_five (a b c d e : UInt8) :
    toBytes 5 (a.toNat * 2 ^ 32 + b.toNat * 2 ^ 24 + c.toNat * 2 ^ 16 + d.toNat * 2 ^ 8 +
      e.toNat) = [a, b, c, d, e] := by
  have ha := a.toNat_lt
  have hb := b.toNat_lt
  have hc := c.toNat_lt
  have hd := d.toNat_lt
  have he := e.toNat_lt
  simp only [toBytes, List.cons.injEq, and_true, ← UInt8.toNat_inj, UInt8.toNat_ofNat']
  omega

/-- Five bytes and the eight symbols they become are one number. -/
theorem quantumBytes_encode (a b c d e : UInt8) :
    quantumBytes 0 ((encodeValues [a, b, c, d, e]).map UInt8.toNat) = [a, b, c, d, e] := by
  have hb := b.toNat_lt
  have hc := c.toNat_lt
  have hd := d.toNat_lt
  have he := e.toNat_lt
  have masked (n : Nat) : n &&& 31 = n % 32 := Nat.and_two_pow_sub_one_eq_mod n 5
  rw [quantumBytes_full]
  refine Eq.trans (congrArg (toBytes 5) ?_) (toBytes_five a b c d e)
  simp only [encodeValues, List.append_nil, accumulate, List.map_cons, List.map_nil,
    List.foldl_cons, List.foldl_nil, UInt8.toNat_or, UInt8.toNat_and, UInt8.toNat_shiftLeft,
    UInt8.toNat_shiftRight, UInt8.reduceToNat, Nat.reduceMod, Nat.shiftLeft_eq,
    Nat.shiftRight_eq_div_pow, Nat.reducePow, masked]
  rw [or_of_disjoint (b.toNat / 64) 2 (by omega) (by omega),
    or_of_disjoint (c.toNat / 16) 4 (by omega) (by omega),
    or_of_disjoint (d.toNat / 128) 1 (by omega) (by omega),
    or_of_disjoint (e.toNat / 32) 3 (by omega) (by omega)]
  omega

/-- A short quantum has the symbols of the one that is filled up with zeros. -/
theorem quantumBytes_short {values : List UInt8} {padding : Nat} {a b c d e : UInt8}
    (filled : values.map UInt8.toNat ++ List.replicate padding 0 =
      (encodeValues [a, b, c, d, e]).map UInt8.toNat) :
    quantumBytes padding (values.map UInt8.toNat) =
      [a, b, c, d, e].take ((43 - 5 * padding) / 8) := by
  have whole := quantumBytes_encode a b c d e
  rw [quantumBytes_full] at whole
  rw [quantumBytes, ← accumulate_zeros, filled, whole]

/-- How many symbols a text lacks of a multiple of eight. -/
def missing (count : Nat) : Nat := (8 - count % 8) % 8

theorem decodes_tail (padding : Nat) {src : List UInt8} {a b c d e : UInt8}
    (filled : (encodeValues src).map UInt8.toNat ++ List.replicate padding 0 =
      (encodeValues [a, b, c, d, e]).map UInt8.toNat)
    (counted : (encodeValues src).length + padding = 8) (legal : padding ∈ legalPadding)
    (front : [a, b, c, d, e].take ((43 - 5 * padding) / 8) = src) :
    Decoded ((encodeValues src).map encodedByte ++ List.replicate padding padChar) src := by
  have valued := (mapped_encode (encodeValues_small src)).valued
  have read : quantumBytes padding ((encodeValues src).map UInt8.toNat) = src :=
    (quantumBytes_short filled).trans front
  have last : Decoded ((encodeValues src).map encodedByte ++ List.replicate padding padChar)
      (quantumBytes padding ((encodeValues src).map UInt8.toNat)) :=
    .last valued (by rwa [List.length_map]) legal
  rwa [read] at last

/-- The text of a byte string, padded to a multiple of eight, stands for it. -/
theorem decodes_encode {src : List UInt8} (started : src ≠ []) :
    Decoded ((encodeValues src).map encodedByte ++
      List.replicate (missing (encodeValues src).length) padChar) src := by
  induction src using encodeValues.induct with
  | case1 => exact absurd rfl started
  | case2 a =>
      exact decodes_tail 6 (b := 0) (c := 0) (d := 0) (e := 0) (by simp [encodeValues]) rfl
        (by decide) rfl
  | case3 a b =>
      exact decodes_tail 4 (c := 0) (d := 0) (e := 0) (by simp [encodeValues]) rfl (by decide) rfl
  | case4 a b c =>
      exact decodes_tail 3 (d := 0) (e := 0) (by simp [encodeValues]) rfl (by decide) rfl
  | case5 a b c d =>
      exact decodes_tail 1 (e := 0) (by simp [encodeValues]) rfl (by decide) rfl
  | case6 a b c d e rest ih =>
      have block : encodeValues (a :: b :: c :: d :: e :: rest) =
          encodeValues [a, b, c, d, e] ++ encodeValues rest := rfl
      by_cases finished : rest = []
      · subst finished
        have whole : missing (encodeValues [a, b, c, d, e]).length = 0 := by
          simp [missing, encodeValues]
        rw [whole]
        exact decodes_tail 0 (List.append_nil _) rfl (by decide) rfl
      · have valued := (mapped_encode (encodeValues_small [a, b, c, d, e])).valued
        have more : Decoded ((encodeValues [a, b, c, d, e]).map encodedByte ++
            ((encodeValues rest).map encodedByte ++
              List.replicate (missing (encodeValues rest).length) padChar))
            (quantumBytes 0 ((encodeValues [a, b, c, d, e]).map UInt8.toNat) ++ rest) :=
          .more valued rfl (ih finished)
        have sameGap : missing (encodeValues (a :: b :: c :: d :: e :: rest)).length =
            missing (encodeValues rest).length := by
          rw [block, List.length_append]
          exact congrArg (fun odd => (8 - odd) % 8) (Nat.add_mod_left 8 _)
        rw [quantumBytes_encode, ← List.append_assoc, ← List.map_append, ← block] at more
        rw [sameGap]
        exact more

end Nexus.Go.Base32
