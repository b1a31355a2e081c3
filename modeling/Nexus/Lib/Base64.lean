import Mathlib.Data.Nat.Notation
import Mathlib.Data.List.Basic

/-! Base64 without its alphabets. Three bytes are four values of 6 bits; a rest
of one or two bytes is filled up with zero bits. A reader turns symbols back
into values, and reads a whole text or nothing. -/

set_option autoImplicit false

namespace Nexus.Lib.Base64

def values : List UInt8 → List ℕ
  | [] => []
  | [a] => [a.toNat / 4, a.toNat % 4 * 16]
  | [a, b] => [a.toNat / 4, a.toNat % 4 * 16 + b.toNat / 16, b.toNat % 16 * 4]
  | a :: b :: c :: rest =>
      a.toNat / 4 :: (a.toNat % 4 * 16 + b.toNat / 16) :: (b.toNat % 16 * 4 + c.toNat / 64) ::
        c.toNat % 64 :: values rest

/-- The bytes of the values. Bits that fill up no byte are dropped. -/
def octets : List ℕ → List UInt8
  | [] | [_] => []
  | [a, b] => [.ofNat (a * 4 + b / 16)]
  | [a, b, c] => [.ofNat (a * 4 + b / 16), .ofNat (b % 16 * 16 + c / 4)]
  | a :: b :: c :: d :: rest =>
      .ofNat (a * 4 + b / 16) :: .ofNat (b % 16 * 16 + c / 4) :: .ofNat (c % 4 * 64 + d) ::
        octets rest

theorem ofNat_eq {value : ℕ} {byte : UInt8} (same : value = byte.toNat) : .ofNat value = byte := by
  rw [same, UInt8.ofNat_toNat]

theorem octets_values (src : List UInt8) : octets (values src) = src := by
  induction src using values.induct with
  | case1 => rfl
  | case2 a =>
      have first := a.toNat_lt
      have byte : UInt8.ofNat (a.toNat / 4 * 4 + a.toNat % 4 * 16 / 16) = a := ofNat_eq (by omega)
      simp only [values, octets, byte]
  | case3 a b =>
      have first := a.toNat_lt
      have second := b.toNat_lt
      have byte : UInt8.ofNat (a.toNat / 4 * 4 + (a.toNat % 4 * 16 + b.toNat / 16) / 16) = a :=
        ofNat_eq (by omega)
      have next : UInt8.ofNat ((a.toNat % 4 * 16 + b.toNat / 16) % 16 * 16 +
          b.toNat % 16 * 4 / 4) = b := ofNat_eq (by omega)
      simp only [values, octets, byte, next]
  | case4 a b c rest ih =>
      have first := a.toNat_lt
      have second := b.toNat_lt
      have third := c.toNat_lt
      have byte : UInt8.ofNat (a.toNat / 4 * 4 + (a.toNat % 4 * 16 + b.toNat / 16) / 16) = a :=
        ofNat_eq (by omega)
      have next : UInt8.ofNat ((a.toNat % 4 * 16 + b.toNat / 16) % 16 * 16 +
          (b.toNat % 16 * 4 + c.toNat / 64) / 4) = b := ofNat_eq (by omega)
      have last : UInt8.ofNat ((b.toNat % 16 * 4 + c.toNat / 64) % 4 * 64 + c.toNat % 64) = c :=
        ofNat_eq (by omega)
      simp only [values, octets, byte, next, last, ih]

theorem values_small (src : List UInt8) : ∀ value ∈ values src, value < 64 := by
  induction src using values.induct with
  | case1 => exact List.forall_mem_nil _
  | case2 a =>
      have first := a.toNat_lt
      simp only [values, List.forall_mem_cons]
      exact ⟨by omega, by omega, List.forall_mem_nil _⟩
  | case3 a b =>
      have first := a.toNat_lt
      have second := b.toNat_lt
      simp only [values, List.forall_mem_cons]
      exact ⟨by omega, by omega, by omega, List.forall_mem_nil _⟩
  | case4 a b c rest ih =>
      have first := a.toNat_lt
      have second := b.toNat_lt
      have third := c.toNat_lt
      simp only [values, List.forall_mem_cons]
      exact ⟨by omega, by omega, by omega, by omega, ih⟩

/-- No byte's values are a single one, so none is left over. -/
theorem length_values_mod (src : List UInt8) : (values src).length % 4 ≠ 1 := by
  induction src using values.induct with
  | case1 => decide
  | case2 a => simp [values]
  | case3 a b => simp [values]
  | case4 a b c rest ih =>
      simp only [values, List.length_cons]
      omega

/-! ## Reading -/

section Reading

variable {α : Type} {symbol : ℕ → α} {value : α → Option ℕ}

/-- A reader that knows every symbol of a text reads its values. -/
theorem mapM_known {text : List ℕ} (known : ∀ n ∈ text, value (symbol n) = some n) :
    (text.map symbol).mapM value = some text := by
  induction text with
  | nil => rfl
  | cons n text ih =>
      rw [List.forall_mem_cons] at known
      rw [List.map_cons, List.mapM_cons, known.1, ih known.2]
      rfl

/-- A reader that misses one of them reads nothing. -/
theorem mapM_unknown {text : List ℕ} {n : ℕ} (listed : n ∈ text)
    (unknown : value (symbol n) = none) : (text.map symbol).mapM value = none := by
  induction text with
  | nil => exact absurd listed List.not_mem_nil
  | cons m text ih =>
      rw [List.map_cons, List.mapM_cons]
      cases read : value (symbol m) with
      | none => rfl
      | some k =>
          rcases List.mem_cons.mp listed with rfl | later
          · rw [unknown] at read
            cases read
          · rw [ih later]
            rfl

end Reading

/-! ## The last two symbols -/

/-- Among every three bytes the third one has small low bits. The offset is the
position of the first byte. -/
def ThirdsBelow (bound offset : ℕ) (src : List UInt8) : Prop :=
  ∀ numbered ∈ src.zipIdx offset, numbered.2 % 3 = 2 → numbered.1.toNat % 64 < bound

instance (bound offset : ℕ) (src : List UInt8) : Decidable (ThirdsBelow bound offset src) :=
  inferInstanceAs (Decidable (∀ numbered ∈ src.zipIdx offset, _))

theorem thirdsBelow_nil (bound offset : ℕ) : ThirdsBelow bound offset [] :=
  List.forall_mem_nil _

theorem thirdsBelow_cons (bound offset : ℕ) (byte : UInt8) (src : List UInt8) :
    ThirdsBelow bound offset (byte :: src) ↔
      (offset % 3 = 2 → byte.toNat % 64 < bound) ∧ ThirdsBelow bound (offset + 1) src := by
  rw [ThirdsBelow, List.zipIdx_cons, List.forall_mem_cons, ThirdsBelow]

theorem thirdsBelow_append (bound offset : ℕ) (front back : List UInt8) :
    ThirdsBelow bound offset (front ++ back) ↔
      ThirdsBelow bound offset front ∧ ThirdsBelow bound (offset + front.length) back := by
  rw [ThirdsBelow, List.zipIdx_append, List.forall_mem_append, ThirdsBelow, ThirdsBelow]

theorem thirdsBelow_of_all {bound : ℕ} {src : List UInt8}
    (small : ∀ byte ∈ src, byte.toNat % 64 < bound) (offset : ℕ) :
    ThirdsBelow bound offset src := by
  intro numbered listed _
  exact small numbered.1 (List.fst_mem_of_mem_zipIdx listed)

theorem thirdsBelow_mod (bound offset : ℕ) (src : List UInt8) :
    ThirdsBelow bound (offset % 3) src ↔ ThirdsBelow bound offset src := by
  induction src generalizing offset with
  | nil => exact iff_of_true (thirdsBelow_nil _ _) (thirdsBelow_nil _ _)
  | cons byte src ih =>
      have next := ih (offset % 3 + 1)
      rw [Nat.mod_add_mod, ih (offset + 1)] at next
      rw [thirdsBelow_cons, thirdsBelow_cons, Nat.mod_mod, next]

/-- In ASCII the symbols 62 and 63 are those of third bytes. -/
theorem values_below_iff {src : List UInt8} (ascii : ∀ byte ∈ src, byte < 0x80) :
    (∀ value ∈ values src, value < 62) ↔ ThirdsBelow 62 0 src := by
  induction src using values.induct with
  | case1 => exact iff_of_true (List.forall_mem_nil _) (thirdsBelow_nil _ _)
  | case2 a =>
      have first : a.toNat < 128 := ascii a (by simp)
      simp only [values, List.forall_mem_cons, thirdsBelow_cons]
      exact iff_of_true ⟨by omega, by omega, List.forall_mem_nil _⟩ ⟨by omega, thirdsBelow_nil _ _⟩
  | case3 a b =>
      have first : a.toNat < 128 := ascii a (by simp)
      have second : b.toNat < 128 := ascii b (by simp)
      simp only [values, List.forall_mem_cons, thirdsBelow_cons]
      exact iff_of_true ⟨by omega, by omega, by omega, List.forall_mem_nil _⟩
        ⟨by omega, by omega, thirdsBelow_nil _ _⟩
  | case4 a b c rest ih =>
      simp only [List.forall_mem_cons] at ascii
      obtain ⟨first, second, third, later⟩ := ascii
      replace first : a.toNat < 128 := first
      replace second : b.toNat < 128 := second
      replace third : c.toNat < 128 := third
      have start : ThirdsBelow 62 (0 + 1 + 1 + 1) rest ↔ ThirdsBelow 62 0 rest :=
        (thirdsBelow_mod 62 3 rest).symm
      simp only [values, List.forall_mem_cons, thirdsBelow_cons, start, ih later]
      constructor
      · rintro ⟨_, _, _, last, others⟩
        exact ⟨by omega, by omega, fun _ => last, others⟩
      · rintro ⟨_, _, last, others⟩
        exact ⟨by omega, by omega, by omega, last (by decide), others⟩

end Nexus.Lib.Base64
