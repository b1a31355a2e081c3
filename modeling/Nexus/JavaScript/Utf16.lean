import Nexus.JavaScript.Strings

/-! The code points that code units stand for. A high surrogate and the low one
after it are one code point; a surrogate without the other, which a string may
hold, becomes the replacement character wherever text leaves the program. -/

set_option autoImplicit false

namespace Nexus.JavaScript

def isHigh (unit : ℕ) : Bool := decide (0xD800 ≤ unit) && decide (unit < 0xDC00)

def isLow (unit : ℕ) : Bool := decide (0xDC00 ≤ unit) && decide (unit < 0xE000)

def isSurrogate (point : ℕ) : Bool := isHigh point || isLow point

def combine (high low : ℕ) : ℕ := 0x10000 + 0x400 * (high - 0xD800) + (low - 0xDC00)

/-- `StringToCodePoints`, where code points above 0xFFFF stand for themselves. -/
def points : List ℕ → List ℕ
  | [] => []
  | [unit] => [unit]
  | unit :: next :: rest =>
      if isHigh unit && isLow next then combine unit next :: points rest
      else unit :: points (next :: rest)

def replacement : Char := Char.ofNat 0xFFFD

def scalar (point : ℕ) : Char := if isSurrogate point then replacement else Char.ofNat point

def scalars (units : List ℕ) : List Char := (points units).map scalar

def toText (units : List ℕ) : String := String.ofList (scalars units)

/-! ## Surrogates -/

theorem isHigh_iff {unit : ℕ} : isHigh unit = true ↔ 0xD800 ≤ unit ∧ unit < 0xDC00 := by
  rw [isHigh, Bool.and_eq_true, decide_eq_true_eq, decide_eq_true_eq]

theorem isLow_iff {unit : ℕ} : isLow unit = true ↔ 0xDC00 ≤ unit ∧ unit < 0xE000 := by
  rw [isLow, Bool.and_eq_true, decide_eq_true_eq, decide_eq_true_eq]

theorem isSurrogate_iff {point : ℕ} :
    isSurrogate point = true ↔ 0xD800 ≤ point ∧ point < 0xE000 := by
  rw [isSurrogate, Bool.or_eq_true, isHigh_iff, isLow_iff]
  omega

theorem isSurrogate_combine (high low : ℕ) : isSurrogate (combine high low) = false := by
  have high : 0x10000 ≤ combine high low := by
    unfold combine
    omega
  rw [Bool.eq_false_iff, Ne, isSurrogate_iff]
  omega

theorem toNat_valid (c : Char) :
    c.toNat < 0xD800 ∨ 0xDFFF < c.toNat ∧ c.toNat < 0x110000 := c.valid

/-- A character is no surrogate. -/
theorem isSurrogate_toNat (c : Char) : isSurrogate c.toNat = false := by
  have valid := toNat_valid c
  rw [Bool.eq_false_iff, Ne, isSurrogate_iff]
  omega

theorem not_isHigh {point : ℕ} (plain : isSurrogate point = false) : isHigh point = false :=
  (Bool.or_eq_false_iff.mp plain).1

theorem scalar_toNat (c : Char) : scalar c.toNat = c := by
  rw [scalar, isSurrogate_toNat, if_neg Bool.false_ne_true, Char.ofNat_toNat]

/-! ## Code points -/

theorem points_pair {high low : ℕ} (front : isHigh high = true) (back : isLow low = true)
    (rest : List ℕ) : points (high :: low :: rest) = combine high low :: points rest := by
  rw [points, front, back]
  rfl

/-- A unit that no pair begins with. -/
theorem points_alone {unit : ℕ} {rest : List ℕ}
    (alone : ∀ next, rest.head? = some next → (isHigh unit && isLow next) = false) :
    points (unit :: rest) = unit :: points rest := by
  cases rest with
  | nil => rfl
  | cons next after =>
      rw [points, alone next rfl]
      rfl

theorem points_plain {point : ℕ} (plain : isSurrogate point = false) (rest : List ℕ) :
    points (point :: rest) = point :: points rest := by
  apply points_alone
  intro next _
  rw [not_isHigh plain]
  rfl

/-- The first code point is the first unit or the pair that it begins. -/
theorem points_head? (unit : ℕ) (rest : List ℕ) :
    ∃ point, (points (unit :: rest)).head? = some point ∧
      (point = unit ∨ isSurrogate point = false) := by
  cases rest with
  | nil => exact ⟨unit, rfl, .inl rfl⟩
  | cons next rest =>
      rw [points]
      split
      · exact ⟨combine unit next, rfl, .inr (isSurrogate_combine unit next)⟩
      · exact ⟨unit, rfl, .inl rfl⟩

/-- No two code points in a row are a pair. -/
theorem points_points (units : List ℕ) : points (points units) = points units := by
  induction units using points.induct with
  | case1 => rfl
  | case2 unit => rfl
  | case3 unit next rest pair ih =>
      rw [points, if_pos pair, points_plain (isSurrogate_combine unit next), ih]
  | case4 unit next rest alone ih =>
      obtain ⟨point, head, first⟩ := points_head? next rest
      rw [points, if_neg alone, points_alone, ih]
      intro other same
      rw [head] at same
      cases same
      rcases first with rfl | plain
      · exact Bool.eq_false_iff.mpr alone
      · rw [(Bool.or_eq_false_iff.mp plain).2, Bool.and_false]

theorem toText_points (units : List ℕ) : toText (points units) = toText units := by
  rw [toText, scalars, points_points]
  rfl

theorem points_codeUnits (c : Char) (rest : List ℕ) :
    points (codeUnits c ++ rest) = c.toNat :: points rest := by
  by_cases narrow : c.toNat < 0x10000
  · rw [codeUnits, if_pos narrow]
    exact points_plain (isSurrogate_toNat c) rest
  · have valid := toNat_valid c
    have whole : combine (0xD800 + (c.toNat - 0x10000) / 0x400)
        (0xDC00 + (c.toNat - 0x10000) % 0x400) = c.toNat := by
      unfold combine
      omega
    rw [codeUnits, if_neg narrow]
    change points (_ :: _ :: rest) = _
    rw [points_pair (isHigh_iff.mpr (by omega)) (isLow_iff.mpr (by omega)), whole]

theorem toText_ofString (s : String) : toText (ofString s) = s := by
  have whole : ∀ cs : List Char, points (cs.flatMap codeUnits) = cs.map Char.toNat := by
    intro cs
    induction cs with
    | nil => rfl
    | cons c cs ih => rw [List.flatMap_cons, points_codeUnits, ih, List.map_cons]
  have same : ∀ cs : List Char, (cs.map Char.toNat).map scalar = cs := by
    intro cs
    rw [List.map_map]
    exact List.map_id'' scalar_toNat cs
  rw [toText, scalars, ofString, whole, same, String.ofList_toList]

theorem ofString_injective : Function.Injective ofString := by
  intro s other same
  rw [← toText_ofString s, same, toText_ofString]

end Nexus.JavaScript
