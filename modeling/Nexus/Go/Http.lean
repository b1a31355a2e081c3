import Nexus.Go.Runtime

/-! JSON values, HTTP responses and `strconv.Atoi`. Objects list their fields
in the order `encoding/json` writes them: declaration order for a struct, key
order for a map. -/

set_option autoImplicit false

namespace Nexus.Go

inductive Json where
  | str (value : String)
  | num (value : Int)
  | bool (value : Bool)
  | time (value : Time)
  | arr (items : List Json)
  | obj (fields : List (String × Json))

/-- A string field tagged `omitempty`. -/
def Json.omitEmpty (name value : String) : List (String × Json) :=
  if value = "" then [] else [(name, .str value)]

inductive Body where
  | json (value : Json)
  | raw (text : String)

structure Response where
  status : Nat
  headers : List (String × String)
  body : Body

/-- `writeJSON`, of which the packages auth, audit and policy hold identical
copies, as they do of `writeError`. -/
def writeJSON (status : Nat) (value : Json) : Response where
  status := status
  headers := [("Content-Type", "application/json")]
  body := .json value

def writeError (status : Nat) (message : String) : Response :=
  writeJSON status (.obj [("error", .str message)])

@[simp] theorem writeJSON_status (status : Nat) (value : Json) :
    (writeJSON status value).status = status := rfl

@[simp] theorem writeError_status (status : Nat) (message : String) :
    (writeError status message).status = status := rfl

private def digitsValue (digits : List Char) : Nat :=
  digits.foldl (fun value c => 10 * value + (c.toNat - '0'.toNat)) 0

private def signOf : List Char → Int × List Char
  | '-' :: digits => (-1, digits)
  | '+' :: digits => (1, digits)
  | digits => (1, digits)

def atoi (s : String) : Option Int64 :=
  let (sign, digits) := signOf s.toList
  if digits.isEmpty || !digits.all Char.isDigit then none
  else
    let value := sign * (digitsValue digits : Int)
    if Int64.minValue.toInt ≤ value ∧ value ≤ Int64.maxValue.toInt then
      some (Int64.ofInt value)
    else none

private theorem signOf_digit {c : Char} (digit : c.isDigit = true) (cs : List Char) :
    signOf (c :: cs) = (1, c :: cs) := by
  unfold signOf
  split
  · rename_i shape
    cases shape
    exact absurd digit (by decide)
  · rename_i shape
    cases shape
    exact absurd digit (by decide)
  · rfl

/-- Every decimal of an `int` is read as its value. -/
theorem atoi_decimal (negative : Bool) (n : Nat) :
    atoi (String.ofList ((if negative then ['-'] else []) ++ Nat.toDigits 10 n)) =
      (let value : Int := (if negative then -1 else 1) * n
       if Int64.minValue.toInt ≤ value ∧ value ≤ Int64.maxValue.toInt then
         some (Int64.ofInt value)
       else none) := by
  have digits : ∀ c ∈ Nat.toDigits 10 n, c.isDigit = true := fun c member =>
    Nat.isDigit_of_mem_toDigits (by decide) (by decide) member
  have value : digitsValue (Nat.toDigits 10 n) = n := by
    have read : Nat.ofDigitChars 10 (Nat.toDigits 10 n) 0 = n := Nat.ofDigitChars_ten_toDigits
    rwa [Nat.ofDigitChars_eq_foldl] at read
  have all : (Nat.toDigits 10 n).all Char.isDigit = true := List.all_eq_true.mpr digits
  have split : signOf ((if negative then ['-'] else []) ++ Nat.toDigits 10 n) =
      (if negative then -1 else 1, Nat.toDigits 10 n) := by
    cases negative with
    | true => rfl
    | false =>
        cases shape : Nat.toDigits 10 n with
        | nil => rfl
        | cons c cs => exact signOf_digit (digits c (shape ▸ List.mem_cons_self)) cs
  have nonempty : (Nat.toDigits 10 n).isEmpty = false := by
    rw [List.isEmpty_eq_false_iff]
    exact Nat.toDigits_ne_nil
  simp only [atoi, String.toList_ofList, split, nonempty, all, value]
  rfl

end Nexus.Go
