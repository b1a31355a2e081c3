import Nexus.Go.Runtime

/-! How `time.Time.MarshalJSON` writes an instant in UTC: RFC 3339 with the
fraction of a second as short as possible. Years have four digits, so that an
instant before the year 0 or after the year 9999 is an error. -/

set_option autoImplicit false

namespace Nexus.Go

structure Date where
  year : Int
  month : Int
  day : Int

/-- The date a number of days after 1 January 1970. Years start in March here,
so that a leap day is the last of its year, and 400 of them are an era. -/
def dateOfDays (days : Int) : Date :=
  let shifted := days + 719468
  let era := shifted / 146097
  let dayOfEra := shifted % 146097
  let yearOfEra := (dayOfEra - dayOfEra / 1460 + dayOfEra / 36524 - dayOfEra / 146096) / 365
  let dayOfYear := dayOfEra - (365 * yearOfEra + yearOfEra / 4 - yearOfEra / 100)
  let monthOfYear := (5 * dayOfYear + 2) / 153
  let month := if monthOfYear < 10 then monthOfYear + 3 else monthOfYear - 9
  { year := 400 * era + yearOfEra + (if month ≤ 2 then 1 else 0)
    month := month
    day := dayOfYear - (153 * monthOfYear + 2) / 5 + 1 }

/-- A decimal numeral with leading zeros. -/
def padded (width : Nat) (value : Int) : List Char :=
  let digits := Nat.toDigits 10 value.toNat
  List.replicate (width - digits.length) '0' ++ digits

def formatDate (date : Date) : List Char :=
  padded 4 date.year ++ '-' :: padded 2 date.month ++ '-' :: padded 2 date.day

def daySeconds : Int := 24 * 3600

def formatClock (secondOfDay : Int) : List Char :=
  padded 2 (secondOfDay / 3600) ++ ':' :: padded 2 (secondOfDay / 60 % 60) ++
    ':' :: padded 2 (secondOfDay % 60)

/-- Nanoseconds without the zeros at the end. -/
def formatFraction (nanoseconds : Int) : List Char :=
  if nanoseconds = 0 then []
  else '.' :: ((padded 9 nanoseconds).reverse.dropWhile (· == '0')).reverse

def Time.date (t : Time) : Date := dateOfDays (Time.unix t / daySeconds)

/-- RFC3339Nano -/
def Time.format (t : Time) : List Char :=
  formatDate t.date ++ 'T' :: formatClock (Time.unix t % daySeconds) ++
    formatFraction (t % second) ++ ['Z']

/-- Whether the instant has a year of four digits. -/
def Time.marshals (t : Time) : Bool := 0 ≤ t.date.year && t.date.year ≤ 9999

example : Time.format 1700000000120000000 = "2023-11-14T22:13:20.12Z".toList := by decide

example : Time.format (-1) = "1969-12-31T23:59:59.999999999Z".toList := by decide

/-- What holds of the digits and the five marks holds of an instant. -/
theorem forall_format {holds : Char → Prop} (digits : ∀ c, c.isDigit = true → holds c)
    (marks : holds '-' ∧ holds 'T' ∧ holds ':' ∧ holds '.' ∧ holds 'Z') (t : Time) :
    ∀ c ∈ Time.format t, holds c := by
  obtain ⟨dash, tee, colon, point, zone⟩ := marks
  have numeral : ∀ width value, ∀ c ∈ padded width value, holds c := by
    intro width value c listed
    rcases List.mem_append.mp listed with zero | digit
    · rw [List.eq_of_mem_replicate zero]
      exact digits '0' rfl
    · exact digits c (Nat.isDigit_of_mem_toDigits (by decide) (by decide) digit)
  have fraction : ∀ c ∈ formatFraction (t % second), holds c := by
    unfold formatFraction
    split
    · exact List.forall_mem_nil _
    · rw [List.forall_mem_cons]
      refine ⟨point, fun c listed => numeral 9 (t % second) c ?_⟩
      have kept := (List.dropWhile_sublist _).subset (List.mem_reverse.mp listed)
      exact List.mem_reverse.mp kept
  simp only [Time.format, formatDate, formatClock, List.forall_mem_append,
    List.forall_mem_cons]
  refine ⟨⟨⟨?_, tee, ?_⟩, fraction⟩, zone, List.forall_mem_nil _⟩
  · exact ⟨⟨numeral 4 _, dash, numeral 2 _⟩, dash, numeral 2 _⟩
  · exact ⟨⟨numeral 2 _, colon, numeral 2 _⟩, colon, numeral 2 _⟩

end Nexus.Go
