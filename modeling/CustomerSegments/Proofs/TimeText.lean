import CustomerSegments.Proofs.CalendarDays
import CustomerSegments.Proofs.JsonDecoding
import CustomerSegments.Time.Text
import Mathlib.Algebra.Group.Nat.Defs

namespace CustomerSegments

theorem Text.isBlank_of_isDigit {c : Char} (digit : Decimal.isDigit c = true) : isBlank c = false := by
  have least : 48 ≤ c.toNat := by
    have := Char.le_def.1 (of_decide_eq_true (Bool.and_eq_true_iff.1 digit).1)
    exact UInt32.le_iff_toNat_le.1 this
  have most : c.toNat ≤ 57 := by
    have := Char.le_def.1 (of_decide_eq_true (Bool.and_eq_true_iff.1 digit).2)
    exact UInt32.le_iff_toNat_le.1 this
  simp [isBlank]
  omega

theorem Text.trimStart_padded (width n : Nat) (rest : List Char) :
    trimStart (Decimal.padded width n ++ rest) = Decimal.padded width n ++ rest := by
  obtain ⟨c, cs, shape, digit⟩ := Decimal.exists_padded_eq_cons width n
  rw [shape]
  exact trimStart_of_not_blank (isBlank_of_isDigit digit)

namespace Instant

open Decimal

/-- The text of an instant, field after field. -/
theorem chars_eq (zone : List Char) (t : Instant) :
    t.chars zone = yearText t.date.year ++ '-' :: (padded 2 t.date.month ++ '-' :: (padded 2 t.date.day ++
      'T' :: (padded 2 (t.secondOfDay / 3600) ++ ':' :: (padded 2 (t.secondOfDay / 60 % 60) ++
        ':' :: (padded 2 (t.secondOfDay % 60 + t.nano / 1000000000) ++
          (fractionText (t.nano % 1000000000) ++ zone)))))) := by
  -- Over variables, for the kernel would unfold the fields to compare the parts.
  have parts (y m d h n s f : List Char) :
      y ++ '-' :: m ++ '-' :: d ++ 'T' :: h ++ ':' :: n ++ ':' :: s ++ f ++ zone =
        y ++ '-' :: (m ++ '-' :: (d ++ 'T' :: (h ++ ':' :: (n ++ ':' :: (s ++ (f ++ zone)))))) := by
    simp only [List.append_assoc, List.cons_append]
  exact parts _ _ _ _ _ _ _

end Instant

namespace Timestamp

open Decimal

/-- Neither a digit nor a point follows. -/
def EndsFraction (cs : List Char) : Prop :=
  Stops cs ∧ cs.head? ≠ some '.'

theorem freeField_padded {n : Nat} (small : n < 100) (rest : List Char) :
    freeField (padded 2 n ++ rest) = some (n, rest) := by
  rw [freeField, Text.trimStart_padded]
  exact take?_padded (by decide) (by decide) small rest

theorem freeYear_of_digit {c : Char} (digit : isDigit c = true) (cs : List Char) :
    freeYear (c :: cs) = (take? 1 4 (c :: cs)).map fun (n, cs) => ((n : Int), cs) := by
  unfold freeYear
  split
  · next same =>
    cases same
    cases digit
  · next same =>
    cases same
    cases digit
  · rfl

theorem freeYear_yearText (year : Int) {rest : List Char} (stops : Stops rest) :
    freeYear (Instant.yearText year ++ rest) = some (year, rest) := by
  have answer {y : Int} (same : y = year) : some (y, rest) = some (year, rest) := by rw [same]
  unfold Instant.yearText
  split
  · next plain =>
    have wide : (padded 4 year.toNat).length = 4 := length_padded (by decide) (by omega)
    have taken := take?_append 1 4 (all_isDigit_padded 4 year.toNat) (by omega) (by omega) stops
    obtain ⟨c, cs, shape, digit⟩ := exists_padded_eq_cons 4 year.toNat
    have unsigned := freeYear_of_digit digit (cs ++ rest)
    rw [← List.cons_append, ← shape, taken, ofDigits_padded] at unsigned
    exact unsigned.trans (answer (Int.toNat_of_nonneg plain.1))
  · have long : 1 ≤ (padded 4 year.natAbs).length := by
      rw [Nat.one_le_iff_ne_zero, ne_eq, List.length_eq_zero_iff]
      exact padded_ne_nil _ _
    have taken := take?_append 1 (padded 4 year.natAbs ++ rest).length
      (all_isDigit_padded 4 year.natAbs) long (by rw [List.length_append]; omega) stops
    rw [ofDigits_padded] at taken
    split
    · have value : -(year.natAbs : Int) = year := by omega
      rw [List.cons_append, freeYear, taken]
      exact answer value
    · have value : (year.natAbs : Int) = year := by omega
      rw [List.cons_append, freeYear, taken]
      exact answer value

theorem fraction_point {width n : Nat} (wide : 0 < width) (narrow : width ≤ 9) (fits : n < 10 ^ width)
    {rest : List Char} (stops : Stops rest) :
    fraction ('.' :: padded width n ++ rest) = some (n * 10 ^ (9 - width), rest) := by
  have digits := all_isDigit_padded width n
  have length := length_padded wide fits
  have taken := take?_append 1 9 digits (by omega) (by omega) stops
  rw [ofDigits_padded] at taken
  rw [List.cons_append, fraction, takeWhile_isDigit digits stops, dropWhile_isDigit digits stops, taken, length,
    Nat.min_eq_right narrow]
  rfl

theorem fraction_fractionText {nano : Nat} (short : nano < 1000000000) {rest : List Char} (ends : EndsFraction rest) :
    fraction (Instant.fractionText nano ++ rest) = some (nano, rest) := by
  unfold Instant.fractionText
  split
  · next none =>
    subst none
    cases rest with
    | nil => rfl
    | cons c cs =>
      have other : c ≠ '.' := fun same => ends.2 (congrArg some same)
      unfold fraction
      split
      · next same => cases same; exact absurd rfl other
      · rfl
  · split
    · rw [fraction_point (by decide) (by decide) (by omega) ends.1]
      congr 2
      omega
    · split
      · rw [fraction_point (by decide) (by decide) (by omega) ends.1]
        congr 2
        omega
      · rw [fraction_point (by decide) (by decide) (by omega) ends.1]
        congr 2
        omega

theorem freeMark_hyphen (cs : List Char) : freeMark '-' ('-' :: cs) = some cs := rfl

theorem freeMark_colon (cs : List Char) : freeMark ':' (':' :: cs) = some cs := rfl

/-- The fields of an instant in Greenwich. -/
def ofInstant (t : Instant) : Timestamp where
  date := t.date
  hour := t.secondOfDay / 3600
  minute := t.secondOfDay / 60 % 60
  second := t.secondOfDay % 60 + t.nano / 1000000000
  nano := t.nano % 1000000000
  offset := 0

theorem trimStart_yearText (year : Int) (rest : List Char) :
    Text.trimStart (Instant.yearText year ++ rest) = Instant.yearText year ++ rest := by
  unfold Instant.yearText
  split
  · exact Text.trimStart_padded _ _ _
  · split <;> rfl

theorem date_bounds (t : Instant) : t.date.month < 100 ∧ t.date.day < 100 := by
  obtain ⟨_, month, _, day⟩ := Date.valid_ofDays (t.second / 86400)
  have longest : Date.monthLength t.date.year t.date.month ≤ 31 := by
    unfold Date.monthLength
    split
    · split <;> decide
    · split <;> decide
  exact ⟨Nat.lt_of_le_of_lt month (by decide), Nat.lt_of_le_of_lt (Nat.le_trans day longest) (by decide)⟩

section

variable {α β : Type} {x : Option α} {f : α → Option β} {a : α} {b : β}

theorem bind_of_eq_some (first : x = some a) (rest : f a = some b) : (x >>= f) = some b :=
  Option.bind_eq_some_iff.2 ⟨a, first, rest⟩

end

/-- A text with every field in its place is read field by field. -/
theorem lenient?_fields (date : Date) {hour minute second nano : Nat} (smallMonth : date.month < 100)
    (smallDay : date.day < 100) (smallHour : hour < 100) (smallMinute : minute < 100) (smallSecond : second < 100)
    (smallNano : nano < 1000000000) :
    lenient? (Instant.yearText date.year ++ '-' :: (padded 2 date.month ++ '-' :: (padded 2 date.day ++
      'T' :: (padded 2 hour ++ ':' :: (padded 2 minute ++ ':' :: (padded 2 second ++
        (Instant.fractionText nano ++ ['Z']))))))) =
      some ⟨date, hour, minute, second, nano, 0⟩ := by
  have hyphen (rest : List Char) : Stops ('-' :: rest) := fun c same => by
    cases same
    rfl
  have zulu : EndsFraction ['Z'] := by
    refine ⟨fun c same => ?_, by decide⟩
    cases same
    rfl
  have zone : freeZone (Text.trimStart ['Z']) = some (0, []) := by decide
  have first (rest : List Char) :
      freeYear (Text.trimStart (Instant.yearText date.year ++ '-' :: rest)) = some (date.year, '-' :: rest) := by
    rw [trimStart_yearText]
    exact freeYear_yearText date.year (hyphen rest)
  unfold lenient?
  refine bind_of_eq_some (first _) (bind_of_eq_some (freeMark_hyphen _) ?_)
  refine bind_of_eq_some (freeField_padded smallMonth _) (bind_of_eq_some (freeMark_hyphen _) ?_)
  refine bind_of_eq_some (freeField_padded smallDay _) (bind_of_eq_some rfl ?_)
  refine bind_of_eq_some (freeField_padded smallHour _) (bind_of_eq_some (freeMark_colon _) ?_)
  refine bind_of_eq_some (freeField_padded smallMinute _) (bind_of_eq_some (freeMark_colon _) ?_)
  refine bind_of_eq_some (freeField_padded smallSecond _) ?_
  exact bind_of_eq_some (fraction_fractionText smallNano zulu) (bind_of_eq_some zone rfl)

theorem lenient?_chars (t : Instant) : lenient? (t.chars ['Z']) = some (ofInstant t) := by
  have today : t.secondOfDay < 86400 := by
    rw [Instant.secondOfDay]
    omega
  have leap := t.nano_lt
  obtain ⟨month, day⟩ := date_bounds t
  rw [Instant.chars_eq]
  exact lenient?_fields t.date month day (by omega) (by omega) (by omega) (by omega)

end Timestamp

namespace Instant

/-- The fields of an instant name it. -/
theorem instant?_ofInstant (t : Instant) : (Timestamp.ofInstant t).instant? = some t := by
  have first := t.first_le
  have last := t.le_last
  have leap := t.leap
  have short := t.nano_lt
  have valid := Date.valid_ofDays (t.second / 86400)
  have early : -96465292 ≤ t.second / 86400 := by omega
  have late : t.second / 86400 ≤ 95026236 := by omega
  obtain ⟨least, most⟩ := Date.year_ofDays_bounds early late
  have days := Date.toDays_ofDays (t.second / 86400)
  have today : t.secondOfDay = (t.second % 86400).toNat := rfl
  have hour : t.secondOfDay / 3600 < 24 := by omega
  have minute : t.secondOfDay / 60 % 60 < 60 := by omega
  have second : t.secondOfDay % 60 + t.nano / 1000000000 ≤ 60 := by omega
  have leapt : (t.secondOfDay % 60 + t.nano / 1000000000) / 60 = t.nano / 1000000000 := by omega
  have seconds : 86400 * t.date.toDays + ((3600 * (t.secondOfDay / 3600) + 60 * (t.secondOfDay / 60 % 60) +
      (t.secondOfDay % 60 + t.nano / 1000000000 - t.nano / 1000000000) : Nat) : Int) - 60 * 0 = t.second := by
    rw [show t.date.toDays = t.second / 86400 from days]
    omega
  have nanos : t.nano % 1000000000 + 1000000000 * (t.nano / 1000000000) = t.nano := Nat.mod_add_div _ _
  have greenwich : (-1440 : Int) < 0 ∧ (0 : Int) < 1440 := by decide
  unfold Timestamp.instant?
  refine (if_pos ⟨valid, least, most, hour, minute, second, greenwich⟩).trans ?_
  simp only [Timestamp.ofInstant, leapt, seconds, nanos]
  exact dif_pos ⟨first, last, short, leap⟩

/-- The text of an instant in a document names it. -/
theorem ofText?_text (t : Instant) : ofText? t.text = some t := by
  rw [ofText?, text, String.toList_ofList, Timestamp.lenient?_chars, Option.bind_some, instant?_ofInstant]

theorem chars_eq_append (zone : List Char) (t : Instant) : t.chars zone = t.chars [] ++ zone :=
  congrArg (· ++ zone) (List.append_nil _).symm

/-- The text of an instant in a filter tells it from all others. -/
theorem filterText_injective : Function.Injective filterText := by
  intro t u same
  have chars : t.chars [] = u.chars [] := by
    have same := String.ofList_injective same
    rw [chars_eq_append, chars_eq_append _ u] at same
    exact List.append_cancel_right same
  have text : t.text = u.text := by rw [text, text, chars_eq_append, chars_eq_append _ u, chars]
  exact Option.some.inj (by rw [← ofText?_text, text, ofText?_text])

theorem decoder_ofJson (t : Instant) {source : Json.Source} : decoder source (.ofJson t.toJson) = .ok t :=
  Json.Decoder.check_of_ok rfl (ofText?_text t)

end Instant

end CustomerSegments
