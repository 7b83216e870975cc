import CustomerSegments.Proofs.TimeText

namespace CustomerSegments

namespace Timestamp

open Decimal

/-- A mark of the zone that stands for Greenwich and cannot be part of a fraction. -/
structure NamesGreenwich (mark : List Char) : Prop where
  ends : EndsFraction mark
  zone : zone (expect ':') mark = some (0, [])

theorem namesGreenwich_zulu : NamesGreenwich ['Z'] := by
  refine ⟨⟨fun c same => ?_, by decide⟩, by decide⟩
  cases same
  rfl

theorem namesGreenwich_offset : NamesGreenwich ['+', '0', '0', ':', '0', '0'] := by
  refine ⟨⟨fun c same => ?_, by decide⟩, by decide⟩
  cases same
  rfl

/-- A text with every field in its full width is read field by field. -/
theorem strict?_fields {between : Char} {point zoned : List Char} {nano : Nat} {offset : Int}
    (year month day hour minute second : Nat) (smallYear : year < 10000) (smallMonth : month < 100)
    (smallDay : day < 100) (smallHour : hour < 100) (smallMinute : minute < 100) (smallSecond : second < 100)
    (marked : ∀ rest, timeMark (between :: rest) = some rest) (fractional : fraction (point ++ zoned) = some (nano, zoned))
    (ahead : zone (expect ':') zoned = some (offset, [])) :
    strict? (padded 4 year ++ '-' :: (padded 2 month ++ '-' :: (padded 2 day ++ between :: (padded 2 hour ++
      ':' :: (padded 2 minute ++ ':' :: (padded 2 second ++ (point ++ zoned))))))) =
      some ⟨⟨year, month, day⟩, hour, minute, second, nano, offset⟩ := by
  have field {n : Nat} (small : n < 100) (rest : List Char) : take? 2 2 (padded 2 n ++ rest) = some (n, rest) :=
    take?_padded (by decide) (by decide) small rest
  unfold strict?
  refine bind_of_eq_some (take?_padded (by decide) (by decide) smallYear _) (bind_of_eq_some rfl ?_)
  refine bind_of_eq_some (field smallMonth _) (bind_of_eq_some rfl ?_)
  refine bind_of_eq_some (field smallDay _) (bind_of_eq_some (marked _) ?_)
  refine bind_of_eq_some (field smallHour _) (bind_of_eq_some rfl ?_)
  refine bind_of_eq_some (field smallMinute _) (bind_of_eq_some rfl ?_)
  refine bind_of_eq_some (field smallSecond _) ?_
  exact bind_of_eq_some fractional (bind_of_eq_some ahead rfl)

end Timestamp

namespace Instant

open Timestamp

/-- The year of an instant has at most four digits and no sign. -/
def PlainYear (t : Instant) : Prop :=
  0 ≤ t.date.year ∧ t.date.year ≤ 9999

instance (t : Instant) : Decidable t.PlainYear :=
  inferInstanceAs (Decidable (_ ∧ _))

variable {t : Instant} {mark : List Char}

theorem strict?_chars (greenwich : NamesGreenwich mark) (plain : t.PlainYear) :
    strict? (t.chars mark) = some (ofInstant t) := by
  have today : t.secondOfDay < 86400 := by
    rw [secondOfDay]
    omega
  have leap := t.nano_lt
  obtain ⟨least, most⟩ := plain
  obtain ⟨month, day⟩ := date_bounds t
  have year : (t.date.year.toNat : Int) = t.date.year := Int.toNat_of_nonneg least
  have marked (rest : List Char) : timeMark ('T' :: rest) = some rest := rfl
  have read := strict?_fields t.date.year.toNat t.date.month t.date.day (t.secondOfDay / 3600)
    (t.secondOfDay / 60 % 60) (t.secondOfDay % 60 + t.nano / 1000000000) (by omega) month day (by omega) (by omega)
    (by omega) marked (fraction_fractionText (Nat.mod_lt t.nano (by decide)) greenwich.ends) greenwich.zone
  have whole (date : Date) : (⟨date.year, date.month, date.day⟩ : Date) = date := rfl
  rw [year, whole] at read
  rw [chars_eq, yearText, if_pos ⟨least, most⟩]
  exact read

/-- No field stands in front of a sign. -/
theorem strict?_chars_of_signed (signed : ¬ t.PlainYear) : strict? (t.chars mark) = none := by
  have front (c : Char) (unlike : Decimal.isDigit c = false) (cs : List Char) : strict? (c :: cs) = none := by
    have none : Decimal.take? 4 4 (c :: cs) = none := by
      rw [Decimal.take?, List.take_succ_cons, List.takeWhile_cons_of_neg (by simp [unlike])]
      rfl
    rw [strict?, none]
    rfl
  unfold PlainYear at signed
  rw [chars_eq, yearText, if_neg signed, List.cons_append]
  split
  · exact front '-' rfl _
  · exact front '+' rfl _

/-- The strict reading of an instant's text is that instant if its year needs no sign, and none otherwise. -/
theorem ofStrict?_chars (t : Instant) (greenwich : NamesGreenwich mark) :
    ofStrict? (String.ofList (t.chars mark)) = if t.PlainYear then some t else none := by
  rw [ofStrict?, String.toList_ofList]
  split
  · next plain =>
    rw [strict?_chars greenwich plain, Option.bind_some, instant?_ofInstant]
  · next signed =>
    rw [strict?_chars_of_signed signed]
    rfl

theorem ofStrict?_text (t : Instant) : ofStrict? t.text = if t.PlainYear then some t else none :=
  t.ofStrict?_chars namesGreenwich_zulu

theorem ofStrict?_filterText (t : Instant) : ofStrict? t.filterText = if t.PlainYear then some t else none :=
  t.ofStrict?_chars namesGreenwich_offset

end Instant

end CustomerSegments
