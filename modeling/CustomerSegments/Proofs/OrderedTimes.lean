import CustomerSegments.Proofs.AgeCutoffs
import CustomerSegments.Proofs.RuleTests
import CustomerSegments.Proofs.StrictTimes
import CustomerSegments.Proofs.StringOrder

namespace CustomerSegments

namespace Text

/-- What is left of a text when blank characters are trimmed reaches from its first to its last solid character. -/
theorem trimChars_of_solid {c d : Char} (first : isBlank c = false) (last : isBlank d = false) (inner rest : List Char) :
    ∃ kept, trimChars (c :: inner ++ d :: rest) = c :: inner ++ d :: kept := by
  have solid : trimStart (d :: (c :: inner).reverse) = d :: (c :: inner).reverse := trimStart_of_not_blank last
  have shape : (c :: inner ++ d :: rest).reverse = rest.reverse ++ d :: (c :: inner).reverse := by
    rw [List.reverse_append, List.reverse_cons, List.append_assoc, List.singleton_append]
  have trimmed : ∃ behind, trimStart (rest.reverse ++ d :: (c :: inner).reverse) = behind ++ d :: (c :: inner).reverse := by
    rw [trimStart, List.dropWhile_append]
    split
    · exact ⟨[], solid⟩
    · exact ⟨_, rfl⟩
  obtain ⟨behind, trimmed⟩ := trimmed
  refine ⟨behind.reverse, ?_⟩
  rw [trimChars, List.cons_append, trimStart_of_not_blank first, ← List.cons_append, shape, trimmed, List.reverse_append,
    List.reverse_cons, List.reverse_reverse, List.append_assoc, List.singleton_append]

end Text

section

variable {ds rest : List Char}

open Decimal

theorem Decimal.int64?_of_hyphen (some : ds ≠ []) (digits : ds.all isDigit = true) : int64? (ds ++ '-' :: rest) = none := by
  obtain ⟨d, ds, rfl⟩ := List.exists_cons_of_ne_nil some
  rw [List.all_cons, Bool.and_eq_true] at digits
  rw [Option.eq_none_iff_forall_ne_some]
  intro n read
  have hyphen : '-' ∈ d :: ds ++ '-' :: rest := List.mem_append_right _ List.mem_cons_self
  generalize shape : d :: ds ++ '-' :: rest = cs at read hyphen
  cases (int64?_eq_some_iff.1 read).1 with
  | unsigned _ all => exact absurd (List.all_eq_true.1 all _ hyphen) (by decide)
  | plus _ _ | minus _ _ =>
    rw [List.cons_append, List.cons.injEq] at shape
    rw [shape.1] at digits
    exact absurd digits.1 (by decide)

theorem Decimal.toLower_of_isDigit {c : Char} (digit : isDigit c = true) : c.toLower = c := by
  have most := Char.le_def.1 (of_decide_eq_true (Bool.and_eq_true_iff.1 digit).2)
  have most := UInt32.le_iff_toNat_le.1 most
  refine dif_neg ?_
  rintro ⟨least, _⟩
  have least := UInt32.le_iff_toNat_le.1 least
  exact absurd (Nat.le_trans least most) (by decide)

/-- Behind the digits of a decimal stands a point, an exponent or nothing. -/
theorem Decimal.float?_of_hyphen (some : ds ≠ []) (digits : ds.all isDigit = true) : float? (ds ++ '-' :: rest) = none := by
  have stops : Stops ('-' :: rest) := fun c same => by
    cases same
    rfl
  have whole := takeWhile_isDigit digits stops
  have behind := dropWhile_isDigit digits stops
  obtain ⟨d, ds, rfl⟩ := List.exists_cons_of_ne_nil some
  have digit : isDigit d = true := (Bool.and_eq_true_iff.1 (List.all_cons ▸ digits)).1
  have unlike {c : Char} (mark : isDigit c = false) (word : List Char) :
      (d :: ds ++ '-' :: rest).map Char.toLower ≠ c :: word := by
    rw [List.cons_append, List.map_cons, toLower_of_isDigit digit]
    intro same
    rw [(List.cons.inj same).1, mark] at digit
    cases digit
  have unsigned : Literal.ofUnsigned? false (d :: ds ++ '-' :: rest) = none := by
    simp only [Literal.ofUnsigned?, whole, behind, List.isEmpty_cons, Bool.false_and]
    rfl
  unfold float?
  split
  next negative text shape =>
    have signless : false = negative ∧ d :: ds ++ '-' :: rest = text := by
      rw [← Prod.mk.injEq, ← shape]
      split
      · next same =>
        rw [(List.cons.inj same).1] at digit
        cases digit
      · next same =>
        rw [(List.cons.inj same).1] at digit
        cases digit
      · rfl
    obtain ⟨rfl, rfl⟩ := signless
    dsimp only
    rw [if_neg (not_or.2 ⟨unlike rfl _, unlike rfl _⟩), if_neg (unlike rfl _), unsigned]
    rfl

/-- A text that begins with digits and a hyphen writes no number. -/
theorem numberIn?_of_hyphen {s : String} (some : ds ≠ []) (digits : ds.all isDigit = true)
    (shape : s.toList = ds ++ '-' :: rest) : numberIn? s = none := by
  have solid : Text.isBlank '-' = false := by decide
  obtain ⟨d, inner, rfl⟩ := List.exists_cons_of_ne_nil some
  have digit : isDigit d = true := (Bool.and_eq_true_iff.1 (List.all_cons ▸ digits)).1
  obtain ⟨kept, trimmed⟩ := Text.trimChars_of_solid (Text.isBlank_of_isDigit digit) solid inner rest
  simp only [numberIn?, shape, trimmed, int64?_of_hyphen some digits, float?_of_hyphen some digits]
  rfl

end

namespace Timestamp

open Decimal

/-- The digits of a fraction write its first nine places, as nanoseconds. -/
inductive WritesFraction : List Char → Nat → Prop
  | whole : WritesFraction [] 0
  | digits {ds : List Char} (some : ds ≠ []) (digits : ds.all isDigit = true) :
      WritesFraction ('.' :: ds) (ofDigits (ds.take 9) * 10 ^ (9 - ds.length))

/-- The mark of a zone: `Z` for Greenwich, or the hours and minutes ahead of it or behind it. -/
inductive WritesZone : List Char → Int → Prop
  | greenwich {c : Char} (letter : c = 'Z' ∨ c = 'z') : WritesZone [c] 0
  | ahead {hours minutes : Nat} (day : hours < 24) (hour : minutes < 60) :
      WritesZone ('+' :: (padded 2 hours ++ ':' :: padded 2 minutes)) (60 * hours + minutes)
  | behind {hours minutes : Nat} (day : hours < 24) (hour : minutes < 60) :
      WritesZone ('-' :: (padded 2 hours ++ ':' :: padded 2 minutes)) (-(60 * hours + minutes))

/-- A text writes the fields of a timestamp by the internet profile. -/
inductive Writes : List Char → Timestamp → Prop
  | fields {year month day hour minute second nano : Nat} {offset : Int} {between : Char} {point zoned : List Char}
      (smallYear : year < 10000) (smallMonth : month < 100) (smallDay : day < 100) (smallHour : hour < 100)
      (smallMinute : minute < 100) (smallSecond : second < 100) (marked : between = 'T' ∨ between = 't' ∨ between = ' ')
      (fractional : WritesFraction point nano) (located : WritesZone zoned offset) :
      Writes (padded 4 year ++ '-' :: (padded 2 month ++ '-' :: (padded 2 day ++ between :: (padded 2 hour ++
        ':' :: (padded 2 minute ++ ':' :: (padded 2 second ++ (point ++ zoned)))))))
        ⟨⟨year, month, day⟩, hour, minute, second, nano, offset⟩

/-- The fields name an instant: the day and the time of the day exist, second 60 is the leap second behind second 59,
and the clocks of the zone are ahead of Greenwich by the offset. -/
structure Names (t : Timestamp) (u : Instant) : Prop where
  date : t.date.Valid
  hour : t.hour < 24
  minute : t.minute < 60
  second : t.second ≤ 60
  seconds : u.second = 86400 * t.date.toDays + 3600 * t.hour + 60 * t.minute + min t.second 59 - 60 * t.offset
  nanos : u.nano = t.nano + if t.second = 60 then 1000000000 else 0

variable {cs point zoned : List Char} {nano : Nat} {offset : Int} {t : Timestamp} {u : Instant}

theorem WritesZone.ends (located : WritesZone zoned offset) : EndsFraction zoned := by
  cases located with
  | greenwich letter =>
    refine ⟨fun c same => ?_, ?_⟩ <;> rcases letter with rfl | rfl
    · cases same; rfl
    · cases same; rfl
    · decide
    · decide
  | ahead day hour | behind day hour =>
    refine ⟨fun c same => ?_, by simp⟩
    cases same
    rfl

theorem WritesZone.bounds (located : WritesZone zoned offset) : -1440 < offset ∧ offset < 1440 := by
  cases located with
  | greenwich letter => decide
  | ahead day hour | behind day hour => omega

theorem WritesZone.zone (located : WritesZone zoned offset) : zone (expect ':') zoned = some (offset, []) := by
  have taken {n : Nat} (small : n < 100) (rest : List Char) : take? 2 2 (padded 2 n ++ rest) = some (n, rest) :=
    take?_padded (by decide) (by decide) small rest
  have alone {n : Nat} (small : n < 100) : take? 2 2 (padded 2 n) = some (n, []) := by
    have whole := taken small []
    rwa [List.append_nil] at whole
  cases located with
  | greenwich letter => rcases letter with rfl | rfl <;> rfl
  | @ahead hours minutes day hour | @behind hours minutes day hour =>
    refine bind_of_eq_some rfl (bind_of_eq_some (taken (by omega) _) (bind_of_eq_some rfl ?_))
    refine bind_of_eq_some (alone (by omega)) ?_
    dsimp only
    rw [if_neg (Nat.not_lt.2 (Nat.le_of_lt_succ hour))]
    rfl

theorem WritesFraction.fraction (fractional : WritesFraction point nano) (ends : EndsFraction zoned) :
    fraction (point ++ zoned) = some (nano, zoned) := by
  cases fractional with
  | whole =>
    have none : Instant.fractionText 0 = [] := rfl
    rw [← none]
    exact fraction_fractionText (by decide) ends
  | @digits ds some digits =>
    have taken : ∃ rest, take? 1 9 (ds ++ zoned) = Option.some (ofDigits (ds.take 9), rest) := by
      rcases Nat.le_total ds.length 9 with short | long
      · rw [List.take_of_length_le short]
        exact ⟨_, take?_append 1 9 digits (List.length_pos_of_ne_nil some) short ends.1⟩
      · have nine : (ds.take 9).length = 9 := by rw [List.length_take, Nat.min_eq_left long]
        have front : (ds.take 9).all isDigit = true :=
          List.all_eq_true.2 fun c member => List.all_eq_true.1 digits c (List.mem_of_mem_take member)
        have full := take?_append_of_full front (by omega : 1 ≤ (ds.take 9).length) (ds.drop 9 ++ zoned)
        rw [nine, ← List.append_assoc, List.take_append_drop] at full
        exact ⟨_, full⟩
    obtain ⟨rest, taken⟩ := taken
    have places : 9 - min 9 ds.length = 9 - ds.length := by omega
    rw [List.cons_append, Timestamp.fraction, takeWhile_isDigit digits ends.1, dropWhile_isDigit digits ends.1, taken,
      places]
    rfl

/-- What a text writes is read from it. -/
theorem Writes.strict? (written : Writes cs t) : strict? cs = some t := by
  cases written with
  | fields smallYear smallMonth smallDay smallHour smallMinute smallSecond marked fractional located =>
    refine strict?_fields _ _ _ _ _ _ smallYear smallMonth smallDay smallHour smallMinute smallSecond (fun rest => ?_)
      (fractional.fraction located.ends) located.zone
    rcases marked with rfl | rfl | rfl <;> rfl

/-- An instant that the fields name is the one they are taken for. -/
theorem Writes.instant? (written : Writes cs t) (names : t.Names u) : t.instant? = some u := by
  obtain ⟨date, hour, minute, second, seconds, nanos⟩ := names
  cases written with
  | fields smallYear smallMonth smallDay smallHour smallMinute smallSecond marked fractional located =>
    have bounds := located.bounds
    dsimp only at date hour minute second seconds nanos
    unfold Timestamp.instant?
    dsimp only
    rw [if_pos ⟨date, by omega, by omega, hour, minute, second, bounds⟩, Instant.of?_eq_some_iff]
    refine ⟨?_, ?_⟩
    · omega
    · split at nanos <;> omega

end Timestamp

theorem Timestamp.Writes.numberIn? {s : String} {t : Timestamp} (written : Writes s.toList t) : numberIn? s = none := by
  generalize shape : s.toList = cs at written
  cases written with
  | fields => exact numberIn?_of_hyphen (Decimal.padded_ne_nil _ _) (Decimal.all_isDigit_padded _ _) shape

/-- The strict reading of a text is the instant that it names. -/
theorem Instant.ofStrict?_of_writes {s : String} {t : Timestamp} {u : Instant} (written : Timestamp.Writes s.toList t)
    (names : t.Names u) : ofStrict? s = some u := by
  rw [ofStrict?, written.strict?, Option.bind_some]
  exact written.instant? names

/-- The relation in time that an operator asks for; only the orderings ask for one. -/
def Operator.inTime? : Operator → Option (Instant → Instant → Prop)
  | greaterThan => some fun t u => u.isBefore t = true
  | lessThan => some fun t u => t.isBefore u = true
  | greaterThanEquals => some fun t u => t.isBefore u = false
  | lessThanEquals => some fun t u => u.isBefore t = false
  | equals | notEquals | contains | notContains | isIn => none

/-- The times that are stored of a customer, by the names of their fields. -/
def Customer.time? (c : Customer) : String → Option Instant
  | "createdAt" => some c.createdAt
  | "updatedAt" => some c.updatedAt
  | "lastVisit" => c.profile.lastVisit
  | "lastOrderDate" => c.profile.lastOrderDate
  | _ => none

theorem Customer.resolve_time {c : Customer} {field : String} {t : Instant} (stored : c.time? field = some t) :
    resolve c.toJson field = some t.toJson := by
  have found (alone : pathOf field = [field]) (member : c.members.lookup field = some t.toJson) :
      resolve c.toJson field = some t.toJson := resolve_of_get? alone (by rw [get?_toJson, member]) rfl
  unfold time? at stored
  split at stored
  · cases stored
    exact found (by decide +kernel) rfl
  · cases stored
    exact found (by decide +kernel) rfl
  · refine found (by decide +kernel) ?_
    change some (Json.ofOption Instant.toJson c.profile.lastVisit) = _
    rw [stored]
    rfl
  · refine found (by decide +kernel) ?_
    change some (Json.ofOption Instant.toJson c.profile.lastOrderDate) = _
    rw [stored]
    rfl
  · cases stored

namespace Rule

variable {rule : Rule} {operator : Operator} {R : Instant → Instant → Prop} {document : Json} {s : String}

/-- A rule that orders a text with another one, both names of instants, orders the instants. -/
theorem Compares.holds_compile_times {a : String} {t u : Instant} (compares : rule.Compares operator) (now : Instant)
    (relation : operator.inTime? = some R) (value : rule.value = .string s) (number : numberIn? s = none)
    (resolved : resolve document (storedField rule.term.field) = some (.string a))
    (stored : Instant.ofStrict? a = some t) (asked : Instant.ofStrict? s = some u) :
    (compile [rule] now).predicate.holds document = true ↔ R t u := by
  have term : rule.term.value = .string s := value
  have compared : compareTo (.string a) (.value (.string s)) = some (t.compare u) :=
    congrArg some (compareStrings_of_some stored asked)
  let c : Condition := ⟨storedField rule.term.field, operator, .value (.string s)⟩
  have ordered (accept : Ordering → Bool) (operand : rule.term.operand operator = coerceNumber rule.term.value)
      (ordering : c.test = c.operand.ordered accept) (positive : c.isNegative = false) :
      (compile [rule] now).predicate.holds document = accept (t.compare u) := by
    have operand : rule.term.operand operator = .string s := by simp only [operand, term, coerceNumber, number]
    have condition : rule.condition? now = some c := by rw [compares.condition? now, operand]
    rw [holds_compile_singleton, condition, Option.any_some, c.holds_ordered resolved ordering positive, compared,
      Option.any_some]
  cases operator with
  | greaterThan =>
    cases relation
    rw [ordered (· == .gt) rfl rfl rfl, beq_iff_eq, Instant.compare_eq_gt_iff]
  | lessThan =>
    cases relation
    rw [ordered (· == .lt) rfl rfl rfl, beq_iff_eq, Instant.compare_eq_lt_iff]
  | greaterThanEquals =>
    cases relation
    rw [ordered (· != .lt) rfl rfl rfl, bne_iff_ne, ne_eq, Instant.compare_eq_lt_iff, Bool.not_eq_true]
  | lessThanEquals =>
    cases relation
    rw [ordered (· != .gt) rfl rfl rfl, bne_iff_ne, ne_eq, Instant.compare_eq_gt_iff, Bool.not_eq_true]
  | equals | notEquals | contains | notContains | isIn => cases relation

/-- Written times are read back by the tests, and ordered in time. An instant whose year needs no sign is named by its
text in a document and by its text in a filter, to the nanosecond and in leap seconds too. So a rule that orders a stored
time with a text that writes an instant by the internet profile, in whatever zone, holds exactly if the two are in
the order in time. -/
theorem written_times_ordered {t : Instant} (plain : t.PlainYear) :
    instantOf? t.toJson = some t ∧ instantOf? (.string t.filterText) = some t ∧
      ∀ {c : Customer} {rule : Rule} {operator : Operator} {R : Instant → Instant → Prop} {s : String} {fields : Timestamp}
        {u : Instant} (now : Instant), c.time? (storedField rule.term.field) = some t → rule.Compares operator →
        operator.inTime? = some R → rule.value = .string s → Timestamp.Writes s.toList fields → fields.Names u →
        ((compile [rule] now).predicate.holds c.toJson = true ↔ R t u) := by
  have text : Instant.ofStrict? t.text = some t := by rw [Instant.ofStrict?_text, if_pos plain]
  have filterText : Instant.ofStrict? t.filterText = some t := by rw [Instant.ofStrict?_filterText, if_pos plain]
  refine ⟨text, filterText, fun now stored compares relation value written names => ?_⟩
  exact compares.holds_compile_times now relation value written.numberIn? (Customer.resolve_time stored) text
    (Instant.ofStrict?_of_writes written names)

/-- Half of a leap second in Greenwich, and a quarter of it in Delhi. -/
theorem written_times_ordered_in_a_leap_second :
    let half : Instant := ⟨1483228799, 1500000000, by decide, by decide, by decide, by decide⟩
    let quarter : Instant := ⟨1483228799, 1250000000, by decide, by decide, by decide, by decide⟩
    let ada : Customer := ⟨⟨1, by decide⟩, { Profile.named "Ada" with lastOrderDate := some half }, .epoch, .epoch⟩
    let later := Rule.single "last_order_date" ">" (.string "2017-01-01t05:29:60.25+05:30")
    let earlier := Rule.single "lastOrderDate" "lessThanEquals" (.string "2017-01-01t05:29:60.25+05:30")
    half.toJson = .string "2016-12-31T23:59:60.500Z" ∧ instantOf? half.toJson = some half ∧
      quarter.isBefore half = true ∧ (compile [later] .epoch).predicate.holds ada.toJson = true ∧
      (compile [earlier] .epoch).predicate.holds ada.toJson = false := by
  intro half quarter ada later earlier
  have plain : half.PlainYear := by decide +kernel
  obtain ⟨read, -, ordered⟩ := written_times_ordered plain
  have shape : "2017-01-01t05:29:60.25+05:30".toList = Decimal.padded 4 2017 ++ '-' :: (Decimal.padded 2 1 ++
      '-' :: (Decimal.padded 2 1 ++ 't' :: (Decimal.padded 2 5 ++ ':' :: (Decimal.padded 2 29 ++ ':' :: (Decimal.padded 2 60 ++
      ('.' :: ['2', '5'] ++ '+' :: (Decimal.padded 2 5 ++ ':' :: Decimal.padded 2 30))))))) := by
    decide +kernel
  have written : Timestamp.Writes "2017-01-01t05:29:60.25+05:30".toList ⟨⟨2017, 1, 1⟩, 5, 29, 60, 250000000, 330⟩ := by
    rw [shape]
    exact .fields (by decide) (by decide) (by decide) (by decide) (by decide) (by decide) (.inr (.inl rfl))
      (.digits (by decide) (by decide)) (.ahead (by decide) (by decide))
  have names : Timestamp.Names ⟨⟨2017, 1, 1⟩, 5, 29, 60, 250000000, 330⟩ quarter :=
    ⟨by decide, by decide, by decide, by decide, by decide, by decide⟩
  have field : storedField later.term.field = "lastOrderDate" := by decide +kernel
  have field' : storedField earlier.term.field = "lastOrderDate" := by decide +kernel
  have stored : ada.time? "lastOrderDate" = some half := rfl
  have asksLater : later.Compares .greaterThan := ⟨by decide +kernel, by decide +kernel, by decide +kernel⟩
  have asksEarlier : earlier.Compares .lessThanEquals := ⟨by decide +kernel, by decide +kernel, by decide +kernel⟩
  have after := ordered .epoch (by rw [field, stored]) asksLater rfl rfl written names
  have before := ordered .epoch (by rw [field', stored]) asksEarlier rfl rfl written names
  refine ⟨by decide +kernel, read, by decide, after.2 (by decide), ?_⟩
  rw [Bool.eq_false_iff]
  exact fun held => absurd (before.1 held) (by decide)

end Rule

end CustomerSegments
