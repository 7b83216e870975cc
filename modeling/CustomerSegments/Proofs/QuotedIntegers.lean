import CustomerSegments.Proofs.AgeCutoffs
import CustomerSegments.Proofs.TimeText

namespace CustomerSegments

namespace Text

variable {front back cs : List Char}

theorem trimStart_of_all_blank (blank : front.all isBlank = true) (rest : List Char) :
    trimStart (front ++ rest) = trimStart rest :=
  List.dropWhile_append_of_pos (List.all_eq_true.1 blank)

theorem trimStart_of_none_blank (solid : ∀ c ∈ cs, isBlank c = false) : trimStart cs = cs := by
  cases cs with
  | nil => rfl
  | cons c rest => exact trimStart_of_not_blank (solid c List.mem_cons_self)

/-- What has no blank character in it is what trimming leaves of it between blank characters. -/
theorem trimChars_between_blanks (before : front.all isBlank = true) (after : back.all isBlank = true)
    (solid : ∀ c ∈ cs, isBlank c = false) : trimChars (front ++ cs ++ back) = cs := by
  have behind : back.reverse.all isBlank = true := by rwa [List.all_reverse]
  have turned : ∀ c ∈ cs.reverse, isBlank c = false := fun c member => solid c (List.mem_reverse.1 member)
  have first : trimStart (front ++ cs ++ back) = trimStart (cs ++ back) := by
    rw [List.append_assoc, trimStart_of_all_blank before]
  have last : trimStart (trimStart (cs ++ back)).reverse = cs.reverse := by
    cases cs with
    | nil =>
      have none := trimStart_of_all_blank after []
      rw [List.append_nil] at none
      rw [List.nil_append, none]
      rfl
    | cons c rest =>
      rw [List.cons_append, trimStart_of_not_blank (solid c List.mem_cons_self), ← List.cons_append,
        List.reverse_append, trimStart_of_all_blank behind, trimStart_of_none_blank turned]
  rw [trimChars, first, last, List.reverse_reverse]

end Text

theorem Decimal.not_blank_of_mem_ofInt {n : Int} {c : Char} (member : c ∈ ofInt n) : Text.isBlank c = false := by
  cases n with
  | ofNat n => exact Text.isBlank_of_isDigit (isDigit_of_mem_digits member)
  | negSucc n =>
    rcases List.mem_cons.1 member with rfl | member
    · decide
    · exact Text.isBlank_of_isDigit (isDigit_of_mem_digits member)

namespace Rule.Term

variable {term : Term} {operator : Operator} {s : String} {n : Int64} {now : Instant}

/-- Both readers of texts find the integer in a text that writes it. -/
theorem readings_of_writes (written : Decimal.Writes (Text.trimChars s.toList) n.toInt) :
    coerceNumber (.string s) = .ofInt64 n ∧ dayCount? (.string s) = some n.toInt := by
  have least := n.le_toInt
  have most := n.toInt_lt
  have read : Decimal.int64? (Text.trimChars s.toList) = some n.toInt :=
    Decimal.int64?_eq_some_iff.2 ⟨written, least, Int.le_of_lt_add_one most⟩
  have fits : -9223372036854775808 ≤ n.toInt ∧ n.toInt < 18446744073709551616 := ⟨least, by omega⟩
  have number : numberIn? s = some (.integer ⟨n.toInt, fits⟩) := by
    simp only [numberIn?, read, Integer.ofInt?, dif_pos fits, Option.map_some]
  exact ⟨by rw [coerceNumber, number]; rfl, read⟩

theorem dayCount?_ofInt64 (n : Int64) : dayCount? (.ofInt64 n) = some n.toInt :=
  dayCount?_eq_some_iff.2 (.integer (Int.le_of_lt_add_one n.toInt_lt))

theorem operand_of_isComparison (comparison : operator.isComparison = true) :
    term.operand operator = coerceNumber term.value := by
  cases operator with
  | contains | notContains | isIn => cases comparison
  | _ => rfl

/-- A comparison makes the same of two values that are read as the same number and as the same number of days. -/
theorem condition_congr {field token : String} {v w : Json} (known : Operator.ofToken? token = some operator)
    (comparison : operator.isComparison = true) (number : coerceNumber v = coerceNumber w)
    (days : dayCount? v = dayCount? w) : condition now ⟨field, token, v⟩ = condition now ⟨field, token, w⟩ := by
  have aged : ageCondition now ⟨field, token, v⟩ operator = ageCondition now ⟨field, token, w⟩ operator := by
    simp only [ageCondition, days]
  simp only [condition, known, aged, operand_of_isComparison comparison, number]

/-- A quoted integer is compared as the integer. Whatever blank characters stand around the digits, and whatever the
field, a comparison with the text makes the condition that the one with the integer makes, or both are left out for the
same reason: a field is compared with the integer, and an age with the instant that many days ago. -/
theorem quoted_integers_compare_alike (n : Int64) {front back : List Char} (before : front.all Text.isBlank = true)
    (after : back.all Text.isBlank = true) {token : String} (known : Operator.ofToken? token = some operator)
    (comparison : operator.isComparison = true) (field : String) (now : Instant) :
    let quoted : Term := ⟨field, token, .string (String.ofList (front ++ Decimal.ofInt n.toInt ++ back))⟩
    quoted.condition now = condition now ⟨field, token, .ofInt64 n⟩ ∧
      (field ≠ "" → field ≠ customerAge →
        quoted.condition now = .ok ⟨storedField field, operator, .value (.ofInt64 n)⟩) ∧
      ∀ turned, field = customerAge → operator.Turns turned →
        quoted.condition now =
          match now.daysEarlier? n.toInt with
          | none => .error .ageOutOfRange
          | some cutoff => .ok ⟨"createdAt", turned, .instant cutoff⟩ := by
  intro quoted
  have written : Decimal.Writes (Text.trimChars (front ++ Decimal.ofInt n.toInt ++ back)) n.toInt := by
    rw [Text.trimChars_between_blanks before after fun c member => Decimal.not_blank_of_mem_ofInt member]
    exact Decimal.integer?_eq_some_iff.1 (Decimal.integer?_ofInt n.toInt)
  rw [← String.toList_ofList (l := front ++ Decimal.ofInt n.toInt ++ back)] at written
  obtain ⟨number, days⟩ := readings_of_writes written
  have alike : quoted.condition now = condition now ⟨field, token, .ofInt64 n⟩ :=
    condition_congr known comparison number (days.trans (dayCount?_ofInt64 n).symm)
  have some : token ≠ "" := by
    rintro rfl
    cases known
  refine ⟨alike, fun named notAge => ?_, fun turned onAge turns => ?_⟩
  · refine condition_eq_ok_iff.2 ⟨named, some, operator, known, .inl ⟨notAge, ?_⟩⟩
    rw [operand_of_isComparison comparison, number]
  · have outcome := quoted.condition_of_age now onAge known turns
    rw [days] at outcome
    exact outcome

theorem quoted_integers_compare_alike_at_the_least :
    let least : Int64 := -9223372036854775808
    let month : Instant := ⟨-2592000, 0, by decide, by decide, by decide, by decide⟩
    condition .epoch ⟨"visit_count", " !=", .string " \u3000-9223372036854775808\n"⟩ =
        condition .epoch ⟨"visit_count", " !=", .ofInt64 least⟩ ∧
      condition .epoch ⟨"visit_count", " !=", .string " \u3000-9223372036854775808\n"⟩ =
        .ok ⟨"visitCount", .notEquals, .value (.ofInt64 least)⟩ ∧
      condition .epoch ⟨"customer_age", "greaterThan", .string "30\t"⟩ = .ok ⟨"createdAt", .lessThan, .instant month⟩ := by
  intro least month
  have before : [' ', '\u3000'].all Text.isBlank = true := by decide
  have after : ['\n'].all Text.isBlank = true := by decide
  have tab : ['\t'].all Text.isBlank = true := by decide
  have unlike : Operator.ofToken? " !=" = some .notEquals := by decide +kernel
  have greater : Operator.ofToken? "greaterThan" = some .greaterThan := by decide +kernel
  obtain ⟨alike, compared, -⟩ := quoted_integers_compare_alike least before after unlike rfl "visit_count" .epoch
  obtain ⟨-, -, aged⟩ := quoted_integers_compare_alike 30 (List.all_nil ..) tab greater rfl "customer_age" .epoch
  have text : String.ofList ([' ', '\u3000'] ++ Decimal.ofInt least.toInt ++ ['\n']) =
      " \u3000-9223372036854775808\n" := by decide +kernel
  have days : String.ofList ([] ++ Decimal.ofInt (30 : Int64).toInt ++ ['\t']) = "30\t" := by decide +kernel
  have moved : Instant.epoch.daysEarlier? (30 : Int64).toInt = some month := by decide +kernel
  rw [text] at alike compared
  have cutoff := aged .lessThan rfl (.inl ⟨rfl, rfl⟩)
  rw [days, moved] at cutoff
  exact ⟨alike, compared (by decide) (by decide), cutoff⟩

end Rule.Term

end CustomerSegments
