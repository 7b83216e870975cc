import CustomerSegments.Proofs.DecimalText
import CustomerSegments.Proofs.FieldPaths
import CustomerSegments.Proofs.RuleTests

namespace CustomerSegments

theorem Text.mem_of_mem_trimChars {c : Char} {cs : List Char} (member : c ∈ trimChars cs) : c ∈ cs := by
  have start {cs : List Char} (member : c ∈ trimStart cs) : c ∈ cs := (List.dropWhile_suffix isBlank).subset member
  exact start (List.mem_reverse.1 (start (List.mem_reverse.1 member)))

theorem exists_digit_of_numberIn? {s : String} {n : Number} (read : numberIn? s = some n) :
    ∃ c ∈ s.toList, Decimal.isDigit c = true := by
  have trimmed : ∃ c ∈ Text.trimChars s.toList, Decimal.isDigit c = true := by
    unfold numberIn? at read
    dsimp only at read
    split at read
    · next whole => exact Decimal.exists_digit_of_int64? whole
    · obtain ⟨x, made, _⟩ := Option.map_eq_some_iff.1 read
      obtain ⟨y, float, double⟩ := Option.bind_eq_some_iff.1 made
      unfold Double.ofFloat? at double
      split at double
      · next finite => exact Decimal.exists_digit_of_float? float finite
      · cases double
  obtain ⟨c, member, digit⟩ := trimmed
  exact ⟨c, Text.mem_of_mem_trimChars member, digit⟩

/-- Some element is a number equal to another one, as a double. -/
def Json.HasNumber (v : Json) (n : Number) : Prop :=
  ∃ m, .number m ∈ v.elements ∧ (m.toFloat == n.toFloat) = true

section

variable {v : Json} {s : String} {n : Number}

theorem any_equals_number_iff : v.elements.any (Operand.value (.number n)).equals = true ↔ v.HasNumber n := by
  have equal (a : Json) : equalValues a (.number n) = true ↔ ∃ m, a = .number m ∧ (m.toFloat == n.toFloat) = true := by
    cases a with
    | number m => simp [equalValues]
    | _ => simp [equalValues, Json.same]
  rw [List.any_eq_true]
  constructor
  · rintro ⟨a, member, passes⟩
    obtain ⟨m, rfl, same⟩ := (equal a).1 passes
    exact ⟨m, member, same⟩
  · rintro ⟨m, member, same⟩
    exact ⟨.number m, member, (equal _).2 ⟨m, rfl, same⟩⟩

/-- Among values with a text among them the operand of the text is found, unless it is a number that is missing. -/
theorem any_equals_coerceNumber_iff (element : .string s ∈ v.elements) :
    v.elements.any (Operand.value (coerceNumber (.string s))).equals = true ↔
      ∀ n, numberIn? s = some n → v.HasNumber n := by
  cases number : numberIn? s with
  | none =>
    have operand : coerceNumber (.string s) = .string s := by simp only [coerceNumber, number]
    have verbatim : equalValues (.string s) (.string s) = true := beq_iff_eq.2 (Eq.refl s)
    rw [operand]
    refine iff_of_true (List.any_eq_true.2 ⟨_, element, verbatim⟩) fun n written => ?_
    exact absurd written (Option.some_ne_none n).symm
  | some n =>
    have operand : coerceNumber (.string s) = .number n := by simp only [coerceNumber, number]
    rw [operand, any_equals_number_iff]
    constructor
    · rintro has _ ⟨⟩
      exact has
    · exact fun has => has n rfl

end

namespace Rule

/-- An equality with a text finds the text as it is written, unless it writes a number. If a field is the text or has it
among its elements, then the rule that asks for the text holds and the rule that denies it does not, provided that the
field has the number as well if the text writes one; a text without digits writes none, and a text is no number. -/
theorem equals_finds_text {rule : Rule} {operator : Operator} (compares : rule.Compares operator) (now : Instant)
    {s : String} (value : rule.value = .string s) {document v : Json}
    (resolved : resolve document (storedField rule.term.field) = some v) (element : .string s ∈ v.elements) :
    let found := ∀ n, numberIn? s = some n → v.HasNumber n
    (operator = .equals → ((compile [rule] now).predicate.holds document = true ↔ found)) ∧
      (operator = .notEquals → ((compile [rule] now).predicate.holds document = true ↔ ¬ found)) ∧
      (s.toList.any Decimal.isDigit = false → found) := by
  intro found
  have term : rule.term.value = .string s := value
  have passes : v.elements.any (Operand.value (coerceNumber (.string s))).equals = true ↔ found :=
    any_equals_coerceNumber_iff element
  rw [compares.holds_compile now resolved]
  refine ⟨?_, ?_, fun digitless n written => ?_⟩
  · rintro rfl
    rw [← passes]
    simp [Condition.isNegative, Condition.test, Term.operand, term]
  · rintro rfl
    rw [← passes]
    simp [Condition.isNegative, Condition.test, Term.operand, term]
  · have digits : s.toList.any Decimal.isDigit = true := List.any_eq_true.2 (exists_digit_of_numberIn? written)
    rw [digitless] at digits
    cases digits

/-- A text that writes a number is found beside the number only. -/
example :
    let holds (elements : List Json) :=
      (compile [.single "tags" "equals" (.string "042")] .epoch).predicate.holds (.mk [("tags", .array elements)])
    holds [.string "042"] = false ∧ holds [.string "042", .ofNat 42] = true := by
  decide +kernel

theorem equals_finds_text_of_tags :
    let ada : Customer := ⟨⟨1, by decide⟩, { Profile.named "Ada" with tags := ["vip", "02139"] }, .epoch, .epoch⟩
    (compile [.single "tags" "=" (.string "vip")] .epoch).predicate.holds ada.toJson = true ∧
      (compile [.single "tags" "notEquals" (.string "vip")] .epoch).predicate.holds ada.toJson = false := by
  intro ada
  have asks : (Rule.single "tags" "=" (.string "vip")).Compares .equals :=
    ⟨by decide +kernel, by decide +kernel, by decide +kernel⟩
  have denies : (Rule.single "tags" "notEquals" (.string "vip")).Compares .notEquals :=
    ⟨by decide +kernel, by decide +kernel, by decide +kernel⟩
  have field : storedField (Text.trim "tags") = "tags" := by decide +kernel
  let tags : Json := .array [.string "vip", .string "02139"]
  have resolved : resolve ada.toJson (storedField (Text.trim "tags")) = some tags := by
    rw [field]
    exact resolve_of_get? (by decide +kernel) ((ada.get?_toJson "tags").trans rfl) rfl
  have element : .string "vip" ∈ tags.elements := List.mem_cons_self
  obtain ⟨holds, _, found⟩ := equals_finds_text asks .epoch rfl resolved element
  obtain ⟨_, holds', _⟩ := equals_finds_text denies .epoch rfl resolved element
  have digitless := found (by decide +kernel)
  refine ⟨(holds rfl).2 digitless, ?_⟩
  rw [Bool.eq_false_iff]
  exact fun held => (holds' rfl).1 held digitless

/-- The text of a number is taken for the number, and the name of an attribute for another field's. -/
theorem equals_misses_text :
    let attributes := [(" tier", Json.string "gold"), ("visit_count", .string "often")]
    let profile := { Profile.named "Ada" with location := some "02139", attributes }
    let ada : Customer := ⟨⟨1, by decide⟩, profile, .epoch, .epoch⟩
    let holds (operator name s : String) :=
      (compile [.single name operator (.string s)] .epoch).predicate.holds ada.toJson
    (resolve ada.toJson "location" = some (.string "02139") ∧
        holds "equals" "location" "02139" = false ∧ holds "notEquals" "location" "02139" = true) ∧
      (resolve ada.toJson "visit_count" = some (.string "often") ∧
        holds "equals" "visit_count" "often" = false ∧ holds "notEquals" "visit_count" "often" = true) ∧
      (resolve ada.toJson " tier" = some (.string "gold") ∧
        holds "equals" " tier" "gold" = false ∧ holds "notEquals" " tier" "gold" = true) := by
  decide +kernel

end Rule

end CustomerSegments
