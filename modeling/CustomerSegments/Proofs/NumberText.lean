import CustomerSegments.Proofs.JsonTokens

namespace CustomerSegments

namespace Decimal

/-- Only zero is written with a zero in front. -/
theorem digits_eq_cons {n : Nat} (positive : 0 < n) :
    ∃ c cs, digits n = c :: cs ∧ isDigit c = true ∧ c ≠ '0' := by
  induction n using Nat.strongRecOn with
  | ind n ih =>
    by_cases single : n < 10
    · have shape : digits n = [n.digitChar] := Nat.toDigits_of_lt_base single
      refine ⟨n.digitChar, [], shape, isDigit_of_mem_digits (shape ▸ List.mem_cons_self), fun zero => ?_⟩
      have value := ofDigits_digits n
      rw [shape, zero] at value
      have none : 0 = n := value
      omega
    · obtain ⟨c, cs, shape, digit, unlike⟩ := ih (n / 10) (by omega) (by omega)
      have longer : digits n = digits (n / 10) ++ [(n % 10).digitChar] :=
        Nat.toDigits_of_base_le (by decide) (by omega)
      rw [longer, shape]
      exact ⟨c, _, rfl, digit, unlike⟩

theorem takeWhile_digits (n : Nat) : (digits n).takeWhile isDigit = digits n := by
  have whole := takeWhile_isDigit (all_isDigit_digits n) (nofun : Stops [])
  rwa [List.append_nil] at whole

theorem dropWhile_digits (n : Nat) : (digits n).dropWhile isDigit = [] := by
  have rest := dropWhile_isDigit (all_isDigit_digits n) (nofun : Stops [])
  rwa [List.append_nil] at rest

end Decimal

open Decimal

theorem Numeral.ofLiteral_digits (n : Nat) :
    ofLiteral (digits n) = { negative := false, whole := digits n, fraction := [], isDouble := false, power := 0 } := by
  obtain ⟨c, cs, shape, digit⟩ := exists_digits_eq_cons n
  have unsigned : ¬ (digits n).head? = some '-' := by
    rw [shape, List.head?_cons, Option.some.injEq]
    rintro rfl
    cases digit
  simp only [ofLiteral, if_neg unsigned, takeWhile_digits, dropWhile_digits, decide_eq_false unsigned]
  rfl

theorem Numeral.ofLiteral_minus_digits (n : Nat) :
    ofLiteral ('-' :: digits n) = { negative := true, whole := digits n, fraction := [], isDouble := false, power := 0 } := by
  simp only [ofLiteral, List.head?_cons, decide_true, if_true, List.tail_cons, takeWhile_digits, dropWhile_digits]
  rfl

namespace Json

/-- Digits go on with a literal up to the end of the text. -/
theorem Scan.tokens_whole (read : List Char) {cs : List Char} (digits : cs.all isDigit = true) :
    (numeral .whole read).tokens cs = [numberOf (cs.reverse ++ read)] := by
  induction cs generalizing read with
  | nil => rfl
  | cons c cs ih =>
    rw [List.all_cons, Bool.and_eq_true] at digits
    have step : (numeral .whole read).step c = ([], some (numeral .whole (c :: read))) := by
      simp only [Scan.step, NumeralPlace.step, digits.1, if_true]
    rw [tokens_cons_some step, ih _ digits.2, List.reverse_cons, List.append_assoc]
    rfl

/-- The text of an integer is one literal. -/
theorem tokens_ofInt (n : Int) : tokens (Decimal.ofInt n) = [.number (Numeral.ofLiteral (Decimal.ofInt n)).toNumber?] := by
  have whole (c : Char) (read cs : List Char) (k : Nat) (shape : digits k = c :: cs) :
      (Scan.numeral .whole (c :: read)).tokens cs =
        [.number (Numeral.ofLiteral (read.reverse ++ c :: cs)).toNumber?] := by
    have each := all_isDigit_digits k
    rw [shape, List.all_cons, Bool.and_eq_true] at each
    rw [Scan.tokens_whole _ each.2, numberOf, List.reverse_append, List.reverse_reverse, List.reverse_cons,
      List.append_assoc]
    rfl
  cases n with
  | ofNat k =>
    by_cases zero : k = 0
    · subst zero
      rfl
    · obtain ⟨c, cs, shape, digit, unlike⟩ := digits_eq_cons (Nat.pos_of_ne_zero zero)
      have step : Scan.between.step c = ([], some (.numeral .whole [c])) := start_of_digit digit unlike
      rw [Decimal.ofInt, shape, tokens, Scan.tokens_cons_some step, List.nil_append]
      exact whole c [] cs k shape
  | negSucc k =>
    obtain ⟨c, cs, shape, digit, unlike⟩ := digits_eq_cons (Nat.succ_pos k)
    have minus : Scan.between.step '-' = ([], some (.numeral .sign ['-'])) := rfl
    have step : (Scan.numeral .sign ['-']).step c = ([], some (.numeral .whole [c, '-'])) := by
      simp only [Scan.step, NumeralPlace.step, if_neg unlike, digit, if_true]
    rw [Decimal.ofInt, shape, tokens, Scan.tokens_cons_some minus, List.nil_append, Scan.tokens_cons_some step,
      List.nil_append]
    exact whole c ['-'] cs (k + 1) shape

end Json

/-- The literal of an integer names it. -/
theorem Numeral.toNumber?_ofInt (n : Integer) : (ofLiteral (Decimal.ofInt n.val)).toNumber? = some (.integer n) := by
  have fits : Integer.ofInt? n.val = some n := by
    rw [Integer.ofInt?, dif_pos n.fits]
  cases sign : n.val with
  | ofNat k =>
    rw [sign] at fits
    have known : Integer.ofInt? (k : Int) = some n := fits
    rw [Decimal.ofInt, ofLiteral_digits, toNumber?]
    simp only [ofDigits_digits, Bool.false_eq_true, false_and, or_self, if_false, known]
  | negSucc k =>
    rw [sign] at fits
    have known : Integer.ofInt? (-((k + 1 : Nat) : Int)) = some n := fits
    rw [Decimal.ofInt, ofLiteral_minus_digits, toNumber?]
    simp only [ofDigits_digits, Bool.false_eq_true, Nat.succ_ne_zero, and_false, or_self, if_false, if_true, known]

/-- Every integer reads back. -/
theorem Number.readsBack_integer (n : Integer) : (Number.integer n).ReadsBack := by
  have read := Json.tokens_ofInt n.val
  rw [Numeral.toNumber?_ofInt] at read
  rw [ReadsBack, Json.ofText?, Json.Decoder.decodeText, Json.Document.ofText, Json.text, String.toList_ofList,
    Json.write, Number.text, read, Json.read_number]
  rfl

end CustomerSegments
