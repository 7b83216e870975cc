import CustomerSegments.Proofs.CompiledShape
import CustomerSegments.Proofs.DecimalText
import CustomerSegments.Proofs.DoubleValues
import CustomerSegments.Proofs.RuleConditions

namespace CustomerSegments

/-- A value names a number of days: an integer that 64 bits with a sign hold, a double of a magnitude below
2^63, whose fraction does not count, or the text of such an integer between blank characters. -/
inductive Json.NamesDays : Json → Int → Prop
  | integer {n : Integer} (fits : n.val ≤ 9223372036854775807) : NamesDays (.number (.integer n)) n.val
  | double {x : Double} (below : |x.value| < 9223372036854775808) :
      NamesDays (.number (.double x)) (towardZero x.value)
  | text {s : String} {n : Int} (written : Decimal.Writes (Text.trimChars s.toList) n)
      (least : -9223372036854775808 ≤ n) (most : n ≤ 9223372036854775807) : NamesDays (.string s) n

theorem dayCount?_eq_some_iff {v : Json} {days : Int} : dayCount? v = some days ↔ v.NamesDays days := by
  have below (x : Double) : x.wholePart < 9223372036854775808 ↔ |x.value| < 9223372036854775808 := by
    rw [x.wholePart_lt_iff]
    norm_num
  constructor
  · intro counted
    unfold dayCount? at counted
    split at counted
    · next n =>
      split at counted
      · next fits =>
        cases counted
        exact .integer fits
      · cases counted
    · next x =>
      split at counted
      · next small =>
        cases counted
        rw [x.truncate_eq]
        exact .double ((below x).1 small)
      · cases counted
    · next s =>
      obtain ⟨written, least, most⟩ := Decimal.int64?_eq_some_iff.1 counted
      exact .text written least most
    · cases counted
  · intro named
    cases named with
    | integer fits => rw [dayCount?, if_pos fits]
    | @double x small => rw [dayCount?, if_pos ((below x).2 small), x.truncate_eq]
    | text written least most => exact Decimal.int64?_eq_some_iff.2 ⟨written, least, most⟩

/-- Every day count fits a word of 64 bits. -/
theorem Json.NamesDays.fits {v : Json} {days : Int} (named : v.NamesDays days) :
    -9223372036854775808 ≤ days ∧ days ≤ 9223372036854775807 := by
  cases named with
  | @integer n fits => exact ⟨n.fits.1, fits⟩
  | @double x below =>
    have whole : x.wholePart < 9223372036854775808 := (x.wholePart_lt_iff _).2 (by exact_mod_cast below)
    rw [← x.truncate_eq, Double.truncate]
    split <;> omega
  | text _ least most => exact ⟨least, most⟩

namespace Instant

/-- An instant that lies so many days of 86400 seconds before another one, to the nanosecond. -/
def IsDaysBefore (cutoff : Instant) (days : Int) (t : Instant) : Prop :=
  cutoff.second = t.second - 86400 * days ∧ cutoff.nano = t.nano

variable {t cutoff : Instant}

theorem of?_eq_some_iff {second : Int} {nano : Nat} :
    of? second nano = some t ↔ t.second = second ∧ t.nano = nano := by
  unfold of?
  split
  · next fits =>
    refine ⟨fun made => ?_, fun ⟨sameSecond, sameNano⟩ => ?_⟩
    · cases made
      exact ⟨rfl, rfl⟩
    · cases t
      cases sameSecond
      cases sameNano
      rfl
  · next out =>
    refine ⟨nofun, fun ⟨sameSecond, sameNano⟩ => absurd ?_ out⟩
    rw [← sameSecond, ← sameNano]
    exact ⟨t.first_le, t.le_last, t.nano_lt, t.leap⟩

/-- All instants lie within so few days that a distance that is too long leads to none. -/
theorem IsDaysBefore.near {days : Int} (before : cutoff.IsDaysBefore days t) : -maxDays ≤ days ∧ days ≤ maxDays := by
  have seconds := before.1
  have first := t.first_le
  have last := t.le_last
  have first' := cutoff.first_le
  have last' := cutoff.le_last
  unfold maxDays
  omega

theorem daysEarlier?_eq_some_iff {days : Int} (plain : t.nano < 1000000000) :
    t.daysEarlier? days = some cutoff ↔ cutoff.IsDaysBefore days t := by
  unfold daysEarlier?
  split
  · next far =>
    refine ⟨nofun, fun before => ?_⟩
    have near := before.near
    omega
  · split
    · next none =>
      subst none
      rw [Option.some.injEq, IsDaysBefore, Int.mul_zero, Int.sub_zero]
      refine ⟨fun same => same ▸ ⟨rfl, rfl⟩, fun ⟨sameSecond, sameNano⟩ => ?_⟩
      cases t
      cases cutoff
      cases sameSecond
      cases sameNano
      rfl
    · exact of?_eq_some_iff

/-- The instant so many days earlier in the arithmetic of words, which wraps where 64 bits do not hold a
result. -/
def daysEarlierInWords? (t : Instant) (days : Int64) : Option Instant :=
  if days < -106751991167 ∨ 106751991167 < days then none
  else of? (Int64.ofInt t.second - days * 86400).toInt t.nano

/-- No step on the way to an instant leaves the 64 bits. -/
theorem daysEarlierInWords?_eq_some_iff {days : Int64} :
    t.daysEarlierInWords? days = some cutoff ↔ cutoff.IsDaysBefore days.toInt t := by
  have least : (-106751991167 : Int64).toInt = -106751991167 := rfl
  have most : (106751991167 : Int64).toInt = 106751991167 := rfl
  have day : (86400 : Int64).toInt = 86400 := rfl
  have first := t.first_le
  have last := t.le_last
  unfold daysEarlierInWords?
  simp only [Int64.lt_iff_toInt_lt, least, most]
  split
  · next far =>
    refine ⟨nofun, fun before => ?_⟩
    have near := before.near
    unfold maxDays at near
    omega
  · next near =>
    have product : (days * 86400).toInt = 86400 * days.toInt := by
      rw [Int64.toInt_mul, day, Int.bmod_eq_of_le (by omega) (by omega)]
      omega
    have second : (Int64.ofInt t.second).toInt = t.second := Int64.toInt_ofInt_of_le (by omega) (by omega)
    have difference : (Int64.ofInt t.second - days * 86400).toInt = t.second - 86400 * days.toInt := by
      rw [Int64.toInt_sub, second, product, Int.bmod_eq_of_le (by omega) (by omega)]
    rw [difference]
    exact of?_eq_some_iff

end Instant

namespace Rule

variable {rule : Rule} {operator turned : Operator} {now : Instant}

/-- A rule on the customer's age with one of its two operators counts days and moves back from the present. -/
theorem Term.condition_of_age {term : Term} (now : Instant) (onAge : term.field = customerAge)
    (token : Operator.ofToken? term.operator = some operator) (turns : operator.Turns turned) :
    term.condition now =
      match dayCount? term.value with
      | none => .error .ageNotDays
      | some days =>
        match now.daysEarlier? days with
        | none => .error .ageOutOfRange
        | some cutoff => .ok ⟨"createdAt", turned, .instant cutoff⟩ := by
  have named : term.field ≠ "" := by
    rw [onAge]
    decide
  have known : term.operator ≠ "" := by
    intro blank
    rw [blank] at token
    cases token
  rw [condition, if_neg (not_or.2 ⟨named, known⟩), token]
  dsimp only
  rw [if_pos onAge]
  obtain ⟨rfl, rfl⟩ | ⟨rfl, rfl⟩ := turns <;> rfl

/-- The cutoff of an age is exact, or the rule is left out. Away from leap seconds, a rule on the customer's age with
one of its two operators makes a condition exactly if its value names a number of days and there is an instant that
lies so many days before the present; then this instant is the cutoff. Otherwise the rule is left out, because
the value names no number of days, or because no instant lies so far away. Every number of days fits a word, and
the arithmetic of words, which wraps, leads to the same instant or to none like that of the integers. -/
theorem age_cutoff_exact (onAge : rule.term.field = customerAge)
    (token : Operator.ofToken? rule.term.operator = some operator) (turns : operator.Turns turned)
    (plain : now.nano < 1000000000) :
    (∀ c, rule.condition? now = some c ↔
        ∃ days cutoff, rule.value.NamesDays days ∧ cutoff.IsDaysBefore days now ∧
          c = ⟨"createdAt", turned, .instant cutoff⟩) ∧
      (rule.drop? now = some ⟨rule.term, .ageNotDays⟩ ↔ ∀ days, ¬ rule.value.NamesDays days) ∧
      (rule.drop? now = some ⟨rule.term, .ageOutOfRange⟩ ↔
        ∃ days, rule.value.NamesDays days ∧ ∀ cutoff : Instant, ¬ cutoff.IsDaysBefore days now) ∧
      ∀ days, rule.value.NamesDays days → ∃ word : Int64, word.toInt = days ∧
        ∀ cutoff, now.daysEarlierInWords? word = some cutoff ↔ cutoff.IsDaysBefore days now := by
  have outcome := Term.condition_of_age now onAge token turns
  have named {days : Int} : rule.value.NamesDays days ↔ dayCount? rule.term.value = some days :=
    dayCount?_eq_some_iff.symm
  have words (days : Int) (counted : rule.value.NamesDays days) : ∃ word : Int64, word.toInt = days ∧
      ∀ cutoff, now.daysEarlierInWords? word = some cutoff ↔ cutoff.IsDaysBefore days now := by
    obtain ⟨least, most⟩ := counted.fits
    have word : (Int64.ofInt days).toInt = days := Int64.toInt_ofInt_of_le (by omega) (by omega)
    refine ⟨.ofInt days, word, fun cutoff => ?_⟩
    rw [Instant.daysEarlierInWords?_eq_some_iff, word]
  cases counted : dayCount? rule.term.value with
  | none =>
    have nameless (days : Int) : ¬ rule.value.NamesDays days := by simp [named, counted]
    have left : rule.term.condition now = .error .ageNotDays := by simp only [outcome, counted]
    have unkept : rule.condition? now = none := by rw [condition?, left]; rfl
    have reported : rule.drop? now = some ⟨rule.term, .ageNotDays⟩ := by rw [drop?, left]
    exact ⟨by simp [unkept, nameless], by simp [reported, nameless], by simp [reported, nameless], words⟩
  | some days =>
    have only {n : Int} : rule.value.NamesDays n ↔ n = days := by simp [named, counted, eq_comm]
    have reached {cutoff : Instant} : now.daysEarlier? days = some cutoff ↔ cutoff.IsDaysBefore days now :=
      Instant.daysEarlier?_eq_some_iff plain
    cases moved : now.daysEarlier? days with
    | none =>
      have unreached (cutoff : Instant) : ¬ cutoff.IsDaysBefore days now := by simp [← reached, moved]
      have left : rule.term.condition now = .error .ageOutOfRange := by simp only [outcome, counted, moved]
      have unkept : rule.condition? now = none := by rw [condition?, left]; rfl
      have reported : rule.drop? now = some ⟨rule.term, .ageOutOfRange⟩ := by rw [drop?, left]
      exact ⟨by simp [unkept, only, unreached], by simp [reported, only], by simp [reported, only, unreached], words⟩
    | some cutoff =>
      have before {u : Instant} : u.IsDaysBefore days now ↔ u = cutoff := by simp [← reached, moved, eq_comm]
      have made : rule.term.condition now = .ok ⟨"createdAt", turned, .instant cutoff⟩ := by
        simp only [outcome, counted, moved]
      have kept := condition?_eq_some_iff.2 made
      have unreported : rule.drop? now = none := by rw [drop?, made]
      exact ⟨by simp [kept, only, before, eq_comm], by simp [unreported, only],
        by simp [unreported, only, before], words⟩

theorem age_cutoff_exact_on_the_first_day :
    let first : Instant := ⟨-8334601228800, 0, by decide, by decide, by decide, by decide⟩
    let reaching := Rule.single " customer_age" "greaterThan" (.string " +96465292\n")
    let beyond := Rule.single " customer_age" "greaterThan" (.number (.integer ⟨96465293, by decide⟩))
    reaching.term.field = customerAge ∧ Operator.ofToken? reaching.term.operator = some .greaterThan ∧
      Operator.greaterThan.Turns .lessThan ∧ Instant.epoch.nano < 1000000000 ∧
      reaching.condition? .epoch = some ⟨"createdAt", .lessThan, .instant first⟩ ∧
      beyond.drop? .epoch = some ⟨beyond.term, .ageOutOfRange⟩ := by
  intro first reaching beyond
  have onAge : reaching.term.field = customerAge := by decide +kernel
  have token : Operator.ofToken? reaching.term.operator = some .greaterThan := by decide +kernel
  have turns : Operator.greaterThan.Turns .lessThan := .inl ⟨rfl, rfl⟩
  have plain : Instant.epoch.nano < 1000000000 := by decide
  have named : reaching.value.NamesDays 96465292 := dayCount?_eq_some_iff.1 (by decide +kernel)
  have kept := (age_cutoff_exact onAge token turns plain).1
  have farOnAge : beyond.term.field = customerAge := by decide +kernel
  have farToken : Operator.ofToken? beyond.term.operator = some .greaterThan := by decide +kernel
  obtain ⟨_, _, reported, _⟩ := age_cutoff_exact farOnAge farToken turns plain
  have far : beyond.value.NamesDays 96465293 := .integer (by decide)
  refine ⟨onAge, token, turns, plain, (kept _).2 ⟨96465292, first, named, ⟨rfl, rfl⟩, rfl⟩,
    reported.2 ⟨96465293, far, fun cutoff before => ?_⟩⟩
  have least := cutoff.first_le
  have second : cutoff.second = 0 - 86400 * 96465293 := before.1
  omega

end Rule

end CustomerSegments
