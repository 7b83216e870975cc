import CustomerSegments.Predicate.Matching

namespace CustomerSegments

section

open Float.Model UnpackedFloat

variable {x y : UnpackedFloat}

/-- Doubles that are equal have the same parts, but for the sign of a zero. -/
theorem eq_or_zeros_of_compare_eq (equal : x.compare y = some .eq) : x = y ∨ ∃ s s', x = .zero s ∧ y = .zero s' := by
  cases x with
  | notANumber => cases equal
  | zero s =>
    cases y with
    | zero s' => exact .inr ⟨s, s', rfl, rfl⟩
    | infinity s' => cases s' <;> cases equal
    | notANumber => cases equal
    | finite s' => cases s' <;> cases equal
  | infinity s =>
    cases y with
    | infinity s' => cases s <;> cases s' <;> first | exact .inl rfl | cases equal
    | _ => cases s <;> cases equal
  | finite s m e pos =>
    cases y with
    | finite s' m' e' pos' =>
      have parts (alike : s = s') : e = e' ∧ m = m' := by
        subst alike
        have level : (Ord.compare e e').then (Ord.compare m m') = .eq := by
          cases s with
          | positive => exact Option.some.inj equal
          | negative => exact Ordering.swap_eq_eq.1 (Option.some.inj equal)
        obtain ⟨exponents, mantissas⟩ := Ordering.then_eq_eq.1 level
        exact ⟨Std.LawfulEqOrd.eq_of_compare exponents, Std.LawfulEqOrd.eq_of_compare mantissas⟩
      have signs : s = s' := by cases s <;> cases s' <;> first | rfl | cases equal
      obtain ⟨rfl, rfl⟩ := parts signs
      exact .inl (by rw [signs])
    | zero => cases s <;> cases equal
    | infinity s' => cases s' <;> cases s <;> cases equal
    | notANumber => cases s <;> cases equal

/-- No comparison looks at the sign of a zero. -/
theorem compare_zero (s s' : Sign) (z : UnpackedFloat) :
    z.compare (.zero s) = z.compare (.zero s') ∧ UnpackedFloat.compare (.zero s) z = UnpackedFloat.compare (.zero s') z := by
  cases z with
  | notANumber => exact ⟨rfl, rfl⟩
  | zero t => exact ⟨rfl, rfl⟩
  | infinity t => cases t <;> exact ⟨rfl, rfl⟩
  | finite t m e pos => cases t <;> exact ⟨rfl, rfl⟩

theorem compare_congr (equal : x.compare y = some .eq) (z : UnpackedFloat) :
    z.compare x = z.compare y ∧ x.compare z = y.compare z := by
  rcases eq_or_zeros_of_compare_eq equal with rfl | ⟨s, s', rfl, rfl⟩
  · exact ⟨rfl, rfl⟩
  · exact compare_zero s s' z

theorem float_beq_iff {x y : Float} : (x == y) = true ↔ x.toModel.unpack.compare y.toModel.unpack = some .eq := by
  change (x.toModel.unpack.compare y.toModel.unpack == some .eq) = true ↔ _
  rw [beq_iff_eq]

theorem float_lt_iff {x y : Float} : x < y ↔ x.toModel.unpack.compare y.toModel.unpack = some .lt := by
  change decide (x.toModel < y.toModel) = true ↔ _
  rw [decide_eq_true_eq]
  change (x.toModel.unpack.compare y.toModel.unpack == some .lt) = true ↔ _
  rw [beq_iff_eq]

end

/-- Equal doubles are compared alike with every other one. -/
theorem compareFloats_congr {x y : Float} (equal : (x == y) = true) (z : Float) :
    (z == x) = (z == y) ∧ compareFloats z x = compareFloats z y := by
  obtain ⟨left, right⟩ := compare_congr (float_beq_iff.1 equal) z.toModel.unpack
  have below : z < x ↔ z < y := by rw [float_lt_iff, float_lt_iff, left]
  have above : x < z ↔ y < z := by rw [float_lt_iff, float_lt_iff, right]
  have level : (z == x) = (z == y) := by rw [Bool.eq_iff_iff, float_beq_iff, float_beq_iff, left]
  refine ⟨level, ?_⟩
  simp only [compareFloats, below, above, level]

namespace Number

variable {n m : Number}

/-- Equal numbers are of one kind, and their doubles are equal. -/
theorem same_cases (equal : n.same m = true) :
    n = m ∨ ∃ x y : Double, n = double x ∧ m = double y ∧ (x.toFloat == y.toFloat) = true := by
  cases n with
  | integer i =>
    cases m with
    | integer j => exact .inl (congrArg integer (by cases i; cases j; simpa [same] using equal))
    | double y => cases equal
  | double x =>
    cases m with
    | integer j => cases equal
    | double y => exact .inr ⟨x, y, rfl, rfl, equal⟩

theorem same_congr (equal : n.same m = true) (k : Number) : k.same n = k.same m := by
  rcases same_cases equal with rfl | ⟨x, y, rfl, rfl, alike⟩
  · rfl
  · cases k with
    | integer i => rfl
    | double z => exact (compareFloats_congr alike z.toFloat).1

theorem toFloat_congr (equal : n.same m = true) (z : Float) :
    (z == n.toFloat) = (z == m.toFloat) ∧ compareFloats z n.toFloat = compareFloats z m.toFloat := by
  rcases same_cases equal with rfl | ⟨x, y, rfl, rfl, alike⟩
  · exact ⟨rfl, rfl⟩
  · exact compareFloats_congr alike z

end Number

namespace Json

mutual

/-- Equal documents are equal to the same documents. -/
theorem same_congr : (v : Json) → {w : Json} → v.same w = true → (a : Json) → a.same v = a.same w
  | null, w, equal, a => by cases w <;> first | rfl | cases equal
  | bool b, w, equal, a => by
    cases w with
    | bool b' => rw [beq_iff_eq.1 (show (b == b') = true from equal)]
    | _ => cases equal
  | string s, w, equal, a => by
    cases w with
    | string s' => rw [beq_iff_eq.1 (show (s == s') = true from equal)]
    | _ => cases equal
  | number n, w, equal, a => by
    cases w with
    | number m => cases a <;> first | rfl | exact Number.same_congr equal _
    | _ => cases equal
  | array xs, w, equal, a => by
    cases w with
    | array ys => cases a <;> first | rfl | exact sameItems_congr xs equal _
    | _ => cases equal
  | object ms, w, equal, a => by
    cases w with
    | object ns => cases a <;> first | rfl | exact sameMembers_congr ms equal _
    | _ => cases equal

theorem sameItems_congr : (xs : List Json) → {ys : List Json} → sameItems xs ys = true → (as : List Json) →
    sameItems as xs = sameItems as ys
  | [], ys, equal, as => by
    cases ys with
    | nil => rfl
    | cons y ys => cases equal
  | x :: xs, ys, equal, as => by
    cases ys with
    | nil => cases equal
    | cons y ys =>
      obtain ⟨first, rest⟩ := Bool.and_eq_true_iff.1 equal
      cases as with
      | nil => rfl
      | cons a as => rw [sameItems, sameItems, same_congr x first, sameItems_congr xs rest]

theorem sameMembers_congr : (ms : List (String × Json)) → {ns : List (String × Json)} → sameMembers ms ns = true →
    (as : List (String × Json)) → sameMembers as ms = sameMembers as ns
  | [], ns, equal, as => by
    cases ns with
    | nil => rfl
    | cons n ns => cases equal
  | (k, x) :: ms, ns, equal, as => by
    cases ns with
    | nil => cases equal
    | cons n ns =>
      obtain ⟨l, y⟩ := n
      obtain ⟨both, rest⟩ := Bool.and_eq_true_iff.1 equal
      obtain ⟨name, first⟩ := Bool.and_eq_true_iff.1 both
      cases as with
      | nil => rfl
      | cons a as =>
        obtain ⟨j, z⟩ := a
        rw [sameMembers, sameMembers, beq_iff_eq.1 name, same_congr x first, sameMembers_congr ms rest]

end

end Json

variable {v w : Json}

theorem equalValues_congr (equal : v.same w = true) (a : Json) : equalValues a v = equalValues a w := by
  cases a with
  | number k =>
    cases v with
    | number n =>
      cases w with
      | number m => exact (Number.toFloat_congr equal k.toFloat).1
      | _ => cases equal
    | _ => cases w <;> first | exact Json.same_congr _ equal _ | cases equal
  | _ => exact Json.same_congr v equal _

/-- The value is equal to one of two lists of equal values if it is to one of the other. -/
theorem any_equalValues_congr : (xs : List Json) → {ys : List Json} → Json.sameItems xs ys = true → (a : Json) →
    xs.any (equalValues a) = ys.any (equalValues a)
  | [], ys, equal, a => by
    cases ys with
    | nil => rfl
    | cons y ys => cases equal
  | x :: xs, ys, equal, a => by
    cases ys with
    | nil => cases equal
    | cons y ys =>
      obtain ⟨first, rest⟩ := Bool.and_eq_true_iff.1 equal
      rw [List.any_cons, List.any_cons, equalValues_congr first, any_equalValues_congr xs rest]

theorem compareTo_congr (equal : v.same w = true) (a : Json) : compareTo a (.value v) = compareTo a (.value w) := by
  cases v with
  | number n =>
    cases w with
    | number m => cases a <;> first | rfl | exact (Number.toFloat_congr equal _).2
    | _ => cases equal
  | string s =>
    cases w with
    | string s' => rw [beq_iff_eq.1 (show (s == s') = true from equal)]
    | _ => cases equal
  | _ => cases w <;> first | (cases a <;> rfl) | cases equal

namespace Operand

/-- Operands that are equal values, or the same instant. -/
def Same : Operand → Operand → Prop
  | value v, value w => v.same w = true
  | instant t, instant u => t = u
  | value _, instant _ | instant _, value _ => False

variable {o o' : Operand}

theorem Same.of_instant {t : Instant} (same : Same o (instant t)) : o = instant t := by
  cases o with
  | value v => exact same.elim
  | instant u => exact congrArg instant same

theorem Same.equals_eq (same : Same o o') (a : Json) : o.equals a = o'.equals a := by
  cases o' with
  | instant t => rw [same.of_instant]
  | value w =>
    cases o with
    | value v => exact equalValues_congr same a
    | instant t => exact same.elim

theorem Same.ordered_eq (same : Same o o') (accept : Ordering → Bool) (a : Json) :
    o.ordered accept a = o'.ordered accept a := by
  cases o' with
  | instant t => rw [same.of_instant]
  | value w =>
    cases o with
    | value v => rw [ordered, ordered, compareTo_congr same a]
    | instant t => exact same.elim

theorem Same.isWithin_eq (same : Same o o') (a : Json) : o.isWithin a = o'.isWithin a := by
  cases o' with
  | instant t => rw [same.of_instant]
  | value w =>
    cases o with
    | value v =>
      cases v with
      | string s =>
        cases w with
        | string s' => rw [beq_iff_eq.1 (show (s == s') = true from same)]
        | _ => cases same
      | _ => cases w <;> first | rfl | cases same
    | instant t => exact same.elim

theorem Same.lists_eq (same : Same o o') (a : Json) : o.lists a = o'.lists a := by
  cases o' with
  | instant t => rw [same.of_instant]
  | value w =>
    cases o with
    | value v =>
      cases v with
      | array xs =>
        cases w with
        | array ys => exact any_equalValues_congr xs same a
        | _ => cases same
      | _ => cases w <;> first | rfl | cases same
    | instant t => exact same.elim

end Operand

/-- Conditions that differ in equal operands only hold of the same documents. -/
theorem Condition.holds_congr {c c' : Condition} (field : c.field = c'.field) (operator : c.operator = c'.operator)
    (same : c.operand.Same c'.operand) (document : Json) : c.holds document = c'.holds document := by
  have test (a : Json) : c.test a = c'.test a := by
    unfold Condition.test
    rw [operator]
    cases c'.operator with
    | equals | notEquals => exact same.equals_eq a
    | greaterThan | lessThan | greaterThanEquals | lessThanEquals => exact same.ordered_eq _ a
    | contains | notContains => exact same.isWithin_eq a
    | isIn => exact same.lists_eq a
  have negative : c.isNegative = c'.isNegative := by rw [isNegative, isNegative, operator]
  rw [holds, holds, field, negative, funext test]

end CustomerSegments
