import CustomerSegments.Decimal.Text
import Mathlib.Algebra.Group.Nat.Defs

namespace CustomerSegments.Decimal

theorem ofDigits_eq (cs : List Char) : ofDigits cs = Nat.ofDigitChars 10 cs 0 := by
  rw [Nat.ofDigitChars_eq_foldl]
  rfl

theorem isDigit_of_mem_digits {n : Nat} {c : Char} (mem : c ∈ digits n) : isDigit c = true :=
  Nat.isDigit_of_mem_toDigits (by decide) (by decide) mem

theorem all_isDigit_digits (n : Nat) : (digits n).all isDigit = true :=
  List.all_eq_true.2 fun _ mem => isDigit_of_mem_digits mem

theorem digits_ne_nil (n : Nat) : digits n ≠ [] :=
  Nat.toDigits_ne_nil

theorem ofDigits_digits (n : Nat) : ofDigits (digits n) = n := by
  rw [ofDigits_eq, digits, Nat.ofDigitChars_ten_toDigits]

theorem natural?_digits (n : Nat) : natural? (digits n) = some n := by
  rw [natural?, if_pos ⟨digits_ne_nil n, all_isDigit_digits n⟩, ofDigits_digits]

/-- The digits of a number begin with a digit, so with no sign. -/
theorem exists_digits_eq_cons (n : Nat) : ∃ c cs, digits n = c :: cs ∧ isDigit c = true := by
  cases shape : digits n with
  | nil => exact absurd shape (digits_ne_nil n)
  | cons c cs => exact ⟨c, cs, rfl, isDigit_of_mem_digits (shape ▸ List.mem_cons_self)⟩

theorem integer?_of_digit {c : Char} {cs : List Char} (digit : isDigit c = true) :
    integer? (c :: cs) = (natural? (c :: cs)).map Int.ofNat := by
  unfold integer?
  split
  · next same =>
    cases same
    exact absurd digit (by decide)
  · next same =>
    cases same
    exact absurd digit (by decide)
  · rfl

theorem integer?_ofInt (n : Int) : integer? (ofInt n) = some n := by
  cases n with
  | ofNat n =>
    obtain ⟨c, cs, shape, digit⟩ := exists_digits_eq_cons n
    rw [ofInt, shape, integer?_of_digit digit, ← shape, natural?_digits]
    rfl
  | negSucc n =>
    change (natural? (digits (n + 1))).map (fun m => -(m : Int)) = _
    rw [natural?_digits]
    rfl

theorem int64?_ofInt {n : Int} (least : -9223372036854775808 ≤ n) (most : n ≤ 9223372036854775807) :
    int64? (ofInt n) = some n := by
  rw [int64?, integer?_ofInt, Option.filter_some, if_pos (by simp [least, most])]

/-- A text writes an integer: one digit or more, behind at most one sign. -/
inductive Writes : List Char → Int → Prop
  | unsigned {ds : List Char} (nonempty : ds ≠ []) (digits : ds.all isDigit = true) : Writes ds (ofDigits ds)
  | plus {ds : List Char} (nonempty : ds ≠ []) (digits : ds.all isDigit = true) : Writes ('+' :: ds) (ofDigits ds)
  | minus {ds : List Char} (nonempty : ds ≠ []) (digits : ds.all isDigit = true) : Writes ('-' :: ds) (-ofDigits ds)

theorem natural?_eq_some_iff {cs : List Char} {n : Nat} :
    natural? cs = some n ↔ cs ≠ [] ∧ cs.all isDigit = true ∧ n = ofDigits cs := by
  unfold natural?
  split
  · next some => simp [some, eq_comm]
  · next none =>
    refine ⟨nofun, fun ⟨nonempty, digits, _⟩ => absurd ⟨nonempty, digits⟩ none⟩

theorem integer?_minus (cs : List Char) : integer? ('-' :: cs) = (natural? cs).map fun m : Nat => -(m : Int) := by
  rw [integer?]
  cases natural? cs <;> rfl

theorem integer?_eq_some_iff {cs : List Char} {n : Int} : integer? cs = some n ↔ Writes cs n := by
  constructor
  · intro read
    by_cases negative : ∃ ds, cs = '-' :: ds
    · obtain ⟨ds, rfl⟩ := negative
      rw [integer?_minus] at read
      obtain ⟨m, whole, rfl⟩ := Option.map_eq_some_iff.1 read
      obtain ⟨nonempty, digits, rfl⟩ := natural?_eq_some_iff.1 whole
      exact .minus nonempty digits
    · unfold integer? at read
      split at read
      · next ds => exact absurd ⟨ds, rfl⟩ negative
      · obtain ⟨m, whole, rfl⟩ := Option.map_eq_some_iff.1 read
        obtain ⟨nonempty, digits, rfl⟩ := natural?_eq_some_iff.1 whole
        exact .plus nonempty digits
      · obtain ⟨m, whole, rfl⟩ := Option.map_eq_some_iff.1 read
        obtain ⟨nonempty, digits, rfl⟩ := natural?_eq_some_iff.1 whole
        exact .unsigned nonempty digits
  · intro written
    cases written with
    | unsigned nonempty digits =>
      obtain ⟨c, ds, rfl⟩ := List.exists_cons_of_ne_nil nonempty
      have first : isDigit c = true := (Bool.and_eq_true_iff.1 (List.all_cons ▸ digits)).1
      rw [integer?_of_digit first, natural?_eq_some_iff.2 ⟨nonempty, digits, rfl⟩]
      rfl
    | plus nonempty digits =>
      rw [integer?, natural?_eq_some_iff.2 ⟨nonempty, digits, rfl⟩]
      rfl
    | minus nonempty digits =>
      rw [integer?_minus, natural?_eq_some_iff.2 ⟨nonempty, digits, rfl⟩]
      rfl

theorem int64?_eq_some_iff {cs : List Char} {n : Int} :
    int64? cs = some n ↔ Writes cs n ∧ -9223372036854775808 ≤ n ∧ n ≤ 9223372036854775807 := by
  rw [int64?, Option.filter_eq_some_iff, integer?_eq_some_iff, decide_eq_true_eq]

theorem exists_digit_of_int64? {cs : List Char} {n : Int} (read : int64? cs = some n) : ∃ c ∈ cs, isDigit c = true := by
  have first {ds : List Char} (nonempty : ds ≠ []) (digits : ds.all isDigit = true) : ∃ c ∈ ds, isDigit c = true := by
    obtain ⟨c, member⟩ := List.exists_mem_of_ne_nil ds nonempty
    exact ⟨c, member, List.all_eq_true.1 digits c member⟩
  cases (int64?_eq_some_iff.1 read).1 with
  | unsigned nonempty digits => exact first nonempty digits
  | plus nonempty digits | minus nonempty digits =>
    obtain ⟨c, member, digit⟩ := first nonempty digits
    exact ⟨c, List.mem_cons_of_mem _ member, digit⟩

/-- A decimal has a digit before or behind its point. -/
theorem exists_digit_of_ofUnsigned? {negative : Bool} {cs : List Char} {d : Literal}
    (read : Literal.ofUnsigned? negative cs = some d) : ∃ c ∈ cs, isDigit c = true := by
  refine Classical.byContradiction fun none => ?_
  have digitless {ds : List Char} (within : ds ⊆ cs) : ds.takeWhile isDigit = [] := by
    cases ds with
    | nil => rfl
    | cons c ds => exact List.takeWhile_cons_of_neg fun digit => none ⟨c, within List.mem_cons_self, digit⟩
  have rest : cs.dropWhile isDigit ⊆ cs := (List.dropWhile_suffix isDigit).subset
  rw [Literal.ofUnsigned?, digitless (List.Subset.refl cs)] at read
  split at read
  next fraction behind shape =>
    have blank : fraction = [] := by
      split at shape
      · next tail point =>
        cases shape
        exact digitless fun c member => rest (point ▸ List.mem_cons_of_mem _ member)
      · cases shape
        rfl
    rw [blank] at read
    cases read

/-- What is read as a finite double has a digit. -/
theorem exists_digit_of_float? {cs : List Char} {x : Float} (read : float? cs = some x) (finite : x.isFinite = true) :
    ∃ c ∈ cs, isDigit c = true := by
  unfold float? at read
  split at read
  next negative unsigned shape =>
    have within : unsigned ⊆ cs := by
      split at shape <;> cases shape
      · exact List.subset_cons_self _ _
      · exact List.subset_cons_self _ _
      · exact List.Subset.refl cs
    dsimp only at read
    by_cases infinite : unsigned.map Char.toLower = ['i', 'n', 'f'] ∨
        unsigned.map Char.toLower = ['i', 'n', 'f', 'i', 'n', 'i', 't', 'y']
    · rw [if_pos infinite, Option.some.injEq] at read
      subst read
      cases negative <;> exact absurd finite (by decide)
    rw [if_neg infinite] at read
    by_cases number : unsigned.map Char.toLower = ['n', 'a', 'n']
    · rw [if_pos number, Option.some.injEq] at read
      subst read
      exact absurd finite (by decide)
    rw [if_neg number] at read
    obtain ⟨d, made, _⟩ := Option.map_eq_some_iff.1 read
    obtain ⟨c, member, digit⟩ := exists_digit_of_ofUnsigned? made
    exact ⟨c, within member, digit⟩

section

variable {width n : Nat}

theorem length_padded (wide : 0 < width) (fits : n < 10 ^ width) : (padded width n).length = width := by
  have short : (digits n).length ≤ width := (Nat.length_toDigits_le_iff (by decide) wide).2 fits
  rw [padded, List.length_append, List.length_replicate]
  omega

theorem all_isDigit_padded (width n : Nat) : (padded width n).all isDigit = true := by
  rw [padded, List.all_append, all_isDigit_digits, List.all_replicate]
  simp [isDigit]

theorem padded_ne_nil (width n : Nat) : padded width n ≠ [] := by
  rw [padded]
  exact List.append_ne_nil_of_right_ne_nil _ (digits_ne_nil n)

theorem exists_padded_eq_cons (width n : Nat) : ∃ c cs, padded width n = c :: cs ∧ isDigit c = true := by
  have digits := all_isDigit_padded width n
  cases shape : padded width n with
  | nil => exact absurd shape (padded_ne_nil width n)
  | cons c cs =>
    rw [shape, List.all_cons, Bool.and_eq_true] at digits
    exact ⟨c, cs, rfl, digits.1⟩

theorem ofDigits_padded (width n : Nat) : ofDigits (padded width n) = n := by
  rw [ofDigits_eq, padded, Nat.ofDigitChars_append, Nat.ofDigitChars_replicate_zero, Nat.mul_zero, ← ofDigits_eq,
    ofDigits_digits]

end

/-- No digit follows. -/
def Stops (cs : List Char) : Prop :=
  ∀ c ∈ cs.head?, isDigit c = false

theorem takeWhile_isDigit {run rest : List Char} (digits : run.all isDigit = true) (stops : Stops rest) :
    (run ++ rest).takeWhile isDigit = run := by
  rw [List.takeWhile_append_of_pos (by simpa using digits)]
  cases rest with
  | nil => simp
  | cons c cs =>
    rw [List.takeWhile_cons_of_neg, List.append_nil]
    rw [stops c rfl]
    exact Bool.false_ne_true

theorem dropWhile_isDigit {run rest : List Char} (digits : run.all isDigit = true) (stops : Stops rest) :
    (run ++ rest).dropWhile isDigit = rest := by
  have whole := List.takeWhile_append_dropWhile (p := isDigit) (l := run ++ rest)
  rw [takeWhile_isDigit digits stops] at whole
  exact List.append_cancel_left whole

/-- A run of digits is taken from the front if no digit follows. -/
theorem take?_append (least most : Nat) {run rest : List Char} (digits : run.all isDigit = true)
    (enough : least ≤ run.length) (fits : run.length ≤ most) (stops : Stops rest) :
    take? least most (run ++ rest) = some (ofDigits run, rest) := by
  have front : ((run ++ rest).take most).takeWhile isDigit = run := by
    rw [List.take_append, List.take_of_length_le fits]
    refine takeWhile_isDigit digits fun c mem => stops c ?_
    cases rest with
    | nil => simp at mem
    | cons d cs =>
      cases room : most - run.length with
      | zero => simp [room] at mem
      | succ k => simpa [room] using mem
  rw [take?, front, if_pos enough, List.drop_left]

/-- A run of digits that fills the room is taken from the front, whatever follows. -/
theorem take?_append_of_full {least : Nat} {run : List Char} (digits : run.all isDigit = true)
    (enough : least ≤ run.length) (rest : List Char) : take? least run.length (run ++ rest) = some (ofDigits run, rest) := by
  have front : ((run ++ rest).take run.length).takeWhile isDigit = run := by
    have alone : Stops [] := nofun
    rw [List.take_left]
    simpa using takeWhile_isDigit digits alone
  rw [take?, front, if_pos enough, List.drop_left]

theorem take?_padded {least width n : Nat} (wide : 0 < width) (enough : least ≤ width) (fits : n < 10 ^ width)
    (rest : List Char) : take? least width (padded width n ++ rest) = some (n, rest) := by
  have length := length_padded wide fits
  have taken := take?_append_of_full (all_isDigit_padded width n) (by omega : least ≤ (padded width n).length) rest
  rwa [length, ofDigits_padded] at taken

end CustomerSegments.Decimal
