import CustomerSegments.Time.Calendar

namespace CustomerSegments.Date

/-- The day so many days after the first of March of a year. -/
def afterMarch (year : Int) (inYear : Nat) : Date :=
  let month := (5 * inYear + 2) / 153
  let day := inYear - (153 * month + 2) / 5 + 1
  if month < 10 then ⟨year, month + 3, day⟩ else ⟨year + 1, month - 9, day⟩

/-- A year that begins in March lies so many years after the beginning of a cycle. Only the last
year of four has 366 days, and the last four years of a century only in its last century. -/
structure Place where
  cycle : Int
  century : Nat
  quad : Nat
  quarter : Nat
  inYear : Nat
  century_le : century ≤ 3
  quad_le : quad ≤ 24
  quarter_le : quarter ≤ 3
  inYear_le : inYear ≤ 365
  leap : inYear = 365 → quarter = 3 ∧ (quad = 24 → century = 3)

namespace Place

def year (p : Place) : Int :=
  400 * p.cycle + (100 * p.century + 4 * p.quad + p.quarter : Nat)

/-- The days before a place, counted from the first of March of year 0. -/
def days (p : Place) : Int :=
  146097 * p.cycle + (36524 * p.century + 1461 * p.quad + 365 * p.quarter + p.inYear : Nat)

theorem days_eq (p : Place) :
    p.days = 365 * p.year + p.year / 4 - p.year / 100 + p.year / 400 + p.inYear := by
  have := p.century_le
  have := p.quad_le
  have := p.quarter_le
  simp only [days, year]
  omega

end Place

/-- The place of a day of a cycle. -/
def Place.of (cycle : Int) (inCycle : Nat) (fits : inCycle < 146097) : Place :=
  let century := min 3 (inCycle / 36524)
  let inCentury := inCycle - century * 36524
  let quad := inCentury / 1461
  let inQuad := inCentury - quad * 1461
  let quarter := min 3 (inQuad / 365)
  { cycle, century, quad, quarter
    inYear := inQuad - quarter * 365
    century_le := by omega
    quad_le := by omega
    quarter_le := by omega
    inYear_le := by omega
    leap := by omega }

theorem Place.days_of {cycle : Int} {inCycle : Nat} (fits : inCycle < 146097) :
    (Place.of cycle inCycle fits).days = 146097 * cycle + inCycle := by
  simp only [Place.of, days]
  omega

theorem inCycle_lt (days : Int) : ((days + 719468) % 146097).toNat < 146097 := by
  omega

/-- The place of a day. -/
def place (days : Int) : Place :=
  .of ((days + 719468) / 146097) ((days + 719468) % 146097).toNat (inCycle_lt days)

theorem days_place (days : Int) : (place days).days = days + 719468 := by
  rw [place, Place.days_of]
  omega

theorem ofDays_eq (days : Int) : ofDays days = afterMarch (place days).year (place days).inYear := rfl

/-- The days before a date are those before the day in March and those of its year. -/
theorem toDays_afterMarch (year : Int) {inYear : Nat} (le : inYear ≤ 365) :
    (afterMarch year inYear).toDays = 365 * year + year / 4 - year / 100 + year / 400 + inYear - 719468 := by
  unfold afterMarch toDays
  dsimp only
  split
  · dsimp only
    rw [if_neg (by omega), if_neg (by omega)]
    omega
  · dsimp only
    rw [if_pos (by omega), if_pos (by omega)]
    omega

/-- The days before the date of a day are that day. -/
theorem toDays_ofDays (days : Int) : (ofDays days).toDays = days := by
  have whole := days_place days
  rw [Place.days_eq] at whole
  rw [ofDays_eq, toDays_afterMarch _ (place days).inYear_le]
  omega

theorem isLeapYear_of_place {p : Place} (last : p.inYear = 365) : isLeapYear (p.year + 1) = true := by
  obtain ⟨quarter, century⟩ := p.leap last
  have := p.century_le
  have := p.quad_le
  have every_four : (p.year + 1) % 4 = 0 := by
    simp only [Place.year]
    omega
  have centuries : (p.year + 1) % 100 = 0 → (p.year + 1) % 400 = 0 := by
    simp only [Place.year]
    omega
  simp only [isLeapYear, every_four, decide_true, Bool.true_and, Bool.or_eq_true, decide_eq_true_eq, ne_eq]
  omega

theorem valid_afterMarch {year : Int} {inYear : Nat} (le : inYear ≤ 365)
    (leap : inYear = 365 → isLeapYear (year + 1) = true) : (afterMarch year inYear).Valid := by
  unfold afterMarch
  dsimp only
  split
  · next early =>
    dsimp only [Valid, monthLength]
    refine ⟨by omega, by omega, by omega, ?_⟩
    rw [if_neg (by omega)]
    split <;> omega
  · next late =>
    dsimp only [Valid, monthLength]
    refine ⟨by omega, by omega, by omega, ?_⟩
    split
    · by_cases last : inYear = 365
      · rw [if_pos (leap last)]
        omega
      · split <;> omega
    · split <;> omega

theorem valid_ofDays (days : Int) : (ofDays days).Valid := by
  rw [ofDays_eq]
  exact valid_afterMarch (place days).inYear_le isLeapYear_of_place

/-- The days of the instants lie in the years of the instants. -/
theorem year_ofDays_bounds {days : Int} (least : -96465292 ≤ days) (most : days ≤ 95026236) :
    -262143 ≤ (ofDays days).year ∧ (ofDays days).year ≤ 262142 := by
  have whole := days_place days
  have := (place days).inYear_le
  rw [Place.days_eq] at whole
  rw [ofDays_eq]
  generalize (place days).year = year at whole ⊢
  unfold afterMarch
  dsimp only
  split
  · have not_first : year ≠ -262144 := by omega
    have above : -262143 ≤ year := by omega
    have below : year ≤ 262142 := by omega
    exact ⟨above, below⟩
  · have above : -262144 ≤ year := by omega
    have not_last : year ≠ 262142 := by omega
    have below : year ≤ 262142 := by omega
    dsimp only
    omega

end CustomerSegments.Date
