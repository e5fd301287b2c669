import Schemata.Instant

/-! Counting days and reading the calendar off the count are inverse. Four hundred years are cut into
centuries, these into groups of four years that end with a leap year, and these into years that begin in
March. -/
namespace Schemata.Date

/-- The place of a day in its four hundred years. The last day of a year of 366 days is the leap day. -/
structure Place where
  century : Int
  quad : Int
  year : Int
  rest : Int
  century_bounds : 0 ≤ century ∧ century ≤ 3
  quad_bounds : 0 ≤ quad ∧ quad ≤ 24
  year_bounds : 0 ≤ year ∧ year ≤ 3
  rest_bounds : 0 ≤ rest ∧ rest ≤ 365
  leap : rest = 365 → year = 3 ∧ (quad < 24 ∨ century = 3)

namespace Place

def day (p : Place) : Int := 36524 * p.century + 1461 * p.quad + 365 * p.year + p.rest

/-- The year within the four hundred. -/
def yearOfEra (p : Place) : Int := 100 * p.century + 4 * p.quad + p.year

theorem exists_of_day {day : Int} (low : 0 ≤ day) (high : day ≤ 146096) : ∃ p : Place, p.day = day := by
  let century := min 3 (day / 36524)
  let quad := (day - 36524 * century) / 1461
  let year := min 3 ((day - 36524 * century - 1461 * quad) / 365)
  have bounds : 0 ≤ century ∧ century ≤ 3 ∧ 0 ≤ quad ∧ quad ≤ 24 ∧ 0 ≤ year ∧ year ≤ 3 ∧
      0 ≤ day - 36524 * century - 1461 * quad - 365 * year ∧
      day - 36524 * century - 1461 * quad - 365 * year ≤ 365 ∧
      (day - 36524 * century - 1461 * quad - 365 * year = 365 →
        year = 3 ∧ (quad < 24 ∨ century = 3)) := by
    simp only [century, quad, year]
    omega
  obtain ⟨c0, c3, q0, q24, y0, y3, r0, r365, leap⟩ := bounds
  refine ⟨⟨century, quad, year, _, ⟨c0, c3⟩, ⟨q0, q24⟩, ⟨y0, y3⟩, ⟨r0, r365⟩, leap⟩, ?_⟩
  simp only [Place.day]
  omega

theorem yearOfEra_eq (p : Place) :
    (p.day - p.day / 1460 + p.day / 36524 - p.day / 146096) / 365 = p.yearOfEra := by
  obtain ⟨century, quad, year, rest, ⟨c0, c3⟩, ⟨q0, q24⟩, ⟨y0, y3⟩, ⟨r0, r365⟩, leap⟩ := p
  simp only [yearOfEra]
  generalize split : Place.day _ = day
  simp only [Place.day] at split
  have centuries : day / 36524 - day / 146096 = century := by
    have inside : 1461 * quad + 365 * year + rest < 36524 ∨ day = 146096 := by omega
    rcases inside with inside | last
    · have whole : day / 36524 = century := by omega
      have none : day / 146096 = 0 := by omega
      omega
    · subst last
      omega
  have quads : day / 1460 = 25 * century + quad + (24 * century + quad + 365 * year + rest) / 1460 := by
    omega
  -- A leap day more than the years have each is only counted late in the last of the four years.
  have late : (24 * century + quad + 365 * year + rest) / 1460 = 0 ∧ rest ≤ 364 ∨
      (24 * century + quad + 365 * year + rest) / 1460 = 1 ∧ 1 ≤ rest := by omega
  omega

theorem dayOfYear_eq (p : Place) :
    p.day - (365 * p.yearOfEra + p.yearOfEra / 4 - p.yearOfEra / 100) = p.rest := by
  obtain ⟨century, quad, year, rest, ⟨c0, c3⟩, ⟨q0, q24⟩, ⟨y0, y3⟩, ⟨r0, r365⟩, leap⟩ := p
  simp only [day, yearOfEra]
  have quads : (100 * century + 4 * quad + year) / 4 = 25 * century + quad := by omega
  have centuries : (100 * century + 4 * quad + year) / 100 = century := by omega
  omega

theorem yearOfEra_bounds (p : Place) : 0 ≤ p.yearOfEra ∧ p.yearOfEra ≤ 399 := by
  obtain ⟨century, quad, year, rest, cs, qs, ys, rs, leap⟩ := p
  simp only [yearOfEra]
  omega

/-- The first day of a year of the era is `365` times its number, and a day for every fourth year that is
not a hundredth one. -/
theorem day_eq (p : Place) :
    p.day = 365 * p.yearOfEra + p.yearOfEra / 4 - p.yearOfEra / 100 + p.rest := by
  have back := p.dayOfYear_eq
  omega

/-- Months from March, starting with zero. -/
def month (p : Place) : Int := (5 * p.rest + 2) / 153

def dayOfMonth (p : Place) : Int := p.rest - (153 * p.month + 2) / 5 + 1

theorem month_bounds (p : Place) : 0 ≤ p.month ∧ p.month ≤ 11 := by
  have bounds := p.rest_bounds
  unfold month
  omega

theorem month_cases (p : Place) : p.month = 0 ∨ p.month = 1 ∨ p.month = 2 ∨ p.month = 3 ∨ p.month = 4 ∨
    p.month = 5 ∨ p.month = 6 ∨ p.month = 7 ∨ p.month = 8 ∨ p.month = 9 ∨ p.month = 10 ∨ p.month = 11 := by
  have bounds := p.month_bounds
  omega

theorem dayOfMonth_pos (p : Place) : 1 ≤ p.dayOfMonth := by
  have bounds := p.rest_bounds
  unfold dayOfMonth month
  omega

end Place

/-- The date at a place of the given four hundred years. -/
def ofPlace (era : Int) (p : Place) : Date where
  year := p.yearOfEra + era * 400 + if p.month < 10 then 0 else 1
  month := (if p.month < 10 then p.month + 3 else p.month - 9).toNat
  day := p.dayOfMonth.toNat

theorem ofDays_eq (days : Int) : ∃ era p, days + 719468 = era * 146097 + Place.day p ∧
    ofDays days = ofPlace era p := by
  have cut : (days + 719468).fdiv 146097 = (days + 719468) / 146097 :=
    Int.fdiv_eq_ediv_of_nonneg _ (by decide)
  obtain ⟨p, day⟩ := @Place.exists_of_day (days + 719468 - (days + 719468) / 146097 * 146097)
    (by omega) (by omega)
  refine ⟨(days + 719468) / 146097, p, by omega, ?_⟩
  have bounds := p.month_bounds
  simp only [ofDays, cut, ← day, p.yearOfEra_eq, p.dayOfYear_eq, ofPlace, mk.injEq]
  refine ⟨?_, rfl, rfl⟩
  change (if (if p.month < 10 then p.month + 3 else p.month - 9) ≤ 2 then _ else _) = _
  by_cases early : p.month < 10
  · rw [if_pos early, if_pos early, if_neg (by omega)]
    exact (Int.add_zero _).symm
  · rw [if_neg early, if_neg early, if_pos (by omega)]

/-- The date of a count of days has that count. -/
theorem toDays_ofDays (days : Int) : (ofDays days).toDays = days := by
  obtain ⟨era, p, split, same⟩ := ofDays_eq days
  have bounds := p.month_bounds
  have first := p.dayOfMonth_pos
  have years := p.yearOfEra_bounds
  have back := p.dayOfYear_eq
  have day : p.dayOfMonth = p.rest - (153 * p.month + 2) / 5 + 1 := rfl
  have cut : (p.yearOfEra + era * 400).fdiv 400 = era := by
    rw [Int.fdiv_eq_ediv_of_nonneg _ (by decide)]
    omega
  rw [same]
  by_cases early : p.month < 10
  · have month : ((p.month + 3).toNat : Int) = p.month + 3 := Int.toNat_of_nonneg (by omega)
    have late : ¬ (p.month + 3).toNat ≤ 2 := by omega
    simp only [toDays, ofPlace, if_pos early, if_neg late, Int.add_zero, cut, month]
    omega
  · have month : ((p.month - 9).toNat : Int) = p.month - 9 := Int.toNat_of_nonneg (by omega)
    have small : (p.month - 9).toNat ≤ 2 := by omega
    simp only [toDays, ofPlace, if_neg early, if_pos small, Int.add_sub_cancel, cut, month]
    omega

theorem month_ofDays (days : Int) : 1 ≤ (ofDays days).month ∧ (ofDays days).month ≤ 12 := by
  obtain ⟨era, p, -, same⟩ := ofDays_eq days
  have bounds := p.month_bounds
  rw [same]
  simp only [ofPlace]
  split <;> omega

theorem isLeap_of_place (era : Int) {p : Place} (leap : p.rest = 365) :
    isLeap (p.yearOfEra + era * 400 + 1) = true := by
  obtain ⟨last, fits⟩ := p.leap leap
  have centuries := p.century_bounds
  have quads := p.quad_bounds
  simp only [isLeap, Place.yearOfEra, last, Bool.and_eq_true, Bool.or_eq_true, decide_eq_true_eq]
  omega

theorem day_ofDays (days : Int) :
    1 ≤ (ofDays days).day ∧ (ofDays days).day ≤ daysIn (ofDays days).year (ofDays days).month := by
  obtain ⟨era, p, -, same⟩ := ofDays_eq days
  have first := p.dayOfMonth_pos
  have bounds := p.rest_bounds
  have month : p.month = (5 * p.rest + 2) / 153 := rfl
  have day : p.dayOfMonth = p.rest - (153 * p.month + 2) / 5 + 1 := rfl
  rw [same]
  simp only [ofPlace]
  refine ⟨by omega, ?_⟩
  -- The last month is February, the only one that depends on the year.
  by_cases february : p.month = 11
  · by_cases leap : p.rest = 365
    · have long := isLeap_of_place era leap
      simp only [february]
      simp [daysIn, long]
      omega
    · simp only [february]
      simp [daysIn]
      split <;> omega
  · rcases p.month_cases with at' | at' | at' | at' | at' | at' | at' | at' | at' | at' | at' | at'
    all_goals
      simp only [at']
      simp [daysIn]
      omega

/-- Days of the calendar have years of the calendar. -/
theorem year_ofDays {days : Int} (after : (Date.mk (-262143) 1 1).toDays ≤ days)
    (before : days < (Date.mk 262143 1 1).toDays) :
    -262143 ≤ (ofDays days).year ∧ (ofDays days).year ≤ 262142 := by
  have first : (Date.mk (-262143) 1 1).toDays = -96465292 := by decide +kernel
  have last : (Date.mk 262143 1 1).toDays = 95026237 := by decide +kernel
  rw [first] at after
  rw [last] at before
  obtain ⟨era, p, split, same⟩ := ofDays_eq days
  have bounds := p.rest_bounds
  have month : p.month = (5 * p.rest + 2) / 153 := rfl
  have years := p.yearOfEra_bounds
  have day := p.day_eq
  rw [same]
  simp only [ofPlace]
  generalize p.yearOfEra = year at *
  constructor
  · have eras : era = -656 ∨ -655 ≤ era := by omega
    rcases eras with rfl | later <;> split <;> omega
  · have eras : era ≤ 654 ∨ era = 655 := by omega
    rcases eras with earlier | rfl <;> split <;> omega

end Schemata.Date
