import Mathlib.Tactic.IntervalCases
import Mathlib.Tactic.SplitIfs
import Mathlib.Order.Lattice
import Mathlib.Logic.Function.Iterate
import TakaFlow.Format

/-!
# The civil calendar

`civilOfDays` and `daysOfCivil` are inverse to each other, and the months between them have their
lengths. Years begin in March, as in the conversions.
-/

namespace TakaFlow

/-! ### Years of an era -/

/-- The year of an era in which its `doe`-th day lies. -/
def yearOfEra (doe : ℕ) : ℕ := (doe - doe / 1460 + doe / 36524 - doe / 146096) / 365

/-- The first day of a year of an era. -/
def yearStart (yoe : ℕ) : ℕ := 365 * yoe + yoe / 4 - yoe / 100

/-- Gregorian leap years. -/
def isLeap (year : ℕ) : Bool := year % 4 = 0 ∧ (year % 100 ≠ 0 ∨ year % 400 = 0)

/-- A year from March on is as long as the February at its end makes it. -/
def yearLength (yoe : ℕ) : ℕ := if isLeap (yoe + 1) then 366 else 365

lemma yearOfEra_mono {m n : ℕ} (h : m ≤ n) : yearOfEra m ≤ yearOfEra n := by
  induction h with
  | refl => exact le_rfl
  | @step n _ ih =>
    have hstep : yearOfEra n ≤ yearOfEra (n + 1) := by
      unfold yearOfEra
      apply Nat.div_le_div_right
      omega
    exact ih.trans hstep

/-- The 400 years of an era, one by one. -/
lemma yearOfEra_ends : ∀ yoe < 400, yearOfEra (yearStart yoe) = yoe ∧
    yearOfEra (yearStart yoe + yearLength yoe - 1) = yoe := by decide +kernel

lemma yearStart_succ (yoe : ℕ) (h : yoe < 399) :
    yearStart (yoe + 1) = yearStart yoe + yearLength yoe := by
  unfold yearStart yearLength isLeap
  simp only [decide_eq_true_eq]
  split_ifs <;> omega

lemma yearStart_last : yearStart 399 + yearLength 399 = 146097 := by decide

lemma yearOfEra_lt {doe : ℕ} (h : doe < 146097) : yearOfEra doe < 400 := by
  unfold yearOfEra
  omega

/-- A day of an era lies in its year. -/
lemma yearOfEra_spec {doe : ℕ} (h : doe < 146097) : yearStart (yearOfEra doe) ≤ doe ∧
    doe < yearStart (yearOfEra doe) + yearLength (yearOfEra doe) := by
  have hlt := yearOfEra_lt h
  generalize hyear : yearOfEra doe = yoe at hlt ⊢
  constructor
  · by_contra hbefore
    cases yoe with
    | zero => exact hbefore (Nat.zero_le _)
    | succ yoe =>
      have hsucc := yearStart_succ yoe (by omega)
      have hend := (yearOfEra_ends yoe (by omega)).2
      have hmono : yearOfEra doe ≤ yearOfEra (yearStart yoe + yearLength yoe - 1) :=
        yearOfEra_mono (by omega)
      omega
  · by_contra hafter
    by_cases hlast : yoe < 399
    · have hsucc := yearStart_succ yoe hlast
      have hstart := (yearOfEra_ends (yoe + 1) (by omega)).1
      have hmono : yearOfEra (yearStart (yoe + 1)) ≤ yearOfEra doe := yearOfEra_mono (by omega)
      omega
    · obtain rfl : yoe = 399 := by omega
      rw [yearStart_last] at hafter
      exact hafter h

/-- The days of a year have it as their year. -/
lemma yearOfEra_eq {doe yoe : ℕ} (h : yoe < 400) (hstart : yearStart yoe ≤ doe)
    (hend : doe < yearStart yoe + yearLength yoe) : yearOfEra doe = yoe := by
  obtain ⟨hfirst, hlast⟩ := yearOfEra_ends yoe h
  have hlow : yearOfEra (yearStart yoe) ≤ yearOfEra doe := yearOfEra_mono hstart
  have hhigh : yearOfEra doe ≤ yearOfEra (yearStart yoe + yearLength yoe - 1) :=
    yearOfEra_mono (by omega)
  omega

/-! ### Months -/

/-- The days of a month. -/
def daysInMonth (year month : ℕ) : ℕ :=
  if month = 2 then if isLeap year then 29 else 28
  else if month = 4 ∨ month = 6 ∨ month = 9 ∨ month = 11 then 30 else 31

/-- A date of the calendar. -/
structure Civil.Valid (c : Civil) : Prop where
  month : 1 ≤ c.month ∧ c.month ≤ 12
  day : 1 ≤ c.day ∧ c.day ≤ daysInMonth c.year c.month

/-- The first day of a month of a year that begins in March. -/
def monthStart (mp : ℕ) : ℕ := (153 * mp + 2) / 5

/-- A day of a month, counted from zero, of a year that begins in March. -/
def marchDate (era yoe mp d : ℕ) : Civil where
  year := yoe + era * 400 + if mp < 10 then 0 else 1
  month := if mp < 10 then mp + 3 else mp - 9
  day := d + 1

lemma isLeap_era (era year : ℕ) : isLeap (year + era * 400) = isLeap year := by
  unfold isLeap
  congr 1
  simp only [eq_iff_iff]
  omega

/-- The months of a year. -/
lemma monthStart_succ (era yoe mp : ℕ) (h : mp < 12) (d : ℕ) :
    (d < daysInMonth (marchDate era yoe mp d).year (marchDate era yoe mp d).month) ↔
      monthStart mp + d < if mp = 11 then yearLength yoe else monthStart (mp + 1) := by
  have hleap : isLeap (yoe + era * 400 + 1) = isLeap (yoe + 1) := by
    rw [show yoe + era * 400 + 1 = yoe + 1 + era * 400 by omega, isLeap_era]
  interval_cases mp
  all_goals simp [marchDate, daysInMonth, monthStart, yearLength, hleap]
  all_goals try omega
  split <;> omega

/-- The month of a day of the year. -/
lemma month_spec {doy : ℕ} (h : doy < 366) : (5 * doy + 2) / 153 < 12 ∧
    monthStart ((5 * doy + 2) / 153) ≤ doy ∧ doy < monthStart ((5 * doy + 2) / 153 + 1) := by
  unfold monthStart
  omega

lemma month_eq {doy mp : ℕ} (hstart : monthStart mp ≤ doy) (hend : doy < monthStart (mp + 1)) :
    (5 * doy + 2) / 153 = mp := by
  unfold monthStart at hstart hend
  omega

/-! ### The conversions -/

lemma civilOfDays_eq (days : ℕ) :
    ∃ era yoe mp d, days + 719468 = era * 146097 + (yearStart yoe + (monthStart mp + d)) ∧
      yoe < 400 ∧ mp < 12 ∧ monthStart mp + d < yearLength yoe ∧
      monthStart mp + d < monthStart (mp + 1) ∧ civilOfDays days = marchDate era yoe mp d := by
  have hdoe : (days + 719468) % 146097 < 146097 := Nat.mod_lt _ (by decide)
  obtain ⟨hstart, hend⟩ := yearOfEra_spec hdoe
  have hyoe := yearOfEra_lt hdoe
  generalize hd : (days + 719468) % 146097 = doe at hdoe hstart hend hyoe
  generalize hy : yearOfEra doe = yoe at hstart hend hyoe
  have hlength : yearLength yoe ≤ 366 := by
    unfold yearLength
    split <;> decide
  have hdoy : doe - yearStart yoe < 366 := by omega
  obtain ⟨hmp, hfirst, hlast⟩ := month_spec hdoy
  refine ⟨(days + 719468) / 146097, yoe, (5 * (doe - yearStart yoe) + 2) / 153,
    doe - yearStart yoe - monthStart ((5 * (doe - yearStart yoe) + 2) / 153), ?_, hyoe, hmp,
    ?_, ?_, ?_⟩
  · omega
  · omega
  · omega
  · have hyear : (doe - doe / 1460 + doe / 36524 - doe / 146096) / 365 = yoe := hy
    have hdoy : doe - (365 * yoe + yoe / 4 - yoe / 100) = doe - yearStart yoe := rfl
    simp only [civilOfDays, hd, hyear, hdoy, marchDate, monthStart]
    generalize (5 * (doe - yearStart yoe) + 2) / 153 = mp at hmp
    rw [Civil.mk.injEq]
    refine ⟨?_, rfl, rfl⟩
    split_ifs <;> omega

lemma daysOfCivil_eq {c : Civil} {y mp : ℕ} (hy : (if c.month ≤ 2 then c.year - 1 else c.year) = y)
    (hmp : (if c.month > 2 then c.month - 3 else c.month + 9) = mp) :
    daysOfCivil c = y / 400 * 146097 + (y % 400 * 365 + y % 400 / 4 - y % 400 / 100 +
      ((153 * mp + 2) / 5 + c.day - 1)) - 719468 := by
  subst hy hmp
  rfl

lemma daysOfCivil_marchDate (era yoe mp d : ℕ) (hyoe : yoe < 400) (hmp : mp < 12) :
    daysOfCivil (marchDate era yoe mp d) =
      era * 146097 + (yearStart yoe + (monthStart mp + d)) - 719468 := by
  have hyear : (if (if mp < 10 then mp + 3 else mp - 9) ≤ 2
      then yoe + era * 400 + (if mp < 10 then 0 else 1) - 1
      else yoe + era * 400 + if mp < 10 then 0 else 1) = yoe + era * 400 := by
    split_ifs <;> omega
  have hmonth : (if (if mp < 10 then mp + 3 else mp - 9) > 2
      then (if mp < 10 then mp + 3 else mp - 9) - 3
      else (if mp < 10 then mp + 3 else mp - 9) + 9) = mp := by
    split_ifs <;> omega
  have hera : (yoe + era * 400) / 400 = era := by omega
  have hrest : (yoe + era * 400) % 400 = yoe := by omega
  have hday : (marchDate era yoe mp d).day = d + 1 := rfl
  have hdays : era * 146097 +
      (yoe * 365 + yoe / 4 - yoe / 100 + ((153 * mp + 2) / 5 + (d + 1) - 1)) =
        era * 146097 + (yearStart yoe + (monthStart mp + d)) := by
    unfold yearStart monthStart
    omega
  rw [daysOfCivil_eq hyear hmonth, hera, hrest, hday, hdays]

lemma yearStart_add_lt {yoe doy : ℕ} (hyoe : yoe < 400) (hdoy : doy < yearLength yoe) :
    yearStart yoe + doy < 146097 := by
  by_cases hlast : yoe = 399
  · subst hlast
    have := yearStart_last
    omega
  · have hlength : yearLength yoe ≤ 366 := by
      unfold yearLength
      split <;> decide
    unfold yearStart
    omega

/-- A day has one year, one month and one number in it. -/
lemma marchDate_unique {era yoe mp d era' yoe' mp' d' : ℕ}
    (heq : era * 146097 + (yearStart yoe + (monthStart mp + d)) =
      era' * 146097 + (yearStart yoe' + (monthStart mp' + d')))
    (hyoe : yoe < 400) (hyear : monthStart mp + d < yearLength yoe)
    (hmonth : monthStart mp + d < monthStart (mp + 1)) (hyoe' : yoe' < 400)
    (hyear' : monthStart mp' + d' < yearLength yoe')
    (hmonth' : monthStart mp' + d' < monthStart (mp' + 1)) :
    marchDate era yoe mp d = marchDate era' yoe' mp' d' := by
  have hlt := yearStart_add_lt hyoe hyear
  have hlt' := yearStart_add_lt hyoe' hyear'
  obtain rfl : era = era' := by omega
  have hdoe : yearStart yoe + (monthStart mp + d) = yearStart yoe' + (monthStart mp' + d') := by
    omega
  have hof := yearOfEra_eq hyoe (Nat.le_add_right _ _) (Nat.add_lt_add_left hyear _)
  have hof' := yearOfEra_eq hyoe' (Nat.le_add_right _ _) (Nat.add_lt_add_left hyear' _)
  obtain rfl : yoe = yoe' := by rw [← hof, ← hof', hdoe]
  have hdoy : monthStart mp + d = monthStart mp' + d' := by omega
  have hmp := month_eq (Nat.le_add_right _ _) hmonth
  have hmp' := month_eq (Nat.le_add_right _ _) hmonth'
  obtain rfl : mp = mp' := by rw [← hmp, ← hmp', hdoy]
  obtain rfl : d = d' := by omega
  rfl

theorem daysOfCivil_civilOfDays (days : ℕ) : daysOfCivil (civilOfDays days) = days := by
  obtain ⟨era, yoe, mp, d, hdays, hyoe, hmp, -, -, hcivil⟩ := civilOfDays_eq days
  rw [hcivil, daysOfCivil_marchDate era yoe mp d hyoe hmp, ← hdays, Nat.add_sub_cancel]

theorem valid_civilOfDays (days : ℕ) : (civilOfDays days).Valid := by
  obtain ⟨era, yoe, mp, d, -, -, hmp, hyear, hmonth, hcivil⟩ := civilOfDays_eq days
  rw [hcivil]
  constructor
  · unfold marchDate
    simp only
    split_ifs <;> omega
  · refine ⟨Nat.succ_le_succ (Nat.zero_le d), ?_⟩
    have hlt := (monthStart_succ era yoe mp hmp d).mpr (by split <;> assumption)
    exact hlt

/-- A date of the calendar, counted from March. -/
lemma Civil.Valid.marchDate {c : Civil} (h : c.Valid) (hyear : 1 ≤ c.year) :
    ∃ era yoe mp d, yoe < 400 ∧ mp < 12 ∧ c = TakaFlow.marchDate era yoe mp d ∧
      monthStart mp + d < if mp = 11 then yearLength yoe else monthStart (mp + 1) := by
  obtain ⟨year, month, day⟩ := c
  obtain ⟨⟨hone, htwelve⟩, hday, hlength⟩ := h
  simp only at hone htwelve hday hlength hyear
  obtain ⟨y, mp, hmp, hy, hm⟩ : ∃ y mp, mp < 12 ∧ year = y + (if mp < 10 then 0 else 1) ∧
      month = if mp < 10 then mp + 3 else mp - 9 := by
    by_cases hlate : 2 < month
    · exact ⟨year, month - 3, by omega, by rw [if_pos (by omega)]; omega,
        by rw [if_pos (by omega)]; omega⟩
    · exact ⟨year - 1, month + 9, by omega, by rw [if_neg (by omega)]; omega,
        by rw [if_neg (by omega)]; omega⟩
  have hcivil : (⟨year, month, day⟩ : Civil) =
      TakaFlow.marchDate (y / 400) (y % 400) mp (day - 1) := by
    unfold TakaFlow.marchDate
    rw [hm, hy, show y % 400 + y / 400 * 400 = y by omega, show day - 1 + 1 = day by omega]
  refine ⟨y / 400, y % 400, mp, day - 1, Nat.mod_lt _ (by decide), hmp, hcivil, ?_⟩
  rw [← monthStart_succ (y / 400) (y % 400) mp hmp (day - 1), ← hcivil]
  simp only
  omega

theorem civilOfDays_daysOfCivil {c : Civil} (h : c.Valid) (hyear : 1970 ≤ c.year) :
    civilOfDays (daysOfCivil c) = c := by
  obtain ⟨era, yoe, mp, d, hyoe, hmp, rfl, hend⟩ := h.marchDate (by omega)
  have hlength : yearLength yoe ≤ 366 ∧ 365 ≤ yearLength yoe := by
    unfold yearLength
    split <;> decide
  have hdoy : monthStart mp + d < yearLength yoe ∧ monthStart mp + d < monthStart (mp + 1) := by
    unfold monthStart at *
    split at hend <;> omega
  -- Only here the year matters: earlier dates have no number.
  have hsince : 719468 ≤ era * 146097 + (yearStart yoe + (monthStart mp + d)) := by
    unfold TakaFlow.marchDate at hyear
    simp only at hyear
    have hfour : yoe / 4 * 4 + 3 ≥ yoe ∧ yoe / 100 ≤ 3 := by omega
    unfold yearStart monthStart
    split at hyear <;> by_cases hera : 5 ≤ era <;> omega
  obtain ⟨era', yoe', mp', d', heq, hyoe', -, hyear', hmonth', hcivil⟩ :=
    civilOfDays_eq (daysOfCivil (TakaFlow.marchDate era yoe mp d))
  rw [daysOfCivil_marchDate era yoe mp d hyoe hmp, Nat.sub_add_cancel hsince] at heq
  rw [hcivil]
  exact (marchDate_unique heq hyoe hdoy.1 hdoy.2 hyoe' hyear' hmonth').symm

theorem year_civilOfDays (days : ℕ) : 1970 ≤ (civilOfDays days).year := by
  obtain ⟨era, yoe, mp, d, hdays, hyoe, hmp, hyear, hmonth, hcivil⟩ := civilOfDays_eq days
  rw [hcivil]
  unfold marchDate
  by_contra hlt
  have hlength : yearLength yoe ≤ 366 := by
    unfold yearLength
    split <;> decide
  unfold yearStart monthStart at hdays
  unfold monthStart at hyear hmonth
  simp only at hlt
  split at hlt <;> by_cases hera : era ≤ 3 <;> omega

/-! ### Months, one after the other -/

/-- Months are numbered from January of the year 0. -/
def Civil.monthIndex (c : Civil) : ℕ := c.year * 12 + (c.month - 1)

def monthDays (i : ℕ) : ℕ := daysInMonth (i / 12) (i % 12 + 1)

/-- A day of a month, or its last one where it has no such day. -/
def clampedDate (i day : ℕ) : Civil := ⟨i / 12, i % 12 + 1, min day (monthDays i)⟩

def microsPerDay : ℕ := 1000 * msPerDay

/-- The UTC date of an instant. -/
def civilDate (t : Timestamp) : Civil := civilOfDays (t / microsPerDay)

/-- The instant of the same time on another date. -/
def onDate (c : Civil) (t : Timestamp) : Timestamp :=
  daysOfCivil c * microsPerDay + t % microsPerDay

/-- `+ interval '1 month'` in UTC: the day is clamped to the length of the month. -/
def addMonthUtc (t : Timestamp) : Timestamp :=
  onDate (clampedDate ((civilDate t).monthIndex + 1) (civilDate t).day) t

lemma monthDays_bounds (i : ℕ) : 28 ≤ monthDays i ∧ monthDays i ≤ 31 := by
  unfold monthDays daysInMonth
  split_ifs <;> decide

lemma valid_clampedDate {i day : ℕ} (h : 1 ≤ day) : (clampedDate i day).Valid := by
  obtain ⟨hlow, -⟩ := monthDays_bounds i
  constructor
  · unfold clampedDate
    simp only
    omega
  · exact ⟨le_min h (by omega), min_le_right _ _⟩

lemma onDate_div {c : Civil} {t : Timestamp} : onDate c t / microsPerDay = daysOfCivil c := by
  have hpos : 0 < microsPerDay := by decide
  unfold onDate
  rw [Nat.add_comm, Nat.add_mul_div_right _ _ hpos, Nat.div_eq_of_lt (Nat.mod_lt _ hpos),
    Nat.zero_add]

lemma onDate_mod {c : Civil} {t : Timestamp} : onDate c t % microsPerDay = t % microsPerDay := by
  unfold onDate
  rw [Nat.add_comm, Nat.add_mul_mod_self_right, Nat.mod_mod]

lemma civilDate_onDate {c : Civil} {t : Timestamp} (h : c.Valid) (hyear : 1970 ≤ c.year) :
    civilDate (onDate c t) = c := by
  rw [civilDate, onDate_div, civilOfDays_daysOfCivil h hyear]

lemma valid_civilDate (t : Timestamp) : (civilDate t).Valid := valid_civilOfDays _

lemma year_civilDate (t : Timestamp) : 1970 ≤ (civilDate t).year := year_civilOfDays _

/-- The month of a date by its number. -/
lemma Civil.Valid.index {c : Civil} (h : c.Valid) :
    c.monthIndex / 12 = c.year ∧ c.monthIndex % 12 + 1 = c.month := by
  obtain ⟨hone, htwelve⟩ := h.month
  unfold Civil.monthIndex
  omega

lemma Civil.Valid.eq_index {c : Civil} (h : c.Valid) :
    c = ⟨c.monthIndex / 12, c.monthIndex % 12 + 1, c.day⟩ := by
  rw [h.index.1, h.index.2]

lemma Civil.Valid.day_le {c : Civil} (h : c.Valid) : c.day ≤ monthDays c.monthIndex := by
  unfold monthDays
  rw [h.index.1, h.index.2]
  exact h.day.2

/-- One month on. -/
lemma civilDate_addMonthUtc (t : Timestamp) : civilDate (addMonthUtc t) =
    clampedDate ((civilDate t).monthIndex + 1) (civilDate t).day := by
  refine civilDate_onDate (valid_clampedDate (valid_civilDate t).day.1) ?_
  have hyear := year_civilDate t
  unfold clampedDate Civil.monthIndex
  simp only
  omega

lemma addMonthUtc_mod (t : Timestamp) : addMonthUtc t % microsPerDay = t % microsPerDay :=
  onDate_mod

lemma iterate_mod (t : Timestamp) (k : ℕ) :
    addMonthUtc^[k] t % microsPerDay = t % microsPerDay := by
  induction k with
  | zero => rw [Function.iterate_zero_apply]
  | succ k ih => rw [Function.iterate_succ_apply', addMonthUtc_mod, ih]

/-- A number of months on: the month is the right one, and the day is the least of those it has
been clamped to. -/
lemma civilDate_iterate {t : Timestamp} {i d : ℕ} (h : civilDate t = ⟨i / 12, i % 12 + 1, d⟩)
    (k : ℕ) : ∃ day, civilDate (addMonthUtc^[k] t) = ⟨(i + k) / 12, (i + k) % 12 + 1, day⟩ ∧
      ∀ a, a ≤ day ↔ a ≤ d ∧ ∀ j, 1 ≤ j → j ≤ k → a ≤ monthDays (i + j) := by
  induction k with
  | zero =>
    rw [Function.iterate_zero_apply]
    refine ⟨d, h, fun a => ?_⟩
    constructor
    · intro ha
      exact ⟨ha, fun j hone hzero => absurd (hone.trans hzero) (by decide)⟩
    · exact And.left
  | succ k ih =>
    obtain ⟨day, hdate, hday⟩ := ih
    have hindex : (civilDate (addMonthUtc^[k] t)).monthIndex = i + k := by
      rw [hdate]
      unfold Civil.monthIndex
      simp only
      omega
    have hdayk : (civilDate (addMonthUtc^[k] t)).day = day := by rw [hdate]
    rw [Function.iterate_succ_apply', civilDate_addMonthUtc, hindex, hdayk]
    refine ⟨min day (monthDays (i + (k + 1))), rfl, fun a => ?_⟩
    rw [le_min_iff, hday, and_assoc]
    refine and_congr_right fun _ => ?_
    constructor
    · rintro ⟨hall, hlast⟩ j hone hle
      rcases Nat.lt_or_eq_of_le hle with hlt | rfl
      · exact hall j hone (Nat.lt_succ_iff.mp hlt)
      · exact hlast
    · intro hall
      exact ⟨fun j hone hle => hall j hone (hle.trans (Nat.le_succ k)),
        hall (k + 1) (Nat.le_add_left 1 k) le_rfl⟩

end TakaFlow
