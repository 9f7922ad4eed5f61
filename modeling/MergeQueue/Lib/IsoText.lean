import Mathlib.Tactic.Common
import Mathlib.Data.Int.Order.Basic
import Mathlib.Data.Nat.Find
import Mathlib.Data.String.Basic

/-!
# Texts of instants

`datetime.isoformat` of an instant in UTC: the date of the Gregorian calendar, the time of
the day, the microseconds unless there are none, and the offset.  The texts of instants are
ordered as the instants are.
-/

namespace IsoText

/-! ## Decimal numbers of a fixed width -/

/-- The last `w` decimal digits of a number. -/
def pad : ℕ → ℕ → List Char
  | 0, _ => []
  | w + 1, n => pad w (n / 10) ++ [Nat.digitChar (n % 10)]

theorem digitChar_lt {d e : ℕ} (h : d < e) (he : e < 10) : Nat.digitChar d < Nat.digitChar e := by
  have hall : ∀ e < 10, ∀ d < e, Nat.digitChar d < Nat.digitChar e := by decide
  exact hall e he d h

/-- The smaller number has the smaller text, whatever follows. -/
theorem pad_append_lt {w a b : ℕ} (h : a < b) (hb : b < 10 ^ w) (l l' : List Char) :
    pad w a ++ l < pad w b ++ l' := by
  induction w generalizing a b l l' with
  | zero =>
      rw [Nat.pow_zero] at hb
      omega
  | succ w ih =>
      rw [Nat.pow_succ] at hb
      simp only [pad, List.append_assoc, List.singleton_append]
      by_cases htens : a / 10 < b / 10
      · exact ih htens (by omega) _ _
      · have heq : a / 10 = b / 10 := by omega
        rw [heq]
        refine List.append_left_lt (List.cons_lt_cons_iff.mpr (Or.inl ?_))
        exact digitChar_lt (by omega) (by omega)

/-! ## The calendar -/

/-- The days of the calendar before the year. -/
def daysBeforeYear (year : ℕ) : ℕ :=
  (year - 1) * 365 + (year - 1) / 4 - (year - 1) / 100 + (year - 1) / 400

def isLeap (year : ℕ) : Bool :=
  year % 4 = 0 && (year % 100 ≠ 0 || year % 400 = 0)

/-- The days of the year before the month. -/
def daysBeforeMonth (year month : ℕ) : ℕ :=
  [0, 0, 31, 59, 90, 120, 151, 181, 212, 243, 273, 304, 334].getD month 0 +
    if 2 < month ∧ isLeap year then 1 else 0

/-- The year of the day with this number, the first day of the calendar being day one. -/
def yearOf (ordinal : ℕ) : ℕ :=
  Nat.findGreatest (fun year ↦ daysBeforeYear year < ordinal) (ordinal / 365 + 1)

def dayOfYear (ordinal : ℕ) : ℕ := ordinal - daysBeforeYear (yearOf ordinal)

def monthOf (year day : ℕ) : ℕ :=
  Nat.findGreatest (fun month ↦ daysBeforeMonth year month < day) 12

example : yearOf 719163 = 1970 ∧ monthOf 1970 (dayOfYear 719163) = 1 := by decide +kernel

theorem daysBeforeYear_mono {y z : ℕ} (h : y ≤ z) : daysBeforeYear y ≤ daysBeforeYear z := by
  refine monotone_nat_of_le_succ (fun year ↦ ?_) h
  unfold daysBeforeYear
  omega

theorem daysBeforeYear_succ_le (y : ℕ) : daysBeforeYear (y + 1) ≤ daysBeforeYear y + 366 := by
  unfold daysBeforeYear
  omega

theorem daysBeforeYear_lt {n : ℕ} (h : 1 ≤ n) : daysBeforeYear (yearOf n) < n := by
  unfold yearOf
  exact Nat.findGreatest_spec (P := fun year ↦ daysBeforeYear year < n) (Nat.zero_le _) h

/-- A year that begins before the day is not after the year of the day. -/
theorem le_yearOf {n y : ℕ} (h : daysBeforeYear y < n) : y ≤ yearOf n := by
  refine Nat.le_findGreatest ?_ h
  unfold daysBeforeYear at h
  omega

theorem yearOf_mono {n k : ℕ} (h : n ≤ k) : yearOf n ≤ yearOf k := by
  refine Nat.findGreatest_mono (fun year hyear ↦ lt_of_lt_of_le hyear h) ?_
  omega

theorem yearOf_lt {n : ℕ} (h : 1 ≤ n) (hlast : n ≤ 3652059) : yearOf n < 10000 := by
  by_contra hyear
  have hmono : daysBeforeYear 10000 ≤ daysBeforeYear (yearOf n) :=
    daysBeforeYear_mono (Nat.le_of_not_lt hyear)
  have hlt := daysBeforeYear_lt h
  have hstart : daysBeforeYear 10000 = 3652059 := by decide
  omega

theorem dayOfYear_le (n : ℕ) : dayOfYear n ≤ 366 := by
  have hnext : n ≤ daysBeforeYear (yearOf n + 1) := by
    by_contra hlt
    exact absurd (le_yearOf (Nat.lt_of_not_le hlt)) (Nat.not_succ_le_self _)
  have hsucc := daysBeforeYear_succ_le (yearOf n)
  unfold dayOfYear
  omega

theorem daysBeforeMonth_zero (year : ℕ) : daysBeforeMonth year 0 = 0 := by
  simp [daysBeforeMonth]

theorem daysBeforeMonth_lt {year day : ℕ} (h : 1 ≤ day) :
    daysBeforeMonth year (monthOf year day) < day := by
  unfold monthOf
  refine Nat.findGreatest_spec (P := fun month ↦ daysBeforeMonth year month < day)
    (Nat.zero_le _) ?_
  rw [daysBeforeMonth_zero]
  exact h

theorem monthOf_le (year day : ℕ) : monthOf year day ≤ 12 := Nat.findGreatest_le _

theorem monthOf_mono (year : ℕ) {d e : ℕ} (h : d ≤ e) : monthOf year d ≤ monthOf year e :=
  Nat.findGreatest_mono_left (fun _ hmonth ↦ lt_of_lt_of_le hmonth h) 12

/-- No month is longer than a hundred days. -/
theorem dayOfMonth_lt {year day : ℕ} (hday : day ≤ 366) :
    day - daysBeforeMonth year (monthOf year day) < 100 := by
  have hmonths : ∀ month < 12, daysBeforeMonth year (month + 1) ≤
      daysBeforeMonth year month + 32 := by
    unfold daysBeforeMonth
    cases isLeap year <;> decide
  rcases Nat.lt_or_eq_of_le (monthOf_le year day) with hlt | hlast
  · have hnext : day ≤ daysBeforeMonth year (monthOf year day + 1) := by
      by_contra hday
      have hle : monthOf year day + 1 ≤ monthOf year day :=
        Nat.le_findGreatest hlt (Nat.lt_of_not_le hday)
      omega
    have hmonth := hmonths (monthOf year day) hlt
    omega
  · rw [hlast]
    have hdecember : 334 ≤ daysBeforeMonth year 12 := by
      unfold daysBeforeMonth
      cases isLeap year <;> decide
    omega

/-! ## Dates and times -/

/-- The parts of an instant, the largest first. -/
structure Fields where
  year : ℕ
  month : ℕ
  day : ℕ
  hour : ℕ
  minute : ℕ
  second : ℕ
  microsecond : ℕ
  deriving DecidableEq, Repr

namespace Fields

/-- The microseconds, which are left out when there are none, and the offset. -/
def fraction (microsecond : ℕ) : List Char :=
  if microsecond = 0 then "+00:00".toList
  else '.' :: (pad 6 microsecond ++ "+00:00".toList)

def time (f : Fields) : List Char :=
  pad 2 f.hour ++ ':' :: (pad 2 f.minute ++ ':' :: (pad 2 f.second ++ fraction f.microsecond))

def text (f : Fields) : List Char :=
  pad 4 f.year ++ '-' :: (pad 2 f.month ++ '-' :: (pad 2 f.day ++ 'T' :: f.time))

/-- The numbers fit into the widths of the text. -/
structure Fits (f : Fields) : Prop where
  year : f.year < 10 ^ 4
  month : f.month < 10 ^ 2
  day : f.day < 10 ^ 2
  hour : f.hour < 10 ^ 2
  minute : f.minute < 10 ^ 2
  second : f.second < 10 ^ 2
  microsecond : f.microsecond < 10 ^ 6

/-- A field with the same text before it: the smaller number or what follows decides. -/
theorem pad_lt {w a b : ℕ} (hb : b < 10 ^ w) {l l' : List Char} (h : a < b ∨ a = b ∧ l < l') :
    pad w a ++ l < pad w b ++ l' := by
  rcases h with hlt | ⟨rfl, hrest⟩
  · exact pad_append_lt hlt hb l l'
  · exact List.append_left_lt hrest

theorem cons_lt {c : Char} {l l' : List Char} (h : l < l') : c :: l < c :: l' :=
  List.cons_lt_cons_iff.mpr (Or.inr ⟨rfl, h⟩)

theorem fraction_lt {a b : ℕ} (h : a < b) (hb : b < 10 ^ 6) : fraction a < fraction b := by
  unfold fraction
  rw [if_neg (Nat.ne_of_gt (Nat.zero_lt_of_lt h))]
  split_ifs with ha
  · exact List.cons_lt_cons_iff.mpr (Or.inl (by decide))
  · exact cons_lt (pad_append_lt h hb _ _)

variable {f g : Fields}

theorem time_lt (hg : g.Fits)
    (h : f.hour < g.hour ∨ f.hour = g.hour ∧ (f.minute < g.minute ∨ f.minute = g.minute ∧
      (f.second < g.second ∨ f.second = g.second ∧ f.microsecond < g.microsecond))) :
    f.time < g.time := by
  refine pad_lt hg.hour (h.imp_right fun ⟨hhour, hminute⟩ ↦ ⟨hhour, cons_lt ?_⟩)
  refine pad_lt hg.minute (hminute.imp_right fun ⟨hminute, hsecond⟩ ↦ ⟨hminute, cons_lt ?_⟩)
  exact pad_lt hg.second (hsecond.imp_right fun ⟨hsecond, hfraction⟩ ↦
    ⟨hsecond, fraction_lt hfraction hg.microsecond⟩)

theorem text_lt (hg : g.Fits)
    (h : f.year < g.year ∨ f.year = g.year ∧ (f.month < g.month ∨ f.month = g.month ∧
      (f.day < g.day ∨ f.day = g.day ∧ f.time < g.time))) :
    f.text < g.text := by
  refine pad_lt hg.year (h.imp_right fun ⟨hyear, hmonth⟩ ↦ ⟨hyear, cons_lt ?_⟩)
  refine pad_lt hg.month (hmonth.imp_right fun ⟨hmonth, hday⟩ ↦ ⟨hmonth, cons_lt ?_⟩)
  exact pad_lt hg.day (hday.imp_right fun ⟨hday, htime⟩ ↦ ⟨hday, cons_lt htime⟩)

end Fields

/-! ## Instants -/

/-- The microseconds of a day. -/
def dayUs : ℤ := 86400000000

/-- The number of the day of an instant, which is counted from the epoch. -/
def ordinal (t : ℤ) : ℕ := (t / dayUs + 719163).toNat

/-- The microseconds since midnight. -/
def sinceMidnight (t : ℤ) : ℕ := (t % dayUs).toNat

/-- The instants of the calendar, from the year 1 to the year 9999. -/
structure OnCalendar (t : ℤ) : Prop where
  first : -719162 * dayUs ≤ t
  last : t < 2932897 * dayUs

def fields (t : ℤ) : Fields where
  year := yearOf (ordinal t)
  month := monthOf (yearOf (ordinal t)) (dayOfYear (ordinal t))
  day := dayOfYear (ordinal t) -
    daysBeforeMonth (yearOf (ordinal t)) (monthOf (yearOf (ordinal t)) (dayOfYear (ordinal t)))
  hour := sinceMidnight t / 3600000000
  minute := sinceMidnight t / 60000000 % 60
  second := sinceMidnight t / 1000000 % 60
  microsecond := sinceMidnight t % 1000000

def isoformat (t : ℤ) : String := String.ofList (fields t).text

example : isoformat 1709210096000007 = "2024-02-29T12:34:56.000007+00:00" := by decide +kernel

theorem one_le_ordinal {t : ℤ} (h : OnCalendar t) : 1 ≤ ordinal t := by
  have hfirst := h.first
  unfold ordinal
  unfold dayUs at hfirst ⊢
  omega

theorem ordinal_le {t : ℤ} (h : OnCalendar t) : ordinal t ≤ 3652059 := by
  have hlast := h.last
  unfold ordinal
  unfold dayUs at hlast ⊢
  omega

theorem fields_fit {t : ℤ} (h : OnCalendar t) : (fields t).Fits where
  year := yearOf_lt (one_le_ordinal h) (ordinal_le h)
  month := lt_of_le_of_lt (monthOf_le _ _) (by decide)
  day := dayOfMonth_lt (dayOfYear_le _)
  hour := by
    have hday : sinceMidnight t < 86400000000 := by
      unfold sinceMidnight dayUs
      omega
    simp only [fields]
    omega
  minute := by
    simp only [fields]
    omega
  second := by
    simp only [fields]
    omega
  microsecond := by
    simp only [fields]
    omega

/-- The earlier day has the earlier date. -/
theorem date_lt {n k : ℕ} (hn : 1 ≤ n) (h : n < k) :
    yearOf n < yearOf k ∨ yearOf n = yearOf k ∧
      (monthOf (yearOf n) (dayOfYear n) < monthOf (yearOf k) (dayOfYear k) ∨
        monthOf (yearOf n) (dayOfYear n) = monthOf (yearOf k) (dayOfYear k) ∧
          dayOfYear n - daysBeforeMonth (yearOf n) (monthOf (yearOf n) (dayOfYear n)) <
            dayOfYear k - daysBeforeMonth (yearOf k) (monthOf (yearOf k) (dayOfYear k))) := by
  refine (Nat.lt_or_eq_of_le (yearOf_mono h.le)).imp_right fun hyear ↦ ⟨hyear, ?_⟩
  have hstart := daysBeforeYear_lt hn
  have hfirst : 1 ≤ dayOfYear n := by
    unfold dayOfYear
    omega
  have hday : dayOfYear n < dayOfYear k := by
    unfold dayOfYear
    rw [← hyear]
    omega
  rw [← hyear]
  refine (Nat.lt_or_eq_of_le (monthOf_mono _ hday.le)).imp_right fun hmonth ↦ ⟨hmonth, ?_⟩
  have hbefore : daysBeforeMonth (yearOf n) (monthOf (yearOf n) (dayOfYear n)) < dayOfYear n :=
    daysBeforeMonth_lt hfirst
  rw [← hmonth]
  omega

/-- The earlier instant has the smaller text. -/
theorem isoformat_strictMono {s t : ℤ} (hs : OnCalendar s) (ht : OnCalendar t) (h : s < t) :
    isoformat s < isoformat t := by
  rw [isoformat, isoformat, String.lt_iff_toList_lt, String.toList_ofList, String.toList_ofList]
  have hdays : ordinal s ≤ ordinal t := by
    unfold ordinal dayUs
    omega
  rcases Nat.lt_or_eq_of_le hdays with hlt | hsame
  · refine Fields.text_lt (fields_fit ht) ((date_lt (one_le_ordinal hs) hlt).imp_right ?_)
    exact And.imp_right (Or.imp_right (And.imp_right Or.inl))
  · have hrest : sinceMidnight s < sinceMidnight t := by
      have hfirst := hs.first
      have hfirst' := ht.first
      unfold ordinal at hsame
      unfold sinceMidnight
      unfold dayUs at hsame hfirst hfirst' ⊢
      omega
    have htime : (fields s).time < (fields t).time := by
      refine Fields.time_lt (fields_fit ht) ?_
      simp only [fields]
      omega
    refine Fields.text_lt (fields_fit ht) (Or.inr ⟨?_, Or.inr ⟨?_, Or.inr ⟨?_, htime⟩⟩⟩)
    · simp only [fields, hsame]
    · simp only [fields, hsame]
    · simp only [fields, hsame]

/-- Texts are compared as instants are. -/
theorem isoformat_le_iff {s t : ℤ} (hs : OnCalendar s) (ht : OnCalendar t) :
    isoformat s ≤ isoformat t ↔ s ≤ t := by
  constructor
  · intro htext
    by_contra hlt
    exact absurd (isoformat_strictMono ht hs (Int.lt_of_not_ge hlt)) (not_lt_of_ge htext)
  · intro hle
    rcases Int.lt_or_eq_of_le hle with hlt | rfl
    · exact (isoformat_strictMono hs ht hlt).le
    · exact le_rfl

end IsoText
