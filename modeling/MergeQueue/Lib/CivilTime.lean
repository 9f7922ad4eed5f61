import Mathlib.Data.List.Induction
import Mathlib.Data.List.TakeWhile
import Mathlib.Tactic.Ring
import MergeQueue.Lib.IsoText

/-!
# Datetimes

A datetime is what a calendar and a clock show, with the zone they are in, if one is
known.  Its text is read back as the same datetime: the numbers have fixed widths, and
the zone begins at the first sign after the time.
-/

namespace CivilTime

open IsoText

/-! ## Numbers in a text -/

/-- The number that decimal digits stand for. -/
def value (digits : List Char) : ℕ := digits.foldl (fun n c ↦ 10 * n + (c.toNat - 48)) 0

@[simp] theorem value_nil : value [] = 0 := rfl

theorem value_concat (digits : List Char) (c : Char) :
    value (digits ++ [c]) = 10 * value digits + (c.toNat - 48) := by
  simp [value, List.foldl_append]

theorem value_append (front back : List Char) :
    value (front ++ back) = value front * 10 ^ back.length + value back := by
  induction back using List.reverseRecOn with
  | nil => simp
  | append_singleton back c ih =>
      rw [← List.append_assoc, value_concat, value_concat, ih, List.length_append,
        List.length_singleton, Nat.pow_succ]
      ring

theorem digitChar_toNat {d : ℕ} (h : d < 10) : (Nat.digitChar d).toNat - 48 = d := by
  have hall : ∀ d < 10, (Nat.digitChar d).toNat - 48 = d := by decide
  exact hall d h

theorem isDigit_digitChar {d : ℕ} (h : d < 10) : (Nat.digitChar d).isDigit = true := by
  have hall : ∀ d < 10, (Nat.digitChar d).isDigit = true := by decide
  exact hall d h

@[simp] theorem length_pad (w n : ℕ) : (pad w n).length = w := by
  induction w generalizing n with
  | zero => rfl
  | succ w ih => simp [pad, ih]

theorem isDigit_of_mem_pad {w n : ℕ} {c : Char} (hc : c ∈ pad w n) : c.isDigit = true := by
  induction w generalizing n with
  | zero => cases hc
  | succ w ih =>
      rcases List.mem_append.mp hc with hinit | hlast
      · exact ih hinit
      · rw [List.mem_singleton.mp hlast]
        exact isDigit_digitChar (Nat.mod_lt _ (by decide))

theorem value_pad {w n : ℕ} (h : n < 10 ^ w) : value (pad w n) = n := by
  induction w generalizing n with
  | zero =>
      rw [Nat.pow_zero] at h
      have hzero : n = 0 := by omega
      rw [hzero]
      rfl
  | succ w ih =>
      rw [Nat.pow_succ] at h
      rw [pad, value_concat, ih (by omega), digitChar_toNat (Nat.mod_lt _ (by decide))]
      omega

/-- A number of exactly `w` digits, and what follows it. -/
def readNumber (w : ℕ) (text : List Char) : Option (ℕ × List Char) :=
  if (text.take w).length = w ∧ (text.take w).all Char.isDigit then
    some (value (text.take w), text.drop w)
  else none

theorem readNumber_pad {w n : ℕ} (h : n < 10 ^ w) (rest : List Char) :
    readNumber w (pad w n ++ rest) = some (n, rest) := by
  have htake : (pad w n ++ rest).take w = pad w n := List.take_left' (length_pad w n)
  have hdrop : (pad w n ++ rest).drop w = rest := List.drop_left' (length_pad w n)
  have hdigits : (pad w n).all Char.isDigit = true :=
    List.all_eq_true.mpr fun _ ↦ isDigit_of_mem_pad
  rw [readNumber, htake, hdrop, if_pos ⟨length_pad w n, hdigits⟩, value_pad h]

/-! ## Dates -/

def daysInMonth (year month : ℕ) : ℕ :=
  if month = 2 ∧ isLeap year then 29
  else [0, 31, 28, 31, 30, 31, 30, 31, 31, 30, 31, 30, 31].getD month 0

theorem daysBeforeMonth_succ (year : ℕ) {month : ℕ} (hfirst : 1 ≤ month) (hlast : month < 12) :
    daysBeforeMonth year (month + 1) = daysBeforeMonth year month + daysInMonth year month := by
  have hall : ∀ month < 12, 1 ≤ month →
      daysBeforeMonth year (month + 1) = daysBeforeMonth year month + daysInMonth year month := by
    unfold daysBeforeMonth daysInMonth
    cases isLeap year <;> decide
  exact hall month hlast hfirst

theorem daysBeforeMonth_add_le (year : ℕ) {month : ℕ} (hlast : month ≤ 12) :
    daysBeforeMonth year month + daysInMonth year month ≤ daysBeforeMonth year 12 + 31 := by
  have hall : ∀ month < 13, daysBeforeMonth year month + daysInMonth year month ≤
      daysBeforeMonth year 12 + 31 := by
    unfold daysBeforeMonth daysInMonth
    cases isLeap year <;> decide
  exact hall month (by omega)

/-- A leap year has one day more. -/
theorem daysBeforeMonth_twelve (year : ℕ) :
    daysBeforeMonth year 12 = if isLeap year = true then 335 else 334 := by
  unfold daysBeforeMonth
  cases isLeap year <;> rfl

theorem daysBeforeYear_succ {year : ℕ} (h : 1 ≤ year) :
    daysBeforeYear (year + 1) = daysBeforeYear year + daysBeforeMonth year 12 + 31 := by
  obtain ⟨k, rfl⟩ : ∃ k, year = k + 1 := ⟨year - 1, by omega⟩
  have hfour := @Nat.succ_div k 4
  have hhundred := @Nat.succ_div k 100
  have hfourHundred := @Nat.succ_div k 400
  have hle : k / 100 ≤ k / 4 := Nat.div_le_div_left (by decide) (by decide)
  have hnested : (k + 1) % 400 = 0 → (k + 1) % 100 = 0 := by omega
  have hnested' : (k + 1) % 100 = 0 → (k + 1) % 4 = 0 := by omega
  rw [daysBeforeMonth_twelve]
  simp only [daysBeforeYear, isLeap, Nat.add_sub_cancel, hfour, hhundred, hfourHundred,
    Nat.dvd_iff_mod_eq_zero, Bool.and_eq_true, Bool.or_eq_true, decide_eq_true_eq]
  clear hfour hhundred hfourHundred
  generalize k / 4 = fours at *
  generalize k / 100 = hundreds at *
  generalize k / 400 = fourHundreds at *
  split_ifs <;> omega

/-- A date of the calendar and a time of the day. -/
structure Valid (f : Fields) : Prop where
  year : 1 ≤ f.year ∧ f.year < 10000
  month : 1 ≤ f.month ∧ f.month ≤ 12
  day : 1 ≤ f.day ∧ f.day ≤ daysInMonth f.year f.month
  hour : f.hour < 24
  minute : f.minute < 60
  second : f.second < 60
  microsecond : f.microsecond < 1000000

instance (f : Fields) : Decidable (Valid f) :=
  decidable_of_iff ((1 ≤ f.year ∧ f.year < 10000) ∧ (1 ≤ f.month ∧ f.month ≤ 12) ∧
      (1 ≤ f.day ∧ f.day ≤ daysInMonth f.year f.month) ∧ f.hour < 24 ∧ f.minute < 60 ∧
      f.second < 60 ∧ f.microsecond < 1000000)
    ⟨fun ⟨h₁, h₂, h₃, h₄, h₅, h₆, h₇⟩ ↦ ⟨h₁, h₂, h₃, h₄, h₅, h₆, h₇⟩,
      fun h ↦ ⟨h.year, h.month, h.day, h.hour, h.minute, h.second, h.microsecond⟩⟩

/-- The number of the day. -/
def dayNumber (f : Fields) : ℕ := daysBeforeYear f.year + daysBeforeMonth f.year f.month + f.day

/-- The microseconds since midnight. -/
def clockUs (f : Fields) : ℕ :=
  ((f.hour * 60 + f.minute) * 60 + f.second) * 1000000 + f.microsecond

/-- The microseconds since the epoch that a calendar and a clock show. -/
def wallOf (f : Fields) : ℤ := (dayNumber f - 719163 : ℤ) * dayUs + clockUs f

theorem dayNumber_bounds {f : Fields} (h : Valid f) :
    1 ≤ dayNumber f ∧ dayNumber f ≤ 3652059 := by
  have hmonth := daysBeforeMonth_add_le f.year h.month.2
  have hyear := daysBeforeYear_succ h.year.1
  have hmono : daysBeforeYear (f.year + 1) ≤ daysBeforeYear 10000 :=
    daysBeforeYear_mono h.year.2
  have hlast : daysBeforeYear 10000 = 3652059 := by decide
  have hday := h.day
  unfold dayNumber
  omega

theorem clockUs_lt {f : Fields} (h : Valid f) : clockUs f < 86400000000 := by
  have hhour := h.hour
  have hminute := h.minute
  have hsecond := h.second
  have hmicrosecond := h.microsecond
  unfold clockUs
  omega

theorem onCalendar_wallOf {f : Fields} (h : Valid f) : OnCalendar (wallOf f) := by
  have hday := dayNumber_bounds h
  have hclock := clockUs_lt h
  constructor
  · unfold wallOf dayUs
    omega
  · unfold wallOf dayUs
    omega

/-! ## What a calendar and a clock show -/

theorem ordinal_le_year {n : ℕ} (h : 1 ≤ n) :
    daysBeforeYear (yearOf n) < n ∧ n ≤ daysBeforeYear (yearOf n + 1) ∧ 1 ≤ yearOf n := by
  refine ⟨daysBeforeYear_lt h, ?_, ?_⟩
  · by_contra hlt
    have hnext := le_yearOf (Nat.lt_of_not_le hlt)
    omega
  · apply le_yearOf
    have hfirst : daysBeforeYear 1 = 0 := by decide
    omega

theorem one_le_monthOf {year day : ℕ} (h : 1 ≤ day) : 1 ≤ monthOf year day := by
  refine Nat.le_findGreatest (by decide) ?_
  have hjanuary : daysBeforeMonth year 1 = 0 := by simp [daysBeforeMonth]
  omega

theorem dayOfMonth_le {year day : ℕ} (hfirst : 1 ≤ day)
    (hlast : day ≤ daysBeforeMonth year 12 + 31) :
    day - daysBeforeMonth year (monthOf year day) ≤ daysInMonth year (monthOf year day) := by
  have hone := @one_le_monthOf year day hfirst
  rcases Nat.lt_or_eq_of_le (monthOf_le year day) with hlt | hdecember
  · have hsucc := daysBeforeMonth_succ year hone hlt
    have hnext : day ≤ daysBeforeMonth year (monthOf year day + 1) := by
      by_contra hday
      have hle : monthOf year day + 1 ≤ monthOf year day :=
        Nat.le_findGreatest hlt (Nat.lt_of_not_le hday)
      omega
    omega
  · have hdays : daysInMonth year 12 = 31 := by simp [daysInMonth]
    rw [hdecember, hdays]
    omega

theorem valid_fields {t : ℤ} (h : OnCalendar t) : Valid (fields t) := by
  have hone := one_le_ordinal h
  obtain ⟨hstart, hend, hyear⟩ := ordinal_le_year hone
  have hfirst : 1 ≤ dayOfYear (ordinal t) := by
    unfold dayOfYear
    omega
  have hlast : dayOfYear (ordinal t) ≤ daysBeforeMonth (yearOf (ordinal t)) 12 + 31 := by
    rw [daysBeforeYear_succ hyear] at hend
    unfold dayOfYear
    omega
  have hmonth := @daysBeforeMonth_lt (yearOf (ordinal t)) _ hfirst
  have hclock : sinceMidnight t < 86400000000 := by
    unfold sinceMidnight dayUs
    omega
  refine ⟨⟨hyear, yearOf_lt hone (ordinal_le h)⟩, ⟨one_le_monthOf hfirst, monthOf_le _ _⟩,
    ⟨?_, dayOfMonth_le hfirst hlast⟩, ?_, ?_, ?_, ?_⟩
  all_goals
    simp only [fields]
    omega

theorem wallOf_fields {t : ℤ} (h : OnCalendar t) : wallOf (fields t) = t := by
  have hone := one_le_ordinal h
  obtain ⟨hstart, -, -⟩ := ordinal_le_year hone
  have hfirst : 1 ≤ dayOfYear (ordinal t) := by
    unfold dayOfYear
    omega
  have hmonth := @daysBeforeMonth_lt (yearOf (ordinal t)) _ hfirst
  have hday : dayNumber (fields t) = ordinal t := by
    simp only [dayNumber, fields]
    unfold dayOfYear at hmonth ⊢
    omega
  have hclock : clockUs (fields t) = sinceMidnight t := by
    simp only [clockUs, fields]
    omega
  have hfirst := h.first
  rw [wallOf, hday, hclock]
  unfold ordinal sinceMidnight dayUs at *
  omega

/-! ## Zones -/

/-- The microseconds by which a clock is ahead of UTC, less than a day either way. -/
structure Offset where
  us : ℤ
  bounded : -dayUs < us ∧ us < dayUs
  deriving DecidableEq

def Offset.utc : Offset := ⟨0, by decide⟩

/-- The zone of a datetime: a fixed offset, or a named zone with its offset at the
datetime and the one it has there when the clock shows the time for the other time. -/
inductive Zone
  | fixed (offset : Offset)
  | named (name : String) (offset otherFold : Offset)
  deriving DecidableEq

namespace Zone

def utcoffset : Zone → Offset
  | fixed offset => offset
  | named _ offset _ => offset

/-- The offset is the same for both times that the clock may mean.  It differs where the clock
shows a time twice, and also where it skips one. -/
def unambiguous : Zone → Bool
  | fixed _ => true
  | named _ offset otherFold => offset = otherFold

/-- Both are the one object of the zone with that name. -/
def same : Zone → Zone → Bool
  | named name .., named name' .. => name = name'
  | _, _ => false

end Zone

/-- What a calendar and a clock show, within the years 1 to 9999. -/
structure DateTime where
  wall : ℤ
  onCalendar : OnCalendar wall
  zone : Option Zone
  deriving DecidableEq

namespace DateTime

/-- The microseconds since the epoch, where the zone is known. -/
def instant (d : DateTime) (zone : Zone) : ℤ := d.wall - zone.utcoffset.us

/-- `==`: an ambiguous time equals no time of another zone. -/
def eq (a b : DateTime) : Bool :=
  match a.zone, b.zone with
  | none, none => a.wall = b.wall
  | some z, some w =>
      if z.same w then a.wall = b.wall
      else z.unambiguous && w.unambiguous && decide (a.instant z = b.instant w)
  | _, _ => false

/-- The same datetime, with the offset of its zone in place of the zone. -/
def atOffset (d : DateTime) : DateTime :=
  { d with zone := d.zone.map fun z ↦ .fixed z.utcoffset }

theorem atOffset_eq_iff (d : DateTime) :
    d.atOffset.eq d = true ↔ ∀ z ∈ d.zone, z.unambiguous = true := by
  cases hzone : d.zone with
  | none => simp [atOffset, eq, hzone]
  | some z => simp [atOffset, eq, instant, hzone, Zone.same, Zone.unambiguous, Zone.utcoffset]

/-- `<=`, which compares no datetime of a known zone with one of an unknown zone. -/
def le (a b : DateTime) : Option Bool :=
  match a.zone, b.zone with
  | none, none => some (a.wall ≤ b.wall)
  | some z, some w =>
      some (if z.same w then a.wall ≤ b.wall else a.instant z ≤ b.instant w)
  | _, _ => none

def lt (a b : DateTime) : Option Bool := (b.le a).map not

/-- `-` of two datetimes, in microseconds. -/
def sub (a b : DateTime) : Option ℤ :=
  match a.zone, b.zone with
  | none, none => some (a.wall - b.wall)
  | some z, some w => some (if z.same w then a.wall - b.wall else a.instant z - b.instant w)
  | _, _ => none

instance (t : ℤ) : Decidable (OnCalendar t) :=
  decidable_of_iff (-719162 * dayUs ≤ t ∧ t < 2932897 * dayUs)
    ⟨fun ⟨hfirst, hlast⟩ ↦ ⟨hfirst, hlast⟩, fun h ↦ ⟨h.first, h.last⟩⟩

/-- A time span later, unless that is off the calendar. -/
def add (d : DateTime) (us : ℤ) : Option DateTime :=
  if h : OnCalendar (d.wall + us) then some ⟨d.wall + us, h, d.zone⟩ else none

end DateTime

/-! ## Texts -/

/-- The parts of a time of the day, or of an offset. -/
structure Parts where
  hour : ℕ
  minute : ℕ
  second : ℕ
  microsecond : ℕ
  deriving DecidableEq

def Parts.us (p : Parts) : ℕ := ((p.hour * 60 + p.minute) * 60 + p.second) * 1000000 + p.microsecond

def dateText (year month day : ℕ) : List Char :=
  pad 4 year ++ '-' :: (pad 2 month ++ '-' :: pad 2 day)

/-- The digits after the point, which is left out when there are none. -/
def fractionText : List Char → List Char
  | [] => []
  | digit :: digits => '.' :: digit :: digits

def clockText (hour minute second : ℕ) (digits : List Char) : List Char :=
  pad 2 hour ++ ':' :: (pad 2 minute ++ ':' :: (pad 2 second ++ fractionText digits))

def microsecondDigits (microsecond : ℕ) : List Char :=
  if microsecond = 0 then [] else pad 6 microsecond

/-- `HH:MM`, with the seconds where there are some. -/
def offsetDigits (us : ℕ) : List Char :=
  if us % 60000000 = 0 then pad 2 (us / 3600000000) ++ ':' :: pad 2 (us / 60000000 % 60)
  else
    clockText (us / 3600000000) (us / 60000000 % 60) (us / 1000000 % 60)
      (microsecondDigits (us % 1000000))

def offsetText (offset : Offset) : List Char :=
  (if offset.us < 0 then '-' else '+') :: offsetDigits offset.us.natAbs

def zoneText : Option Zone → List Char
  | none => []
  | some zone => offsetText zone.utcoffset

def DateTime.isoformat (d : DateTime) : List Char :=
  let f := fields d.wall
  dateText f.year f.month f.day ++ 'T' ::
    (clockText f.hour f.minute f.second (microsecondDigits f.microsecond) ++ zoneText d.zone)

/-! ## Reading a text -/

/-- Digits after the sixth are dropped. -/
def microsecondOf (digits : List Char) : ℕ :=
  value (digits.take 6) * 10 ^ (6 - (digits.take 6).length)

/-- `HH[:MM[:SS[.f…]]]`, up to the end of the text. -/
def readParts (text : List Char) : Option Parts :=
  match readNumber 2 text with
  | some (hour, []) => some ⟨hour, 0, 0, 0⟩
  | some (hour, ':' :: afterHour) =>
      match readNumber 2 afterHour with
      | some (minute, []) => some ⟨hour, minute, 0, 0⟩
      | some (minute, ':' :: afterMinute) =>
          match readNumber 2 afterMinute with
          | some (second, []) => some ⟨hour, minute, second, 0⟩
          | some (second, mark :: digits) =>
              if (mark = '.' ∨ mark = ',') ∧ digits ≠ [] ∧ digits.all Char.isDigit then
                some ⟨hour, minute, second, microsecondOf digits⟩
              else none
          | none => none
      | _ => none
  | _ => none

def offsetOf (us : ℤ) : Option Offset :=
  if h : -dayUs < us ∧ us < dayUs then some ⟨us, h⟩ else none

/-- The zone at the end of a text: none, `Z`, or a sign and an offset. -/
def readZone : List Char → Option (Option Zone)
  | [] => some none
  | 'Z' :: rest => if rest = [] then some (some (.fixed .utc)) else none
  | sign :: text => do
      let parts ← readParts text
      let offset ← offsetOf (if sign = '-' then -(parts.us : ℤ) else parts.us)
      return some (.fixed offset)

def readDate (text : List Char) : Option ((ℕ × ℕ × ℕ) × List Char) :=
  match readNumber 4 text with
  | some (year, '-' :: afterYear) =>
      match readNumber 2 afterYear with
      | some (month, '-' :: afterMonth) =>
          match readNumber 2 afterMonth with
          | some (day, rest) => some ((year, month, day), rest)
          | none => none
      | _ => none
  | _ => none

def DateTime.ofFields (f : Fields) (zone : Option Zone) : Option DateTime :=
  if h : Valid f then some ⟨wallOf f, onCalendar_wallOf h, zone⟩ else none

/-- The zone begins here. -/
def startsZone (c : Char) : Bool := c = '+' || c = '-' || c = 'Z'

/-- `datetime.fromisoformat` of a text in the extended format, `YYYY-MM-DD` with a time
after any one character.  An offset is read as a time is, down to the microsecond.  The formats
without separators and the week dates are not read. -/
def DateTime.fromisoformat (text : List Char) : Option DateTime :=
  match readDate text with
  | none => none
  | some ((year, month, day), []) => ofFields ⟨year, month, day, 0, 0, 0, 0⟩ none
  | some ((year, month, day), _ :: time) => do
      let parts ← readParts (time.takeWhile fun c ↦ !startsZone c)
      let zone ← readZone (time.dropWhile fun c ↦ !startsZone c)
      ofFields ⟨year, month, day, parts.hour, parts.minute, parts.second, parts.microsecond⟩ zone

example : (DateTime.fromisoformat "2024-02-29T12:34:56.123456789+05:30".toList).map (·.wall) =
    some 1709210096123456 := by decide +kernel

/-! ## A text is read back -/

theorem microsecondOf_nil : microsecondOf [] = 0 := rfl

theorem microsecondOf_digits {us : ℕ} (h : us < 1000000) :
    microsecondOf (microsecondDigits us) = us := by
  unfold microsecondDigits
  split_ifs with hzero
  · rw [microsecondOf_nil, hzero]
  · have htake : (pad 6 us).take 6 = pad 6 us := List.take_of_length_le (length_pad 6 us).le
    rw [microsecondOf, htake, value_pad h, length_pad]
    omega

theorem isDigit_microsecondDigits {us : ℕ} {c : Char} (hc : c ∈ microsecondDigits us) :
    c.isDigit = true := by
  unfold microsecondDigits at hc
  split_ifs at hc
  · cases hc
  · exact isDigit_of_mem_pad hc

theorem readParts_clockText {hour minute second : ℕ} {digits : List Char} (hhour : hour < 100)
    (hminute : minute < 100) (hsecond : second < 100)
    (hdigits : ∀ c ∈ digits, c.isDigit = true) :
    readParts (clockText hour minute second digits) =
      some ⟨hour, minute, second, microsecondOf digits⟩ := by
  have hhours := @readNumber_pad 2 hour hhour
  have hminutes := @readNumber_pad 2 minute hminute
  have hseconds := @readNumber_pad 2 second hsecond
  rw [readParts, clockText, hhours]
  simp only [hminutes, hseconds]
  cases digits with
  | nil => rfl
  | cons digit digits =>
      have hall : (digit :: digits).all Char.isDigit = true := List.all_eq_true.mpr hdigits
      simp [fractionText, hall]

theorem readDate_dateText {year month day : ℕ} (hyear : year < 10000) (hmonth : month < 100)
    (hday : day < 100) (rest : List Char) :
    readDate (dateText year month day ++ rest) = some ((year, month, day), rest) := by
  have hyears := @readNumber_pad 4 year hyear
  have hmonths := @readNumber_pad 2 month hmonth
  have hdays := @readNumber_pad 2 day hday rest
  have hshape : dateText year month day ++ rest =
      pad 4 year ++ '-' :: (pad 2 month ++ '-' :: (pad 2 day ++ rest)) := by
    simp [dateText]
  rw [hshape, readDate, hyears]
  simp only [hmonths, hdays]

theorem readParts_hoursMinutes {hour minute : ℕ} (hhour : hour < 100) (hminute : minute < 100) :
    readParts (pad 2 hour ++ ':' :: pad 2 minute) = some ⟨hour, minute, 0, 0⟩ := by
  have hhours := @readNumber_pad 2 hour hhour
  have hminutes := @readNumber_pad 2 minute hminute []
  rw [List.append_nil] at hminutes
  rw [readParts, hhours]
  simp only [hminutes]

theorem offsetOf_us (offset : Offset) : offsetOf offset.us = some offset :=
  dif_pos offset.bounded

theorem readParts_offsetDigits {us : ℕ} (h : us < 86400000000) :
    ∃ parts, readParts (offsetDigits us) = some parts ∧ parts.us = us := by
  have hhour : us / 3600000000 < 100 := by omega
  have hminute : us / 60000000 % 60 < 100 := by omega
  have hsecond : us / 1000000 % 60 < 100 := by omega
  unfold offsetDigits
  split_ifs with hminutes
  · refine ⟨_, readParts_hoursMinutes hhour hminute, ?_⟩
    simp only [Parts.us]
    omega
  · have hdigits : ∀ c ∈ microsecondDigits (us % 1000000), c.isDigit = true :=
      fun _ ↦ isDigit_microsecondDigits
    refine ⟨_, readParts_clockText hhour hminute hsecond hdigits, ?_⟩
    simp only [Parts.us, microsecondOf_digits (Nat.mod_lt us (by decide))]
    omega

theorem natAbs_lt (offset : Offset) : offset.us.natAbs < 86400000000 := by
  have hbounded := offset.bounded
  unfold dayUs at hbounded
  omega

theorem readZone_signed {sign : Char} (hsign : sign ≠ 'Z') {text : List Char} {parts : Parts}
    {offset : Offset} (hread : readParts text = some parts)
    (hus : (if sign = '-' then -(parts.us : ℤ) else parts.us) = offset.us) :
    readZone (sign :: text) = some (some (.fixed offset)) := by
  rw [readZone, hread]
  · simp only [Option.bind_eq_bind, Option.bind_some, hus, offsetOf_us]
    rfl
  · exact fun heq ↦ hsign heq

theorem readZone_offsetText (offset : Offset) :
    readZone (offsetText offset) = some (some (.fixed offset)) := by
  obtain ⟨parts, hread, hus⟩ := readParts_offsetDigits (natAbs_lt offset)
  rcases Int.lt_or_le offset.us 0 with hneg | hpos
  · have hsign : offsetText offset = '-' :: offsetDigits offset.us.natAbs := by
      rw [offsetText, if_pos hneg]
    rw [hsign]
    refine readZone_signed (by decide) hread ?_
    rw [if_pos rfl, hus]
    omega
  · have hsign : offsetText offset = '+' :: offsetDigits offset.us.natAbs := by
      rw [offsetText, if_neg (Int.not_lt.mpr hpos)]
    rw [hsign]
    refine readZone_signed (by decide) hread ?_
    rw [if_neg (by decide), hus]
    omega

theorem not_startsZone_of_isDigit {c : Char} (h : c.isDigit = true) : startsZone c = false := by
  have hne : ∀ d : Char, d.isDigit = false → c ≠ d := fun d hd hcd ↦ by
    rw [hcd, hd] at h
    cases h
  simp [startsZone, hne '+' rfl, hne '-' rfl, hne 'Z' rfl]

/-- No sign and no `Z` stands in the text of a time. -/
theorem not_startsZone_clockText {hour minute second : ℕ} {digits : List Char}
    (hdigits : ∀ c ∈ digits, c.isDigit = true) :
    ∀ c ∈ clockText hour minute second digits, startsZone c = false := by
  have hpad : ∀ n, ∀ c ∈ pad 2 n, startsZone c = false := fun n c hc ↦
    not_startsZone_of_isDigit (isDigit_of_mem_pad hc)
  have hfraction : ∀ c ∈ fractionText digits, startsZone c = false := by
    intro c hc
    cases digits with
    | nil => cases hc
    | cons digit digits =>
        rcases List.mem_cons.mp hc with rfl | hc
        · rfl
        · exact not_startsZone_of_isDigit (hdigits c hc)
  intro c hc
  simp only [clockText, List.mem_append, List.mem_cons] at hc
  rcases hc with hc | rfl | hc | rfl | hc | hc
  · exact hpad _ c hc
  · rfl
  · exact hpad _ c hc
  · rfl
  · exact hpad _ c hc
  · exact hfraction c hc

theorem Valid.day_lt {f : Fields} (h : Valid f) : f.day < 100 := by
  have hlast := h.day.2
  have hmonth := h.month.2
  have hmonths : ∀ month < 13, daysInMonth f.year month < 100 := by
    unfold daysInMonth
    cases isLeap f.year <;> decide
  have hdays := hmonths f.month (by omega)
  omega

/-- What is read from the text of a date, a time and a zone. -/
theorem fromisoformat_text {f : Fields} (hvalid : Valid f) {sep : Char}
    {digits zoneChars : List Char} {zone : Option Zone}
    (hdigits : ∀ c ∈ digits, c.isDigit = true) (hmicrosecond : microsecondOf digits = f.microsecond)
    (hstarts : ∀ c ∈ zoneChars.head?, startsZone c = true)
    (hzone : readZone zoneChars = some zone) :
    DateTime.fromisoformat (dateText f.year f.month f.day ++ sep ::
        (clockText f.hour f.minute f.second digits ++ zoneChars)) =
      some ⟨wallOf f, onCalendar_wallOf hvalid, zone⟩ := by
  have hclock : ∀ c ∈ clockText f.hour f.minute f.second digits, (!startsZone c) = true := by
    intro c hc
    rw [not_startsZone_clockText hdigits c hc]
    rfl
  have hhead : zoneChars.takeWhile (fun c ↦ !startsZone c) = [] ∧
      zoneChars.dropWhile (fun c ↦ !startsZone c) = zoneChars := by
    cases zoneChars with
    | nil => exact ⟨rfl, rfl⟩
    | cons c rest => simp [hstarts c rfl]
  have hmonth : f.month < 100 := lt_of_le_of_lt hvalid.month.2 (by decide)
  have hhour : f.hour < 100 := lt_trans hvalid.hour (by decide)
  have hminute : f.minute < 100 := lt_trans hvalid.minute (by decide)
  have hsecond : f.second < 100 := lt_trans hvalid.second (by decide)
  rw [DateTime.fromisoformat, readDate_dateText hvalid.year.2 hmonth hvalid.day_lt]
  simp only [List.takeWhile_append_of_pos hclock, List.dropWhile_append_of_pos hclock, hhead,
    List.append_nil, readParts_clockText hhour hminute hsecond hdigits, hzone, hmicrosecond,
    Option.bind_eq_bind, Option.bind_some]
  exact dif_pos hvalid

theorem head_zoneText (zone : Option Zone) :
    ∀ c ∈ (zoneText zone).head?, startsZone c = true := by
  intro c hc
  cases zone with
  | none => cases hc
  | some zone =>
      simp only [zoneText, offsetText, List.head?_cons, Option.mem_def, Option.some.injEq] at hc
      rw [← hc]
      split_ifs <;> rfl

theorem readZone_zoneText (zone : Option Zone) :
    readZone (zoneText zone) = some (zone.map fun z ↦ .fixed z.utcoffset) := by
  cases zone with
  | none => rfl
  | some zone => exact readZone_offsetText zone.utcoffset

/-- The text of a datetime is read back, with the offset of its zone. -/
theorem fromisoformat_isoformat (d : DateTime) :
    DateTime.fromisoformat d.isoformat = some d.atOffset := by
  have hvalid := valid_fields d.onCalendar
  rw [DateTime.isoformat, fromisoformat_text hvalid (fun _ ↦ isDigit_microsecondDigits)
    (microsecondOf_digits hvalid.microsecond) (head_zoneText d.zone) (readZone_zoneText d.zone)]
  simp only [wallOf_fields d.onCalendar, DateTime.atOffset]

theorem value_lt {digits : List Char} (h : ∀ c ∈ digits, c.isDigit = true) :
    value digits < 10 ^ digits.length := by
  induction digits using List.reverseRecOn with
  | nil => decide
  | append_singleton digits c ih =>
      have hdigit : c.toNat - 48 < 10 := by
        have hc := h c (by simp)
        simp only [Char.isDigit, Bool.and_eq_true, decide_eq_true_eq, ge_iff_le,
          UInt32.le_iff_toNat_le] at hc
        have hlast : c.toNat ≤ 57 := hc.2
        omega
      have hinit := ih fun c hc ↦ h c (List.mem_append_left _ hc)
      rw [value_concat, List.length_append, List.length_singleton, Nat.pow_succ]
      omega

theorem microsecondOf_lt {digits : List Char} (h : ∀ c ∈ digits, c.isDigit = true) :
    microsecondOf digits < 1000000 := by
  have hvalue : value (digits.take 6) < 10 ^ (digits.take 6).length :=
    value_lt fun c hc ↦ h c (List.mem_of_mem_take hc)
  have hlength : (digits.take 6).length ≤ 6 := List.length_take_le 6 digits
  calc microsecondOf digits
    _ < 10 ^ (digits.take 6).length * 10 ^ (6 - (digits.take 6).length) :=
      Nat.mul_lt_mul_of_pos_right hvalue (Nat.pow_pos (by decide))
    _ = 10 ^ 6 := by rw [← Nat.pow_add, Nat.add_sub_cancel' hlength]
    _ = 1000000 := by decide

end CivilTime
