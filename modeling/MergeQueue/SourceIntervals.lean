import Mathlib.Algebra.Order.Floor.Ring
import Mathlib.Algebra.Order.Archimedean.Real.Basic
import Mathlib.Tactic.FieldSimp
import Mathlib.Tactic.Ring
import MergeQueue.EventOrder
import MergeQueue.Lib.CivilTime
import MergeQueue.Lib.IntervalClock
import MergeQueue.Lib.PyInt

/-!
# Source timestamps as texts

A timestamp of GitLab is a text with any number of decimals.  The parser cuts it off at
the microsecond and computes from the text how much was cut off; the two make the interval
in which the event happened.  The intervals are compared as datetimes, which end with the
year 9999.
-/

namespace MergeQueue.SourceTexts

open CivilTime IsoText

/-! ## The parser -/

inductive ClockError
  | valueError
  | typeError
  | overflowError
  deriving DecidableEq, Repr

def utcSuffix : List Char := "+00:00".toList

def fromiso (text : List Char) : Except ClockError DateTime :=
  match DateTime.fromisoformat text with
  | some d => .ok d
  | none => .error .valueError

def parseDatetime (value : Option (List Char)) : Except ClockError (Option DateTime) :=
  match value with
  | none | some [] => .ok none
  | some text =>
      if " UTC".toList <:+ text then
        (fromiso (text.take (text.length - 4) ++ utcSuffix)).map some
      else (fromiso (text.flatMap fun c ↦ if c = 'Z' then utcSuffix else [c])).map some

/-- `\d`: a decimal digit of any script. -/
def isDecimal (c : Char) : Bool := (PyInt.digit c).isSome

/-- The decimals of a time at the front of a text. -/
def matchFraction : List Char → Option (List Char)
  | a :: b :: ':' :: c :: d :: ':' :: e :: f :: '.' :: rest =>
      if [a, b, c, d, e, f].all isDecimal ∧ rest.takeWhile isDecimal ≠ [] then
        some (rest.takeWhile isDecimal)
      else none
  | _ => none

/-- `re.search` of a time with decimals; what it finds are the decimals. -/
def searchFraction : List Char → Option (List Char)
  | [] => none
  | c :: text =>
      match matchFraction (c :: text) with
      | some digits => some digits
      | none => searchFraction text

def timestampPrecision (value : Option (List Char)) : ℤ :=
  match value with
  | none => 1
  | some text =>
      match searchFraction text with
      | some digits => 10 ^ (6 - min digits.length 6)
      | none => 1000000

/-! ## Timestamps -/

/-- How a timestamp names its zone: `Z`, ` UTC`, or the offset. -/
inductive SourceZone
  | zulu
  | utc
  | offset (negative : Bool) (hour minute : ℕ) (hour_lt : hour < 24) (minute_lt : minute < 60)

namespace SourceZone

def text : SourceZone → List Char
  | zulu => ['Z']
  | utc => " UTC".toList
  | offset negative hour minute _ _ =>
      (if negative then '-' else '+') :: (pad 2 hour ++ ':' :: pad 2 minute)

def us : SourceZone → ℤ
  | zulu => 0
  | utc => 0
  | offset negative hour minute _ _ =>
      (if negative then -1 else 1) * ((hour * 60 + minute) * 60000000)

theorem us_bounded (zone : SourceZone) : -dayUs < zone.us ∧ zone.us < dayUs := by
  cases zone with
  | zulu => decide
  | utc => decide
  | offset negative hour minute hour_lt minute_lt =>
      unfold us dayUs
      cases negative
      · simp only [Bool.false_eq_true, if_false]
        omega
      · simp only [if_true]
        omega

def utcoffset (zone : SourceZone) : Offset := ⟨zone.us, zone.us_bounded⟩

end SourceZone

/-- A well-formed timestamp: a date, a time with any number of decimals, and a zone. -/
structure Timestamp where
  date : Fields
  valid : Valid date
  whole : date.microsecond = 0
  sep : Char
  sep_valid : sep = 'T' ∨ sep = ' '
  digits : List Char
  digits_valid : ∀ c ∈ digits, c.isDigit = true
  zone : SourceZone

namespace Timestamp

variable (s : Timestamp)

def front : List Char :=
  dateText s.date.year s.date.month s.date.day ++ s.sep ::
    clockText s.date.hour s.date.minute s.date.second s.digits

def text : List Char := s.front ++ s.zone.text

/-- The microseconds since the epoch up to the second that is written. -/
def base : ℤ := wallOf s.date - s.zone.us

/-- The instant has the decimals that are written, and any others after them. -/
def Shows (t : ℝ) : Prop :=
  ⌊(t - s.base) / 10 ^ 6 * 10 ^ s.digits.length⌋ = (value s.digits : ℤ)

/-- The fields with the decimals cut off at the microsecond. -/
def fields : Fields := { s.date with microsecond := microsecondOf s.digits }

theorem valid_fields : Valid s.fields :=
  { s.valid with microsecond := microsecondOf_lt s.digits_valid }

def parsed : DateTime :=
  ⟨wallOf s.fields, onCalendar_wallOf s.valid_fields, some (.fixed s.zone.utcoffset)⟩

def precision : ℤ := 10 ^ (6 - min s.digits.length 6)

end Timestamp

/-! ## Characters of a timestamp -/

theorem isDecimal_of_isDigit {c : Char} (h : c.isDigit = true) : isDecimal c = true := by
  simp only [Char.isDigit, Bool.and_eq_true, decide_eq_true_eq, ge_iff_le,
    UInt32.le_iff_toNat_le] at h
  have hfirst : 48 ≤ c.toNat := h.1
  have hlast : c.toNat ≤ 57 := h.2
  have hzero : (0x30 ≤ c.toNat && c.toNat < 0x30 + 10) = true := by
    simp only [Bool.and_eq_true, decide_eq_true_eq]
    omega
  simp [isDecimal, PyInt.digit, PyInt.zeros, hzero]

theorem ne_of_isDigit {c d : Char} (h : c.isDigit = true) (hd : d.isDigit = false) : c ≠ d := by
  rintro rfl
  rw [h] at hd
  cases hd

theorem pad_two (n : ℕ) : ∃ a b, pad 2 n = [a, b] ∧ a.isDigit = true ∧ b.isDigit = true :=
  ⟨_, _, rfl, isDigit_digitChar (Nat.mod_lt _ (by decide)),
    isDigit_digitChar (Nat.mod_lt _ (by decide))⟩

theorem pad_four (n : ℕ) : ∃ a b c d, pad 4 n = [a, b, c, d] ∧ a.isDigit = true ∧
    b.isDigit = true ∧ c.isDigit = true ∧ d.isDigit = true :=
  ⟨_, _, _, _, rfl, isDigit_digitChar (Nat.mod_lt _ (by decide)),
    isDigit_digitChar (Nat.mod_lt _ (by decide)), isDigit_digitChar (Nat.mod_lt _ (by decide)),
    isDigit_digitChar (Nat.mod_lt _ (by decide))⟩

/-- A time has a colon in the third place. -/
theorem searchFraction_skip {a b c : Char} (h : c ≠ ':') (rest : List Char) :
    searchFraction (a :: b :: c :: rest) = searchFraction (b :: c :: rest) := by
  have hmatch : matchFraction (a :: b :: c :: rest) = none := by
    unfold matchFraction
    split
    · next heq =>
        simp only [List.cons.injEq] at heq
        exact absurd heq.2.2.1 h
    · rfl
  rw [searchFraction, hmatch]

theorem dot_mem_of_matchFraction {text digits : List Char}
    (h : matchFraction text = some digits) : '.' ∈ text := by
  unfold matchFraction at h
  split at h
  · simp
  · cases h

theorem dot_mem_of_searchFraction {text digits : List Char}
    (h : searchFraction text = some digits) : '.' ∈ text := by
  induction text with
  | nil => cases h
  | cons c text ih =>
      rw [searchFraction] at h
      split at h
      · next hmatch => exact dot_mem_of_matchFraction hmatch
      · exact List.mem_cons_of_mem _ (ih h)

namespace Timestamp

variable (s : Timestamp)

theorem head_zone_not_decimal : ∀ c ∈ s.zone.text.head?, isDecimal c = false := by
  intro c hc
  cases hzone : s.zone with
  | zulu =>
      rw [hzone] at hc
      cases hc
      decide
  | utc =>
      rw [hzone] at hc
      cases hc
      decide
  | offset negative hour minute _ _ =>
      rw [hzone] at hc
      cases hc
      cases negative <;> decide

theorem takeWhile_digits : (s.digits ++ s.zone.text).takeWhile isDecimal = s.digits := by
  have hdigits : ∀ c ∈ s.digits, isDecimal c = true := fun c hc ↦
    isDecimal_of_isDigit (s.digits_valid c hc)
  have hhead := s.head_zone_not_decimal
  rw [List.takeWhile_append_of_pos hdigits]
  cases hzone : s.zone.text with
  | nil => simp
  | cons c rest =>
      rw [hzone] at hhead
      rw [List.takeWhile_cons_of_neg (by simp [hhead c rfl]), List.append_nil]

/-- Where no decimals are written the text has no point. -/
theorem dot_notMem_text (h : s.digits = []) : '.' ∉ s.text := by
  have hpad : ∀ w n, '.' ∉ pad w n := by
    intro w n hmem
    exact ne_of_isDigit (isDigit_of_mem_pad hmem) (by decide) rfl
  have hsep : '.' ≠ s.sep := by
    rcases s.sep_valid with hsep | hsep <;> rw [hsep] <;> decide
  have hzone : '.' ∉ s.zone.text := by
    cases s.zone with
    | zulu => decide
    | utc => decide
    | offset negative hour minute _ _ => cases negative <;> simp [SourceZone.text, hpad]
  simp [text, front, dateText, clockText, fractionText, h, hpad, hsep, hzone]

theorem searchFraction_text :
    searchFraction s.text = if s.digits = [] then none else some s.digits := by
  split_ifs with hnil
  · cases hsearch : searchFraction s.text with
    | none => rfl
    | some digits => exact absurd (dot_mem_of_searchFraction hsearch) (s.dot_notMem_text hnil)
  · obtain ⟨y₁, y₂, y₃, y₄, hyear, -, -, hy₃, hy₄⟩ := pad_four s.date.year
    obtain ⟨m₁, m₂, hmonth, hm₁, hm₂⟩ := pad_two s.date.month
    obtain ⟨d₁, d₂, hday, hd₁, hd₂⟩ := pad_two s.date.day
    obtain ⟨h₁, h₂, hhour, hh₁, hh₂⟩ := pad_two s.date.hour
    obtain ⟨i₁, i₂, hminute, hi₁, hi₂⟩ := pad_two s.date.minute
    obtain ⟨s₁, s₂, hsecond, hs₁, hs₂⟩ := pad_two s.date.second
    have hcolon : ∀ {c : Char}, c.isDigit = true → c ≠ ':' := fun hc ↦
      ne_of_isDigit hc (by decide)
    have hsep : s.sep ≠ ':' := by
      rcases s.sep_valid with hsep | hsep <;> rw [hsep] <;> decide
    have hfraction : fractionText s.digits = '.' :: s.digits := by
      cases hdigits : s.digits with
      | nil => exact absurd hdigits hnil
      | cons digit digits => rfl
    have htext : s.text = y₁ :: y₂ :: y₃ :: y₄ :: '-' :: m₁ :: m₂ :: '-' :: d₁ :: d₂ :: s.sep ::
        h₁ :: h₂ :: ':' :: i₁ :: i₂ :: ':' :: s₁ :: s₂ :: '.' :: (s.digits ++ s.zone.text) := by
      simp [text, front, dateText, clockText, hyear, hmonth, hday, hhour, hminute, hsecond,
        hfraction]
    have hdash : '-' ≠ ':' := by decide
    have hmatch : matchFraction (h₁ :: h₂ :: ':' :: i₁ :: i₂ :: ':' :: s₁ :: s₂ :: '.' ::
        (s.digits ++ s.zone.text)) = some s.digits := by
      have hall : [h₁, h₂, i₁, i₂, s₁, s₂].all isDecimal = true := by
        simp [isDecimal_of_isDigit, hh₁, hh₂, hi₁, hi₂, hs₁, hs₂]
      rw [matchFraction, s.takeWhile_digits, if_pos ⟨hall, hnil⟩]
    rw [htext, searchFraction_skip (hcolon hy₃), searchFraction_skip (hcolon hy₄),
      searchFraction_skip hdash, searchFraction_skip (hcolon hm₁), searchFraction_skip (hcolon hm₂),
      searchFraction_skip hdash, searchFraction_skip (hcolon hd₁), searchFraction_skip (hcolon hd₂),
      searchFraction_skip hsep, searchFraction_skip (hcolon hh₁), searchFraction_skip (hcolon hh₂),
      searchFraction, hmatch]

theorem timestampPrecision_text : timestampPrecision (some s.text) = s.precision := by
  rw [timestampPrecision, s.searchFraction_text, precision]
  split_ifs with hnil
  · rw [hnil]
    rfl
  · rfl

theorem z_notMem_front : 'Z' ∉ s.front := by
  have hpad : ∀ w n, 'Z' ∉ pad w n := by
    intro w n hmem
    exact ne_of_isDigit (isDigit_of_mem_pad hmem) (by decide) rfl
  have hsep : 'Z' ≠ s.sep := by
    rcases s.sep_valid with hsep | hsep <;> rw [hsep] <;> decide
  have hfraction : 'Z' ∉ fractionText s.digits := by
    intro hmem
    cases hdigits : s.digits with
    | nil =>
        rw [hdigits] at hmem
        cases hmem
    | cons digit digits =>
        have hvalid := s.digits_valid
        rw [hdigits] at hmem hvalid
        rcases List.mem_cons.mp hmem with hpoint | hmem
        · cases hpoint
        · exact ne_of_isDigit (hvalid _ hmem) (by decide) rfl
  simp [front, dateText, clockText, hpad, hsep, hfraction]

/-- `replace` leaves a text without the letter as it is. -/
theorem flatMap_of_notMem {text : List Char} (h : 'Z' ∉ text) :
    (text.flatMap fun c ↦ if c = 'Z' then utcSuffix else [c]) = text := by
  have hsame : ∀ c ∈ text, (if c = 'Z' then utcSuffix else [c]) = [c] := by
    intro c hc
    rw [if_neg]
    rintro rfl
    exact h hc
  rw [List.flatMap_congr hsame, List.flatMap_singleton']

/-- A text that ends with another letter does not end with ` UTC`. -/
theorem not_utc_suffix {text : List Char} {c : Char} (hlast : text.getLast? = some c)
    (hc : c ≠ 'C') : ¬" UTC".toList <:+ text := by
  rintro ⟨pre, hpre⟩
  have hlast' : text.getLast? = some 'C' := by
    rw [← hpre]
    simp
  rw [hlast] at hlast'
  exact hc (Option.some.inj hlast')

theorem fromiso_front {zoneChars : List Char}
    (hstarts : ∀ c ∈ zoneChars.head?, startsZone c = true)
    (hzone : readZone zoneChars = some (some (.fixed s.zone.utcoffset))) :
    fromiso (s.front ++ zoneChars) = .ok s.parsed := by
  have hread := @fromisoformat_text s.fields s.valid_fields s.sep s.digits zoneChars _
    s.digits_valid rfl hstarts hzone
  have hshape : s.front ++ zoneChars =
      dateText s.fields.year s.fields.month s.fields.day ++ s.sep ::
        (clockText s.fields.hour s.fields.minute s.fields.second s.digits ++ zoneChars) := by
    simp [front, fields]
  rw [fromiso, hshape, hread]
  rfl

theorem readZone_utcSuffix (h : s.zone.us = 0) :
    readZone utcSuffix = some (some (.fixed s.zone.utcoffset)) := by
  have hutc : s.zone.utcoffset = .utc := by
    simp only [SourceZone.utcoffset, h]
    rfl
  have hread := readZone_offsetText .utc
  have htext : offsetText .utc = utcSuffix := by decide
  rw [hutc, ← hread, htext]

theorem readZone_offset {negative : Bool} {hour minute : ℕ} {hour_lt : hour < 24}
    {minute_lt : minute < 60} (h : s.zone = .offset negative hour minute hour_lt minute_lt) :
    (∀ c ∈ s.zone.text.head?, startsZone c = true) ∧
      readZone s.zone.text = some (some (.fixed s.zone.utcoffset)) := by
  have hparts := @readParts_hoursMinutes hour minute (by omega) (by omega)
  rw [h]
  cases negative with
  | false =>
      refine ⟨fun c hc ↦ by cases hc; rfl, readZone_signed (by decide) hparts ?_⟩
      simp [Parts.us, SourceZone.utcoffset, SourceZone.us]
      omega
  | true =>
      refine ⟨fun c hc ↦ by cases hc; rfl, readZone_signed (by decide) hparts ?_⟩
      simp [Parts.us, SourceZone.utcoffset, SourceZone.us]
      omega

theorem parseDatetime_text : parseDatetime (some s.text) = .ok (some s.parsed) := by
  have hne : s.text ≠ [] := by simp [text, front]
  have hplus : ∀ c ∈ utcSuffix.head?, startsZone c = true := by
    intro c hc
    cases hc
    rfl
  have hparse : parseDatetime (some s.text) =
      if " UTC".toList <:+ s.text then
        (fromiso (s.text.take (s.text.length - 4) ++ utcSuffix)).map some
      else (fromiso (s.text.flatMap fun c ↦ if c = 'Z' then utcSuffix else [c])).map some := by
    rw [parseDatetime]
    exact hne
  rw [hparse]
  cases hzone : s.zone with
  | zulu =>
      have htext : s.text = s.front ++ ['Z'] := by rw [text, hzone]; rfl
      have hlast : s.text.getLast? = some 'Z' := by rw [htext]; simp
      have hread := s.fromiso_front hplus (s.readZone_utcSuffix (by rw [hzone]; rfl))
      rw [if_neg (not_utc_suffix hlast (by decide)), htext, List.flatMap_append,
        flatMap_of_notMem s.z_notMem_front]
      simp [hread, Except.map]
  | utc =>
      have htext : s.text = s.front ++ " UTC".toList := by rw [text, hzone]; rfl
      have hread := s.fromiso_front hplus (s.readZone_utcSuffix (by rw [hzone]; rfl))
      have htake : s.text.take (s.text.length - 4) = s.front := by
        rw [htext]
        simp
      rw [if_pos (htext ▸ List.suffix_append _ _), htake, hread]
      rfl
  | offset negative hour minute hour_lt minute_lt =>
      have htext : s.text = s.front ++ s.zone.text := rfl
      obtain ⟨_, _, hhour, -, -⟩ := pad_two hour
      obtain ⟨_, b, hminute, -, hdigit⟩ := pad_two minute
      have hlast : s.text.getLast? = some b := by
        rw [htext, hzone, SourceZone.text, hhour, hminute]
        simp
      have hz : 'Z' ∉ s.zone.text := by
        have hpad : ∀ n, 'Z' ∉ pad 2 n := fun n hmem ↦
          ne_of_isDigit (isDigit_of_mem_pad hmem) (by decide) rfl
        rw [hzone]
        cases negative <;> simp [SourceZone.text, hpad]
      obtain ⟨hstarts, hoffset⟩ := s.readZone_offset hzone
      have hread := s.fromiso_front hstarts hoffset
      rw [if_neg (not_utc_suffix hlast (ne_of_isDigit hdigit (by decide))), htext,
        flatMap_of_notMem (by simp [s.z_notMem_front, hz]), hread]
      rfl

/-! ## The interval of a timestamp -/

/-- The parsed instant, in microseconds since the epoch. -/
def parsedUs : ℤ := s.parsed.instant (.fixed s.zone.utcoffset)

theorem parsedUs_eq : s.parsedUs = s.base + microsecondOf s.digits := by
  have hwall : wallOf s.fields = wallOf s.date + microsecondOf s.digits := by
    have hwhole := s.whole
    simp only [wallOf, fields, dayNumber, clockUs]
    push_cast
    rw [hwhole]
    omega
  change wallOf s.fields - s.zone.us = _
  rw [hwall, base]
  ring

/-- The decimals are those that the parser keeps and those that it cuts off. -/
theorem value_digits :
    ∃ rest, rest < 10 ^ (s.digits.length - 6) ∧
      value s.digits = value (s.digits.take 6) * 10 ^ (s.digits.length - 6) + rest := by
  have hrest : value (s.digits.drop 6) < 10 ^ (s.digits.drop 6).length :=
    value_lt fun c hc ↦ s.digits_valid c (List.mem_of_mem_drop hc)
  have happend := value_append (s.digits.take 6) (s.digits.drop 6)
  rw [List.take_append_drop, List.length_drop] at happend
  rw [List.length_drop] at hrest
  exact ⟨_, hrest, happend⟩

/-- An instant with the decimals of the timestamp lies in the interval of the parser. -/
theorem mem_interval_of_shows {t : ℝ} (h : s.Shows t) :
    (s.parsedUs : ℝ) ≤ t ∧ t < s.parsedUs + s.precision := by
  obtain ⟨rest, hrest, hvalue⟩ := s.value_digits
  obtain ⟨hlo, hhi⟩ := Int.floor_eq_iff.mp h
  have hmin : (s.digits.take 6).length = min s.digits.length 6 := by
    rw [List.length_take, Nat.min_comm]
  have hparsed : (s.parsedUs : ℝ) =
      s.base + value (s.digits.take 6) * 10 ^ (6 - min s.digits.length 6) := by
    rw [s.parsedUs_eq, microsecondOf, hmin]
    push_cast
    rfl
  have hprecision : (s.precision : ℝ) = 10 ^ (6 - min s.digits.length 6) := by
    rw [precision]
    push_cast
    rfl
  have hvalue' : (value s.digits : ℝ) =
      value (s.digits.take 6) * 10 ^ (s.digits.length - 6) + rest := by
    exact_mod_cast hvalue
  have hrest' : (rest : ℝ) + 1 ≤ 10 ^ (s.digits.length - 6) := by exact_mod_cast hrest
  have hsix : (10 : ℝ) ^ 6 = 10 ^ (6 - min s.digits.length 6) * 10 ^ min s.digits.length 6 := by
    rw [← pow_add, Nat.sub_add_cancel (Nat.min_le_right _ _)]
  have hall : (10 : ℝ) ^ s.digits.length =
      10 ^ min s.digits.length 6 * 10 ^ (s.digits.length - 6) := by
    rw [← pow_add]
    congr 1
    omega
  rw [hparsed, hprecision]
  rw [hsix, hall] at hlo hhi
  push_cast at hlo hhi
  -- the unit of the precision, and how many units of the last decimal it has
  generalize hunit : (10 : ℝ) ^ (6 - min s.digits.length 6) = unit at *
  generalize hscale : (10 : ℝ) ^ (s.digits.length - 6) = scale at *
  have hunit_pos : 0 < unit := by
    rw [← hunit]
    positivity
  have hscale_pos : 0 < scale := by
    rw [← hscale]
    positivity
  have hkept : (0 : ℝ) < 10 ^ min s.digits.length 6 := by positivity
  have hscaled : (t - s.base) / (unit * 10 ^ min s.digits.length 6) *
      (10 ^ min s.digits.length 6 * scale) = (t - s.base) * scale / unit := by
    field_simp
  rw [hscaled] at hlo hhi
  rw [le_div_iff₀ hunit_pos] at hlo
  rw [div_lt_iff₀ hunit_pos] at hhi
  have hrest_nonneg : (0 : ℝ) ≤ rest := Nat.cast_nonneg rest
  constructor
  · have hle : (value (s.digits.take 6) * unit) * scale ≤ (t - s.base) * scale := by
      calc (value (s.digits.take 6) * unit) * scale
        _ ≤ (value (s.digits.take 6) * scale + rest) * unit := by nlinarith
        _ = value s.digits * unit := by rw [hvalue']
        _ ≤ (t - s.base) * scale := hlo
    have hcancel := le_of_mul_le_mul_right hle hscale_pos
    linarith
  · have hlt : (t - s.base) * scale < (value (s.digits.take 6) * unit + unit) * scale := by
      calc (t - s.base) * scale
        _ < (value s.digits + 1) * unit := hhi
        _ = (value (s.digits.take 6) * scale + (rest + 1)) * unit := by
          rw [hvalue']
          ring
        _ ≤ (value (s.digits.take 6) * unit + unit) * scale := by nlinarith
    have hcancel := lt_of_mul_lt_mul_right hlt hscale_pos.le
    linarith

end Timestamp

/-! ## The event order -/

/-- The source of a request, as it is saved. -/
structure Source where
  requestedAt : Option (List Char)
  precisionUs : Option ℤ
  deriving DecidableEq

/-- `+ timedelta(microseconds=…)`. -/
def plus (d : DateTime) (us : ℤ) : Except ClockError DateTime :=
  match d.add us with
  | some later => .ok later
  | none => .error .overflowError

/-- The answer of a comparison that both datetimes must have a zone for, or neither. -/
def compared {α : Type} : Option α → Except ClockError α
  | some answer => .ok answer
  | none => .error .typeError

def definitelyBefore (eventAt : DateTime) (precisionUs : ℤ) (boundary : DateTime) :
    Except ClockError Bool := do
  let shifted ← plus eventAt precisionUs
  compared (shifted.le boundary)

def compareEvent (request previous : Source) : Except ClockError ℤ :=
  match request.requestedAt, previous.requestedAt with
  | some incoming, some saved => do
      let start ← fromiso incoming
      let old ← fromiso saved
      if ← definitelyBefore start (request.precisionUs.getD 1) old then return -1
      if ← definitelyBefore old (previous.precisionUs.getD 1) start then return 1
      return 0
  | _, _ => .ok 0

/-- The request with the clock that covers both. -/
def preserveUncertainty (request previous : Source) : Except ClockError Source :=
  match request.requestedAt, previous.requestedAt with
  | some incoming, some saved => do
      let start ← fromiso incoming
      let old ← fromiso saved
      let lower := if ← compared (old.lt start) then old else start
      let startEnd ← plus start (request.precisionUs.getD 1)
      let oldEnd ← plus old (previous.precisionUs.getD 1)
      let upper := if ← compared (startEnd.lt oldEnd) then oldEnd else startEnd
      let width ← compared (upper.sub lower)
      return { requestedAt := some lower.isoformat, precisionUs := some width }
  | _, _ => .ok { request with requestedAt := none }

/-! ## Intervals that end on the calendar -/

/-- The interval of a source whose time has an offset and whose end is a datetime. -/
structure SourceInterval where
  start : DateTime
  offset : Offset
  zoned : start.zone = some (.fixed offset)
  precisionUs : ℤ
  positive : 0 < precisionUs
  ends : OnCalendar (start.wall + precisionUs)

namespace SourceInterval

variable (a b c : SourceInterval)

def source : Source := ⟨some a.start.isoformat, some a.precisionUs⟩

def lo : ℤ := a.start.instant (.fixed a.offset)

def span : IntervalClock.Span ℤ where
  lo := a.lo
  hi := a.lo + a.precisionUs
  lt := Int.lt_add_of_pos_right _ a.positive

/-- The clock without the bounds of the calendar. -/
def clock : SourceClock := ⟨some a.lo, a.precisionUs⟩

def last : DateTime := ⟨a.start.wall + a.precisionUs, a.ends, a.start.zone⟩

theorem fromiso_start : fromiso a.start.isoformat = .ok a.start := by
  have hoffset : a.start.atOffset = a.start := by
    have hzone := a.zoned
    cases hstart : a.start with
    | mk wall onCalendar zone =>
        rw [hstart] at hzone
        simp only at hzone
        subst hzone
        rfl
  rw [fromiso, fromisoformat_isoformat, hoffset]

theorem plus_start : plus a.start a.precisionUs = .ok a.last := by
  rw [plus, DateTime.add, dif_pos a.ends]
  rfl

theorem instant_last : a.last.instant (.fixed a.offset) = a.span.hi := by
  simp only [DateTime.instant, last, span, lo]
  omega

/-- Datetimes with offsets are compared as instants. -/
theorem le_of_zoned {d e : DateTime} {o u : Offset} (hd : d.zone = some (.fixed o))
    (he : e.zone = some (.fixed u)) :
    d.le e = some (decide (d.instant (.fixed o) ≤ e.instant (.fixed u))) := by
  simp [DateTime.le, hd, he, Zone.same]

theorem sub_of_zoned {d e : DateTime} {o u : Offset} (hd : d.zone = some (.fixed o))
    (he : e.zone = some (.fixed u)) :
    d.sub e = some (d.instant (.fixed o) - e.instant (.fixed u)) := by
  simp [DateTime.sub, hd, he, Zone.same]

theorem definitelyBefore_eq :
    SourceTexts.definitelyBefore a.start a.precisionUs b.start =
      .ok (decide (a.span.Before b.span)) := by
  have hle := le_of_zoned (show a.last.zone = some (.fixed a.offset) from a.zoned) b.zoned
  rw [SourceTexts.definitelyBefore, a.plus_start]
  simp only [bind, Except.bind, hle, compared, a.instant_last]
  rfl

theorem compareEvent_clock :
    MergeQueue.compareEvent a.clock b.clock =
      if a.span.Before b.span then -1 else if b.span.Before a.span then 1 else 0 :=
  compareEvent_some a.lo a.precisionUs b.lo b.precisionUs

/-- On the calendar the texts are compared as the clocks are. -/
theorem compareEvent_eq :
    SourceTexts.compareEvent a.source b.source =
      .ok (MergeQueue.compareEvent a.clock b.clock) := by
  have hab := a.definitelyBefore_eq b
  have hba := b.definitelyBefore_eq a
  rw [a.compareEvent_clock b]
  simp only [SourceTexts.compareEvent, source, Option.getD_some, a.fromiso_start, b.fromiso_start,
    bind, Except.bind, hab, hba]
  by_cases hbefore : a.span.Before b.span
  · simp [hbefore, pure, Except.pure]
  · by_cases hafter : b.span.Before a.span <;> simp [hbefore, hafter, pure, Except.pure]

theorem compareEvent_eq_neg_one_iff :
    SourceTexts.compareEvent a.source b.source = .ok (-1) ↔ a.span.Before b.span := by
  rw [a.compareEvent_eq b, a.compareEvent_clock b]
  split_ifs with hbefore hafter <;> simp [hbefore]

theorem compareEvent_eq_one_iff :
    SourceTexts.compareEvent a.source b.source = .ok 1 ↔ b.span.Before a.span := by
  rw [a.compareEvent_eq b, a.compareEvent_clock b]
  split_ifs with hbefore hafter
  · simp [IntervalClock.Span.not_before_of_before hbefore]
  · simp [hafter]
  · simp [hafter]

theorem compareEvent_swap :
    ∃ r, SourceTexts.compareEvent a.source b.source = .ok r ∧
      SourceTexts.compareEvent b.source a.source = .ok (-r) := by
  refine ⟨_, a.compareEvent_eq b, ?_⟩
  rw [b.compareEvent_eq a, a.compareEvent_clock b, b.compareEvent_clock a]
  by_cases hbefore : a.span.Before b.span
  · simp [hbefore, IntervalClock.Span.not_before_of_before hbefore]
  · by_cases hafter : b.span.Before a.span <;> simp [hbefore, hafter]

/-- The combined clock is the hull of the two, whatever calendar its end is on. -/
theorem preserveUncertainty_eq :
    ∃ (lower : DateTime) (offset : Offset) (width : ℤ),
      SourceTexts.preserveUncertainty a.source b.source =
        .ok ⟨some lower.isoformat, some width⟩ ∧
      lower.zone = some (.fixed offset) ∧
      lower.instant (.fixed offset) = (a.span.hull b.span).lo ∧
      lower.instant (.fixed offset) + width = (a.span.hull b.span).hi := by
  have hstart := le_of_zoned a.zoned b.zoned
  have hlast := le_of_zoned (show b.last.zone = some (.fixed b.offset) from b.zoned)
    (show a.last.zone = some (.fixed a.offset) from a.zoned)
  rw [a.instant_last, b.instant_last] at hlast
  have hlower : ∃ (lower : DateTime) (offset : Offset), lower.zone = some (.fixed offset) ∧
      lower.instant (.fixed offset) = min a.lo b.lo ∧
      (if !decide (a.start.instant (.fixed a.offset) ≤ b.start.instant (.fixed b.offset)) then
        b.start else a.start) = lower := by
    by_cases hle : a.start.instant (.fixed a.offset) ≤ b.start.instant (.fixed b.offset)
    · exact ⟨a.start, a.offset, a.zoned, (min_eq_left hle).symm, by simp [hle]⟩
    · exact ⟨b.start, b.offset, b.zoned, (min_eq_right (le_of_not_ge hle)).symm, by simp [hle]⟩
  have hupper : ∃ (upper : DateTime) (offset : Offset), upper.zone = some (.fixed offset) ∧
      upper.instant (.fixed offset) = max a.span.hi b.span.hi ∧
      (if !decide (b.span.hi ≤ a.span.hi) then b.last else a.last) = upper := by
    by_cases hle : b.span.hi ≤ a.span.hi
    · exact ⟨a.last, a.offset, a.zoned, by rw [a.instant_last, max_eq_left hle], by simp [hle]⟩
    · exact ⟨b.last, b.offset, b.zoned, by rw [b.instant_last, max_eq_right (le_of_not_ge hle)],
        by simp [hle]⟩
  obtain ⟨lower, offset, hzone, hinstant, hmin⟩ := hlower
  obtain ⟨upper, offset', hzone', hinstant', hmax⟩ := hupper
  have hsub := sub_of_zoned hzone' hzone
  refine ⟨lower, offset, _, ?_, hzone, hinstant, add_sub_cancel _ _⟩
  simp only [SourceTexts.preserveUncertainty, source, Option.getD_some, a.fromiso_start,
    b.fromiso_start, a.plus_start, b.plus_start, bind, Except.bind, DateTime.lt, hstart, hlast,
    Option.map_some, compared]
  simp only [hmin, hmax, hsub, hinstant']
  rfl

end SourceInterval

/-- The interval of a timestamp, where its end is a datetime. -/
def Timestamp.interval (s : Timestamp) (h : OnCalendar (s.parsed.wall + s.precision)) :
    SourceInterval where
  start := s.parsed
  offset := s.zone.utcoffset
  zoned := rfl
  precisionUs := s.precision
  positive := Int.pow_pos (by decide)
  ends := h

/-! ## Every timestamp and all intervals -/

/-- The order of source intervals: a comparison and its converse are opposite, definite
results are transitive and are those of `definitely_before`, which orders all instants of
the one interval before all of the other, and the combined clock is the hull. -/
structure OrderSound (a b c : SourceInterval) : Prop where
  antisymmetric : ∃ r, compareEvent a.source b.source = .ok r ∧
    compareEvent b.source a.source = .ok (-r)
  transitive_before : compareEvent a.source b.source = .ok (-1) →
    compareEvent b.source c.source = .ok (-1) → compareEvent a.source c.source = .ok (-1)
  transitive_after : compareEvent a.source b.source = .ok 1 →
    compareEvent b.source c.source = .ok 1 → compareEvent a.source c.source = .ok 1
  agrees_before : compareEvent a.source b.source = .ok (-1) ↔
    definitelyBefore a.start a.precisionUs b.start = .ok true
  agrees_after : compareEvent a.source b.source = .ok 1 ↔
    definitelyBefore b.start b.precisionUs a.start = .ok true
  ordered : compareEvent a.source b.source = .ok (-1) ↔ a.span.hi ≤ b.span.lo
  hull : ∃ (lower : DateTime) (offset : Offset) (width : ℤ),
    preserveUncertainty a.source b.source = .ok ⟨some lower.isoformat, some width⟩ ∧
    lower.zone = some (.fixed offset) ∧
    lower.instant (.fixed offset) = min a.span.lo b.span.lo ∧
    lower.instant (.fixed offset) + width = max a.span.hi b.span.hi

theorem orderSound (a b c : SourceInterval) : OrderSound a b c where
  antisymmetric := a.compareEvent_swap b
  transitive_before := by
    rw [a.compareEvent_eq_neg_one_iff, b.compareEvent_eq_neg_one_iff, a.compareEvent_eq_neg_one_iff]
    exact IntervalClock.Span.Before.trans
  transitive_after := by
    rw [a.compareEvent_eq_one_iff, b.compareEvent_eq_one_iff, a.compareEvent_eq_one_iff]
    exact fun hab hbc ↦ hbc.trans hab
  agrees_before := by
    rw [a.compareEvent_eq_neg_one_iff, a.definitelyBefore_eq]
    simp
  agrees_after := by
    rw [a.compareEvent_eq_one_iff, b.definitelyBefore_eq]
    simp
  ordered := a.compareEvent_eq_neg_one_iff b
  hull := a.preserveUncertainty_eq b

/-- The parser gives an interval around the source instant of every timestamp, and the
intervals that end before the year 10000 are ordered soundly. -/
theorem sourceIntervals_sound :
    (parseDatetime none = .ok none ∧ timestampPrecision none = 1) ∧
      (∀ s : Timestamp, parseDatetime (some s.text) = .ok (some s.parsed) ∧
        timestampPrecision (some s.text) = s.precision ∧
        ∀ t : ℝ, s.Shows t → (s.parsedUs : ℝ) ≤ t ∧ t < s.parsedUs + s.precision) ∧
      (∀ (s : Timestamp) (h : OnCalendar (s.parsed.wall + s.precision)),
        (s.interval h).span.lo = s.parsedUs ∧
          (s.interval h).span.hi = s.parsedUs + s.precision) ∧
      ∀ a b c : SourceInterval, OrderSound a b c :=
  ⟨⟨rfl, rfl⟩,
    fun s ↦ ⟨s.parseDatetime_text, s.timestampPrecision_text, fun _ ↦ s.mem_interval_of_shows⟩,
    fun _ _ ↦ ⟨rfl, rfl⟩, orderSound⟩

/-! ## The last second of the calendar -/

/-- A time of the day on which the text has no decimals. -/
def wholeSecond (year month day : ℕ)
    (h : Valid ⟨year, month, day, 23, 59, 59, 0⟩) : Timestamp where
  date := ⟨year, month, day, 23, 59, 59, 0⟩
  valid := h
  whole := rfl
  sep := 'T'
  sep_valid := Or.inl rfl
  digits := []
  digits_valid := by simp
  zone := .zulu

/-- The last second of the year 9999 comes after every other one, but no other one comes
before it: its end is no datetime. -/
theorem lastSecond_overflows :
    ¬ ∀ s s' : Timestamp, ∃ r,
      compareEvent ⟨some s.parsed.isoformat, some s.precision⟩
        ⟨some s'.parsed.isoformat, some s'.precision⟩ = .ok r ∧
      compareEvent ⟨some s'.parsed.isoformat, some s'.precision⟩
        ⟨some s.parsed.isoformat, some s.precision⟩ = .ok (-r) := by
  intro hclaim
  have hlast : compareEvent
      ⟨some (wholeSecond 9999 12 31 (by decide)).parsed.isoformat, some 1000000⟩
      ⟨some (wholeSecond 2024 2 29 (by decide)).parsed.isoformat, some 1000000⟩ =
        .error .overflowError := by
    decide +kernel
  obtain ⟨r, hfirst, -⟩ :=
    hclaim (wholeSecond 9999 12 31 (by decide)) (wholeSecond 2024 2 29 (by decide))
  rw [show (wholeSecond 9999 12 31 (by decide)).precision = 1000000 from rfl,
    show (wholeSecond 2024 2 29 (by decide)).precision = 1000000 from rfl, hlast] at hfirst
  cases hfirst

end MergeQueue.SourceTexts
