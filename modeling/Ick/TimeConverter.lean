import Ick.Formatted

/-!
# Time items as text

`TimeConverter::getTimeFromTimeItem` writes a time item and `getTimeFromString` reads one,
both with `yyyy-MM-dd HH:mm:ss` as their default format. The writer does not look at its
format and separates the date with slashes; the reader compares the format with the default
and then expects hyphens.

The reader keeps its side (`getTimeFromString_sprintf`), so that of a text of the writer it
stops behind the year (`getTimeFromString_getTimeFromTimeItem`), and no valid time item has
the month 0 that is left.
-/

namespace Ick.TimeConverter

open Formatted

/-- `TimeItem`, with the values of its constructor. -/
structure TimeItem where
  m_year : ℤ := 0
  m_month : ℤ := 0
  m_dayOfWeek : ℤ := 0
  m_day : ℤ := 0
  m_hour : ℤ := 0
  m_minute : ℤ := 0
  m_sec : ℤ := 0
  m_msec : ℤ := 0
  deriving DecidableEq

/-- The default of both formats. -/
def defaultFormat : Str := "yyyy-MM-dd HH:mm:ss".toList

/-- `getDaysOfMonth` -/
def getDaysOfMonth (year month : ℤ) : ℤ :=
  if month ≤ 0 ∨ month > 12 then 0
  else if month = 2 then
    if (year.tmod 4 = 0 ∧ year.tmod 100 ≠ 0) ∨ year.tmod 400 = 0 then 29 else 28
  else [31, 28, 31, 30, 31, 30, 31, 31, 30, 31, 30, 31].getD (month - 1).toNat 0

/-- The pieces of a text for an item, with the separator of its date. -/
def layout (separator : Char) (t : TimeItem) : List Printed :=
  [.decimal 4 false t.m_year, .char separator, .decimal 2 true t.m_month, .char separator,
    .decimal 2 true t.m_day, .char ' ', .decimal 2 true t.m_hour, .char ':',
    .decimal 2 true t.m_minute, .char ':', .decimal 2 true t.m_sec]

/-- `getTimeFromTimeItem`, which does not look at its format. The 64 bytes of its buffer are
enough for a valid item. -/
def getTimeFromTimeItem (t : TimeItem) (_format : Str) : Str :=
  sprintf (layout '/' t)

/-- The numbers that were read, stored one after the other. -/
def store (t : TimeItem) (values : List ℤ) : TimeItem :=
  { t with
    m_year := values.getD 0 t.m_year
    m_month := values.getD 1 t.m_month
    m_day := values.getD 2 t.m_day
    m_hour := values.getD 3 t.m_hour
    m_minute := values.getD 4 t.m_minute
    m_sec := values.getD 5 t.m_sec }

/-- `getTimeFromString` -/
def getTimeFromString (str format : Str) : TimeItem :=
  if format = "yyyy-MM-dd HH:mm:ss".toList then
    store {} (sscanf [.decimal, .char '-', .decimal, .char '-', .decimal, .char ' ', .decimal,
      .char ':', .decimal, .char ':', .decimal] str)
  else {}

/-- A time of the calendar with a year of at most four digits. -/
structure Valid (t : TimeItem) : Prop where
  year : 0 ≤ t.m_year ∧ t.m_year ≤ 9999
  month : 1 ≤ t.m_month ∧ t.m_month ≤ 12
  day : 1 ≤ t.m_day ∧ t.m_day ≤ getDaysOfMonth t.m_year t.m_month
  hour : 0 ≤ t.m_hour ∧ t.m_hour ≤ 23
  minute : 0 ≤ t.m_minute ∧ t.m_minute ≤ 59
  sec : 0 ≤ t.m_sec ∧ t.m_sec ≤ 59

/-- The fields that the text has are the same. -/
structure SameTime (t u : TimeItem) : Prop where
  year : t.m_year = u.m_year
  month : t.m_month = u.m_month
  day : t.m_day = u.m_day
  hour : t.m_hour = u.m_hour
  minute : t.m_minute = u.m_minute
  sec : t.m_sec = u.m_sec

/-- An item is read back from its text. -/
def RoundTrips (t : TimeItem) : Prop :=
  SameTime (getTimeFromString (getTimeFromTimeItem t defaultFormat) defaultFormat) t

theorem getDaysOfMonth_le (year month : ℤ) : getDaysOfMonth year month ≤ 31 := by
  unfold getDaysOfMonth
  split_ifs with hmonth hfebruary hleap
  · decide
  · decide
  · decide
  · have hlt : (month - 1).toNat < 12 := by omega
    generalize (month - 1).toNat = n at hlt
    revert n
    decide

/-- The layout of a valid item can be read. -/
theorem readable_layout {separator : Char} (hseparator : separator.isDigit = false)
    {t : TimeItem} (h : Valid t) : Readable (layout separator t) := by
  have hdays := getDaysOfMonth_le t.m_year t.m_month
  obtain ⟨hyear, hmonth, hday, hhour, hminute, hsec⟩ := h
  simp [layout, Readable, hseparator]
  omega

/-- The reader reads the text of the default format. -/
theorem getTimeFromString_sprintf {t : TimeItem} (h : Valid t) :
    SameTime (getTimeFromString (sprintf (layout '-' t)) defaultFormat) t := by
  have hread := sscanf_sprintf (@readable_layout '-' (by decide) _ h)
  simp only [layout, List.map_cons, List.map_nil, Printed.scanned, values] at hread
  rw [getTimeFromString, if_pos (by rfl), layout, hread]
  exact ⟨rfl, rfl, rfl, rfl, rfl, rfl⟩

/-- Of the text of the writer it reads the year. -/
theorem getTimeFromString_getTimeFromTimeItem {t : TimeItem} (hlo : 0 ≤ t.m_year)
    (hhi : t.m_year < 2 ^ 31) (format : Str) :
    getTimeFromString (getTimeFromTimeItem t format) defaultFormat =
      { m_year := t.m_year } := by
  rw [getTimeFromString, if_pos (by rfl), getTimeFromTimeItem, layout, sprintf, sprintf,
    sscanf_decimal_append _ 4 false hlo hhi (by simp), sscanf_char_cons (by decide),
    if_neg (by decide)]
  rfl

/-- Time items as text. No valid item is read back. -/
theorem not_roundTrips {t : TimeItem} (h : Valid t) : ¬RoundTrips t := by
  intro hround
  have hlo := h.year.1
  have hhi := h.year.2
  have hmonth := hround.month
  rw [getTimeFromString_getTimeFromTimeItem hlo (by omega)] at hmonth
  have := h.month.1
  simp only at hmonth
  omega

/-- The first of January 1970. -/
theorem not_roundTrips_epoch :
    ¬RoundTrips { m_year := 1970, m_month := 1, m_dayOfWeek := 4, m_day := 1 } :=
  not_roundTrips ⟨by decide, by decide, by decide, by decide, by decide, by decide⟩

/-- The last second but one of the leap day of 2024. -/
def leapDay : TimeItem where
  m_year := 2024
  m_month := 2
  m_dayOfWeek := 4
  m_day := 29
  m_hour := 23
  m_minute := 59
  m_sec := 58

/-- It is a time of the calendar, and its text is read as the month 0 of the year 2024. -/
theorem leapDay_not_read : Valid leapDay ∧ ¬RoundTrips leapDay := by
  refine ⟨⟨by decide, by decide, by decide, by decide, by decide, by decide⟩, ?_⟩
  intro hround
  exact absurd hround.month (by decide)

end Ick.TimeConverter
