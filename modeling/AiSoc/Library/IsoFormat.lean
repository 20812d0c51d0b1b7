import AiSoc.Library.PyDatetime
import Mathlib.Tactic.IntervalCases

namespace PyDatetime

section Calendar

def isLeap (year : Int) : Bool :=
  year % 4 = 0 ∧ (year % 100 ≠ 0 ∨ year % 400 = 0)

def daysInMonths : List Int := [31, 28, 31, 30, 31, 30, 31, 31, 30, 31, 30, 31]

def daysInMonth (year : Int) (month : Nat) : Int :=
  if month = 2 ∧ isLeap year then 29 else daysInMonths.getD (month - 1) 0

def daysBeforeYear (year : Int) : Int :=
  (year - 1) * 365 + (year - 1) / 4 - (year - 1) / 100 + (year - 1) / 400

def daysBeforeMonth (year : Int) (month : Nat) : Int :=
  (daysInMonths.take (month - 1)).sum + if 2 < month ∧ isLeap year then 1 else 0

-- 0001-01-01 has the ordinal 1
def ymdToOrd (year : Int) (month : Nat) (day : Int) : Int :=
  daysBeforeYear year + daysBeforeMonth year month + day

def weekday (ordinal : Int) : Int :=
  (ordinal + 6) % 7

def isoWeek1Monday (year : Int) : Int :=
  let firstDay := ymdToOrd year 1 1
  let monday := firstDay - weekday firstDay
  if 3 < weekday firstDay then monday + 7 else monday

def maxOrdinal : Int := 3652059

def checkDate (year : Int) (month : Nat) (day : Int) : Option Int :=
  if 1 ≤ year ∧ year ≤ 9999 ∧ 1 ≤ month ∧ month ≤ 12 ∧ 1 ≤ day ∧ day ≤ daysInMonth year month then
    some (ymdToOrd year month day)
  else none

def hasWeek (year week : Int) : Bool :=
  let firstWeekday := weekday (ymdToOrd year 1 1)
  (1 ≤ week ∧ week ≤ 52) ∨ week = 53 ∧ (firstWeekday = 3 ∨ firstWeekday = 2 ∧ isLeap year)

-- the year of the date that a week leads to is checked after the conversion
def isoToOrd (year week day : Int) : Option Int :=
  let ordinal := isoWeek1Monday year + (week - 1) * 7 + day - 1
  if hasWeek year week ∧ 1 ≤ day ∧ day ≤ 7 ∧ 1 ≤ ordinal ∧ ordinal ≤ maxOrdinal then some ordinal
  else none

theorem checkDate_range {year : Int} {month : Nat} {day ordinal : Int}
    (h : checkDate year month day = some ordinal) : 1 ≤ ordinal ∧ ordinal ≤ maxOrdinal := by
  rw [checkDate] at h
  split at h
  · rename_i hdate
    obtain ⟨hyear, hlast, hfirst, htwelve, hday, hmonth⟩ := hdate
    cases h
    have hleap : isLeap year = true ↔
        year % 4 = 0 ∧ (year % 100 ≠ 0 ∨ year % 400 = 0) := decide_eq_true_iff
    simp only [daysInMonth, hleap] at hmonth
    simp only [ymdToOrd, daysBeforeYear, daysBeforeMonth, maxOrdinal, hleap]
    interval_cases month
    all_goals
      simp only [daysInMonths, List.getD_cons_succ, List.getD_cons_zero, List.take_succ_cons,
        List.take_zero, List.sum_cons, List.sum_nil, Nat.reduceSub, Nat.reduceLT, Nat.reduceEqDiff,
        false_and, true_and, if_false] at hmonth ⊢
      omega
  · cases h

theorem isoToOrd_range {year week day ordinal : Int}
    (h : isoToOrd year week day = some ordinal) : 1 ≤ ordinal ∧ ordinal ≤ maxOrdinal := by
  simp only [isoToOrd] at h
  split at h
  · rename_i hweek
    cases h
    exact hweek.2.2.2
  · cases h

end Calendar

section Scanning

-- the bytes of a text in UTF-8
abbrev Bytes := List Nat

def utf8 (text : String) : Bytes :=
  text.toList.flatMap fun c => (String.utf8EncodeChar c).map (·.toNat)

-- a text ends in a zero byte
def byteAt (s : Bytes) (p : Nat) : Nat :=
  s.getD p 0

def isByte (s : Bytes) (p : Nat) (c : Char) : Bool :=
  byteAt s p = c.toNat

def isDigitAt (s : Bytes) (p : Nat) : Bool :=
  '0'.toNat ≤ byteAt s p ∧ byteAt s p ≤ '9'.toNat

def digitsFrom (s : Bytes) : Nat → Nat → Nat → Option Nat
  | 0, _, var => some var
  | n + 1, p, var =>
      if isDigitAt s p then digitsFrom s n (p + 1) (var * 10 + (byteAt s p - '0'.toNat)) else none

def parseDigits (s : Bytes) (p n : Nat) : Option Nat :=
  digitsFrom s n p 0

def skipDigits (s : Bytes) (p : Nat) : Nat :=
  p + ((s.drop p).takeWhile fun b => '0'.toNat ≤ b ∧ b ≤ '9'.toNat).length

end Scanning

section Dates

def findDatetimeSeparator (s : Bytes) : Option Nat :=
  if s.length = 7 then some 7
  else if isByte s 4 '-' then
    if isByte s 5 'W' then
      if s.length < 8 then none
      else if 8 < s.length ∧ isByte s 8 '-' then
        if s.length = 9 then none
        else if 10 < s.length ∧ isDigitAt s 10 then some 8
        else some 10
      else some 8
    else some 10
  else if isByte s 4 'W' then
    let position := skipDigits s 7
    if position < 9 then some position
    else if position % 2 = 0 then some 7
    else some 8
  else some 8

def parseSeparator (s : Bytes) (usesSeparator : Bool) (p : Nat) : Option Nat :=
  if usesSeparator then if isByte s p '-' then some (p + 1) else none else some p

-- a week without a day begins on its Monday
def parseWeekday (s : Bytes) (usesSeparator : Bool) (p len : Nat) : Option Nat :=
  if p < len then (parseSeparator s usesSeparator p).bind fun q => parseDigits s q 1 else some 1

def parseWeek (s : Bytes) (usesSeparator : Bool) (year p len : Nat) : Option Int := do
  let week ← parseDigits s p 2
  let day ← parseWeekday s usesSeparator (p + 2) len
  isoToOrd year week day

def parseMonth (s : Bytes) (usesSeparator : Bool) (year p len : Nat) : Option Int := do
  let month ← parseDigits s p 2
  let q ← parseSeparator s usesSeparator (p + 2)
  let day ← parseDigits s q 2
  if q + 2 = len then checkDate year month day else none

def parseInYear (s : Bytes) (usesSeparator : Bool) (year p len : Nat) : Option Int :=
  if isByte s p 'W' then parseWeek s usesSeparator year (p + 1) len
  else parseMonth s usesSeparator year p len

-- the ordinal of the date in the first len bytes
def parseIsoformatDate (s : Bytes) (len : Nat) : Option Int := do
  let year ← parseDigits s 0 4
  parseInYear s (isByte s 4 '-') year (if isByte s 4 '-' then 5 else 4) len

variable {s : Bytes} {usesSeparator : Bool} {year p len : Nat} {ordinal : Int}

theorem parseWeek_range (h : parseWeek s usesSeparator year p len = some ordinal) :
    1 ≤ ordinal ∧ ordinal ≤ maxOrdinal := by
  obtain ⟨week, _, h⟩ := Option.bind_eq_some_iff.mp h
  obtain ⟨day, _, h⟩ := Option.bind_eq_some_iff.mp h
  exact isoToOrd_range h

theorem parseMonth_range (h : parseMonth s usesSeparator year p len = some ordinal) :
    1 ≤ ordinal ∧ ordinal ≤ maxOrdinal := by
  obtain ⟨month, _, h⟩ := Option.bind_eq_some_iff.mp h
  obtain ⟨q, _, h⟩ := Option.bind_eq_some_iff.mp h
  obtain ⟨day, _, h⟩ := Option.bind_eq_some_iff.mp h
  split at h
  · exact checkDate_range h
  · cases h

theorem parseInYear_range (h : parseInYear s usesSeparator year p len = some ordinal) :
    1 ≤ ordinal ∧ ordinal ≤ maxOrdinal := by
  rw [parseInYear] at h
  split at h
  · exact parseWeek_range h
  · exact parseMonth_range h

theorem parseIsoformatDate_range (h : parseIsoformatDate s len = some ordinal) :
    1 ≤ ordinal ∧ ordinal ≤ maxOrdinal := by
  obtain ⟨_, _, h⟩ := Option.bind_eq_some_iff.mp h
  exact parseInYear_range h

end Dates

section Times

-- what stands after the digits, if anything, is left to the caller
structure Clock where
  hour : Nat
  minute : Nat
  second : Nat
  microsecond : Nat
  trailing : Bool

def clockOf (values : List Nat) (microsecond : Nat) (trailing : Bool) : Clock :=
  ⟨values.getD 0 0, values.getD 1 0, values.getD 2 0, microsecond, trailing⟩

-- digits after the sixth are skipped
def parseFraction (s : Bytes) (pEnd : Nat) (values : List Nat) (p : Nat) : Option Clock := do
  let toParse := min (pEnd - p) 6
  let fraction ← parseDigits s p toParse
  some (clockOf values (fraction * 10 ^ (6 - toParse))
    (byteAt s (skipDigits s (p + toParse)) ≠ 0))

-- up to three pairs of digits and a fraction; a colon after the third pair begins one as well
def parseFields (s : Bytes) (pEnd : Nat) : Nat → Bool → List Nat → Nat → Option Clock
  | 0, _, values, p => parseFraction s pEnd values p
  | n + 1, hasSeparator, values, p => do
      let value ← parseDigits s p 2
      let hasSeparator := if values = [] then isByte s (p + 2) ':' else hasSeparator
      if pEnd ≤ p + 3 then some (clockOf (values ++ [value]) 0 (byteAt s (p + 2) ≠ 0))
      else if hasSeparator ∧ isByte s (p + 2) ':' then
        parseFields s pEnd n hasSeparator (values ++ [value]) (p + 3)
      else if isByte s (p + 2) '.' ∨ isByte s (p + 2) ',' then
        parseFraction s pEnd (values ++ [value]) (p + 3)
      else if hasSeparator then none
      else parseFields s pEnd n hasSeparator (values ++ [value]) (p + 2)

def parseHhMmSsFf (s : Bytes) (p pEnd : Nat) : Option Clock :=
  parseFields s pEnd 3 true [] p

def isZoneAt (s : Bytes) (p : Nat) : Bool :=
  isByte s p '+' ∨ isByte s p '-' ∨ isByte s p 'Z'

def zonePosition (s : Bytes) : Nat → Nat → Nat
  | 0, p => p
  | n + 1, p => if isZoneAt s p then p else zonePosition s n (p + 1)

-- microseconds are lost where the seconds of the offset are zero
def zoneOffset (negative : Bool) (zone : Clock) : Int :=
  let seconds : Int := zone.hour * 3600 + zone.minute * 60 + zone.second
  if seconds = 0 then 0
  else if negative then -(seconds * 1000000 + zone.microsecond)
  else seconds * 1000000 + zone.microsecond

def parseZone (s : Bytes) (p : Nat) : Option (Option Int) :=
  if p = s.length then some none
  else if isByte s p 'Z' then if byteAt s (p + 1) = 0 then some (some 0) else none
  else do
    let zone ← parseHhMmSsFf s (p + 1) s.length
    let offset := zoneOffset (isByte s p '-') zone
    if zone.trailing = false ∧ -microsecondsPerDay < offset ∧ offset < microsecondsPerDay then
      some (some offset)
    else none

def parseIsoformatTime (s : Bytes) (p : Nat) : Option (Clock × Option Int) := do
  let position := zonePosition s (max 1 (s.length - p)) p
  let clock ← parseHhMmSsFf s p position
  let offset ← parseZone s position
  if position = s.length ∧ clock.trailing then none
  else some (clock, offset)

end Times

section Fromisoformat

def timeOfDay (clock : Clock) : Int :=
  (clock.hour * 3600 + clock.minute * 60 + clock.second) * 1000000 + clock.microsecond

def checkTime (clock : Clock) : Option Int :=
  if clock.hour ≤ 23 ∧ clock.minute ≤ 59 ∧ clock.second ≤ 59 ∧ clock.microsecond ≤ 999999 then
    some (timeOfDay clock)
  else none

-- the bytes of a character, by its first
def characterLength (first : Nat) : Nat :=
  if first < 128 then 1
  else if first / 16 = 14 then 3
  else if first / 16 = 15 then 4
  else 2

def epochOrdinal : Int := 719163

def wallOf (ordinal time : Int) : Int :=
  (ordinal - epochOrdinal) * microsecondsPerDay + time

-- datetime.fromisoformat: the reading of the wall clock since the epoch, and the zone's offset
def fromisoformat (text : String) : Option (Int × Option Int) := do
  let s := utf8 text
  let separator ← findDatetimeSeparator s
  let ordinal ← parseIsoformatDate s separator
  if s.length ≤ separator then some (wallOf ordinal 0, none)
  else do
    let (clock, offset) ←
      parseIsoformatTime s (separator + characterLength (byteAt s separator))
    let time ← checkTime clock
    some (wallOf ordinal time, offset)

theorem checkTime_range {clock : Clock} {time : Int} (h : checkTime clock = some time) :
    0 ≤ time ∧ time < microsecondsPerDay := by
  rw [checkTime] at h
  split at h
  · rename_i hclock
    cases h
    rw [timeOfDay, microsecondsPerDay]
    omega
  · cases h

theorem wallOf_range {ordinal time : Int} (hordinal : 1 ≤ ordinal ∧ ordinal ≤ maxOrdinal)
    (htime : 0 ≤ time ∧ time < microsecondsPerDay) :
    minimum ≤ wallOf ordinal time ∧ wallOf ordinal time ≤ maximum := by
  simp only [wallOf, minimum, maximum, epochOrdinal, maxOrdinal, microsecondsPerDay] at *
  omega

theorem parseZone_range {s : Bytes} {p : Nat} {offset : Option Int}
    (h : parseZone s p = some offset) :
    ∀ shift ∈ offset, -microsecondsPerDay < shift ∧ shift < microsecondsPerDay := by
  rw [parseZone] at h
  split at h
  · cases h
    exact nofun
  · split at h
    · split at h
      · cases h
        intro shift hshift
        cases hshift
        decide
      · cases h
    · obtain ⟨zone, _, h⟩ := Option.bind_eq_some_iff.mp h
      simp only at h
      split at h
      · rename_i hrange
        cases h
        intro shift hshift
        cases hshift
        exact hrange.2
      · cases h

theorem parseIsoformatTime_range {s : Bytes} {p : Nat} {clock : Clock} {offset : Option Int}
    (h : parseIsoformatTime s p = some (clock, offset)) :
    ∀ shift ∈ offset, -microsecondsPerDay < shift ∧ shift < microsecondsPerDay := by
  obtain ⟨found, _, h⟩ := Option.bind_eq_some_iff.mp h
  obtain ⟨zone, hzone, h⟩ := Option.bind_eq_some_iff.mp h
  split at h
  · cases h
  · cases h
    exact parseZone_range hzone

theorem fromisoformat_range {text : String} {wall : Int} {offset : Option Int}
    (h : fromisoformat text = some (wall, offset)) :
    (minimum ≤ wall ∧ wall ≤ maximum) ∧
      ∀ shift ∈ offset, -microsecondsPerDay < shift ∧ shift < microsecondsPerDay := by
  obtain ⟨separator, _, h⟩ := Option.bind_eq_some_iff.mp h
  obtain ⟨ordinal, hdate, h⟩ := Option.bind_eq_some_iff.mp h
  have hordinal := parseIsoformatDate_range hdate
  simp only at h
  split at h
  · cases h
    exact ⟨wallOf_range hordinal (by decide), nofun⟩
  · obtain ⟨⟨clock, zone⟩, hclock, h⟩ := Option.bind_eq_some_iff.mp h
    obtain ⟨time, htime, h⟩ := Option.bind_eq_some_iff.mp h
    cases h
    exact ⟨wallOf_range hordinal (checkTime_range htime), parseIsoformatTime_range hclock⟩

end Fromisoformat

end PyDatetime
