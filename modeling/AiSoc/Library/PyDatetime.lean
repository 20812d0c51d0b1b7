import Mathlib.Data.Int.Notation

namespace PyDatetime

-- year, month and day of a day counted from 1970-01-01
def civil (days : Int) : Int × Int × Int :=
  let z := days + 719468
  let era := z / 146097
  let doe := z - era * 146097
  let yoe := (doe - doe / 1460 + doe / 36524 - doe / 146096) / 365
  let doy := doe - (365 * yoe + yoe / 4 - yoe / 100)
  let mp := (5 * doy + 2) / 153
  let day := doy - (153 * mp + 2) / 5 + 1
  let month := if mp < 10 then mp + 3 else mp - 9
  (yoe + era * 400 + (if month ≤ 2 then 1 else 0), month, day)

def pad (width : Nat) (n : Int) : String :=
  let ds := toString n.toNat
  String.ofList (List.replicate (width - ds.length) '0') ++ ds

def microsecondsPerDay : Int := 86400 * 1000000

-- datetime.isoformat() of a UTC datetime, in microseconds since the epoch
def isoformat (t : Int) : String :=
  let days := t / microsecondsPerDay
  let rest := t % microsecondsPerDay
  let (year, month, day) := civil days
  let seconds := rest / 1000000
  let micros := rest % 1000000
  pad 4 year ++ "-" ++ pad 2 month ++ "-" ++ pad 2 day ++ "T" ++ pad 2 (seconds / 3600) ++ ":" ++
    pad 2 (seconds / 60 % 60) ++ ":" ++ pad 2 (seconds % 60) ++
    (if micros = 0 then "" else "." ++ pad 6 micros) ++ "+00:00"

section Range

-- 0001-01-01T00:00:00 and 9999-12-31T23:59:59.999999
def minimum : Int := -62135596800 * 1000000
def maximum : Int := 253402300800 * 1000000 - 1

-- a datetime outside the calendar is an OverflowError
def checked (t : Int) : Option Int :=
  if minimum ≤ t ∧ t ≤ maximum then some t else none

-- timedelta(seconds=seconds) in microseconds
def timedelta (seconds : Int) : Option Int :=
  let days := seconds / 86400
  if -999999999 ≤ days ∧ days ≤ 999999999 then some (seconds * 1000000) else none

-- t - timedelta(seconds=seconds)
def subtractSeconds (t seconds : Int) : Option Int :=
  (timedelta seconds).bind fun delta => checked (t - delta)

theorem checked_eq_some {t u : Int} :
    checked t = some u ↔ minimum ≤ t ∧ t ≤ maximum ∧ u = t := by
  rw [checked]
  split
  · rename_i h
    constructor
    · intro hu
      exact ⟨h.1, h.2, (Option.some.inj hu).symm⟩
    · rintro ⟨_, _, rfl⟩
      rfl
  · rename_i h
    constructor
    · intro hu
      cases hu
    · rintro ⟨hmin, hmax, _⟩
      exact absurd ⟨hmin, hmax⟩ h

theorem subtractSeconds_eq_some {t seconds u : Int} (h : subtractSeconds t seconds = some u) :
    u = t - seconds * 1000000 := by
  obtain ⟨delta, hdelta, hu⟩ := Option.bind_eq_some_iff.mp h
  obtain ⟨_, _, rfl⟩ := checked_eq_some.mp hu
  simp only [timedelta] at hdelta
  split at hdelta
  · rw [Option.some.inj hdelta]
  · cases hdelta

end Range

end PyDatetime
