/-! # Dates and moments

Documents may hold dates and moments. No setting takes one, but a message shows the value it refuses,
and a caller may assign them to the bounds of the loudness, where they are compared.
-/

namespace TrainingCollar

/-- A day of the calendar. -/
structure Date where
  year : Nat
  month : Nat
  day : Nat
deriving DecidableEq, Repr

/-- A time of a day, with the distance of its zone from universal time in minutes, if it has one. -/
structure Moment where
  date : Date
  hour : Nat
  minute : Nat
  second : Nat
  microsecond : Nat
  zone : Option Int
deriving DecidableEq, Repr

namespace Date

/-- Every fourth year is a leap year, except the hundredth, except the four hundredth. -/
def isLeap (year : Nat) : Bool := year % 4 == 0 && (year % 100 != 0 || year % 400 == 0)

/-- The number of days of a month. -/
def daysIn (year month : Nat) : Nat :=
  match month with
  | 2 => if isLeap year then 29 else 28
  | 4 | 6 | 9 | 11 => 30
  | _ => 31

/-- Whether a day exists; years run from 1 to 9999. -/
def exists? (d : Date) : Bool :=
  1 ≤ d.year && d.year ≤ 9999 && 1 ≤ d.month && d.month ≤ 12 && 1 ≤ d.day &&
    d.day ≤ daysIn d.year d.month

/-- The number of a day, counted from the first day of the year 1. -/
def count (d : Date) : Nat :=
  let years := d.year - 1
  let months := (List.range' 1 (d.month - 1)).map (daysIn d.year)
  years * 365 + years / 4 - years / 100 + years / 400 + months.foldl (· + ·) 0 + d.day

/-- A number with at least `width` digits. -/
def padded (width n : Nat) : String :=
  let digits := Nat.toDigits 10 n
  String.ofList (List.replicate (width - digits.length) '0' ++ digits)

/-- Year, month and day joined by dashes. -/
def text (d : Date) : String := padded 4 d.year ++ "-" ++ padded 2 d.month ++ "-" ++ padded 2 d.day

/-- A date written out. -/
def literal (d : Date) : String :=
  "datetime.date(" ++ toString d.year ++ ", " ++ toString d.month ++ ", " ++ toString d.day ++ ")"

end Date

namespace Moment

/-- Whether the moment exists. A zone is less than a day away from universal time. -/
def exists? (m : Moment) : Bool :=
  m.date.exists? && m.hour < 24 && m.minute < 60 && m.second < 60 &&
    match m.zone with
    | none => true
    | some offset => offset.natAbs < 1440

/-- The microseconds up to a moment, in universal time if it has a zone. -/
def instant (m : Moment) : Int :=
  let minutes : Int := (m.date.count * 24 + m.hour) * 60 + m.minute - m.zone.getD 0
  (minutes * 60 + m.second) * 1000000 + m.microsecond

/-- Whether two moments are the same. Those with a zone are compared in universal time, and a moment
with a zone is none without. -/
def same (a b : Moment) : Bool := a.zone.isSome == b.zone.isSome && a.instant == b.instant

/-- Whether the first moment is not after the second; nothing if only one of them has a zone. -/
def le? (a b : Moment) : Option Bool :=
  if a.zone.isSome = b.zone.isSome then some (decide (a.instant ≤ b.instant)) else none

/-- Date and time with the distance of the zone. -/
def text (m : Moment) : String :=
  let fraction := if m.microsecond = 0 then "" else "." ++ Date.padded 6 m.microsecond
  let zone := match m.zone with
    | none => ""
    | some offset => (if offset < 0 then "-" else "+") ++ Date.padded 2 (offset.natAbs / 60) ++ ":" ++
        Date.padded 2 (offset.natAbs % 60)
  m.date.text ++ " " ++ Date.padded 2 m.hour ++ ":" ++ Date.padded 2 m.minute ++ ":" ++
    Date.padded 2 m.second ++ fraction ++ zone

/-- A distance from universal time written out, as days and seconds that are not negative. -/
def zoneLiteral (offset : Int) : String :=
  if offset = 0 then "datetime.timezone.utc"
  else
    let days := if offset < 0 then "days=-1, " else ""
    let seconds := (offset * 60).emod 86400
    "datetime.timezone(datetime.timedelta(" ++ days ++ "seconds=" ++ toString seconds ++ "))"

/-- A moment written out; seconds and their fraction are left out when they are zero. -/
def literal (m : Moment) : String :=
  let numbers := [m.date.year, m.date.month, m.date.day, m.hour, m.minute] ++
    if m.microsecond ≠ 0 then [m.second, m.microsecond]
    else if m.second ≠ 0 then [m.second] else []
  let zone := match m.zone with
    | none => []
    | some offset => ["tzinfo=" ++ zoneLiteral offset]
  "datetime.datetime(" ++ ", ".intercalate (numbers.map toString ++ zone) ++ ")"

end Moment

end TrainingCollar
