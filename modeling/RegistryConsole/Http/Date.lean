import RegistryConsole.Text.Lead

/-! # Dates

Points in time as header fields tell them: a weekday, a day of the calendar and the time of day,
to the second. Three forms are read, and the first of them is written. -/

namespace RegistryConsole

/-- A day and the time of day, with the weekday that goes with them. Weekdays are counted from
Monday and months from January, both from zero. -/
structure Moment where
  year : Nat := 0
  month : Nat := 0
  day : Nat := 0
  hour : Nat := 0
  minute : Nat := 0
  second : Nat := 0
  weekday : Nat := 0
  deriving DecidableEq

/-- A point in time: the seconds since the start of 1970. -/
structure HttpDate where
  seconds : Nat
  deriving DecidableEq

/-! ## The calendar -/

namespace Calendar

/-- Whether a year has a leap day. -/
def isLeap (year : Nat) : Bool :=
  year % 4 = 0 && (year % 100 ≠ 0 || year % 400 = 0)

/-- The days of a year. -/
def yearLength (year : Nat) : Nat :=
  if isLeap year then 366 else 365

/-- The days of the months of a year. -/
def monthLengths (year : Nat) : List Nat :=
  [31, if isLeap year then 29 else 28, 31, 30, 31, 30, 31, 31, 30, 31, 30, 31]

/-- The days from the start of 1970 to the start of a year: every year has 365, and each leap year
before has one more. -/
def daysBefore (year : Nat) : Nat :=
  365 * (year - 1970) + ((year - 1) / 4 + (year - 1) / 400 - (year - 1) / 100 - 477)

/-- The year of a day that is counted from the start of 1970, up to the year 9999. -/
def yearOf (days : Nat) : Nat :=
  1970 + ((List.range 8029).takeWhile fun n => daysBefore (1971 + n) ≤ days).length

/-- The month and the day in it, from zero, of a day in a year. -/
def monthOf : (lengths : List Nat) → (day : Nat) → Nat × Nat
  | [], day => (0, day)
  | length :: rest, day =>
    if day < length then (0, day)
    else
      let (month, day) := monthOf rest (day - length)
      (month + 1, day)

/-- The days in a year before a day of a month. -/
def dayOf (lengths : List Nat) (month day : Nat) : Nat :=
  (lengths.take month).foldr (· + ·) day

end Calendar

namespace HttpDate

/-- The moment of a point in time. The first day of 1970 was a Thursday. -/
def moment (date : HttpDate) : Moment :=
  let days := date.seconds / 86400
  let year := Calendar.yearOf days
  let (month, day) :=
    Calendar.monthOf (Calendar.monthLengths year) (days - Calendar.daysBefore year)
  { year, month
    day := day + 1
    hour := date.seconds / 3600 % 24
    minute := date.seconds / 60 % 60
    second := date.seconds % 60
    weekday := (days + 3) % 7 }

/-- The point in time of a moment, if there is such a moment from 1970 on. -/
def ofMoment? (m : Moment) : Option HttpDate :=
  let days := Calendar.daysBefore m.year +
    Calendar.dayOf (Calendar.monthLengths m.year) m.month (m.day - 1)
  let length := ((Calendar.monthLengths m.year)[m.month]?).getD 0
  if 1970 ≤ m.year ∧ 1 ≤ m.day ∧ m.day ≤ length ∧ m.hour < 24 ∧ m.minute < 60 ∧ m.second < 60 ∧
      m.weekday = (days + 3) % 7 then
    some ⟨days * 86400 + m.hour * 3600 + m.minute * 60 + m.second⟩
  else none

end HttpDate

/-! ## Forms -/

/-- The parts of a date's text. -/
inductive DatePiece where
  | text (text : String)
  | weekday
  | longWeekday
  | day
  /-- The day with a blank before a single digit. -/
  | blankDay
  | month
  | year
  /-- The last two digits of a year from 1970 to 2069. -/
  | shortYear
  | hour
  | minute
  | second
  deriving DecidableEq

namespace DatePiece

/-- The names of the weekdays. -/
def weekdays : List String :=
  ["Monday", "Tuesday", "Wednesday", "Thursday", "Friday", "Saturday", "Sunday"]

/-- The short names of the weekdays. -/
def shortWeekdays : List String := ["Mon", "Tue", "Wed", "Thu", "Fri", "Sat", "Sun"]

/-- The short names of the months. -/
def months : List String :=
  ["Jan", "Feb", "Mar", "Apr", "May", "Jun", "Jul", "Aug", "Sep", "Oct", "Nov", "Dec"]

/-- The number of a name at the start of a text, and what follows it. -/
def readName? (names : List String) (cs : List Char) : Option (Nat × List Char) :=
  names.zipIdx.findSome? fun (name, n) => (dropLead? name.toList cs).map fun rest => (n, rest)

/-- The number of exactly `count` digits at the start of a text, and what follows them. -/
def readDigits? (count : Nat) (cs : List Char) : Option (Nat × List Char) :=
  let digits := cs.take count
  if digits.length = count ∧ digits.all Char.isDigit then
    some (digits.foldl (fun acc c => acc * 10 + (c.toNat - 48)) 0, cs.drop count)
  else none

/-- Adds what a part at the start of a text tells to what is known of a moment. -/
def read? (m : Moment) (cs : List Char) : DatePiece → Option (Moment × List Char)
  | .text t => (dropLead? t.toList cs).map fun rest => (m, rest)
  | .weekday => (readName? shortWeekdays cs).map fun (n, rest) => ({ m with weekday := n }, rest)
  | .longWeekday => (readName? weekdays cs).map fun (n, rest) => ({ m with weekday := n }, rest)
  | .day => (readDigits? 2 cs).map fun (n, rest) => ({ m with day := n }, rest)
  | .blankDay =>
    let number? := match cs with
      | ' ' :: rest => readDigits? 1 rest
      | cs => readDigits? 2 cs
    number?.map fun (n, rest) => ({ m with day := n }, rest)
  | .month => (readName? months cs).map fun (n, rest) => ({ m with month := n }, rest)
  | .year => (readDigits? 4 cs).map fun (n, rest) => ({ m with year := n }, rest)
  | .shortYear => (readDigits? 2 cs).map fun (n, rest) =>
      ({ m with year := if n < 70 then 2000 + n else 1900 + n }, rest)
  | .hour => (readDigits? 2 cs).map fun (n, rest) => ({ m with hour := n }, rest)
  | .minute => (readDigits? 2 cs).map fun (n, rest) => ({ m with minute := n }, rest)
  | .second => (readDigits? 2 cs).map fun (n, rest) => ({ m with second := n }, rest)

/-- The last `count` digits of a number. -/
def digits : (count : Nat) → Nat → List Char
  | 0, _ => []
  | count + 1, n => digits count (n / 10) ++ [Nat.digitChar (n % 10)]

/-- What a part tells of a moment. -/
def write (m : Moment) : DatePiece → List Char
  | .text t => t.toList
  | .weekday => (shortWeekdays.getD m.weekday "").toList
  | .longWeekday => (weekdays.getD m.weekday "").toList
  | .day => digits 2 m.day
  | .blankDay => if m.day < 10 then ' ' :: digits 1 m.day else digits 2 m.day
  | .month => (months.getD m.month "").toList
  | .year => digits 4 m.year
  | .shortYear => digits 2 m.year
  | .hour => digits 2 m.hour
  | .minute => digits 2 m.minute
  | .second => digits 2 m.second

/-- The time of day. -/
def time : List DatePiece := [.hour, .text ":", .minute, .text ":", .second]

/-- The usual form, such as `Sun, 06 Nov 1994 08:49:37 GMT`. -/
def usual : List DatePiece :=
  [.weekday, .text ", ", .day, .text " ", .month, .text " ", .year, .text " "] ++ time ++
    [.text " GMT"]

/-- The form with a short year, such as `Sunday, 06-Nov-94 08:49:37 GMT`. -/
def dashed : List DatePiece :=
  [.longWeekday, .text ", ", .day, .text "-", .month, .text "-", .shortYear, .text " "] ++ time ++
    [.text " GMT"]

/-- The form with the year at the end, such as `Sun Nov  6 08:49:37 1994`. -/
def yearLast : List DatePiece :=
  [.weekday, .text " ", .month, .text " ", .blankDay, .text " "] ++ time ++ [.text " ", .year]

/-- The moment that a text of exactly these parts tells. -/
def readAll? : List DatePiece → Moment → List Char → Option Moment
  | [], m, cs => if cs = [] then some m else none
  | piece :: pieces, m, cs =>
    match piece.read? m cs with
    | some (m, rest) => readAll? pieces m rest
    | none => none

end DatePiece

namespace HttpDate

/-- The point in time that a text in one of the forms tells. Blanks around it do not count. -/
def ofText? (cs : List Char) : Option HttpDate :=
  let isBlank (c : Char) : Bool := c == ' ' || c == '\t'
  let inner := ((cs.dropWhile isBlank).reverse.dropWhile isBlank).reverse
  [DatePiece.usual, DatePiece.dashed, DatePiece.yearLast].findSome? fun form =>
    (DatePiece.readAll? form {} inner).bind ofMoment?

/-- The text of a point in time. -/
def text (date : HttpDate) : String :=
  String.ofList (DatePiece.usual.flatMap (DatePiece.write date.moment))

end HttpDate

end RegistryConsole
