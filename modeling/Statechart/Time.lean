import Statechart.Text.Blank

/-!
# Instants

An instant is a day, a second of that day and a part of a second, in universal time. A part of a
second of a billion nanoseconds or more lies in a leap second, which no day counts. The text form is
that of RFC 3339; reading also takes blanks between the parts and fewer digits than two.
-/

namespace Statechart

structure Instant where
  /-- Days since the first of January 1970. -/
  day : Int
  second : Nat
  nano : Nat
  deriving DecidableEq, Repr, Inhabited

namespace Instant

/-- The day number of a date of the proleptic Gregorian calendar. Years are counted from March, so
that the leap day ends a year. -/
def dayOfDate (year : Int) (month day : Nat) : Int :=
  let y := if month ≤ 2 then year - 1 else year
  let era := y.fdiv 400
  let yearOfEra := y - era * 400
  let monthFromMarch : Nat := (month + 9) % 12
  let dayOfYear : Nat := (153 * monthFromMarch + 2) / 5 + day - 1
  let dayOfEra := yearOfEra * 365 + yearOfEra / 4 - yearOfEra / 100 + dayOfYear
  era * 146097 + dayOfEra - 719468

/-- Year, month and day of a day number. -/
def dateOfDay (n : Int) : Int × Nat × Nat :=
  let z := n + 719468
  let era := z.fdiv 146097
  let dayOfEra := z - era * 146097
  let yearOfEra := (dayOfEra - dayOfEra / 1460 + dayOfEra / 36524 - dayOfEra / 146096) / 365
  let dayOfYear := (dayOfEra - (365 * yearOfEra + yearOfEra / 4 - yearOfEra / 100)).toNat
  let monthFromMarch := (5 * dayOfYear + 2) / 153
  let day := dayOfYear - (153 * monthFromMarch + 2) / 5 + 1
  let month := if monthFromMarch < 10 then monthFromMarch + 3 else monthFromMarch - 9
  let year := yearOfEra + era * 400
  (if month ≤ 2 then year + 1 else year, month, day)

def isLeapYear (y : Int) : Bool := y % 4 == 0 && (y % 100 != 0 || y % 400 == 0)

def daysInMonth (year : Int) : Nat → Nat
  | 2 => if isLeapYear year then 29 else 28
  | 4 | 6 | 9 | 11 => 30
  | _ => 31

/-- The years that a date may have. -/
def minYear : Int := -262143
def maxYear : Int := 262142

/-- The instant of a civil date and time with an offset east of universal time, in seconds. -/
def ofCivil? (year : Int) (month day hour minute second nano : Nat)
    (offset : Int) : Option Instant :=
  if year < minYear ∨ maxYear < year ∨ month < 1 ∨ 12 < month ∨ day < 1 ∨
      daysInMonth year month < day ∨ 23 < hour ∨ 59 < minute ∨ 60 < second ∨
      offset ≤ -86400 ∨ 86400 ≤ offset then none
  else
    let leap := second = 60
    let clock : Int := hour * 3600 + minute * 60 + (if leap then 59 else second)
    let total := clock - offset
    let date := dayOfDate year month day + total.fdiv 86400
    let y := (dateOfDay date).1
    if y < minYear ∨ maxYear < y then none
    else some ⟨date, (total.fmod 86400).toNat, if leap then nano + 1000000000 else nano⟩

/-! ## Reading -/

/-- One to `width` digits, all of them when no width is given. -/
def number? (width : Option Nat) (cs : List Char) : Option (Nat × List Char) :=
  let run := cs.takeWhile Char.isDigit
  let run := match width with
    | some w => run.take w
    | none => run
  if run.isEmpty then none
  else some (run.foldl (fun n c => n * 10 + (c.toNat - '0'.toNat)) 0, cs.drop run.length)

/-- A number of at most two digits after blanks. -/
def part? (cs : List Char) : Option (Nat × List Char) :=
  number? (some 2) (Text.skipBlank cs)

/-- A mark after blanks. -/
def mark? (m : Char) (cs : List Char) : Option (List Char) :=
  match Text.skipBlank cs with
  | c :: rest => if c = m then some rest else none
  | [] => none

/-- A year of four digits, or of any number of digits after a sign. -/
def year? (cs : List Char) : Option (Int × List Char) :=
  match Text.skipBlank cs with
  | '-' :: rest => (number? none rest).map fun (n, rest) => (-(n : Int), rest)
  | '+' :: rest => (number? none rest).map fun (n, rest) => ((n : Int), rest)
  | cs => (number? (some 4) cs).map fun (n, rest) => ((n : Int), rest)

/-- A fraction of a second in nanoseconds; digits beyond the ninth are dropped. -/
def fraction? (cs : List Char) : Option (Nat × List Char) :=
  match cs with
  | '.' :: rest =>
    match number? (some 9) rest with
    | some (n, after) =>
      some (n * Nat.pow 10 (9 - (rest.length - after.length)), after.dropWhile Char.isDigit)
    | none => none
  | cs => some (0, cs)

def isSeparator (c : Char) : Bool := c == ':' || Text.isBlank c

def twoDigits? : List Char → Option (Nat × List Char)
  | a :: b :: rest =>
    if a.isDigit ∧ b.isDigit then
      some ((a.toNat - '0'.toNat) * 10 + (b.toNat - '0'.toNat), rest)
    else none
  | _ => none

/-- Hours and minutes after a sign. -/
def clockOffset? (sign : Int) (cs : List Char) : Option (Int × List Char) := do
  let (hours, rest) ← twoDigits? cs
  let (minutes, rest) ← twoDigits? (rest.dropWhile isSeparator)
  if minutes < 60 then some (sign * (hours * 3600 + minutes * 60), rest) else none

/-- An offset from universal time in seconds. -/
def offset? (cs : List Char) : Option (Int × List Char) :=
  match cs with
  | 'U' :: 'T' :: 'C' :: rest => some (0, rest)
  | 'Z' :: rest | 'z' :: rest => some (0, rest)
  | '+' :: rest => clockOffset? 1 rest
  | '-' :: rest | '−' :: rest => clockOffset? (-1) rest
  | a :: b :: c :: rest =>
    if a.toLower = 'u' ∧ b.toLower = 't' ∧ c.toLower = 'c' then some (0, rest) else none
  | _ => none

def parse (text : String) : Option Instant := do
  let (year, cs) ← year? text.toList
  let (month, cs) ← part? (← mark? '-' cs)
  let (day, cs) ← part? (← mark? '-' cs)
  let cs ← match cs with
    | 'T' :: rest | 't' :: rest | ' ' :: rest => some rest
    | _ => none
  let (hour, cs) ← part? cs
  let (minute, cs) ← part? (← mark? ':' cs)
  let (second, cs) ← part? (← mark? ':' cs)
  let (nano, cs) ← fraction? cs
  let (offset, cs) ← offset? (Text.skipBlank cs)
  if (Text.skipBlank cs).isEmpty then
    ofCivil? year month day hour minute second nano offset else none

/-! ## Writing -/

/-- A number with zeros in front up to a width. -/
def padded (width n : Nat) : String :=
  let text := (toString n).toList
  String.ofList (List.replicate (width - text.length) '0' ++ text)

/-- Four digits, with a sign for a year that four digits do not hold. -/
def yearText (y : Int) : String :=
  if 0 ≤ y ∧ y ≤ 9999 then padded 4 y.toNat
  else (if y < 0 then "-" else "+") ++ padded 4 y.natAbs

/-- The fewest digits of zero, three, six or nine that are exact. -/
def fractionText (nano : Nat) : String :=
  if nano = 0 then ""
  else if nano % 1000000 = 0 then "." ++ padded 3 (nano / 1000000)
  else if nano % 1000 = 0 then "." ++ padded 6 (nano / 1000)
  else "." ++ padded 9 nano

def render (t : Instant) : String :=
  let (year, month, day) := dateOfDay t.day
  let leap := 1000000000 ≤ t.nano
  let second := t.second % 60 + (if leap then 1 else 0)
  let nano := if leap then t.nano - 1000000000 else t.nano
  yearText year ++ "-" ++ padded 2 month ++ "-" ++ padded 2 day ++ "T" ++
    padded 2 (t.second / 3600) ++ ":" ++ padded 2 (t.second / 60 % 60) ++ ":" ++ padded 2 second ++
    fractionText nano ++ "Z"

/-! ## Distances -/

/-- Nanoseconds from one instant to another. A leap second counts once it lies behind. -/
def nanosSince (later earlier : Instant) : Int :=
  let seconds := (later.day - earlier.day) * 86400 + ((later.second : Int) - earlier.second)
  let leap : Int :=
    if earlier.second < later.second ∧ 1000000000 ≤ earlier.nano then 1
    else if later.second < earlier.second ∧ 1000000000 ≤ later.nano then -1
    else 0
  (seconds + leap) * 1000000000 + ((later.nano : Int) - earlier.nano)

/-- Whole seconds and nanoseconds of a distance that is not negative. -/
def elapsed? (later earlier : Instant) : Option (Nat × Nat) :=
  let n := nanosSince later earlier
  if n < 0 then none else some (n.toNat / 1000000000, n.toNat % 1000000000)

/-- The instant a number of nanoseconds after another outside leap seconds. -/
def addNanos (t : Instant) (n : Nat) : Instant :=
  let nanos := t.nano + n
  let seconds := t.second + nanos / 1000000000
  ⟨t.day + (seconds / 86400 : Nat), seconds % 86400, nanos % 1000000000⟩

end Instant
end Statechart
