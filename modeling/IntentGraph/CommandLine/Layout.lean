import IntentGraph.Text

/-!
# Layout of output

How the commands lay out what they print: tables of text, and moments in time.
-/

namespace IntentGraph.CommandLine

/-!
## Tables

Columns of text under a header and a rule, two spaces apart. A column is as wide
as the longest of its cells in bytes, while a cell is filled up to that many
characters; so columns with characters beyond ASCII come out wider than they
need to be. Lines do not end in blanks.
-/

/-- A table: the names of its columns and its rows. -/
structure Table where
  headers : List String
  rows : List (List String)

namespace Table

/-- The widths of columns, made wide enough for a row. -/
def widen (widths : List Nat) (row : List String) : List Nat :=
  List.zipWith (fun width cell =>
    max width (String.utf8ByteSize cell)) widths row

/-- The width of every column. -/
def widths (t : Table) : List Nat :=
  t.rows.foldl widen (t.headers.map (·.utf8ByteSize))

/-- A cell filled up to a width. -/
def padded (width : Nat) (cell : String) : String :=
  cell ++ "".pushn ' ' (width - cell.length)

/-- A row of cells as a line. -/
def line (widths : List Nat) (cells : List String) : String :=
  String.ofList
    (Text.trimEnd ("  ".intercalate (List.zipWith padded widths cells)).toList)

/-- The lines of a table. -/
def lines (t : Table) : List String :=
  [line t.widths t.headers, "  ".intercalate (t.widths.map ("".pushn '-' ·))]
    ++ t.rows.map (line t.widths)

end Table

/-!
## Moments

The written form of a moment in time: the date and the time of day at Greenwich,
for a number of nanoseconds since the start of 1970.
-/

/-- A date of the calendar. -/
structure CalendarDate where
  year : Nat
  month : Nat
  day : Nat
  deriving DecidableEq

/-- The days from the first of March of the year 0 to the start of 1970. -/
def daysBeforeEpoch : Nat := 719468

/-- The date that a number of days after the start of 1970 falls on. Years are
counted from March on, so that the leap day is the last day of its year and the
months before it have a fixed length. -/
def CalendarDate.ofDays (days : Nat) : CalendarDate :=
  let days := days + daysBeforeEpoch
  let century := days / 146097
  let dayOfCentury := days % 146097
  let yearOfCentury :=
    (dayOfCentury - dayOfCentury / 1460 + dayOfCentury / 36524
      - dayOfCentury / 146096) / 365
  let dayOfYear :=
    dayOfCentury
      - (365 * yearOfCentury + yearOfCentury / 4 - yearOfCentury / 100)
  let monthFromMarch := (5 * dayOfYear + 2) / 153
  let month := if monthFromMarch < 10 then monthFromMarch + 3
    else monthFromMarch - 9
  { year := 400 * century + yearOfCentury + if month ≤ 2 then 1 else 0
    month := month
    day := dayOfYear - (153 * monthFromMarch + 2) / 5 + 1 }

/-- A number in decimal digits, at least so many. -/
def padded (width n : Nat) : String :=
  let digits := Nat.toDigits 10 n
  String.ofList (List.replicate (width - digits.length) '0' ++ digits)

/-- The part of a second, in as few groups of three digits as hold it. -/
def fractionText (nanoseconds : Nat) : String :=
  if nanoseconds = 0 then ""
  else if nanoseconds % 1000000 = 0 then "." ++ padded 3 (nanoseconds / 1000000)
  else if nanoseconds % 1000 = 0 then "." ++ padded 6 (nanoseconds / 1000)
  else "." ++ padded 9 nanoseconds

/-- The written form of the moment so many nanoseconds after the start of
1970. -/
def momentText (nanoseconds : Nat) : String :=
  let seconds := nanoseconds / 1000000000
  let date := CalendarDate.ofDays (seconds / 86400)
  let clock := seconds % 86400
  padded 4 date.year ++ "-" ++ padded 2 date.month ++ "-"
    ++ padded 2 date.day ++ "T"
    ++ padded 2 (clock / 3600) ++ ":" ++ padded 2 (clock / 60 % 60) ++ ":"
    ++ padded 2 (clock % 60)
    ++ fractionText (nanoseconds % 1000000000) ++ "Z"

end IntentGraph.CommandLine
