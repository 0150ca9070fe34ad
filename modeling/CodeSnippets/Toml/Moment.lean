/-
  Dates and times as they stand in a TOML document.

  A moment is a date, a date with a time of day and perhaps an offset, or a time of
  day alone.  Days follow the calendar (`daysIn`); a minute may have a leap second.
-/
import CodeSnippets.Text.Reader

namespace CodeSnippets.Toml

/-- Exactly `n` digits that spell a number within bounds. -/
def number (n low high : Nat) : Reader Nat := do
  let v := valueIn 10 (← Reader.exactly n isAsciiDigit)
  if low ≤ v && v ≤ high then return v else Reader.fail

/-- Whether a year has a 29th of February. -/
def isLeapYear (year : Nat) : Bool := year % 4 == 0 && (year % 100 != 0 || year % 400 == 0)

/-- The number of days in a month. -/
def daysIn (year month : Nat) : Nat :=
  if month = 2 then if isLeapYear year then 29 else 28
  else if [4, 6, 9, 11].contains month then 30
  else 31

/-- A date. -/
def date : Reader Unit := do
  let year ← number 4 0 9999
  Reader.char '-'
  let month ← number 2 1 12
  Reader.char '-'
  let _ ← number 2 1 (daysIn year month)

/-- A time of day. -/
def timeOfDay : Reader Unit := do
  let _ ← number 2 0 23
  Reader.char ':'
  let _ ← number 2 0 59
  Reader.char ':'
  let _ ← number 2 0 60
  let _ ← Reader.optionally do
    Reader.char '.'
    let _ ← Reader.charIf isAsciiDigit
    Reader.takeWhile isAsciiDigit

/-- An offset from universal time. -/
def offset : Reader Unit :=
  (do let _ ← Reader.charIf fun c => c == 'Z' || c == 'z') <|>
  (do let _ ← Reader.charIf fun c => c == '+' || c == '-'
      let _ ← number 2 0 23
      Reader.char ':'
      let _ ← number 2 0 59)

/-- A date, a time of day, or both. -/
def moment : Reader Unit :=
  (do date
      let _ ← Reader.optionally do
        let _ ← Reader.charIf fun c => c == 'T' || c == 't' || c == ' '
        timeOfDay
        Reader.optionally offset) <|>
  timeOfDay

end CodeSnippets.Toml
