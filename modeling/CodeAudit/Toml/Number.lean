import CodeAudit.Pattern.Basic
import CodeAudit.Toml.Value

/-!
# Numbers and times in configuration files
-/

namespace CodeAudit.Toml

open Pattern

/-- An ASCII digit. -/
def plainDigit : Pattern := one Char.isDigit

/-- Digits of a kind, with single underscores between. -/
def digitRun (isDigit : Char → Bool) : Pattern :=
  one isDigit ++ star (maybe (char '_') ++ one isDigit)

/-- A whole number in another base: its digits are kept under 1, 2 or 3 for sixteen, two or
eight. -/
def basedNumber : Pattern :=
  char '0' ++ ((char 'x' ++ capture 1 (digitRun Text.isHexDigit)) <|>
    (char 'b' ++ capture 2 (digitRun fun c => c == '0' || c == '1')) <|>
    (char 'o' ++ capture 3 (digitRun fun c => '0' ≤ c && c ≤ '7')))

/-- A decimal number; its fraction and exponent are kept under 4. -/
def decimalNumber : Pattern :=
  maybe (anyOf "+-") ++
    (char '0' <|> (one (fun c => '1' ≤ c && c ≤ '9') ++ star (maybe (char '_') ++ plainDigit))) ++
    capture 4 (maybe (char '.' ++ digitRun Char.isDigit) ++
      maybe (anyOf "eE" ++ maybe (anyOf "+-") ++ digitRun Char.isDigit))

/-- A number. -/
def numberPattern : Pattern := basedNumber <|> decimalNumber

/-- Two digits, the first up to a bound. -/
def twoDigits (first : Char → Bool) : Pattern := one first ++ plainDigit

/-- An hour. -/
def hourPattern : Pattern :=
  twoDigits (fun c => c == '0' || c == '1') <|> (char '2' ++ one fun c => '0' ≤ c && c ≤ '3')

/-- A minute or second. -/
def minutePattern : Pattern := twoDigits fun c => '0' ≤ c && c ≤ '5'

/-- A time of day: its parts are kept under 4 to 7. -/
def timePattern : Pattern :=
  capture 4 hourPattern ++ char ':' ++ capture 5 minutePattern ++ char ':' ++
    capture 6 minutePattern ++ maybe (char '.' ++ capture 7 (plus plainDigit))

/-- A day, or a time on a day: the parts of the day are kept under 1 to 3, those of the distance
from universal time under 8 to 11. -/
def dateTimePattern : Pattern :=
  capture 1 (plainDigit ++ plainDigit ++ plainDigit ++ plainDigit) ++ char '-' ++
    capture 2 ((char '0' ++ one fun c => '1' ≤ c && c ≤ '9') <|>
      (char '1' ++ one fun c => '0' ≤ c && c ≤ '2')) ++ char '-' ++
    capture 3 ((char '0' ++ one fun c => '1' ≤ c && c ≤ '9') <|>
      twoDigits (fun c => c == '1' || c == '2') <|> (char '3' ++ one fun c => c == '0' || c == '1'))
    ++ maybe (anyOf "Tt " ++ timePattern ++
      maybe (capture 8 (anyOf "Zz") <|>
        (capture 9 (anyOf "+-") ++ capture 10 hourPattern ++ char ':' ++ capture 11 minutePattern)))

/-- The number that digits stand for. -/
def natOf (digits : List Char) : Nat := Number.digitsNumber digits

/-- The time of day that was found. -/
def timeOf (m : Found) : Time :=
  let fraction := (m.group 7).take 6
  ⟨natOf (m.group 4), natOf (m.group 5), natOf (m.group 6),
    natOf (fraction ++ List.replicate (6 - fraction.length) '0')
      * (if fraction.isEmpty then 0 else 1)⟩

/-- Whether a year has a 29th of February. -/
def isLeapYear (year : Nat) : Bool := year % 4 == 0 && (year % 100 != 0 || year % 400 == 0)

/-- The number of days in a month. -/
def daysIn (year month : Nat) : Nat :=
  if month = 2 then if isLeapYear year then 29 else 28
  else if [4, 6, 9, 11].contains month then 30
  else 31

/-- The day or time that was found, if there is such a day. -/
def dateTimeOf (m : Found) : Option Value :=
  let date : Date := ⟨natOf (m.group 1), natOf (m.group 2), natOf (m.group 3)⟩
  if date.year = 0 ∨ daysIn date.year date.month < date.day then none
  else if (m.capture? 4).isNone then some (.date date)
  else
    let offset : Option Int :=
      if (m.capture? 9).isSome then
        let minutes : Int := natOf (m.group 10) * 60 + natOf (m.group 11)
        some (if m.group 9 = ['-'] then -minutes else minutes)
      else if (m.capture? 8).isSome then some 0
      else none
    some (.dateTime ⟨date, timeOf m, offset⟩)

/-- The value of digits in a base. -/
def valueIn (base : Nat) (digits : List Char) : Nat :=
  digits.foldl (fun n c => if c = '_' then n else base * n + Text.hexValue c) 0

/-- The number that was found, or the number of its digits if it has too many. -/
def numberOf (m : Found) (text : List Char) : Except Nat Value :=
  if (m.capture? 1).isSome then .ok (.int (valueIn 16 (m.group 1)))
  else if (m.capture? 2).isSome then .ok (.int (valueIn 2 (m.group 2)))
  else if (m.capture? 3).isSome then .ok (.int (valueIn 8 (m.group 3)))
  else if m.group 4 ≠ [] then
    .ok (.float ((Number.readFloat? text).getD Number.notANumber))
  else match Number.readInt text with
    | .ok n => .ok (.int n)
    | .error (.tooLong digits) => .error digits
    | .error .malformed => .ok (.int 0)

end CodeAudit.Toml
