import CodeAudit.Number.Quantity

/-!
# Progress of a scan

While a scan runs, the files that are done are counted on the error stream: on a terminal as a bar
that is drawn over the one before, elsewhere as a line for each file.
-/

namespace CodeAudit

open Number

/-- What a stream answers when it is asked whether it is a terminal. -/
inductive StreamKind where
  | terminal
  | plain
  /-- It cannot be asked. -/
  | unaware
  /-- The question fails. -/
  | failing
  deriving Repr, DecidableEq

/-- Whether a stream counts as a terminal: only one that says so. -/
def StreamKind.isTerminal (s : StreamKind) : Bool := s == terminal

/-- What is known of a progress display. -/
structure Progress where
  enabled : Bool
  /-- Whether the display is a terminal. -/
  interactive : Bool
  /-- Whether something is shown since the last end. -/
  rendered : Bool := false
  /-- The length of the last text on a terminal. -/
  lastWidth : Nat := 0
  deriving Repr, DecidableEq

namespace Progress

/-- A display that shows nothing yet; only an enabled one is interactive. -/
def start (enabled terminal : Bool) : Progress := ⟨enabled, enabled && terminal, false, 0⟩

/-- Whether progress is shown; without a choice a terminal decides. -/
def isWanted (choice : Option Bool) (terminal : Bool) : Bool := choice.getD terminal

/-- A path that is shown with a number of characters at most: its end, after three dots. -/
def shortened (path : List Char) (limit : Int) : List Char :=
  if (path.length : Int) ≤ limit then path
  else if limit ≤ 3 then
    if limit < 0 then path.take (path.length - limit.natAbs) else path.take limit.toNat
  else "...".toList ++ path.drop (path.length - (limit - 3).toNat)

/-- The number of characters in a bar. -/
def barWidth : Nat := 24

/-- The number of characters of a path beside a bar. -/
def labelWidth : Nat := 48

/-- Why nothing can be shown. -/
inductive Fault where
  /-- The quotient of two whole numbers is beyond the range of doubles. -/
  | quotient
  /-- A whole number is beyond the range of doubles. -/
  | tooLarge
  | noWhole (fault : Number.WholeFault)
  /-- A number has too many digits to be written. -/
  | unwritable
  deriving Repr, DecidableEq

/-- The text of a fault. -/
def Fault.message : Fault → String
  | quotient => "integer division result too large for a float"
  | tooLarge => "int too large to convert to float"
  | noWhole fault => fault.message
  | unwritable => unwritableMessage

/-- A quantity as a double. -/
def real (q : Quantity) : Except Fault Float :=
  match q.toFloat? with
  | some x => .ok x
  | none => .error .tooLarge

/-- What part of a number has been completed, as doubles have it, cut to a whole number. -/
def share (completed total : Quantity) (number : Nat) : Except Fault Int :=
  match completed.whole?, total.whole? with
  | some m, some n =>
    let bits := nearestBits m.natAbs n.natAbs
    if bits = infinityBits then .error .quotient
    else (((Binary.ofBits (m < 0) bits).times number).wholePart).mapError .noWhole
  | _, _ => do
    let ratio := (← real completed) / (← real total)
    (wholePart (ratio * Float.ofNat number)).mapError .noWhole

/-- A number with blanks in front up to three characters. -/
def padded (n : Int) : String :=
  let digits := toString n
  String.ofList (List.replicate (3 - digits.length) ' ') ++ digits

/-- A bar with a part filled. -/
def bar (filled : Int) : String :=
  let filled := min (barWidth : Int) filled
  "[" ++ String.ofList (List.replicate filled.toNat '#') ++
    String.ofList (List.replicate (barWidth - filled).toNat '.') ++ "]"

/-- The text on a terminal, before it is filled up with blanks. -/
def barText (completed total : Quantity) (filled percent : Int) (path : String) : String :=
  let label := String.ofList (shortened path.toList labelWidth)
  s!"\r[progress] {bar filled} {completed.text}/{total.text} {padded percent}% {label}"

/-- The line elsewhere. -/
def plainText (completed total : Quantity) (percent : Int) (path : String) : String :=
  s!"[progress] {completed.text}/{total.text} {padded percent}% {path}\n"

/-- Draws a text on a terminal: blanks cover what is left of a longer text before. -/
def draw (p : Progress) (text : String) : Progress × String :=
  let text := text ++ String.ofList (List.replicate (p.lastWidth - text.length) ' ')
  ({ p with rendered := true, lastWidth := text.length }, text)

/-- **Shows that some of the files are done**: the display afterwards, and the text that is
written. Where it fails nothing is written, and the display stays as it is. -/
def update (p : Progress) (completed total : Quantity) (path : String) :
    Except Fault (Progress × String) :=
  if !p.enabled || total.isAtMost (.whole 0) then .ok (p, "")
  else do
    let percent ← share completed total 100
    let filled ← share completed total barWidth
    if !completed.isWritable || !total.isWritable then .error .unwritable
    else if p.interactive then .ok (p.draw (barText completed total filled percent path))
    else .ok ({ p with rendered := true }, plainText completed total percent path)

/-- Ends the display of one scan. -/
def finish (p : Progress) : Progress × String :=
  if !p.enabled || !p.rendered then (p, "")
  else ({ p with rendered := false, lastWidth := 0 }, if p.interactive then "\n" else "")

end Progress

end CodeAudit
