import CodeAudit.Checks.Go
import CodeAudit.Checks.Java
import CodeAudit.Checks.JavaScript
import CodeAudit.Checks.Python

/-!
# Which checks a file gets

The ending of a file's name decides which checks it gets. Files without checks of their own get
those that any text file can have.
-/

namespace CodeAudit.Checks

/-- A group of checks. -/
inductive Analyser where
  | python
  | java
  | kotlin
  | javaScript
  | go
  | anySource
  deriving Repr, DecidableEq

/-- The checks for an ending in lower case. -/
def Analyser.ofSuffix (suffix : List Char) : Analyser :=
  if suffix = ".py".toList then python
  else if suffix = ".java".toList then java
  else if suffix = ".kt".toList then kotlin
  else if [".js".toList, ".jsx".toList, ".ts".toList, ".tsx".toList].contains suffix then
    javaScript
  else if suffix = ".go".toList then go
  else anySource

/-- The issues that a group of checks finds. -/
def Analyser.check : Analyser → SourceFile → List Issue
  | python => Python.check
  | java => Java.check
  | kotlin => Kotlin.check
  | javaScript => JavaScript.check
  | go => Go.check
  | anySource => AnySource.check

/-- **The issues in a file.** -/
def check (f : SourceFile) : List Issue := (Analyser.ofSuffix f.suffix).check f

/-- What overflows when a group of checks goes through a file. Only those for Python go down a
tree. -/
def Analyser.overflow? (a : Analyser) (stack : Stack) (f : SourceFile) : Option Overflow :=
  if a = python then Python.overflow? stack f.text else none

/-- **The issues that a group of checks finds on a stack**, or what overflows. -/
def Analyser.checkWithin (a : Analyser) (stack : Stack) (f : SourceFile) :
    Except Overflow (List Issue) :=
  match a.overflow? stack f with
  | some o => .error o
  | none => .ok (a.check f)

end CodeAudit.Checks
