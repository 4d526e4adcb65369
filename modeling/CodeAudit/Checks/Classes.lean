import CodeAudit.Number.Shortest
import CodeAudit.Pattern.Basic

/-!
# Names and cohesion of classes

How much state the methods of a class share: for each pair of methods that use any field, the share
of fields they have in common among those that either uses, averaged over the pairs. With fewer
than three such methods there is nothing to measure.
-/

namespace CodeAudit.Checks

/-! ## Naming conventions -/

open Pattern

/-- A name in upper camel case. -/
def upperCamelCase : Pattern := one Char.isUpper ++ star letterOrDigit

/-- A name in lower camel case. -/
def lowerCamelCase : Pattern := one Char.isLower ++ star letterOrDigit

/-- A name in snake case. -/
def snakeCase : Pattern :=
  one (fun c => c.isLower || c == '_') ++ star (one fun c => c.isLower || c.isDigit || c == '_')

/-- A name in upper snake case. -/
def upperSnakeCase : Pattern :=
  one Char.isUpper ++ star (one fun c => c.isUpper || c.isDigit || c == '_')

/-- One part of a dotted package name. -/
def packagePart : Pattern :=
  one Char.isLower ++ star (one fun c => c.isLower || c.isDigit || c == '_')

/-- A dotted package name. -/
def packageName : Pattern := packagePart ++ star (char '.' ++ packagePart)

/-- Whether a name is in upper camel case. -/
def isUpperCamelCase (name : List Char) : Bool := upperCamelCase.matchesAll name

/-- Whether a name is in lower camel case. -/
def isLowerCamelCase (name : List Char) : Bool := lowerCamelCase.matchesAll name

/-! ## Cohesion of a class -/

/-- The fields of a list, each once. -/
def distinct (fields : List String) : List String := fields.eraseDups

/-- The share of common fields of two methods. -/
def overlap (a b : List String) : Float :=
  let common := a.filter b.contains
  let either := a ++ b.filter (!a.contains ·)
  Float.ofNat common.length / Float.ofNat either.length

/-- The pairs of a list, in order. -/
def pairs {α : Type} : List α → List (α × α)
  | [] => []
  | a :: rest => rest.map (a, ·) ++ pairs rest

/-- **The cohesion of methods**, each given by the fields it uses. -/
def cohesion (methods : List (List String)) : Option Float :=
  let useful := (methods.map distinct).filter (!·.isEmpty)
  if useful.length < 3 then none
  else
    let scores := (pairs useful).map fun (a, b) => overlap a b
    some (scores.foldl (· + ·) 0.0 / Float.ofNat scores.length)

/-- The cohesion below which a class is reported. -/
def leastCohesion : Float := 0.15

end CodeAudit.Checks
