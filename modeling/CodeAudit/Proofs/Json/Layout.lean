import CodeAudit.Json.Writer

/-!
# JSON: how the parts of a value are laid out

A value is written on one line, or with its parts on lines of their own. The two ways differ in the
white space inside brackets and behind commas only. A layout says what stands there; a value is
written in any layout (`Layout.text`), and the two ways of the writer are layouts
(`text_spread`, `text_oneLine`).
-/

namespace CodeAudit.Json

/-- The characters that the writer puts between values. -/
def IsGap (text : List Char) : Prop := ∀ c ∈ text, c = ' ' ∨ c = '\n'

/-- A line break with its indentation is a gap. -/
theorem isGap_newLine (level : Nat) : IsGap (newLine level).toList := by
  intro c hc
  simp only [newLine, String.toList_append, String.toList_ofList, List.mem_append,
    List.mem_replicate] at hc
  rcases hc with hc | ⟨-, rfl⟩
  · exact .inr (by simpa using hc)
  · exact .inl rfl

/-- **What stands between the parts of a value**, at each level. -/
structure Layout where
  /-- Inside a bracket. -/
  edge : Nat → String
  /-- Behind a comma. -/
  next : Nat → String
  edge_gap : ∀ level, IsGap (edge level).toList
  next_gap : ∀ level, IsGap (next level).toList

namespace Layout

mutual

/-- A value at a level. -/
def text (l : Layout) (level : Nat) : Json → String
  | arr [] => "[]"
  | arr (j :: rest) =>
    "[" ++ l.edge (level + 1) ++ itemsText l (level + 1) (j :: rest) ++ l.edge level ++ "]"
  | obj [] => "\x7b\x7d"
  | obj (m :: rest) =>
    "\x7b" ++ l.edge (level + 1) ++ membersText l (level + 1) (m :: rest) ++ l.edge level ++ "\x7d"
  | null => scalarText null
  | bool b => scalarText (bool b)
  | int n => scalarText (int n)
  | float x => scalarText (float x)
  | str s => scalarText (str s)

/-- Items with commas between. -/
def itemsText (l : Layout) (level : Nat) : List Json → String
  | [] => ""
  | [j] => text l level j
  | j :: rest => text l level j ++ "," ++ l.next level ++ itemsText l level rest

/-- Members with commas between. -/
def membersText (l : Layout) (level : Nat) : List (String × Json) → String
  | [] => ""
  | [(name, j)] => quote name ++ ": " ++ text l level j
  | (name, j) :: rest =>
    quote name ++ ": " ++ text l level j ++ "," ++ l.next level ++ membersText l level rest

end

/-- Every part on a line of its own. -/
def spread : Layout := ⟨newLine, newLine, isGap_newLine, isGap_newLine⟩

/-- All parts on one line. -/
def oneLine : Layout :=
  ⟨fun _ => "", fun _ => " ", fun _ => by simp [IsGap], fun _ => by simp [IsGap]⟩

/-! ## The ways of the writer -/

mutual

/-- Indentation is a layout. -/
theorem text_spread (level : Nat) (j : Json) : spread.text level j = indentedAt level j := by
  match j with
  | arr [] => rw [text, indentedAt]
  | arr (j :: rest) =>
    rw [text, indentedAt, itemsText_spread]
    rfl
  | obj [] => rw [text, indentedAt]
  | obj (m :: rest) =>
    rw [text, indentedAt, membersText_spread]
    rfl
  | null | bool _ | int _ | float _ | str _ => rw [text, indentedAt]

theorem itemsText_spread (level : Nat) (items : List Json) :
    spread.itemsText level items = indentedItems level items := by
  match items with
  | [] => rw [itemsText, indentedItems]
  | [j] => rw [itemsText, indentedItems, text_spread]
  | j :: k :: rest =>
    rw [itemsText, indentedItems, text_spread, itemsText_spread]
    · rfl
    · simp
    · simp

theorem membersText_spread (level : Nat) (members : List (String × Json)) :
    spread.membersText level members = indentedMembers level members := by
  match members with
  | [] => rw [membersText, indentedMembers]
  | [(name, j)] => rw [membersText, indentedMembers, text_spread]
  | (name, j) :: m :: rest =>
    rw [membersText, indentedMembers, text_spread, membersText_spread]
    · rfl
    · simp
    · simp

end

theorem comma_oneLine (level : Nat) : "," ++ oneLine.next level = ", " := rfl

mutual

/-- Writing on one line is a layout, in which levels do not matter. -/
theorem text_oneLine (level : Nat) (j : Json) : oneLine.text level j = compact j := by
  match j with
  | arr [] => rw [text, compact, compactItems]; rfl
  | arr (j :: rest) =>
    rw [text, compact, itemsText_oneLine]
    simp [oneLine]
  | obj [] => rw [text, compact, compactMembers]; rfl
  | obj (m :: rest) =>
    rw [text, compact, membersText_oneLine]
    simp [oneLine]
  | null | bool _ | int _ | float _ | str _ => rw [text, compact]

theorem itemsText_oneLine (level : Nat) (items : List Json) :
    oneLine.itemsText level items = compactItems items := by
  match items with
  | [] => rw [itemsText, compactItems]
  | [j] => rw [itemsText, compactItems, text_oneLine]
  | j :: k :: rest =>
    rw [itemsText, compactItems, text_oneLine, itemsText_oneLine, ← comma_oneLine level]
    · simp only [String.append_assoc]
    · simp
    · simp

theorem membersText_oneLine (level : Nat) (members : List (String × Json)) :
    oneLine.membersText level members = compactMembers members := by
  match members with
  | [] => rw [membersText, compactMembers]
  | [(name, j)] => rw [membersText, compactMembers, text_oneLine]
  | (name, j) :: m :: rest =>
    rw [membersText, compactMembers, text_oneLine, membersText_oneLine, ← comma_oneLine level]
    · simp only [String.append_assoc]
    · simp
    · simp

end

end Layout

end CodeAudit.Json
