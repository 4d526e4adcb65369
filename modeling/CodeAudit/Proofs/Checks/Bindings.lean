import CodeAudit.Checks.JavaScript
import CodeAudit.Proofs.Pattern.Meaning
import Mathlib.Data.List.Basic

/-!
# What lines of a script bind

A line of a script binds names to the command functions of a module, or a name to the module. Which
of the five forms of a binding a line has, and so what it binds, is said without the scan (`Binds`,
`BindsFunction`, `BindsModule`): the first form that fits decides, an entry of a list of names is
cut at its first mark, and its parts are taken without the blanks around them. The names that the
scan holds at a line are those that some line before it binds (`mem_functions_after`,
`mem_modules_after`).
-/

namespace CodeAudit.Checks

open Pattern Text

/-! ## Marks in a text -/

section Marks

variable {mark text left right left' right' : List Char}

/-- **A text is cut at the first place of a mark.** -/
structure CutAt (mark text left right : List Char) : Prop where
  eq : text = left ++ mark ++ right
  first : ∀ left' right', text = left' ++ mark ++ right' → left.length ≤ left'.length

theorem CutAt.unique (h : CutAt mark text left right) (h' : CutAt mark text left' right') :
    left = left' ∧ right = right' := by
  have hlength : left.length = left'.length :=
    Nat.le_antisymm (h.first _ _ h'.eq) (h'.first _ _ h.eq)
  have heq : left ++ (mark ++ right) = left' ++ (mark ++ right') := by
    rw [← List.append_assoc, ← List.append_assoc, ← h.eq, ← h'.eq]
  obtain ⟨hleft, hright⟩ := List.append_inj heq hlength
  exact ⟨hleft, List.append_cancel_left hright⟩

theorem contains_iff : contains mark text = true ↔ mark <:+: text := by
  induction text with
  | nil => rw [contains, List.isEmpty_iff, List.infix_nil]
  | cons c rest ih => rw [contains, Bool.or_eq_true, ih, List.isPrefixOf_iff_prefix,
      List.infix_cons_iff]

theorem cutAt_before (h : mark <:+: text) :
    CutAt mark text (before mark text) (text.drop ((before mark text).length + mark.length)) := by
  induction text with
  | nil =>
    obtain rfl := List.infix_nil.1 h
    exact ⟨rfl, fun _ _ _ => Nat.zero_le _⟩
  | cons c rest ih =>
    rw [before]
    by_cases hprefix : mark <+: c :: rest
    · obtain ⟨behind, heq⟩ := hprefix
      rw [if_pos (List.isPrefixOf_iff_prefix.2 ⟨behind, heq⟩)]
      refine ⟨?_, fun _ _ _ => Nat.zero_le _⟩
      rw [← heq]
      simp
    · rw [if_neg fun hc => hprefix (List.isPrefixOf_iff_prefix.1 hc)]
      have hrest := ih ((List.infix_cons_iff.1 h).resolve_left hprefix)
      constructor
      · rw [List.length_cons, Nat.add_right_comm, List.drop_succ_cons]
        exact congrArg (c :: ·) hrest.eq
      · intro left' right' heq
        cases left' with
        | nil => exact absurd ⟨right', heq.symm⟩ hprefix
        | cons x left' =>
          exact Nat.succ_le_succ (hrest.first left' right' (List.cons.inj heq).2)

namespace JavaScript

theorem splitFirst?_eq_none_iff : splitFirst? mark text = none ↔ ¬ mark <:+: text := by
  rw [splitFirst?, ← contains_iff]
  split <;> simp [*]

theorem splitFirst?_eq_some_iff :
    splitFirst? mark text = some (left, right) ↔ CutAt mark text left right := by
  rw [splitFirst?]
  split
  next hmark =>
    have hcut := cutAt_before (contains_iff.1 hmark)
    constructor
    · intro h
      obtain ⟨rfl, rfl⟩ := Prod.mk.inj (Option.some.inj h)
      exact hcut
    · intro h
      obtain ⟨rfl, rfl⟩ := hcut.unique h
      rfl
  next hmark =>
    refine ⟨nofun, fun h => absurd (contains_iff.2 ?_) hmark⟩
    exact ⟨left, right, h.eq.symm⟩

end JavaScript

end Marks

namespace JavaScript

/-! ## What a line binds -/

/-- The names of the command functions. -/
def commandFunctions : List (List Char) := ["exec".toList, "execSync".toList]

/-- What stands between a name and its local name in a list of names. -/
def localMark (imported : Bool) : List Char := if imported then " as ".toList else [':']

/-- **An entry of a list of names gives a command function a local name**, which is its own name or
stands behind the mark. -/
def GivesName (imported : Bool) (entry name : List Char) : Prop :=
  (trim entry = name ∧ name ∈ commandFunctions) ∨
    ∃ left right, CutAt (localMark imported) (trim entry) left right ∧
      trim left ∈ commandFunctions ∧ trim right = name ∧ name ≠ []

/-- The forms in which a line binds names. -/
inductive Form where
  | requiredNames
  | requiredValue
  | importedNames
  | importedModule
  | importedDefault
  deriving Repr, DecidableEq

namespace Form

/-- All forms, in the order in which they are tried. -/
def all : List Form :=
  [requiredNames, requiredValue, importedNames, importedModule, importedDefault]

/-- What a line of the form looks like. -/
def pattern : Form → Pattern
  | requiredNames => requireNames
  | requiredValue => requireModule
  | importedNames => importNames
  | importedModule => importModule
  | importedDefault => importDefault

/-- Whether the form lists names, and then whether they are imported. Otherwise it names the
module. -/
def lists? : Form → Option Bool
  | requiredNames => some false
  | importedNames => some true
  | requiredValue | importedModule | importedDefault => none

theorem mem_all (form : Form) : form ∈ all := by cases form <;> decide

end Form

/-- **A line of code has a form, which keeps a text**: no form before it fits the line. -/
structure Binds (code : List Char) (form : Form) (kept : List Char) : Prop where
  first : ∃ earlier later, Form.all = earlier ++ form :: later ∧
    ∀ other ∈ earlier, ¬ other.pattern.FitsIn code
  found : ∃ m, form.pattern.search code = some m ∧ m.group 1 = kept

/-- A line of code binds a name to a command function. -/
def BindsFunction (code name : List Char) : Prop :=
  ∃ form kept, Binds code form kept ∧ ∃ imported, form.lists? = some imported ∧
    ∃ entry ∈ pieces ',' kept, GivesName imported entry name

/-- A line of code binds a name to the module. -/
def BindsModule (code name : List Char) : Prop :=
  ∃ form kept, Binds code form kept ∧ form.lists? = none ∧ name = kept

/-- The binding of a line that has a form. -/
def Form.binding (form : Form) (kept : List Char) : Binding :=
  form.lists?.elim (.exports kept) fun imported => .functions (commandAliases kept imported)

variable {code entry kept name line : List Char} {imported : Bool} {form : Form} {b : Bound}
  {lines : List (List Char)} {k : Nat}

theorem mem_commandFunctions :
    name ∈ commandFunctions ↔ name = "exec".toList ∨ name = "execSync".toList := by
  rw [commandFunctions, List.mem_cons, List.mem_singleton]

theorem commandAlias?_eq_some_iff :
    commandAlias? (localMark imported) entry = some name ↔ GivesName imported entry name := by
  have hplain : ∀ source ∈ commandFunctions, source ≠ [] ∧ ¬ localMark imported <:+: source := by
    simp only [← contains_iff]
    cases imported <;> decide
  simp only [commandAlias?, GivesName, ← mem_commandFunctions, Option.ite_none_right_eq_some,
    Option.some.injEq]
  cases hcut : splitFirst? (localMark imported) (trim entry) with
  | none =>
    have hmark := splitFirst?_eq_none_iff.1 hcut
    constructor
    · rintro ⟨⟨hsource, -⟩, rfl⟩
      exact .inl ⟨rfl, hsource⟩
    · rintro (⟨rfl, hname⟩ | ⟨left, right, h, -⟩)
      · exact ⟨⟨hname, (hplain _ hname).1⟩, rfl⟩
      · exact absurd ⟨left, right, h.eq.symm⟩ hmark
  | some cut =>
    have hfirst : CutAt (localMark imported) (trim entry) cut.1 cut.2 :=
      splitFirst?_eq_some_iff.1 hcut
    constructor
    · rintro ⟨⟨hsource, hne⟩, rfl⟩
      exact .inr ⟨_, _, hfirst, hsource, rfl, hne⟩
    · rintro (⟨rfl, hname⟩ | ⟨left, right, h, hsource, rfl, hne⟩)
      · exact absurd ⟨_, _, hfirst.eq.symm⟩ (hplain _ hname).2
      · obtain ⟨rfl, rfl⟩ := h.unique hfirst
        exact ⟨⟨hsource, hne⟩, rfl⟩

theorem mem_commandAliases : name ∈ commandAliases kept imported ↔
    ∃ entry ∈ pieces ',' kept, GivesName imported entry name := by
  simp only [← commandAlias?_eq_some_iff]
  rw [commandAliases, List.mem_eraseDups, List.mem_filterMap]
  rfl

theorem findSome?_cons_orElse {α β : Type} (f : α → Option β) (a : α) (l : List α) :
    (a :: l).findSome? f = (f a <|> l.findSome? f) := by
  rw [List.findSome?_cons]
  cases f a <;> rfl

theorem binding?_eq (code : List Char) : binding? code =
    Form.all.findSome? fun form => (form.pattern.search code).map fun m =>
      form.binding (m.group 1) := by
  have hlast : ∀ x : Option Binding, (x <|> none) = x := fun x => by cases x <;> rfl
  simp only [Form.all, findSome?_cons_orElse, List.findSome?_nil, hlast]
  rfl

/-- A line binds something exactly if it has a form. -/
theorem binding?_eq_none_iff :
    binding? code = none ↔ ∀ form : Form, ¬ form.pattern.FitsIn code := by
  rw [binding?_eq, List.findSome?_eq_none_iff]
  simp only [Option.map_eq_none_iff, search_eq_none_iff]
  exact ⟨fun h form => h form form.mem_all, fun h form _ => h form⟩

theorem isNone_binding?_iff :
    (binding? code).isNone = true ↔ ∀ form : Form, ¬ form.pattern.FitsIn code := by
  rw [Option.isNone_iff_eq_none, binding?_eq_none_iff]

theorem binding?_eq_some_iff {binding : Binding} : binding? code = some binding ↔
    ∃ form kept, Binds code form kept ∧ form.binding kept = binding := by
  rw [binding?_eq, List.findSome?_eq_some_iff]
  simp only [Option.map_eq_none_iff, search_eq_none_iff, Option.map_eq_some_iff]
  constructor
  · rintro ⟨earlier, form, later, hall, ⟨m, hfound, hbinding⟩, hfirst⟩
    exact ⟨form, _, ⟨⟨earlier, later, hall, hfirst⟩, m, hfound, rfl⟩, hbinding⟩
  · rintro ⟨form, _, ⟨⟨earlier, later, hall, hfirst⟩, m, hfound, rfl⟩, hbinding⟩
    exact ⟨earlier, form, later, hall, ⟨m, hfound, hbinding⟩, hfirst⟩

/-! ## The names that are held -/

namespace Bound

/-- The names behind a line. -/
def step (b : Bound) (line : List Char) : Bound := (binding? (codeOf line)).elim b b.add

/-- The names behind some lines. -/
def after (b : Bound) (lines : List (List Char)) : Bound := lines.foldl step b

end Bound

theorem step_eq (hbinds : Binds (codeOf line) form kept) :
    b.step line = b.add (form.binding kept) := by
  rw [Bound.step, binding?_eq_some_iff.2 ⟨form, kept, hbinds, rfl⟩]
  rfl

/-- A line leaves the names as they are, or adds what its form binds. -/
theorem step_cases (b : Bound) (line : List Char) : b.step line = b ∨
    ∃ form kept, Binds (codeOf line) form kept ∧ b.step line = b.add (form.binding kept) := by
  cases hbinding : binding? (codeOf line) with
  | none => exact .inl (by rw [Bound.step, hbinding]; rfl)
  | some binding =>
    obtain ⟨form, kept, hbinds, -⟩ := binding?_eq_some_iff.1 hbinding
    exact .inr ⟨form, kept, hbinds, step_eq hbinds⟩

theorem mem_functions_add : name ∈ (b.add (form.binding kept)).functions ↔ name ∈ b.functions ∨
    ∃ imported, form.lists? = some imported ∧
      ∃ entry ∈ pieces ',' kept, GivesName imported entry name := by
  simp only [← mem_commandAliases, Form.binding]
  cases form.lists? <;> simp [Bound.add]

theorem mem_modules_add : name ∈ (b.add (form.binding kept)).modules ↔ name ∈ b.modules ∨
    form.lists? = none ∧ name = kept := by
  simp only [Form.binding]
  cases form.lists? <;> simp [Bound.add]

/-- The names of a kind behind a line are those before it and what its form binds of the kind. -/
theorem mem_step {names : Bound → List (List Char)} {Adds : Form → List Char → List Char → Prop}
    (hadd : ∀ {b form kept name}, name ∈ names (Bound.add b (form.binding kept)) ↔
      name ∈ names b ∨ Adds form kept name) :
    name ∈ names (b.step line) ↔
      name ∈ names b ∨ ∃ form kept, Binds (codeOf line) form kept ∧ Adds form kept name := by
  constructor
  · intro h
    rcases step_cases b line with heq | ⟨form, kept, hbinds, heq⟩
    · exact .inl (heq ▸ h)
    · rw [heq, hadd] at h
      exact h.imp_right fun hadds => ⟨form, kept, hbinds, hadds⟩
  · rintro (h | ⟨form, kept, hbinds, hadds⟩)
    · rcases step_cases b line with heq | ⟨form, kept, -, heq⟩
      · rwa [heq]
      · exact heq ▸ hadd.2 (.inl h)
    · exact step_eq hbinds ▸ hadd.2 (.inr hadds)

theorem mem_functions_step : name ∈ (b.step line).functions ↔
    name ∈ b.functions ∨ BindsFunction (codeOf line) name := mem_step mem_functions_add

theorem mem_modules_step : name ∈ (b.step line).modules ↔
    name ∈ b.modules ∨ BindsModule (codeOf line) name := mem_step mem_modules_add

/-- **The names behind some lines** are those before them and what one of them binds. -/
theorem mem_after {names : Bound → List (List Char)} {Bind : List Char → List Char → Prop}
    (hstep : ∀ {b line name}, name ∈ names (Bound.step b line) ↔
      name ∈ names b ∨ Bind (codeOf line) name) :
    name ∈ names (b.after lines) ↔ name ∈ names b ∨ ∃ line ∈ lines, Bind (codeOf line) name := by
  induction lines generalizing b with
  | nil => simp [Bound.after]
  | cons line lines ih =>
    change name ∈ names ((b.step line).after lines) ↔ _
    rw [ih, hstep, or_assoc, List.exists_mem_cons_iff]

/-! ## The names that earlier lines bind -/

/-- A line before the one at an index binds a name to a command function. -/
def FunctionBefore (lines : List (List Char)) (k : Nat) (name : List Char) : Prop :=
  ∃ earlier ∈ lines.take k, BindsFunction (codeOf earlier) name

/-- A name stands for the module at an index: its own name, or one that a line before binds. -/
def ModuleBefore (lines : List (List Char)) (k : Nat) (name : List Char) : Prop :=
  name = "child_process".toList ∨ ∃ earlier ∈ lines.take k, BindsModule (codeOf earlier) name

theorem mem_functions_after :
    name ∈ (Bound.start.after (lines.take k)).functions ↔ FunctionBefore lines k name := by
  rw [mem_after mem_functions_step]
  exact or_iff_right List.not_mem_nil

theorem mem_modules_after :
    name ∈ (Bound.start.after (lines.take k)).modules ↔ ModuleBefore lines k name := by
  rw [mem_after mem_modules_step, ModuleBefore, Bound.start, List.mem_singleton]

theorem FunctionBefore.ne_nil (h : FunctionBefore lines k name) : name ≠ [] := by
  obtain ⟨_, -, _, _, -, _, -, _, -, hname | ⟨_, _, -, -, -, hne⟩⟩ := h
  · rintro rfl
    exact absurd hname.2 (by decide)
  · exact hne

/-- Whether a text begins with a word character. -/
def startsWord (text : List Char) : Bool := text.head?.any isWord

theorem isWord_of_isAlpha {c : Char} (h : (c.isAlpha || c == '_') = true) : isWord c = true := by
  have hle : ∀ most : Char, c.val ≤ most.val → c.toNat ≤ most.toNat :=
    fun _ => UInt32.le_iff_toNat_le.1
  have hlt : c.toNat < 0x80 := by
    rcases Bool.or_eq_true_iff.1 h with h | h
    · rcases Bool.or_eq_true_iff.1 h with h | h
      · exact Nat.lt_of_le_of_lt (hle 'Z' (of_decide_eq_true h).2) (by decide)
      · exact Nat.lt_of_le_of_lt
          (hle 'z' (of_decide_eq_true (Bool.and_eq_true_iff.1 h).2)) (by decide)
    · exact beq_iff_eq.1 h ▸ by decide
  rw [isWord, if_pos hlt, Char.isAlphanum]
  grind

/-- The text that a form keeps is always kept; if it does not list names, it is an identifier. -/
theorem Form.keepsAlways_pattern (form : Form) : form.pattern.keepsAlways 1 = true := by
  cases form <;> rfl

theorem Form.keptUnder_pattern (h : form.lists? = none) :
    form.pattern.keptUnder 1 = [identifier] := by
  cases form with
  | requiredNames | importedNames => cases h
  | requiredValue | importedModule | importedDefault => rfl

theorem startsWord_of_bindsModule (h : BindsModule code name) : startsWord name = true := by
  obtain ⟨form, _, ⟨-, m, hfound, rfl⟩, hlists, rfl⟩ := h
  obtain ⟨b, hb, left, right, inner, hfits⟩ := exists_fits_group form.keepsAlways_pattern hfound
  rw [Form.keptUnder_pattern hlists, List.mem_singleton] at hb
  obtain ⟨first, rest, heq, hfirst⟩ := exists_cons_of_fits_identifier (hb ▸ hfits)
  rw [heq]
  exact isWord_of_isAlpha hfirst

theorem ModuleBefore.startsWord (h : ModuleBefore lines k name) : startsWord name = true := by
  rcases h with rfl | ⟨_, -, hbinds⟩
  · decide
  · exact startsWord_of_bindsModule hbinds

end JavaScript

end CodeAudit.Checks
