import Reindent.Lexeme.Basic
import Reindent.Text.Quoted

/-!
Comparing the content of two texts.

Two texts have the same content when they have the same lexemes; they may then differ in
whitespace only.  A comparison names the first lexeme that differs, or else the counts.  Main
statement: a comparison finds no difference exactly if the lists are equal
(`Difference.find?_eq_none_iff`).
-/

namespace Reindent

/-- How two lists of lexemes differ. -/
inductive Difference where
  /-- The first place where both lists go on and differ. -/
  | changed (index : Nat) (before after : Lexeme)
  /-- One list is a proper start of the other. -/
  | count (before after : Nat)
deriving DecidableEq

namespace Difference

/-- The first place where both lists go on and differ; `index` counts the lexemes before. -/
def firstChange? (index : Nat) : List Lexeme → List Lexeme → Option Difference
  | before :: befores, after :: afters =>
      if before = after then firstChange? (index + 1) befores afters
      else some (.changed index before after)
  | _, _ => none

/-- The difference that is reported for two lists of lexemes. -/
def find? (before after : List Lexeme) : Option Difference :=
  match firstChange? 0 before after with
  | some difference => some difference
  | none =>
      if before.length = after.length then none
      else some (.count before.length after.length)

theorem eq_of_firstChange?_eq_none {before after : List Lexeme} {index : Nat}
    (same : firstChange? index before after = none) (length : before.length = after.length) :
    before = after := by
  induction before generalizing after index with
  | nil => exact (List.length_eq_zero_iff.mp length.symm).symm
  | cons first befores others =>
      cases after with
      | nil => cases length
      | cons second afters =>
          simp only [firstChange?] at same
          split at same
          · rename_i equal
            rw [equal, others same (by simpa using length)]
          · cases same

theorem firstChange?_self (index : Nat) (lexemes : List Lexeme) :
    firstChange? index lexemes lexemes = none := by
  induction lexemes generalizing index with
  | nil => rfl
  | cons first rest same => simp [firstChange?, same]

/-- There is a difference to report exactly if the lists differ. -/
theorem find?_eq_none_iff {before after : List Lexeme} :
    find? before after = none ↔ before = after := by
  constructor
  · intro none
    unfold find? at none
    split at none
    · cases none
    · rename_i same
      split at none
      · rename_i length
        exact eq_of_firstChange?_eq_none same length
      · cases none
  · intro same
    subst same
    simp [find?, firstChange?_self]

/-- A difference as a message words it. -/
def message : Difference → Text
  | changed index before after =>
      let shown (lexeme : Lexeme) : Text :=
        lexeme.text.quoted ++ Text.ofString " (" ++ Text.ofString lexeme.kind.name ++
          Text.ofString ")"
      Text.ofString "Lexeme #" ++ Text.ofNat index ++ Text.ofString " changed from " ++
        shown before ++ Text.ofString " to " ++ shown after
  | count before after =>
      Text.ofString "Lexeme count changed from " ++ Text.ofNat before ++ Text.ofString " to " ++
        Text.ofNat after

end Difference

/-- A comparison of two texts: how many lexemes each has, and the difference if there is one. -/
structure Comparison where
  before : Nat
  after : Nat
  difference : Option Difference

/-- Compare the content of two texts. -/
def Comparison.ofTexts (source formatted : Text) : Comparison where
  before := (Lexeme.ofText source).length
  after := (Lexeme.ofText formatted).length
  difference := Difference.find? (Lexeme.ofText source) (Lexeme.ofText formatted)

/-- A comparison as a log line words it. -/
def Comparison.describe (comparison : Comparison) : Text :=
  Text.ofString "comparing " ++ Text.ofNat comparison.before ++ Text.ofString " lexemes to " ++
    Text.ofNat comparison.after

end Reindent
