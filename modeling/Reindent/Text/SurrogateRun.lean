import Reindent.Text.HexEscape

/-!
Runs of surrogates, which stop an encoding.

An encoding names the run that starts at the first code point it refuses.  Where a text is many
copies of one unit, the run need not be looked for in all of them: either all code points are
surrogates, or the run ends in the second copy at the latest.  Main statement: both ways of looking
find the same run (`ofCopies?_eq`).
-/

namespace Reindent

/-- A run of surrogates that stopped an encoding: the code point at its front, and the positions of
its first and of its last code point. -/
structure SurrogateRun where
  front : CodePoint
  first : Nat
  last : Nat
deriving DecidableEq

namespace SurrogateRun

/-- The run that starts at the first refused code point and extends over all surrogates after
it. -/
def find? (refused : CodePoint → Bool) (text : Text) : Option SurrogateRun :=
  match text.dropWhile (fun c => !refused c) with
  | [] => none
  | front :: rest =>
      let first := (text.takeWhile (fun c => !refused c)).length
      some ⟨front, first, first + (rest.takeWhile CodePoint.isSurrogate).length⟩

/-- The first run of surrogates in copies of a unit. -/
def ofCopies? (count : Nat) (unit : Text) : Option SurrogateRun :=
  if unit.all CodePoint.isSurrogate then
    match repeated (min count 1) unit with
    | [] => none
    | front :: _ => some ⟨front, 0, count * unit.length - 1⟩
  else
    find? CodePoint.isSurrogate (repeated (min count 2) unit)

/-- The message names one code point by its number and several by their positions. -/
def message (run : SurrogateRun) : Text :=
  let subject : Text :=
    if run.first = run.last then
      Text.ofString "character '" ++ run.front.hexEscape ++ Text.ofString "' in position " ++
        Text.ofNat run.first
    else
      Text.ofString "characters in position " ++ Text.ofNat run.first ++ Text.ofString "-" ++
        Text.ofNat run.last
  Text.ofString "'utf-8' codec can't encode " ++ subject ++
    Text.ofString ": surrogates not allowed"

/-- A text without refused code points has no run. -/
theorem find?_eq_none {refused : CodePoint → Bool} {text : Text}
    (accepted : ∀ c ∈ text, refused c = false) : find? refused text = none := by
  have nothing : text.dropWhile (fun c => !refused c) = [] := by
    induction text with
    | nil => rfl
    | cons c rest dropped =>
        rw [List.dropWhile_cons, if_pos (by simp [accepted c])]
        exact dropped fun d inside => accepted d (List.mem_cons_of_mem c inside)
  simp [find?, nothing]

/-- A run is found where it stands, whatever follows the code point that ends it. -/
theorem find?_of_split {front : CodePoint} {before inside behind : Text}
    (accepted : ∀ c ∈ before, c.isSurrogate = false) (refused : front.isSurrogate = true)
    (surrogates : ∀ c ∈ inside, c.isSurrogate = true)
    (ends : ∀ c ∈ behind.head?, c.isSurrogate = false) :
    find? CodePoint.isSurrogate (before ++ front :: (inside ++ behind)) =
      some ⟨front, before.length, before.length + inside.length⟩ := by
  have skipped : ∀ rest : Text, (before ++ front :: rest).dropWhile (fun c => !c.isSurrogate) =
      front :: rest := by
    intro rest
    rw [List.dropWhile_append_of_pos (by simpa using accepted)]
    simp [refused]
  have passed : ∀ rest : Text, (before ++ front :: rest).takeWhile (fun c => !c.isSurrogate) =
      before := by
    intro rest
    rw [List.takeWhile_append_of_pos (by simpa using accepted)]
    simp [refused]
  have stopped : behind.takeWhile CodePoint.isSurrogate = [] := by
    cases behind with
    | nil => rfl
    | cons c rest => simp [ends c (by simp)]
  simp only [find?, skipped, passed]
  rw [List.takeWhile_append_of_pos (by simpa using surrogates), stopped]
  simp

/-- Surrogates that are a whole text are one run. -/
theorem find?_of_all {front : CodePoint} {rest : Text} (refused : front.isSurrogate = true)
    (surrogates : ∀ c ∈ rest, c.isSurrogate = true) :
    find? CodePoint.isSurrogate (front :: rest) = some ⟨front, 0, rest.length⟩ := by
  have found := @find?_of_split front [] rest [] (by simp) refused surrogates (by simp)
  simpa using found

/-- A unit that holds surrogates and other code points has its first run within two copies. -/
theorem find?_copies {unit : Text} (surrogate : ∃ c ∈ unit, c.isSurrogate = true)
    (other : ∃ c ∈ unit, c.isSurrogate = false) (more : Text) :
    find? CodePoint.isSurrogate (unit ++ (unit ++ more)) =
      find? CodePoint.isSurrogate (unit ++ unit) := by
  obtain ⟨front, found⟩ := Option.isSome_iff_exists.mp (List.find?_isSome.mpr surrogate)
  obtain ⟨refused, before, rest, whole, accepted⟩ := List.find?_eq_some_iff_append.mp found
  have later : ∃ c ∈ rest ++ unit, (!c.isSurrogate) = true := by
    obtain ⟨c, inside, apart⟩ := other
    exact ⟨c, List.mem_append_right rest inside, by simp [apart]⟩
  obtain ⟨stop, stopped⟩ := Option.isSome_iff_exists.mp (List.find?_isSome.mpr later)
  obtain ⟨apart, inside, behind, tail, surrogates⟩ := List.find?_eq_some_iff_append.mp stopped
  have split : ∀ following : Text, unit ++ (unit ++ following) =
      before ++ front :: (inside ++ (stop :: (behind ++ following))) := by
    intro following
    calc unit ++ (unit ++ following)
        = before ++ front :: ((rest ++ unit) ++ following) := by
          conv => lhs; lhs; rw [whole]
          simp
      _ = before ++ front :: (inside ++ (stop :: (behind ++ following))) := by
          rw [tail]
          simp
  have located : ∀ following : Text,
      find? CodePoint.isSurrogate (unit ++ (unit ++ following)) =
        some ⟨front, before.length, before.length + inside.length⟩ := by
    intro following
    rw [split]
    exact find?_of_split (by simpa using accepted) refused (by simpa using surrogates)
      (by simpa using apart)
  rw [located more, ← located [], List.append_nil]

/-- The run in copies of a unit is the run in the text that they make. -/
theorem ofCopies?_eq (count : Nat) (unit : Text) :
    ofCopies? count unit = find? CodePoint.isSurrogate (repeated count unit) := by
  unfold ofCopies?
  split
  · rename_i surrogates
    have all : ∀ c ∈ repeated count unit, c.isSurrogate = true := fun c inside =>
      List.all_eq_true.mp surrogates c (mem_of_mem_repeated inside)
    cases count with
    | zero => simp [find?]
    | succ count =>
        cases unit with
        | nil => simp [find?]
        | cons front rest =>
            rw [repeated_succ] at all
            simp only [List.cons_append, List.mem_cons, forall_eq_or_imp] at all
            rw [repeated_succ, List.cons_append, find?_of_all all.1 all.2]
            have one : min (count + 1) 1 = 1 := by omega
            simp only [one, repeated_one, List.length_append, length_repeated, List.length_cons,
              Nat.succ_mul]
            congr 2
            omega
  · rename_i mixed
    match count with
    | 0 | 1 | 2 => rfl
    | count + 3 =>
        have two : min (count + 3) 2 = 2 := by omega
        have other : ∃ c ∈ unit, c.isSurrogate = false := by
          simpa [List.all_eq_true] using mixed
        by_cases surrogate : ∃ c ∈ unit, c.isSurrogate = true
        · rw [two, repeated_succ 1, repeated_one, repeated_succ (count + 2),
            repeated_succ (count + 1), find?_copies surrogate other]
        · have accepted : ∀ c ∈ unit, c.isSurrogate = false := by simpa using surrogate
          rw [find?_eq_none fun c inside => accepted c (mem_of_mem_repeated inside),
            find?_eq_none fun c inside => accepted c (mem_of_mem_repeated inside)]

end SurrogateRun

end Reindent
