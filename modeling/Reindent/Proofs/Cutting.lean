import Reindent.Proofs.Spelling

/-!
Lexemes before they are glued.

An atom that whitespace interrupts is cut into one lexeme for each stretch of it, and gluing joins
these.  Here the stretches are kept: the lexemes of a text in bundles, each of which is an atom with
its stretches or one other lexeme.  Layout writes every atom in one stretch, so what layout has
written is cut into the very lexemes that the text has.

Main statements: `glue_eq` tells gluing by bundles, and `cut_layout` cuts what layout has written.
-/

namespace Reindent

namespace Lexeme

/-! ### Cutting, step by step -/

theorem cut_blanks {row : Text} (blank : row.Blank) (rest : Text) :
    cut (row ++ rest) = cut rest := by
  induction row with
  | nil => rfl
  | cons c row later =>
      obtain ⟨first, others⟩ := List.forall_mem_cons.mp blank
      rw [List.cons_append, cut_blank first]
      exact later others

/-- A text that does not go on with an atom. -/
def EndsAtom (rest : Text) : Prop := ∀ c ∈ rest.head?, c.mark ≠ .ordinary

/-- A stretch of an atom ends where no symbol of an atom follows. -/
theorem cut_atom {run rest : Text} (something : run ≠ []) (ordinary : ∀ c ∈ run, c.mark = .ordinary)
    (ends : EndsAtom rest) : cut (run ++ rest) = ⟨.atom, run⟩ :: cut rest := by
  obtain ⟨c, run, rfl⟩ := List.exists_cons_of_ne_nil something
  obtain ⟨first, others⟩ := List.forall_mem_cons.mp ordinary
  have belong : ∀ d ∈ run, (d.mark == .ordinary) = true := by
    intro d member
    exact beq_iff_eq.mpr (others d member)
  have stopped : rest.takeWhile (fun d => d.mark == .ordinary) = [] ∧
      rest.dropWhile (fun d => d.mark == .ordinary) = rest := by
    cases rest with
    | nil => exact ⟨rfl, rfl⟩
    | cons d rest =>
        have other : ¬(d.mark == .ordinary) = true := by
          intro same
          exact ends d rfl (beq_iff_eq.mp same)
        exact ⟨List.takeWhile_cons_of_neg other, List.dropWhile_cons_of_neg other⟩
  rw [List.cons_append, cut_cons (takeToken_ordinary first (run ++ rest)),
    List.takeWhile_append_of_pos belong, List.dropWhile_append_of_pos belong, stopped.1, stopped.2,
    List.append_nil]

theorem cut_punctuation {c : CodePoint} (mark : c.mark.isPunctuation = true) (rest : Text) :
    cut (c :: rest) = ⟨.punctuation, [c]⟩ :: cut rest :=
  cut_cons (takeToken_punctuation mark rest)

theorem cut_closedString {c : CodePoint} (mark : c.mark = .quote) {body : Text}
    (closed : ClosedBody body) (rest : Text) :
    cut (c :: (body ++ rest)) = ⟨.string, c :: body⟩ :: cut rest :=
  cut_cons (takeToken_string mark (takeString_closed closed rest))

theorem cut_openString {c : CodePoint} (mark : c.mark = .quote) {body : Text}
    (unclosed : OpenBody body) : cut (c :: body) = [⟨.string, c :: body⟩] := by
  rw [cut_cons (takeToken_string mark (takeString_open unclosed)), cut_nil]

theorem cut_comment {c : CodePoint} (mark : c.mark = .hash) {run : Text} (line : OneLine run)
    (rest : Text) :
    cut (c :: (run ++ .ofChar '\n' :: rest)) = ⟨.comment, c :: run⟩ :: cut rest := by
  rw [cut_cons (takeToken_comment mark (takeRun_oneLine_newline line rest)),
    cut_blank CodePoint.mark_newline]

theorem cut_lastComment {c : CodePoint} (mark : c.mark = .hash) {run : Text} (line : OneLine run) :
    cut (c :: run) = [⟨.comment, c :: run⟩] := by
  rw [cut_cons (takeToken_comment mark (takeRun_oneLine line)), cut_nil]

/-- What is cut from a text is in the text. -/
theorem mem_of_mem_cut {text : Text} {lexeme : Lexeme} (found : lexeme ∈ cut text) {c : CodePoint}
    (member : c ∈ lexeme.text) : c ∈ text := by
  obtain ⟨token, scanned, same⟩ := List.mem_filterMap.mp found
  cases token with
  | blank run => cases same
  | lexeme content =>
      cases same
      rw [← flatMap_text_scan text]
      exact List.mem_flatMap.mpr ⟨_, scanned, member⟩

/-! ### Bundles -/

/-- An atom with its stretches, or another lexeme, which has one stretch. -/
structure Bundle where
  kind : LexemeKind
  stretches : List Text

/-- The lexeme that a bundle is glued to. -/
def Bundle.joined (bundle : Bundle) : Lexeme := ⟨bundle.kind, bundle.stretches.flatten⟩

/-- Put a lexeme in front of bundles: an atom joins an atom that stands first. -/
def consBundle (lexeme : Lexeme) : List Bundle → List Bundle
  | [] => [⟨lexeme.kind, [lexeme.text]⟩]
  | first :: rest =>
      if lexeme.kind = .atom ∧ first.kind = .atom then
        ⟨.atom, lexeme.text :: first.stretches⟩ :: rest
      else
        ⟨lexeme.kind, [lexeme.text]⟩ :: first :: rest

/-- An atom joins the stretches of an atom. -/
theorem consBundle_atom {first : Bundle} (atom : first.kind = .atom) (text : Text)
    (rest : List Bundle) :
    consBundle ⟨.atom, text⟩ (first :: rest) = ⟨.atom, text :: first.stretches⟩ :: rest :=
  if_pos ⟨rfl, atom⟩

/-- Any other lexeme is a bundle of its own, and so is an atom where no atom stands first. -/
theorem consBundle_apart {lexeme : Lexeme} {rest : List Bundle}
    (apart : lexeme.kind = .atom → ∀ first ∈ rest.head?, first.kind ≠ .atom) :
    consBundle lexeme rest = ⟨lexeme.kind, [lexeme.text]⟩ :: rest := by
  cases rest with
  | nil => rfl
  | cons first rest => exact if_neg fun both => apart both.1 first rfl both.2

/-- Lexemes in bundles. -/
def bundles : List Lexeme → List Bundle
  | [] => []
  | lexeme :: rest => consBundle lexeme (bundles rest)

theorem mem_consBundle {lexeme : Lexeme} {rest : List Bundle} {bundle : Bundle}
    (member : bundle ∈ consBundle lexeme rest) :
    bundle ∈ rest ∨ bundle = ⟨lexeme.kind, [lexeme.text]⟩ ∨
      lexeme.kind = .atom ∧ bundle.kind = .atom ∧
        ∃ first ∈ rest, first.kind = .atom ∧
          bundle.stretches = lexeme.text :: first.stretches := by
  cases rest with
  | nil => exact .inr (.inl (List.mem_singleton.mp member))
  | cons first others =>
      by_cases both : lexeme.kind = .atom ∧ first.kind = .atom
      · rw [consBundle, if_pos both] at member
        rcases List.mem_cons.mp member with rfl | behind
        · exact .inr (.inr ⟨both.1, rfl, first, List.mem_cons_self .., both.2, rfl⟩)
        · exact .inl (List.mem_cons_of_mem _ behind)
      · rw [consBundle, if_neg both] at member
        rcases List.mem_cons.mp member with rfl | behind
        · exact .inr (.inl rfl)
        · exact .inl behind

/-- Each stretch of a bundle is a lexeme that was cut. -/
theorem mem_of_mem_bundles {lexemes : List Lexeme} {bundle : Bundle}
    (member : bundle ∈ bundles lexemes) {stretch : Text} (within : stretch ∈ bundle.stretches) :
    ⟨bundle.kind, stretch⟩ ∈ lexemes := by
  induction lexemes generalizing bundle with
  | nil => cases member
  | cons lexeme rest later =>
      rcases mem_consBundle member with behind | rfl | ⟨kind, atom, first, behind, same, joined⟩
      · exact List.mem_cons_of_mem _ (later behind within)
      · rw [List.mem_singleton.mp within]
        exact List.mem_cons_self ..
      · rw [joined] at within
        rw [atom]
        rcases List.mem_cons.mp within with rfl | inside
        · rw [← kind]
          exact List.mem_cons_self ..
        · rw [← same]
          exact List.mem_cons_of_mem _ (later behind inside)

/-- A bundle that is no atom has one stretch. -/
theorem single_of_mem_bundles {lexemes : List Lexeme} {bundle : Bundle}
    (member : bundle ∈ bundles lexemes) (other : bundle.kind ≠ .atom) :
    ∃ text, bundle.stretches = [text] := by
  induction lexemes with
  | nil => cases member
  | cons lexeme rest later =>
      rcases mem_consBundle member with behind | rfl | ⟨-, atom, -⟩
      · exact later behind
      · exact ⟨lexeme.text, rfl⟩
      · exact absurd atom other

/-- Gluing joins each bundle. -/
theorem glue_eq (lexemes : List Lexeme) : glue lexemes = (bundles lexemes).map Bundle.joined := by
  induction lexemes with
  | nil => rfl
  | cons lexeme rest later =>
      rw [glue, later, bundles]
      cases bundles rest with
      | nil => simp [consBundle, Bundle.joined]
      | cons first others =>
          by_cases both : lexeme.kind = .atom ∧ first.kind = .atom
          · simp [consBundle, Bundle.joined, both]
          · simp [consBundle, Bundle.joined, both]

/-- A change of the text of a lexeme. -/
def mapText (change : Text → Text) (lexeme : Lexeme) : Lexeme := ⟨lexeme.kind, change lexeme.text⟩

/-- A change of each stretch of a bundle. -/
def Bundle.mapText (change : Text → Text) (bundle : Bundle) : Bundle :=
  ⟨bundle.kind, bundle.stretches.map change⟩

/-- Which lexemes are bundled does not depend on their text. -/
theorem bundles_map (change : Text → Text) (lexemes : List Lexeme) :
    bundles (lexemes.map (mapText change)) = (bundles lexemes).map (Bundle.mapText change) := by
  induction lexemes with
  | nil => rfl
  | cons lexeme rest later =>
      rw [List.map_cons, bundles, later, bundles]
      cases bundles rest with
      | nil => rfl
      | cons first others =>
          by_cases both : lexeme.kind = .atom ∧ first.kind = .atom
          · simp [consBundle, mapText, Bundle.mapText, both]
          · simp [consBundle, mapText, Bundle.mapText, both]

/-- Adjacent lexemes that are not both atoms. -/
def Apart (lexemes : List Lexeme) : Prop :=
  lexemes.IsChain fun first second => ¬(first.kind = .atom ∧ second.kind = .atom)

theorem Apart.mapText {lexemes : List Lexeme} (apart : Apart lexemes) (change : Text → Text) :
    Apart (lexemes.map (Lexeme.mapText change)) :=
  List.isChain_map _ |>.mpr apart

/-- Where no atoms are adjacent, nothing is glued. -/
theorem glue_of_apart {lexemes : List Lexeme} (apart : Apart lexemes) : glue lexemes = lexemes := by
  induction lexemes with
  | nil => rfl
  | cons first rest later =>
      cases rest with
      | nil => rfl
      | cons second others =>
          obtain ⟨separate, chain⟩ := List.isChain_cons_cons.mp apart
          rw [glue, later chain]
          simp only
          rw [if_neg separate]

/-! ### What layout has written -/

/-- A lexeme that is no atom starts with a symbol that no atom holds. -/
theorem visible_of_fits {lexeme : Lexeme} (fits : lexeme.Complete ∨ lexeme.Unterminated)
    (other : lexeme.kind ≠ .atom) :
    ∃ c body, lexeme.text = c :: body ∧ c.mark ≠ .ordinary := by
  rcases fits with complete | unterminated
  · cases complete with
    | string => exact ⟨_, _, rfl, by decide⟩
    | comment => exact ⟨_, _, rfl, by decide⟩
    | punctuation symbol =>
        refine ⟨_, _, rfl, fun ordinary => ?_⟩
        have mark := CodePoint.isPunctuation_mark_iff.mpr symbol
        rw [ordinary] at mark
        cases mark
    | atom => exact absurd rfl other
  · cases unterminated
    exact ⟨_, _, rfl, by decide⟩

section Layout

variable {unit : Text} (blank : unit.Blank) (closed : Bool)

/-- What is laid out for a lexeme that is no atom does not go on with an atom. -/
theorem endsAtom_layoutFrom (depth : Nat) (previous : Option Lexeme) {lexemes : List Lexeme}
    (formed : WellFormed lexemes) (other : ∀ next ∈ lexemes.head?, next.kind ≠ .atom) :
    EndsAtom (layoutFrom unit closed depth previous lexemes) := by
  have newline : (CodePoint.ofChar '\n').mark ≠ .ordinary := by decide
  cases lexemes with
  | nil =>
      intro c member
      cases member
  | cons lexeme rest =>
      obtain ⟨fits, -, -⟩ := wellFormed_cons.mp formed
      obtain ⟨c, body, text, visible⟩ := visible_of_fits (fits.imp_right And.left) (other _ rfl)
      intro first member
      rw [layoutFrom, text] at member
      cases line : lexeme.lineDepth? depth previous with
      | none =>
          rw [line] at member
          cases member
          exact visible
      | some level =>
          rw [line] at member
          cases member
          exact newline

/-- A lexeme that is laid out is cut from the front, if what follows does not continue it: no symbol
of an atom follows an atom, and nothing a comment that has no newline. -/
theorem cut_laid_out {lexeme : Lexeme} (complete : lexeme.Complete) {ends : Bool} {more : Text}
    (atom : lexeme.kind = .atom → EndsAtom more) (comment : ends = false → more = []) :
    cut (lexeme.text ++ (lexeme.trailer ends ++ more)) = lexeme :: cut more := by
  cases complete with
  | @string body closed =>
      have trailed : trailer ⟨.string, .ofChar '"' :: body⟩ ends = [] := by simp [trailer, mark]
      rw [trailed]
      exact cut_closedString (by decide) closed more
  | @comment run line =>
      cases ends with
      | true =>
          have trailed : trailer ⟨.comment, .ofChar '#' :: run⟩ true = [.ofChar '\n'] := by
            simp [trailer, mark]
          rw [trailed]
          exact cut_comment (by decide) line more
      | false =>
          have trailed : trailer ⟨.comment, .ofChar '#' :: run⟩ false = [] := by
            simp [trailer, mark]
          rw [trailed, comment rfl, List.nil_append, List.append_nil, cut_nil]
          exact cut_lastComment (by decide) line
  | @punctuation c symbol =>
      have trailed : trailer ⟨.punctuation, [c]⟩ ends =
          if c.mark = .colon then [.ofChar ' '] else [] := by simp [trailer, mark]
      rw [trailed, List.singleton_append,
        cut_punctuation (CodePoint.isPunctuation_mark_iff.mpr symbol),
        cut_blanks (blank_colonSpace _)]
  | @atom text nonempty plain =>
      have trailed : trailer ⟨.atom, text⟩ ends = [] := by simp [trailer, mark]
      have ordinary : ∀ c ∈ text, c.mark = .ordinary :=
        fun c member => CodePoint.mark_eq_ordinary_iff.mpr (plain c member)
      rw [trailed]
      exact cut_atom nonempty ordinary (atom rfl)

include blank

/-- What layout has written for lexemes is cut into these lexemes. -/
theorem cut_layoutFrom (depth : Nat) (previous : Option Lexeme) {lexemes : List Lexeme}
    (formed : WellFormed lexemes) :
    cut (layoutFrom unit closed depth previous lexemes) = lexemes := by
  induction lexemes generalizing depth previous with
  | nil => exact cut_nil
  | cons lexeme rest later =>
      obtain ⟨fits, apart, others⟩ := wellFormed_cons.mp formed
      rw [layoutFrom, List.append_assoc, List.append_assoc, cut_blanks (blank_lineStart blank _)]
      rcases fits with complete | ⟨unterminated, rfl⟩
      · rw [cut_laid_out complete, later _ _ others]
        · intro atom
          exact endsAtom_layoutFrom closed _ _ others fun next member other =>
            apart next member ⟨atom, other⟩
        · intro last
          cases rest with
          | nil => rfl
          | cons => simp at last
      · cases unterminated with
        | @string body unclosed =>
            have trailed : ∀ ends, trailer ⟨.string, .ofChar '"' :: body⟩ ends = [] := by
              simp [trailer, mark]
            rw [trailed, layoutFrom, List.append_nil, List.append_nil]
            exact cut_openString (by decide) unclosed

end Layout

/-- What layout has written for a text is cut into the lexemes of the text. -/
theorem cut_layout {unit : Text} (blank : unit.Blank) (text : Text) :
    cut (layout unit text) = ofText text :=
  cut_layoutFrom blank _ _ _ (wellFormed_ofText text)

end Lexeme

end Reindent
