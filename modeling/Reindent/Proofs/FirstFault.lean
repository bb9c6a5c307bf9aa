import Reindent.Proofs.EscapeItems

/-!
The fault that reading an escaped text reports.

Reading stops at the first escape that is malformed.  An item that reads well has the same bytes and
the same meaning whatever comes after it, unless an octal digit does, and a malformed escape starts
with a backslash.  So what stands before that escape reads well by itself too, and the escape is
malformed in the same way behind every text that reads well.

Main statement: which escape is reported, and that its report moves with it (`decode_error`).
-/

namespace Reindent.Escape

variable {names : Names}

/-! ### Kinds of escapes -/

/-- The octal digits at the front of a byte sequence, three at most. -/
def octalDigits (bytes : Bytes) : Bytes := (bytes.take 3).takeWhile isOctalDigit

/-- The byte behind a backslash tells the kind of an escape: it ends at once, it has digits of a
given number, it has a name, or it has as many octal digits as there are. -/
theorem escapeAt_cases (names : Names) (letter : UInt8) :
    (∃ meaning, ∀ rest, escapeAt names (letter :: rest) = ⟨1, .ok meaning⟩) ∨
      (∃ width, ∀ rest, escapeAt names (letter :: rest) = numericEscape width rest) ∨
      (∀ rest, escapeAt names (letter :: rest) = namedEscape names rest) ∨
      isOctalDigit letter = true ∧ ∀ rest, escapeAt names (letter :: rest) =
        ⟨(octalDigits (letter :: rest)).length,
          .ok [.ofNat (octalValue (octalDigits (letter :: rest)))]⟩ := by
  cases short : shortEscape? letter with
  | some meaning => exact .inl ⟨meaning, escapeAt_short short⟩
  | none =>
      cases wide : widthOf? letter with
      | some width =>
          refine .inr (.inl ⟨width, fun rest => ?_⟩)
          simp only [escapeAt, short, wide]
      | none =>
          by_cases named : letter.toNat = 'N'.toNat
          · refine .inr (.inr (.inl fun rest => ?_))
            simp only [escapeAt, short, wide, if_pos named]
          · cases octal : isOctalDigit letter with
            | false =>
                refine .inl ⟨[.ofChar '\\', pointOf letter], fun rest => ?_⟩
                have none_there : ((letter :: rest).take 3).takeWhile isOctalDigit = [] := by
                  simp [octal]
                simp only [escapeAt, short, wide, if_neg named, none_there, List.isEmpty_nil,
                  if_true]
            | true =>
                refine .inr (.inr (.inr ⟨rfl, fun rest => ?_⟩))
                have some_there : (octalDigits (letter :: rest)).isEmpty = false := by
                  simp [octalDigits, octal]
                rw [octalDigits] at some_there ⊢
                simp only [escapeAt, short, wide, if_neg named, some_there, Bool.false_eq_true,
                  if_false]

/-! ### Items stay within the text -/

theorem last_numericEscape_le (width : EscapeWidth) (rest : Bytes) :
    (numericEscape width rest).last ≤ rest.length + 1 := by
  have few : (((rest.take width.digits).map UInt8.toNat).takeWhile Hex.isDigit).length ≤
      rest.length := by
    refine Nat.le_trans (List.takeWhile_sublist _).length_le ?_
    rw [List.length_map]
    exact List.length_take_le' ..
  unfold numericEscape
  simp only
  split
  · simp only
    omega
  · split <;> simp only <;> omega

theorem last_namedEscape_le (rest : Bytes) :
    (namedEscape names rest).last ≤ rest.length + 1 := by
  cases rest with
  | nil => exact Nat.le_refl 1
  | cons opener rest =>
      have within : (rest.takeWhile fun byte => byte.toNat ≠ '}'.toNat).length ≤ rest.length :=
        (List.takeWhile_sublist _).length_le
      simp only [namedEscape, List.length_cons]
      repeat' split
      all_goals
        simp only
        omega

theorem octalDigits_isPrefix (bytes : Bytes) : octalDigits bytes <+: bytes :=
  (List.takeWhile_prefix _).trans (List.take_prefix 3 bytes)

theorem last_escapeAt_le (names : Names) (bytes : Bytes) :
    (escapeAt names bytes).last ≤ bytes.length := by
  cases bytes with
  | nil => exact Nat.le_refl 0
  | cons letter rest =>
      rcases escapeAt_cases names letter with ⟨meaning, short⟩ | ⟨width, numeric⟩ | named | ⟨-, octal⟩
      · rw [short]
        exact Nat.succ_pos _
      · rw [numeric]
        exact last_numericEscape_le width rest
      · rw [named]
        exact last_namedEscape_le rest
      · rw [octal]
        exact (octalDigits_isPrefix _).length_le

/-- No item is longer than the bytes that there are. -/
theorem last_itemAt_le (names : Names) (byte : UInt8) (rest : Bytes) :
    (itemAt names byte rest).last ≤ rest.length := by
  unfold itemAt
  split
  · exact last_escapeAt_le names rest
  · exact Nat.zero_le _

/-! ### Items that read well, among other bytes -/

/-- A numeric escape that reads well has all its digits. -/
theorem last_of_numericEscape {width : EscapeWidth} {rest : Bytes} {last : Nat} {text : Text}
    (item : numericEscape width rest = ⟨last, .ok text⟩) : last = width.digits + 1 := by
  unfold numericEscape at item
  simp only at item
  split at item
  · cases item
  · split at item
    · cases item
      exact Nat.add_comm ..
    · cases item

/-- What stops short of the end, stops at a closing brace. -/
theorem exists_closing {rest : Bytes}
    (shorter : (rest.takeWhile fun byte => byte.toNat ≠ '}'.toNat).length ≠ rest.length) :
    ∃ after, rest = (rest.takeWhile fun byte => byte.toNat ≠ '}'.toNat) ++ 0x7D :: after := by
  have whole := rest.takeWhile_append_dropWhile (p := fun byte => byte.toNat ≠ '}'.toNat)
  have stopped := rest.head?_dropWhile_not (p := fun byte => byte.toNat ≠ '}'.toNat)
  cases behind : rest.dropWhile fun byte => byte.toNat ≠ '}'.toNat with
  | nil =>
      rw [behind, List.append_nil] at whole
      exact absurd (congrArg List.length whole) shorter
  | cons closer after =>
      rw [behind] at whole stopped
      have closes : closer = 0x7D := UInt8.toNat_inj.mp (by simpa using stopped)
      rw [closes] at whole
      exact ⟨after, whole.symm⟩

/-- A named escape that reads well has its braces, with a known name between them. -/
theorem eq_of_namedEscape {rest : Bytes} {last : Nat} {text : Text}
    (item : namedEscape names rest = ⟨last, .ok text⟩) :
    ∃ name after c, rest = 0x7B :: (name ++ 0x7D :: after) ∧ (∀ byte ∈ name, byte ≠ 0x7D) ∧
      name ≠ [] ∧ names name = some c ∧ last = name.length + 3 ∧ text = [c] := by
  cases rest with
  | nil => cases item
  | cons opener rest =>
      simp only [namedEscape] at item
      split at item
      · cases item
      rename_i opens
      split at item
      · cases item
      rename_i shorter
      split at item
      · cases item
      rename_i some_name
      split at item
      · rename_i c known
        cases item
        obtain ⟨after, whole⟩ := exists_closing shorter
        have brace : opener = 0x7B := UInt8.toNat_inj.mp (by simpa using opens)
        refine ⟨_, after, c, ?_, ?_, by simpa using some_name, known, Nat.add_comm .., rfl⟩
        · rw [brace, ← whole]
        · rintro byte inside rfl
          have different := List.mem_takeWhile_imp inside
          cases different
      · cases item

/-- A known name in braces means its code point, whatever follows it. -/
theorem namedEscape_known {name : Bytes} {c : CodePoint} (plain : ∀ byte ∈ name, byte ≠ 0x7D)
    (nonempty : name ≠ []) (known : names name = some c) (after : Bytes) :
    namedEscape names (0x7B :: (name ++ 0x7D :: after)) = ⟨name.length + 3, .ok [c]⟩ := by
  have taken : (name ++ 0x7D :: after).takeWhile (fun byte => byte.toNat ≠ '}'.toNat) = name := by
    rw [List.takeWhile_append_of_pos, List.takeWhile_cons_of_neg (by decide), List.append_nil]
    intro byte inside
    exact decide_eq_true fun same => plain byte inside (UInt8.toNat_inj.mp same)
  have shorter : name.length ≠ (name ++ 0x7D :: after).length := by
    rw [List.length_append, List.length_cons]
    omega
  have some_name : name.isEmpty = false := by simpa using nonempty
  simp only [namedEscape, taken, if_neg shorter, some_name, known, Nat.add_comm 3]
  rfl

/-- So a named escape that reads well keeps its meaning whatever follows it. -/
theorem namedEscape_congr {front back other : Bytes} {text : Text}
    (item : namedEscape names (front ++ back) = ⟨front.length + 1, .ok text⟩) :
    namedEscape names (front ++ other) = ⟨front.length + 1, .ok text⟩ := by
  obtain ⟨name, after, c, whole, plain, nonempty, known, last, rfl⟩ := eq_of_namedEscape item
  have split : front ++ back = 0x7B :: (name ++ [0x7D]) ++ after := by
    rw [whole]
    simp
  have length : front.length = (0x7B :: (name ++ [0x7D])).length := by
    simpa using Nat.succ.inj last
  have braced := namedEscape_known plain nonempty known other
  rw [List.append_inj_left split length]
  simpa using braced

/-- Octal digits end where there are three of them or no other one follows. -/
theorem octalDigits_append_iff {digits rest : Bytes} (few : digits.length ≤ 3)
    (octal : ∀ byte ∈ digits, isOctalDigit byte = true) :
    octalDigits (digits ++ rest) = digits ↔
      digits.length = 3 ∨ ∀ byte ∈ rest.head?, isOctalDigit byte = false := by
  rw [octalDigits, List.take_append, List.take_of_length_le few,
    List.takeWhile_append_of_pos octal, List.append_right_eq_self]
  cases rest with
  | nil => simp
  | cons byte rest =>
      by_cases full : digits.length = 3
      · simp [full]
      · obtain ⟨more, left⟩ : ∃ more, 3 - digits.length = more + 1 := ⟨2 - digits.length, by omega⟩
        rw [left, List.take_succ_cons, List.takeWhile_cons]
        simp [full]

theorem octalDigits_congr {front back other : Bytes}
    (digits : octalDigits (front ++ back) = front)
    (ends : ∀ byte ∈ other.head?, isOctalDigit byte = true → byte ∈ back.head?) :
    octalDigits (front ++ other) = front := by
  have few : front.length ≤ 3 := by
    rw [← digits]
    exact Nat.le_trans (List.takeWhile_sublist _).length_le (List.length_take_le ..)
  have octal : ∀ byte ∈ front, isOctalDigit byte = true := by
    rw [← digits]
    exact fun byte inside => List.mem_takeWhile_imp inside
  rw [octalDigits_append_iff few octal] at digits ⊢
  refine digits.imp_right fun apart byte next => ?_
  rw [← Bool.not_eq_true]
  intro digit
  rw [apart byte (ends byte next digit)] at digit
  cases digit

/-- An escape that reads well has a byte behind its backslash. -/
theorem escapeAt_ne_nothing {bytes : Bytes} {text : Text} :
    escapeAt names bytes ≠ ⟨0, .ok text⟩ := by
  intro item
  cases bytes with
  | nil => cases item
  | cons letter rest =>
      rcases escapeAt_cases names letter with ⟨meaning, short⟩ | ⟨width, numeric⟩ | named | ⟨digit, octal⟩
      · rw [short] at item
        cases item
      · rw [numeric] at item
        cases last_of_numericEscape item
      · rw [named] at item
        obtain ⟨name, after, c, -, -, -, -, last, -⟩ := eq_of_namedEscape item
        cases last
      · rw [octal] at item
        have nothing := congrArg Item.last item
        simp [octalDigits, digit] at nothing

/-- An escape that reads well keeps its bytes and its meaning when other bytes follow, unless these
add an octal digit to it. -/
theorem escapeAt_congr {front back other : Bytes} {text : Text}
    (item : escapeAt names (front ++ back) = ⟨front.length, .ok text⟩)
    (ends : ∀ byte ∈ other.head?, isOctalDigit byte = true → byte ∈ back.head?) :
    escapeAt names (front ++ other) = ⟨front.length, .ok text⟩ := by
  cases front with
  | nil => exact absurd item escapeAt_ne_nothing
  | cons letter front =>
      rcases escapeAt_cases names letter with ⟨meaning, short⟩ | ⟨width, numeric⟩ | named | ⟨-, octal⟩
      · rw [List.cons_append, short] at item ⊢
        exact item
      · rw [List.cons_append, numeric] at item ⊢
        have all : front.length = width.digits := Nat.succ.inj (last_of_numericEscape item)
        rw [numericEscape, List.take_left' all] at item ⊢
        exact item
      · rw [List.cons_append, named] at item ⊢
        exact namedEscape_congr item
      · rw [List.cons_append, octal] at item ⊢
        have length := congrArg Item.last item
        have digits : octalDigits (letter :: front ++ back) = letter :: front :=
          (List.prefix_of_prefix_length_le (octalDigits_isPrefix _) (List.prefix_append _ _)
            (Nat.le_of_eq length)).eq_of_length length
        have same := octalDigits_congr digits ends
        rw [List.cons_append] at digits same
        rw [digits] at item
        rw [same]
        exact item

/-- The same holds of every item: a byte that is no backslash is an item by itself. -/
theorem itemAt_congr {byte : UInt8} {front back other : Bytes} {text : Text}
    (item : itemAt names byte (front ++ back) = ⟨front.length, .ok text⟩)
    (ends : ∀ byte ∈ other.head?, isOctalDigit byte = true → byte ∈ back.head?) :
    itemAt names byte (front ++ other) = ⟨front.length, .ok text⟩ := by
  unfold itemAt at item ⊢
  split
  · rename_i backslash
    rw [if_pos backslash] at item
    exact escapeAt_congr item ends
  · rename_i plain
    rw [if_neg plain] at item
    exact item

/-! ### Reading one item after the other -/

/-- Bytes that start with a malformed escape; `last` is the offset of its last byte. -/
inductive Malformed (names : Names) (fault : Fault) (last : Nat) : Bytes → Prop where
  | escape {rest : Bytes} (item : escapeAt names rest = ⟨last, .error fault⟩) :
      Malformed names fault last (0x5C :: rest)

/-- Bytes end, or an item that reads well stands at their front, or a malformed escape does. -/
theorem itemInduction (names : Names) {motive : Bytes → Prop} (nil : motive [])
    (item : ∀ byte front back text,
      itemAt names byte (front ++ back) = ⟨front.length, .ok text⟩ →
        motive back → motive (byte :: (front ++ back)))
    (malformed : ∀ bytes fault last, Malformed names fault last bytes → motive bytes) :
    ∀ bytes, motive bytes
  | [] => nil
  | byte :: rest => by
      cases here : itemAt names byte rest with
      | mk last meaning =>
          cases meaning with
          | error fault =>
              by_cases backslash : byte.toNat = '\\'.toNat
              · obtain rfl : byte = 0x5C := UInt8.toNat_inj.mp backslash
                exact malformed _ fault last (.escape here)
              · rw [itemAt_plain backslash] at here
                cases here
          | ok text =>
              have within := last_itemAt_le names byte rest
              rw [here] at within
              have whole : rest.take last ++ rest.drop last = rest := List.take_append_drop ..
              rw [← whole]
              apply item byte (rest.take last) (rest.drop last) text
              · rw [whole, here, List.length_take_of_le within]
              · exact itemInduction names nil item malformed (rest.drop last)
termination_by bytes => bytes.length
decreasing_by
  simp only [List.length_drop, List.length_cons]
  omega

section Malformed

variable {fault : Fault} {last : Nat} {bytes : Bytes}

theorem Malformed.last_lt (malformed : Malformed names fault last bytes) : last < bytes.length := by
  cases malformed with
  | @escape rest item =>
      have within := last_escapeAt_le names rest
      rw [item] at within
      exact Nat.lt_succ_of_le within

/-- A malformed escape is reported where it stands. -/
theorem Malformed.decodeFrom_eq (malformed : Malformed names fault last bytes) (position : Nat) :
    decodeFrom names position bytes = .error ⟨fault, position, position + last⟩ := by
  cases malformed with
  | @escape rest item =>
      have here : itemAt names 0x5C rest = ⟨last, .error fault⟩ := item
      rw [decodeFrom]
      simp only [here]

/-- What reads well before a malformed escape moves its report and changes nothing else. -/
theorem Malformed.decodeFrom_append (malformed : Malformed names fault last bytes) {front : Bytes}
    {position : Nat} {text : Text} (read : decodeFrom names position front = .ok text) :
    decodeFrom names position (front ++ bytes) =
      .error ⟨fault, position + front.length, position + front.length + last⟩ := by
  induction front using itemInduction names generalizing position text with
  | nil => exact malformed.decodeFrom_eq position
  | malformed front cause end_ broken =>
      rw [broken.decodeFrom_eq] at read
      cases read
  | item byte front back here item later =>
      rw [decodeFrom_item item] at read
      have ends : ∀ digit ∈ (back ++ bytes).head?, isOctalDigit digit = true →
          digit ∈ back.head? := by
        intro digit next octal
        cases back with
        | cons first back => exact next
        | nil =>
            -- The item ends the front, and no octal digit is a backslash.
            cases malformed
            cases next
            cases octal
      rw [List.cons_append, List.append_assoc, decodeFrom_item (itemAt_congr item ends)]
      cases behind : decodeFrom names (position + (front.length + 1)) back with
      | error error =>
          rw [behind] at read
          cases read
      | ok following =>
          rw [later behind]
          simp only [List.length_cons, List.length_append, Except.error.injEq, Error.mk.injEq,
            true_and]
          omega

/-- Where reading fails, there is a malformed escape behind bytes that read well. -/
theorem exists_malformed {position : Nat} {error : Error}
    (failed : decodeFrom names position bytes = .error error) :
    ∃ front rest text last, bytes = front ++ rest ∧ decodeFrom names position front = .ok text ∧
      Malformed names error.fault last rest ∧ error.first = position + front.length ∧
      error.last = error.first + last := by
  induction bytes using itemInduction names generalizing position with
  | nil =>
      rw [decodeFrom] at failed
      cases failed
  | malformed bytes fault last malformed =>
      rw [malformed.decodeFrom_eq] at failed
      cases failed
      exact ⟨[], bytes, [], last, rfl, Reads.nil names position, malformed, rfl, rfl⟩
  | item byte front back text item later =>
      rw [decodeFrom_item item] at failed
      cases behind : decodeFrom names (position + (front.length + 1)) back with
      | ok following =>
          rw [behind] at failed
          cases failed
      | error cause =>
          rw [behind] at failed
          cases failed
          obtain ⟨middle, rest, following, last, rfl, read, malformed, first, extent⟩ :=
            later behind
          have ends : ∀ digit ∈ middle.head?, isOctalDigit digit = true →
              digit ∈ (middle ++ rest).head? := by
            intro digit next _
            rw [List.head?_append, Option.mem_def.mp next]
            rfl
          refine ⟨byte :: (front ++ middle), rest, text ++ following, last, ?_, ?_, malformed, ?_,
            extent⟩
          · simp
          · rw [decodeFrom_item (itemAt_congr item ends), read]
          · rw [first]
            simp only [List.length_cons, List.length_append]
            omega

end Malformed

/-- Reading reports the first escape that is malformed, whatever names are known.  Everything before
it reads well, and the bytes from its backslash on fail in the same way by themselves and behind
whatever else reads well. -/
theorem decode_error {text : Text} {error : Error} (failed : decode names text = .error error) :
    (bytesOf text)[error.first]? = some 0x5C ∧
      error.first ≤ error.last ∧ error.last < (bytesOf text).length ∧
      (∃ before, decodeFrom names 0 ((bytesOf text).take error.first) = .ok before) ∧
      decodeFrom names 0 ((bytesOf text).drop error.first) =
        .error ⟨error.fault, 0, error.last - error.first⟩ ∧
      ∀ front read, decodeFrom names 0 front = .ok read →
        decodeFrom names 0 (front ++ (bytesOf text).drop error.first) =
          .error ⟨error.fault, front.length, front.length + (error.last - error.first)⟩ := by
  obtain ⟨front, rest, before, last, whole, read, malformed, first, extent⟩ :=
    exists_malformed failed
  rw [Nat.zero_add] at first
  have offset : error.last - error.first = last := by omega
  have within := malformed.last_lt
  rw [whole, first, List.take_left, List.drop_left, ← first, offset]
  refine ⟨?_, ?_, ?_, ⟨before, read⟩, ?_, ?_⟩
  · rw [first, List.getElem?_append_right (Nat.le_refl _), Nat.sub_self]
    cases malformed
    rfl
  · omega
  · rw [List.length_append]
    omega
  · rw [malformed.decodeFrom_eq, Nat.zero_add]
  · intro other _ readable
    rw [malformed.decodeFrom_append readable, Nat.zero_add]

/-- A letter that has become six bytes and an octal escape of one digit, before two hexadecimal
digits of which one is missing; and the same escape behind another one of one octal digit. -/
theorem decode_error_of_truncated :
    decode .none "Ā\\1\\x4" = .error ⟨.truncated .two, 8, 10⟩ ∧
      (bytesOf "Ā\\1\\x4")[8]? = some 0x5C ∧
      (∃ before, decodeFrom .none 0 ((bytesOf "Ā\\1\\x4").take 8) = .ok before) ∧
      decodeFrom .none 0 (bytesOf "\\7" ++ (bytesOf "Ā\\1\\x4").drop 8) =
        .error ⟨.truncated .two, 2, 4⟩ := by
  have failed : decode .none "Ā\\1\\x4" = .error ⟨.truncated .two, 8, 10⟩ := by decide +kernel
  obtain ⟨backslash, -, -, before, -, behind⟩ := decode_error failed
  have octal : decodeFrom .none 0 (bytesOf "\\7") = .ok [.ofNat 7] := by decide +kernel
  exact ⟨failed, backslash, before, behind _ _ octal⟩

end Reindent.Escape
