import Reindent.Proofs.Encoding

/-!
Decoding of bytes that need not be a text.

A well-formed sequence is read by its own bytes, whatever follows them, and it is one ASCII byte or
has no ASCII byte at all.  So nothing is ever read across an ASCII byte: cut in front of one, or
behind well-formed sequences only, the two parts decode as they do together.  Elsewhere they need
not, since the bytes at both sides of the cut may make up a sequence.

Main statements: `decodeEscaped_append` for cuts in front of ASCII, and
`decodeEscaped_append_of_text` for cuts behind well-formed sequences.
-/

namespace Reindent

namespace Utf8

/-! ### Well-formed sequences -/

/-- Some bytes are read as one code point, whatever follows them. -/
def Reads (sequence : Bytes) (c : CodePoint) : Prop :=
  ∀ rest, takeScalar (sequence ++ rest) = some (c, rest)

/-- Trailing bytes are read by themselves, and none of them is ASCII. -/
theorem takeTrailing_eq_some {count value : Nat} {bytes : Bytes} {result : Nat × Bytes}
    (taken : takeTrailing count value bytes = some result) :
    ∃ trailing, bytes = trailing ++ result.2 ∧ (∀ byte ∈ trailing, 0x80 ≤ byte.toNat) ∧
      ∀ rest, takeTrailing count value (trailing ++ rest) = some (result.1, rest) := by
  fun_induction takeTrailing count value bytes with
  | case1 value rest =>
      cases taken
      exact ⟨[], rfl, by simp, fun rest => rfl⟩
  | case2 => cases taken
  | case3 count value byte rest continues later =>
      obtain ⟨trailing, whole, outside, reads⟩ := later taken
      refine ⟨byte :: trailing, by rw [List.cons_append, ← whole],
        List.forall_mem_cons.mpr ⟨continues.1, outside⟩, fun rest => ?_⟩
      rw [List.cons_append, takeTrailing, if_pos continues]
      exact reads rest
  | case4 => cases taken

/-- So are the bytes that complete a code point, which is not below the least one allowed and no
surrogate. -/
theorem completeScalar_reads {count least high : Nat} {bytes : Bytes}
    {result : CodePoint × Bytes} (completed : completeScalar count least high bytes = some result) :
    (least ≤ result.1.value ∧ result.1.isSurrogate = false) ∧
      ∃ trailing, bytes = trailing ++ result.2 ∧ (∀ byte ∈ trailing, 0x80 ≤ byte.toNat) ∧
        ∀ rest, completeScalar count least high (trailing ++ rest) = some (result.1, rest) := by
  unfold completeScalar at completed
  split at completed
  · cases completed
  · rename_i value remaining taken
    obtain ⟨trailing, whole, outside, reads⟩ := takeTrailing_eq_some taken
    split at completed
    · rename_i fits
      split at completed
      · rename_i proper
        cases completed
        refine ⟨proper, trailing, whole, outside, fun rest => ?_⟩
        exact completeScalar_eq_some (reads rest) proper.1 proper.2
      · cases completed
    · cases completed

/-- The shapes of a sequence: an ASCII byte, or bytes outside ASCII that make a code point outside
ASCII, which is no surrogate. -/
inductive Sequence : Bytes → CodePoint → Prop where
  | ascii {byte : UInt8} {c : CodePoint} (small : byte.toNat < 0x80)
      (same : c.value = byte.toNat) : Sequence [byte] c
  | outside {bytes : Bytes} {c : CodePoint} (something : bytes ≠ [])
      (outside : ∀ byte ∈ bytes, 0x80 ≤ byte.toNat) (above : 0x80 ≤ c.value)
      (scalar : c.isSurrogate = false) : Sequence bytes c

/-- An ASCII byte is in no sequence but its own. -/
theorem Sequence.eq_singleton {bytes : Bytes} {c : CodePoint} (shape : Sequence bytes c)
    {byte : UInt8} (member : byte ∈ bytes) (small : byte.toNat < 0x80) : bytes = [byte] := by
  cases shape with
  | ascii => rw [List.mem_singleton.mp member]
  | outside _ outside => exact absurd small (Nat.not_lt.mpr (outside byte member))

theorem Sequence.isSurrogate {bytes : Bytes} {c : CodePoint} (shape : Sequence bytes c) :
    c.isSurrogate = false := by
  cases shape with
  | ascii small same =>
      rw [← Bool.not_eq_true, CodePoint.isSurrogate_iff]
      omega
  | outside _ _ _ scalar => exact scalar

/-- A lead byte outside ASCII starts a sequence outside ASCII. -/
theorem takeScalar_of_lead {lead : UInt8} {count least high : Nat} {rest : Bytes}
    {result : CodePoint × Bytes} (outside_lead : 0x80 ≤ lead.toNat) (large : 0x80 ≤ least)
    (leads : ∀ other, takeScalar (lead :: other) = completeScalar count least high other)
    (taken : takeScalar (lead :: rest) = some result) :
    ∃ sequence, lead :: rest = sequence ++ result.2 ∧ Reads sequence result.1 ∧
      Sequence sequence result.1 := by
  rw [leads] at taken
  obtain ⟨proper, trailing, rfl, outside, reads⟩ := completeScalar_reads taken
  refine ⟨lead :: trailing, rfl, fun other => ?_, ?_⟩
  · rw [List.cons_append, leads]
    exact reads other
  · exact .outside (List.cons_ne_nil _ _) (List.forall_mem_cons.mpr ⟨outside_lead, outside⟩)
      (Nat.le_trans large proper.1) proper.2

theorem takeScalar_ascii {byte : UInt8} (small : byte.toNat < 0x80) (rest : Bytes) :
    takeScalar (byte :: rest) = some (.ofNat byte.toNat, rest) := by
  have fits : byte.toNat < 0x110000 := by omega
  simp only [takeScalar]
  rw [if_pos small]
  refine completeScalar_eq_some ?_ (Nat.zero_le _) ?_
  · rw [CodePoint.value_ofNat fits]
    rfl
  · rw [← Bool.not_eq_true, CodePoint.isSurrogate_iff, CodePoint.value_ofNat fits]
    omega

/-- What is read is a sequence that is read by itself. -/
theorem takeScalar_reads {bytes : Bytes} {result : CodePoint × Bytes}
    (taken : takeScalar bytes = some result) :
    ∃ sequence, bytes = sequence ++ result.2 ∧ Reads sequence result.1 ∧
      Sequence sequence result.1 := by
  cases bytes with
  | nil => cases taken
  | cons lead rest =>
      by_cases small : lead.toNat < 0x80
      · rw [takeScalar_ascii small] at taken
        cases taken
        refine ⟨[lead], rfl, fun other => takeScalar_ascii small other, .ascii small ?_⟩
        exact CodePoint.value_ofNat (by omega)
      have outside : 0x80 ≤ lead.toNat := Nat.le_of_not_lt small
      -- The lead byte tells how many bytes complete the code point, and the least it may be.
      by_cases trailing : lead.toNat < 0xC0
      · simp only [takeScalar] at taken
        rw [if_neg small, if_pos trailing] at taken
        cases taken
      by_cases two : lead.toNat < 0xE0
      · have leads : ∀ other, takeScalar (lead :: other) =
            completeScalar 1 0x80 (lead.toNat - 0xC0) other := by
          intro other
          simp only [takeScalar]
          rw [if_neg small, if_neg trailing, if_pos two]
        exact takeScalar_of_lead outside (by decide) leads taken
      by_cases three : lead.toNat < 0xF0
      · have leads : ∀ other, takeScalar (lead :: other) =
            completeScalar 2 0x800 (lead.toNat - 0xE0) other := by
          intro other
          simp only [takeScalar]
          rw [if_neg small, if_neg trailing, if_neg two, if_pos three]
        exact takeScalar_of_lead outside (by decide) leads taken
      by_cases four : lead.toNat < 0xF8
      · have leads : ∀ other, takeScalar (lead :: other) =
            completeScalar 3 0x10000 (lead.toNat - 0xF0) other := by
          intro other
          simp only [takeScalar]
          rw [if_neg small, if_neg trailing, if_neg two, if_neg three, if_pos four]
        exact takeScalar_of_lead outside (by decide) leads taken
      · simp only [takeScalar] at taken
        rw [if_neg small, if_neg trailing, if_neg two, if_neg three, if_neg four] at taken
        cases taken

/-! ### Segments -/

theorem segments_nil : segments [] = [] := by
  rw [segments]

/-- A sequence that is read is the first segment. -/
theorem segments_of_reads {sequence : Bytes} {c : CodePoint} (reads : Reads sequence c)
    (rest : Bytes) : segments (sequence ++ rest) = .scalar c :: segments rest := by
  have taken := reads rest
  cases whole : sequence ++ rest with
  | nil =>
      rw [whole] at taken
      cases taken
  | cons byte behind =>
      rw [whole] at taken
      rw [segments]
      split
      · rename_i found
        rw [taken] at found
        cases found
        rfl
      · rename_i stray
        rw [taken] at stray
        cases stray

/-- A byte where no sequence starts is a segment by itself. -/
theorem segments_of_stray {byte : UInt8} {rest : Bytes} (stray : takeScalar (byte :: rest) = none) :
    segments (byte :: rest) = .stray byte :: segments rest := by
  rw [segments]
  split
  · rename_i found
    rw [stray] at found
    cases found
  · rfl

/-- Bytes are built from their end by sequences and stray bytes. -/
@[elab_as_elim]
theorem segmentsInduction {motive : Bytes → Prop}
    (nil : motive [])
    (scalar : ∀ sequence c rest, Reads sequence c → Sequence sequence c → motive rest →
      motive (sequence ++ rest))
    (stray : ∀ byte rest, takeScalar (byte :: rest) = none → motive rest → motive (byte :: rest))
    (bytes : Bytes) : motive bytes := by
  fun_induction segments bytes with
  | case1 => exact nil
  | case2 byte rest c remaining taken later =>
      obtain ⟨sequence, whole, reads, shape⟩ := takeScalar_reads taken
      rw [whole]
      exact scalar sequence c remaining reads shape later
  | case3 byte rest taken later => exact stray byte rest taken later

/-- Stray bytes are outside ASCII. -/
theorem outside_of_stray {byte : UInt8} {rest : Bytes}
    (stray : takeScalar (byte :: rest) = none) : 0x80 ≤ byte.toNat := by
  apply Nat.le_of_not_lt
  intro small
  rw [takeScalar_ascii small] at stray
  cases stray

/-! ### Cuts -/

/-- Bytes that do not start outside ASCII. -/
def StartsAscii (bytes : Bytes) : Prop := ∀ byte ∈ bytes.head?, byte.toNat < 0x80

/-- Nothing is read across the front of bytes that start with ASCII. -/
theorem takeScalar_append_eq_none {byte : UInt8} {front back : Bytes}
    (stray : takeScalar (byte :: front) = none) (starts : StartsAscii back) :
    takeScalar (byte :: (front ++ back)) = none := by
  cases taken : takeScalar (byte :: (front ++ back)) with
  | none => rfl
  | some result =>
      obtain ⟨sequence, whole, reads, shape⟩ := takeScalar_reads taken
      have outside := outside_of_stray stray
      rw [← List.cons_append] at whole
      rcases List.append_eq_append_iff.mp whole with ⟨more, rfl, split⟩ | ⟨more, left, -⟩
      · -- The sequence goes on behind the front, so it would hold the ASCII byte there.
        cases more with
        | nil =>
            have alone := reads []
            rw [List.append_nil, List.append_nil, stray] at alone
            cases alone
        | cons first others =>
            have small : first.toNat < 0x80 := starts first (by rw [split]; rfl)
            have alone := shape.eq_singleton (List.mem_append_right _ (List.mem_cons_self ..)) small
            rw [List.cons_append, List.cons.injEq] at alone
            exact absurd alone.2 (List.append_ne_nil_of_right_ne_nil _ (List.cons_ne_nil _ _))
      · rw [left, reads more] at stray
        cases stray

/-- Bytes that are cut in front of ASCII have the segments of both parts. -/
theorem segments_append {back : Bytes} (starts : StartsAscii back) (front : Bytes) :
    segments (front ++ back) = segments front ++ segments back := by
  induction front using segmentsInduction with
  | nil =>
      rw [segments_nil]
      rfl
  | scalar sequence c rest reads _ later =>
      rw [List.append_assoc, segments_of_reads reads, later, segments_of_reads reads]
      rfl
  | stray byte rest stray later =>
      rw [List.cons_append, segments_of_stray (takeScalar_append_eq_none stray starts), later,
        segments_of_stray stray]
      rfl

/-- Decoding goes part by part, if the cut is in front of ASCII. -/
theorem decodeEscaped_append {back : Bytes} (starts : StartsAscii back) (front : Bytes) :
    decodeEscaped (front ++ back) = decodeEscaped front ++ decodeEscaped back := by
  rw [decodeEscaped, segments_append starts, List.map_append]
  rfl

@[simp] theorem decodeEscaped_nil : decodeEscaped [] = [] := by
  rw [decodeEscaped, segments_nil]
  rfl

/-- An ASCII byte is decoded by itself. -/
theorem decodeEscaped_cons {byte : UInt8} (small : byte.toNat < 0x80) (rest : Bytes) :
    decodeEscaped (byte :: rest) = .ofNat byte.toNat :: decodeEscaped rest := by
  have reads : Reads [byte] (.ofNat byte.toNat) := takeScalar_ascii small
  rw [← List.singleton_append, decodeEscaped, segments_of_reads reads]
  rfl

/-- Decoding goes part by part, if the cut is behind ASCII. -/
theorem decodeEscaped_append_of_getLast {front : Bytes}
    (ends : ∀ byte ∈ front.getLast?, byte.toNat < 0x80) (back : Bytes) :
    decodeEscaped (front ++ back) = decodeEscaped front ++ decodeEscaped back := by
  rcases List.eq_nil_or_concat front with rfl | ⟨row, last, rfl⟩
  · rw [decodeEscaped_nil]
    rfl
  · rw [List.concat_eq_append] at ends ⊢
    have small : last.toNat < 0x80 := ends last List.getLast?_concat
    have starts : ∀ rest, StartsAscii (last :: rest) := by
      intro rest byte member
      cases member
      exact small
    rw [List.append_assoc, List.singleton_append, decodeEscaped_append (starts back),
      decodeEscaped_append (starts []), decodeEscaped_cons small, decodeEscaped_cons small,
      decodeEscaped_nil, List.append_assoc, List.singleton_append]

/-! ### Bytes that are a text -/

/-- Bytes are a text if none of them is stray. -/
theorem isSome_decode?_iff {bytes : Bytes} :
    (decode? bytes).isSome = true ↔
      ∀ segment ∈ segments bytes, segment.scalar?.isSome = true := by
  unfold decode?
  induction segments bytes with
  | nil => simp
  | cons first rest later =>
      rw [List.forall_mem_cons, ← later, List.mapM_cons]
      cases first.scalar? with
      | none => simp
      | some c => cases rest.mapM Segment.scalar? <;> simp

/-- Bytes are a text exactly if no surrogates are made of them. -/
theorem isSome_decode?_iff_encodable {bytes : Bytes} :
    (decode? bytes).isSome = true ↔ (decodeEscaped bytes).Encodable := by
  rw [isSome_decode?_iff]
  induction bytes using segmentsInduction with
  | nil => simp [segments_nil, Text.Encodable.nil]
  | scalar sequence c rest reads shape later =>
      rw [decodeEscaped, segments_of_reads reads, List.forall_mem_cons, later]
      constructor
      · intro fine
        exact List.forall_mem_cons.mpr ⟨shape.isSurrogate, fine.2⟩
      · intro fine
        exact ⟨rfl, (List.forall_mem_cons.mp fine).2⟩
  | stray byte rest stray later =>
      have outside := outside_of_stray stray
      have small := byte.toNat_lt
      have surrogate : (Segment.stray byte).escaped.isSurrogate = true := by
        rw [CodePoint.isSurrogate_iff, Segment.escaped, CodePoint.value_ofNat (by omega)]
        omega
      rw [decodeEscaped, segments_of_stray stray, List.forall_mem_cons]
      constructor
      · intro fine
        exact Bool.noConfusion fine.1
      · intro fine
        rw [(List.forall_mem_cons.mp fine).1] at surrogate
        cases surrogate

/-- Decoding goes part by part, if the first part is a text. -/
theorem decodeEscaped_append_of_text {front : Bytes} (text : (decode? front).isSome = true)
    (back : Bytes) : decodeEscaped (front ++ back) = decodeEscaped front ++ decodeEscaped back := by
  have whole : segments (front ++ back) = segments front ++ segments back := by
    rw [isSome_decode?_iff] at text
    induction front using segmentsInduction with
    | nil =>
        rw [segments_nil]
        rfl
    | scalar sequence c rest reads _ later =>
        rw [segments_of_reads reads] at text ⊢
        rw [List.append_assoc, segments_of_reads reads, later (List.forall_mem_cons.mp text).2]
        rfl
    | stray byte rest stray _ =>
        rw [segments_of_stray stray] at text
        exact absurd (List.forall_mem_cons.mp text).1 (by simp [Segment.scalar?])
  rw [decodeEscaped, whole, List.map_append]
  rfl

/-! ### What ASCII tells of decoded bytes -/

/-- A text has the ASCII symbols of some bytes, and between them one symbol or more outside ASCII
wherever the bytes have some outside ASCII. -/
inductive Blurs : Bytes → Text → Prop where
  | nil : Blurs [] []
  | ascii {byte : UInt8} {c : CodePoint} {rest : Bytes} {text : Text} (small : byte.toNat < 0x80)
      (same : c.value = byte.toNat) (later : Blurs rest text) : Blurs (byte :: rest) (c :: text)
  | outside {bytes rest : Bytes} {c : CodePoint} {text : Text} (something : bytes ≠ [])
      (outside : ∀ byte ∈ bytes, 0x80 ≤ byte.toNat) (above : 0x80 ≤ c.value)
      (later : Blurs rest text) : Blurs (bytes ++ rest) (c :: text)

/-- Decoding keeps ASCII as it is, and outside ASCII it makes code points outside ASCII. -/
theorem blurs_decodeEscaped (bytes : Bytes) : Blurs bytes (decodeEscaped bytes) := by
  induction bytes using segmentsInduction with
  | nil =>
      rw [decodeEscaped_nil]
      exact .nil
  | scalar sequence c rest reads shape later =>
      rw [decodeEscaped, segments_of_reads reads]
      cases shape with
      | ascii small same => exact .ascii small same later
      | outside something outside above => exact .outside something outside above later
  | stray byte rest stray later =>
      have outside := outside_of_stray stray
      have small := byte.toNat_lt
      have above : 0x80 ≤ (Segment.stray byte).escaped.value := by
        rw [Segment.escaped, CodePoint.value_ofNat (by omega)]
        omega
      rw [decodeEscaped, segments_of_stray stray, ← List.singleton_append]
      exact .outside (List.cons_ne_nil _ _) (by simpa using outside) above later

/-- Each code point is that of an ASCII byte, or is outside ASCII. -/
theorem Blurs.mem {bytes : Bytes} {text : Text} (blurs : Blurs bytes text) {c : CodePoint}
    (member : c ∈ text) :
    0x80 ≤ c.value ∨ ∃ byte ∈ bytes, c.value = byte.toNat := by
  induction blurs with
  | nil => cases member
  | @ascii byte d rest text small same _ later =>
      rcases List.mem_cons.mp member with rfl | inside
      · exact .inr ⟨byte, List.mem_cons_self .., same⟩
      · rcases later inside with above | ⟨other, within, equal⟩
        · exact .inl above
        · exact .inr ⟨other, List.mem_cons_of_mem byte within, equal⟩
  | @outside bytes rest d text _ _ above _ later =>
      rcases List.mem_cons.mp member with rfl | inside
      · exact .inl above
      · rcases later inside with above | ⟨other, within, equal⟩
        · exact .inl above
        · exact .inr ⟨other, List.mem_append_right bytes within, equal⟩

end Utf8

end Reindent
