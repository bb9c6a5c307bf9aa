import Reindent.Proofs.Rendering
import Reindent.Proofs.StreamContent

/-!
A transfer, piece by piece.

A source delivers its chunks in pieces of at most the read size, up to the first empty chunk.  A
transfer makes one read and one write for each of them, one more read that finds the end, and one
flush.  In which order it does so is told by transfers that are stopped: one whose `n`-th write
fails has read `n + 1` times, written `n` times and flushed nothing, and one that would fail at a
read behind the end does not fail.

Main statement: what is written, and what is remarked, depends on the bytes alone and not on the
pieces (`transfer_of_renders`).
-/

namespace Reindent

namespace Source

/-! ### Pieces -/

/-- A chunk in pieces of at most the read size. -/
def cut (chunk : Bytes) : List Bytes :=
  if _ended : chunk.isEmpty then [] else chunk.take readSize :: cut (chunk.drop readSize)
termination_by chunk.length
decreasing_by
  have some_left : 0 < chunk.length := List.length_pos_iff.mpr (by simpa using _ended)
  simp only [List.length_drop, readSize]
  omega

/-- The pieces that a source delivers before its first end. -/
def pieces : Source → List Bytes
  | [] => []
  | none :: _ => []
  | some chunk :: rest => if chunk.isEmpty then [] else cut chunk ++ pieces rest

theorem cut_nil : cut [] = [] := by
  rw [cut]
  rfl

theorem cut_of_nonempty {chunk : Bytes} (something : ¬chunk.isEmpty = true) :
    cut chunk = chunk.take readSize :: cut (chunk.drop readSize) := by
  rw [cut, dif_neg something]

/-- Nothing is lost in the cutting. -/
theorem flatten_cut (chunk : Bytes) : (cut chunk).flatten = chunk := by
  fun_induction cut chunk with
  | case1 chunk ended => exact (List.isEmpty_iff.mp ended).symm
  | case2 chunk _ later => rw [List.flatten_cons, later, List.take_append_drop]

theorem mem_cut {chunk piece : Bytes} (member : piece ∈ cut chunk) :
    piece ≠ [] ∧ piece.length ≤ readSize := by
  fun_induction cut chunk with
  | case1 => cases member
  | case2 chunk something later =>
      rcases List.mem_cons.mp member with rfl | inside
      · constructor
        · intro none
          rcases List.take_eq_nil_iff.mp none with none | none
          · cases none
          · exact something (List.isEmpty_iff.mpr none)
        · exact List.length_take_le readSize chunk
      · exact later inside

/-- The pieces of a source are its content. -/
theorem flatten_pieces (source : Source) : source.pieces.flatten = source.content := by
  fun_induction pieces source with
  | case1 => rfl
  | case2 => rfl
  | case3 chunk rest ended => rw [content, if_pos ended, List.flatten_nil]
  | case4 chunk rest something later =>
      rw [content, if_neg something, List.flatten_append, flatten_cut, later]

theorem mem_pieces {source : Source} {piece : Bytes} (member : piece ∈ source.pieces) :
    piece ≠ [] ∧ piece.length ≤ readSize := by
  fun_induction pieces source with
  | case1 => cases member
  | case2 => cases member
  | case3 => cases member
  | case4 chunk rest something later =>
      rcases List.mem_append.mp member with here | behind
      · exact mem_cut here
      · exact later behind

/-- A read that delivers nothing has no piece before it. -/
theorem pieces_of_read_empty {source : Source} (ended : source.read.1.isEmpty = true) :
    source.pieces = [] := by
  have nothing : source.pieces.flatten = [] := by
    rw [flatten_pieces, content_of_read_empty ended]
  apply List.eq_nil_iff_forall_not_mem.mpr
  intro piece member
  exact (mem_pieces member).1 (List.flatten_eq_nil_iff.mp nothing piece member)

/-- A read that delivers something delivers the first piece and leaves the others. -/
theorem pieces_read {source : Source} (delivered : ¬source.read.1.isEmpty = true) :
    source.pieces = source.read.1 :: source.read.2.pieces := by
  match source with
  | [] => exact absurd rfl delivered
  | none :: rest => exact absurd rfl delivered
  | some chunk :: rest =>
      by_cases last : (chunk.drop readSize).isEmpty = true
      · rw [read_whole last] at delivered ⊢
        have whole : chunk.take readSize = chunk := by
          have joined := List.take_append_drop readSize chunk
          rwa [List.isEmpty_iff.mp last, List.append_nil] at joined
        rw [pieces, if_neg delivered, cut_of_nonempty delivered, List.isEmpty_iff.mp last, cut_nil,
          whole, List.singleton_append]
      · have something : ¬chunk.isEmpty = true := by
          intro empty
          rw [List.isEmpty_iff.mp empty] at last
          exact last rfl
        rw [read_part last, pieces, if_neg something, cut_of_nonempty something, pieces,
          if_neg last, List.cons_append]

end Source

/-! ### Transfers of pieces -/

/-- Transfer pieces, as `transferFrom` does with those that a source delivers. -/
def transferPieces (margin : Margin) (faults : Faults) (count : Nat) (state : State) :
    List Bytes → Transcript
  | [] =>
      if faults.read = some count then { reads := 1, failure := some .readFailed }
      else { finish faults state with reads := 1 }
  | piece :: rest =>
      if faults.read = some count then { reads := 1, failure := some .readFailed }
      else
        match run margin state piece with
        | .error error => { reads := 1, failure := some (.step error) }
        | .ok (after, written) =>
            if faults.write = some count then { reads := 1, failure := some .writeFailed }
            else
              let later := transferPieces margin faults (count + 1) after rest
              { later with reads := later.reads + 1, writes := written :: later.writes }

/-- A transfer knows nothing of its source but the pieces. -/
theorem transferFrom_eq_transferPieces (margin : Margin) (faults : Faults) (count : Nat)
    (state : State) (source : Source) :
    transferFrom margin faults count state source =
      transferPieces margin faults count state source.pieces := by
  induction left : source.size using Nat.strongRecOn generalizing count state source with
  | ind size later =>
      rw [transferFrom]
      by_cases ended : source.read.1.isEmpty = true
      · rw [dif_pos ended, Source.pieces_of_read_empty ended, transferPieces]
      · have less := Source.size_read (by simpa using ended)
        rw [dif_neg ended, Source.pieces_read ended, transferPieces]
        cases run margin state source.read.1 with
        | error error => rfl
        | ok outcome =>
            simp only
            rw [later source.read.2.size (by omega) _ _ source.read.2 rfl]

section Undisturbed

variable {margin : Margin} {state after final : State} {piece : Bytes} {pieces : List Bytes}
  {written : Bytes}

/-- A piece that is read and written stands in front of the transfer of the others. -/
theorem transferPieces_cons {faults : Faults} {count : Nat} (readable : faults.read ≠ some count)
    (writable : faults.write ≠ some count) (now : run margin state piece = .ok (after, written))
    (rest : List Bytes) :
    transferPieces margin faults count state (piece :: rest) =
      { transferPieces margin faults (count + 1) after rest with
        reads := (transferPieces margin faults (count + 1) after rest).reads + 1
        writes := written :: (transferPieces margin faults (count + 1) after rest).writes } := by
  rw [transferPieces, if_neg readable, now]
  exact if_neg writable

/-- What is written for each of some pieces, up to one that cannot be written. -/
def writesOf (margin : Margin) (state : State) : List Bytes → List Bytes
  | [] => []
  | piece :: rest =>
      match run margin state piece with
      | .error _ => []
      | .ok (after, written) => written :: writesOf margin after rest

theorem writesOf_cons (now : run margin state piece = .ok (after, written)) (rest : List Bytes) :
    writesOf margin state (piece :: rest) = written :: writesOf margin after rest := by
  rw [writesOf, now]

/-- Pieces that can be written all have a write, and together these are what a run over all their
bytes writes. -/
theorem writesOf_of_run (returned : run margin state pieces.flatten = .ok (final, written)) :
    (writesOf margin state pieces).length = pieces.length ∧
      (writesOf margin state pieces).flatten = written := by
  induction pieces generalizing state written with
  | nil =>
      cases returned
      exact ⟨rfl, rfl⟩
  | cons piece rest later =>
      obtain ⟨middle, first, following, now, afterwards, rfl⟩ := run_append_eq_ok returned
      obtain ⟨length, joined⟩ := later afterwards
      rw [writesOf_cons now, List.length_cons, List.length_cons, length, List.flatten_cons, joined]
      exact ⟨rfl, rfl⟩

/-- Where nothing fails, every piece is read and written, and the end is read and flushed. -/
theorem transferPieces_of_run (count : Nat)
    (returned : run margin state pieces.flatten = .ok (final, written)) :
    transferPieces margin {} count state pieces =
      { reads := pieces.length + 1, writes := writesOf margin state pieces, flushes := 1,
        notes := final.endNotes } := by
  induction pieces generalizing count state written with
  | nil =>
      cases returned
      rfl
  | cons piece rest later =>
      obtain ⟨middle, first, following, now, afterwards, rfl⟩ := run_append_eq_ok returned
      rw [transferPieces_cons (by simp) (by simp) now, later (count + 1) afterwards,
        writesOf_cons now, List.length_cons]

/-- A write that fails comes after its read and after the writes before it, and before all else. -/
theorem transferPieces_of_failed_write (count : Nat)
    (returned : run margin state pieces.flatten = .ok (final, written)) {index : Nat}
    (within : index < pieces.length) :
    transferPieces margin { write := some (count + index) } count state pieces =
      { reads := index + 1, writes := (writesOf margin state pieces).take index,
        failure := some .writeFailed } := by
  induction pieces generalizing count state written index with
  | nil => cases within
  | cons piece rest later =>
      obtain ⟨middle, first, following, now, afterwards, rfl⟩ := run_append_eq_ok returned
      cases index with
      | zero =>
          rw [transferPieces, if_neg (by simp), now, List.take_zero]
          exact if_pos rfl
      | succ index =>
          have rest_within : index < rest.length := Nat.lt_of_succ_lt_succ within
          have shifted : count + (index + 1) = count + 1 + index := by omega
          rw [transferPieces_cons (by simp) (by simp) now, writesOf_cons now, shifted,
            later (count + 1) afterwards rest_within, List.take_succ_cons]

/-- A read that fails comes after the reads and writes of the pieces before it, and before all
else. -/
theorem transferPieces_of_failed_read (count : Nat)
    (returned : run margin state pieces.flatten = .ok (final, written)) {index : Nat}
    (within : index ≤ pieces.length) :
    transferPieces margin { read := some (count + index) } count state pieces =
      { reads := index + 1, writes := (writesOf margin state pieces).take index,
        failure := some .readFailed } := by
  induction pieces generalizing count state written index with
  | nil =>
      have first : index = 0 := Nat.le_zero.mp within
      rw [first, transferPieces, if_pos (by simp), List.take_zero]
  | cons piece rest later =>
      obtain ⟨middle, first, following, now, afterwards, rfl⟩ := run_append_eq_ok returned
      cases index with
      | zero => rw [transferPieces, if_pos (by simp), List.take_zero]
      | succ index =>
          have rest_within : index ≤ rest.length := Nat.le_of_succ_le_succ within
          have shifted : count + (index + 1) = count + 1 + index := by omega
          rw [transferPieces_cons (by simp) (by simp) now, writesOf_cons now, shifted,
            later (count + 1) afterwards rest_within, List.take_succ_cons]

/-- Behind the end nothing is read, so nothing can fail there. -/
theorem transferPieces_of_late_fault (count : Nat) {index : Nat} (behind : pieces.length < index) :
    transferPieces margin { read := some (count + index) } count state pieces =
      transferPieces margin {} count state pieces := by
  induction pieces generalizing count state index with
  | nil =>
      have later : count + index ≠ count := by
        rw [List.length_nil] at behind
        omega
      rw [transferPieces, transferPieces, if_neg (by simpa using later), if_neg (by simp)]
      rfl
  | cons piece rest later =>
      obtain ⟨index, rfl⟩ := Nat.exists_eq_add_one_of_ne_zero (Nat.ne_zero_of_lt behind)
      have rest_behind : rest.length < index := Nat.lt_of_succ_lt_succ behind
      have shifted : count + (index + 1) = count + 1 + index := by omega
      simp only [transferPieces]
      rw [if_neg (by simp), if_neg (by simp)]
      cases run margin state piece with
      | error error => rfl
      | ok outcome =>
          simp only
          rw [if_neg (by simp), if_neg (by simp), shifted, later (count + 1) rest_behind]

end Undisturbed

/-- A transfer whose line breaks can all be written makes one read and one write for each piece of
its source, one read more and one flush.  Each write follows its own read, the flush follows the
last write, and behind the end nothing is read: this is what transfers are like that are stopped at
a read or a write.  All that is written, and the remarks, are those of one run over the content, so
another source with the same content makes no difference to them. -/
theorem transfer_of_renders {margin : Margin} {source : Source}
    (renders : margin.Renders .initial source.content) :
    source.pieces.flatten = source.content ∧
      (∀ piece ∈ source.pieces, piece ≠ [] ∧ piece.length ≤ Source.readSize) ∧
      ∃ final written writes, run margin .initial source.content = .ok (final, written) ∧
        writes.length = source.pieces.length ∧ writes.flatten = written ∧
        transfer margin {} source =
          { reads := source.pieces.length + 1, writes, flushes := 1, notes := final.endNotes } ∧
        (∀ index < source.pieces.length, transfer margin { write := some index } source =
          { reads := index + 1, writes := writes.take index, failure := some .writeFailed }) ∧
        (∀ index ≤ source.pieces.length, transfer margin { read := some index } source =
          { reads := index + 1, writes := writes.take index, failure := some .readFailed }) ∧
        (∀ index > source.pieces.length,
          transfer margin { read := some index } source = transfer margin {} source) ∧
        ∀ other : Source, other.content = source.content →
          (transfer margin {} other).output = written ∧
            (transfer margin {} other).notes = final.endNotes := by
  obtain ⟨final, written, returned⟩ : ∃ final written,
      run margin .initial source.content = .ok (final, written) :=
    ⟨_, _, run_of_renders renders⟩
  have whole : ∀ other : Source, other.content = source.content →
      run margin .initial other.pieces.flatten = .ok (final, written) := by
    intro other same
    rw [other.flatten_pieces, same]
    exact returned
  have as_pieces : ∀ faults, transfer margin faults source =
      transferPieces margin faults 0 .initial source.pieces :=
    fun faults => transferFrom_eq_transferPieces margin faults 0 .initial source
  obtain ⟨length, joined⟩ := writesOf_of_run (whole source rfl)
  refine ⟨source.flatten_pieces, fun piece => Source.mem_pieces, final, written,
    writesOf margin .initial source.pieces, returned, length, joined, ?_, ?_, ?_, ?_, ?_⟩
  · rw [as_pieces, transferPieces_of_run 0 (whole source rfl)]
  · intro index within
    rw [as_pieces, ← transferPieces_of_failed_write 0 (whole source rfl) within, Nat.zero_add]
  · intro index within
    rw [as_pieces, ← transferPieces_of_failed_read 0 (whole source rfl) within, Nat.zero_add]
  · intro index behind
    rw [as_pieces, as_pieces, ← transferPieces_of_late_fault 0 behind, Nat.zero_add]
  · intro other same
    rw [transfer, transferFrom_eq_transferPieces, transferPieces_of_run 0 (whole other same)]
    exact ⟨(writesOf_of_run (whole other same)).2, rfl⟩

/-- An escape and a two-byte symbol that are split between chunks, and a chunk behind the end. -/
theorem transfer_of_renders_of_split_symbols :
    (⟨.standard, .ordinary⟩ : Margin).Renders .initial
        (Source.content [some [0x5B, 0x22, 0x5C], some [0x22, 0xC3], some [0xA9], none, some []]) ∧
      (transfer ⟨.standard, .ordinary⟩ {}
        [some [0x5B, 0x22, 0x5C], some [0x22, 0xC3], some [0xA9], none, some []]).reads = 4 ∧
      (transfer ⟨.standard, .ordinary⟩ {} [some [0x5B, 0x22, 0x5C, 0x22, 0xC3, 0xA9]]).output =
        [0x5B, 0x0A, 0x20, 0x20, 0x22, 0x5C, 0x22, 0xC3, 0xA9] := by
  have returned : run ⟨.standard, .ordinary⟩ .initial
      (Source.content [some [0x5B, 0x22, 0x5C], some [0x22, 0xC3], some [0xA9], none, some []]) =
        .ok ({ mode := .string, level := 1 },
          [0x5B, 0x0A, 0x20, 0x20, 0x22, 0x5C, 0x22, 0xC3, 0xA9]) := rfl
  have renders := (run_eq_ok_iff.mp returned).1
  obtain ⟨-, -, final, written, writes, again, -, -, transcript, -, -, -, others⟩ :=
    transfer_of_renders renders
  rw [returned] at again
  cases again
  have count : (Source.pieces [some [0x5B, 0x22, 0x5C], some [0x22, 0xC3], some [0xA9], none,
      some []]).length = 3 := by decide +kernel
  refine ⟨renders, ?_, (others [some [0x5B, 0x22, 0x5C, 0x22, 0xC3, 0xA9]] rfl).1⟩
  rw [transcript, count]

end Reindent
