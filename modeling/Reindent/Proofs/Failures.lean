import Reindent.Proofs.Chunks
import Reindent.Proofs.FixedPoint

/-!
Transfers that fail.

A transfer stops at the first thing that fails: a read, a line break of the piece just read, the
write of that piece, or the flush at the end.  A piece is either written as a whole or not at all,
so what was written before is the layout of the pieces before.  Layout never takes back what it has
told, so that is also the front of the layout of everything those pieces may go on with.

Main statement: when a transfer fails, and what it leaves behind (`transfer_failure`).
-/

namespace Reindent

/-! ### What is told stays told -/

/-- Pieces in front are written in front. -/
theorem Margin.isPrefix_of_write {margin : Margin} {front back : List Piece} {first whole : Bytes}
    (written_front : margin.write front = .ok first)
    (written_whole : margin.write (front ++ back) = .ok whole) : first <+: whole := by
  rw [margin.eq_of_write written_front, margin.eq_of_write written_whole, List.flatMap_append]
  exact List.prefix_append _ _

/-- The layout of a byte sequence is the front of the layout of whatever continues it. -/
theorem reindentBytes_isPrefix {margin : Margin} {front whole : Bytes}
    (laid_front : reindentBytes margin front = .ok whole) {more formatted : Bytes}
    (laid_more : reindentBytes margin (front ++ more) = .ok formatted) : whole <+: formatted := by
  unfold reindentBytes at laid_front laid_more
  rw [State.trace_append] at laid_more
  exact margin.isPrefix_of_write laid_front laid_more

/-! ### What stops a transfer -/

/-- Why a transfer stops at the front of what remains, once `count` pieces are transferred and
layout stands in a state.  Where several things would fail, the first one in time does: the read
before the layout of its piece, and this before the write. -/
inductive Stops (margin : Margin) (faults : Faults) (count : Nat) (state : State) :
    List Bytes → StreamError → Prop where
  | read {rest : List Bytes} (failing : faults.read = some count) :
      Stops margin faults count state rest .readFailed
  | step {piece : Bytes} {rest : List Bytes} {error : StepError}
      (readable : faults.read ≠ some count) (failing : run margin state piece = .error error) :
      Stops margin faults count state (piece :: rest) (.step error)
  | write {piece : Bytes} {rest : List Bytes} {after : State} {written : Bytes}
      (readable : faults.read ≠ some count)
      (returned : run margin state piece = .ok (after, written))
      (failing : faults.write = some count) :
      Stops margin faults count state (piece :: rest) .writeFailed
  | flush (readable : faults.read ≠ some count) (failing : faults.flush = true) :
      Stops margin faults count state [] .flushFailed

/-- Pieces are cut where a transfer of them fails: those that are done have been read and written,
and the transfer stops at the front of the others.  `count` pieces were transferred before. -/
structure FailsAfter (margin : Margin) (faults : Faults) (count : Nat) (state : State)
    (pieces : List Bytes) (error : StreamError) (done rest : List Bytes) (after : State)
    (output : Bytes) : Prop where
  cut : pieces = done ++ rest
  undisturbed : ∀ index < done.length,
    faults.read ≠ some (count + index) ∧ faults.write ≠ some (count + index)
  returned : run margin state done.flatten = .ok (after, output)
  stops : Stops margin faults (count + done.length) after rest error

section Failing

variable {margin : Margin} {faults : Faults} {count : Nat} {state after : State}
  {pieces done rest : List Bytes} {error : StreamError} {output : Bytes}

/-- The transcript of a transfer that stops at once. -/
theorem transferPieces_of_stops (stops : Stops margin faults count state pieces error) :
    transferPieces margin faults count state pieces =
      { reads := 1, flushes := if error = .flushFailed then 1 else 0, failure := some error } := by
  cases stops with
  | read failing =>
      cases pieces with
      | nil => exact if_pos failing
      | cons piece rest => exact if_pos failing
  | step readable failing =>
      rw [transferPieces, if_neg readable, failing]
      rfl
  | write readable returned failing =>
      rw [transferPieces, if_neg readable, returned]
      exact if_pos failing
  | flush readable failing =>
      rw [transferPieces, if_neg readable, finish, if_pos failing]
      rfl

/-- A piece that is transferred stands in front of those that are done. -/
theorem failsAfter_cons {piece first following : Bytes} {middle : State}
    (readable : faults.read ≠ some count) (writable : faults.write ≠ some count)
    (now : run margin state piece = .ok (middle, first)) :
    FailsAfter margin faults count state (piece :: pieces) error (piece :: done) rest after
        (first ++ following) ↔
      FailsAfter margin faults (count + 1) middle pieces error done rest after following := by
  have shifted : ∀ index, count + (index + 1) = count + 1 + index := by
    intro index
    omega
  constructor
  · rintro ⟨cut, undisturbed, returned, stops⟩
    refine ⟨List.tail_eq_of_cons_eq cut, ?_, ?_, ?_⟩
    · intro index within
      rw [← shifted]
      exact undisturbed (index + 1) (Nat.succ_lt_succ within)
    · rw [List.flatten_cons, run_append, now] at returned
      simp only at returned
      cases others : run margin middle done.flatten with
      | error cause =>
          rw [others] at returned
          cases returned
      | ok outcome =>
          obtain ⟨final, behind⟩ := outcome
          rw [others] at returned
          simpa using returned
    · rw [← shifted]
      exact stops
  · rintro ⟨rfl, undisturbed, returned, stops⟩
    refine ⟨rfl, ?_, ?_, ?_⟩
    · intro index within
      cases index with
      | zero => exact ⟨readable, writable⟩
      | succ index =>
          rw [shifted]
          exact undisturbed index (Nat.lt_of_succ_lt_succ within)
    · rw [List.flatten_cons, run_append, now]
      simp only [returned]
    · rw [List.length_cons, shifted]
      exact stops

/-- The transcript of a transfer that fails: the pieces that are done have their writes, and a flush
is made only if it is what fails. -/
theorem FailsAfter.transcript
    (fails : FailsAfter margin faults count state pieces error done rest after output) :
    transferPieces margin faults count state pieces =
      { reads := done.length + 1, writes := writesOf margin state done,
        flushes := if error = .flushFailed then 1 else 0, failure := some error } := by
  induction done generalizing count state pieces output with
  | nil =>
      obtain ⟨rfl, -, returned, stops⟩ := fails
      cases returned
      exact transferPieces_of_stops stops
  | cons piece others later =>
      obtain ⟨readable, writable⟩ : faults.read ≠ some count ∧ faults.write ≠ some count :=
        fails.undisturbed 0 (Nat.succ_pos _)
      obtain ⟨middle, first, following, now, -, rfl⟩ := run_append_eq_ok fails.returned
      obtain rfl := fails.cut
      rw [List.cons_append] at fails ⊢
      have behind := (failsAfter_cons readable writable now).mp fails
      rw [transferPieces_cons readable writable now, later behind, writesOf_cons now,
        List.length_cons]

/-- Every transfer that fails has a place where it does. -/
theorem failsAfter_of_failure
    (failed : (transferPieces margin faults count state pieces).failure = some error) :
    ∃ done rest after output,
      FailsAfter margin faults count state pieces error done rest after output := by
  have at_once : ∀ {count state pieces}, Stops margin faults count state pieces error →
      FailsAfter margin faults count state pieces error [] pieces state [] :=
    fun stops => ⟨rfl, by simp, rfl, stops⟩
  induction pieces generalizing count state with
  | nil =>
      by_cases failing : faults.read = some count
      · rw [transferPieces, if_pos failing] at failed
        cases failed
        exact ⟨_, _, _, _, at_once (.read failing)⟩
      · rw [transferPieces, if_neg failing, finish] at failed
        by_cases flushing : faults.flush = true
        · rw [if_pos flushing] at failed
          cases failed
          exact ⟨_, _, _, _, at_once (.flush failing flushing)⟩
        · rw [if_neg flushing] at failed
          cases failed
  | cons piece rest later =>
      by_cases failing : faults.read = some count
      · rw [transferPieces, if_pos failing] at failed
        cases failed
        exact ⟨_, _, _, _, at_once (.read failing)⟩
      · cases now : run margin state piece with
        | error cause =>
            rw [transferPieces, if_neg failing, now] at failed
            cases failed
            exact ⟨_, _, _, _, at_once (.step failing now)⟩
        | ok outcome =>
            obtain ⟨middle, first⟩ := outcome
            by_cases writing : faults.write = some count
            · rw [transferPieces, if_neg failing, now] at failed
              simp only [if_pos writing] at failed
              cases failed
              exact ⟨_, _, _, _, at_once (.write failing now writing)⟩
            · -- The piece is transferred, so the failure is one of the transfer of the others.
              rw [transferPieces_cons failing writing now] at failed
              obtain ⟨done, others, after, following, fails⟩ := later failed
              exact ⟨_, _, _, _, (failsAfter_cons failing writing now).mpr fails⟩

end Failing

/-- A transfer fails exactly if there is a place where it stops, and there the error that stops it
is reported as it is.  It has then made one write for each piece before that place and none for
anything behind it, has made no remark, and has flushed only if the flush is what failed.  All that
it has written is the layout of the pieces before, which is the front of the layout of everything
that starts with them. -/
theorem transfer_failure {margin : Margin} {faults : Faults} {source : Source}
    {error : StreamError} :
    ((transfer margin faults source).failure = some error ↔
        ∃ done rest state output,
          FailsAfter margin faults 0 .initial source.pieces error done rest state output) ∧
      ∀ done rest state output,
        FailsAfter margin faults 0 .initial source.pieces error done rest state output →
          transfer margin faults source =
              { reads := done.length + 1, writes := writesOf margin .initial done,
                flushes := if error = .flushFailed then 1 else 0, notes := [],
                failure := some error } ∧
            (writesOf margin .initial done).length = done.length ∧
            (transfer margin faults source).output = output ∧
            reindentBytes margin done.flatten = .ok output ∧
            ∀ more formatted, reindentBytes margin (done.flatten ++ more) = .ok formatted →
              output <+: formatted := by
  have as_pieces : transfer margin faults source =
      transferPieces margin faults 0 .initial source.pieces :=
    transferFrom_eq_transferPieces margin faults 0 .initial source
  rw [as_pieces]
  constructor
  · constructor
    · exact failsAfter_of_failure
    · rintro ⟨done, rest, state, output, fails⟩
      rw [fails.transcript]
  · intro done rest state output fails
    obtain ⟨length, joined⟩ := writesOf_of_run fails.returned
    have laid : reindentBytes margin done.flatten = .ok output := by
      rw [reindentBytes_eq_run, fails.returned]
    refine ⟨fails.transcript, length, ?_, laid, ?_⟩
    · rw [fails.transcript]
      exact joined
    · intro more formatted
      exact reindentBytes_isPrefix laid

/-- The second piece needs a line break that cannot be written: nothing of it is written, not even
the newline or the comma before the break. -/
theorem transfer_failure_of_broken_unit :
    ∃ run : SurrogateRun,
      FailsAfter ⟨.custom [.ofNat 0xD800], .unbounded⟩ { read := some 2 } 0 .initial
          (Source.pieces [some [0x5B, 0x20], some [0x31, 0x2C], some [0x32]])
          (.step (.lineBreak (.unencodable run))) [[0x5B, 0x20]] [[0x31, 0x2C], [0x32]]
          { level := 1, breakPending := true, openerPending := true } [0x5B] ∧
        (transfer ⟨.custom [.ofNat 0xD800], .unbounded⟩ { read := some 2 }
          [some [0x5B, 0x20], some [0x31, 0x2C], some [0x32]]).writes = [[0x5B]] ∧
        (transfer ⟨.custom [.ofNat 0xD800], .unbounded⟩ { read := some 2 }
          [some [0x5B, 0x20], some [0x31, 0x2C], some [0x32]]).failure =
            some (.step (.lineBreak (.unencodable run))) := by
  have fails : FailsAfter ⟨.custom [.ofNat 0xD800], .unbounded⟩ { read := some 2 } 0 .initial
      (Source.pieces [some [0x5B, 0x20], some [0x31, 0x2C], some [0x32]])
      (.step (.lineBreak (.unencodable ⟨.ofNat 0xD800, 0, 0⟩))) [[0x5B, 0x20]]
      [[0x31, 0x2C], [0x32]] { level := 1, breakPending := true, openerPending := true }
      [0x5B] := by
    refine ⟨by decide +kernel, by decide, rfl, ?_⟩
    exact .step (by decide) rfl
  obtain ⟨transcript, -⟩ := transfer_failure.2 _ _ _ _ fails
  refine ⟨_, fails, ?_, ?_⟩
  · rw [transcript]
    rfl
  · rw [transcript]

end Reindent
