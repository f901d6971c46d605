import TelemtPanel.Library.Lines
import TelemtPanel.Library.Utf8

/-!
# The cursor of a followed log file

The follower reads what was appended to a file since the last poll and passes on
the lines that are complete.  Its cursor keeps the offset up to which bytes were
consumed, the bounded beginning of the line that is not complete yet, whether more
of that line was left out, and the last bytes in front of the offset.  These are
read again with every read: when they changed, the file is another one.

A call of `readNewLines` may end inside a chunk, because its context is done while
a line is passed on, or with an error of a read.  The cursor then says where the
next call goes on.
-/

namespace TelemtPanel.Host

open TelemtPanel.Library

/-- `tailOverlapBytes`. -/
def tailOverlapBytes : ℕ := 256

/-- `maxTailBytes`. -/
def maxTailBytes : ℕ := 256 * 1024

/-- `followChunkBytes`. -/
def followChunkBytes : ℕ := 32 * 1024

/-- `maxFollowLineBytes`. -/
def maxFollowLineBytes : ℕ := maxTailBytes

/-- `followLineMarker`. -/
def followLineMarker : List UInt8 := " [line truncated after 262144 bytes]".toUTF8.data.toList

/-- The byte `'\n'`. -/
def newline : UInt8 := 10

/-- Errors of a call, or of a read of the file. -/
inductive ReadError where
  | eof
  | shortBuffer
  | noProgress
  | cancelled
  | failed (reason : String)
  deriving DecidableEq, Repr

/-- What `ReadAt` reports for a buffer of a width. -/
structure Reading (width : ℕ) where
  data : List UInt8
  error : Option ReadError
  fits : data.length ≤ width

/-- `fileFollowCursor`, with `overlap[:overlapLen]` as one list. -/
structure FileFollowCursor where
  offset : ℕ
  partial_ : List UInt8
  truncated : Bool
  overlap : List UInt8
  deriving DecidableEq, Repr

namespace FileFollowCursor

/-- `fileFollowCursor.reset`. -/
def reset : FileFollowCursor := ⟨0, [], false, []⟩

/-- `fileFollowCursor.remember`: the last bytes of the consumed buffer. -/
def remember (c : FileFollowCursor) (consumed : List UInt8) : FileFollowCursor :=
  { c with overlap := consumed.drop (consumed.length - tailOverlapBytes) }

/-- Bytes of the current line are consumed; those over the limit are not kept. -/
def hold (c : FileFollowCursor) (piece : List UInt8) : FileFollowCursor :=
  let keep := min piece.length (maxFollowLineBytes - c.partial_.length)
  { c with
    offset := c.offset + piece.length
    partial_ := c.partial_ ++ piece.take keep
    truncated := c.truncated || decide (keep < piece.length) }

/-- The line that is passed on at its newline. -/
def line (c : FileFollowCursor) : List UInt8 :=
  if c.truncated then trimUnfinished c.partial_ ++ followLineMarker else c.partial_

/-- The newline is consumed. -/
def endLine (c : FileFollowCursor) : FileFollowCursor :=
  { c with offset := c.offset + 1, partial_ := [], truncated := false }

end FileFollowCursor

/-- What the inner loop of `readNewLines` makes of a chunk: the cursor, the lines passed to `emit`,
and what is left of the chunk when `emit` returned false. -/
structure Consumed where
  cursor : FileFollowCursor
  lines : List (List UInt8)
  rest : List UInt8
  stopped : Bool

/-- The inner loop of `readNewLines`.  `emit` answers the lines of a call by their number. -/
def consume (emit : ℕ → Bool) (emitted : ℕ) (chunk : List UInt8) (c : FileFollowCursor) :
    Consumed :=
  match found : chunk.dropWhile (· ≠ newline) with
  | [] => ⟨c.hold chunk, [], [], false⟩
  | _ :: rest =>
      let held := c.hold (chunk.takeWhile (· ≠ newline))
      if emit emitted then
        let more := consume emit (emitted + 1) rest held.endLine
        { more with lines := held.line :: more.lines }
      else ⟨held.endLine, [held.line], rest, true⟩
termination_by chunk.length
decreasing_by
  have whole := congrArg List.length
    (List.takeWhile_append_dropWhile (p := (· ≠ newline)) (l := chunk))
  rw [found, List.length_append, List.length_cons] at whole
  omega

/-- The line that is passed on for the bytes in front of a newline. -/
def followLine (line : List UInt8) : List UInt8 :=
  if maxFollowLineBytes < line.length then
    trimUnfinished (line.take maxFollowLineBytes) ++ followLineMarker
  else line

/-- What the cursor keeps of a text that was consumed: the bounded beginning of its open line. -/
structure FileFollowCursor.Fed (c : FileFollowCursor) (text : List UInt8) : Prop where
  partial_ : c.partial_ = (openLine newline text).take maxFollowLineBytes
  truncated : c.truncated = decide (maxFollowLineBytes < (openLine newline text).length)

namespace FileFollowCursor.Fed

variable {c : FileFollowCursor} {text piece : List UInt8}

theorem reset : FileFollowCursor.reset.Fed [] := by
  refine ⟨?_, ?_⟩
  · rw [openLine_nil]
    rfl
  · rw [openLine_nil]
    rfl

theorem bounded (fed : c.Fed text) : c.partial_.length ≤ maxFollowLineBytes := by
  rw [fed.partial_]
  exact List.length_take_le _ _

/-- Bytes without a newline go to the open line, up to the limit. -/
theorem hold (fed : c.Fed text) (noNewline : newline ∉ piece) :
    (c.hold piece).Fed (text ++ piece) := by
  have opened := (@lines_append_piece _ _ _ text _ noNewline).2
  have kept : c.partial_.length = min maxFollowLineBytes (openLine newline text).length := by
    rw [fed.partial_, List.length_take]
  refine ⟨?_, ?_⟩
  · rw [opened, List.take_append, ← fed.partial_]
    exact congrArg (c.partial_ ++ ·) (List.take_eq_take_iff.mpr (by omega))
  · rw [opened, List.length_append]
    simp only [FileFollowCursor.hold, fed.truncated]
    rw [Bool.eq_iff_iff, Bool.or_eq_true, decide_eq_true_iff, decide_eq_true_iff,
      decide_eq_true_iff]
    omega

theorem line (fed : c.Fed text) : c.line = followLine (openLine newline text) := by
  unfold FileFollowCursor.line followLine
  rw [fed.truncated, fed.partial_]
  simp only [decide_eq_true_eq]
  split
  · rfl
  · exact List.take_of_length_le (by omega)

theorem endLine (c : FileFollowCursor) (text : List UInt8) :
    c.endLine.Fed (text ++ [newline]) := by
  have opened := (lines_append_sep newline text).2
  refine ⟨?_, ?_⟩
  · rw [opened]
    rfl
  · rw [opened]
    rfl

end FileFollowCursor.Fed

/-- What the inner loop takes from a chunk. -/
structure Consumed.Takes (out : Consumed) (c : FileFollowCursor) (chunk taken : List UInt8) :
    Prop where
  whole : chunk = taken ++ out.rest
  offset : out.cursor.offset = c.offset + taken.length
  overlap : out.cursor.overlap = c.overlap
  rest : out.stopped = false → out.rest = []
  fed : ∀ text, c.Fed text → out.cursor.Fed (text ++ taken) ∧
    (closedLines newline (text ++ taken)).map followLine =
      (closedLines newline text).map followLine ++ out.lines

/-- A chunk that holds a newline, split at the first one. -/
theorem pieces_of_found {chunk rest : List UInt8} {b : UInt8}
    (found : chunk.dropWhile (· ≠ newline) = b :: rest) :
    b = newline ∧ newline ∉ chunk.takeWhile (· ≠ newline) ∧
      chunk = chunk.takeWhile (· ≠ newline) ++ newline :: rest := by
  have isNewline := List.head?_dropWhile_not (· ≠ newline) chunk
  rw [found] at isNewline
  have same : b = newline := by simpa using isNewline
  refine ⟨same, ?_, ?_⟩
  · intro mem
    have other := List.mem_takeWhile_imp mem
    simp at other
  · subst same
    rw [← found, List.takeWhile_append_dropWhile]

theorem consume_takes (emit : ℕ → Bool) (emitted : ℕ) (chunk : List UInt8) (c : FileFollowCursor) :
    ∃ taken, (consume emit emitted chunk c).Takes c chunk taken := by
  fun_induction consume emit emitted chunk c with
  | case1 emitted chunk c none =>
      refine ⟨chunk, ⟨(List.append_nil _).symm, rfl, rfl, fun _ => rfl, ?_⟩⟩
      intro text fed
      have noNewline : newline ∉ chunk := by
        intro mem
        have all := List.dropWhile_eq_nil_iff.mp none newline mem
        simp at all
      refine ⟨fed.hold noNewline, ?_⟩
      rw [(lines_append_piece noNewline).1, List.append_nil]
  | case2 emitted chunk c b rest found held accepted more ih =>
      rcases ih with ⟨taken, takes⟩
      rcases pieces_of_found found with ⟨rfl, noNewline, same⟩
      refine ⟨chunk.takeWhile (· ≠ newline) ++ newline :: taken, ⟨?_, ?_, takes.overlap,
        takes.rest, ?_⟩⟩
      · rw [List.append_assoc, List.cons_append, ← takes.whole]
        exact same
      · rw [List.length_append, List.length_cons]
        refine takes.offset.trans ?_
        simp only [held, FileFollowCursor.endLine, FileFollowCursor.hold]
        omega
      · intro text fed
        have heldFed := fed.hold noNewline
        have further := takes.fed _ (FileFollowCursor.Fed.endLine held
          (text ++ chunk.takeWhile (· ≠ newline)))
        have same : text ++ (chunk.takeWhile (· ≠ newline) ++ newline :: taken) =
            text ++ chunk.takeWhile (· ≠ newline) ++ [newline] ++ taken := by simp
        rw [same]
        refine ⟨further.1, ?_⟩
        rw [further.2, (lines_append_sep newline _).1, List.map_append,
          (lines_append_piece noNewline).1, List.map_singleton, ← heldFed.line, List.append_assoc]
        rfl
  | case3 emitted chunk c b rest found held refused =>
      rcases pieces_of_found found with ⟨rfl, noNewline, same⟩
      refine ⟨chunk.takeWhile (· ≠ newline) ++ [newline], ⟨?_, ?_, rfl, fun stopped => ?_, ?_⟩⟩
      · simpa using same
      · rw [List.length_append]
        simp only [held, FileFollowCursor.endLine, FileFollowCursor.hold, List.length_singleton]
        omega
      · cases stopped
      · intro text fed
        have heldFed := fed.hold noNewline
        rw [← List.append_assoc]
        refine ⟨.endLine held _, ?_⟩
        rw [(lines_append_sep newline _).1, List.map_append, (lines_append_piece noNewline).1,
          List.map_singleton, ← heldFed.line]

/-- The arguments of one call of `readNewLines` apart from the cursor, and what surrounds it: when
its context is done, what the reads report, and how `emit` answers.  Rounds of the loop and lines
are numbered. -/
structure FollowCall where
  end_ : ℕ
  /-- Length of the scratch buffer. -/
  scratch : ℕ
  cancelled : ℕ → Bool
  readAt : (round offset width : ℕ) → Reading width
  emit : ℕ → Bool
  /-- Whether the context is done when `emit` has returned false. -/
  cancelledInEmit : Bool

/-- How a round of the loop ends: the loop goes on, or the call returns. -/
inductive Round where
  | next (cursor : FileFollowCursor) (lines : List (List UInt8))
  | done (cursor : FileFollowCursor) (lines : List (List UInt8)) (error : Option ReadError)

namespace FollowCall

/-- Width of a read. -/
def width (call : FollowCall) (c : FileFollowCursor) : ℕ :=
  min (min call.scratch followChunkBytes) (call.end_ - c.offset + c.overlap.length)

/-- The read of a round: the remembered bytes again, and what follows them. -/
def reading (call : FollowCall) (round : ℕ) (c : FileFollowCursor) : Reading (call.width c) :=
  call.readAt round (c.offset - c.overlap.length) (call.width c)

/-- One round of the loop of `readNewLines`. -/
def readRound (call : FollowCall) (round emitted : ℕ) (c : FileFollowCursor) : Round :=
  if call.cancelled round then .done c [] (some .cancelled)
  else
    let read := call.reading round c
    if read.data.length < c.overlap.length then
      match read.error with
      | some .eof => .done .reset [] none
      | some error => .done c [] (some error)
      | none => .done c [] (some .noProgress)
    else if read.data.take c.overlap.length ≠ c.overlap then .done .reset [] none
    else
      let out := consume call.emit emitted (read.data.drop c.overlap.length) c
      if out.stopped then
        .done (out.cursor.remember (read.data.take (read.data.length - out.rest.length)))
          out.lines (if call.cancelledInEmit then some .cancelled else none)
      else
        let next := out.cursor.remember read.data
        match read.error with
        | some error => .done next out.lines (some error)
        | none =>
            if read.data.length = c.overlap.length then .done next out.lines (some .noProgress)
            else .next next out.lines

end FollowCall

end TelemtPanel.Host
