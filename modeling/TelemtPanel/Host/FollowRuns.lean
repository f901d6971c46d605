import TelemtPanel.Host.FollowCursor
import TelemtPanel.Library.Run

/-!
# Following a file from poll to poll

A call of `readNewLines` repeats its round until the end of the poll is reached or
a round returns.  What one round can do is said once.  From it follows how far a
cursor has come in a content that is only appended to: the open line is what the
cursor keeps of the consumed bytes, the remembered bytes are those in front of the
offset, and the lines that were passed on are the closed ones.

A line over the limit loses the beginning of an encoding at its cut even when the
line does not go on with the rest of it.  So what is passed on is the longest
beginning that separates no rune exactly when no line has such bytes at the limit.
-/

namespace TelemtPanel.Host

open TelemtPanel.Library

variable {call : FollowCall} {c cursor next : FileFollowCursor} {round emitted : ℕ}
  {lines : List (List UInt8)} {error : Option ReadError} {content taken : List UInt8} {start : ℕ}

/-- The cursor and the lines after bytes behind the remembered ones were consumed. -/
structure FileFollowCursor.Consumes (c : FileFollowCursor) (taken : List UInt8)
    (cursor : FileFollowCursor) (lines : List (List UInt8)) : Prop where
  offset : cursor.offset = c.offset + taken.length
  overlap : cursor.overlap =
    (c.overlap ++ taken).drop ((c.overlap ++ taken).length - tailOverlapBytes)
  fed : ∀ text, c.Fed text → cursor.Fed (text ++ taken) ∧
    (closedLines newline (text ++ taken)).map followLine =
      (closedLines newline text).map followLine ++ lines

/-- Something keeps a round from going on. -/
def FollowCall.Disturbed (call : FollowCall) (round : ℕ) (c : FileFollowCursor) : Prop :=
  call.cancelled round = true ∨ (∃ line, call.emit line = false) ∨
    (call.reading round c).error ≠ none ∨ (call.reading round c).data.length ≤ c.overlap.length

/-- What a round can do. -/
inductive FollowCall.Does (call : FollowCall) (round : ℕ) (c : FileFollowCursor) : Round → Prop where
  | kept (error : ReadError) (disturbed : call.Disturbed round c) :
      Does call round c (.done c [] (some error))
  | reset (changed : ¬c.overlap <+: (call.reading round c).data)
      (short : (call.reading round c).data.length < c.overlap.length →
        (call.reading round c).error = some .eof) :
      Does call round c (.done .reset [] none)
  | next {taken : List UInt8} {cursor : FileFollowCursor} {lines : List (List UInt8)}
      (read : c.overlap ++ taken <+: (call.reading round c).data)
      (progress : taken ≠ []) (consumes : c.Consumes taken cursor lines) :
      Does call round c (.next cursor lines)
  | done {taken : List UInt8} {cursor : FileFollowCursor} {lines : List (List UInt8)}
      {error : Option ReadError} (read : c.overlap ++ taken <+: (call.reading round c).data)
      (consumes : c.Consumes taken cursor lines) (disturbed : call.Disturbed round c)
      (refused : error = none → ∃ line, call.emit line = false) :
      Does call round c (.done cursor lines error)

theorem refused_of_stopped {emit : ℕ → Bool} {chunk : List UInt8}
    (stopped : (consume emit emitted chunk c).stopped = true) : ∃ line, emit line = false := by
  fun_induction consume emit emitted chunk c with
  | case1 => cases stopped
  | case2 emitted chunk c b rest found held accepted more ih => exact ih stopped
  | case3 emitted chunk c b rest found held refused =>
      exact ⟨emitted, Bool.not_eq_true _ ▸ refused⟩

namespace FileFollowCursor

@[simp]
theorem remember_offset (c : FileFollowCursor) (bytes : List UInt8) :
    (c.remember bytes).offset = c.offset := by
  simp only [remember]

@[simp]
theorem remember_overlap (c : FileFollowCursor) (bytes : List UInt8) :
    (c.remember bytes).overlap = bytes.drop (bytes.length - tailOverlapBytes) := by
  simp only [remember]

theorem Fed.remember {text : List UInt8} (fed : c.Fed text) (bytes : List UInt8) :
    (c.remember bytes).Fed text := by
  refine ⟨?_, ?_⟩
  · simp only [FileFollowCursor.remember, fed.partial_]
  · simp only [FileFollowCursor.remember, fed.truncated]

end FileFollowCursor

/-- A chunk is consumed, and what was consumed is remembered. -/
theorem Consumed.Takes.consumes {out : Consumed} {chunk : List UInt8}
    (takes : out.Takes c chunk taken) :
    c.Consumes taken (out.cursor.remember (c.overlap ++ taken)) out.lines := by
  refine ⟨?_, ?_, ?_⟩
  · simpa using takes.offset
  · simp
  · intro text fed
    rcases takes.fed text fed with ⟨outFed, closed⟩
    exact ⟨outFed.remember _, closed⟩

theorem FollowCall.readRound_does (call : FollowCall) (round emitted : ℕ) (c : FileFollowCursor) :
    call.Does round c (call.readRound round emitted c) := by
  unfold FollowCall.readRound
  split
  · rename_i cancelled
    exact .kept _ (.inl cancelled)
  · dsimp only
    split
    · rename_i short
      have disturbed : call.Disturbed round c := .inr (.inr (.inr short.le))
      have changed : ¬c.overlap <+: (call.reading round c).data :=
        fun within => absurd within.length_le (not_le.mpr short)
      split
      · rename_i isEof
        exact .reset changed fun _ => isEof
      · exact .kept _ disturbed
      · exact .kept _ disturbed
    · rename_i long
      have inside := not_lt.mp long
      split
      · rename_i differs
        refine .reset ?_ fun short => absurd short long
        intro within
        exact differs (List.prefix_iff_eq_take.mp within).symm
      · rename_i same
        rw [not_not] at same
        rcases consume_takes call.emit emitted ((call.reading round c).data.drop c.overlap.length) c
          with ⟨taken, takes⟩
        have whole : (call.reading round c).data = c.overlap ++ (taken ++
            (consume call.emit emitted ((call.reading round c).data.drop c.overlap.length) c).rest) := by
          rw [← takes.whole]
          conv_rhs => arg 1; rw [← same]
          exact (List.take_append_drop _ _).symm
        have read : c.overlap ++ taken <+: (call.reading round c).data := by
          rw [whole, ← List.append_assoc]
          exact List.prefix_append _ _
        split
        · rename_i stopped
          have kept : (call.reading round c).data.take ((call.reading round c).data.length -
              (consume call.emit emitted ((call.reading round c).data.drop c.overlap.length)
                c).rest.length) = c.overlap ++ taken := by
            have long := congrArg List.length whole
            rw [← List.append_assoc, List.length_append] at long
            rw [long, Nat.add_sub_cancel]
            conv_lhs => arg 2; rw [whole, ← List.append_assoc]
            exact List.take_left
          rw [kept]
          refine .done read takes.consumes (.inr (.inl (refused_of_stopped stopped))) ?_
          exact fun _ => refused_of_stopped stopped
        · rename_i goesOn
          have nothing := takes.rest (Bool.not_eq_true _ ▸ goesOn)
          rw [nothing, List.append_nil] at whole
          have consumes := takes.consumes
          rw [← whole] at consumes
          split
          · rename_i error failed
            refine .done read consumes (.inr (.inr (.inl ?_))) fun none => nomatch none
            rw [failed]
            exact Option.some_ne_none _
          · split
            · rename_i empty
              exact .done read consumes (.inr (.inr (.inr empty.le))) fun none => nomatch none
            · rename_i nonempty
              refine .next read ?_ consumes
              rintro rfl
              exact nonempty (by rw [whole, List.append_nil])

/-- A round that goes on has moved the cursor. -/
theorem FollowCall.readRound_advances
    (goesOn : call.readRound round emitted c = .next next lines) : c.offset < next.offset := by
  have does := call.readRound_does round emitted c
  rw [goesOn] at does
  cases does with
  | next read progress consumes =>
      rw [consumes.offset]
      exact Nat.lt_add_of_pos_right (List.length_pos_iff.mpr progress)

/-- What a call leaves behind: the cursor, the lines that were passed to `emit`, and the error. -/
structure Returned where
  cursor : FileFollowCursor
  lines : List (List UInt8)
  error : Option ReadError

namespace FollowCall

/-- The outer loop of `readNewLines`. -/
def readLoop (call : FollowCall) (round emitted : ℕ) (c : FileFollowCursor) : Returned :=
  if c.offset < call.end_ then
    match goesOn : call.readRound round emitted c with
    | .next next lines =>
        have := readRound_advances goesOn
        let more := call.readLoop (round + 1) (emitted + lines.length) next
        { more with lines := lines ++ more.lines }
    | .done cursor lines error => ⟨cursor, lines, error⟩
  else ⟨c, [], none⟩
termination_by call.end_ - c.offset
decreasing_by omega

/-- `readNewLines`. -/
def readNewLines (call : FollowCall) (c : FileFollowCursor) : Returned :=
  if call.scratch ≤ tailOverlapBytes then ⟨c, [], some .shortBuffer⟩ else call.readLoop 0 0 c

/-- The file is only appended to while a call reads it: each read shows what stands in a beginning
of the content that reaches at least to the end of the poll, and finds the end of the file only
where that beginning ends. -/
def Sees (call : FollowCall) (content : List UInt8) : Prop :=
  ∀ round offset width, ∃ size, call.end_ ≤ size ∧ size ≤ content.length ∧
    (call.readAt round offset width).data <+: (content.take size).drop offset ∧
    ((call.readAt round offset width).error = some .eof →
      size ≤ offset + (call.readAt round offset width).data.length)

/-- Neither the context nor the receiver of the lines ends a call, and each read fills the buffer
from the content. -/
structure Undisturbed (call : FollowCall) (content : List UInt8) : Prop where
  buffer : tailOverlapBytes < call.scratch
  runs : ∀ round, call.cancelled round = false
  accepts : ∀ line, call.emit line = true
  reads : ∀ round offset width, (call.readAt round offset width).error = none ∧
    (call.readAt round offset width).data = (content.drop offset).take width

end FollowCall

/-- Calls one after the other with one cursor. -/
def followCalls : List FollowCall → FileFollowCursor → FileFollowCursor × List (List UInt8)
  | [], c => (c, [])
  | call :: calls, c =>
      let returned := call.readNewLines c
      let further := followCalls calls returned.cursor
      (further.1, returned.lines ++ further.2)

/-- Bytes of a content from one offset to another. -/
def between (content : List UInt8) (start stop : ℕ) : List UInt8 :=
  (content.take stop).drop start

/-- How far a cursor has come in a content. -/
structure Follows (content : List UInt8) (start : ℕ) (c : FileFollowCursor) : Prop where
  begun : start ≤ c.offset
  inside : c.offset ≤ content.length
  fed : c.Fed (between content start c.offset)
  overlap : c.overlap <:+ content.take c.offset
  bounded : c.overlap.length ≤ tailOverlapBytes

/-- The lines that are passed on for the bytes from one offset to another. -/
def passedOn (content : List UInt8) (start stop : ℕ) : List (List UInt8) :=
  (closedLines newline (between content start stop)).map followLine

namespace Follows

variable {data : List UInt8} {size : ℕ}

theorem overlap_le (follows : Follows content start c) : c.overlap.length ≤ c.offset :=
  follows.overlap.length_le.trans (List.length_take_le _ _)

/-- The content goes on behind the remembered bytes. -/
theorem window (follows : Follows content start c) :
    content.drop (c.offset - c.overlap.length) = c.overlap ++ content.drop c.offset := by
  rcases follows.overlap with ⟨front, same⟩
  have long := congrArg List.length same
  rw [List.length_append, List.length_take, min_eq_left follows.inside] at long
  have whole : content = front ++ (c.overlap ++ content.drop c.offset) := by
    rw [← List.append_assoc, same, List.take_append_drop]
  conv_lhs => rw [whole]
  exact List.drop_left' (by omega)

/-- Bytes behind the remembered ones are those behind the offset. -/
theorem take_taken (follows : Follows content start c)
    (within : c.overlap ++ taken <+: content.drop (c.offset - c.overlap.length)) :
    content.take (c.offset + taken.length) = content.take c.offset ++ taken := by
  rw [follows.window, List.prefix_append_right_inj] at within
  rw [List.take_add, ← List.prefix_iff_eq_take.mp within]

/-- Consuming the bytes that follow brings the cursor further. -/
theorem consumes (follows : Follows content start c)
    (consumes : c.Consumes taken cursor lines)
    (within : c.overlap ++ taken <+: content.drop (c.offset - c.overlap.length)) :
    Follows content start cursor ∧
      passedOn content start cursor.offset = passedOn content start c.offset ++ lines := by
  have further := follows.take_taken within
  have grown : between content start cursor.offset =
      between content start c.offset ++ taken := by
    unfold between
    rw [consumes.offset, further, List.drop_append_of_le_length]
    rw [List.length_take, min_eq_left follows.inside]
    exact follows.begun
  have result := consumes.fed _ follows.fed
  refine ⟨⟨?_, ?_, ?_, ?_, ?_⟩, ?_⟩
  · rw [consumes.offset]
    exact follows.begun.trans (Nat.le_add_right _ _)
  · have long := congrArg List.length further
    rw [List.length_append, List.length_take, List.length_take,
      min_eq_left follows.inside] at long
    rw [consumes.offset]
    omega
  · rw [grown]
    exact result.1
  · rw [consumes.offset, consumes.overlap, further]
    refine (List.drop_suffix _ _).trans ?_
    rcases follows.overlap with ⟨front, same⟩
    exact ⟨front, by rw [← List.append_assoc, same]⟩
  · rw [consumes.overlap, List.length_drop]
    omega
  · unfold passedOn
    rw [grown]
    exact result.2

end Follows

namespace FollowCall

/-- What a read shows of the content. -/
theorem Sees.shows (sees : call.Sees content) (round : ℕ) (c : FileFollowCursor) :
    (call.reading round c).data <+: content.drop (c.offset - c.overlap.length) := by
  rcases sees round (c.offset - c.overlap.length) (call.width c) with ⟨size, -, -, within, -⟩
  refine within.trans ?_
  rw [List.drop_take]
  exact List.take_prefix _ _

/-- A read of a file that is only appended to shows the remembered bytes again, unless it fails. -/
theorem Sees.unchanged (sees : call.Sees content) (follows : Follows content start c)
    (inside : c.offset < call.end_)
    (changed : ¬c.overlap <+: (call.reading round c).data) :
    (call.reading round c).data.length < c.overlap.length ∧
      (call.reading round c).error ≠ some .eof := by
  have remembered : c.overlap <+: content.drop (c.offset - c.overlap.length) := by
    rw [follows.window]
    exact List.prefix_append _ _
  have short : (call.reading round c).data.length < c.overlap.length := by
    by_contra long
    exact changed (List.prefix_of_prefix_length_le remembered (sees.shows round c) (not_lt.mp long))
  refine ⟨short, ?_⟩
  intro isEof
  rcases sees round (c.offset - c.overlap.length) (call.width c) with ⟨size, ends, -, -, atEnd⟩
  have whole := atEnd isEof
  have before := follows.overlap_le
  unfold reading at short
  omega

theorem Undisturbed.not_disturbed (undisturbed : call.Undisturbed content)
    (follows : Follows content start c) (inside : c.offset < call.end_)
    (ends : call.end_ ≤ content.length) : ¬call.Disturbed round c := by
  have buffer := undisturbed.buffer
  have small := follows.bounded
  have before := follows.overlap_le
  rcases undisturbed.reads round (c.offset - c.overlap.length) (call.width c) with ⟨fine, filled⟩
  rintro (cancelled | ⟨line, refused⟩ | failed | short)
  · rw [undisturbed.runs] at cancelled
    cases cancelled
  · rw [undisturbed.accepts] at refused
    cases refused
  · exact failed fine
  · unfold reading at short
    rw [filled, List.length_take, List.length_drop] at short
    unfold width at short
    have chunk : tailOverlapBytes < followChunkBytes := by decide
    omega

end FollowCall

/-- What a call on a file that is only appended to leaves behind. -/
structure Returned.Continues (returned : Returned) (call : FollowCall) (content : List UInt8)
    (start : ℕ) (c : FileFollowCursor) : Prop where
  follows : Follows content start returned.cursor
  lines : passedOn content start returned.cursor.offset =
    passedOn content start c.offset ++ returned.lines
  reaches : returned.error = none → (∀ line, call.emit line = true) →
    call.end_ ≤ returned.cursor.offset
  fails : returned.error ≠ none → call.Undisturbed content → content.length < call.end_

theorem FollowCall.readLoop_continues (sees : call.Sees content)
    (follows : Follows content start c) :
    (call.readLoop round emitted c).Continues call content start c := by
  fun_induction call.readLoop round emitted c with
  | case1 round emitted c inside next lines goesOn _ more ih =>
      have does := call.readRound_does round emitted c
      rw [goesOn] at does
      cases does with
      | next read progress consumes =>
          rcases follows.consumes consumes (read.trans (sees.shows round c)) with
            ⟨nextFollows, passed⟩
          have further := ih nextFollows
          refine ⟨further.follows, ?_, further.reaches, further.fails⟩
          rw [further.lines, passed, List.append_assoc]
  | case2 round emitted c inside cursor lines error ends =>
      have does := call.readRound_does round emitted c
      rw [ends] at does
      cases does with
      | kept error disturbed =>
          refine ⟨follows, (List.append_nil _).symm, (fun none => nomatch none), ?_⟩
          intro _ undisturbed
          by_contra within
          exact undisturbed.not_disturbed follows inside (not_lt.mp within) disturbed
      | reset changed short =>
          rcases sees.unchanged follows inside changed with ⟨isShort, notEof⟩
          exact absurd (short isShort) notEof
      | done read consumes disturbed refused =>
          rcases follows.consumes consumes (read.trans (sees.shows round c)) with
            ⟨nextFollows, passed⟩
          refine ⟨nextFollows, passed, ?_, ?_⟩
          · intro none accepts
            rcases refused none with ⟨line, isRefused⟩
            rw [accepts] at isRefused
            cases isRefused
          · intro _ undisturbed
            by_contra within
            exact undisturbed.not_disturbed follows inside (not_lt.mp within) disturbed
  | case3 round emitted c outside =>
      exact ⟨follows, (List.append_nil _).symm, fun _ _ => not_lt.mp outside,
        fun failed => absurd rfl failed⟩

theorem FollowCall.readNewLines_continues (sees : call.Sees content)
    (follows : Follows content start c) :
    (call.readNewLines c).Continues call content start c := by
  unfold FollowCall.readNewLines
  split
  · rename_i small
    refine ⟨follows, (List.append_nil _).symm, (fun none => nomatch none), ?_⟩
    intro _ undisturbed
    exact absurd small (not_le.mpr undisturbed.buffer)
  · exact readLoop_continues sees follows

/-- Over all calls, what is passed on are the lines between the offsets. -/
theorem followCalls_follows {calls : List FollowCall} (sees : ∀ call ∈ calls, call.Sees content)
    (follows : Follows content start c) :
    Follows content start (followCalls calls c).1 ∧
      passedOn content start (followCalls calls c).1.offset =
        passedOn content start c.offset ++ (followCalls calls c).2 := by
  induction calls generalizing c with
  | nil => exact ⟨follows, (List.append_nil _).symm⟩
  | cons call calls ih =>
      have first := FollowCall.readNewLines_continues (sees call List.mem_cons_self) follows
      have further := ih (fun call mem => sees call (List.mem_cons_of_mem _ mem)) first.follows
      refine ⟨further.1, ?_⟩
      unfold followCalls
      rw [further.2, first.lines, List.append_assoc]

/-- The cursor with which following a file of a size begins; `tail` is what
`readTailOverlapFromFile` has read, nothing when that failed. -/
def FileFollowCursor.startAt (size : ℕ) (tail : List UInt8) : FileFollowCursor :=
  FileFollowCursor.remember ⟨size, [], false, []⟩ tail

/-- The cursor keeps the bounded open line of some text. -/
theorem FileFollowCursor.startAt_fed (size : ℕ) (tail : List UInt8) :
    (FileFollowCursor.startAt size tail).Fed [] := by
  refine Fed.remember ?_ tail
  exact ⟨Fed.reset.partial_, Fed.reset.truncated⟩

theorem Follows.startAt {old appended tail : List UInt8} (ends : tail <:+ old) :
    Follows (old ++ appended) old.length (.startAt old.length tail) := by
  refine ⟨?_, ?_, ?_, ?_, ?_⟩
  · simp [FileFollowCursor.startAt]
  · simp [FileFollowCursor.startAt]
  · have nothing : between (old ++ appended) old.length
        (FileFollowCursor.startAt old.length tail).offset = [] := by
      simp [between, FileFollowCursor.startAt]
    rw [nothing]
    exact FileFollowCursor.startAt_fed _ _
  · simp only [FileFollowCursor.startAt, FileFollowCursor.remember_overlap,
      FileFollowCursor.remember_offset, List.take_left]
    exact (List.drop_suffix _ _).trans ends
  · simp only [FileFollowCursor.startAt, FileFollowCursor.remember_overlap, List.length_drop]
    omega

/-! ## Ticks -/

/-- `overlapStillMatches`, with what its read in front of the offset reports. -/
def overlapStillMatches {width : ℕ} (actual : Reading width) (want : List UInt8) : Bool :=
  if want = [] then true else actual.error = none && decide (actual.data = want)

/-- What a tick of `followFileEventTicks` finds at the path: whether it is the file of the tick
before, its size, and what a read in front of the offset reports. -/
structure FollowTick where
  rotated : Bool
  size : ℕ
  tail : (offset width : ℕ) → Reading width
  call : FollowCall
  bounded : call.end_ = size

/-- A tick of `followFileEventTicks` that could open the file. -/
def FollowTick.poll (tick : FollowTick) (c : FileFollowCursor) : Returned :=
  let shrunk := decide (tick.size < c.offset)
  let refilled := !tick.rotated && !shrunk && decide (0 < c.offset) &&
    !overlapStillMatches (tick.tail (c.offset - c.overlap.length) c.overlap.length) c.overlap
  let cursor := if tick.rotated || shrunk || refilled then .reset else c
  if tick.size ≤ cursor.offset then ⟨cursor, [], none⟩ else tick.call.readNewLines cursor

/-- A tick finds the file of the tick before, which was only appended to. -/
structure FollowTick.Appended (content : List UInt8) (c : FileFollowCursor) (tick : FollowTick) :
    Prop where
  same : tick.rotated = false
  grown : c.offset ≤ tick.size
  shown : tick.tail (c.offset - c.overlap.length) c.overlap.length =
    ⟨(content.drop (c.offset - c.overlap.length)).take c.overlap.length, none,
      List.length_take_le _ _⟩
  sees : tick.call.Sees content

/-- On a file that is only appended to a tick is a call, or nothing was appended. -/
theorem FollowTick.Appended.poll_eq {tick : FollowTick} (appended : tick.Appended content c)
    (follows : Follows content start c) :
    tick.poll c = if tick.size ≤ c.offset then ⟨c, [], none⟩ else tick.call.readNewLines c := by
  have remembered : (content.drop (c.offset - c.overlap.length)).take c.overlap.length =
      c.overlap := by
    rw [follows.window, List.take_left]
  have matching : overlapStillMatches (tick.tail (c.offset - c.overlap.length) c.overlap.length)
      c.overlap = true := by
    rw [appended.shown]
    simp [overlapStillMatches, remembered]
  simp [poll, appended.same, matching, not_lt.mpr appended.grown]

/-- Ticks one after the other. -/
def followTicks : List FollowTick → FileFollowCursor → FileFollowCursor × List (List UInt8)
  | [], c => (c, [])
  | tick :: ticks, c =>
      let returned := tick.poll c
      let further := followTicks ticks returned.cursor
      (further.1, returned.lines ++ further.2)

/-- On a file that is only appended to, ticks are the calls that they make. -/
theorem followTicks_eq {ticks : List FollowTick}
    (appended : Permitted (fun c tick => (FollowTick.poll tick c).cursor)
      (FollowTick.Appended content) c ticks) (follows : Follows content start c) :
    ∃ calls : List FollowCall, (∀ call ∈ calls, call.Sees content) ∧
      followTicks ticks c = followCalls calls c := by
  induction ticks generalizing c with
  | nil => exact ⟨[], by simp, rfl⟩
  | cons tick ticks ih =>
      rcases appended with ⟨first, rest⟩
      have polled := first.poll_eq follows
      rw [followTicks]
      dsimp only at rest ⊢
      rw [polled] at rest ⊢
      split at rest
      · rename_i nothingNew
        rcases ih rest follows with ⟨calls, sees, same⟩
        refine ⟨calls, sees, ?_⟩
        rw [if_pos nothingNew, same]
        rfl
      · rename_i more
        have next := (FollowCall.readNewLines_continues first.sees follows).follows
        rcases ih rest next with ⟨calls, sees, same⟩
        refine ⟨tick.call :: calls, List.forall_mem_cons.mpr ⟨first.sees, sees⟩, ?_⟩
        rw [if_neg more, same]
        rfl

/-! ## Any file -/

/-- What a round leaves is the bounded open line of some text, whatever the reads show. -/
theorem FollowCall.readLoop_fed (fed : ∃ text, c.Fed text) :
    ∃ text, (call.readLoop round emitted c).cursor.Fed text := by
  fun_induction call.readLoop round emitted c with
  | case1 round emitted c inside next lines goesOn _ more ih =>
      have does := call.readRound_does round emitted c
      rw [goesOn] at does
      cases does with
      | next read progress consumes =>
          rcases fed with ⟨text, fed⟩
          exact ih ⟨_, (consumes.fed text fed).1⟩
  | case2 round emitted c inside cursor lines error ends =>
      have does := call.readRound_does round emitted c
      rw [ends] at does
      cases does with
      | kept error disturbed => exact fed
      | reset changed short => exact ⟨[], .reset⟩
      | done read consumes disturbed refused =>
          rcases fed with ⟨text, fed⟩
          exact ⟨_, (consumes.fed text fed).1⟩
  | case3 round emitted c outside => exact fed

theorem followCalls_fed {calls : List FollowCall} (fed : ∃ text, c.Fed text) :
    ∃ text, (followCalls calls c).1.Fed text := by
  induction calls generalizing c with
  | nil => exact fed
  | cons call calls ih =>
      refine ih ?_
      unfold FollowCall.readNewLines
      split
      · exact fed
      · exact FollowCall.readLoop_fed fed

/-- A round moves the cursor on, or returns; it goes back only when the remembered bytes are not
what is read in front of the offset. -/
def FollowCall.Progresses (call : FollowCall) (round : ℕ) (c : FileFollowCursor) : Round → Prop
  | .next cursor _ => c.offset < cursor.offset
  | .done cursor lines _ => c.offset ≤ cursor.offset ∨
      cursor = .reset ∧ lines = [] ∧ ¬c.overlap <+: (call.reading round c).data

theorem FollowCall.readRound_progresses (call : FollowCall) (round emitted : ℕ)
    (c : FileFollowCursor) : call.Progresses round c (call.readRound round emitted c) := by
  have does := call.readRound_does round emitted c
  generalize call.readRound round emitted c = result at does
  cases does with
  | kept error disturbed => exact .inl (le_refl _)
  | reset changed short => exact .inr ⟨rfl, rfl, changed⟩
  | next read progress consumes =>
      refine Nat.lt_of_lt_of_eq ?_ consumes.offset.symm
      exact Nat.lt_add_of_pos_right (List.length_pos_iff.mpr progress)
  | done read consumes disturbed refused =>
      left
      rw [consumes.offset]
      exact Nat.le_add_right _ _

/-- From a round on, the reads of a call show files that have other bytes in front of the offset
than the remembered ones. -/
def FollowCall.Rewritten (call : FollowCall) (first : ℕ) (c : FileFollowCursor) : Prop :=
  ∀ round, first ≤ round → ∃ file : List UInt8,
    (call.reading round c).data <+: file.drop (c.offset - c.overlap.length) ∧
      ¬c.overlap <+: file.drop (c.offset - c.overlap.length)

/-- Nothing of a rewritten file is consumed: the cursor stays, or goes back to the beginning. -/
theorem FollowCall.readLoop_rewritten (rewritten : call.Rewritten round c) :
    (call.readLoop round emitted c).lines = [] ∧
      ((call.readLoop round emitted c).cursor = c ∨
        (call.readLoop round emitted c).cursor = .reset) := by
  rcases rewritten round (le_refl _) with ⟨file, shown, changed⟩
  have differs : ¬c.overlap <+: (call.reading round c).data :=
    fun same => changed (same.trans shown)
  unfold readLoop
  split
  · have does := call.readRound_does round emitted c
    split
    · rename_i next lines goesOn
      rw [goesOn] at does
      cases does with
      | next read progress consumes =>
          exact absurd ((List.prefix_append _ _).trans read) differs
    · rename_i cursor lines error ends
      rw [ends] at does
      cases does with
      | kept error disturbed => exact ⟨rfl, .inl rfl⟩
      | reset changed short => exact ⟨rfl, .inr rfl⟩
      | done read consumes disturbed refused =>
          exact absurd ((List.prefix_append _ _).trans read) differs
  · exact ⟨rfl, .inl rfl⟩

theorem FollowCall.readNewLines_rewritten (rewritten : call.Rewritten 0 c) :
    (call.readNewLines c).lines = [] ∧
      ((call.readNewLines c).cursor = c ∨ (call.readNewLines c).cursor = .reset) := by
  unfold readNewLines
  split
  · exact ⟨rfl, .inl rfl⟩
  · exact readLoop_rewritten rewritten

/-- Calls on a rewritten file leave the cursor as it is, up to one that goes back to the beginning
of the file. -/
theorem followCalls_rewritten {calls : List FollowCall}
    (rewritten : ∀ call ∈ calls, call.Rewritten 0 c) :
    followCalls calls c = (c, []) ∨
      ∃ before call after, calls = before ++ call :: after ∧ followCalls before c = (c, []) ∧
        (call.readNewLines c).lines = [] ∧ (call.readNewLines c).cursor = .reset := by
  induction calls with
  | nil => exact .inl rfl
  | cons call calls ih =>
      have first := FollowCall.readNewLines_rewritten (rewritten call List.mem_cons_self)
      rcases first with ⟨nothing, stays | back⟩
      · rcases ih (fun call mem => rewritten call (List.mem_cons_of_mem _ mem)) with
          all | ⟨before, later, after, rfl, passed, back⟩
        · left
          simp only [followCalls, stays, nothing, all, List.nil_append]
        · right
          refine ⟨call :: before, later, after, rfl, ?_, back⟩
          simp only [followCalls, stays, nothing, passed, List.nil_append]
      · exact .inr ⟨[], call, calls, rfl, rfl, nothing, back⟩

/-! ## Lines over the limit -/

/-- The longest beginning of a line within the limit that separates no rune, and the marker; a line
within the limit as it is. -/
noncomputable def cappedLine (line : List UInt8) : List UInt8 :=
  if maxFollowLineBytes < line.length then
    line.take (unseparated line maxFollowLineBytes) ++ followLineMarker
  else line

/-- A line over the limit that has the beginning of an encoding in front of the cut completes it
behind the cut. -/
def CompletesAtCut (line : List UInt8) : Prop :=
  maxFollowLineBytes < line.length → EndsUnfinished (line.take maxFollowLineBytes) →
    Separates line maxFollowLineBytes

theorem followLine_eq_cappedLine_iff (line : List UInt8) :
    followLine line = cappedLine line ↔ CompletesAtCut line := by
  unfold followLine cappedLine CompletesAtCut
  split
  · rename_i long
    rw [List.append_left_inj, trimUnfinished_take_iff long.le]
    exact ⟨fun completes _ => completes, fun completes => completes long⟩
  · rename_i within
    exact iff_of_true rfl fun long => absurd long within

/-- What is promised of following what is appended to a file.  The first two promises are about
calls that see the file as it is appended to, the others about calls on any file. -/
structure FollowsOnce (old appended : List UInt8) : Prop where
  once : ∀ (calls : List FollowCall) (tail : List UInt8), tail <:+ old →
    (∀ call ∈ calls, call.Sees (old ++ appended)) →
    old.length ≤ (followCalls calls (.startAt old.length tail)).1.offset ∧
      (followCalls calls (.startAt old.length tail)).1.offset ≤ (old ++ appended).length ∧
      (followCalls calls (.startAt old.length tail)).2 =
        (closedLines newline (between (old ++ appended) old.length
          (followCalls calls (.startAt old.length tail)).1.offset)).map cappedLine
  reaches : ∀ (calls : List FollowCall) (last : FollowCall) (tail : List UInt8), tail <:+ old →
    (∀ call ∈ calls, call.Sees (old ++ appended)) → last.Sees (old ++ appended) →
    (∀ line, last.emit line = true) →
    (last.readNewLines (followCalls calls (.startAt old.length tail)).1).error = none →
    last.end_ ≤ (last.readNewLines (followCalls calls (.startAt old.length tail)).1).cursor.offset
  bounded : ∀ (calls : List FollowCall) (tail : List UInt8),
    (followCalls calls (.startAt old.length tail)).1.partial_.length ≤ maxFollowLineBytes
  progress : ∀ (call : FollowCall) (round emitted : ℕ) (c : FileFollowCursor),
    call.Progresses round c (call.readRound round emitted c)
  rewritten : ∀ (call : FollowCall) (round emitted : ℕ) (c : FileFollowCursor),
    call.Rewritten round c → (call.readLoop round emitted c).lines = [] ∧
      ((call.readLoop round emitted c).cursor = c ∨
        (call.readLoop round emitted c).cursor = .reset)
  rewrittenCalls : ∀ (calls : List FollowCall) (c : FileFollowCursor),
    (∀ call ∈ calls, call.Rewritten 0 c) → followCalls calls c = (c, []) ∨
      ∃ before call after, calls = before ++ call :: after ∧ followCalls before c = (c, []) ∧
        (call.readNewLines c).lines = [] ∧ (call.readNewLines c).cursor = .reset

variable {old appended tail : List UInt8} {calls : List FollowCall}

theorem passedOn_calls (ends : tail <:+ old) (sees : ∀ call ∈ calls, call.Sees (old ++ appended)) :
    (followCalls calls (.startAt old.length tail)).2 =
      passedOn (old ++ appended) old.length
        (followCalls calls (.startAt old.length tail)).1.offset := by
  have begun : passedOn (old ++ appended) old.length
      (FileFollowCursor.startAt old.length tail).offset = [] := by
    simp [passedOn, between, FileFollowCursor.startAt, closedLines_nil]
  rw [(followCalls_follows sees (.startAt ends)).2, begun, List.nil_append]

theorem followsOnce_of_completes
    (completes : ∀ line ∈ closedLines newline appended, CompletesAtCut line) :
    FollowsOnce old appended := by
  refine ⟨?_, ?_, ?_, FollowCall.readRound_progresses, ?_, ?_⟩
  · intro calls tail ends sees
    have follows := (followCalls_follows sees (.startAt ends)).1
    refine ⟨follows.begun, follows.inside, ?_⟩
    rw [passedOn_calls ends sees]
    unfold passedOn
    refine List.map_congr_left fun line mem => ?_
    refine (followLine_eq_cappedLine_iff line).mpr (completes line ?_)
    have within : between (old ++ appended) old.length
        (followCalls calls (.startAt old.length tail)).1.offset <+: appended := by
      unfold between
      rw [List.drop_take, List.drop_left]
      exact List.take_prefix _ _
    rcases within with ⟨more, same⟩
    rw [← same]
    exact (closedLines_prefix_append _ _ _).subset mem
  · intro calls last tail ends sees lastSees accepts fine
    have follows := (followCalls_follows sees (.startAt ends)).1
    exact (FollowCall.readNewLines_continues lastSees follows).reaches fine accepts
  · intro calls tail
    rcases followCalls_fed ⟨[], FileFollowCursor.startAt_fed old.length tail⟩ with ⟨text, fed⟩
    exact fed.bounded
  · intro call round emitted c rewritten
    exact FollowCall.readLoop_rewritten rewritten
  · intro calls c rewritten
    exact followCalls_rewritten rewritten

/-- One call that reads a whole content. -/
def FollowCall.whole (content : List UInt8) : FollowCall where
  end_ := content.length
  scratch := followChunkBytes
  cancelled := fun _ => false
  readAt := fun _ offset width => ⟨(content.drop offset).take width, none, List.length_take_le _ _⟩
  emit := fun _ => true
  cancelledInEmit := false

theorem FollowCall.whole_sees (content : List UInt8) : (whole content).Sees content := by
  intro round offset width
  refine ⟨content.length, le_refl _, le_refl _, ?_, fun isEof => nomatch isEof⟩
  rw [List.take_length]
  exact List.take_prefix _ _

theorem FollowCall.whole_undisturbed (content : List UInt8) :
    (whole content).Undisturbed content :=
  ⟨(by decide : tailOverlapBytes < followChunkBytes), fun _ => rfl, fun _ => rfl,
    fun _ _ _ => ⟨rfl, rfl⟩⟩

/-- A call that reads everything passes on every closed line. -/
theorem FollowCall.whole_lines (ends : tail <:+ old) :
    (followCalls [whole (old ++ appended)] (.startAt old.length tail)).1.offset =
      (old ++ appended).length := by
  have sees := whole_sees (old ++ appended)
  have out := readNewLines_continues sees (.startAt ends)
  have fine : ((whole (old ++ appended)).readNewLines (.startAt old.length tail)).error = none := by
    by_contra failed
    exact absurd (out.fails failed (whole_undisturbed _)) (lt_irrefl _)
  exact out.follows.inside.antisymm (out.reaches fine fun _ => rfl)

theorem completes_of_followsOnce (promised : FollowsOnce old appended) :
    ∀ line ∈ closedLines newline appended, CompletesAtCut line := by
  have sees : ∀ call ∈ [FollowCall.whole (old ++ appended)], call.Sees (old ++ appended) := by
    simpa using FollowCall.whole_sees (old ++ appended)
  have passed := (promised.once _ [] List.nil_suffix sees).2.2
  have everything : between (old ++ appended) old.length (old ++ appended).length = appended := by
    unfold between
    rw [List.take_length, List.drop_left]
  rw [passedOn_calls List.nil_suffix sees, FollowCall.whole_lines List.nil_suffix] at passed
  unfold passedOn at passed
  rw [everything, List.map_inj_left] at passed
  intro line mem
  exact (followLine_eq_cappedLine_iff line).mp (passed line mem)

/-- What is promised of calls holds of ticks. -/
theorem FollowsOnce.ticks (promised : FollowsOnce old appended) (ends : tail <:+ old)
    {ticks : List FollowTick}
    (grows : Permitted (fun c tick => (FollowTick.poll tick c).cursor)
      (FollowTick.Appended (old ++ appended)) (.startAt old.length tail) ticks) :
    (followTicks ticks (.startAt old.length tail)).2 =
      (closedLines newline (between (old ++ appended) old.length
        (followTicks ticks (.startAt old.length tail)).1.offset)).map cappedLine := by
  rcases followTicks_eq grows (.startAt ends) with ⟨calls, sees, same⟩
  rw [same]
  exact (promised.once calls tail ends sees).2.2

/-- Following what is appended to a file keeps every promise exactly when each line over the limit
that has the beginning of an encoding in front of the cut completes it behind the cut. -/
theorem followsOnce_iff (old appended : List UInt8) :
    FollowsOnce old appended ↔ ∀ line ∈ closedLines newline appended, CompletesAtCut line :=
  ⟨completes_of_followsOnce, followsOnce_of_completes⟩

/-- Two bytes that begin an encoding stand in front of the cut, and the line goes on with `b`. -/
def brokenLine : List UInt8 := List.replicate (maxFollowLineBytes - 2) 97 ++ [0xE2, 0x82, 98]

theorem brokenLine_not_completes : ¬CompletesAtCut brokenLine := by
  have long : brokenLine.length = maxFollowLineBytes + 1 := by
    simp only [brokenLine, List.length_append, List.length_replicate]
    decide
  have cut : brokenLine.take maxFollowLineBytes =
      List.replicate (maxFollowLineBytes - 2) 97 ++ [0xE2, 0x82] := by
    unfold brokenLine
    rw [List.take_append, List.take_of_length_le (by rw [List.length_replicate]; omega),
      List.length_replicate, show maxFollowLineBytes - (maxFollowLineBytes - 2) = 2 by decide]
    rfl
  have next : brokenLine[maxFollowLineBytes]? = some 98 := by
    unfold brokenLine
    rw [List.getElem?_append_right (by rw [List.length_replicate]; omega), List.length_replicate,
      show maxFollowLineBytes - (maxFollowLineBytes - 2) = 2 by decide]
    rfl
  intro completes
  refine not_separates_of_runeStart next (by decide) (completes (by omega) ?_)
  refine ⟨maxFollowLineBytes - 2, ?_⟩
  rw [cut, List.drop_left' List.length_replicate, unfinished_iff]
  decide

/-- Of a line that ends in a broken encoding at the limit, two bytes too many are left out. -/
theorem not_followsOnce_brokenLine : ¬FollowsOnce [] (brokenLine ++ [newline]) := by
  intro promised
  refine brokenLine_not_completes (completes_of_followsOnce promised brokenLine ?_)
  have noNewline : newline ∉ brokenLine := by
    simp only [brokenLine, List.mem_append, List.mem_replicate]
    decide
  have alone := (@lines_append_piece _ _ newline [] brokenLine noNewline).2
  rw [List.nil_append, openLine_nil, List.nil_append] at alone
  rw [(lines_append_sep newline brokenLine).1, alone]
  simp

end TelemtPanel.Host
