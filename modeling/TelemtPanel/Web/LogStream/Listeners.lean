import TelemtPanel.Web.LogStream.Connection

/-!
# Listeners that call the client

While a listener runs, each function that has notified relies on what it left behind: that the
client is not closed, that nothing has been connected meanwhile, or that the connection is still
its own.  A call that a function on the stack survives keeps what this function relies on.
-/

namespace TelemtPanel.Web.LogStream

open TelemtPanel.Library

namespace State

variable {s : State}

section History

/-- A line of the newest message. -/
def Received (s : State) (number source : ℕ) (line : Value) : Prop :=
  number + 1 = s.messages.length ∧
    ∃ data, s.messages[number]? = some (source, data) ∧ lineOf data = some line

/-- What has happened so far keeps the promises. -/
structure Told (s : State) : Prop where
  silent : ∀ entry ∈ s.log, entry.closed = false
  asked : ∀ entry ∈ s.log, ∀ deadline, entry.notBefore s.settings.reading = some deadline →
    deadline ≤ s.retryNotBefore ∨ deadline ≤ s.now
  waited : s.log.Pairwise fun later earlier => ∀ deadline, later.effect = .opened →
    earlier.notBefore s.settings.reading = some deadline → deadline ≤ later.now
  current : ∀ entry ∈ s.log, ∀ listener number source line,
    entry.effect = .delivered listener number source line → entry.es = some source ∧
      ∃ data, s.messages[number]? = some (source, data) ∧ lineOf data = some line
  inOrder : s.log.Pairwise fun later earlier => ∀ number before,
    later.effect.number = some number → earlier.effect.number = some before → before ≤ number

/-- Every wait that was asked for is over. -/
theorem Told.over (told : s.Told) (waited : s.retryNotBefore ≤ s.now) {entry : Entry}
    (mem : entry ∈ s.log) {deadline : ℚ}
    (asked : entry.notBefore s.settings.reading = some deadline) : deadline ≤ s.now := by
  rcases told.asked entry mem deadline asked with before | past
  · exact before.trans waited
  · exact past

theorem Told.number_lt (told : s.Told) {entry : Entry} (mem : entry ∈ s.log) {number : ℕ}
    (delivered : entry.effect.number = some number) : number < s.messages.length := by
  match kind : entry.effect with
  | .delivered listener number' source line =>
      rcases told.current entry mem listener number' source line kind with ⟨-, data, known, -⟩
      rw [kind] at delivered
      cases delivered
      exact (List.getElem?_eq_some_iff.mp known).1
  | .opened => simp [kind, Effect.number] at delivered
  | .called _ => simp [kind, Effect.number] at delivered
  | .answered _ => simp [kind, Effect.number] at delivered

/-- An effect that is neither a connection nor a line nor an answer. -/
theorem Told.called (told : s.Told) (free : s.closed = false) (listener : ℕ) :
    (s.record (.called listener)).Told where
  silent := List.forall_mem_cons.mpr ⟨free, told.silent⟩
  asked := List.forall_mem_cons.mpr ⟨by simp [Entry.notBefore], told.asked⟩
  waited := List.pairwise_cons.mpr ⟨by simp, told.waited⟩
  current := List.forall_mem_cons.mpr ⟨by simp, told.current⟩
  inOrder := List.pairwise_cons.mpr ⟨by simp [Effect.number], told.inOrder⟩

theorem Told.opened (told : s.Told) (free : s.closed = false)
    (waited : s.retryNotBefore ≤ s.now) : (s.record .opened).Told where
  silent := List.forall_mem_cons.mpr ⟨free, told.silent⟩
  asked := List.forall_mem_cons.mpr ⟨by simp [Entry.notBefore], told.asked⟩
  waited := by
    refine List.pairwise_cons.mpr ⟨?_, told.waited⟩
    intro entry mem deadline _ asked
    exact told.over waited mem asked
  current := List.forall_mem_cons.mpr ⟨by simp, told.current⟩
  inOrder := List.pairwise_cons.mpr ⟨by simp [Effect.number], told.inOrder⟩

/-- The client waits as long as an answer asks, or the answer asks for nothing. -/
theorem Told.answered (told : s.Told) (free : s.closed = false)
    (waited : s.retryNotBefore ≤ s.now) (result : LogCapacityProbe) (retryNotBefore : ℚ)
    (kept : ∀ deadline, Entry.notBefore s.settings.reading ⟨s.closed, s.es, s.now, .answered result⟩ =
      some deadline → deadline ≤ retryNotBefore) :
    State.Told { s.record (.answered result) with retryNotBefore } where
  silent := List.forall_mem_cons.mpr ⟨free, told.silent⟩
  asked := by
    refine List.forall_mem_cons.mpr ⟨?_, ?_⟩
    · intro deadline asked
      exact Or.inl (kept deadline asked)
    · intro entry mem deadline asked
      exact Or.inr (told.over waited mem asked)
  waited := List.pairwise_cons.mpr ⟨by simp, told.waited⟩
  current := List.forall_mem_cons.mpr ⟨by simp, told.current⟩
  inOrder := List.pairwise_cons.mpr ⟨by simp [Effect.number], told.inOrder⟩

theorem Told.delivered (told : s.Told) (free : s.closed = false) {number source : ℕ}
    {line : Value} (received : s.Received number source line) (here : s.es = some source)
    (listener : ℕ) : (s.record (.delivered listener number source line)).Told where
  silent := List.forall_mem_cons.mpr ⟨free, told.silent⟩
  asked := List.forall_mem_cons.mpr ⟨by simp [Entry.notBefore], told.asked⟩
  waited := List.pairwise_cons.mpr ⟨by simp, told.waited⟩
  current := by
    refine List.forall_mem_cons.mpr ⟨?_, told.current⟩
    rintro listener' number' source' line' same
    cases same
    exact ⟨here, received.2⟩
  inOrder := by
    refine List.pairwise_cons.mpr ⟨?_, told.inOrder⟩
    intro entry mem number' before same delivered
    cases same
    have lt := told.number_lt mem delivered
    have newest := received.1
    omega

/-- A new message is the last one. -/
theorem Told.message (told : s.Told) (message : ℕ × Option Value) :
    State.Told { s with messages := s.messages ++ [message] } := { told with
  current := by
    intro entry mem listener number source line delivered
    rcases told.current entry mem listener number source line delivered with
      ⟨here, data, known, isLine⟩
    have lt := (List.getElem?_eq_some_iff.mp known).1
    exact ⟨here, data, by rw [List.getElem?_append_left lt, known], isLine⟩ }

/-- The earliest moment of a connection is moved when every wait is over. -/
theorem Told.rewait (told : s.Told) (waited : s.retryNotBefore ≤ s.now) (retryNotBefore : ℚ) :
    State.Told { s with retryNotBefore } := { told with
  asked := fun _ mem _ asked => Or.inr (told.over waited mem asked) }

/-- A 429 is answered by waiting as long as its `Retry-After` asks. -/
theorem Told.takeRetryAfter (told : s.Told) (free : s.closed = false)
    (waited : s.retryNotBefore ≤ s.now) {result : LogCapacityProbe} (limited : result.status = 429) :
    ((s.record (.answered result)).takeRetryAfter result.retryAfter).Told := by
  apply told.answered free waited
  intro deadline asked
  simp only [Entry.notBefore, if_pos limited, Option.map_eq_some_iff] at asked
  rcases asked with ⟨milliseconds, isAsked, rfl⟩
  exact add_le_add le_rfl (Reading.le_retryAfterMilliseconds isAsked)

/-- Any other answer asks for no wait. -/
theorem Told.notLimited (told : s.Told) (free : s.closed = false)
    (waited : s.retryNotBefore ≤ s.now) {result : LogCapacityProbe} (other : result.status ≠ 429) :
    (s.record (.answered result)).Told := by
  apply told.answered free waited result s.retryNotBefore
  intro deadline asked
  simp [Entry.notBefore, other] at asked

theorem Told.later (told : s.Told) (milliseconds : ℕ) :
    State.Told { s with now := s.now + milliseconds } := { told with
  asked := by
    intro entry mem deadline asked
    rcases told.asked entry mem deadline asked with before | past
    · exact Or.inl before
    · exact Or.inr (past.trans (by simp)) }

end History

end State

section Frames

/-- What a function on the stack relies on. -/
def Frame.Sound (s : State) : Frame → Prop
  | .listeners position => s.closed = true → s.listeners.following position = none
  | .lines number source line position => s.Received number source line ∧
      (s.es = some source ∨ s.lineListeners.following position = none)
  | .deliver number source data => ∀ line, lineOf data = some line →
      s.Received number source line ∧
        (s.es = some source ∨ s.lineListeners.following 0 = none)
  | .armReconnect _ => s.hidden = false → s.closed = false ∧ s.Idle
  | .resetStaleWatchdog => s.closed = false
  | .diagnosed reason => reason ∈ transientSourceReasons → s.closed = false ∧ s.Idle
  | .startProbe => s.closed = false → s.Idle ∧ s.Ready
  | .pauseIfHidden => True
  | .scheduleReconnect => s.closed = false ∧ s.Idle
  | .openConnection => s.closed = false → s.Idle ∧ s.retryNotBefore ≤ s.now ∧
      (s.hidden = false → s.reconnectPending = false)

/-- A frame that a listener's call leaves above others. -/
def Frame.nests : Frame → Bool
  | .listeners _ => true
  | .openConnection => true
  | _ => false

/-- Above other frames are only those that a call leaves, and an opening is survived. -/
def Frame.Over (s : State) (above below : Frame) : Prop :=
  above.nests = true ∧ (above = .openConnection → below.survivesRetry s = true)

theorem Frame.survivesRetry_congr {s t : State} (hidden : t.hidden = s.hidden)
    (lineListeners : t.lineListeners = s.lineListeners) (frame : Frame) :
    frame.survivesRetry t = frame.survivesRetry s := by
  cases frame <;> simp [Frame.survivesRetry, hidden, lineListeners]

/-- A new or a stopped connection is survived. -/
theorem Frame.Sound.replaced {s t : State} {frame : Frame} (sound : frame.Sound s)
    (survives : frame.survivesRetry s = true) (closed : t.closed = s.closed)
    (hidden : t.hidden = s.hidden) (listeners : t.listeners = s.listeners)
    (lineListeners : t.lineListeners = s.lineListeners) (messages : t.messages = s.messages)
    (wait : t.retryNotBefore = s.retryNotBefore) (now : t.now = s.now)
    (idle : s.hidden = true → t.Idle) : frame.Sound t := by
  cases frame with
  | listeners position =>
      intro shut
      rw [listeners]
      exact sound (closed ▸ shut)
  | lines number source line position =>
      refine ⟨?_, Or.inr ?_⟩
      · unfold State.Received
        rw [messages]
        exact sound.1
      · rw [lineListeners]
        exact Option.isNone_iff_eq_none.mp survives
  | deliver number source data =>
      intro line isLine
      refine ⟨?_, Or.inr ?_⟩
      · unfold State.Received
        rw [messages]
        exact (sound line isLine).1
      · rw [lineListeners]
        simpa [Frame.survivesRetry, isLine] using survives
  | armReconnect delay =>
      intro visible
      rw [hidden] at visible
      simp [Frame.survivesRetry, visible] at survives
  | resetStaleWatchdog => exact closed.trans sound
  | diagnosed reason =>
      intro transient
      refine ⟨closed.trans (sound transient).1, idle ?_⟩
      simpa [Frame.survivesRetry, transient] using survives
  | startProbe => cases survives
  | pauseIfHidden => trivial
  | scheduleReconnect => exact ⟨closed.trans sound.1, idle survives⟩
  | openConnection =>
      intro free
      refine ⟨idle survives, ?_, ?_⟩
      · rw [wait, now]
        exact (sound (closed ▸ free)).2.1
      · intro visible
        rw [hidden, show s.hidden = true from survives] at visible
        cases visible

/-- The client is closed. -/
theorem Frame.Sound.shut {s t : State} {frame : Frame} (sound : frame.Sound s)
    (survives : frame.survivesClose s = true) (closed : t.closed = true)
    (hidden : t.hidden = s.hidden) (listeners : t.listeners = s.listeners)
    (lineListeners : t.lineListeners = s.lineListeners) (messages : t.messages = s.messages) :
    frame.Sound t := by
  cases frame with
  | listeners position =>
      intro _
      rw [listeners]
      exact Option.isNone_iff_eq_none.mp survives
  | lines number source line position =>
      refine ⟨?_, Or.inr ?_⟩
      · unfold State.Received
        rw [messages]
        exact sound.1
      · rw [lineListeners]
        exact Option.isNone_iff_eq_none.mp survives
  | deliver number source data =>
      intro line isLine
      refine ⟨?_, Or.inr ?_⟩
      · unfold State.Received
        rw [messages]
        exact (sound line isLine).1
      · rw [lineListeners]
        simpa [Frame.survivesClose, isLine] using survives
  | armReconnect delay =>
      intro visible
      rw [hidden] at visible
      simp [Frame.survivesClose, visible] at survives
  | resetStaleWatchdog => cases survives
  | diagnosed reason =>
      intro transient
      simp [Frame.survivesClose, transient] at survives
  | startProbe =>
      intro free
      simp [closed] at free
  | pauseIfHidden => trivial
  | scheduleReconnect => cases survives
  | openConnection =>
      intro free
      simp [closed] at free

/-- On the stack of a closed client is nothing that still has something to do. -/
theorem Frame.Sound.survivesClose {s : State} {frame : Frame} (sound : frame.Sound s)
    (closed : s.closed = true) (unconnected : s.es = none) : frame.survivesClose s = true := by
  cases frame with
  | listeners position => exact Option.isNone_iff_eq_none.mpr (sound closed)
  | lines number source line position =>
      rcases sound.2 with here | ended
      · simp [unconnected] at here
      · exact Option.isNone_iff_eq_none.mpr ended
  | deliver number source data =>
      match isLine : lineOf data with
      | none => simp [Frame.survivesClose, isLine]
      | some line =>
          rcases (sound line isLine).2 with here | ended
          · simp [unconnected] at here
          · simp [Frame.survivesClose, ended]
  | armReconnect delay =>
      by_contra visible
      have free := (sound (Bool.eq_false_iff.mpr visible)).1
      simp [closed] at free
  | resetStaleWatchdog =>
      rw [show s.closed = false from sound] at closed
      cases closed
  | diagnosed reason =>
      by_contra transient
      have free := (sound (by simpa [Frame.survivesClose] using transient)).1
      simp [closed] at free
  | startProbe => rfl
  | pauseIfHidden => rfl
  | scheduleReconnect =>
      rw [sound.1] at closed
      cases closed
  | openConnection => rfl

end Frames

end TelemtPanel.Web.LogStream
