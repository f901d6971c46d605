import TelemtPanel.RateLimit.Admission

/-!
# Runs of the limiter

Every call keeps what the limiter knows in line with its history, so that over a whole run
the number of a key never exceeds the limit, an answer is what the history of the key
says, and the table holds no key that counts for nothing.  What the calls on a key are
answered is not changed by leaving out the calls on other keys.
-/

namespace TelemtPanel.RateLimit

open TelemtPanel.Library

universe u

variable {Key : Type u} [DecidableEq Key]

/-- The limiter and the history of its calls, the newest first. -/
abbrev Run (Key : Type u) := Window Key × History Key

/-- A call and its answer. -/
def Run.step (run : Run Key) (call : Call Key) : Run Key :=
  ((run.1.call call).2, (call, (run.1.call call).1) :: run.2)

/-- The clock does not go back over the calls. -/
def Steady (calls : List (Call Key)) : Prop :=
  (calls.flatMap Call.readings).Pairwise (· ≤ ·)

instance decidableSteady (calls : List (Call Key)) : Decidable (Steady calls) :=
  inferInstanceAs (Decidable (List.Pairwise _ _))

/-- No reading of the clock so far is after an instant. -/
def Since (calls : List (Call Key)) (now : Time) : Prop :=
  ∀ reading ∈ calls.flatMap Call.readings, reading ≤ now

/-- A key of the table counted for something when it was last visited. -/
def Visited (window : ℤ) (w : Window Key) (history : History Key) : Prop :=
  ∀ key e, w.entries key = some e →
    ∃ now, lastVisit key history = some now ∧ 0 < number window key history now

section Cleanup

variable {limit window : ℤ} {w : Window Key} {history : History Key} {now later : Time} {key : Key}

theorem cleanup_concat (w : Window Key) (visits : List (Key × Time)) (last : Key × Time) :
    w.cleanup (visits ++ [last]) = (w.cleanup visits).pruneLocked last.1 last.2 := by
  simp [Window.cleanup]

theorem Tracks.cleanup (tracks : Tracks limit window w history now) {visits : List (Key × Time)}
    (ordered : (visits.map (·.2)).Pairwise (· ≤ ·)) (after : ∀ visit ∈ visits, now ≤ visit.2)
    (ended : ∀ visit ∈ visits, visit.2 ≤ later) (le : now ≤ later) :
    Tracks limit window (w.cleanup visits) history later := by
  induction visits using List.reverseRecOn generalizing later with
  | nil => exact tracks.at_later le
  | append_singleton visits last ih =>
      rw [List.map_append, List.pairwise_append] at ordered
      rcases ordered with ⟨ordered, -, before⟩
      have inside : ∀ visit ∈ visits, visit ∈ visits ++ [last] :=
        fun visit mem => List.mem_append_left _ mem
      have isLast : last ∈ visits ++ [last] := List.mem_append_right _ (List.mem_singleton_self _)
      have reached := ih ordered (fun visit mem => after visit (inside visit mem))
        (fun visit mem => before _ (List.mem_map_of_mem mem) _ (by simp)) (after last isLast)
      rw [cleanup_concat]
      exact (reached.prune last.1).at_later (ended last isLast)

theorem entries_of_cleanup {visits : List (Key × Time)} {e : ℕ}
    (found : (w.cleanup visits).entries key = some e) : w.entries key = some e := by
  induction visits using List.reverseRecOn with
  | nil => exact found
  | append_singleton visits last ih =>
      rw [cleanup_concat] at found
      exact ih (Window.entries_of_prune found)

/-- A key that is in the table after a pass was not visited, or counted at its last visit. -/
theorem Tracks.kept_of_cleanup (tracks : Tracks limit window w history now)
    {visits : List (Key × Time)} (ordered : (visits.map (·.2)).Pairwise (· ≤ ·))
    (after : ∀ visit ∈ visits, now ≤ visit.2) {e : ℕ}
    (found : (w.cleanup visits).entries key = some e) :
    match visits.reverse.find? fun visit => visit.1 = key with
    | none => w.entries key = some e
    | some visit => 0 < number window key history visit.2 := by
  induction visits using List.reverseRecOn with
  | nil => exact found
  | append_singleton visits last ih =>
      rw [List.map_append, List.pairwise_append] at ordered
      rcases ordered with ⟨ordered, -, before⟩
      have inside : ∀ visit ∈ visits, visit ∈ visits ++ [last] :=
        fun visit mem => List.mem_append_left _ mem
      have isLast : last ∈ visits ++ [last] := List.mem_append_right _ (List.mem_singleton_self _)
      rw [cleanup_concat] at found
      rw [List.reverse_append, List.reverse_singleton, List.singleton_append, List.find?_cons]
      by_cases here : last.1 = key
      · subst here
        rw [decide_eq_true rfl]
        have early : ∀ visit ∈ visits, visit.2 ≤ last.2 :=
          fun visit mem => before _ (List.mem_map_of_mem mem) _ (by simp)
        have reached := tracks.cleanup ordered (fun visit mem => after visit (inside visit mem))
          early (after last isLast)
        exact reached.kept_of_prune found
      · rw [decide_eq_false here]
        exact ih ordered (fun visit mem => after visit (inside visit mem))
          (Window.entries_of_prune found)

end Cleanup

section Calls

variable {limit window : ℤ} {w : Window Key} {history : History Key} {past : List Time}
  {now : Time} {key : Key} {call : Call Key}

/-- One call keeps the limiter in line with its history. -/
theorem Tracks.step (positive : 0 < limit)
    (tracks : ∀ start, (∀ reading ∈ past, reading ≤ start) → Tracks limit window w history start)
    (steady : (past ++ call.readings).Pairwise (· ≤ ·))
    (since : ∀ reading ∈ past ++ call.readings, reading ≤ now) :
    Tracks limit window (w.call call).2 ((call, (w.call call).1) :: history) now := by
  rw [List.pairwise_append] at steady
  rcases steady with ⟨-, ordered, before⟩
  have reached := tracks now fun reading mem => since reading (List.mem_append_left _ mem)
  have at_ : ∀ start ∈ call.readings, Tracks limit window w history start ∧ start ≤ now :=
    fun start mem => ⟨tracks start fun reading known => before reading known start mem,
      since start (List.mem_append_right _ mem)⟩
  cases call with
  | available key start =>
      rcases at_ start (List.mem_singleton_self _) with ⟨known, le⟩
      refine ((known.prune key).record (by simp) fun other => ?_).at_later le
      exact quiet rfl (fun n ends => by cases ends) rfl
  | tryReserve key start =>
      rcases at_ start (List.mem_singleton_self _) with ⟨known, le⟩
      exact (known.tryReserve positive key).at_later le
  | allowAndCount key start stamp =>
      have known := (at_ start List.mem_cons_self).1
      have le := (at_ stamp (List.mem_cons_of_mem _ (List.mem_singleton_self _))).2
      exact (known.allowAndCount positive key
        (List.rel_of_pairwise_cons ordered (List.mem_singleton_self _))).at_later le
  | finish key n failed stamp start =>
      have last : start ∈ (Call.finish key n failed stamp start).readings := by
        cases failed <;> simp [Call.readings]
      exact ((at_ start last).1.finish key n failed stamp).at_later (at_ start last).2
  | cleanup visits =>
      have readings : ∀ visit ∈ visits, visit.2 ∈ (Call.cleanup visits).readings :=
        fun visit mem => List.mem_map_of_mem mem
      refine Tracks.record ?_ (by simp) fun other => quiet rfl (fun n ends => by cases ends) rfl
      cases visits with
      | nil => exact reached
      | cons first visits =>
          have start := at_ first.2 (readings first List.mem_cons_self)
          refine start.1.cleanup ordered ?_ (fun visit mem => (at_ _ (readings visit mem)).2) start.2
          rintro visit (_ | ⟨_, mem⟩)
          · exact le_rfl
          · exact List.rel_of_pairwise_cons ordered (List.mem_map_of_mem mem)
  | close =>
      refine reached.recordClosed ?_ fun other => quiet rfl (fun n ends => by cases ends) rfl
      rw [isOpen_cons]
      rfl

/-- A call is answered as the history says. -/
theorem Tracks.answer (positive : 0 < limit)
    (tracks : ∀ start, (∀ reading ∈ past, reading ≤ start) → Tracks limit window w history start)
    (steady : (past ++ call.readings).Pairwise (· ≤ ·)) :
    (w.call call).1 = RateLimit.answer limit window history call := by
  rw [List.pairwise_append] at steady
  have at_ : ∀ start ∈ call.readings, Tracks limit window w history start :=
    fun start mem => tracks start fun reading known => steady.2.2 reading known start mem
  cases call with
  | available key start => exact (at_ start (List.mem_singleton_self _)).hasRoom positive key
  | tryReserve key start =>
      have room := (at_ start (List.mem_singleton_self _)).hasRoom positive key
      simp only [Window.call, Window.TryReserve, RateLimit.answer]
      rw [← room]
      split
      · rename_i admitted
        rw [admitted]
      · rename_i refused
        rw [Bool.not_eq_true] at refused
        rw [refused]
  | allowAndCount key start stamp =>
      have room := (at_ start List.mem_cons_self).hasRoom positive key
      simp only [Window.call, Window.AllowAndCount, RateLimit.answer]
      rw [← room]
      split
      · rename_i admitted
        rw [admitted]
      · rename_i refused
        rw [Bool.not_eq_true] at refused
        rw [refused]
  | finish key n failed stamp start =>
      have last : start ∈ (Call.finish key n failed stamp start).readings := by
        cases failed <;> simp [Call.readings]
      have known := at_ start last
      simp only [Window.call, RateLimit.answer]
      rcases known.finish_cases key n failed stamp start with ⟨notHanded, same⟩ | ⟨again, same⟩ |
        ⟨handed, -, f, -, -, same⟩
      · rw [same, decide_eq_false (by omega)]
      · rw [same, decide_eq_true (known.made key n again)]
      · rw [same, decide_eq_true handed]
  | cleanup visits => rfl
  | close => rfl

/-- A key that a visit keeps counts for something, also with the call that made the visit. -/
theorem Tracks.counts_of_prune (tracks : Tracks limit window w history now) {answer : Bool} {e : ℕ}
    (quiet : reserved key ((call, answer) :: history) = reserved key history ∧
      (∀ n, finished key n ((call, answer) :: history) = finished key n history) ∧
      stamps key ((call, answer) :: history) = stamps key history)
    (found : (w.pruneLocked key now).entries key = some e) :
    0 < number window key ((call, answer) :: history) now := by
  rw [(number_congr window quiet.1 quiet.2.1 quiet.2.2).2]
  exact tracks.kept_of_prune found

/-- A call that leaves a key alone. -/
theorem Visited.leaves (visited : Visited window w history)
    {after : Window Key} {answer : Bool} {e : ℕ}
    (entries : after.entries key = some e → w.entries key = some e)
    (leaves : visit key history (call, answer) = none)
    (quiet : reserved key ((call, answer) :: history) = reserved key history ∧
      (∀ n, finished key n ((call, answer) :: history) = finished key n history) ∧
      stamps key ((call, answer) :: history) = stamps key history)
    (found : after.entries key = some e) :
    ∃ now, lastVisit key ((call, answer) :: history) = some now ∧
      0 < number window key ((call, answer) :: history) now := by
  rcases visited key e (entries found) with ⟨now, last, counts⟩
  refine ⟨now, ?_, ?_⟩
  · rw [lastVisit, leaves, Option.none_or, last]
  · rwa [(number_congr window quiet.1 quiet.2.1 quiet.2.2).2]

/-- One call keeps the table free of keys that count for nothing. -/
theorem Visited.step (window_pos : 0 < window)
    (visited : Visited window w history)
    (tracks : ∀ start, (∀ reading ∈ past, reading ≤ start) → Tracks limit window w history start)
    (steady : (past ++ call.readings).Pairwise (· ≤ ·)) :
    Visited window (w.call call).2 ((call, (w.call call).1) :: history) := by
  rw [List.pairwise_append] at steady
  have at_ : ∀ start ∈ call.readings, Tracks limit window w history start :=
    fun start mem => tracks start fun reading known => steady.2.2 reading known start mem
  intro key e found
  by_cases about : call.key? = some key
  · cases call with
    | available other start =>
        cases about
        refine ⟨start, by simp [lastVisit, visit], ?_⟩
        exact (at_ start (List.mem_singleton_self _)).counts_of_prune
          (quiet rfl (fun n ends => by cases ends) rfl) found
    | tryReserve other start =>
        cases about
        refine ⟨start, by simp [lastVisit, visit], ?_⟩
        have known := at_ start (List.mem_singleton_self _)
        cases admitted : (w.call (.tryReserve key start)).1 with
        | true =>
            have fresh : finished key (reserved key history) history = false := by
              by_contra again
              exact absurd (known.made key _ (Bool.not_eq_false _ ▸ again)) (lt_irrefl _)
            unfold number
            rw [unfinished_reserve start fresh]
            omega
        | false =>
            rw [Window.call, Window.TryReserve_refused admitted] at found
            exact known.counts_of_prune (quiet rfl (fun n ends => by cases ends) rfl) found
    | allowAndCount other start stamp =>
        cases about
        have known := at_ start List.mem_cons_self
        cases admitted : (w.call (.allowAndCount key start stamp)).1 with
        | true =>
            refine ⟨stamp, by simp [lastVisit, visit], ?_⟩
            have one : recent window [stamp] stamp = [stamp] := by
              refine List.filter_eq_self.mpr fun instant mem => decide_eq_true ?_
              rw [List.mem_singleton.mp mem]
              exact sub_lt_self stamp window_pos
            simp only [number, stamps, recorded, if_true, recent_append, one, List.length_append,
              List.length_singleton]
            omega
        | false =>
            refine ⟨start, by simp [lastVisit, visit], ?_⟩
            rw [Window.call, Window.AllowAndCount_refused admitted] at found
            exact known.counts_of_prune (quiet rfl (fun n ends => by cases ends) rfl) found
    | finish other n failed stamp start =>
        cases about
        have last : start ∈ (Call.finish key n failed stamp start).readings := by
          cases failed <;> simp [Call.readings]
        have known := at_ start last
        have called : w.call (.finish key n failed stamp start) =
          w.finish key n failed stamp start := rfl
        rw [called] at found ⊢
        rcases known.finish_cases key n failed stamp start with ⟨-, same⟩ | ⟨again, same⟩ |
          ⟨-, first, f, handed, open_, same⟩
        · rw [same] at found ⊢
          refine visited.leaves id (by simp [visit]) ?_ found
          refine quiet rfl (fun m ends => by cases ends) ?_
          cases failed <;> rfl
        · rw [same] at found ⊢
          refine visited.leaves id (by simp [visit, again]) ?_ found
          exact Tracks.quiet_finish again failed stamp start true key
        · rw [same] at found ⊢
          refine ⟨start, by simp [lastVisit, visit, first], ?_⟩
          exact (known.ended handed open_ failed stamp).kept_of_prune found
    | cleanup visits => cases about
    | close => cases about
  · have same := quiet_of_ne about (w.call call).1 history
    cases call with
    | available other start =>
        have differ : other ≠ key := fun eq => about (congrArg some eq)
        exact visited.leaves Window.entries_of_prune (by simp [visit, differ]) same found
    | tryReserve other start =>
        have differ : other ≠ key := fun eq => about (congrArg some eq)
        exact visited.leaves (Window.entries_of_TryReserve differ.symm) (by simp [visit, differ])
          same found
    | allowAndCount other start stamp =>
        have differ : other ≠ key := fun eq => about (congrArg some eq)
        exact visited.leaves (Window.entries_of_AllowAndCount differ.symm)
          (by simp [visit, differ]) same found
    | finish other n failed stamp start =>
        have differ : other ≠ key := fun eq => about (congrArg some eq)
        refine visited.leaves (fun known => ?_) (by simp [visit, differ]) same found
        have last : start ∈ (Call.finish other n failed stamp start).readings := by
          cases failed <;> simp [Call.readings]
        have called : w.call (.finish other n failed stamp start) =
          w.finish other n failed stamp start := rfl
        rw [called] at known
        rcases (at_ start last).finish_cases other n failed stamp start with ⟨-, same⟩ | ⟨-, same⟩ |
          ⟨-, -, f, -, -, same⟩
        · rwa [same] at known
        · rwa [same] at known
        · rw [same] at known
          have before := Window.entries_of_prune known
          simp only [Window.onEntry_entries, Function.update_of_ne differ.symm] at before
          exact before
    | cleanup visits =>
        cases sought : visits.reverse.find? fun visit => decide (visit.1 = key) with
        | none =>
            refine visited.leaves (fun known => ?_) (by simp [visit, sought]) same found
            exact entries_of_cleanup known
        | some last =>
            refine ⟨last.2, by simp [lastVisit, visit, sought], ?_⟩
            rw [(number_congr window same.1 same.2.1 same.2.2).2]
            cases visits with
            | nil => cases sought
            | cons first visits =>
                have kept := (at_ first.2 List.mem_cons_self).kept_of_cleanup steady.2.1
                  (fun visit mem => by
                    rcases List.mem_cons.mp mem with rfl | mem
                    · exact le_rfl
                    · exact List.rel_of_pairwise_cons steady.2.1 (List.mem_map_of_mem mem)) found
                rw [sought] at kept
                exact kept
    | close => exact visited.leaves id rfl same found

end Calls

section Concerns

variable {limit window : ℤ} {key : Key} {call : Call Key}

/-- Calls of a history that concern a key. -/
def History.concerning (key : Key) (history : History Key) : History Key :=
  history.filter fun record => record.1.concerns key

theorem concerning_of_pos (about : call.concerns key = true) {admitted : Bool}
    {older : History Key} :
    History.concerning key ((call, admitted) :: older) =
      (call, admitted) :: older.concerning key := by
  simp [History.concerning, about]

theorem concerning_of_neg (other : call.concerns key = false) {admitted : Bool}
    {older : History Key} :
    History.concerning key ((call, admitted) :: older) = older.concerning key := by
  simp [History.concerning, other]

theorem key_ne_of_not_concerns (other : call.concerns key = false) : call.key? ≠ some key :=
  fun same => (of_decide_eq_false other) (.inl same)

/-- What is counted for a key is counted of the calls that concern it. -/
theorem counted_concerning (key : Key) (history : History Key) :
    reserved key (history.concerning key) = reserved key history ∧
      (∀ n, finished key n (history.concerning key) = finished key n history) ∧
      stamps key (history.concerning key) = stamps key history := by
  induction history with
  | nil => exact ⟨rfl, fun _ => rfl, rfl⟩
  | cons record older ih =>
      rcases record with ⟨call, admitted⟩
      rcases ih with ⟨sameReserved, sameFinished, sameStamps⟩
      cases about : call.concerns key with
      | false =>
          have same := quiet_of_ne (key_ne_of_not_concerns about) admitted older
          rw [concerning_of_neg about, same.1, same.2.2]
          exact ⟨sameReserved, fun n => (sameFinished n).trans (same.2.1 n).symm, sameStamps⟩
      | true =>
          rw [concerning_of_pos about]
          refine ⟨?_, fun n => ?_, ?_⟩
          · rw [reserved_cons, reserved_cons]
            exact congrArg (· + _) sameReserved
          · rw [finished_cons, finished_cons]
            exact congrArg _ (sameFinished n)
          · have records : recorded key (History.concerning key older) (call, admitted) =
                recorded key older (call, admitted) := by
              cases call with
              | finish other n failed stamp now =>
                  cases admitted <;> cases failed <;> simp [recorded, sameFinished]
              | _ => cases admitted <;> rfl
            simp only [stamps]
            exact congrArg₂ (· ++ ·) sameStamps records

theorem isOpen_concerning (key : Key) (history : History Key) :
    isOpen (history.concerning key) = isOpen history := by
  induction history with
  | nil => rfl
  | cons record older ih =>
      rcases record with ⟨call, admitted⟩
      cases about : call.concerns key with
      | false =>
          have open_ : call ≠ .close := fun same => (of_decide_eq_false about) (.inr same)
          rw [concerning_of_neg about, isOpen_cons, decide_eq_true open_, Bool.true_and]
          exact ih
      | true =>
          rw [concerning_of_pos about, isOpen_cons, isOpen_cons]
          exact congrArg _ ih

/-- The answer of a call that concerns a key is said by the calls that concern it. -/
theorem answer_concerning (limit window : ℤ) (history : History Key)
    (about : call.concerns key = true) :
    answer limit window (history.concerning key) call = answer limit window history call := by
  have counted := counted_concerning key history
  have sameNumber := (number_congr window counted.1 counted.2.1 counted.2.2).2
  have sameOpen := isOpen_concerning key history
  cases call with
  | available other now =>
      rcases of_decide_eq_true about with same | same
      · cases same
        simp only [answer, sameNumber, sameOpen]
      · cases same
  | tryReserve other now =>
      rcases of_decide_eq_true about with same | same
      · cases same
        simp only [answer, sameNumber, sameOpen]
      · cases same
  | allowAndCount other now stamp =>
      rcases of_decide_eq_true about with same | same
      · cases same
        simp only [answer, sameNumber, sameOpen]
      · cases same
  | finish other n failed stamp now =>
      rcases of_decide_eq_true about with same | same
      · cases same
        simp only [answer, counted.1]
      · cases same
  | cleanup visits => rfl
  | close => rfl

end Concerns

section Runs

variable {limit window : ℤ} {w : Window Key} {calls : List (Call Key)} {now : Time}

omit [DecidableEq Key] in
theorem steady_concat {last : Call Key} (steady : Steady (calls ++ [last])) :
    Steady calls ∧ (calls.flatMap Call.readings ++ last.readings).Pairwise (· ≤ ·) := by
  rw [Steady, List.flatMap_append, List.flatMap_singleton] at steady
  exact ⟨(List.pairwise_append.mp steady).1, steady⟩

theorem tracks_new (made : New Key limit window = some w) (now : Time) :
    0 < limit ∧ 0 < window ∧ Tracks limit window w [] now := by
  unfold New at made
  split at made
  · cases made
  · rename_i valid
    rw [not_or, not_le, not_le] at valid
    cases made
    refine ⟨valid.1, valid.2, ?_⟩
    exact
      { separate := ⟨fun _ _ found => (by cases found), fun _ _ _ found _ => (by cases found)⟩
        limit_eq := rfl
        window_eq := rfl
        closed := rfl
        handed := fun key => rfl
        done := fun key n f found => by cases found
        held := fun key n f found => by cases found
        made := fun key n known => by cases known
        inflight := fun key => rfl
        counts := fun key later after => rfl
        bounded := fun key later after => valid.1.le }

/-- After every run the limiter is in line with its history. -/
theorem tracks_run (made : New Key limit window = some w) (steady : Steady calls) :
    (∀ now, Since calls now →
      Tracks limit window (after Run.step (w, []) calls).1 (after Run.step (w, []) calls).2 now) ∧
    Visited window (after Run.step (w, []) calls).1 (after Run.step (w, []) calls).2 := by
  have positive := tracks_new made
  refine @history_after _ _ Run.step (w, []) (fun calls run => Steady calls →
    (∀ now, Since calls now → Tracks limit window run.1 run.2 now) ∧
      Visited window run.1 run.2) ?_ ?_ calls steady
  · intro _
    refine ⟨fun now _ => (positive now).2.2, fun key e found => ?_⟩
    have absent : w.entries key = none := by
      unfold New at made
      split at made
      · cases made
      · cases made
        rfl
    rw [absent] at found
    cases found
  · intro calls last ih steady
    rcases steady_concat steady with ⟨before, ordered⟩
    rcases ih before with ⟨tracks, visited⟩
    refine ⟨fun now since => ?_, visited.step (positive 0).2.1 tracks ordered⟩
    refine Tracks.step (positive 0).1 tracks ordered fun reading mem => since reading ?_
    rwa [List.flatMap_append, List.flatMap_singleton]

/-- Leaving out the calls on other keys leaves the history of a key. -/
theorem history_concerning (made : New Key limit window = some w) (steady : Steady calls)
    (key : Key) :
    (after Run.step (w, []) (calls.filter (Call.concerns key))).2 =
      (after Run.step (w, []) calls).2.concerning key := by
  have positive := tracks_new made
  refine @history_after _ _ Run.step (w, []) (fun calls run => Steady calls →
    (after Run.step (w, []) (calls.filter (Call.concerns key))).2 = run.2.concerning key)
    (fun _ => rfl) ?_ calls steady
  intro calls last ih steady
  rcases steady_concat steady with ⟨before, ordered⟩
  have same := ih before
  cases about : last.concerns key with
  | false =>
      rw [List.filter_append, List.filter_cons_of_neg (by simp [about]), List.filter_nil,
        List.append_nil, same]
      exact (concerning_of_neg about).symm
  | true =>
      rw [List.filter_append, List.filter_cons_of_pos about, List.filter_nil, after_concat]
      have fewer : List.Sublist ((calls.filter (Call.concerns key)).flatMap Call.readings)
          (calls.flatMap Call.readings) := List.filter_sublist.flatMap _
      have steadyFewer : Steady (calls.filter (Call.concerns key)) :=
        List.Pairwise.sublist fewer before
      have orderedFewer := List.Pairwise.sublist
        (fewer.append (List.Sublist.refl last.readings)) ordered
      have answers := Tracks.answer (positive 0).1 (tracks_run made before).1 ordered
      have answersFewer := Tracks.answer (positive 0).1 (tracks_run made steadyFewer).1 orderedFewer
      simp only [Run.step]
      rw [concerning_of_pos about, answersFewer, answers, same,
        answer_concerning limit window _ about]

end Runs

/-- The limiter is exact.  Over every run with a clock that does not go back the number of a key
never exceeds the limit; a request or reservation is admitted exactly when the limiter is open and
this number, read off the history, is below the limit; only the first call of the function of a
reservation has an effect; leaving out the calls on other keys changes nothing for a key; and a
key in the table counted for something when it was last visited. -/
theorem window_exact {limit window : ℤ} {w : Window Key}
    (made : New Key limit window = some w) {calls : List (Call Key)} (steady : Steady calls) :
    let run := after Run.step (w, []) calls
    (∀ key now, Since calls now → number window key run.2 now ≤ limit) ∧
    (∀ key now stamp, Since calls now → now ≤ stamp →
      ((run.1.call (.tryReserve key now)).1 = true ↔
        isOpen run.2 = true ∧ number window key run.2 now < limit) ∧
      ((run.1.call (.allowAndCount key now stamp)).1 = true ↔
        isOpen run.2 = true ∧ number window key run.2 now < limit) ∧
      ((run.1.call (.available key now)).1 = true ↔
        isOpen run.2 = true ∧ number window key run.2 now < limit)) ∧
    (∀ key n failed stamp now, finished key n run.2 = true →
      run.1.call (.finish key n failed stamp now) = (true, run.1)) ∧
    (∀ key, (after Run.step (w, []) (calls.filter (Call.concerns key))).2 =
      run.2.concerning key) ∧
    ∀ key e, run.1.entries key = some e →
      ∃ now, lastVisit key run.2 = some now ∧ 0 < number window key run.2 now := by
  intro run
  have positive := tracks_new made
  rcases tracks_run made steady with ⟨tracks, visited⟩
  refine ⟨fun key now since => (tracks now since).bounded key now le_rfl, ?_, ?_,
    history_concerning made steady, visited⟩
  · intro key now stamp since le
    have before : ∀ reading ∈ calls.flatMap Call.readings, ∀ next ∈ [now, stamp],
        reading ≤ next := by
      intro reading mem next isNext
      rcases List.mem_cons.mp isNext with rfl | isNext
      · exact since reading mem
      · rw [List.mem_singleton.mp isNext]
        exact (since reading mem).trans le
    have both : (calls.flatMap Call.readings ++ [now, stamp]).Pairwise (· ≤ ·) :=
      List.pairwise_append.mpr ⟨steady, by simpa using le, before⟩
    have one : (calls.flatMap Call.readings ++ [now]).Pairwise (· ≤ ·) := by
      refine List.Pairwise.sublist ?_ both
      exact List.Sublist.append_left (List.sublist_append_left [now] [stamp]) _
    refine ⟨?_, ?_, ?_⟩
    · rw [@Tracks.answer _ _ _ _ _ _ _ (.tryReserve key now) (positive 0).1 tracks one]
      simp [answer, run]
    · rw [@Tracks.answer _ _ _ _ _ _ _ (.allowAndCount key now stamp) (positive 0).1 tracks both]
      simp [answer, run]
    · rw [@Tracks.answer _ _ _ _ _ _ _ (.available key now) (positive 0).1 tracks one]
      simp [answer, run]
  · intro key n failed stamp now again
    rcases (calls.flatMap Call.readings).toFinset.exists_le with ⟨last, since⟩
    have known := tracks last fun reading mem => since reading (List.mem_toFinset.mpr mem)
    rcases known.finish_cases key n failed stamp now with ⟨early, -⟩ | ⟨-, same⟩ | ⟨-, first, -⟩
    · exact absurd (known.made key n again) (by omega)
    · exact same
    · rw [again] at first
      cases first

/-- A limiter for two attempts in ten units of time. -/
def sampleWindow : Window String := ⟨fun _ => none, fun _ => ⟨[], 0⟩, 0, fun _ => [], 2, 10, false⟩

/-- An attempt that fails, another that is still being checked, and one of another address. -/
def sampleCalls : List (Call String) :=
  [.tryReserve "first" 0, .finish "first" 0 true 1 1, .tryReserve "second" 2,
    .tryReserve "first" 3]

/-- A third attempt is refused until the failure is a window ago. -/
theorem sampleCalls_exact :
    ((after Run.step (sampleWindow, []) sampleCalls).1.call (.tryReserve "first" 4)).1 = false ∧
      ((after Run.step (sampleWindow, []) sampleCalls).1.call (.tryReserve "first" 11)).1 =
        true := by
  have made : New String 2 10 = some sampleWindow := by simp [New, sampleWindow]
  have steady : Steady sampleCalls := by decide
  have admits := (window_exact made steady).2.1 "first"
  have since : ∀ now, 3 ≤ now → Since sampleCalls now := by
    intro now le reading mem
    have early : reading ≤ 3 := by
      revert reading
      decide
    exact early.trans le
  refine ⟨?_, (admits 11 11 (since 11 (by decide)) le_rfl).1.mpr (by decide)⟩
  rw [← Bool.not_eq_true, (admits 4 4 (since 4 (by decide)) le_rfl).1]
  decide

end TelemtPanel.RateLimit
