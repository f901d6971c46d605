import TelemtPanel.Library.NetRead
import TelemtPanel.Polling.UserIPCollector
import TelemtPanel.Store.UserIP.Cap

/-!
# Batches of the collector

Whatever telemt reports and whenever the store fails, the collector holds no more than its limits
allow, and every batch that it passes to the store is one that the store accepts.
-/

namespace TelemtPanel.Store

open TelemtPanel.Library

/-- A normalised address is normalised to itself. -/
theorem normalizeUserIP_idem {raw ip : String} {family : ℤ}
    (normalized : normalizeUserIP raw = .ok (ip, family)) :
    normalizeUserIP ip = .ok (ip, family) := by
  unfold normalizeUserIP at normalized
  cases parsed : Addr.parse raw with
  | none =>
      rw [parsed] at normalized
      cases normalized
  | some address =>
      rw [parsed] at normalized
      dsimp only at normalized
      split at normalized
      · cases normalized
      rename_i proper
      split at normalized
      · cases normalized
      rename_i unmapped
      cases normalized
      rw [not_or, not_or, not_not] at proper
      have zoneless : address.unmap.zone = [] := by
        cases address with
        | v4 octets => rfl
        | v6 groups zone =>
            unfold Addr.unmap
            dsimp only
            split
            · rfl
            · exact proper.1
      have again : address.unmap.unmap = address.unmap := by
        cases address with
        | v4 octets => rfl
        | v6 groups zone =>
            by_cases mapped : groups.val.take 6 = [0, 0, 0, 0, 0, 0xffff] ∧
                ((groups.val.drop 6).flatMap Addr.octetsOfGroup).length = 4
            · simp only [Addr.unmap, dif_pos mapped]
            · simp only [Addr.unmap, dif_neg mapped]
      unfold normalizeUserIP
      rw [Addr.parse_text zoneless]
      dsimp only
      rw [again, if_neg, if_neg unmapped]
      rintro (zoned | improper)
      · exact zoned zoneless
      · exact unmapped improper

end TelemtPanel.Store

namespace TelemtPanel.Polling

open TelemtPanel.Library Store

/-- What is left alone while the lists of a user are read; the limited mark stays. -/
structure UserIPCollector.Marks (c next : UserIPCollector) : Prop where
  generation : next.generation = c.generation
  pending : next.pending = c.pending
  retry : next.retry = c.retry
  live : next.live = c.live
  through : next.through = c.through
  flushed : next.flushed = c.flushed
  limited : c.limited = true → next.limited = true

section ReadUser

variable {c : UserIPCollector} {liveCount : ℕ} {perUserLimit : ℤ} {index : ℕ} {pass : UserPass}

theorem UserIPCollector.Marks.refl (c : UserIPCollector) : c.Marks c :=
  ⟨rfl, rfl, rfl, rfl, rfl, rfl, id⟩

theorem UserIPCollector.Marks.trans {next last : UserIPCollector} (first : c.Marks next)
    (second : next.Marks last) : c.Marks last :=
  ⟨second.generation.trans first.generation, second.pending.trans first.pending,
    second.retry.trans first.retry, second.live.trans first.live,
    second.through.trans first.through, second.flushed.trans first.flushed,
    second.limited ∘ first.limited⟩

/-- What holds while the lists of a user are read: active addresses are counted, and those that
have been observed are normalised. -/
structure UserPass.Sound (c : UserIPCollector) (liveCount : ℕ) (pass : UserPass) : Prop where
  marks : c.Marks pass.c
  active : ∀ (ip : String) value, pass.live.active[ip]? = some value → value = true
  count : pass.liveCount = liveCount + pass.live.active.size
  room : pass.liveCount ≤ userIPMemoryLimit
  canonical : ∀ (ip : String) source, pass.union[ip]? = some source →
    (∃ family, normalizeUserIP ip = .ok (ip, family)) ∧ 1 ≤ source ∧ source ≤ 3

/-- What one address does to the pass: nothing that has been observed is forgotten, and the address
is observed unless the collection is limited. -/
structure UserPass.Reads (pass next : UserPass) (raw : String) : Prop where
  limited : pass.c.limited = true → next.c.limited = true
  kept : ∀ ip : String, pass.union[ip]? ≠ none → next.union[ip]? ≠ none
  read : next.c.limited = false → ∀ ip family, normalizeUserIP raw = .ok (ip, family) →
    next.union[ip]? ≠ none

theorem UserPass.Sound.observeActive (sound : pass.Sound c liveCount) (ip : String) :
    (pass.observeActive ip).Sound c liveCount ∧ (pass.observeActive ip).union = pass.union ∧
      (pass.c.limited = true → (pass.observeActive ip).c.limited = true) := by
  have here := sound.marks
  unfold UserPass.observeActive
  simp only
  split
  · exact ⟨⟨⟨here.1, here.2, here.3, here.4, here.5, here.6, fun _ => rfl⟩, sound.active,
      sound.count, sound.room, sound.canonical⟩, rfl, fun _ => rfl⟩
  · rename_i beyond
    split
    · rename_i unknown
      have absent : pass.live.active[ip]? = none := by
        cases found : pass.live.active[ip]? with
        | none => rfl
        | some value =>
            rw [found, Option.getD_some, sound.active ip value found] at unknown
            cases unknown
      have count := sound.count
      refine ⟨⟨here, ?_, ?_, ?_, sound.canonical⟩, rfl, id⟩
      · intro other value found
        simp only [Table.lookup_insert] at found
        split at found
        · cases found
          rfl
        · exact sound.active other value found
      · simp only [Table.size_insert_of_none absent]
        omega
      · by_contra full
        exact beyond ⟨Nat.le_of_lt_succ (not_le.mp full), unknown⟩
    · exact ⟨sound, rfl, id⟩

/-- The marks of a source add up to at least one and at most three. -/
theorem source_lor {source index : ℕ} (small : source ≤ 3) (isIndex : index ≤ 1) :
    1 ≤ source ||| 1 <<< index ∧ source ||| 1 <<< index ≤ 3 := by
  interval_cases source <;> interval_cases index <;> decide

theorem UserPass.Sound.observeUnion (sound : pass.Sound c liveCount) (isIndex : index ≤ 1)
    {ip : String} {family : ℤ} (canonical : normalizeUserIP ip = .ok (ip, family)) :
    (pass.observeUnion perUserLimit index ip).Sound c liveCount ∧
      (pass.c.limited = true → (pass.observeUnion perUserLimit index ip).c.limited = true) ∧
      (∀ other : String, pass.union[other]? ≠ none →
        (pass.observeUnion perUserLimit index ip).union[other]? ≠ none) ∧
      ((pass.observeUnion perUserLimit index ip).c.limited = false →
        (pass.observeUnion perUserLimit index ip).union[ip]? ≠ none) := by
  have here := sound.marks
  unfold UserPass.observeUnion
  split
  · refine ⟨⟨⟨here.1, here.2, here.3, here.4, here.5, here.6, fun _ => rfl⟩, sound.active,
      sound.count, sound.room, sound.canonical⟩, fun _ => rfl, fun _ => id, fun unset => ?_⟩
    cases unset
  · refine ⟨⟨here, sound.active, sound.count, sound.room, ?_⟩, id, ?_, fun _ => ?_⟩
    · intro other source found
      simp only [Table.lookup_insert] at found
      split at found
      · rename_i same
        cases found
        refine ⟨⟨family, same ▸ canonical⟩, source_lor ?_ isIndex⟩
        cases known : pass.union[ip]? with
        | none => exact Nat.zero_le 3
        | some source => exact (sound.canonical ip source known).2.2
      · exact sound.canonical other source found
    · intro other known
      simp only [Table.lookup_insert]
      split
      · simp
      · exact known
    · simp

/-- Reading one address. -/
theorem UserPass.Sound.observeAddress (sound : pass.Sound c liveCount) (isIndex : index ≤ 1)
    (raw : String) : (pass.observeAddress perUserLimit index raw).Sound c liveCount ∧
      pass.Reads (pass.observeAddress perUserLimit index raw) raw := by
  have here := sound.marks
  unfold UserPass.observeAddress
  cases normalized : normalizeUserIP raw with
  | error refusal =>
      dsimp only
      split
      · refine ⟨⟨⟨here.1, here.2, here.3, here.4, here.5, here.6, here.7⟩, sound.active,
          sound.count, sound.room, sound.canonical⟩, id, fun _ => id, ?_⟩
        intro _ ip family isOk
        cases normalized.symm.trans isOk
      · refine ⟨⟨⟨here.1, here.2, here.3, here.4, here.5, here.6, here.7⟩, sound.active,
          sound.count, sound.room, sound.canonical⟩, id, fun _ => id, ?_⟩
        intro _ ip family isOk
        cases normalized.symm.trans isOk
  | ok address =>
      rcases address with ⟨ip, family⟩
      have canonical := normalizeUserIP_idem normalized
      have active : ∀ next : UserPass, next.Sound c liveCount → next.union = pass.union →
          (pass.c.limited = true → next.c.limited = true) →
          (next.observeUnion perUserLimit index ip).Sound c liveCount ∧
            pass.Reads (next.observeUnion perUserLimit index ip) raw := by
        intro next nextSound union limited
        rcases @UserPass.Sound.observeUnion _ _ perUserLimit _ _ nextSound isIndex _ _ canonical
          with ⟨unionSound, unionLimited, kept, read⟩
        refine ⟨unionSound, unionLimited ∘ limited, fun other known => ?_, ?_⟩
        · exact kept other (union ▸ known)
        · intro unset other otherFamily isOk
          cases normalized.symm.trans isOk
          exact read unset
      dsimp only
      split
      · rcases sound.observeActive ip with ⟨nextSound, union, limited⟩
        exact active _ nextSound union limited
      · exact active pass sound rfl id

/-- Reading one list. -/
theorem UserPass.Sound.observeList (sound : pass.Sound c liveCount) (isIndex : index ≤ 1)
    (list : Option (List String)) :
    (pass.observeList perUserLimit index list).Sound c liveCount ∧
      (pass.c.limited = true → (pass.observeList perUserLimit index list).c.limited = true) ∧
      (∀ ip : String, pass.union[ip]? ≠ none →
        (pass.observeList perUserLimit index list).union[ip]? ≠ none) ∧
      ((pass.observeList perUserLimit index list).c.limited = false → ∀ raw ∈ list.getD [],
        ∀ ip family, normalizeUserIP raw = .ok (ip, family) →
          (pass.observeList perUserLimit index list).union[ip]? ≠ none) := by
  have here := sound.marks
  cases list with
  | none =>
      refine ⟨⟨⟨here.1, here.2, here.3, here.4, here.5, here.6, here.7⟩, sound.active,
        sound.count, sound.room, sound.canonical⟩, id, fun _ => id, ?_⟩
      intro _ raw mem
      cases mem
  | some list =>
      simp only [UserPass.observeList, Option.getD_some]
      clear here
      induction list generalizing pass with
      | nil =>
          refine ⟨sound, id, fun _ => id, ?_⟩
          intro _ raw mem
          cases mem
      | cons first list ih =>
          rcases @UserPass.Sound.observeAddress _ _ perUserLimit _ _ sound isIndex first with
            ⟨next, reads⟩
          rcases ih next with ⟨last, limited, kept, all⟩
          refine ⟨last, limited ∘ reads.limited, fun ip known => kept ip (reads.kept ip known), ?_⟩
          intro unset raw mem ip family isOk
          rcases List.mem_cons.mp mem with rfl | mem
          · refine kept ip (reads.read ?_ ip family isOk)
            exact Bool.eq_false_iff.mpr fun set => by
              rw [List.foldl_cons, limited set] at unset
              cases unset
          · exact all unset raw mem ip family isOk

end ReadUser

/-- The last observation of an address is the one of a given time. -/
def UserIPCollector.Records (c : UserIPCollector) (now : ℤ) (key : UserIPKey) : Prop :=
  ∃ r, c.pending[key]? = some r ∧ r.last = now

/-- A name under which addresses are collected. -/
def ProperName (username : String) : Prop := username ≠ "" ∧ username.utf8ByteSize ≤ 256

/-- What holds while the users of a response are read: the records are those of a batch, and what
is kept is counted. -/
structure ObservePass.Sound (c : UserIPCollector) (now : ℤ) (pass : ObservePass) : Prop where
  generation : pass.c.generation = c.generation
  retry : pass.c.retry = c.retry
  flushed : pass.c.flushed = c.flushed
  through : pass.c.through = now
  keyed : UserIPTable.HoldsKeys pass.c.pending
  valid : ∀ r ∈ pass.c.pending.rows, r.Valid ∧ r.last ≤ now
  buffered : pass.c.pending.size + c.retryKeys = pass.buffered
  room : pass.buffered ≤ userIPBatchLimit
  users : pass.c.live.size ≤ userIPMemoryLimit
  overlay : pass.c.live.rowSum (·.active.size) ≤ pass.liveCount
  liveRoom : pass.liveCount ≤ userIPMemoryLimit

/-- What a part of the loop does: it records what it reads unless the collection is limited. -/
structure ObservePass.Reads (now : ℤ) (pass next : ObservePass) (keys : UserIPKey → Prop) :
    Prop where
  limited : pass.c.limited = true → next.c.limited = true
  kept : ∀ key, pass.c.Records now key → next.c.Records now key
  recorded : next.c.limited = false → ∀ key, keys key → next.c.Records now key

section Records

variable {c : UserIPCollector} {now : ℤ} {pass : ObservePass} {username : String}

theorem ObservePass.Reads.trans {next last : ObservePass} {keys others : UserIPKey → Prop}
    (first : pass.Reads now next keys) (second : next.Reads now last others) :
    pass.Reads now last fun key => keys key ∨ others key := by
  refine ⟨second.limited ∘ first.limited, fun key known => second.kept key (first.kept key known),
    ?_⟩
  rintro unset key (early | late)
  · refine second.kept key (first.recorded ?_ key early)
    exact Bool.eq_false_iff.mpr fun set => by
      rw [second.limited set] at unset
      cases unset
  · exact second.recorded unset key late

theorem ObservePass.Reads.mono {next : ObservePass} {keys others : UserIPKey → Prop}
    (reads : pass.Reads now next keys) (fewer : ∀ key, others key → keys key) :
    pass.Reads now next others :=
  ⟨reads.limited, reads.kept, fun unset key isKey => reads.recorded unset key (fewer key isKey)⟩

/-- An observed record is one that the store accepts. -/
theorem valid_observedRecord (proper : ProperName username) (positive : 0 < now) {ip : String}
    {source : ℕ} (canonical : ∃ family, normalizeUserIP ip = .ok (ip, family))
    (isSource : 1 ≤ source ∧ source ≤ 3) : (observedRecord username now ip source).Valid := by
  rcases canonical with ⟨family, normalized⟩
  have active : (observedRecord username now ip source).lastActive = 0 ∨
      (observedRecord username now ip source).lastActive = now := by
    simp only [observedRecord]
    split
    · exact .inr rfl
    · exact .inl rfl
  refine ⟨?_, proper.1, proper.2, positive, le_rfl, le_rfl, ?_, ?_, ?_⟩
  · simp only [observedRecord, normalized]
  · simp only [observedRecord]
    omega
  · omega
  · intro nonzero
    rcases active with none | isNow
    · exact absurd none nonzero
    · rw [isNow]
      exact ⟨le_rfl, le_rfl⟩

/-- A record that is summed up with a later one is still one that the store accepts. -/
theorem valid_mergeUserIPRecord {known : Option UserIPRecord} {next : UserIPRecord}
    (sound : ∀ old ∈ known, old.Valid ∧ old.last ≤ next.last ∧ old.key = next.key)
    (valid : next.Valid) : (mergeUserIPRecord known next).Valid ∧
      (mergeUserIPRecord known next).last = next.last ∧
      (mergeUserIPRecord known next).key = next.key := by
  cases known with
  | none => exact ⟨valid, rfl, rfl⟩
  | some old =>
      rcases sound old rfl with ⟨oldValid, earlier, sameKey⟩
      have counted := oldValid.observations
      have ordered := oldValid.last
      have active := oldValid.active
      have oldActive := oldValid.lastActive
      have nextCounted := valid.observations
      have nextOrdered := valid.last
      have nextActive := valid.active
      have nextLastActive := valid.lastActive
      rw [mergeUserIPRecord, if_neg (by omega)]
      simp only [if_pos earlier]
      refine ⟨⟨oldValid.address, oldValid.username, oldValid.usernameLength, ?_, ?_, ?_,
        valid.source, ?_, ?_⟩, trivial, sameKey⟩
      · exact lt_min oldValid.first valid.first
      · exact (min_le_right _ _).trans nextOrdered
      · dsimp only
        split
        · decide
        · omega
      · exact le_max_of_le_left oldActive
      · intro nonzero
        dsimp only at nonzero ⊢
        omega

/-- Recording one address. -/
theorem ObservePass.Sound.observeRecord (sound : pass.Sound c now) (proper : ProperName username)
    (positive : 0 < now) {entry : String × ℕ}
    (canonical : ∃ family, normalizeUserIP entry.1 = .ok (entry.1, family))
    (isSource : 1 ≤ entry.2 ∧ entry.2 ≤ 3) :
    (observeRecord username now pass entry).Sound c now ∧
      pass.Reads now (observeRecord username now pass entry) (· = ⟨username, entry.1⟩) := by
  have valid := valid_observedRecord proper positive canonical isSource
  unfold Polling.observeRecord
  simp only
  split
  · refine ⟨⟨sound.generation, sound.retry, sound.flushed, sound.through, sound.keyed, sound.valid,
      sound.buffered, sound.room, sound.users, sound.overlay, sound.liveRoom⟩, fun _ => rfl,
      fun _ => id, fun unset => ?_⟩
    cases unset
  · rename_i fits
    have merged := @valid_mergeUserIPRecord pass.c.pending[(⟨username, entry.1⟩ : UserIPKey)]?
      (observedRecord username now entry.1 entry.2) (by
        intro old known
        have carried := sound.keyed _ _ known
        have oldValid := sound.valid old (sound.keyed.mem_rows.mpr (by rwa [carried]))
        exact ⟨oldValid.1, oldValid.2, carried⟩) valid
    have keyed : UserIPTable.HoldsKeys (pass.c.pending.insert ⟨username, entry.1⟩
        (mergeUserIPRecord pass.c.pending[(⟨username, entry.1⟩ : UserIPKey)]?
          (observedRecord username now entry.1 entry.2))) :=
      Table.Keyed.insert sound.keyed merged.2.2
    refine ⟨⟨sound.generation, sound.retry, sound.flushed, sound.through, keyed, ?_, ?_, ?_,
      sound.users, sound.overlay, sound.liveRoom⟩, ⟨id, ?_, ?_⟩⟩
    · intro r mem
      have found := keyed.mem_rows.mp mem
      rw [Table.lookup_insert] at found
      split at found
      · cases found
        exact ⟨merged.1, merged.2.1.le⟩
      · exact sound.valid r (sound.keyed.mem_rows.mpr found)
    · have count := sound.buffered
      cases known : pass.c.pending[(⟨username, entry.1⟩ : UserIPKey)]? with
      | none =>
          simp only [Table.size_insert_of_none known, if_true]
          omega
      | some old =>
          simp only [Table.size_insert_of_some known, reduceCtorEq, if_false]
          exact count
    · have room := sound.room
      dsimp only
      split
      · rename_i absent
        rw [not_and, not_le] at fits
        exact fits absent
      · exact room
    · rintro key ⟨r, found, isNow⟩
      unfold UserIPCollector.Records
      simp only [Table.lookup_insert]
      split
      · exact ⟨_, rfl, merged.2.1⟩
      · exact ⟨r, found, isNow⟩
    · rintro - key rfl
      unfold UserIPCollector.Records
      simp only [Table.lookup_insert, if_true]
      exact ⟨_, rfl, merged.2.1⟩

/-- Recording the addresses of one user. -/
theorem ObservePass.Sound.observeRecords (sound : pass.Sound c now) (proper : ProperName username)
    (positive : 0 < now) {entries : List (String × ℕ)}
    (canonical : ∀ entry ∈ entries, (∃ family, normalizeUserIP entry.1 = .ok (entry.1, family)) ∧
      1 ≤ entry.2 ∧ entry.2 ≤ 3) :
    (entries.foldl (Polling.observeRecord username now) pass).Sound c now ∧
      pass.Reads now (entries.foldl (Polling.observeRecord username now) pass)
        fun key => ∃ entry ∈ entries, key = ⟨username, entry.1⟩ := by
  induction entries generalizing pass with
  | nil =>
      refine ⟨sound, id, fun _ => id, ?_⟩
      rintro - key ⟨entry, mem, -⟩
      cases mem
  | cons entry entries ih =>
      rcases List.forall_mem_cons.mp canonical with ⟨first, rest⟩
      rcases sound.observeRecord proper positive first.1 first.2 with ⟨next, reads⟩
      rcases ih next rest with ⟨last, others⟩
      refine ⟨last, (reads.trans others).mono ?_⟩
      rintro key ⟨other, mem, rfl⟩
      rcases List.mem_cons.mp mem with rfl | mem
      · exact .inl rfl
      · exact .inr ⟨other, mem, rfl⟩

end Records

/-- An address that a response lists under a proper name. -/
def UserInfo.Observed (user : UserInfo) (key : UserIPKey) : Prop :=
  user.username = key.username ∧ ProperName user.username ∧
    ∃ raw ∈ user.activeIPList.getD [] ++ user.recentIPList.getD [],
      ∃ family, normalizeUserIP raw = .ok (key.ip, family)

section ReadUsers

variable {c : UserIPCollector} {now : ℤ} {pass : ObservePass} {perUserLimit : ℤ}

theorem mem_canonicalActive {list : List String} {raw ip : String} {family : ℤ} (mem : raw ∈ list)
    (normalized : normalizeUserIP raw = .ok (ip, family)) : ip ∈ canonicalActive list := by
  rw [canonicalActive, Sorter.mem_sort]
  refine List.mem_map.mpr ⟨raw, mem, ?_⟩
  rw [normalized]

/-- Reading the lists of a user. -/
theorem ObservePass.Sound.readUser (sound : pass.Sound c now) (user : UserInfo) :
    (readUser perUserLimit now pass user).Sound pass.c pass.liveCount ∧
      ((readUser perUserLimit now pass user).c.limited = false →
        ∀ raw ∈ user.activeIPList.getD [] ++ user.recentIPList.getD [], ∀ ip family,
          normalizeUserIP raw = .ok (ip, family) →
            (readUser perUserLimit now pass user).union[ip]? ≠ none) := by
  have start : UserPass.Sound pass.c pass.liveCount
      { c := { pass.c with liveKnown := pass.c.liveKnown || user.activeIPList.isSome }
        liveCount := pass.liveCount
        live := ⟨now, user.activeIPList.isSome, ∅⟩
        union := ∅ } := by
    refine ⟨⟨rfl, rfl, rfl, rfl, rfl, rfl, id⟩, ?_, ?_, sound.liveRoom, ?_⟩
    · intro ip value found
      simp at found
    · simp
    · intro ip source found
      simp at found
  rcases @UserPass.Sound.observeList _ _ perUserLimit 0 _ start (by decide)
    (user.activeIPList.map canonicalActive) with ⟨first, -, -, active⟩
  rcases @UserPass.Sound.observeList _ _ perUserLimit 1 _ first (by decide) user.recentIPList with
    ⟨second, limited, kept, recent⟩
  refine ⟨second, fun unset raw mem ip family normalized => ?_⟩
  rcases List.mem_append.mp mem with mem | mem
  · refine kept ip (active ?_ ip ?_ ip family (normalizeUserIP_idem normalized))
    · exact Bool.eq_false_iff.mpr fun set => by
        rw [Polling.readUser, limited set] at unset
        cases unset
    · cases lists : user.activeIPList with
      | none =>
          rw [lists] at mem
          cases mem
      | some list =>
          rw [lists] at mem
          exact mem_canonicalActive mem normalized
  · exact recent unset raw mem ip family normalized

/-- Observing a user. -/
theorem ObservePass.Sound.observeUser (sound : pass.Sound c now) (positive : 0 < now)
    {order : MapOrder (String × ℕ)} {user : UserInfo} (proper : ProperName user.username)
    (few : pass.c.live.size < userIPMemoryLimit) :
    (observeUser perUserLimit now order pass user).Sound c now ∧
      pass.Reads now (observeUser perUserLimit now order pass user) user.Observed := by
  rcases @ObservePass.Sound.readUser _ _ _ perUserLimit sound user with ⟨read, all⟩
  set result := Polling.readUser perUserLimit now pass user with resultEq
  have marks := read.marks
  have stored : (result.storeLive user.username).generation = result.c.generation ∧
      (result.storeLive user.username).retry = result.c.retry ∧
      (result.storeLive user.username).flushed = result.c.flushed ∧
      (result.storeLive user.username).through = result.c.through ∧
      (result.storeLive user.username).pending = result.c.pending ∧
      (result.storeLive user.username).limited = result.c.limited ∧
      (result.storeLive user.username).live = result.c.live.insert user.username result.live := by
    unfold UserPass.storeLive
    split
    · exact ⟨rfl, rfl, rfl, rfl, rfl, rfl, rfl⟩
    · exact ⟨rfl, rfl, rfl, rfl, rfl, rfl, rfl⟩
  rcases stored with ⟨generation, retry, flushed, through, pending, limited, live⟩
  have start : ObservePass.Sound c now
      ⟨result.storeLive user.username, result.liveCount, pass.buffered⟩ := by
    refine ⟨?_, ?_, ?_, ?_, ?_, ?_, ?_, sound.room, ?_, ?_, read.room⟩
    · rw [generation, marks.generation, sound.generation]
    · rw [retry, marks.retry, sound.retry]
    · rw [flushed, marks.flushed, sound.flushed]
    · rw [through, marks.through, sound.through]
    · rw [pending, marks.pending]
      exact sound.keyed
    · rw [pending, marks.pending]
      exact sound.valid
    · rw [pending, marks.pending]
      exact sound.buffered
    · rw [live, marks.live]
      have grown := @Std.ExtTreeMap.size_insert_le _ _ _ pass.c.live _ user.username result.live
      exact grown.trans few
    · rw [live, marks.live]
      have grown := Table.rowSum_insert_le (·.active.size) pass.c.live user.username result.live
      have overlay := sound.overlay
      have count := read.count
      dsimp only at grown ⊢
      omega
  have canonical : ∀ entry ∈ order.sort result.union.toList,
      (∃ family, normalizeUserIP entry.1 = .ok (entry.1, family)) ∧ 1 ≤ entry.2 ∧ entry.2 ≤ 3 := by
    intro entry mem
    rw [Sorter.mem_sort] at mem
    exact read.canonical entry.1 entry.2 ((Table.mem_toList _ _ _).mp mem)
  rcases start.observeRecords proper positive canonical with ⟨last, reads⟩
  refine ⟨last, ⟨fun set => reads.limited ?_, fun key known => reads.kept key ?_, ?_⟩⟩
  · exact limited.trans (marks.limited set)
  · unfold UserIPCollector.Records
    rw [pending, marks.pending]
    exact known
  · rintro unset key ⟨username, -, raw, mem, family, normalized⟩
    have noLimit : result.c.limited = false := by
      refine Bool.eq_false_iff.mpr fun set => ?_
      have marked := reads.limited (limited.trans set)
      rw [Polling.observeUser] at unset
      rw [unset] at marked
      cases marked
    have inUnion := all noLimit raw mem key.ip family normalized
    rcases Option.ne_none_iff_exists'.mp inUnion with ⟨source, found⟩
    refine reads.recorded unset key ⟨(key.ip, source), ?_, ?_⟩
    · rw [Sorter.mem_sort]
      exact (Table.mem_toList _ _ _).mpr found
    · rw [username]

/-- Observing the users one after the other. -/
theorem ObservePass.Sound.observeUsers (sound : pass.Sound c now) (positive : 0 < now)
    {order : ℕ → MapOrder (String × ℕ)} {index : ℕ} {users : List UserInfo} :
    (observeUsers perUserLimit now order index pass users).Sound c now ∧
      pass.Reads now (observeUsers perUserLimit now order index pass users)
        fun key => ∃ user ∈ users, user.Observed key := by
  induction users generalizing pass index with
  | nil =>
      refine ⟨sound, id, fun _ => id, ?_⟩
      rintro - key ⟨user, mem, -⟩
      cases mem
  | cons user users ih =>
      rw [Polling.observeUsers]
      split
      · rename_i improper
        have next : ObservePass.Sound c now
            { pass with c := { pass.c with
                gap := true
                livePartial := true
                liveInvalidUsers := pass.c.liveInvalidUsers + 1 } } :=
          ⟨sound.generation, sound.retry, sound.flushed, sound.through, sound.keyed, sound.valid,
            sound.buffered, sound.room, sound.users, sound.overlay, sound.liveRoom⟩
        rcases @ih _ next (index + 1) with ⟨last, reads⟩
        refine ⟨last, ⟨reads.limited, reads.kept, fun unset key observed => ?_⟩⟩
        rcases observed with ⟨other, mem, observed⟩
        rcases List.mem_cons.mp mem with rfl | mem
        · rcases improper with nameless | long
          · exact absurd nameless observed.2.1.1
          · exact absurd observed.2.1.2 (not_le.mpr long)
        · exact reads.recorded unset key ⟨other, mem, observed⟩
      · rename_i proper
        rw [not_or, not_lt] at proper
        split
        · refine ⟨⟨sound.generation, sound.retry, sound.flushed, sound.through, sound.keyed,
            sound.valid, sound.buffered, sound.room, sound.users, sound.overlay, sound.liveRoom⟩,
            fun _ => rfl, fun _ => id, fun unset => ?_⟩
          cases unset
        · rename_i few
          rcases @ObservePass.Sound.observeUser _ _ _ perUserLimit sound positive (order index) user
            proper (not_le.mp few) with ⟨next, reads⟩
          rcases @ih _ next (index + 1) with ⟨last, others⟩
          refine ⟨last, (reads.trans others).mono ?_⟩
          rintro key ⟨other, mem, observed⟩
          rcases List.mem_cons.mp mem with rfl | mem
          · exact .inl observed
          · exact .inr ⟨other, mem, observed⟩

end ReadUsers

/-- What holds of the collector between two steps. -/
structure UserIPCollector.Sound (c : UserIPCollector) : Prop where
  through : 0 ≤ c.through
  flushed : 0 ≤ c.flushed
  saved : c.flushed ≤ c.through
  keyed : UserIPTable.HoldsKeys c.pending
  valid : ∀ r ∈ c.pending.rows, r.Valid ∧ r.last ≤ c.through
  room : c.pending.size + c.retryKeys ≤ userIPBatchLimit
  retry : ∀ batch ∈ c.retry, batch.Valid ∧ batch.through ≤ c.through
  users : c.live.size ≤ userIPMemoryLimit
  overlay : c.live.rowSum (·.active.size) ≤ userIPMemoryLimit

section Steps

variable {c : UserIPCollector}

theorem sound_empty : UserIPCollector.empty.Sound := by
  refine ⟨le_rfl, le_rfl, le_rfl, Table.keyed_empty, ?_, by decide +kernel, ?_,
    by decide +kernel, ?_⟩
  · intro r mem
    have nothing : (∅ : UserIPTable).rows = [] := by decide +kernel
    simp only [UserIPCollector.empty, nothing] at mem
    cases mem
  · intro batch mem
    cases mem
  · rw [UserIPCollector.empty, Table.rowSum_empty]
    exact Nat.zero_le _

theorem UserIPCollector.retryKeys_of_eq {next : UserIPCollector} (same : next.retry = c.retry) :
    next.retryKeys = c.retryKeys := by
  rw [UserIPCollector.retryKeys, same, UserIPCollector.retryKeys]

/-- Only the bounded parts of the collector matter. -/
theorem UserIPCollector.Sound.congr (sound : c.Sound) {next : UserIPCollector}
    (through : next.through = c.through) (flushed : next.flushed = c.flushed)
    (pending : next.pending = c.pending) (retry : next.retry = c.retry)
    (live : next.live = c.live) : next.Sound := by
  refine ⟨through ▸ sound.through, flushed ▸ sound.flushed, ?_, pending ▸ sound.keyed, ?_, ?_, ?_,
    live ▸ sound.users, live ▸ sound.overlay⟩
  · rw [flushed, through]
    exact sound.saved
  · rw [pending, through]
    exact sound.valid
  · rw [pending, UserIPCollector.retryKeys_of_eq retry]
    exact sound.room
  · rw [retry, through]
    exact sound.retry

/-- Reading an accepted response. -/
theorem UserIPCollector.Sound.readUsers (sound : c.Sound) (users : List UserInfo)
    {env : ObserveEnv} (later : c.through < env.now) :
    (c.readUsers users env).Sound ∧ (c.readUsers users env).through = env.now ∧
      (c.readUsers users env).flushed = c.flushed ∧ (c.readUsers users env).retry = c.retry ∧
      (c.limited = true → (c.readUsers users env).limited = true) ∧
      ((c.readUsers users env).limited = false → ∀ key, (∃ user ∈ users, user.Observed key) →
        (c.readUsers users env).Records env.now key) := by
  have through := sound.through
  have start : ObservePass.Sound c env.now
      ⟨c.startObservation users env.now, 0, c.pending.size + c.retryKeys⟩ := by
    refine ⟨rfl, rfl, rfl, rfl, sound.keyed, ?_, rfl, sound.room, ?_, ?_, Nat.zero_le _⟩
    · intro r mem
      rcases sound.valid r mem with ⟨valid, early⟩
      exact ⟨valid, early.trans later.le⟩
    · exact (by decide +kernel : (∅ : Table String UserIPLiveState).size ≤ userIPMemoryLimit)
    · exact (Table.rowSum_empty _).le
  rcases @ObservePass.Sound.observeUsers _ _ _ env.perUserLimit start (by omega) env.order 0
    ((Sorter.stable UserInfo.username).sort users) with ⟨read, reads⟩
  refine ⟨⟨?_, ?_, ?_, read.keyed, ?_, ?_, ?_, read.users, read.overlay.trans read.liveRoom⟩,
    read.through, read.flushed, read.retry, reads.limited, fun unset key observed => ?_⟩
  · have isNow : (c.readUsers users env).through = env.now := read.through
    omega
  · exact read.flushed.symm ▸ sound.flushed
  · have isNow : (c.readUsers users env).through = env.now := read.through
    have same : (c.readUsers users env).flushed = c.flushed := read.flushed
    have saved := sound.saved
    omega
  · have isNow : (c.readUsers users env).through = env.now := read.through
    rw [isNow]
    exact read.valid
  · have same : (c.readUsers users env).retryKeys = c.retryKeys :=
      UserIPCollector.retryKeys_of_eq read.retry
    rw [same]
    exact read.buffered.trans_le read.room
  · intro batch mem
    have same : (c.readUsers users env).retry = c.retry := read.retry
    have isNow : (c.readUsers users env).through = env.now := read.through
    rw [same] at mem
    rcases sound.retry batch mem with ⟨valid, early⟩
    exact ⟨valid, isNow ▸ early.trans later.le⟩
  · refine reads.recorded unset key ?_
    rcases observed with ⟨user, mem, observed⟩
    exact ⟨user, (Sorter.mem_sort _).mpr mem, observed⟩

theorem utf8ByteSize_ofList_le (text : List Char) :
    (String.ofList text).utf8ByteSize ≤ 4 * text.length := by
  induction text with
  | nil => decide
  | cons c text ih =>
      have small := c.utf8Size_le_four
      rw [String.ofList_cons, String.utf8ByteSize_append, String.utf8ByteSize_singleton,
        List.length_cons]
      omega

theorem length_encodeHex (bytes : List UInt8) :
    (bytes.flatMap hexByte).length = 2 * bytes.length := by
  induction bytes with
  | nil => rfl
  | cons byte bytes ih =>
      rw [List.flatMap_cons, List.length_append, ih, List.length_cons]
      have two : (hexByte byte).length = 2 := rfl
      omega

/-- A batch that is built is one that the store accepts. -/
theorem UserIPCollector.Sound.valid_built (sound : c.Sound) (unsaved : c.flushed < c.through)
    (id : { bytes : List UInt8 // bytes.length = 16 }) (order : MapOrder UserIPRecord) :
    UserIPBatch.Valid
      ⟨encodeHex id, c.through, order.sort c.pending.rows, c.limited, c.gap⟩ := by
  have flushed := sound.flushed
  have length := length_encodeHex id.val
  rw [id.property] at length
  refine ⟨?_, ?_, by dsimp only; omega, ?_, ?_, ?_, ?_⟩
  · intro empty
    have none := String.ofList_eq_empty_iff.mp empty
    rw [none] at length
    cases length
  · exact (utf8ByteSize_ofList_le _).trans (by omega)
  · have room := sound.room
    rw [Sorter.length_sort, Table.rows, List.length_map, Std.ExtTreeMap.length_toList]
    omega
  · intro r mem
    exact (sound.valid r ((Sorter.mem_sort _).mp mem)).1
  · intro r mem
    exact (sound.valid r ((Sorter.mem_sort _).mp mem)).2
  · exact ((order.perm _).map _).nodup_iff.mpr sound.keyed.nodup_map_rows

/-- Passing the batch that waits. -/
theorem UserIPCollector.Sound.flushRetry (sound : c.Sound) (env : FlushEnv) :
    (flushRetry env c).2.2.Sound ∧ ∀ call ∈ (flushRetry env c).1, call.batch.Valid := by
  unfold Polling.flushRetry
  cases waits : c.retry with
  | none =>
      refine ⟨sound, fun call mem => ?_⟩
      cases mem
  | some batch =>
      rcases sound.retry batch waits with ⟨valid, early⟩
      dsimp only
      split
      · refine ⟨⟨sound.through, valid.through.le, early, sound.keyed, sound.valid, ?_, ?_, sound.users,
          sound.overlay⟩, fun call mem => ?_⟩
        · have room := sound.room
          simp only [UserIPCollector.retryKeys]
          omega
        · intro other mem
          cases mem
        · rw [List.mem_singleton.mp mem]
          exact valid
      · refine ⟨sound, fun call mem => ?_⟩
        rw [List.mem_singleton.mp mem]
        exact valid

/-- Passing the next batch. -/
theorem UserIPCollector.Sound.flushPending (sound : c.Sound) (env : FlushEnv) :
    (flushPending env c).2.2.Sound ∧ ∀ call ∈ (flushPending env c).1, call.batch.Valid := by
  have through := sound.through
  have noRows : (∅ : UserIPTable).rows = [] := by decide +kernel
  have noRecords : ∀ r ∈ (∅ : UserIPTable).rows, r.Valid ∧ r.last ≤ c.through := by
    rw [noRows]
    intro r mem
    cases mem
  have empty : (∅ : UserIPTable).size = 0 := by decide +kernel
  unfold Polling.flushPending
  split
  · refine ⟨sound, fun call mem => ?_⟩
    cases mem
  · rename_i unsaved
    rw [not_le] at unsaved
    cases env.id with
    | none =>
        refine ⟨sound, fun call mem => ?_⟩
        cases mem
    | some id =>
        have valid := sound.valid_built unsaved id env.order
        dsimp only
        split
        · refine ⟨⟨sound.through, through, le_rfl, Table.keyed_empty, noRecords, ?_, ?_, sound.users,
            sound.overlay⟩, fun call mem => ?_⟩
          · simp only [UserIPCollector.retryKeys, empty]
            exact Nat.zero_le _
          · intro other mem
            cases mem
          · rw [List.mem_singleton.mp mem]
            exact valid
        · refine ⟨⟨sound.through, sound.flushed, sound.saved, Table.keyed_empty, noRecords, ?_,
            ?_, sound.users, sound.overlay⟩, fun call mem => ?_⟩
          · have few := (List.dedup_sublist ((env.order.sort c.pending.rows).map
              UserIPRecord.key)).length_le
            have length := valid.length
            rw [List.length_map] at few
            simp only [UserIPCollector.retryKeys, empty]
            dsimp only at length
            omega
          · intro other mem
            cases mem
            exact ⟨valid, le_rfl⟩
          · rw [List.mem_singleton.mp mem]
            exact valid

theorem UserIPCollector.Sound.flushUserIPs (sound : c.Sound) (env : FlushEnv) :
    (flushUserIPs env c).2.2.Sound ∧ ∀ call ∈ (flushUserIPs env c).1, call.batch.Valid := by
  rcases sound.flushRetry env with ⟨retried, retriedCalls⟩
  unfold Polling.flushUserIPs
  simp only
  split
  · rcases retried.flushPending env with ⟨built, builtCalls⟩
    refine ⟨built, fun call mem => ?_⟩
    rcases List.mem_append.mp mem with early | late
    · exact retriedCalls call early
    · exact builtCalls call late
  · exact ⟨retried, retriedCalls⟩

/-- A first observation learns only whether there is a gap. -/
theorem UserIPCollector.Sound.consult (sound : c.Sound) (env : ObserveEnv) :
    (∀ next, c.consult env = .error next → next.Sound) ∧
      ∀ next, c.consult env = .ok next → next.Sound ∧ next.through = c.through ∧
        next.flushed = c.flushed ∧ next.retry = c.retry ∧ next.limited = c.limited := by
  unfold UserIPCollector.consult
  split
  · cases env.previous with
    | none =>
        constructor
        · intro next isNext
          cases isNext
          exact sound.congr rfl rfl rfl rfl rfl
        · intro next isNext
          cases isNext
    | some previous =>
        dsimp only
        split
        · constructor
          · intro next isNext
            cases isNext
            exact sound
          · intro next isNext
            cases isNext
        · constructor
          · intro next isNext
            cases isNext
          · intro next isNext
            cases isNext
            exact ⟨sound.congr rfl rfl rfl rfl rfl, rfl, rfl, rfl, rfl⟩
  · constructor
    · intro next isNext
      cases isNext
    · intro next isNext
      cases isNext
      exact ⟨sound, rfl, rfl, rfl, rfl⟩

/-- Every step keeps the collector sound, and passes only batches that the store accepts. -/
theorem UserIPCollector.Sound.step (sound : c.Sound) (event : CollectorEvent) :
    (c.step event).2.Sound ∧ ∀ call ∈ (c.step event).1, call.batch.Valid := by
  have quiet : ∀ next : UserIPCollector, next.Sound → next.Sound ∧
      ∀ call ∈ ([] : List StoreCall), call.batch.Valid := by
    intro next nextSound
    refine ⟨nextSound, fun call mem => ?_⟩
    cases mem
  cases event with
  | observe users generation env =>
      rcases sound.consult env with ⟨ignored, accepted⟩
      simp only [UserIPCollector.step, observeUserIPs]
      split
      · exact quiet c sound
      split
      · exact quiet c sound
      rename_i later
      cases consulted : c.consult env with
      | error next => exact quiet next (ignored next consulted)
      | ok next =>
          rcases accepted next consulted with ⟨nextSound, through, -, -, -⟩
          rcases @UserIPCollector.Sound.readUsers _ nextSound users env (by omega) with ⟨read, -⟩
          dsimp only
          split
          · exact read.flushUserIPs env.flush
          · exact quiet _ read
  | pollFailed now env =>
      have failed : UserIPCollector.Sound { c with failed := true, gap := true } :=
        sound.congr rfl rfl rfl rfl rfl
      simp only [UserIPCollector.step, pollFailed]
      split
      · exact failed.flushUserIPs env
      · exact quiet _ failed
  | flush env => exact sound.flushUserIPs env
  | reset username env done =>
      rcases sound.flushUserIPs env with ⟨flushed, calls⟩
      simp only [UserIPCollector.step, resetUserIPHistory]
      split
      · exact ⟨flushed, calls⟩
      split
      · refine ⟨⟨flushed.through, flushed.flushed, flushed.saved, flushed.keyed, flushed.valid,
          flushed.room, flushed.retry, ?_, ?_⟩, calls⟩
        · exact (by decide +kernel : (∅ : Table String UserIPLiveState).size ≤ userIPMemoryLimit)
        · exact (Table.rowSum_empty _).le.trans (Nat.zero_le _)
      · refine ⟨⟨flushed.through, flushed.flushed, flushed.saved, flushed.keyed, flushed.valid,
          flushed.room, flushed.retry, ?_, ?_⟩, calls⟩
        · exact Std.ExtTreeMap.size_erase_le.trans flushed.users
        · exact (Table.rowSum_erase_le _ _ _).trans flushed.overlay

/-- A run passes only batches that the store accepts. -/
theorem UserIPCollector.Sound.calls (sound : c.Sound) (events : List CollectorEvent) :
    ∀ call ∈ c.calls events, call.batch.Valid := by
  induction events generalizing c with
  | nil =>
      intro call mem
      cases mem
  | cons event events ih =>
      rcases sound.step event with ⟨next, valid⟩
      intro call mem
      simp only [UserIPCollector.calls, outputs, List.flatten_cons] at mem
      rcases List.mem_append.mp mem with now | later
      · exact valid call now
      · exact ih next call later

/-- Every state of a run is sound. -/
theorem UserIPCollector.sound_run (events : List CollectorEvent) :
    (UserIPCollector.empty.run events).Sound :=
  @always_after _ _ (fun c event => (UserIPCollector.step c event).2) UserIPCollector.Sound
    (fun _ event sound => (sound.step event).1) _ sound_empty events

end Steps

end TelemtPanel.Polling
