import TelemtPanel.Library.Int64
import TelemtPanel.Library.NetIP
import TelemtPanel.Library.Table
import TelemtPanel.Store.Policy

/-!
# User IP history: records, batches, queries and the rules shared by both backends

A record sums up the observations of one address of one user.  Records arrive in
batches that carry an identifier and a watermark.  This file holds the data types
and the functions that the process-local and the durable backend have in common.
-/

namespace TelemtPanel.Store

open TelemtPanel.Library

def userIPMemoryLimit : ℕ := 20000

def userIPBatchLimit : ℕ := 20000

/-- Panel observations of one address of one user. -/
structure UserIPRecord where
  username : String
  ip : String
  family : ℤ
  first : ℤ
  last : ℤ
  observations : ℤ
  lastActive : ℤ
  source : ℤ
deriving DecidableEq, Repr

/-- Durable collection metadata. -/
structure UserIPCollection where
  batchID : String
  since : ℤ
  through : ℤ
  limited : Bool
  gap : Bool
deriving DecidableEq, Repr

/-- The zero value. -/
def UserIPCollection.zero : UserIPCollection := ⟨"", 0, 0, false, false⟩

structure UserIPBatch where
  id : String
  through : ℤ
  records : List UserIPRecord
  limited : Bool
  gap : Bool
deriving DecidableEq, Repr

structure UserIPQuery where
  username : String
  now : ℤ
  fromSecs : ℤ
  family : ℤ
  search : String
  limit : ℤ
  before : ℤ
  afterIP : String
deriving DecidableEq, Repr

structure UserIPPage where
  items : List UserIPRecord
  total : ℕ
  matched : ℕ
  new : ℕ
  hasMore : Bool
deriving DecidableEq, Repr

/-- A bounded copy of records and their collection metadata. -/
structure UserIPReadSnapshot where
  records : List UserIPRecord
  collection : UserIPCollection
  retentionSecs : ℤ
  durable : Bool
  truncated : Bool
  isPartial : Bool
  epoch : UInt64
deriving DecidableEq, Repr

/-- Reasons for which a batch, a query or a range is refused. -/
inductive UserIPError where
  | invalidAddress
  | invalidRecord
  | invalidBatch
  | invalidBatchRecords
  | invalidQuery
  | invalidSnapshotRange
  | staleBatch
deriving DecidableEq, Repr

/-- Text of a refusal. -/
def UserIPError.text : UserIPError → String
  | .invalidAddress => "invalid observed IP address"
  | .invalidRecord => "invalid user IP record"
  | .invalidBatch => "invalid user IP batch"
  | .invalidBatchRecords => "invalid user IP batch records"
  | .invalidQuery => "invalid user IP query"
  | .invalidSnapshotRange => "invalid IP snapshot range"
  | .staleBatch => "stale user IP batch"

structure UserIPKey where
  username : String
  ip : String
deriving DecidableEq, Repr

namespace UserIPKey

/-- Records are enumerated by user and address. -/
def order (key : UserIPKey) : String ×ₗ String := toLex (key.username, key.ip)

theorem order_injective : Function.Injective order := by
  rintro ⟨username, ip⟩ ⟨other, address⟩ same
  cases same
  rfl

instance : Ord UserIPKey := ordOn order

instance : Std.TransOrd UserIPKey := transOrd_ordOn order

instance : Std.LawfulEqOrd UserIPKey := lawfulEqOrd_ordOn order order_injective

end UserIPKey

def UserIPRecord.key (r : UserIPRecord) : UserIPKey := ⟨r.username, r.ip⟩

/-- The records of all users. -/
abbrev UserIPTable : Type := Table UserIPKey UserIPRecord

section Validation

/-- Preserves individual IPv6 addresses and unmaps IPv4 aliases. -/
def normalizeUserIP (raw : String) : Except UserIPError (String × ℤ) :=
  match Addr.parse raw with
  | none => .error .invalidAddress
  | some ip =>
      if ip.zone ≠ [] ∨ ip.isUnspecified = true ∨ ip.isMulticast = true then
        .error .invalidAddress
      else if ip.unmap.isUnspecified = true ∨ ip.unmap.isMulticast = true then
        .error .invalidAddress
      else .ok (ip.unmap.text, if ip.unmap.is4 = true then 4 else 6)

/-- What a record must satisfy to be stored. -/
structure UserIPRecord.Valid (r : UserIPRecord) : Prop where
  address : normalizeUserIP r.ip = .ok (r.ip, r.family)
  username : r.username ≠ ""
  usernameLength : r.username.utf8ByteSize ≤ 256
  first : 0 < r.first
  last : r.first ≤ r.last
  observations : 1 ≤ r.observations
  source : 1 ≤ r.source ∧ r.source ≤ 3
  lastActive : 0 ≤ r.lastActive
  active : r.lastActive ≠ 0 → r.first ≤ r.lastActive ∧ r.lastActive ≤ r.last

def validateUserIPRecord (r : UserIPRecord) : Except UserIPError Unit :=
  match normalizeUserIP r.ip with
  | .error _ => .error .invalidRecord
  | .ok (ip, family) =>
      if ip ≠ r.ip ∨ family ≠ r.family ∨ r.username = "" ∨ 256 < r.username.utf8ByteSize ∨
          r.first ≤ 0 ∨ r.last < r.first ∨ r.observations < 1 ∨ r.source < 1 ∨ 3 < r.source ∨
          r.lastActive < 0 ∨
          (r.lastActive ≠ 0 ∧ (r.lastActive < r.first ∨ r.last < r.lastActive)) then
        .error .invalidRecord
      else .ok ()

theorem validateUserIPRecord_ok_iff {r : UserIPRecord} :
    validateUserIPRecord r = .ok () ↔ r.Valid := by
  unfold validateUserIPRecord
  constructor
  · intro accepted
    cases normalized : normalizeUserIP r.ip with
    | error refusal =>
        rw [normalized] at accepted
        cases accepted
    | ok address =>
        rcases address with ⟨ip, family⟩
        rw [normalized] at accepted
        dsimp only at accepted
        split at accepted
        · cases accepted
        · rename_i sound
          simp only [not_or, not_and, Decidable.not_not] at sound
          refine ⟨?_, sound.2.2.1, ?_, ?_, ?_, ?_, ?_, ?_, ?_⟩
          · rw [normalized, sound.1, sound.2.1]
          all_goals omega
  · rintro ⟨address, named, usernameLength, first, last, observations, source, lastActive, active⟩
    rw [address]
    dsimp only
    rw [if_neg]
    rintro (isOther | isOther | isOther | isOther | isOther | isOther | isOther | isOther |
      isOther | isOther | isOther)
    · exact isOther rfl
    · exact isOther rfl
    · exact named isOther
    all_goals omega

/-- The loop of `validateUserIPBatch`. -/
def validateUserIPRecords (through : ℤ) (seen : List UserIPKey) :
    List UserIPRecord → Except UserIPError Unit
  | [] => .ok ()
  | r :: records =>
      match validateUserIPRecord r with
      | .error refusal => .error refusal
      | .ok () =>
          if through < r.last ∨ r.key ∈ seen then .error .invalidBatchRecords
          else validateUserIPRecords through (r.key :: seen) records

def validateUserIPBatch (b : UserIPBatch) : Except UserIPError Unit :=
  if b.id = "" ∨ 128 < b.id.utf8ByteSize ∨ b.through ≤ 0 ∨ userIPBatchLimit < b.records.length then
    .error .invalidBatch
  else validateUserIPRecords b.through [] b.records

/-- What a batch must satisfy to be applied. -/
structure UserIPBatch.Valid (b : UserIPBatch) : Prop where
  id : b.id ≠ ""
  idLength : b.id.utf8ByteSize ≤ 128
  through : 0 < b.through
  length : b.records.length ≤ userIPBatchLimit
  records : ∀ r ∈ b.records, r.Valid
  last : ∀ r ∈ b.records, r.last ≤ b.through
  distinct : (b.records.map UserIPRecord.key).Nodup

theorem validateUserIPRecords_ok_iff {through : ℤ} {seen : List UserIPKey}
    {records : List UserIPRecord} :
    validateUserIPRecords through seen records = .ok () ↔
      (∀ r ∈ records, r.Valid ∧ r.last ≤ through ∧ r.key ∉ seen) ∧
        (records.map UserIPRecord.key).Nodup := by
  induction records generalizing seen with
  | nil => simp [validateUserIPRecords]
  | cons r records ih =>
      simp only [validateUserIPRecords, List.forall_mem_cons, List.map_cons, List.nodup_cons]
      cases checked : validateUserIPRecord r with
      | error refusal =>
          have invalid : ¬r.Valid := by
            rw [← validateUserIPRecord_ok_iff, checked]
            simp
          simp [invalid]
      | ok _ =>
          have valid := validateUserIPRecord_ok_iff.mp checked
          dsimp only
          split
          · rename_i refused
            constructor
            · intro accepted
              cases accepted
            · rintro ⟨⟨⟨-, inTime, fresh⟩, -⟩, -⟩
              rcases refused with late | again
              · omega
              · exact absurd again fresh
          · rename_i accepted
            simp only [not_or, not_lt] at accepted
            rw [ih]
            constructor
            · rintro ⟨others, distinct⟩
              refine ⟨⟨⟨valid, accepted⟩, fun other mem => ?_⟩, fun again => ?_, distinct⟩
              · rcases others other mem with ⟨otherValid, inTime, fresh⟩
                exact ⟨otherValid, inTime, fun old => fresh (List.mem_cons_of_mem _ old)⟩
              · rcases List.mem_map.mp again with ⟨other, mem, same⟩
                exact (others other mem).2.2 (by rw [same]; exact List.mem_cons_self)
            · rintro ⟨⟨-, others⟩, apart, distinct⟩
              refine ⟨fun other mem => ?_, distinct⟩
              rcases others other mem with ⟨otherValid, inTime, fresh⟩
              refine ⟨otherValid, inTime, ?_⟩
              rw [List.mem_cons, not_or]
              exact ⟨fun same => apart (same ▸ List.mem_map_of_mem mem), fresh⟩

theorem validateUserIPBatch_ok_iff {b : UserIPBatch} :
    validateUserIPBatch b = .ok () ↔ b.Valid := by
  unfold validateUserIPBatch
  split
  · rename_i refused
    constructor
    · intro accepted
      cases accepted
    · rintro ⟨id, idLength, through, length, -, -, -⟩
      rcases refused with noID | longID | noTime | tooMany
      · exact absurd noID id
      all_goals omega
  · rename_i sound
    simp only [not_or, not_lt, not_le] at sound
    rw [validateUserIPRecords_ok_iff]
    constructor
    · rintro ⟨records, distinct⟩
      exact ⟨sound.1, sound.2.1, sound.2.2.1, sound.2.2.2, fun r mem => (records r mem).1,
        fun r mem => (records r mem).2.1, distinct⟩
    · rintro ⟨-, -, -, -, records, last, distinct⟩
      exact ⟨fun r mem => ⟨records r mem, last r mem, List.not_mem_nil⟩, distinct⟩

/-- A stored address contains neither an upper-case letter nor a NUL character. -/
theorem UserIPRecord.Valid.plain_of_mem_ip {r : UserIPRecord} (valid : r.Valid) {c : Char}
    (mem : c ∈ r.ip.toList) : Addr.plain c = true := by
  have address := valid.address
  unfold normalizeUserIP at address
  split at address
  · cases address
  · split at address
    · cases address
    split at address
    · cases address
    rename_i ip _ _ _
    simp only [Except.ok.injEq, Prod.mk.injEq] at address
    rw [← address.1] at mem
    exact Addr.plain_of_mem_text mem

end Validation

def validateUserIPQuery (q : UserIPQuery) : Except UserIPError Unit :=
  if q.username = "" ∨ q.now ≤ 0 ∨ q.fromSecs < 0 ∨ q.now < q.fromSecs ∨ q.limit < 1 ∨
      200 < q.limit ∨ (q.family ≠ 0 ∧ q.family ≠ 4 ∧ q.family ≠ 6) ∨
      64 < q.search.utf8ByteSize ∨ q.before < 0 then
    .error .invalidQuery
  else .ok ()

def validateSnapshotRange (fromSecs now : ℤ) : Except UserIPError Unit :=
  if fromSecs < 0 ∨ now ≤ 0 ∨ now < fromSecs then .error .invalidSnapshotRange else .ok ()

def nextUserIPCollection (old : UserIPCollection) (b : UserIPBatch) : UserIPCollection :=
  let since := if old.since = 0 then b.through else old.since
  { batchID := b.id
    since := b.records.foldl (fun since r => min since r.first) since
    through := b.through
    limited := old.limited || b.limited
    gap := old.gap || b.gap }

def mergeUserIPRecord (old : Option UserIPRecord) (next : UserIPRecord) : UserIPRecord :=
  match old with
  | none => next
  | some old =>
      if old.observations = 0 then next
      else
        { old with
          first := min old.first next.first
          lastActive := max old.lastActive next.lastActive
          last := if old.last ≤ next.last then next.last else old.last
          source := if old.last ≤ next.last then next.source else old.source
          observations :=
            if old.observations > maxInt64 - next.observations then maxInt64
            else old.observations + next.observations }

/-- The time before which records are expired. -/
def userIPCutoff (retention now : ℤ) : ℤ := wrapInt64 (now - retention)

/-- Records seen since a time. -/
def expireUserIPs (cutoff : ℤ) (ips : UserIPTable) : UserIPTable :=
  ips.filter fun _ r => !decide (r.last < cutoff)

/-- The per-user cap of a policy; zero is unlimited. -/
def userIPLimit (policy : StoragePolicy) : ℕ := (effectiveUserIPLimit policy).toNat

/-- Lower-case forms of characters, of which only a part of the Unicode table matters here. -/
structure LowerCase where
  lower : Char → Char
  ascii : ∀ c : Char, c.toNat < 128 → lower c = c.toLower
  plain_lower : ∀ c, c ≠ Char.ofNat 0 → Addr.plain (lower c) = true

/-- The lower-case forms of ASCII letters alone. -/
def LowerCase.ofASCII : LowerCase where
  lower := Char.toLower
  ascii _ _ := rfl
  plain_lower c notNul := by
    simp only [Addr.plain, Char.isUpper_toLower_eq_false, Bool.not_false, Bool.true_and, bne_iff_ne]
    intro isNul
    by_cases upper : c.isUpper = true
    · have lowered := Char.isLower_toLower_eq_isAlpha c
      rw [isNul, Char.isAlpha, upper, Bool.true_or] at lowered
      exact absurd lowered (by decide)
    · rw [Char.toLower_eq_of_not_isUpper upper] at isNul
      exact notNul isNul

/-- `strings.ToLower` -/
def toLower (cases_ : LowerCase) (text : String) : List Char := text.toList.map cases_.lower

namespace UserIPRecord

/-- Oldest first, by user and address among equally old ones. -/
def age (r : UserIPRecord) : ℤ ×ₗ (String ×ₗ String) := toLex (r.last, r.key.order)

/-- Newest first, in the reverse order of `age`. -/
def ageDesc (r : UserIPRecord) : (ℤ ×ₗ (String ×ₗ String))ᵒᵈ := OrderDual.toDual r.age

/-- `recordNewer`: newest first, by user and address among equally new ones. -/
def newness (r : UserIPRecord) : ℤᵒᵈ ×ₗ (String ×ₗ String) :=
  toLex (OrderDual.toDual r.last, r.key.order)

/-- `recordBefore`: by user and address. -/
def keyOrder (r : UserIPRecord) : String ×ₗ String := r.key.order

/-- Among the records of one user: newest first, by address among equally new ones. -/
def pageOrder (r : UserIPRecord) : ℤᵒᵈ ×ₗ String := toLex (OrderDual.toDual r.last, r.ip)

/-- Among the records of one user: newest first, by descending address among equally new ones. -/
def userAgeDesc (r : UserIPRecord) : (ℤ ×ₗ String)ᵒᵈ := OrderDual.toDual (toLex (r.last, r.ip))

theorem key_of_ageDesc {left right : UserIPRecord} (same : left.ageDesc = right.ageDesc) :
    left.key = right.key :=
  UserIPKey.order_injective (congrArg (fun rank => (ofLex (OrderDual.ofDual rank)).2) same)

theorem key_of_newness {left right : UserIPRecord} (same : left.newness = right.newness) :
    left.key = right.key :=
  UserIPKey.order_injective (congrArg (fun rank => (ofLex rank).2) same)

theorem key_of_keyOrder {left right : UserIPRecord} (same : left.keyOrder = right.keyOrder) :
    left.key = right.key :=
  UserIPKey.order_injective same

/-- A rank that determines the key is as distinct as the keys. -/
theorem nodup_map_of_key {β : Type*} {rank : UserIPRecord → β} {rows : List UserIPRecord}
    (determines : ∀ {left right : UserIPRecord}, rank left = rank right → left.key = right.key)
    (distinct : (rows.map key).Nodup) : (rows.map rank).Nodup := by
  refine List.pairwise_map.mpr ((List.pairwise_map.mp distinct).imp ?_)
  intro left right apart same
  exact apart (determines same)

end UserIPRecord

/-- The records of a user that are searched for. -/
def UserIPQuery.wants (q : UserIPQuery) (contains : String → Bool) (r : UserIPRecord) : Bool :=
  (q.family = 0 || q.family = r.family) && contains r.ip

end TelemtPanel.Store
