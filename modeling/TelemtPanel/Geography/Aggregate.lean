import TelemtPanel.Library.Sorter
import TelemtPanel.Geography.Basic

/-!
# Aggregation of addresses by place

One pass over the sorted pairs counts every address once, at its first account, and every
membership of an account in a group of addresses.  The groups are the places, among them
those of addresses without one, and the countries.

Ranging over a map has no fixed order, but what is collected that way is sorted afterwards.
A sorter stands for any outcome of the two together.
-/

namespace TelemtPanel.Geography

open TelemtPanel.Library GeoIP

section Data

/-- An address on which an account was seen. -/
structure Pair where
  username : String
  ip : IP
deriving DecidableEq

namespace Pair

def order (p : Pair) : String ×ₗ ℕ ×ₗ List ℕ ×ₗ List Char := toLex (p.username, p.ip.order)

theorem order_injective : Function.Injective order := by
  rintro ⟨username, ip⟩ ⟨other, address⟩ same
  simp only [order, toLex_inj, Prod.mk.injEq] at same
  rw [same.1, IP.order_injective same.2]

end Pair

structure Input where
  pairs : List Pair
  family : String

/-- What the addresses were resolved to, as far as they were looked up. -/
abbrev Resolutions : Type := Table IP (Option Result)

structure Totals where
  uniqueIPs : ℕ
  accounts : ℕ
  countryCount : ℕ
  locationCount : ℕ

structure Quality where
  located : ℕ
  countryOnly : ℕ
  «private» : ℕ
  notFound : ℕ
  unavailable : ℕ
  coordinateCoverage : Option Float
  geoConflicts : ℕ

structure Country where
  id : String
  countryCode : String
  name : String
  nameRU : String
  uniqueIPs : ℕ
  accounts : ℕ

structure Location where
  id : String
  countryCode : Option String
  name : Option String
  nameRU : Option String
  cityID : Option UInt32
  location : Option Position
  uniqueIPs : ℕ
  accounts : ℕ

/-- Membership of an account, given by its place in the list of accounts. -/
structure Membership where
  account : ℕ
  uniqueIPs : ℕ

structure SnapshotData where
  totals : Totals
  quality : Quality
  countries : List Country
  locations : List Location
  accounts : List String
  memberships : Table String (List Membership)
  ownedBytes : ℕ

def Country.order (c : Country) : ℕᵒᵈ ×ₗ String := toLex (OrderDual.toDual c.uniqueIPs, c.id)

def Location.order (l : Location) : ℕᵒᵈ ×ₗ String := toLex (OrderDual.toDual l.uniqueIPs, l.id)

/-- The name of an account. -/
def accountName (accounts : List String) (account : ℕ) : String := (accounts[account]?).getD ""

def Membership.order (accounts : List String) (m : Membership) : ℕᵒᵈ ×ₗ String :=
  toLex (OrderDual.toDual m.uniqueIPs, accountName accounts m.account)

/-- Outcomes of the sorts. -/
structure Sorters where
  pairs : Sorter Pair.order
  countries : Sorter Country.order
  locations : Sorter Location.order
  members : ∀ accounts, Sorter (Membership.order accounts)

/-- Capacities of lists of a length that were appended to one by one. -/
structure Capacities where
  accounts : ℕ → ℕ
  countries : ℕ → ℕ
  locations : ℕ → ℕ
  members : ℕ → ℕ

end Data

section Pass

@[ext]
structure GroupAccount where
  group : ℕ
  account : ℕ
deriving DecidableEq

namespace GroupAccount

def order (key : GroupAccount) : ℕ ×ₗ ℕ := toLex (key.group, key.account)

theorem order_injective : Function.Injective order := by
  rintro ⟨group, account⟩ ⟨other, owner⟩ same
  cases same
  rfl

instance : Ord GroupAccount := ordOn order

instance : Std.TransOrd GroupAccount := transOrd_ordOn order

instance : Std.LawfulEqOrd GroupAccount := lawfulEqOrd_ordOn order order_injective

end GroupAccount

/-- A place while its addresses are counted. -/
structure LocationBuilder where
  dto : Location
  name : String
  nameRU : String
  positions : List GeoIP.Location

/-- The country and the place of an address. -/
structure IPGroup where
  country : String
  location : String

def hasPrefix (s start : String) : Bool := start.toList.isPrefixOf s.toList

/-- The counters of the categories. -/
inductive Category where
  | located
  | countryOnly
  | «private»
  | notFound
  | unavailable
deriving DecidableEq

def Quality.count (quality : Quality) : Category → Quality
  | .located => { quality with located := quality.located + 1 }
  | .countryOnly => { quality with countryOnly := quality.countryOnly + 1 }
  | .private => { quality with «private» := quality.private + 1 }
  | .notFound => { quality with notFound := quality.notFound + 1 }
  | .unavailable => { quality with unavailable := quality.unavailable + 1 }

/-- What the aggregation makes of an address.  The result is dropped for an address that is
not public. -/
structure Classified where
  category : Category
  code : String
  id : String
  r : Option Result

/-- The switch over an address and its result, without the identity of a missing place. -/
def categorize (ip : IP) (r : Option Result) : Classified :=
  if isNonPublic ip then ⟨.private, "", "unknown:private", none⟩
  else match r with
    | none => ⟨.unavailable, "", "unknown:unavailable", none⟩
    | some result =>
        if !result.countryConflict && validPosition result.location then
          ⟨.located, countryCode r, locationID r, r⟩
        else if countryCode r ≠ "" then ⟨.countryOnly, countryCode r, locationID r, r⟩
        else ⟨.notFound, countryCode r, locationID r, r⟩

def classify (ip : IP) (r : Option Result) : Classified :=
  let c := categorize ip r
  if c.id ≠ "" then c
  else if c.code ≠ "" then { c with id := "country-only:" ++ c.code }
  else { c with id := "unknown:not_found" }

namespace Classified

def groups (c : Classified) : IPGroup := ⟨c.code, c.id⟩

/-- The result, unless the databases disagree on the country. -/
def agreed (c : Classified) : Option Result := c.r.filter fun r => !r.countryConflict

end Classified

def LocationBuilder.new (c : Classified) : LocationBuilder where
  dto := {
    id := c.id
    countryCode := optional c.code
    name := none
    nameRU := none
    cityID := c.agreed.bind (·.cityID)
    location := none
    uniqueIPs := 0
    accounts := 0 }
  name := ""
  nameRU := ""
  positions := []

def LocationBuilder.add (c : Classified) (b : LocationBuilder) : LocationBuilder :=
  let b := { b with dto := { b.dto with uniqueIPs := b.dto.uniqueIPs + 1 } }
  match c.agreed with
  | none => b
  | some r =>
      let b := { b with name := minLabel b.name r.city, nameRU := minLabel b.nameRU r.cityRU }
      if validPosition r.location && !hasPrefix c.id "unknown:" then
        { b with positions := b.positions ++ r.location.toList }
      else b

def Country.new (code : String) : Country where
  id := "country:" ++ code
  countryCode := code
  name := ""
  nameRU := ""
  uniqueIPs := 0
  accounts := 0

def Country.add (r : Option Result) (c : Country) : Country :=
  let c := { c with uniqueIPs := c.uniqueIPs + 1 }
  match r with
  | none => c
  | some r =>
      { c with name := minLabel c.name r.countryName, nameRU := minLabel c.nameRU r.countryNameRU }

/-- The variables of the pass. -/
structure Pass where
  previous : Pair
  account : ℕ
  accounts : List String
  quality : Quality
  countries : Table String Country
  locations : Table String LocationBuilder
  seen : Table IP IPGroup
  groupIDs : Table String ℕ
  groupNames : List String
  counts : Table GroupAccount ℕ

namespace Pass

def start : Pass where
  previous := ⟨"", ⟨none⟩⟩
  account := 0
  accounts := []
  quality := ⟨0, 0, 0, 0, 0, none, 0⟩
  countries := ∅
  locations := ∅
  seen := ∅
  groupIDs := ∅
  groupNames := []
  counts := ∅

/-- Index of a group, which is new at its first use. -/
def groupIndex (pass : Pass) (group : String) : ℕ × Pass :=
  match pass.groupIDs[group]? with
  | some index => (index, pass)
  | none =>
      (pass.groupNames.length,
        { pass with
          groupNames := pass.groupNames ++ [group]
          groupIDs := pass.groupIDs.insert group pass.groupNames.length })

def addMember (pass : Pass) (group : String) (account : ℕ) : Pass :=
  let (index, pass) := pass.groupIndex group
  { pass with counts := pass.counts.alter ⟨index, account⟩ fun n => some (n.getD 0 + 1) }

/-- The accounts are interned in the order of the pairs. -/
def intern (pass : Pass) (username : String) : Pass :=
  if pass.accounts.getLast? = some username then pass
  else
    { pass with
      account := pass.accounts.length
      accounts := pass.accounts ++ [username] }

/-- Counts a new address. -/
def record (pass : Pass) (ip : IP) (c : Classified) : Pass :=
  let quality := pass.quality.count c.category
  { pass with
    quality :=
      if c.r.any (·.countryConflict) then
        { quality with geoConflicts := quality.geoConflicts + 1 }
      else quality
    seen := pass.seen.insert ip c.groups
    locations := pass.locations.alter c.id fun b => some ((b.getD (.new c)).add c)
    countries :=
      if c.code ≠ "" then
        pass.countries.alter c.code fun country => some ((country.getD (.new c.code)).add c.r)
      else pass.countries }

/-- The groups of an address, which is counted when it is new. -/
def groupsOf (pass : Pass) (resolved : Resolutions) (ip : IP) : IPGroup × Pass :=
  match pass.seen[ip]? with
  | some groups => (groups, pass)
  | none =>
      let c := classify ip (resolved[ip]?).join
      (c.groups, pass.record ip c)

/-- A pair that is neither left out nor repeated. -/
def visit (resolved : Resolutions) (pass : Pass) (p : Pair) : Pass :=
  let pass := { pass with previous := p }
  let pass := pass.intern p.username
  let (groups, pass) := pass.groupsOf resolved p.ip
  let pass := pass.addMember groups.location pass.account
  if groups.country ≠ "" then pass.addMember ("country:" ++ groups.country) pass.account else pass

end Pass

/-- Whether a pair counts, for an address that is unmapped already. -/
def admitted (family : String) (p : Pair) : Bool :=
  p.ip.isValid && p.ip.zone.isEmpty && p.username ≠ "" && p.username.utf8ByteSize ≤ 256 &&
    !(family = "4" && !p.ip.is4) && !(family = "6" && !p.ip.is6)

/-- The body of the loop. -/
def Pass.step (family : String) (resolved : Resolutions) (pass : Pass) (p : Pair) : Pass :=
  if !admitted family p then pass
  else if p = pass.previous then pass
  else pass.visit resolved p

end Pass

section Errors

inductive ContextError where
  | canceled
  | deadlineExceeded

inductive AggregateError where
  | context (reason : ContextError)
  | capacity

/-- Where the context is asked whether it has ended. -/
inductive Checkpoint where
  | start
  | pair (i : ℕ)
  | finish

def ctxErr (ctx : Checkpoint → Option ContextError) (place : Checkpoint) :
    Except AggregateError Unit :=
  match ctx place with
  | some reason => .error (.context reason)
  | none => .ok ()

/-- Fails when more bytes are needed than there is room. -/
def within (room bytes : ℕ) : Except AggregateError Unit :=
  if room < bytes then .error .capacity else .ok ()

def bufferRoom : ℕ := 64 * 2 ^ 20

def ownedRoom : ℕ := 32 * 2 ^ 20

def inputBytes (input : Input) (resolved : Resolutions) : ℕ :=
  input.pairs.length * 256 + resolved.size * 256

namespace Pass

def buffers (pass : Pass) (input : Input) (resolved : Resolutions) : ℕ :=
  inputBytes input resolved + pass.seen.size * 112 + pass.counts.size * 48 +
    pass.locations.size * 640 + pass.countries.size * 192

/-- The loop over the pairs from the `i`th one on. -/
def run (ctx : Checkpoint → Option ContextError) (input : Input) (resolved : Resolutions) :
    (i : ℕ) → Pass → List Pair → Except AggregateError Pass
  | _, pass, [] => .ok pass
  | i, pass, p :: rest => do
      if i % 512 = 0 then
        ctxErr ctx (.pair i)
        within bufferRoom (pass.buffers input resolved)
      run ctx input resolved (i + 1) (pass.step input.family resolved p) rest

end Pass

end Errors

section Finish

def groupName (groupNames : List String) (group : ℕ) : String := (groupNames[group]?).getD ""

namespace Pass

/-- The members of each group before they are sorted. -/
def members (pass : Pass) : Table String (List Membership) :=
  pass.counts.toList.foldl (fun members row =>
    members.alter (groupName pass.groupNames row.1.group) fun group =>
      some (group.getD [] ++ [⟨row.1.account, row.2⟩])) ∅

/-- The places and countries with the numbers of their accounts. -/
def setAccounts (places : Table String LocationBuilder × Table String Country)
    (group : String × List Membership) : Table String LocationBuilder × Table String Country :=
  let (locations, countries) := places
  let (id, members) := group
  if hasPrefix id "country:" then
    (locations, countries.alter (String.ofList (id.toList.drop "country:".length))
      (·.map fun c => { c with accounts := members.length }))
  else
    (locations.alter id
      (·.map fun b => { b with dto := { b.dto with accounts := members.length } }), countries)

end Pass

def LocationBuilder.build (b : LocationBuilder) : Location :=
  { b.dto with
    name := optional b.name
    nameRU := optional b.nameRU
    location := groupPosition b.positions }

/-- An allowance for the memory of the result. -/
def SnapshotData.measure (caps : Capacities) (data : SnapshotData) : ℕ :=
  caps.accounts data.accounts.length * 16 + caps.countries data.countries.length * 128 +
    caps.locations data.locations.length * 224 + 512 +
    (data.accounts.map String.utf8ByteSize).sum +
    (data.countries.map fun c => c.id.utf8ByteSize + c.countryCode.utf8ByteSize +
      c.name.utf8ByteSize + c.nameRU.utf8ByteSize).sum +
    (data.locations.map fun l => l.id.utf8ByteSize + 160 +
      ([l.countryCode, l.name, l.nameRU].map fun p => p.elim 0 String.utf8ByteSize).sum).sum +
    (data.memberships.toList.map fun (id, m) =>
      id.utf8ByteSize + caps.members m.length * 8 + 96).sum

namespace Pass

def memberships (sorters : Sorters) (pass : Pass) : Table String (List Membership) :=
  pass.members.map fun _ members => (sorters.members pass.accounts).sort members

/-- The result of a pass. -/
def finish (sorters : Sorters) (caps : Capacities) (pass : Pass) : SnapshotData :=
  let memberships := pass.memberships sorters
  let places := memberships.toList.foldl setAccounts (pass.locations, pass.countries)
  let data : SnapshotData := {
    totals := {
      uniqueIPs := pass.seen.size
      accounts := pass.accounts.length
      countryCount := pass.countries.size
      locationCount := (places.1.keys.filter fun id =>
        hasPrefix id "city:" || hasPrefix id "point:").length }
    quality := { pass.quality with
      coordinateCoverage :=
        if 0 < pass.seen.size then some (pass.quality.located.toFloat / pass.seen.size.toFloat)
        else none }
    countries := sorters.countries.sort places.2.rows
    locations := sorters.locations.sort (places.1.rows.map LocationBuilder.build)
    accounts := pass.accounts
    memberships := memberships
    ownedBytes := 0 }
  { data with ownedBytes := data.measure caps }

end Pass

end Finish

def aggregate (sorters : Sorters) (caps : Capacities) (ctx : Checkpoint → Option ContextError)
    (input : Input) (resolved : Resolutions) : Except AggregateError SnapshotData := do
  ctxErr ctx .start
  within bufferRoom (inputBytes input resolved)
  let pairs := sorters.pairs.sort (input.pairs.map fun p => { p with ip := p.ip.unmap })
  let pass ← Pass.run ctx input resolved 0 .start pairs
  let data := pass.finish sorters caps
  within ownedRoom data.ownedBytes
  ctxErr ctx .finish
  return data

end TelemtPanel.Geography
