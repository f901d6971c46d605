import Mathlib
import TelemtPanel.Library.NetIP
import TelemtPanel.Library.Table
import TelemtPanel.Library.Binary64

/-!
# Addresses and the places they resolve to

An address is resolved to a country, a city and a position, each of which may be missing.
The identity of a place is its country together with its city, or else with its rounded
position; the labels of a place are chosen among those of its addresses.
-/

namespace TelemtPanel.GeoIP

open TelemtPanel.Library

/-- An address, absent for the zero value. -/
structure IP where
  addr : Option Addr
deriving DecidableEq

namespace IP

def isValid (ip : IP) : Bool := ip.addr.isSome

def unmap (ip : IP) : IP := ⟨ip.addr.map Addr.unmap⟩

def zone (ip : IP) : List Char := ip.addr.elim [] Addr.zone

def is4 (ip : IP) : Bool := ip.addr.any Addr.is4

def is6 (ip : IP) : Bool := ip.addr.any fun addr => !addr.is4

/-- Addresses are compared by length, then by value, then by zone. -/
def order (ip : IP) : ℕ ×ₗ List ℕ ×ₗ List Char :=
  match ip.addr with
  | none => toLex (0, toLex ([], []))
  | some (.v4 octets) => toLex (32, toLex (octets.val.map UInt8.toNat, []))
  | some (.v6 groups zone) => toLex (128, toLex (groups.val.map UInt16.toNat, zone))

theorem order_injective : Function.Injective order := by
  have octet : Function.Injective (List.map UInt8.toNat) :=
    List.map_injective_iff.mpr fun _ _ => UInt8.toNat_inj.mp
  have group : Function.Injective (List.map UInt16.toNat) :=
    List.map_injective_iff.mpr fun _ _ => UInt16.toNat_inj.mp
  rintro ⟨left⟩ ⟨right⟩ same
  rcases left with _ | left | left <;> rcases right with _ | right | right <;>
    simp [order, Prod.ext_iff] at same
  · rfl
  · rw [Subtype.ext (octet same)]
  · rw [Subtype.ext (group same.1), same.2]

instance : Ord IP := ordOn order

instance : Std.TransOrd IP := transOrd_ordOn order

instance : Std.LawfulEqOrd IP := lawfulEqOrd_ordOn order order_injective

section Scopes

def isPrivate (ip : IP) : Bool :=
  match ip.addr with
  | none => false
  | some (.v4 octets) =>
      match octets.val with
      | a :: b :: _ => a == 10 || (a == 172 && b &&& 0xf0 == 16) || (a == 192 && b == 168)
      | _ => false
  | some (.v6 groups _) => (groups.val.take 1).any fun group => (group >>> 8) &&& 0xfe == 0xfc

def isLoopback (ip : IP) : Bool :=
  match ip.addr with
  | none => false
  | some (.v4 octets) => (octets.val.take 1).any fun octet => octet == 127
  | some (.v6 groups _) => groups.val == [0, 0, 0, 0, 0, 0, 0, 1]

def isLinkLocalUnicast (ip : IP) : Bool :=
  match ip.addr with
  | none => false
  | some (.v4 octets) => octets.val.take 2 == [169, 254]
  | some (.v6 groups _) => (groups.val.take 1).any fun group => group &&& 0xffc0 == 0xfe80

def isLinkLocalMulticast (ip : IP) : Bool :=
  match ip.addr with
  | none => false
  | some (.v4 octets) => octets.val.take 3 == [224, 0, 0]
  | some (.v6 groups _) => (groups.val.take 1).any fun group => group &&& 0xff0f == 0xff02

/-- Whether the prefix `100.64.0.0/10` contains an IPv4 address. -/
def carrierGradeNAT (ip : IP) : Bool :=
  match ip.addr with
  | some (.v4 octets) =>
      match octets.val with
      | a :: b :: _ => a == 100 && b &&& 0xc0 == 64
      | _ => false
  | _ => false

end Scopes

end IP

def isNonPublic (ip : IP) : Bool :=
  let ip := ip.unmap
  !ip.isValid || ip.isPrivate || ip.isLoopback || ip.isLinkLocalUnicast ||
    ip.isLinkLocalMulticast || ip.addr.any Addr.isMulticast || ip.addr.any Addr.isUnspecified ||
    ip.carrierGradeNAT

structure Location where
  latitude : Float
  longitude : Float
  accuracyRadiusKM : Option UInt16

/-- What the databases know about an address, as far as places depend on it. -/
structure Result where
  countryCode : String
  countryName : String
  countryNameRU : String
  city : String
  cityRU : String
  cityID : Option UInt32
  location : Option Location
  countryConflict : Bool

end TelemtPanel.GeoIP

namespace TelemtPanel.Geography

open TelemtPanel.Library GeoIP

section Identity

def countryCode (r : Option Result) : String :=
  match r with
  | none => ""
  | some r =>
      if r.countryCode.utf8ByteSize ≠ 2 then ""
      else if r.countryCode.toList.any fun c => c < 'A' || 'Z' < c then ""
      else r.countryCode

def validPosition (l : Option GeoIP.Location) : Bool :=
  match l with
  | none => false
  | some l =>
      !l.latitude.isNaN && !l.longitude.isNaN && !l.latitude.isInf && !l.longitude.isInf &&
        l.latitude.abs ≤ 90 && l.longitude.abs ≤ 180

/-- The text of a number with four decimals. -/
def sprintf4 (v : Float) : String :=
  match v.toRatParts with
  | none => if v.isNaN then "NaN" else if v < 0 then "-Inf" else "+Inf"
  | some (mantissa, exponent) =>
      let units := (Binary64.halfEven (mantissa * 2 ^ exponent * 10 ^ 4)).natAbs
      let decimals := toString (units % 10 ^ 4)
      (if v < 0 then "-" else "") ++ toString (units / 10 ^ 4) ++ "." ++
        "".pushn '0' (4 - decimals.length) ++ decimals

def rounded (v : Float) : String :=
  let v := (v * 1e4).round / 1e4
  let v := if v == 0 then 0 else v
  sprintf4 v

/-- The identity of a place: country and city, or country and rounded position. -/
def locationID (r : Option Result) : String :=
  match r with
  | none => ""
  | some r =>
      if r.countryConflict then ""
      else
        let code := if countryCode (some r) = "" then "ZZ" else countryCode (some r)
        match r.cityID.filter (0 < ·), r.location with
        | some id, _ => "city:" ++ code ++ ":" ++ toString id.toNat
        | none, some l =>
            if validPosition (some l) then
              "point:" ++ code ++ ":" ++ rounded l.latitude ++ ":" ++ rounded l.longitude
            else ""
        | none, none => ""

end Identity

section Labels

/-- The control characters of Unicode. -/
def isControl (r : Char) : Bool := r.toNat < 0x20 || (0x7F ≤ r.toNat && r.toNat ≤ 0x9F)

def label (s : String) : String :=
  let runes := s.toList.filter fun r => !isControl r
  if 80 < runes.length then String.ofList (runes.take 79) ++ "…" else String.ofList runes

/-- The smaller of two labels, where a missing one does not count. -/
def minLabel (a b : String) : String :=
  let b := label b
  if a = "" || (b ≠ "" && b < a) then b else a

def optional (s : String) : Option String := if s = "" then none else some s

end Labels

section Position

/-- A marker and a radius around it. -/
structure Position where
  latitude : Float
  longitude : Float
  accuracyRadiusKM : Option UInt32

def pi : Float := 3.141592653589793

/-- Kilometres between two positions on the sphere. -/
def distance (a b : GeoIP.Location) : Float :=
  let lat1 := a.latitude * pi / 180
  let lat2 := b.latitude * pi / 180
  let dlat := lat2 - lat1
  let dlon := (b.longitude - a.longitude) * pi / 180
  let h := ((dlat / 2).sin).pow 2 + lat1.cos * lat2.cos * ((dlon / 2).sin).pow 2
  2 * 6371.0088 * (min 1 (max 0 h)).sqrt.asin

/-- The marker is the least position; a missing radius leaves the common one open. -/
def groupPosition (points : List GeoIP.Location) : Option Position :=
  match points with
  | [] => none
  | first :: rest =>
      let marker := rest.foldl (fun marker p =>
        if p.latitude < marker.latitude ||
            (p.latitude == marker.latitude && p.longitude < marker.longitude) then p
        else marker) first
      let radius := (first :: rest).foldlM (fun (radius : Float) p =>
        p.accuracyRadiusKM.map fun km => max radius (distance marker p + km.toNat.toFloat)) 0
      some {
        latitude := marker.latitude
        longitude := marker.longitude
        accuracyRadiusKM := (radius.filter (· ≤ 4294967295)).map fun radius => radius.ceil.toUInt32 }

end Position

end TelemtPanel.Geography
