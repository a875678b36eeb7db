import Mathlib
import FangaOS.Lib.Bytes
import FangaOS.Lib.MaxByKey
import FangaOS.Net.Link

/-! The routing table of `net/ipv4.rs`, whose `lookup` takes the matching route
with the most mask bits by `max_by_key`. -/

namespace FangaOS.Net

open MaxByKey

structure RouteEntry where
  network : Ipv4Address
  netmask : Ipv4Address
  gateway : Option Ipv4Address
  interfaceMac : MacAddress
  deriving DecidableEq

structure RoutingTable where
  routes : List RouteEntry

def Ipv4Address.toBeU32 (address : Ipv4Address) : UInt32 :=
  UInt32.fromBeBytes address.octets.toList

def countOnes (value : UInt32) : Nat :=
  (List.range 32).countP fun bit => value.toNat.testBit bit

/-- The filter of `lookup`: the destination lies in the route's network. -/
def RouteEntry.matches (route : RouteEntry) (dst : UInt32) : Bool :=
  (dst &&& route.netmask.toBeU32) == (route.network.toBeU32 &&& route.netmask.toBeU32)

/-- The key of `lookup`: the number of set bits of the mask. -/
def RouteEntry.prefixLength (route : RouteEntry) : Nat :=
  countOnes route.netmask.toBeU32

namespace RoutingTable

def new : RoutingTable :=
  ⟨[]⟩

def addRoute (table : RoutingTable) (entry : RouteEntry) : RoutingTable :=
  ⟨table.routes ++ [entry]⟩

def lookup (table : RoutingTable) (dst : Ipv4Address) : Option RouteEntry :=
  let dstU32 := dst.toBeU32
  maxByKey RouteEntry.prefixLength (table.routes.filter fun route => route.matches dstU32)

def clear (_table : RoutingTable) : RoutingTable :=
  ⟨[]⟩

end RoutingTable

/-- `lookup` returns a route exactly when it matches the destination, no
matching route has a longer mask, and every matching route added after it has
a strictly shorter one; it returns nothing exactly when no route matches. -/
theorem routing_lookup_last_longest_match (table : RoutingTable) (dst : Ipv4Address) :
    (∀ route, table.lookup dst = some route ↔
      route.matches dst.toBeU32 ∧
        (∀ other ∈ table.routes, other.matches dst.toBeU32 →
          other.prefixLength ≤ route.prefixLength) ∧
        ∃ before after, table.routes = before ++ route :: after ∧
          ∀ other ∈ after, other.matches dst.toBeU32 → other.prefixLength < route.prefixLength) ∧
    (table.lookup dst = none ↔ ∀ route ∈ table.routes, route.matches dst.toBeU32 = false) := by
  refine ⟨fun route => ?_, ?_⟩
  · rw [RoutingTable.lookup, maxByKey_eq_some_iff, isLastMax_filter_iff]
  · rw [RoutingTable.lookup, maxByKey_eq_none_iff, List.filter_eq_nil_iff]
    simp

example :
    let address : UInt8 → UInt8 → UInt8 → UInt8 → Ipv4Address := fun a b c d =>
      ⟨⟨[a, b, c, d], rfl⟩⟩
    let mac : MacAddress := ⟨⟨[0x00, 0x11, 0x22, 0x33, 0x44, 0x55], rfl⟩⟩
    let defaultRoute : RouteEntry := ⟨address 0 0 0 0, address 0 0 0 0, some (address 192 168 1 1), mac⟩
    let localRoute : RouteEntry := ⟨address 192 168 1 0, address 255 255 255 0, none, mac⟩
    let table := (RoutingTable.new.addRoute defaultRoute).addRoute localRoute
    table.lookup (address 192 168 1 100) = some localRoute ∧
      table.lookup (address 8 8 8 8) = some defaultRoute := by
  decide

/-- The mask of a `/length` network: `length` high bits set. -/
def prefixMask (length : Nat) : UInt32 :=
  UInt32.ofNat (2 ^ 32 - 2 ^ (32 - length))

end FangaOS.Net
