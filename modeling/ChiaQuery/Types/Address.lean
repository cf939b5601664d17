import Mathlib.Algebra.Group.Nat.Defs
import Mathlib.Data.List.Basic

/-! Socket addresses and the text the crate's messages render them as. -/

namespace ChiaQuery

/-- `std::net::IpAddr`, each address read as the big-endian number its octets spell. -/
inductive IpAddr where
  | v4 (bits : BitVec 32)
  | v6 (bits : BitVec 128)
  deriving DecidableEq, Repr

/-- `std::net::SocketAddr`, with the flow label and scope that dialled addresses leave zero
left out.
-/
structure SocketAddr where
  ip : IpAddr
  port : UInt16
  deriving DecidableEq, Repr

namespace IpAddr

/-- The four octets of an IPv4 address, separated by dots. -/
def displayV4 (bits : Nat) : String :=
  let octet (index : Nat) := toString (bits / 256 ^ (3 - index) % 256)
  s!"{octet 0}.{octet 1}.{octet 2}.{octet 3}"

/-- The eight 16-bit segments of an IPv6 address. -/
def segments (bits : BitVec 128) : List Nat :=
  (List.range 8).map (fun index => bits.toNat / 65536 ^ (7 - index) % 65536)

/-- Start and length of a run of zero segments. -/
structure Span where
  start : Nat := 0
  length : Nat := 0

/-- The first longest run of zero segments, given the runs seen so far. -/
def longestZeroSpan (index : Nat) (current longest : Span) : List Nat → Span
  | [] => longest
  | segment :: rest =>
      if segment = 0 then
        let extended : Span :=
          {
            start := if current.length = 0 then index else current.start,
            length := current.length + 1
          }
        longestZeroSpan (index + 1) extended
          (if longest.length < extended.length then extended else longest) rest
      else longestZeroSpan (index + 1) {} longest rest

def displaySegments (run : List Nat) : String :=
  ":".intercalate (run.map (fun segment => String.ofList (Nat.toDigits 16 segment)))

def display : IpAddr → String
  | v4 bits => displayV4 bits.toNat
  | v6 bits =>
      let all := segments bits
      if all.take 6 = [0, 0, 0, 0, 0, 65535] then
        "::ffff:" ++ displayV4 (bits.toNat % 2 ^ 32)
      else
        let zeros := longestZeroSpan 0 {} {} all
        if 1 < zeros.length then
          displaySegments (all.take zeros.start) ++ "::"
            ++ displaySegments (all.drop (zeros.start + zeros.length))
        else displaySegments all

end IpAddr

/-- The `Display` rendering of an address. -/
def SocketAddr.display (address : SocketAddr) : String :=
  match address.ip with
  | .v4 _ => s!"{address.ip.display}:{address.port}"
  | .v6 _ => s!"[{address.ip.display}]:{address.port}"

instance : ToString SocketAddr := ⟨SocketAddr.display⟩

example : toString (SocketAddr.mk (.v6 1) 8444) = "[::1]:8444" := by decide

end ChiaQuery
