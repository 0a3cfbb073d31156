import Mathlib

/-!
# Socket addresses and their keys (`common/ctdb_util.c`, `server/ctdb_takeover.c`)

A `ctdb_sock_addr` holds an IPv4 or an IPv6 address with a port. Two of them
are the same address for `ctdb_same_ip` when, once `ctdb_canonicalize_ip` has
turned an IPv4-mapped IPv6 address (`::ffff:a.b.c.d`) into the IPv4 address it
maps, they have one family and the same address bytes; ports are not compared.

The tree of public addresses is keyed instead by `ip_key`: four words, where an
IPv4 address is the last one behind 96 zero bits and an IPv6 address is its own
128 bits. Nothing maps an IPv4-mapped address to the key of its IPv4 address,
and nothing keeps an IPv6 address in `::/96` (`::a.b.c.d`) apart from the IPv4
address with the same last word.

The structure holds the address bytes in network order. Here each address is
its big-endian value, one word for IPv4 and four for IPv6: `htonl` of a stored
word is that value on every host, and comparing the bytes with `==` or `memcmp`
compares these values.
-/

namespace Ctdb

/-- `ip_key` of an address, the most significant word first. -/
structure IpKey where
  k0 : UInt32
  k1 : UInt32
  k2 : UInt32
  k3 : UInt32
  deriving DecidableEq, Repr

def IpKey.words (k : IpKey) : List UInt32 := [k.k0, k.k1, k.k2, k.k3]

/-- The key as one number, in the order of `trbt_traversearray32`. -/
def IpKey.toNat (k : IpKey) : Nat := k.words.foldl (fun n w => n * 2 ^ 32 + w.toNat) 0

/-- The sixteen bytes of `struct in6_addr`, as four big-endian words. -/
structure In6Addr where
  w0 : UInt32
  w1 : UInt32
  w2 : UInt32
  w3 : UInt32
  deriving DecidableEq, Repr

/-- `ctdb_sock_addr` of family `AF_INET` or `AF_INET6`. -/
inductive CtdbSockAddr
  | inet (addr : UInt32) (port : UInt16)
  | inet6 (addr : In6Addr) (port : UInt16)
  deriving DecidableEq, Repr

/-- `ip_key`. -/
def ipKey : CtdbSockAddr → IpKey
  | .inet addr _ => ⟨0, 0, 0, addr⟩
  | .inet6 addr _ => ⟨addr.w0, addr.w1, addr.w2, addr.w3⟩

/-- `ctdb_canonicalize_ip`: an IPv6 address whose first twelve bytes are
`0, …, 0, 0xff, 0xff` becomes the IPv4 address in its last four, with its port. -/
def ctdbCanonicalizeIp : CtdbSockAddr → CtdbSockAddr
  | .inet6 addr port =>
      if addr.w0 = 0 ∧ addr.w1 = 0 ∧ addr.w2 = 0xffff then .inet addr.w3 port else .inet6 addr port
  | ip => ip

/-- `ctdb_same_ip`. -/
def ctdbSameIp (tip1 tip2 : CtdbSockAddr) : Bool :=
  match ctdbCanonicalizeIp tip1, ctdbCanonicalizeIp tip2 with
  | .inet a _, .inet b _ => a == b
  | .inet6 a _, .inet6 b _ => a == b
  -- `ip1.sa.sa_family != ip2.sa.sa_family`
  | _, _ => false

end Ctdb
