import Ctdb.Takeover.SockAddr
import Ctdb.RbTree.Array
import Ctdb.Lib.Bytes

/-!
# Capturing and sending TCP segments (`common/system_linux.c`, `server/ctdb_takeover.c`)

To kill a connection after a takeover, the node records it in a tree keyed by
`killtcp_key`, sends it a tickle ACK, and reads the segments that come back on
a raw socket. `ctdb_sys_read_tcp_packet` parses what `recv` left in a 100-byte
buffer: the Ethernet header, an IPv4 or IPv6 header, and the ports and
sequence numbers of the TCP header. `capture_tcp_handler` looks the pair of
addresses up, source and destination swapped, and answers a segment of a
recorded connection with a RST built by `ctdb_sys_send_tcp`, whose TCP
checksum `tcp_checksum` or `tcp_checksum6` computes. A connection is killed
under the vnn of its public address: `ctdb_killtcp_add_connection` refuses one
whose addresses are not public, and frees the vnn's new structure, with the
connection, when its capture socket does not open.

`recv` with `MSG_TRUNC` returns the length of the frame, which may be longer
than the buffer, or -1; the buffer's bytes past what it wrote are those it
held before (`recvPkt`). Where the code compares the `int` result with a
`size_t`, C converts the result to the 64-bit unsigned type (`toSizeT`).

Fields that the code only copies between structures and packets (addresses,
ports, the sequence and acknowledgement numbers) are held as the big-endian
reading of their bytes, as in `CtdbSockAddr`. Where the code converts byte
order or computes on a field (`ntohs`, `htons`, `htonl`, the checksum sums,
the stored checksum) the host's byte order is a parameter (`Endian`). A pair of
addresses of two families, which no caller passes to `ctdb_sys_send_tcp`, is
left out of it (`none`).
-/

namespace Ctdb

open Lib

/-! ## Byte order -/

/-- The byte order of the host. -/
inductive Endian
  | little
  | big
  deriving DecidableEq, Repr

/-- A 16-bit word with its two bytes exchanged. -/
def swap16 (x : UInt16) : UInt16 :=
  UInt16.ofNat (x.toNat % 256 * 256 + x.toNat / 256)

/-- `htons`; `ntohs` is the same function. -/
def htons : Endian → UInt16 → UInt16
  | .little, x => swap16 x
  | .big, x => x

/-- The bytes of a field in network order: big-endian, `w` of them. -/
def netBytes (w n : Nat) : List UInt8 :=
  (leBytes w n).reverse

/-- `htonl`. -/
def htonl : Endian → UInt32 → UInt32
  | .little, x => UInt32.ofNat (leNat (netBytes 4 x.toNat))
  | .big, x => x

/-- The bytes a `uint16_t` holding `x` occupies in memory. -/
def storeU16 : Endian → UInt16 → List UInt8
  | .little, x => leBytes 2 x.toNat
  | .big, x => netBytes 2 x.toNat

/-- The `uint16_t` held by two bytes in memory. -/
def loadU16 : Endian → UInt8 → UInt8 → UInt16
  | .little, b0, b1 => UInt16.ofNat (b0.toNat + b1.toNat * 256)
  | .big, b0, b1 => UInt16.ofNat (b0.toNat * 256 + b1.toNat)

/-- The bytes a `uint32_t` holding `x` occupies in memory. -/
def storeU32 : Endian → UInt32 → List UInt8
  | .little, x => leBytes 4 x.toNat
  | .big, x => netBytes 4 x.toNat

def In6Addr.bytes (a : In6Addr) : List UInt8 :=
  netBytes 4 a.w0.toNat ++ netBytes 4 a.w1.toNat ++ netBytes 4 a.w2.toNat ++ netBytes 4 a.w3.toNat

/-! ## Checksums -/

/-- The loop of `uint16_checksum` from `sum`: each word loaded and passed
through `ntohs`, a last odd byte through `ntohs` alone. -/
def uint16ChecksumLoop (e : Endian) : UInt32 → List UInt8 → UInt32
  | sum, b0 :: b1 :: rest => uint16ChecksumLoop e (sum + (htons e (loadU16 e b0 b1)).toUInt32) rest
  | sum, [b] => sum + (htons e b.toUInt16).toUInt32
  | sum, [] => sum

/-- `uint16_checksum`. -/
def uint16Checksum (e : Endian) (data : List UInt8) : UInt32 :=
  uint16ChecksumLoop e 0 data

/-- `sum = (sum & 0xFFFF) + (sum >> 16)`. -/
def foldCarry32 (sum : UInt32) : UInt32 :=
  (sum &&& (0xFFFF : UInt32)) + (sum >>> (16 : UInt32))

/-- The end of `tcp_checksum` and `tcp_checksum6`: the carries folded in
twice, the sum turned to network order and complemented, 0 sent as `0xFFFF`. -/
def checksumFinish (e : Endian) (sum : UInt32) : UInt16 :=
  let sum := foldCarry32 (foldCarry32 sum)
  let sum2 := ~~~(htons e sum.toUInt16)
  if sum2 = 0 then 0xFFFF else sum2

/-- `tcp_checksum` of the segment `data` under an IPv4 header. -/
def tcpChecksum (e : Endian) (data : List UInt8) (saddr daddr : UInt32) (protocol : UInt8) :
    UInt16 :=
  let sum := uint16Checksum e data
  let sum := sum + uint16Checksum e (netBytes 4 saddr.toNat)
  let sum := sum + uint16Checksum e (netBytes 4 daddr.toNat)
  -- `ip->protocol + n`, in host order
  let sum := sum + (protocol.toUInt32 + UInt32.ofNat data.length)
  checksumFinish e sum

/-- `tcp_checksum6` of the segment `data` under an IPv6 header. -/
def tcpChecksum6 (e : Endian) (data : List UInt8) (src dst : In6Addr) (nxt : UInt8) : UInt16 :=
  let sum := (0 : UInt32)
  let sum := sum + uint16Checksum e src.bytes
  let sum := sum + uint16Checksum e dst.bytes
  -- `phdr[0] = htonl(n)`, `phdr[1] = htonl(ip6->ip6_nxt)`, read as words
  let phdr := storeU32 e (htonl e (UInt32.ofNat data.length)) ++ storeU32 e (htonl e nxt.toUInt32)
  let sum := sum + uint16Checksum e phdr
  let sum := sum + uint16Checksum e data
  checksumFinish e sum

/-! ## Sending -/

/-- The 20 bytes of the `struct tcphdr` that `ctdb_sys_send_tcp` fills in:
`doff` 5, the ACK flag and the RST flag when asked, a window of 1234. -/
def tcpHeaderBytes (e : Endian) (source dest : UInt16) (seq ack : UInt32) (rst : Bool)
    (check : UInt16) : List UInt8 :=
  netBytes 2 source.toNat ++ netBytes 2 dest.toNat ++ netBytes 4 seq.toNat ++
    netBytes 4 ack.toNat ++ [0x50, if rst then 0x14 else 0x10] ++
    storeU16 e (htons e 1234) ++ storeU16 e check ++ [0, 0]

/-- `ctdb_sys_send_tcp(dest, src, seq, ack, rst)`: the packet it hands to `sendto`. -/
def ctdbSysSendTcp (e : Endian) (dest src : CtdbSockAddr) (seq ack : UInt32) (rst : Bool) :
    Option (List UInt8) :=
  match src, dest with
  | .inet s sp, .inet d dp =>
      let check := tcpChecksum e (tcpHeaderBytes e sp dp seq ack rst 0) s d 6
      -- version 4, `ihl` 5, `tot_len` 40, `ttl` 255, protocol TCP, `check` 0
      some ([0x45, 0] ++ storeU16 e (htons e 40) ++ [0, 0, 0, 0, 255, 6, 0, 0] ++
        netBytes 4 s.toNat ++ netBytes 4 d.toNat ++ tcpHeaderBytes e sp dp seq ack rst check)
  | .inet6 s sp, .inet6 d dp =>
      let check := tcpChecksum6 e (tcpHeaderBytes e sp dp seq ack rst 0) s d 6
      -- `ip6_vfc` 0x60, `ip6_plen` 20, `ip6_nxt` TCP, `ip6_hlim` 64
      some ([0x60, 0, 0, 0] ++ storeU16 e (htons e 20) ++ [6, 64] ++ s.bytes ++ d.bytes ++
        tcpHeaderBytes e sp dp seq ack rst check)
  | _, _ => none

/-! ## Capturing -/

/-- `RCVPKTSIZE`. -/
def rcvPktSize : Nat := 100

/-- What `recv(s, pkt, RCVPKTSIZE, MSG_TRUNC)` leaves for a frame, or for an
error (`none`): the buffer, and the result. -/
def recvPkt (stale : List UInt8) : Option (List UInt8) → List UInt8 × Int
  | none => (stale, -1)
  | some frame => (frame.take rcvPktSize ++ stale.drop (min frame.length rcvPktSize), frame.length)

/-- An `int` converted to `size_t`. -/
def toSizeT (ret : Int) : Nat :=
  (ret % 2 ^ 64).toNat

def pktByte (pkt : List UInt8) (i : Nat) : UInt8 :=
  pkt.getD i 0

/-- The big-endian word at `i`, what `ntohs` of the loaded field gives on
every host. -/
def pktWord16 (pkt : List UInt8) (i : Nat) : UInt16 :=
  UInt16.ofNat ((pktByte pkt i).toNat * 256 + (pktByte pkt (i + 1)).toNat)

def pktWord32 (pkt : List UInt8) (i : Nat) : UInt32 :=
  UInt32.ofNat (leNat [pktByte pkt (i + 3), pktByte pkt (i + 2), pktByte pkt (i + 1), pktByte pkt i])

def pktIn6Addr (pkt : List UInt8) (i : Nat) : In6Addr :=
  ⟨pktWord32 pkt i, pktWord32 pkt (i + 4), pktWord32 pkt (i + 8), pktWord32 pkt (i + 12)⟩

/-- What `ctdb_sys_read_tcp_packet` tells its caller. -/
structure TcpSegment where
  src : CtdbSockAddr
  dst : CtdbSockAddr
  ackSeq : UInt32
  seq : UInt32
  deriving DecidableEq, Repr

/-- `ctdb_sys_read_tcp_packet` on the buffer `pkt` after `recv` returned
`ret`: the segment, or `none` for -1. The Ethernet header is 14 bytes, an
IPv4 header 20 and an IPv6 header 40, and `ack_seq` is at offset 8 of the
TCP header. -/
def ctdbSysReadTcpPacket (pkt : List UInt8) (ret : Int) : Option TcpSegment :=
  if toSizeT ret < 14 + 20 then none
  else if pktWord16 pkt 12 = 0x0800 then
    -- IPv4: version, fragment offset, protocol, then the length check
    if pktByte pkt 14 >>> 4 ≠ 4 then none
    else if pktWord16 pkt 20 &&& 0x1fff ≠ 0 then none
    else if pktByte pkt 23 ≠ 6 then none
    else
      let ihl := (pktByte pkt 14 &&& 0xf).toNat
      if 8 + 4 + ihl * 4 + 14 > toSizeT ret then none
      else
        let tcp := 14 + ihl * 4
        some ⟨.inet (pktWord32 pkt 26) (pktWord16 pkt tcp), .inet (pktWord32 pkt 30) (pktWord16 pkt (tcp + 2)),
          pktWord32 pkt (tcp + 8), pktWord32 pkt (tcp + 4)⟩
  else if pktWord16 pkt 12 = 0x86dd then
    -- IPv6: only the next header is checked
    if pktByte pkt 20 ≠ 6 then none
    else
      some ⟨.inet6 (pktIn6Addr pkt 22) (pktWord16 pkt 54), .inet6 (pktIn6Addr pkt 38) (pktWord16 pkt 56),
        pktWord32 pkt 62, pktWord32 pkt 58⟩
  else none

/-- `killtcp_key(src, dst)`, the ten words of the key. -/
def killtcpKey (src dst : CtdbSockAddr) : List UInt32 :=
  match src, dst with
  | .inet s sp, .inet d dp => [d, s, dp.toUInt32, sp.toUInt32, 0, 0, 0, 0, 0, 0]
  | .inet6 s sp, .inet6 d dp =>
      [d.w3, s.w3, d.w2, s.w2, d.w1, s.w1, d.w0, s.w0, dp.toUInt32, sp.toUInt32]
  -- "different families passed": the zeroed key
  | _, _ => List.replicate 10 0

/-- `struct ctdb_killtcp_con`, as far as the handler reads it. -/
structure KilltcpCon where
  srcAddr : CtdbSockAddr
  dstAddr : CtdbSockAddr
  deriving DecidableEq, Repr

/-- A call `ctdb_sys_send_tcp(dest, src, seq, ack, rst)`. -/
structure TcpSend where
  dest : CtdbSockAddr
  src : CtdbSockAddr
  seq : UInt32
  ack : UInt32
  rst : Bool
  deriving DecidableEq, Repr

/-- The recording part of `ctdb_killtcp_add_connection`: both addresses
canonical, the connection stored under `killtcp_key(dst, src)`. -/
def killtcpAddConnection (conns : ArrayTree KilltcpCon 10) (s d : CtdbSockAddr) :
    ArrayTree KilltcpCon 10 :=
  let con : KilltcpCon := ⟨ctdbCanonicalizeIp s, ctdbCanonicalizeIp d⟩
  trbtInsertarray32Callback (fun _ => con) 9 conns (killtcpKey con.dstAddr con.srcAddr)

/-- `capture_tcp_handler` on a readable capture socket: the RST it sends and
the connections left. -/
def captureTcpHandler (conns : ArrayTree KilltcpCon 10) (pkt : List UInt8) (ret : Int) :
    ArrayTree KilltcpCon 10 × Option TcpSend :=
  match ctdbSysReadTcpPacket pkt ret with
  -- "probably a non-tcp ACK packet"
  | none => (conns, none)
  | some seg =>
      match trbtLookuparray32 9 conns (killtcpKey seg.src seg.dst) with
      | none => (conns, none)
      | some con =>
          -- `talloc_free(con)` takes its node out of the tree
          (trbtFreearray32 9 conns (killtcpKey seg.src seg.dst),
            some ⟨con.dstAddr, con.srcAddr, seg.ackSeq, seg.seq, true⟩)

/-! ## Runs -/

/-- A `struct ctdb_kill_tcp` with its capture socket open, as far as adding
connections and capturing segments touch it: its tree of connections, and the
segments sent so far. -/
structure Killtcp where
  connections : ArrayTree KilltcpCon 10
  sent : List TcpSend

/-- What can happen to a `struct ctdb_kill_tcp`. -/
inductive KilltcpEvent
  /-- `ctdb_killtcp_add_connection(ctdb, s, d)` -/
  | add (s d : CtdbSockAddr)
  /-- `capture_tcp_handler` after `recv` left the buffer `pkt` and returned `ret` -/
  | capture (pkt : List UInt8) (ret : Int)

def killtcpStep (k : Killtcp) : KilltcpEvent → Killtcp
  | .add s d =>
      -- the connection recorded, then "tickle him once now"
      ⟨killtcpAddConnection k.connections s d,
        k.sent ++ [⟨ctdbCanonicalizeIp d, ctdbCanonicalizeIp s, 0, 0, false⟩]⟩
  | .capture pkt ret =>
      let r := captureTcpHandler k.connections pkt ret
      ⟨r.1, k.sent ++ r.2.toList⟩

/-- The state after `events`, from the empty tree `trbt_create` makes. -/
def killtcpRun (events : List KilltcpEvent) : Killtcp :=
  events.foldl killtcpStep ⟨.leaf, []⟩

/-! ## The kills of a node -/

/-- Which `struct ctdb_vnn` a kill belongs to: the `i`-th of `ctdb->vnn`, or
`ctdb->single_ip_vnn`. -/
inductive VnnRef
  | pub (i : Nat)
  | single
  deriving DecidableEq, Repr

/-- The node's public addresses as `ctdb_killtcp_add_connection` looks them up:
those of `ctdb->vnn` in order, and the single public address if there is one. -/
structure PublicIps where
  vnn : List CtdbSockAddr
  singleIp : Option CtdbSockAddr

/-- `find_public_ip_vnn`: the first public address that is `addr`. -/
def findPublicIpVnn (vnn : List CtdbSockAddr) (addr : CtdbSockAddr) : Option Nat :=
  vnn.findIdx? fun a => ctdbSameIp a addr

/-- The vnn a connection is killed under: that of its destination, else of its
source, else the single public address when it is the destination. -/
def killtcpVnn (ips : PublicIps) (src dst : CtdbSockAddr) : Option VnnRef :=
  match findPublicIpVnn ips.vnn dst, findPublicIpVnn ips.vnn src with
  | some i, _ => some (.pub i)
  | none, some i => some (.pub i)
  | none, none => if ips.singleIp.any fun a => ctdbSameIp a dst then some .single else none

/-- The kills in progress on a node: the connections of each vnn's
`struct ctdb_kill_tcp`, from the first connection added to it until it is
freed, and the segments sent. Between calls such a structure has its capture
socket open and its handler registered: the one path that leaves `capture_fd`
at -1 frees it. -/
structure KilltcpNode where
  killtcp : VnnRef → Option (ArrayTree KilltcpCon 10)
  sent : List TcpSend

/-- `ctdb_killtcp_add_connection(ctdb, s, d)`, `opens` saying whether
`ctdb_sys_open_capture_socket` opens a capture socket. -/
def ctdbKilltcpAddConnection (ips : PublicIps) (k : KilltcpNode) (s d : CtdbSockAddr) (opens : Bool) :
    Int × KilltcpNode :=
  match killtcpVnn ips (ctdbCanonicalizeIp s) (ctdbCanonicalizeIp d) with
  -- "Could not killtcp, not a public address"
  | none => (-1, k)
  | some v =>
      -- a new structure opens its capture socket once the connection is recorded
      if (k.killtcp v).isNone && !opens then
        -- "Failed to open capturing socket": `talloc_free(vnn->killtcp)`, the connection with it
        (-1, k)
      else
        let r := killtcpStep ⟨(k.killtcp v).getD .leaf, k.sent⟩ (.add s d)
        (0, ⟨Function.update k.killtcp v (some r.connections), r.sent⟩)

/-- `capture_tcp_handler` on the capture socket of the vnn `v`. -/
def captureOn (k : KilltcpNode) (v : VnnRef) (pkt : List UInt8) (ret : Int) : KilltcpNode :=
  match k.killtcp v with
  -- no structure, no socket and no handler
  | none => k
  | some conns =>
      let r := killtcpStep ⟨conns, k.sent⟩ (.capture pkt ret)
      ⟨Function.update k.killtcp v (some r.connections), r.sent⟩

/-- What can happen to the kills of a node. -/
inductive KilltcpNodeEvent
  /-- `ctdb_killtcp_add_connection(ctdb, s, d)`, the capture socket opening or not -/
  | add (s d : CtdbSockAddr) (opens : Bool)
  /-- `capture_tcp_handler` on the socket of `v` after `recv` left `pkt` and returned `ret` -/
  | capture (v : VnnRef) (pkt : List UInt8) (ret : Int)

def killtcpNodeStep (ips : PublicIps) (k : KilltcpNode) : KilltcpNodeEvent → KilltcpNode
  | .add s d opens => (ctdbKilltcpAddConnection ips k s d opens).2
  | .capture v pkt ret => captureOn k v pkt ret

/-- The kills after `events`, from none. -/
def killtcpNodeRun (ips : PublicIps) (events : List KilltcpNodeEvent) : KilltcpNode :=
  events.foldl (killtcpNodeStep ips) ⟨fun _ => none, []⟩

end Ctdb
