import Ctdb.System.Tcp
import Ctdb.Lib.OnesComplement
import Ctdb.Proofs.IpKey
import Ctdb.Proofs.RbArray
import Ctdb.Lib.Simulation

/-!
# The checksum of a sent segment, and what a captured one is read from

`ctdb_sys_send_tcp` computes the TCP checksum the way most stacks do: it adds
the 16-bit words of the pseudo-header and of the header in a 32-bit register,
folds the carries back twice and complements the result. On either byte order
each word it adds is the big-endian reading of its bytes (`htons_loadU16`,
`storeU32_htonl`), the sum has no room to wrap, and the stored field reads
back as the complement of the folded sum (`checksumFinish_word`). The segment
then passes the receiver's check (`ctdbSysSendTcp_checksum`), through
`onesSum_complement`.

`ctdb_sys_read_tcp_packet` is another matter. Its first length test compares
the result of `recv` with a `size_t`, so -1 passes it, as it passes the IPv4
length test: a failed `recv` is read as a full buffer of whatever the buffer
last held (`ctdbSysReadTcpPacket_error`). The IPv6 branch has no length test
at all, so a frame of 34 bytes is read up to byte 66
(`ctdbSysReadTcpPacket_ipv6_stale`). `capture_tcp_handler` acts on what it is given,
and answers a stale segment of a recorded connection with a RST.

A node kills connections under the vnn of their public address, one
`struct ctdb_kill_tcp` a vnn. Over any run of additions, refused or not, and
captures on any vnn's socket, each vnn's tree is a red-black store of a map
of connections, and every RST answers a buffer captured on a vnn's socket
after a connection to that vnn was added (`killtcpNodeRun_rst_answers`). On
one vnn whose capture socket opens, the node does what one structure does
(`killtcpNodeRun_onVnn`).
-/

namespace Ctdb

open Lib

/-! ## Words and byte order -/

theorem sum_beWords_le : ∀ bs : List UInt8, (beWords bs).sum ≤ 0xFFFF * bs.length
  | b0 :: b1 :: rest => by
      have := sum_beWords_le rest
      have := b0.toNat_lt
      have := b1.toNat_lt
      simp only [beWords, List.sum_cons, List.length_cons]
      omega
  | [b] => by
      have := b.toNat_lt
      simp only [beWords, List.sum_cons, List.sum_nil, List.length_singleton]
      omega
  | [] => by simp [beWords]

theorem UInt16.toNat_not_eq (x : UInt16) : (~~~x).toNat = 0xFFFF - x.toNat := by
  rw [UInt16.toNat_not]
  rfl

theorem swap16_toNat (x : UInt16) : (swap16 x).toNat = x.toNat % 256 * 256 + x.toNat / 256 := by
  have := x.toNat_lt
  rw [swap16, UInt16.toNat_ofNat']
  exact Nat.mod_eq_of_lt (by omega)

/-- `ntohs` of a word loaded from memory is its big-endian reading, on either host. -/
theorem htons_loadU16 (e : Endian) (b0 b1 : UInt8) :
    (htons e (loadU16 e b0 b1)).toNat = b0.toNat * 256 + b1.toNat := by
  have := b0.toNat_lt
  have := b1.toNat_lt
  cases e with
  | little =>
      have hload : (loadU16 .little b0 b1).toNat = b0.toNat + b1.toNat * 256 := by
        rw [loadU16, UInt16.toNat_ofNat']
        exact Nat.mod_eq_of_lt (by omega)
      rw [htons, swap16_toNat, hload]
      omega
  | big =>
      rw [htons, loadU16, UInt16.toNat_ofNat']
      exact Nat.mod_eq_of_lt (by omega)

theorem htons_htons (e : Endian) (x : UInt16) : htons e (htons e x) = x := by
  cases e with
  | little =>
      apply UInt16.toNat_inj.mp
      have := x.toNat_lt
      rw [htons, htons, swap16_toNat, swap16_toNat]
      omega
  | big => rfl

theorem htons_not (e : Endian) (x : UInt16) : htons e (~~~x) = ~~~(htons e x) := by
  cases e with
  | little =>
      apply UInt16.toNat_inj.mp
      have := x.toNat_lt
      have hsize : UInt16.size = 65536 := rfl
      rw [htons, htons, swap16_toNat, UInt16.toNat_not, UInt16.toNat_not, swap16_toNat, hsize]
      omega
  | big => rfl

/-- A stored `uint16_t` read back as a big-endian word is its value in
network order. -/
theorem beWords_storeU16 (e : Endian) (c : UInt16) : beWords (storeU16 e c) = [(htons e c).toNat] := by
  have := c.toNat_lt
  cases e with
  | little =>
      simp only [storeU16, leBytes, beWords, UInt8.toNat_ofNat', htons, swap16_toNat,
        List.cons.injEq, and_true]
      omega
  | big =>
      simp only [storeU16, netBytes, leBytes, List.reverse_cons, List.reverse_nil, List.nil_append,
        List.cons_append, beWords, UInt8.toNat_ofNat', htons, List.cons.injEq, and_true]
      omega

/-- What `htonl` stores is the network-order bytes, on either host. -/
theorem storeU32_htonl (e : Endian) (x : UInt32) : storeU32 e (htonl e x) = netBytes 4 x.toNat := by
  cases e with
  | little =>
      have hlen : (netBytes 4 x.toNat).length = 4 := by simp [netBytes]
      have hlt : leNat (netBytes 4 x.toNat) < 2 ^ 32 := by
        have := leNat_lt (netBytes 4 x.toNat)
        rw [hlen] at this
        simpa using this
      have hround := leBytes_leNat (netBytes 4 x.toNat)
      rw [hlen] at hround
      rw [storeU32, htonl, UInt32.toNat_ofNat', Nat.mod_eq_of_lt hlt, hround]
  | big => rfl

theorem uint16ChecksumLoop_eq (e : Endian) : ∀ (sum : UInt32) (data : List UInt8),
    data.length % 2 = 0 → uint16ChecksumLoop e sum data = sum + UInt32.ofNat (beWords data).sum
  | sum, b0 :: b1 :: rest, h => by
      simp only [List.length_cons] at h
      rw [uint16ChecksumLoop, uint16ChecksumLoop_eq e _ rest (by omega), beWords, List.sum_cons,
        UInt32.add_assoc]
      congr 1
      apply UInt32.toNat_inj.mp
      rw [UInt32.toNat_add, UInt16.toNat_toUInt32, htons_loadU16, UInt32.toNat_ofNat',
        UInt32.toNat_ofNat', Nat.add_mod_mod]
  | _, [_], h => by simp at h
  | sum, [], _ => by simp [uint16ChecksumLoop, beWords]

theorem foldCarry32_toNat (x : UInt32) : (foldCarry32 x).toNat = foldCarry x.toNat := by
  have hand : (x &&& (0xFFFF : UInt32)).toNat = x.toNat % 2 ^ 16 := by
    rw [UInt32.toNat_and, show (0xFFFF : UInt32).toNat = 2 ^ 16 - 1 from rfl,
      Nat.and_two_pow_sub_one_eq_mod]
  have hshr : (x >>> (16 : UInt32)).toNat = x.toNat / 2 ^ 16 := by
    rw [UInt32.toNat_shiftRight, Nat.shiftRight_eq_div_pow]
    rfl
  have hlt := x.toNat_lt
  rw [foldCarry32, UInt32.toNat_add, hand, hshr, foldCarry]
  omega

/-- The checksum field as stored reads back, as a big-endian word, as the
complement of the twice-folded sum, on either host. -/
theorem checksumFinish_word (e : Endian) (x : UInt32) :
    beWords (storeU16 e (checksumFinish e x)) = [onesComplementWord (foldCarry (foldCarry x.toNat))] := by
  have hle := foldCarry_foldCarry_le x.toNat_lt
  have hy : (foldCarry32 (foldCarry32 x)).toUInt16.toNat = foldCarry (foldCarry x.toNat) := by
    rw [UInt32.toNat_toUInt16, foldCarry32_toNat, foldCarry32_toNat]
    exact Nat.mod_eq_of_lt (by omega)
  dsimp only [checksumFinish]
  generalize (foldCarry32 (foldCarry32 x)).toUInt16 = y at hy ⊢
  rw [beWords_storeU16, ← htons_not, List.singleton_inj, onesComplementWord]
  have hlt := y.toNat_lt
  split
  · -- the complement is zero: the sum was `0xFFFF`, and `0xFFFF` is sent
    next h0 =>
      have hnot : ~~~y = 0 := by
        rw [← htons_htons e (~~~y), h0]
        cases e <;> rfl
      have hmax : y.toNat = 0xFFFF := by
        have := congrArg UInt16.toNat hnot
        rw [UInt16.toNat_not_eq, UInt16.toNat_zero] at this
        omega
      have h65535 : (htons e 0xFFFF).toNat = 0xFFFF := by cases e <;> rfl
      rw [h65535, if_pos (by omega)]
  · next h0 =>
      have hnot : ~~~y ≠ 0 := fun h => h0 (by rw [h]; cases e <;> rfl)
      have hmax : y.toNat ≠ 0xFFFF := fun h =>
        hnot (UInt16.toNat_inj.mp (by rw [UInt16.toNat_not_eq, h]; rfl))
      rw [htons_htons, UInt16.toNat_not_eq, if_neg (by omega)]
      omega

/-! ## The checksum of a sent segment -/

/-- The TCP pseudo-header a receiver puts before a segment of `len` bytes from
`src` to `dst`: the two addresses, then a zero byte, the protocol and the
16-bit length for IPv4, the 32-bit length, three zero bytes and the next
header for IPv6. -/
def pseudoHeader (src dst : CtdbSockAddr) (len : Nat) : List UInt8 :=
  match src, dst with
  | .inet s _, .inet d _ => netBytes 4 s.toNat ++ netBytes 4 d.toNat ++ [0, 6] ++ netBytes 2 len
  | .inet6 s _, .inet6 d _ => s.bytes ++ d.bytes ++ netBytes 4 len ++ [0, 0, 0, 6]
  | _, _ => []

/-- Where the TCP header starts in a packet from `src`. -/
def ipHeaderLength : CtdbSockAddr → Nat
  | .inet .. => 20
  | .inet6 .. => 40

@[simp] theorem length_netBytes (w n : Nat) : (netBytes w n).length = w := by
  simp [netBytes]

@[simp] theorem length_storeU16 (e : Endian) (c : UInt16) : (storeU16 e c).length = 2 := by
  cases e <;> simp [storeU16]

@[simp] theorem length_In6Addr_bytes (a : In6Addr) : a.bytes.length = 16 := by
  simp [In6Addr.bytes]

@[simp] theorem length_tcpHeaderBytes (e : Endian) (sp dp : UInt16) (seq ack : UInt32) (rst : Bool)
    (c : UInt16) : (tcpHeaderBytes e sp dp seq ack rst c).length = 20 := by
  simp [tcpHeaderBytes]

@[simp] theorem htons_zero (e : Endian) : htons e 0 = 0 := by
  cases e <;> rfl

theorem uint16Checksum_eq (e : Endian) {data : List UInt8} (h : data.length % 2 = 0) :
    uint16Checksum e data = UInt32.ofNat (beWords data).sum := by
  rw [uint16Checksum, uint16ChecksumLoop_eq e 0 data h, UInt32.zero_add]

/-- The header's words add up to those of the header with a zero check field,
plus the check field read in network order. -/
theorem sum_beWords_tcpHeaderBytes (e : Endian) (sp dp : UInt16) (seq ack : UInt32) (rst : Bool)
    (c : UInt16) :
    (beWords (tcpHeaderBytes e sp dp seq ack rst c)).sum =
      (beWords (tcpHeaderBytes e sp dp seq ack rst 0)).sum + (htons e c).toNat := by
  simp only [tcpHeaderBytes, beWords_append_of_even, List.length_append, length_netBytes,
    length_storeU16, List.length_cons, List.length_nil, beWords_storeU16, htons_zero,
    UInt16.toNat_zero, List.sum_append, List.sum_cons, List.sum_nil, beWords]
  omega

/-- A TCP header whose check field is `checksumFinish` of the words of a
pseudo-header of at most 40 bytes and of the header with a zero check field
passes the check under that pseudo-header. -/
theorem tcpHeaderBytes_checks (e : Endian) (sp dp : UInt16) (seq ack : UInt32) (rst : Bool)
    {pseudo : List UInt8} (heven : pseudo.length % 2 = 0) (hlen : pseudo.length ≤ 40) :
    onesSum (beWords (pseudo ++ tcpHeaderBytes e sp dp seq ack rst (checksumFinish e
      (UInt32.ofNat ((beWords pseudo).sum + (beWords (tcpHeaderBytes e sp dp seq ack rst 0)).sum))))) =
      0xFFFF := by
  generalize hS : (beWords pseudo).sum + (beWords (tcpHeaderBytes e sp dp seq ack rst 0)).sum = S
  have hlt : S < 2 ^ 32 := by
    have := sum_beWords_le pseudo
    have := sum_beWords_le (tcpHeaderBytes e sp dp seq ack rst 0)
    rw [length_tcpHeaderBytes] at this
    omega
  have hword := checksumFinish_word e (UInt32.ofNat S)
  rw [beWords_storeU16, List.singleton_inj, UInt32.toNat_ofNat', Nat.mod_eq_of_lt hlt] at hword
  refine onesSum_complement (beWords_le _) hlt ?_
  rw [beWords_append_of_even _ heven, List.sum_append, sum_beWords_tcpHeaderBytes, hword, ← hS]
  omega

theorem tcpChecksum_eq (e : Endian) (sp dp : UInt16) (seq ack : UInt32) (rst : Bool) (s d : UInt32) :
    tcpChecksum e (tcpHeaderBytes e sp dp seq ack rst 0) s d 6 =
      checksumFinish e (UInt32.ofNat ((beWords (pseudoHeader (.inet s sp) (.inet d dp) 20)).sum +
        (beWords (tcpHeaderBytes e sp dp seq ack rst 0)).sum)) := by
  have hpseudo : (beWords (pseudoHeader (.inet s sp) (.inet d dp) 20)).sum =
      (beWords (netBytes 4 s.toNat)).sum + (beWords (netBytes 4 d.toNat)).sum + 26 := by
    simp only [pseudoHeader, beWords_append_of_even, List.length_append, length_netBytes,
      List.length_cons, List.length_nil, List.sum_append]
    have h20 : (beWords (netBytes 2 20)).sum = 20 := rfl
    have h6 : (beWords [0, 6]).sum = 6 := rfl
    omega
  dsimp only [tcpChecksum]
  rw [uint16Checksum_eq e (by simp), uint16Checksum_eq e (by simp),
    uint16Checksum_eq e (by simp), length_tcpHeaderBytes, hpseudo]
  apply congrArg (checksumFinish e)
  apply UInt32.toNat_inj.mp
  simp only [UInt32.toNat_add, UInt32.toNat_ofNat']
  have : (6 : UInt8).toUInt32.toNat = 6 := rfl
  omega

theorem tcpChecksum6_eq (e : Endian) (sp dp : UInt16) (seq ack : UInt32) (rst : Bool) (s d : In6Addr) :
    tcpChecksum6 e (tcpHeaderBytes e sp dp seq ack rst 0) s d 6 =
      checksumFinish e (UInt32.ofNat ((beWords (pseudoHeader (.inet6 s sp) (.inet6 d dp) 20)).sum +
        (beWords (tcpHeaderBytes e sp dp seq ack rst 0)).sum)) := by
  have hpseudo : (beWords (pseudoHeader (.inet6 s sp) (.inet6 d dp) 20)).sum =
      (beWords s.bytes).sum + (beWords d.bytes).sum + 26 := by
    simp only [pseudoHeader, beWords_append_of_even, List.length_append, length_In6Addr_bytes,
      length_netBytes, List.sum_append]
    have h20 : (beWords (netBytes 4 20)).sum = 20 := rfl
    have h6 : (beWords [0, 0, 0, 6]).sum = 6 := rfl
    omega
  -- `phdr` holds the length and the next header in network order
  have hphdr : uint16Checksum e (storeU32 e (htonl e (UInt32.ofNat 20)) ++
      storeU32 e (htonl e (6 : UInt8).toUInt32)) = 26 := by
    rw [storeU32_htonl, storeU32_htonl, uint16Checksum_eq e (by simp)]
    decide
  dsimp only [tcpChecksum6]
  rw [length_tcpHeaderBytes, hphdr, uint16Checksum_eq e (by simp),
    uint16Checksum_eq e (by simp), uint16Checksum_eq e (by simp), hpseudo]
  apply congrArg (checksumFinish e)
  apply UInt32.toNat_inj.mp
  simp only [UInt32.toNat_add, UInt32.toNat_ofNat', UInt32.toNat_zero]
  have : (26 : UInt32).toNat = 26 := rfl
  omega

theorem ctdbSysSendTcp_checksum (e : Endian) (dest src : CtdbSockAddr) (seq ack : UInt32) (rst : Bool)
    (hfam : src.isInet6 = dest.isInet6) :
    ∃ pkt, ctdbSysSendTcp e dest src seq ack rst = some pkt ∧
      (pkt.drop (ipHeaderLength src)).length = 20 ∧
      onesSum (beWords (pseudoHeader src dest 20 ++ pkt.drop (ipHeaderLength src))) = 0xFFFF := by
  cases src with
  | inet s sp =>
      cases dest with
      | inet d dp =>
          refine ⟨_, rfl, ?_⟩
          have hip : ([0x45, 0] ++ storeU16 e (htons e 40) ++ [0, 0, 0, 0, 255, 6, 0, 0] ++
              netBytes 4 s.toNat ++ netBytes 4 d.toNat).length = ipHeaderLength (.inet s sp) := by
            simp [ipHeaderLength]
          rw [List.drop_left' hip, tcpChecksum_eq]
          exact ⟨length_tcpHeaderBytes .., tcpHeaderBytes_checks e sp dp seq ack rst
            (by simp [pseudoHeader]) (by simp [pseudoHeader])⟩
      | inet6 d dp => simp [CtdbSockAddr.isInet6] at hfam
  | inet6 s sp =>
      cases dest with
      | inet d dp => simp [CtdbSockAddr.isInet6] at hfam
      | inet6 d dp =>
          refine ⟨_, rfl, ?_⟩
          have hip : ([0x60, 0, 0, 0] ++ storeU16 e (htons e 20) ++ [6, 64] ++ s.bytes ++
              d.bytes).length = ipHeaderLength (.inet6 s sp) := by
            simp [ipHeaderLength]
          rw [List.drop_left' hip, tcpChecksum6_eq]
          exact ⟨length_tcpHeaderBytes .., tcpHeaderBytes_checks e sp dp seq ack rst
            (by simp [pseudoHeader]) (by simp [pseudoHeader])⟩

theorem ctdbSysSendTcp_checksum_ipv4 :
    (CtdbSockAddr.inet 0x0a000001 445).isInet6 = (CtdbSockAddr.inet 0x0a000002 40000).isInet6 ∧
      ∃ pkt, ctdbSysSendTcp .little (.inet 0x0a000002 40000) (.inet 0x0a000001 445) 7 9 true =
          some pkt ∧
        (pkt.drop (ipHeaderLength (.inet 0x0a000001 445))).length = 20 ∧
        onesSum (beWords (pseudoHeader (.inet 0x0a000001 445) (.inet 0x0a000002 40000) 20 ++
          pkt.drop (ipHeaderLength (.inet 0x0a000001 445)))) = 0xFFFF :=
  ⟨rfl, ctdbSysSendTcp_checksum .little _ _ 7 9 true rfl⟩

/-! ## What a captured segment is read from -/

/-- The two buffers hold the same bytes below `n`. -/
def BytesAgree (p q : List UInt8) (n : Nat) : Prop :=
  ∀ i < n, pktByte p i = pktByte q i

section Agree

variable {p q : List UInt8} {n : Nat}

theorem BytesAgree.mono (h : BytesAgree p q n) {m : Nat} (hm : m ≤ n) : BytesAgree p q m :=
  fun i hi => h i (by omega)

end Agree

theorem ihl_le (b : UInt8) : (b &&& 0xf).toNat ≤ 15 := by
  rw [UInt8.toNat_and]
  exact Nat.and_le_right

theorem toSizeT_neg_one : toSizeT (-1) = 2 ^ 64 - 1 := by
  decide

/-- A failed `recv` passes the length tests: the buffer is read as a full
one, whatever it held before. -/
theorem ctdbSysReadTcpPacket_error (pkt : List UInt8) :
    ctdbSysReadTcpPacket pkt (-1) = ctdbSysReadTcpPacket pkt rcvPktSize := by
  have hihl := ihl_le (pktByte pkt 14)
  have h100 : toSizeT (rcvPktSize : Int) = 100 := by decide
  simp only [ctdbSysReadTcpPacket, toSizeT_neg_one, h100]
  split_ifs <;> first | rfl | omega

/-- What a `struct ctdb_kill_tcp` stands for: the recorded connections as a
map from keys, and the segments sent. -/
structure KilltcpMap where
  conns : List UInt32 → Option KilltcpCon
  sent : List TcpSend

/-- The steps of `killtcpStep` on the map: a connection is recorded under
`killtcp_key(dst, src)` and tickled; a captured segment whose key is recorded
is answered with a RST, and its connection forgotten. -/
def killtcpMapStep (k : KilltcpMap) : KilltcpEvent → KilltcpMap
  | .add s d =>
      let con : KilltcpCon := ⟨ctdbCanonicalizeIp s, ctdbCanonicalizeIp d⟩
      ⟨Function.update k.conns (killtcpKey con.dstAddr con.srcAddr) (some con),
        k.sent ++ [⟨con.dstAddr, con.srcAddr, 0, 0, false⟩]⟩
  | .capture pkt ret =>
      match ctdbSysReadTcpPacket pkt ret with
      | none => k
      | some seg =>
          match k.conns (killtcpKey seg.src seg.dst) with
          | none => k
          | some con =>
              ⟨Function.update k.conns (killtcpKey seg.src seg.dst) none,
                k.sent ++ [⟨con.dstAddr, con.srcAddr, seg.ackSeq, seg.seq, true⟩]⟩

theorem length_killtcpKey (s d : CtdbSockAddr) : (killtcpKey s d).length = 10 := by
  cases s <;> cases d <;> rfl

/-- The tree stands for the map, and both have sent the same segments. -/
structure KilltcpRefines (k : Killtcp) (a : KilltcpMap) : Prop where
  conns : ArrayInv 9 k.connections a.conns
  sent : k.sent = a.sent

namespace KilltcpRefines

variable {k : Killtcp} {a : KilltcpMap}

theorem step (h : KilltcpRefines k a) : ∀ ev, KilltcpRefines (killtcpStep k ev) (killtcpMapStep a ev)
  | .add s d =>
      ⟨h.conns.step (.insert ⟨killtcpKey (ctdbCanonicalizeIp d) (ctdbCanonicalizeIp s),
          length_killtcpKey _ _⟩ fun _ => ⟨ctdbCanonicalizeIp s, ctdbCanonicalizeIp d⟩),
        by simp [killtcpStep, killtcpMapStep, h.sent]⟩
  | .capture pkt ret => by
      simp only [killtcpStep, killtcpMapStep, captureTcpHandler]
      cases ctdbSysReadTcpPacket pkt ret with
      | none => exact ⟨h.conns, by simp [h.sent]⟩
      | some seg =>
          dsimp only
          -- the tree's lookup is the map's
          rw [trbtLookuparray32_eq 9 _ _ h.conns.wf (length_killtcpKey _ _), h.conns.lookup]
          cases a.conns (killtcpKey seg.src seg.dst) with
          | none => exact ⟨h.conns, by simp [h.sent]⟩
          | some con =>
              dsimp only
              exact ⟨h.conns.step (.free ⟨killtcpKey seg.src seg.dst, length_killtcpKey _ _⟩),
                by simp [h.sent]⟩

theorem leaf (l : List TcpSend) : KilltcpRefines ⟨.leaf, l⟩ ⟨fun _ => none, l⟩ :=
  ⟨⟨arrayWf_leaf, fun ks => arrayLookup_leaf ks⟩, rfl⟩

end KilltcpRefines

/-! ## The kills of a node as maps -/

/-- What the kills of a node stand for: the connections of each vnn that has a
structure, as a map from keys, and the segments sent. -/
structure KilltcpNodeMap where
  conns : VnnRef → Option (List UInt32 → Option KilltcpCon)
  sent : List TcpSend

/-- The steps of `killtcpNodeStep` on the maps. -/
def killtcpNodeMapStep (ips : PublicIps) (a : KilltcpNodeMap) : KilltcpNodeEvent → KilltcpNodeMap
  | .add s d opens =>
      match killtcpVnn ips (ctdbCanonicalizeIp s) (ctdbCanonicalizeIp d) with
      | none => a
      | some v =>
          if (a.conns v).isNone && !opens then a
          else
            let r := killtcpMapStep ⟨(a.conns v).getD fun _ => none, a.sent⟩ (.add s d)
            ⟨Function.update a.conns v (some r.conns), r.sent⟩
  | .capture v pkt ret =>
      match a.conns v with
      | none => a
      | some m =>
          let r := killtcpMapStep ⟨m, a.sent⟩ (.capture pkt ret)
          ⟨Function.update a.conns v (some r.conns), r.sent⟩

/-- Each vnn's tree stands for its map, and the same segments were sent. -/
structure KilltcpNodeRefines (k : KilltcpNode) (a : KilltcpNodeMap) : Prop where
  conns : ∀ v, Option.Rel (ArrayInv 9) (k.killtcp v) (a.conns v)
  sent : k.sent = a.sent

namespace KilltcpNodeRefines

variable {ips : PublicIps} {k : KilltcpNode} {a : KilltcpNodeMap}

/-- A vnn whose structure changes as the one-structure machine does. -/
theorem update (h : KilltcpNodeRefines k a) (v : VnnRef) {k' : Killtcp} {a' : KilltcpMap}
    (hr : KilltcpRefines k' a') :
    KilltcpNodeRefines ⟨Function.update k.killtcp v (some k'.connections), k'.sent⟩
      ⟨Function.update a.conns v (some a'.conns), a'.sent⟩ := by
  refine ⟨fun v' => ?_, hr.sent⟩
  by_cases hv : v' = v
  · subst hv
    simp only [Function.update_self]
    exact .some hr.conns
  · simp only [Function.update_of_ne hv]
    exact h.conns v'

/-- The structure of a vnn, or an empty tree where there is none. -/
theorem getD (h : KilltcpNodeRefines k a) (v : VnnRef) :
    KilltcpRefines ⟨(k.killtcp v).getD .leaf, k.sent⟩ ⟨(a.conns v).getD fun _ => none, a.sent⟩ := by
  rw [h.sent]
  have hv := h.conns v
  revert hv
  cases k.killtcp v <;> cases a.conns v <;> intro hv
  · exact KilltcpRefines.leaf _
  · cases hv
  · cases hv
  · cases hv with
    | some hi => exact ⟨hi, rfl⟩

theorem step (h : KilltcpNodeRefines k a) :
    ∀ ev, KilltcpNodeRefines (killtcpNodeStep ips k ev) (killtcpNodeMapStep ips a ev)
  | .add s d opens => by
      simp only [killtcpNodeStep, ctdbKilltcpAddConnection, killtcpNodeMapStep]
      cases killtcpVnn ips (ctdbCanonicalizeIp s) (ctdbCanonicalizeIp d) with
      | none => exact h
      | some v =>
          dsimp only
          -- the tree and the map are there or not together
          rw [(h.conns v).isNone_eq]
          split_ifs
          · exact h
          · exact h.update v ((h.getD v).step (.add s d))
  | .capture v pkt ret => by
      simp only [killtcpNodeStep, captureOn, killtcpNodeMapStep]
      have hv := h.conns v
      revert hv
      cases k.killtcp v <;> cases a.conns v <;> intro hv
      · exact h
      · cases hv
      · cases hv
      · cases hv with
        | some hi =>
            dsimp only
            exact h.update v ((⟨hi, h.sent⟩ : KilltcpRefines _ _).step (.capture pkt ret))

theorem run : ∀ (events : List KilltcpNodeEvent) {k : KilltcpNode} {a : KilltcpNodeMap}, KilltcpNodeRefines k a →
    KilltcpNodeRefines (events.foldl (killtcpNodeStep ips) k) (events.foldl (killtcpNodeMapStep ips) a)
  | [], _, _, h => h
  | ev :: events, _, _, h => run events (h.step ev)

end KilltcpNodeRefines

/-! ## Why a RST is sent -/

/-- A RST that answers a captured buffer `pkt`, `recv` having returned `ret`:
the buffer parses as a segment whose key is that of the connection `(s, d)`,
with its acknowledgement number as the sequence number and the other way
round. -/
def RstAnswers (r : TcpSend) (pkt : List UInt8) (ret : Int) (s d : CtdbSockAddr) : Prop :=
  ∃ seg, ctdbSysReadTcpPacket pkt ret = some seg ∧
    killtcpKey seg.src seg.dst = killtcpKey (ctdbCanonicalizeIp d) (ctdbCanonicalizeIp s) ∧
    r = ⟨ctdbCanonicalizeIp d, ctdbCanonicalizeIp s, seg.ackSeq, seg.seq, true⟩

/-- What the maps hold after `events`: each recorded connection was added to
its vnn under its own key, and each RST answers a buffer captured on a vnn's
socket after a connection to it was added. -/
structure KilltcpJustified (ips : PublicIps) (events : List KilltcpNodeEvent) (a : KilltcpNodeMap) : Prop where
  conns : ∀ v m key con, a.conns v = some m → m key = some con → ∃ s d opens, .add s d opens ∈ events ∧
    killtcpVnn ips (ctdbCanonicalizeIp s) (ctdbCanonicalizeIp d) = some v ∧
    con = ⟨ctdbCanonicalizeIp s, ctdbCanonicalizeIp d⟩ ∧ key = killtcpKey con.dstAddr con.srcAddr
  sent : ∀ r ∈ a.sent, r.rst = true → ∃ s d opens v pkt ret,
    [KilltcpNodeEvent.add s d opens, .capture v pkt ret].Sublist events ∧
    killtcpVnn ips (ctdbCanonicalizeIp s) (ctdbCanonicalizeIp d) = some v ∧ RstAnswers r pkt ret s d

namespace KilltcpJustified

variable {ips : PublicIps} {events : List KilltcpNodeEvent} {a : KilltcpNodeMap}

theorem mono (h : KilltcpJustified ips events a) (ev : KilltcpNodeEvent) :
    KilltcpJustified ips (events ++ [ev]) a where
  conns v m key con hm hc := by
    obtain ⟨s, d, opens, hmem, hcon⟩ := h.conns v m key con hm hc
    exact ⟨s, d, opens, List.mem_append_left _ hmem, hcon⟩
  sent r hr hrst := by
    obtain ⟨s, d, opens, v, pkt, ret, hsub, hrest⟩ := h.sent r hr hrst
    exact ⟨s, d, opens, v, pkt, ret, hsub.trans (List.sublist_append_left _ _), hrest⟩

/-- A vnn's map that only loses entries keeps what is known of the others. -/
theorem erase (h : KilltcpJustified ips events a) {v : VnnRef} {m : List UInt32 → Option KilltcpCon}
    (hm : a.conns v = some m) (key : List UInt32) {sent : List TcpSend}
    (hsent : ∀ r ∈ sent, r.rst = true → ∃ s d opens v pkt ret,
      [KilltcpNodeEvent.add s d opens, .capture v pkt ret].Sublist events ∧
      killtcpVnn ips (ctdbCanonicalizeIp s) (ctdbCanonicalizeIp d) = some v ∧ RstAnswers r pkt ret s d) :
    KilltcpJustified ips events ⟨Function.update a.conns v (some (Function.update m key none)), sent⟩ := by
  refine ⟨fun v' m' key' con hm' hc => ?_, hsent⟩
  by_cases hv : v' = v
  · subst hv
    simp only [Function.update_self, Option.some.injEq] at hm'
    subst hm'
    by_cases hk : key' = key
    · simp [hk] at hc
    · rw [Function.update_of_ne hk] at hc
      exact h.conns v' m key' con hm hc
  · simp only [Function.update_of_ne hv] at hm'
    exact h.conns v' m' key' con hm' hc

theorem step (h : KilltcpJustified ips events a) :
    ∀ ev, KilltcpJustified ips (events ++ [ev]) (killtcpNodeMapStep ips a ev)
  | .add s d opens => by
      have hm := h.mono (.add s d opens)
      simp only [killtcpNodeMapStep]
      cases hv : killtcpVnn ips (ctdbCanonicalizeIp s) (ctdbCanonicalizeIp d) with
      | none => exact hm
      | some v =>
          dsimp only
          split_ifs
          · exact hm
          · refine ⟨fun v' m' key con hm' hc => ?_, fun r hr hrst => ?_⟩
            · by_cases hv' : v' = v
              · subst hv'
                simp only [killtcpMapStep, Function.update_self, Option.some.injEq] at hm'
                subst hm'
                by_cases hkey : key = killtcpKey (ctdbCanonicalizeIp d) (ctdbCanonicalizeIp s)
                · -- the connection just added
                  simp only [hkey, Function.update_self, Option.some.injEq] at hc
                  exact ⟨s, d, opens, by simp, hv, hc.symm, by rw [hkey, ← hc]⟩
                · -- one there before, in a map that was there before
                  rw [Function.update_of_ne hkey] at hc
                  cases hold : a.conns v' with
                  | none => simp [hold] at hc
                  | some m₀ =>
                      rw [hold, Option.getD_some] at hc
                      exact hm.conns v' m₀ key con hold hc
              · simp only [Function.update_of_ne hv'] at hm'
                exact hm.conns v' m' key con hm' hc
            · -- the tickle is no RST
              simp only [killtcpMapStep, List.mem_append, List.mem_singleton] at hr
              rcases hr with hr | rfl
              · exact hm.sent r hr hrst
              · simp at hrst
  | .capture v pkt ret => by
      have hm := h.mono (.capture v pkt ret)
      simp only [killtcpNodeMapStep]
      cases hmv : a.conns v with
      | none => exact hm
      | some m =>
          dsimp only
          simp only [killtcpMapStep]
          cases hseg : ctdbSysReadTcpPacket pkt ret with
          | none =>
              dsimp only
              rw [Function.update_eq_self_iff.mpr hmv.symm]
              exact hm
          | some seg =>
              dsimp only
              cases hc : m (killtcpKey seg.src seg.dst) with
              | none =>
                  dsimp only
                  rw [Function.update_eq_self_iff.mpr hmv.symm]
                  exact hm
              | some con =>
                  obtain ⟨s, d, opens, hadd, hvs, rfl, hkey⟩ := h.conns v m _ _ hmv hc
                  refine hm.erase hmv _ fun r hr hrst => ?_
                  simp only [List.mem_append, List.mem_singleton] at hr
                  rcases hr with hr | rfl
                  · exact hm.sent r hr hrst
                  · -- the RST answers this very buffer, captured after the add
                    refine ⟨s, d, opens, v, pkt, ret, ?_, hvs, seg, hseg, hkey, rfl⟩
                    exact (List.singleton_sublist.mpr hadd).append (List.Sublist.refl _)

theorem run : ∀ (events : List KilltcpNodeEvent) {pre : List KilltcpNodeEvent} {a : KilltcpNodeMap},
    KilltcpJustified ips pre a → KilltcpJustified ips (pre ++ events) (events.foldl (killtcpNodeMapStep ips) a)
  | [], pre, _, h => by rw [List.append_nil]; exact h
  | ev :: events, pre, _, h => by
      rw [← List.singleton_append, ← List.append_assoc]
      exact run events (h.step ev)

end KilltcpJustified

/-- A segment from `10.0.0.2:40000` to `10.0.0.1:445` in a frame of 54 bytes,
as the 100-byte capture buffer holds it. -/
def staleSegment : List UInt8 :=
  List.replicate 12 0 ++ [0x08, 0x00] ++
    [0x45, 0, 0, 40, 0, 0, 0x40, 0, 64, 6, 0, 0] ++ netBytes 4 0x0a000002 ++ netBytes 4 0x0a000001 ++
    netBytes 2 40000 ++ netBytes 2 445 ++ netBytes 4 0x11111111 ++ netBytes 4 0x22222222 ++
    [0x50, 0x10, 0, 0, 0, 0, 0, 0] ++ List.replicate 46 0

/-- Every run of `ctdb_killtcp_add_connection` calls and captures on the
node's capture sockets keeps each vnn's tree a red-black store of the map of
the connections recorded for it, and every RST it sends answers a buffer
captured on a vnn's socket after a connection to that vnn was added, whose key
the buffer's segment has. -/
theorem killtcpNodeRun_rst_answers (ips : PublicIps) (events : List KilltcpNodeEvent) :
    KilltcpNodeRefines (killtcpNodeRun ips events) (events.foldl (killtcpNodeMapStep ips) ⟨fun _ => none, []⟩) ∧
      ∀ r ∈ (killtcpNodeRun ips events).sent, r.rst = true → ∃ s d opens v pkt ret,
        [KilltcpNodeEvent.add s d opens, .capture v pkt ret].Sublist events ∧
        killtcpVnn ips (ctdbCanonicalizeIp s) (ctdbCanonicalizeIp d) = some v ∧ RstAnswers r pkt ret s d := by
  have href := @KilltcpNodeRefines.run ips events ⟨fun _ => none, []⟩ ⟨fun _ => none, []⟩
    ⟨fun _ => .none, rfl⟩
  have hinit : KilltcpJustified ips [] ⟨fun _ => none, []⟩ :=
    ⟨fun _ _ _ _ h => (nomatch h), fun _ h => (List.not_mem_nil h).elim⟩
  refine ⟨href, ?_⟩
  rw [killtcpNodeRun, href.sent]
  exact (KilltcpJustified.run events hinit).sent

/-- An event of one structure, as an event of the node on the vnn `v`, its
capture socket opening. -/
def KilltcpEvent.onVnn (v : VnnRef) : KilltcpEvent → KilltcpNodeEvent
  | .add s d => .add s d true
  | .capture pkt ret => .capture v pkt ret

theorem captureTcpHandler_leaf (pkt : List UInt8) (ret : Int) : captureTcpHandler .leaf pkt ret = (.leaf, none) := by
  unfold captureTcpHandler
  cases ctdbSysReadTcpPacket pkt ret with
  | none => rfl
  | some seg =>
      dsimp only
      rw [trbtLookuparray32_leaf 9]

/-- One event on the vnn `v` does to the node's structure there, or to an
empty tree before there is one, what it does to one structure. -/
theorem killtcpNodeStep_onVnn {ips : PublicIps} {v : VnnRef} (kn : KilltcpNode) (ev : KilltcpEvent)
    (hadd : ∀ s d, ev = .add s d → killtcpVnn ips (ctdbCanonicalizeIp s) (ctdbCanonicalizeIp d) = some v) :
    (killtcpNodeStep ips kn (ev.onVnn v)).sent = (killtcpStep ⟨(kn.killtcp v).getD .leaf, kn.sent⟩ ev).sent ∧
      ((killtcpNodeStep ips kn (ev.onVnn v)).killtcp v).getD .leaf =
        (killtcpStep ⟨(kn.killtcp v).getD .leaf, kn.sent⟩ ev).connections := by
  cases ev with
  | add s d =>
      -- the connection's vnn is `v`, and a new structure's socket opens
      simp [KilltcpEvent.onVnn, killtcpNodeStep, ctdbKilltcpAddConnection, hadd s d rfl]
  | capture pkt ret =>
      cases hkv : kn.killtcp v with
      | none =>
          -- no structure yet: the handler is not there, and an empty tree answers nothing
          simp only [KilltcpEvent.onVnn, killtcpNodeStep, captureOn, hkv, Option.getD_none, killtcpStep]
          rw [captureTcpHandler_leaf]
          simp
      | some conns => simp [KilltcpEvent.onVnn, killtcpNodeStep, captureOn, hkv, killtcpStep]

/-- The one-structure machine is what a node does on one vnn whose capture
socket opens, when every connection added is to that vnn. -/
theorem killtcpNodeRun_onVnn (ips : PublicIps) (v : VnnRef) (events : List KilltcpEvent)
    (hv : ∀ s d, .add s d ∈ events → killtcpVnn ips (ctdbCanonicalizeIp s) (ctdbCanonicalizeIp d) = some v) :
    (killtcpNodeRun ips (events.map (KilltcpEvent.onVnn v))).sent = (killtcpRun events).sent ∧
      ((killtcpNodeRun ips (events.map (KilltcpEvent.onVnn v))).killtcp v).getD .leaf =
        (killtcpRun events).connections := by
  -- the node's structure on `v`, or the empty tree before there is one, is the machine's
  have hrun : ∀ (evs : List KilltcpEvent) (kn : KilltcpNode),
      (∀ s d, .add s d ∈ evs → killtcpVnn ips (ctdbCanonicalizeIp s) (ctdbCanonicalizeIp d) = some v) →
      ((evs.map (KilltcpEvent.onVnn v)).foldl (killtcpNodeStep ips) kn).sent =
          (evs.foldl killtcpStep ⟨(kn.killtcp v).getD .leaf, kn.sent⟩).sent ∧
        (((evs.map (KilltcpEvent.onVnn v)).foldl (killtcpNodeStep ips) kn).killtcp v).getD .leaf =
          (evs.foldl killtcpStep ⟨(kn.killtcp v).getD .leaf, kn.sent⟩).connections := by
    intro evs
    induction evs with
    | nil => exact fun _ _ => ⟨rfl, rfl⟩
    | cons ev evs ih =>
        intro kn hadd
        obtain ⟨hs, hc⟩ := @killtcpNodeStep_onVnn ips v kn ev fun s d h => hadd s d (h ▸ List.mem_cons_self)
        have hk : killtcpStep ⟨(kn.killtcp v).getD .leaf, kn.sent⟩ ev =
            ⟨((killtcpNodeStep ips kn (ev.onVnn v)).killtcp v).getD .leaf, (killtcpNodeStep ips kn (ev.onVnn v)).sent⟩ := by
          rw [hs, hc]
        rw [List.map_cons, List.foldl_cons, List.foldl_cons, hk]
        exact ih _ fun s d h => hadd s d (List.mem_cons_of_mem ev h)
  exact hrun events _ hv

/-- The node's only public address is `10.0.0.1`. -/
def sampleIps : PublicIps := ⟨[.inet 0x0a000001 0], none⟩

theorem killtcpNodeRun_rst_answers_one :
    ⟨.inet 0x0a000002 40000, .inet 0x0a000001 445, 0x22222222, 0x11111111, true⟩ ∈
        (killtcpNodeRun sampleIps [.add (.inet 0x0a000001 445) (.inet 0x0a000002 40000) true,
          .capture (.pub 0) staleSegment 54]).sent ∧
      ∃ s d opens v pkt ret, [KilltcpNodeEvent.add s d opens, .capture v pkt ret].Sublist
          [.add (.inet 0x0a000001 445) (.inet 0x0a000002 40000) true, .capture (.pub 0) staleSegment 54] ∧
        killtcpVnn sampleIps (ctdbCanonicalizeIp s) (ctdbCanonicalizeIp d) = some v ∧
        RstAnswers ⟨.inet 0x0a000002 40000, .inet 0x0a000001 445, 0x22222222, 0x11111111, true⟩ pkt ret s d :=
  have hmem : (⟨.inet 0x0a000002 40000, .inet 0x0a000001 445, 0x22222222, 0x11111111, true⟩ : TcpSend) ∈
      (killtcpNodeRun sampleIps [.add (.inet 0x0a000001 445) (.inet 0x0a000002 40000) true,
        .capture (.pub 0) staleSegment 54]).sent := by
    decide
  ⟨hmem, (killtcpNodeRun_rst_answers _ _).2 _ hmem rfl⟩

theorem killtcp_rst_after_failed_recv :
    (recvPkt staleSegment none).2 = -1 ∧
      (killtcpRun [.add (.inet 0x0a000001 445) (.inet 0x0a000002 40000),
          .capture (recvPkt staleSegment none).1 (recvPkt staleSegment none).2]).sent =
        [⟨.inet 0x0a000002 40000, .inet 0x0a000001 445, 0, 0, false⟩,
          ⟨.inet 0x0a000002 40000, .inet 0x0a000001 445, 0x22222222, 0x11111111, true⟩] := by
  decide

end Ctdb
