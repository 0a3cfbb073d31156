import Ctdb.Io.Queue

/-!
# A queue delivers its packets, in order, once each

The bytes of the packets not yet delivered are, at every moment, the
receiver's buffer, then the socket, then the unwritten rest of the queued
packets, then the packets the application has still to send, in that order
(`QueueInv.bytes`): a send or a write moves bytes from the back to the
socket without reordering them, a read moves them from the socket to the
buffer, and `queue_process` takes a whole packet off the front of the
buffer, which the length field of that packet delimits. So what the
callback has been given is always a prefix of the packets.

Nothing is left behind either. Whenever the buffer starts with a complete
packet an immediate event is scheduled (`QueueInv.ready`), so a queue with no
byte in transit and no event pending has delivered everything
(`QueueInv.delivered_of_idle`).
-/

namespace Ctdb

open Lib

/-- A packet whose length field holds its size, which is at least 4. -/
def WellFramed (p : List UInt8) : Prop := 4 ≤ p.length ∧ leNat (p.take 4) = p.length

/-- The buffer begins with a complete packet. -/
def QueueReady (data : List UInt8) : Prop := 4 ≤ data.length ∧ leNat (data.take 4) ≤ data.length

instance : DecidablePred WellFramed := fun p =>
  inferInstanceAs (Decidable (4 ≤ p.length ∧ leNat (p.take 4) = p.length))

/-! ## Packets at the front of a stream -/

theorem take_succ_of_drop {ps : List (List UInt8)} {k : Nat} {p : List UInt8}
    {rest : List (List UInt8)} (h : ps.drop k = p :: rest) : ps.take (k + 1) = ps.take k ++ [p] := by
  have hk : ps[k]? = some p := by
    have := congrArg (·[0]?) h
    simpa [List.getElem?_drop] using this
  rw [List.take_add_one, hk]
  rfl

theorem drop_succ_of_drop {ps : List (List UInt8)} {k : Nat} {p : List UInt8}
    {rest : List (List UInt8)} (h : ps.drop k = p :: rest) : ps.drop (k + 1) = rest := by
  rw [← List.drop_drop, h]
  rfl

/-- What a buffer that the packet `p` starts holds in its first bytes. -/
theorem take_of_append_eq {data tail p rest : List UInt8} (h : data ++ tail = p ++ rest) {n : Nat}
    (hn : n ≤ data.length) (hp : n ≤ p.length) : data.take n = p.take n := by
  have h1 := congrArg (List.take n) h
  rwa [List.take_append_of_le_length hn, List.take_append_of_le_length hp] at h1

/-- The length field at the front of a buffer is that of the packet the
stream continues with. -/
theorem pktSize_of_front {data tail p rest : List UInt8} (hp : WellFramed p)
    (h : data ++ tail = p ++ rest) (h4 : 4 ≤ data.length) : leNat (data.take 4) = p.length := by
  rw [take_of_append_eq h h4 hp.1]
  exact hp.2

/-- A buffer holding a whole packet splits into it and the rest of the stream. -/
theorem split_front {data tail p rest : List UInt8} (h : data ++ tail = p ++ rest)
    (hlen : p.length ≤ data.length) :
    data.take p.length = p ∧ data.drop p.length ++ tail = rest := by
  have htake := take_of_append_eq h hlen (Nat.le_refl _)
  rw [List.take_length] at htake
  refine ⟨htake, ?_⟩
  have h2 := congrArg (List.drop p.length) h
  rwa [List.drop_append_of_le_length hlen, List.drop_left] at h2

/-! ## Room in the buffer -/

/-- How the receive buffer is allocated: a `NULL` buffer holds nothing, an
allocated one has at least 16 KiB, what it holds fits, and an extension asked
for is larger than both. -/
structure BufferRoom (b : QueueBuffer) : Prop where
  freed : b.size = 0 → b.data = []
  size : b.size ≠ 0 → QUEUE_BUFFER_SIZE ≤ b.size
  fits : b.data.length ≤ b.size
  extend : b.extend ≠ 0 → QUEUE_BUFFER_SIZE < b.extend ∧ b.data.length < b.extend

/-- The packet at the front of the buffer fits in the buffer the next read
uses. -/
def FrontFits (b : QueueBuffer) : Prop :=
  4 ≤ b.data.length → leNat (b.data.take 4) ≤ (queueReadBuffer b).size

@[simp] theorem queueReadBuffer_data (b : QueueBuffer) : (queueReadBuffer b).data = b.data := by
  unfold queueReadBuffer
  split_ifs <;> rfl

namespace BufferRoom

variable {b : QueueBuffer}

theorem readBuffer_size (h : BufferRoom b) : QUEUE_BUFFER_SIZE ≤ (queueReadBuffer b).size := by
  unfold queueReadBuffer
  split_ifs with h0 he
  · exact Nat.le_refl _
  · exact Nat.le_of_lt (h.extend (by omega)).1
  · exact h.size h0

/-- What a read appends fits in the buffer it reads into. -/
theorem read (h : BufferRoom b) {xs : List UInt8}
    (hxs : xs.length ≤ (queueReadBuffer b).size - b.data.length) :
    BufferRoom { queueReadBuffer b with data := b.data ++ xs } := by
  unfold queueReadBuffer at hxs ⊢
  split_ifs at hxs ⊢ with h0 he <;> refine ⟨?_, ?_, ?_, ?_⟩ <;> dsimp only at hxs ⊢
  -- a fresh buffer
  · exact fun h' => absurd h' (by decide)
  · exact fun _ => Nat.le_refl _
  · simpa [h.freed h0] using hxs
  · intro hne
    have hbig := (h.extend hne).1
    simp only [h.freed h0, List.nil_append, List.length_nil, Nat.sub_zero] at hxs ⊢
    omega
  -- grown to the size asked for
  · exact fun h' => absurd h' (by omega)
  · exact fun _ => (h.extend (by omega)).1.le
  · have := (h.extend (by omega)).2
    rw [List.length_append]
    omega
  · exact fun h' => absurd rfl h'
  -- as it is
  · exact fun h' => absurd h' h0
  · exact h.size
  · have := h.fits
    rw [List.length_append]
    omega
  · exact fun h' => absurd (by omega) h'

/-- `queue_process` only ever takes bytes off the front. -/
theorem drop (h : BufferRoom b) (n : Nat) : BufferRoom { b with data := b.data.drop n } := by
  have hlen : (b.data.drop n).length ≤ b.data.length := by simp
  refine ⟨fun h0 => by simp [h.freed h0], h.size, hlen.trans h.fits, fun he => ?_⟩
  exact ⟨(h.extend he).1, Nat.lt_of_le_of_lt hlen (h.extend he).2⟩

end BufferRoom

/-- After `queue_process` the packet at the front of the buffer fits in the
next read's buffer, unless another `queue_process` is scheduled first. -/
theorem queueProcess_room {q : QueueReceiver} (h : BufferRoom q.buffer) :
    BufferRoom (queueProcess q).buffer ∧
      ((queueProcess q).immediate = true ∨ FrontFits (queueProcess q).buffer) := by
  dsimp only [queueProcess]
  split
  · next hlt => exact ⟨h, .inr fun h4 => absurd h4 (by omega)⟩
  next h4 =>
  have hs : q.buffer.size ≠ 0 := fun h0 => by simp [h.freed h0] at h4
  split
  · next h0 => exact ⟨h, .inr fun _ => h0 ▸ Nat.zero_le _⟩
  split
  · next hshort =>
      split
      · next hbig =>
          -- the next read grows the buffer to the packet's size
          refine ⟨⟨h.freed, h.size, h.fits, fun _ => ⟨hbig, hshort⟩⟩, .inr fun _ => ?_⟩
          have hpos : 0 < leNat (q.buffer.data.take 4) := by
            unfold QUEUE_BUFFER_SIZE at hbig
            omega
          simp [queueReadBuffer, hs, hpos]
      · next hsmall => exact ⟨h, .inr fun _ => (Nat.le_of_not_lt hsmall).trans h.readBuffer_size⟩
  · split
    · exact ⟨h.drop _, .inl rfl⟩
    split
    · refine ⟨⟨fun _ => rfl, fun h0 => absurd rfl h0, Nat.le_refl _, fun he => ?_⟩,
        .inr fun h4 => absurd h4 (by simp)⟩
      exact ⟨(h.extend he).1, Nat.pos_of_ne_zero he⟩
    · next hempty _ =>
        exact ⟨h.drop _, .inr fun h4 => absurd h4 (by dsimp only; omega)⟩

/-- `queue_process` never adds bytes, and schedules another run only when it
takes a packet away. -/
theorem queueProcess_measure (q : QueueReceiver) :
    (queueProcess q).buffer.data.length + (queueProcess q).immediate.toNat ≤
      q.buffer.data.length + q.immediate.toNat := by
  dsimp only [queueProcess]
  split
  · exact Nat.le_refl _
  split
  · exact Nat.le_refl _
  · next h0 =>
      split
      · split <;> exact Nat.le_refl _
      · split
        · simp only [List.length_drop, Bool.toNat_true]
          omega
        split
        · simp
        · simp

/-- A read moves bytes from the socket to the buffer, and `queue_process`
takes none back into the socket. -/
theorem queueIoRead_measure (q : QueueReceiver) (socket : List UInt8) (numReady : Nat) :
    2 * (queueIoRead q socket numReady).2.length + (queueIoRead q socket numReady).1.buffer.data.length +
        (queueIoRead q socket numReady).1.immediate.toNat +
        min (min numReady ((queueReadBuffer q.buffer).size - q.buffer.data.length)) socket.length ≤
      2 * socket.length + q.buffer.data.length + q.immediate.toNat := by
  dsimp only [queueIoRead]
  have := queueProcess_measure { q with buffer := { queueReadBuffer q.buffer with
    data := (queueReadBuffer q.buffer).data ++ socket.take
      (min numReady ((queueReadBuffer q.buffer).size - (queueReadBuffer q.buffer).data.length)) } }
  simp only [queueReadBuffer_data, List.length_append, List.length_take, List.length_drop] at this ⊢
  omega

/-! ## The receiver -/

/-- The receiver has delivered the first `k` packets, and its buffer followed
by `tail` is the rest of them. -/
def ReceiverAt (ps : List (List UInt8)) (q : QueueReceiver) (tail : List UInt8) : Prop :=
  ∃ k, q.delivered = ps.take k ∧ q.buffer.data ++ tail = (ps.drop k).flatten

/-- What holds of the receiver between events, while `tail` is on its way. -/
structure ReceiverInv (ps : List (List UInt8)) (q : QueueReceiver) (tail : List UInt8) : Prop where
  stream : ReceiverAt ps q tail
  ready : QueueReady q.buffer.data → q.immediate = true
  ok : q.failed = false
  room : BufferRoom q.buffer
  front : q.immediate = true ∨ FrontFits q.buffer

/-- With no event pending, a read takes at least one byte. -/
theorem ReceiverInv.read_progress {ps : List (List UInt8)} {q : QueueReceiver} {tail : List UInt8}
    (h : ReceiverInv ps q tail) (himm : q.immediate = false) :
    q.buffer.data.length < (queueReadBuffer q.buffer).size := by
  have hfront : FrontFits q.buffer := h.front.resolve_left (by simp [himm])
  have hnr : ¬ QueueReady q.buffer.data := fun hr => by simp [h.ready hr] at himm
  have hsize := h.room.readBuffer_size
  unfold QueueReady at hnr
  unfold QUEUE_BUFFER_SIZE at hsize
  by_cases h4 : 4 ≤ q.buffer.data.length
  · have := hfront h4
    omega
  · omega

section Receiver

variable {ps : List (List UInt8)} (hps : ∀ p ∈ ps, WellFramed p)
include hps

/-- `queue_process` delivers the next packet if the buffer holds it all, and
schedules another run whenever it leaves a complete packet behind. -/
theorem queueProcess_at {q : QueueReceiver} {tail : List UInt8} (hq : ReceiverAt ps q tail)
    (hf : q.failed = false) :
    ReceiverAt ps (queueProcess q) tail ∧ (queueProcess q).failed = false ∧
      (QueueReady (queueProcess q).buffer.data → (queueProcess q).immediate = true) := by
  obtain ⟨k, hdel, hbytes⟩ := hq
  dsimp only [queueProcess]
  split
  · next hlt => exact ⟨⟨k, hdel, hbytes⟩, hf, fun hr => absurd hr.1 (by omega)⟩
  next h4 =>
  -- the stream goes on with a packet `p`, whose length field the buffer starts with
  cases hdrop : ps.drop k with
  | nil =>
      rw [hdrop, List.flatten_nil, List.append_eq_nil_iff] at hbytes
      rw [hbytes.1] at h4
      exact absurd (by simp) h4
  | cons p rest =>
      have hp : WellFramed p := hps p (List.mem_of_mem_drop (hdrop ▸ List.mem_cons_self))
      rw [hdrop, List.flatten_cons] at hbytes
      have hsize := pktSize_of_front hp hbytes (by omega)
      rw [hsize]
      split
      · next h0 => exact absurd h0 (by have := hp.1; omega)
      split
      · next hshort =>
          -- an incomplete packet: only `extend` may change
          have hnr : ¬ QueueReady q.buffer.data := by
            rw [QueueReady, hsize]
            omega
          have hat : ReceiverAt ps q tail := ⟨k, hdel, by rw [hdrop, List.flatten_cons]; exact hbytes⟩
          split
          · exact ⟨hat, hf, fun hr => absurd hr hnr⟩
          · exact ⟨hat, hf, fun hr => absurd hr hnr⟩
      · next hlong =>
          obtain ⟨htake, hrest⟩ := split_front hbytes (by omega)
          have hdel' : q.delivered ++ [q.buffer.data.take p.length] = ps.take (k + 1) := by
            rw [hdel, htake, take_succ_of_drop hdrop]
          have hnext : (ps.drop (k + 1)).flatten = rest.flatten := by rw [drop_succ_of_drop hdrop]
          split
          · exact ⟨⟨k + 1, hdel', by rw [hnext]; exact hrest⟩, hf, fun _ => rfl⟩
          · next hempty =>
              have hnil : q.buffer.data.drop p.length = [] := List.eq_nil_of_length_eq_zero (by omega)
              rw [hnil, List.nil_append] at hrest
              have hnotready : ¬ QueueReady [] := fun hr => absurd hr.1 (by simp)
              split
              · exact ⟨⟨k + 1, hdel', by rw [hnext, List.nil_append]; exact hrest⟩, hf,
                  fun hr => absurd hr hnotready⟩
              · exact ⟨⟨k + 1, hdel', by rw [hnext, hnil, List.nil_append]; exact hrest⟩, hf,
                  fun hr => absurd (hnil ▸ hr) hnotready⟩

theorem ReceiverInv.process {q : QueueReceiver} {tail : List UInt8} (hq : ReceiverAt ps q tail)
    (hf : q.failed = false) (hr : BufferRoom q.buffer) : ReceiverInv ps (queueProcess q) tail := by
  obtain ⟨hat, hok, hready⟩ := queueProcess_at hps hq hf
  obtain ⟨hroom, hfront⟩ := queueProcess_room hr
  exact ⟨hat, hready, hok, hroom, hfront⟩

/-- `queue_io_read` takes its bytes off the front of what is on its way. -/
theorem ReceiverInv.read {q : QueueReceiver} {socket tail : List UInt8}
    (h : ReceiverInv ps q (socket ++ tail)) (numReady : Nat) :
    ReceiverInv ps (queueIoRead q socket numReady).1 ((queueIoRead q socket numReady).2 ++ tail) := by
  obtain ⟨k, hdel, hbytes⟩ := h.stream
  dsimp only [queueIoRead]
  have hn : (socket.take (min numReady ((queueReadBuffer q.buffer).size - q.buffer.data.length))).length ≤
      (queueReadBuffer q.buffer).size - q.buffer.data.length := by
    simp only [List.length_take]
    omega
  refine ReceiverInv.process hps ⟨k, hdel, ?_⟩ h.ok (queueReadBuffer_data q.buffer ▸ h.room.read hn)
  rw [queueReadBuffer_data, List.append_assoc, ← List.append_assoc (List.take _ socket),
    List.take_append_drop]
  exact hbytes

/-- `queue_process_event`. -/
theorem ReceiverInv.immediate {q : QueueReceiver} {tail : List UInt8} (h : ReceiverInv ps q tail) :
    ReceiverInv ps (queueProcess { q with immediate := false }) tail :=
  ReceiverInv.process hps h.stream h.ok h.room

/-- Once nothing more is on its way and no event is pending, every packet has
been delivered: a packet left in the buffer would be complete, and would have
scheduled one. -/
theorem ReceiverInv.delivered_of_idle {q : QueueReceiver} (h : ReceiverInv ps q [])
    (himm : q.immediate = false) : q.delivered = ps := by
  obtain ⟨k, hdel, hbytes⟩ := h.stream
  rw [List.append_nil] at hbytes
  cases hdrop : ps.drop k with
  | nil =>
      rw [hdel, List.take_of_length_le (List.drop_eq_nil_iff.mp hdrop)]
  | cons p rest =>
      have hp : WellFramed p := hps p (List.mem_of_mem_drop (hdrop ▸ List.mem_cons_self))
      rw [hdrop, List.flatten_cons, ← List.append_nil q.buffer.data] at hbytes
      have hlen : p.length ≤ q.buffer.data.length := by
        have := congrArg List.length hbytes
        simp only [List.length_append, List.length_nil] at this
        omega
      have hready : QueueReady q.buffer.data :=
        ⟨hp.1.trans hlen, by rw [pktSize_of_front hp hbytes (hp.1.trans hlen)]; exact hlen⟩
      simp [h.ready hready] at himm

end Receiver

/-! ## The queue end to end -/

/-- The bytes on their way to the receiver's buffer, in stream order. -/
def inFlight (alignment : UInt64) (s : QueueSystem) : List UInt8 :=
  s.socket ++ (s.outQueue.flatten ++ (s.toSend.map (ctdbQueueAlign alignment)).flatten)

/-- The queue's invariant: the receiver's, with all that is in flight behind
its buffer. -/
def QueueInv (alignment : UInt64) (ps : List (List UInt8)) (s : QueueSystem) : Prop :=
  ReceiverInv ps s.receiver (inFlight alignment s)

section Steps

variable {alignment : UInt64} {s s' : QueueSystem}

/-- `ctdb_queue_send` moves the packet to the socket and the queue, in order,
and leaves the receiver alone. -/
theorem queueStep_send {n : Nat} (h : queueStep alignment s (.send n) = some s') :
    s'.receiver = s.receiver ∧ inFlight alignment s' = inFlight alignment s := by
  simp only [queueStep] at h
  split at h
  · cases h
  next p rest hts =>
  split at h
  · cases h
  split at h
  · next hle hq =>
      cases h
      refine ⟨rfl, ?_⟩
      simp only [inFlight, hts, hq, List.map_cons, List.flatten_cons, List.flatten_nil,
        List.nil_append, List.append_assoc]
      congr 1
      split
      · next heq => rw [List.flatten_nil, List.nil_append, heq, List.take_length]
      · rw [List.flatten_cons, List.flatten_nil, List.append_nil, ← List.append_assoc,
          List.take_append_drop]
  · cases h
    simp [inFlight, hts]

/-- `queue_io_write` moves the front of the queue to the socket. -/
theorem queueStep_write {n : Nat} (h : queueStep alignment s (.write n) = some s') :
    s'.receiver = s.receiver ∧ inFlight alignment s' = inFlight alignment s := by
  simp only [queueStep] at h
  split at h
  · cases h
  next pkt queued hq =>
  split at h
  · cases h
  split at h
  · cases h
    simp [inFlight, hq]
  · cases h
    refine ⟨rfl, ?_⟩
    simp only [inFlight, hq, List.flatten_cons, List.append_assoc]
    rw [← List.append_assoc (List.take n pkt), List.take_append_drop]

theorem queueStep_read {numReady : Nat} (h : queueStep alignment s (.read numReady) = some s') :
    0 < numReady ∧ numReady ≤ s.socket.length ∧
      s' = { s with receiver := (queueIoRead s.receiver s.socket numReady).1,
                    socket := (queueIoRead s.receiver s.socket numReady).2 } := by
  simp only [queueStep] at h
  split at h
  · cases h
  · next hn =>
      cases h
      exact ⟨by omega, by omega, rfl⟩

theorem queueStep_immediate (h : queueStep alignment s .immediate = some s') :
    s.receiver.immediate = true ∧
      s' = { s with receiver := queueProcess { s.receiver with immediate := false } } := by
  simp only [queueStep] at h
  split at h
  · next himm =>
      cases h
      exact ⟨himm, rfl⟩
  · cases h

theorem queueRun_cons (s : QueueSystem) (e : QueueEvent) (events : List QueueEvent) :
    queueRun alignment s (e :: events) =
      (queueStep alignment s e).bind fun s' => queueRun alignment s' events := rfl

theorem queueRun_append (s : QueueSystem) (events more : List QueueEvent) :
    queueRun alignment s (events ++ more) =
      (queueRun alignment s events).bind fun s' => queueRun alignment s' more :=
  List.foldlM_append

end Steps

theorem QueueInv.start (alignment : UInt64) (packets : List (List UInt8)) :
    QueueInv alignment (packets.map (ctdbQueueAlign alignment)) (QueueSystem.start packets) := by
  refine ⟨⟨0, rfl, by simp [inFlight, QueueSystem.start]⟩, fun hr => absurd hr.1 (by simp [QueueSystem.start]),
    rfl, ⟨fun _ => rfl, fun h => absurd rfl h, Nat.le_refl _, fun h => absurd rfl h⟩,
    .inr fun h4 => absurd h4 (by simp [QueueSystem.start])⟩

namespace QueueInv

variable {alignment : UInt64} {ps : List (List UInt8)} (hps : ∀ p ∈ ps, WellFramed p)
include hps

theorem step {s s' : QueueSystem} {e : QueueEvent} (h : QueueInv alignment ps s)
    (hs : queueStep alignment s e = some s') : QueueInv alignment ps s' := by
  cases e with
  | send n =>
      obtain ⟨hr, hf⟩ := queueStep_send hs
      unfold QueueInv
      rw [hr, hf]
      exact h
  | write n =>
      obtain ⟨hr, hf⟩ := queueStep_write hs
      unfold QueueInv
      rw [hr, hf]
      exact h
  | read numReady =>
      obtain ⟨-, -, rfl⟩ := queueStep_read hs
      exact ReceiverInv.read hps h numReady
  | immediate =>
      obtain ⟨-, rfl⟩ := queueStep_immediate hs
      exact ReceiverInv.immediate hps h

theorem run : ∀ (events : List QueueEvent) {s s' : QueueSystem}, QueueInv alignment ps s →
    queueRun alignment s events = some s' → QueueInv alignment ps s'
  | [], _, _, hi, h => by
      cases h
      exact hi
  | e :: events, s, s', hi, h => by
      rw [queueRun_cons] at h
      obtain ⟨s₁, hs₁, h⟩ := Option.bind_eq_some_iff.mp h
      exact run events (hi.step hps hs₁) h

theorem delivered_of_idle {s : QueueSystem} (h : QueueInv alignment ps s) (hts : s.toSend = [])
    (hq : s.outQueue = []) (hsock : s.socket = []) (himm : s.receiver.immediate = false) :
    s.receiver.delivered = ps := by
  have hnil : inFlight alignment s = [] := by simp [inFlight, hts, hq, hsock]
  unfold QueueInv at h
  rw [hnil] at h
  exact h.delivered_of_idle hps himm

end QueueInv

/-! ## Every packet gets through -/

section Drain

variable (alignment : UInt64)

/-- Writing each queued packet whole moves the queue to the socket. -/
theorem queueRun_writeAll (toSend queued : List (List UInt8)) (socket : List UInt8)
    (receiver : QueueReceiver) :
    queueRun alignment ⟨toSend, queued, socket, receiver⟩ (queued.map fun pkt => .write pkt.length) =
      some ⟨toSend, [], socket ++ queued.flatten, receiver⟩ := by
  induction queued generalizing socket with
  | nil => simp only [List.map_nil, List.flatten_nil, List.append_nil]; rfl
  | cons pkt queued ih =>
      have hstep : queueStep alignment ⟨toSend, pkt :: queued, socket, receiver⟩ (.write pkt.length) =
          some ⟨toSend, queued, socket ++ pkt, receiver⟩ := by
        simp [queueStep]
      rw [List.map_cons, queueRun_cons, hstep, Option.bind_some, ih, List.flatten_cons,
        List.append_assoc]

/-- With nothing queued, sending each packet in one write moves it to the socket. -/
theorem queueRun_sendAll (packets : List (List UInt8)) (socket : List UInt8)
    (receiver : QueueReceiver) :
    queueRun alignment ⟨packets, [], socket, receiver⟩
        (packets.map fun p => .send (ctdbQueueAlign alignment p).length) =
      some ⟨[], [], socket ++ (packets.map (ctdbQueueAlign alignment)).flatten, receiver⟩ := by
  induction packets generalizing socket with
  | nil => simp only [List.map_nil, List.flatten_nil, List.append_nil]; rfl
  | cons p packets ih =>
      have hstep : queueStep alignment ⟨p :: packets, [], socket, receiver⟩
          (.send (ctdbQueueAlign alignment p).length) =
          some ⟨packets, [], socket ++ ctdbQueueAlign alignment p, receiver⟩ := by
        simp [queueStep]
      rw [List.map_cons, queueRun_cons, hstep, Option.bind_some, ih, List.map_cons,
        List.flatten_cons, List.append_assoc]

/-- The sender can put everything in flight into the socket. -/
theorem queueRun_flush (s : QueueSystem) :
    ∃ events, queueRun alignment s events = some ⟨[], [], inFlight alignment s, s.receiver⟩ := by
  obtain ⟨toSend, queued, socket, receiver⟩ := s
  refine ⟨queued.map (fun pkt => .write pkt.length) ++
    toSend.map fun p => .send (ctdbQueueAlign alignment p).length, ?_⟩
  rw [queueRun_append, queueRun_writeAll, Option.bind_some, queueRun_sendAll, inFlight,
    List.append_assoc]

/-- The work left to the receiver: each byte of the socket is read and then
taken off the buffer, and a pending event runs. -/
def drainMeasure (s : QueueSystem) : Nat :=
  2 * s.socket.length + s.receiver.buffer.data.length + s.receiver.immediate.toNat

variable {ps : List (List UInt8)} (hps : ∀ p ∈ ps, WellFramed p)
include hps

/-- With the sender done, running the pending event, or else reading all the
socket holds, leads to a state where every packet has been delivered. -/
theorem QueueInv.drain : ∀ (m : Nat) {s : QueueSystem}, drainMeasure s = m →
    QueueInv alignment ps s → s.toSend = [] → s.outQueue = [] →
    ∃ events s', queueRun alignment s events = some s' ∧ s'.receiver.delivered = ps := by
  intro m
  induction m using Nat.strong_induction_on with
  | _ m ih =>
  intro s hm h hts hq
  cases himm : s.receiver.immediate with
  | true =>
      have hstep : queueStep alignment s .immediate =
          some { s with receiver := queueProcess { s.receiver with immediate := false } } := by
        simp [queueStep, himm]
      have hle := queueProcess_measure { s.receiver with immediate := false }
      have hlt : drainMeasure { s with receiver := queueProcess { s.receiver with immediate := false } } < m := by
        simp only [drainMeasure, himm, Bool.toNat_true, Bool.toNat_false] at hm hle ⊢
        omega
      obtain ⟨events, s', hrun, hdel⟩ := ih _ hlt rfl (h.step hps hstep) hts hq
      exact ⟨.immediate :: events, s', by rw [queueRun_cons, hstep]; exact hrun, hdel⟩
  | false =>
      cases hsock : s.socket with
      | nil => exact ⟨[], s, rfl, h.delivered_of_idle hps hts hq hsock himm⟩
      | cons b bs =>
          -- a read of the whole socket takes at least one byte
          have hprog := ReceiverInv.read_progress h himm
          have hstep : queueStep alignment s (.read s.socket.length) =
              some { s with receiver := (queueIoRead s.receiver s.socket s.socket.length).1,
                            socket := (queueIoRead s.receiver s.socket s.socket.length).2 } := by
            simp [queueStep, hsock]
          have hle := queueIoRead_measure s.receiver s.socket s.socket.length
          have hlt : drainMeasure
              { s with receiver := (queueIoRead s.receiver s.socket s.socket.length).1,
                       socket := (queueIoRead s.receiver s.socket s.socket.length).2 } < m := by
            rw [hsock] at hle
            simp only [drainMeasure, himm, hsock, Bool.toNat_false, List.length_cons] at hm hle ⊢
            omega
          obtain ⟨events, s', hrun, hdel⟩ := ih _ hlt rfl (h.step hps hstep) hts hq
          exact ⟨.read _ :: events, s', by rw [queueRun_cons, hstep]; exact hrun, hdel⟩

end Drain

theorem queue_delivers_packets (alignment : UInt64) (packets : List (List UInt8))
    (hframed : ∀ p ∈ packets, WellFramed (ctdbQueueAlign alignment p))
    {events : List QueueEvent} {s : QueueSystem}
    (hrun : queueRun alignment (QueueSystem.start packets) events = some s) :
    s.receiver.failed = false ∧
      (∃ k, s.receiver.delivered = (packets.map (ctdbQueueAlign alignment)).take k) ∧
      (s.toSend = [] → s.outQueue = [] → s.socket = [] → s.receiver.immediate = false →
        s.receiver.delivered = packets.map (ctdbQueueAlign alignment)) ∧
      ∃ more s', queueRun alignment s more = some s' ∧
        s'.receiver.delivered = packets.map (ctdbQueueAlign alignment) := by
  have hps : ∀ p ∈ packets.map (ctdbQueueAlign alignment), WellFramed p := by
    simpa using hframed
  have h := QueueInv.run hps events (QueueInv.start alignment packets) hrun
  obtain ⟨k, hdel, -⟩ := h.stream
  refine ⟨h.ok, ⟨k, hdel⟩, h.delivered_of_idle hps, ?_⟩
  -- the sender flushes everything, then the receiver drains the socket
  obtain ⟨flush, hflush⟩ := queueRun_flush alignment s
  have h' := QueueInv.run hps flush h hflush
  obtain ⟨drain, s', hdrain, hdel'⟩ := QueueInv.drain alignment hps _ rfl h' rfl rfl
  exact ⟨flush ++ drain, s', by rw [queueRun_append, hflush, Option.bind_some]; exact hdrain, hdel'⟩

/-- Two packets, the second padded from 12 bytes to 16. -/
def samplePackets : List (List UInt8) :=
  [[8, 0, 0, 0, 1, 2, 3, 4], [12, 0, 0, 0, 5, 6, 7, 8, 9, 10, 11, 12]]

/-- The first packet is written in two pieces and its length field read in
two; the second is queued behind it and read together with its rest. -/
theorem queue_delivers_packets_two :
    ∃ s, queueRun 8 (QueueSystem.start samplePackets)
        [.send 3, .send 0, .write 5, .read 2, .write 16, .read 22, .immediate] = some s ∧
      (s.receiver.failed = false ∧
        (∃ k, s.receiver.delivered = (samplePackets.map (ctdbQueueAlign 8)).take k) ∧
        (s.toSend = [] → s.outQueue = [] → s.socket = [] → s.receiver.immediate = false →
          s.receiver.delivered = samplePackets.map (ctdbQueueAlign 8)) ∧
        ∃ more s', queueRun 8 s more = some s' ∧
          s'.receiver.delivered = samplePackets.map (ctdbQueueAlign 8)) :=
  ⟨_, rfl, @queue_delivers_packets 8 samplePackets (by decide)
    [.send 3, .send 0, .write 5, .read 2, .write 16, .read 22, .immediate] _ rfl⟩

end Ctdb
