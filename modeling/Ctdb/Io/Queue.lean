import Ctdb.Lib.Bytes

/-!
# Packet queues over a socket (`common/ctdb_io.c`)

A `ctdb_queue` carries packets over a non-blocking stream socket. Every
packet begins with a `uint32_t` length field holding its size.

The sending side, `ctdb_queue_send`, rounds a packet up to the queue's
alignment, padding with zeros and rewriting the length field, then writes
what it can at once when nothing is queued ahead of it, and queues the rest;
`queue_io_write` later writes from the front of the queue whenever the socket
is writable, any write taking any number of bytes (a torture build writes one
at a time), or none when it would block.

The receiving side reads whatever the socket says is ready, as much as fits
in its buffer (`queue_io_read`), and then takes at most one complete packet
off the front of the buffer (`queue_process`), passing it to the queue's
callback. When bytes remain after that packet it schedules an immediate event
that runs `queue_process` again. The buffer is 16 KiB; a packet longer than
that makes `queue_process` ask for a larger buffer (`extend`), which the next
read allocates, and an emptied oversized buffer is freed.

The socket is the bytes written and not yet read. A run interleaves the
application's sends, the writes, the reads and the immediate events in any
order. Failures of allocation and of the socket itself are not modelled.
-/

namespace Ctdb

open Lib

def QUEUE_BUFFER_SIZE : Nat := 16 * 1024

/-- `struct ctdb_buffer`: the bytes held, and the allocated size, 0 when
`data` is `NULL`. -/
structure QueueBuffer where
  data : List UInt8
  size : Nat
  extend : Nat
  deriving DecidableEq, Repr

/-- The receiving half of a `ctdb_queue`: its buffer, whether `queue->im` is
scheduled, and what the callback has been given. -/
structure QueueReceiver where
  buffer : QueueBuffer
  immediate : Bool
  /-- The packets passed to `queue->callback`, in order. -/
  delivered : List (List UInt8)
  /-- `queue->callback(NULL, 0, ...)` was called. -/
  failed : Bool
  deriving DecidableEq, Repr

/-- `queue_process`: take one complete packet off the front of the buffer. -/
def queueProcess (q : QueueReceiver) : QueueReceiver :=
  let b := q.buffer
  if b.data.length < 4 then q
  else
    let pktSize := leNat (b.data.take 4)
    -- "Invalid packet of length 0"
    if pktSize = 0 then { q with failed := true }
    else if b.data.length < pktSize then
      if pktSize > QUEUE_BUFFER_SIZE then { q with buffer := { b with extend := pktSize } } else q
    else
      let rest := b.data.drop pktSize
      let delivered := q.delivered ++ [b.data.take pktSize]
      -- "There is more data to be processed, schedule an event"
      if rest.length > 0 then { q with buffer := { b with data := rest }, immediate := true, delivered }
      else if b.size > QUEUE_BUFFER_SIZE then
        { q with buffer := { b with data := [], size := 0 }, delivered }
      else { q with buffer := { b with data := rest }, delivered }

/-- The buffer `queue_io_read` reads into: allocated if it is `NULL`, or
grown to the size `queue_process` asked for. -/
def queueReadBuffer (b : QueueBuffer) : QueueBuffer :=
  -- "starting fresh, allocate buf to read data"
  if b.size = 0 then { b with size := QUEUE_BUFFER_SIZE }
  -- "extending buffer"
  else if b.extend > 0 then { b with size := b.extend, extend := 0 }
  else b

/-- `queue_io_read` when the socket holds `socket` and `FIONREAD` reports
`numReady` bytes: the receiver afterwards and the bytes left in the socket. -/
def queueIoRead (q : QueueReceiver) (socket : List UInt8) (numReady : Nat) :
    QueueReceiver × List UInt8 :=
  let b := queueReadBuffer q.buffer
  let n := min numReady (b.size - b.data.length)
  (queueProcess { q with buffer := { b with data := b.data ++ socket.take n } }, socket.drop n)

/-- `ctdb_queue_send`'s alignment: the length rounded up with `size_t`
arithmetic, kept in a `uint32_t`, written into the length field, and the
packet padded with zeros to it. -/
def ctdbQueueAlign (alignment : UInt64) (data : List UInt8) : List UInt8 :=
  if alignment ≠ 0 then
    let length := data.length
    let length2 :=
      ((UInt64.ofNat length + (alignment - 1)) &&& ~~~(alignment - 1)).toUInt32.toNat
    writeLE (data ++ List.replicate (length2 - length) 0) 0 4 length2
  else data

/-- A queue end to end: the application's packets not yet given to
`ctdb_queue_send`, the unwritten rest of each queued packet, the bytes in
the socket, and the receiver. -/
structure QueueSystem where
  toSend : List (List UInt8)
  outQueue : List (List UInt8)
  socket : List UInt8
  receiver : QueueReceiver

/-- A connection whose packets `packets` are still to be sent. -/
def QueueSystem.start (packets : List (List UInt8)) : QueueSystem :=
  ⟨packets, [], [], ⟨⟨[], 0, 0⟩, false, [], false⟩⟩

/-- What can happen next. -/
inductive QueueEvent
  /-- `ctdb_queue_send` of the next packet, whose immediate write, if it
  makes one, takes `n` bytes. -/
  | send (n : Nat)
  /-- One `write` of `queue_io_write`, taking `n` bytes of the front packet. -/
  | write (n : Nat)
  /-- `queue_io_read`, with `FIONREAD` reporting `numReady` bytes. -/
  | read (numReady : Nat)
  /-- `queue_process_event`. -/
  | immediate
  deriving DecidableEq, Repr

/-- One event, or `none` when it cannot happen. -/
def queueStep (alignment : UInt64) (s : QueueSystem) : QueueEvent → Option QueueSystem
  | .send n =>
      match s.toSend with
      | [] => none
      | p :: rest =>
          let pkt := ctdbQueueAlign alignment p
          if n > pkt.length then none
          -- "if the queue is empty then try an immediate write"
          else if s.outQueue = [] then
            let queued := if n = pkt.length then [] else [pkt.drop n]
            some { s with toSend := rest, outQueue := queued, socket := s.socket ++ pkt.take n }
          else some { s with toSend := rest, outQueue := s.outQueue ++ [pkt] }
  | .write n =>
      match s.outQueue with
      | [] => none
      | pkt :: queued =>
          if n > pkt.length then none
          else if n = pkt.length then
            some { s with outQueue := queued, socket := s.socket ++ pkt }
          else
            some { s with outQueue := pkt.drop n :: queued, socket := s.socket ++ pkt.take n }
  | .read numReady =>
      -- `FIONREAD` reports 0 only for a closed socket
      if numReady = 0 ∨ numReady > s.socket.length then none
      else
        let r := queueIoRead s.receiver s.socket numReady
        some { s with receiver := r.1, socket := r.2 }
  | .immediate =>
      if s.receiver.immediate then
        some { s with receiver := queueProcess { s.receiver with immediate := false } }
      else none

/-- The system after the events, or `none` if one cannot happen. -/
def queueRun (alignment : UInt64) (s : QueueSystem) (events : List QueueEvent) :
    Option QueueSystem :=
  events.foldlM (queueStep alignment) s

end Ctdb
