import ChunkMachine.Stack

/-!
# Ports

A port is where READ takes its bytes from and where WRITE puts them. It stands either on a buffer,
which holds the input and collects the output, or on a pair of streams, each of which may be
missing. Bytes written to a stream are pending until the port is flushed, which also happens before
every read so that a prompt is seen before its answer is awaited.

A reader fetches its bytes in blocks and hands them out one by one. As long as nothing else changes
what it reads from, it gives the bytes in order; otherwise the bytes that were fetched stay and the
next block is taken from what is there by then.

A read can fail: the machine may be out of memory, or the read is interrupted, by the user or by a
system that does not give the byte. Which reads fail is part of the port. A failing read takes no byte,
and later reads work again. Bytes that are put out always get through.
-/

namespace ChunkMachine

/-- Why a read failed. -/
inductive ReadFault where
  | outOfMemory
  | interrupted
deriving DecidableEq

/-- The reading end of a stream. -/
structure Source where
  /-- The bytes that have not been handed out. -/
  unread : List UInt8
  /-- How many of them have been fetched. -/
  ahead : Nat := 0
  /-- How many bytes have been fetched in all. -/
  fetched : Nat := 0
deriving DecidableEq

namespace Source

/-- The most bytes that are fetched at once. -/
def blockSize : Nat := 4096

/-- Take the next byte; `none` at the end. -/
def read (s : Source) : Option UInt8 × Source :=
  match s.unread with
  | [] => (none, s)
  | b :: rest =>
    if s.ahead = 0 then
      let block := min blockSize s.unread.length
      (some b, ⟨rest, block - 1, s.fetched + block⟩)
    else (some b, ⟨rest, s.ahead - 1, s.fetched⟩)

/-- The source after what it reads from was replaced by other bytes. -/
def revise (contents : List UInt8) (s : Source) : Source :=
  { s with unread := s.unread.take s.ahead ++ contents.drop s.fetched }

end Source

/-- The writing end of a stream. -/
structure Sink where
  /-- The bytes that have been passed on, the latest first. -/
  sent : List UInt8 := []
  /-- The bytes that wait for a flush, the latest first. -/
  pending : List UInt8 := []
deriving DecidableEq

/-- What a port stands on. -/
inductive Endpoint where
  /-- The unread input, and the output so far, the latest byte first. -/
  | buffer (unread written : List UInt8)
  /-- The reader, if there is one, and the writer, if there is one. -/
  | stream (reader : Option Source) (writer : Option Sink)
deriving DecidableEq

/-- A source and a destination of bytes. -/
structure Port where
  endpoint : Endpoint
  /-- The reads that will fail: after so many that work, with this fault, and so on. -/
  faults : List (Nat × ReadFault) := []
deriving DecidableEq

namespace Endpoint

/-- Pass the pending bytes on. -/
def flush : Endpoint → Endpoint
  | .stream reader (some w) => .stream reader (some ⟨w.pending ++ w.sent, []⟩)
  | e => e

/-- Take the next input byte; `none` at the end of the input. -/
def read : Endpoint → Option UInt8 × Endpoint
  | .buffer [] written => (none, .buffer [] written)
  | .buffer (b :: unread) written => (some b, .buffer unread written)
  | .stream none writer => (none, .stream none writer)
  | .stream (some source) writer =>
    let (b, source) := source.read
    (b, (Endpoint.stream (some source) writer).flush)

/-- Put out one byte. -/
def write (b : UInt8) : Endpoint → Endpoint
  | .buffer unread written => .buffer unread (b :: written)
  | .stream reader (some w) => .stream reader (some { w with pending := b :: w.pending })
  | .stream reader none => .stream reader none

/-- Every byte put out so far, flushed or not. -/
def output : Endpoint → List UInt8
  | .buffer _ written => written.reverse
  | .stream _ (some w) => (w.pending ++ w.sent).reverse
  | .stream _ none => []

/-- The input that has not been taken. -/
def unread : Endpoint → List UInt8
  | .buffer unread _ => unread
  | .stream reader _ => (reader.map Source.unread).getD []

/-- The endpoint after what its reader reads from was replaced by other bytes. -/
def revise (contents : List UInt8) : Endpoint → Endpoint
  | .stream (some source) writer => .stream (some (source.revise contents)) writer
  | e => e

end Endpoint

namespace Port

/-- A port on a buffer that holds the given input. -/
def ofBuffer (input : List UInt8) : Port := ⟨.buffer input [], []⟩

/-- A port on streams; the writer, if wanted, starts empty. -/
def ofStreams (reader : Option (List UInt8)) (writes : Bool) : Port :=
  ⟨.stream (reader.map fun bytes => { unread := bytes }) (if writes then some {} else none), []⟩

/-- The same port with one more failing read: after those already planned, `count` reads work and
the next one fails. -/
def failingAfter (count : Nat) (fault : ReadFault) (p : Port) : Port :=
  { p with faults := p.faults ++ [(count, fault)] }

/-- Take the next input byte; `none` at the end of the input. -/
def read (p : Port) : Except ReadFault (Option UInt8) × Port :=
  match p.faults with
  | (0, fault) :: faults => (.error fault, { p with faults })
  | (n + 1, fault) :: faults =>
    let (b, endpoint) := p.endpoint.read
    (.ok b, ⟨endpoint, (n, fault) :: faults⟩)
  | [] =>
    let (b, endpoint) := p.endpoint.read
    (.ok b, ⟨endpoint, []⟩)

/-- Put out the low byte of a word. -/
def write (w : Word) (p : Port) : Port := { p with endpoint := p.endpoint.write w.toUInt8 }

/-- Pass the pending bytes on. -/
def flush (p : Port) : Port := { p with endpoint := p.endpoint.flush }

/-- Every byte put out so far. -/
def output (p : Port) : List UInt8 := p.endpoint.output

/-- The input that has not been taken. -/
def unread (p : Port) : List UInt8 := p.endpoint.unread

/-- The port after what its reader reads from was replaced by other bytes. -/
def revise (contents : List UInt8) (p : Port) : Port :=
  { p with endpoint := p.endpoint.revise contents }

end Port

end ChunkMachine
