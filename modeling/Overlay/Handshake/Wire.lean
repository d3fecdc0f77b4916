import Overlay.Clock
import Overlay.Failure

/-!
# Scripted streams

A wire is one end of a stream whose behaviour is laid down: what each read finds and what
becomes of each write. Behind the end of the script reads find the end of the stream, and
writes take everything.
-/

namespace Overlay.Handshake

/-- What a read finds. -/
inductive Reading where
  /-- Bytes; those for which there is no room stay for the next read. -/
  | data (bytes : List UInt8)
  | eof
  | fail (kind : Failure)
  /-- A delay before the next item. -/
  | wait (delay : Nat)
  /-- Nothing, forever. -/
  | pending
deriving DecidableEq, Repr

/-- What becomes of a write. -/
inductive Writing where
  /-- At most `count` bytes are taken. -/
  | accept (count : Nat)
  | fail (kind : Failure)
  /-- A delay before the next item. -/
  | wait (delay : Nat)
  /-- Nothing is taken, forever. -/
  | pending
deriving DecidableEq, Repr

/-- A stream that behaves as laid down. -/
structure Wire where
  reads : List Reading
  writes : List Writing
  /-- What becomes of sending off what was written. -/
  flush : Delayed (Except Failure Unit)
deriving DecidableEq

namespace Wire

/-- The wire that finds the given readings and takes everything. -/
def ofReads (reads : List Reading) : Wire := ⟨reads, [], .after 0 (.ok ())⟩

/-- What a read with room for `room` bytes finds, and the readings left. -/
def readFrom (room : Nat) :
    List Reading → Delayed (Except Failure (List UInt8) × List Reading)
  | [] => .after 0 (.ok [], [])
  | .data bytes :: rest =>
    if bytes.length ≤ room then .after 0 (.ok bytes, rest)
    else .after 0 (.ok (bytes.take room), .data (bytes.drop room) :: rest)
  | .eof :: rest => .after 0 (.ok [], rest)
  | .fail kind :: rest => .after 0 (.error kind, rest)
  | .wait delay :: rest => (readFrom room rest).later delay
  | .pending :: _ => .never

/-- How many of `offered` bytes a write takes, and the writings left. -/
def writeTo (offered : Nat) : List Writing → Delayed (Except Failure Nat × List Writing)
  | [] => .after 0 (.ok offered, [])
  | .accept count :: rest => .after 0 (.ok (min count offered), rest)
  | .fail kind :: rest => .after 0 (.error kind, rest)
  | .wait delay :: rest => (writeTo offered rest).later delay
  | .pending :: _ => .never

end Wire

end Overlay.Handshake
