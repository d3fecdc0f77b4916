import Overlay.Failure
import Overlay.Settings

/-!
# Parties of a handshake

A party is a machine that asks for one thing at a time: bytes of the stream, a pause, that
bytes be written or sent off. What it is given decides its next state. A party knows
neither a clock nor a stream, so the same party can be run against a script
(`Handshake/Task`) or against another party.

Every answer brings a party nearer to its end: `remaining` bounds how many it still needs.
-/

namespace Overlay.Handshake

/-- What a party in some state asks for, and its state after the answer. -/
inductive Step (σ ω : Type) where
  /-- Up to `room` bytes; no bytes mean that the stream has ended. -/
  | read (room : Nat) (next : Except Failure (List UInt8) → σ)
  | pause (delay : Nat) (next : σ)
  /-- To write the bytes; the answer says how many of them were taken. -/
  | write (bytes : List UInt8) (next : Except Failure Nat → σ)
  | flush (next : Except Failure Unit → σ)
  | done (outcome : ω)

/-- A machine with states `σ` and outcomes `ω`. -/
structure Party (σ ω : Type) where
  start : σ
  step : σ → Step σ ω
  /-- A bound on the number of answers the party still needs. -/
  remaining : σ → Nat

/-- The progress of a read: bytes are collected until the token is complete or the stream
ends. -/
inductive Collected where
  | incomplete (got : List UInt8)
  | token (received : List UInt8)
  /-- The stream ended before any byte arrived. -/
  | nothing
deriving DecidableEq, Repr

/-- What has been collected after one more read. -/
def collect (got bytes : List UInt8) : Collected :=
  match bytes with
  | [] => if got = [] then .nothing else .token got
  | _ :: _ =>
    if Settings.tokenLength ≤ (got ++ bytes).length then .token (got ++ bytes)
    else .incomplete (got ++ bytes)

/-- The bytes still wanted. -/
def room (got : List UInt8) : Nat := Settings.tokenLength - got.length

/-- The progress of a write. -/
inductive Sent where
  | incomplete (left : List UInt8)
  | complete
  /-- Nothing was taken, which counts as a failure. -/
  | stalled
deriving DecidableEq, Repr

/-- What is left to write after `count` bytes have been taken. -/
def send (left : List UInt8) (count : Nat) : Sent :=
  if left.length ≤ count then .complete
  else if count = 0 then .stalled
  else .incomplete (left.drop count)

end Overlay.Handshake
