import Overlay.Clock
import Overlay.Handshake.Party
import Overlay.Text.Numeral

/-!
# The initiator

The initiator writes the request and reads one token. Only the reply will do.
-/

namespace Overlay.Handshake

/-- Why a handshake failed for its initiator. -/
inductive HandshakeError where
  | io (error : SystemError)
  | unexpectedReply (received : List UInt8)
  | cancelled
deriving DecidableEq, Repr

/-- A list of bytes in decimal. -/
def bytesText (bytes : List UInt8) : String :=
  "[" ++ ", ".intercalate (bytes.map fun b ↦ Text.decimal b.toNat) ++ "]"

/-- The wording of an error. -/
def HandshakeError.message : HandshakeError → String
  | .io error => "Handshake IO error: " ++ error.text
  | .unexpectedReply received => "Unexpected reply: " ++ bytesText received
  | .cancelled => "Handshake cancelled"

namespace Initiator

/-- What a handshake comes to. -/
abbrev Verdict := Except HandshakeError Unit

/-- The states of an initiator. -/
inductive State where
  | requesting (left : List UInt8)
  | flushing
  | awaiting (got : List UInt8)
  | finished (verdict : Verdict)
deriving DecidableEq

/-- The state after a failure of the stream. -/
def fail (kind : Failure) : State := .finished (.error (.io (.ofKind kind)))

/-- The state after a token has been read. -/
def judge (received : List UInt8) : State :=
  if received = Settings.handshakeReply then .finished (.ok ())
  else .finished (.error (.unexpectedReply received))

/-- What an initiator asks for. -/
def step : State → Step State Verdict
  | .requesting left => .write left fun
    | .error kind => fail kind
    | .ok count =>
      match send left count with
      | .incomplete left => .requesting left
      | .complete => .flushing
      | .stalled => fail .writeZero
  | .flushing => .flush fun
    | .error kind => fail kind
    | .ok () => .awaiting []
  | .awaiting got => .read (room got) fun
    | .error kind => fail kind
    | .ok bytes =>
      match collect got bytes with
      | .incomplete got => .awaiting got
      | .token received => judge received
      | .nothing => judge []
  | .finished verdict => .done verdict

/-- A bound on the number of answers an initiator still needs. -/
def remaining : State → Nat
  | .requesting left => left.length + 7
  | .flushing => 7
  | .awaiting got => room got + 1
  | .finished _ => 0

/-- The initiator. -/
def party : Party State Verdict := ⟨.requesting Settings.handshakeRequest, step, remaining⟩

end Initiator

end Overlay.Handshake
