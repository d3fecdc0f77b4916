import Overlay.Multiaddr.Printer
import Overlay.Text.Pieces
import Overlay.Text.Uppercase

/-!
# Reading multiaddresses

The text is cut at slashes and must begin with one. Then a protocol name follows, with one
more piece as its value if the protocol has one, until no piece is left. The first problem
from left to right decides the error.
-/

namespace Overlay

namespace Multiaddr

/-- What is wrong with the value of a component. -/
inductive ValueError where
  | ip4
  | ip6
  | numeral (cause : Text.NumeralError)
  | utf8 (fault : Text.Utf8.Fault)
  | base (cause : Bytes.Multibase.Error)
  | multihash (cause : Multihash.Error)
  | peer (cause : PeerId.Error)
deriving DecidableEq, Repr

/-- The wording of a value error. -/
def ValueError.message : ValueError → String
  | .ip4 => "invalid IPv4 address syntax"
  | .ip6 => "invalid IPv6 address syntax"
  | .numeral cause => cause.message
  | .utf8 fault => fault.message
  | .base cause => cause.message
  | .multihash cause => cause.message
  | .peer cause => cause.message

/-- Why a text is no multiaddress. -/
inductive ParseError where
  /-- No slash at the start, or an onion address out of shape. -/
  | invalidAddress
  /-- A value is missing, or a garlic address has a wrong length. -/
  | invalidValue
  | unknownProtocol (name : String)
  | malformed (cause : ValueError)
deriving DecidableEq, Repr

/-- The wording of an error. -/
def ParseError.message : ParseError → String
  | .invalidAddress => "invalid multiaddr"
  | .invalidValue => "invalid protocol string"
  | .unknownProtocol name => "unknown protocol string: " ++ name
  | .malformed cause => "failed to parse: " ++ cause.message

/-- Reads the value of a component. -/
abbrev ValueReader := List Char → Except ParseError Component

/-- Reads a value that a partial reader accepts, with one error for all other texts. -/
def orElse {α : Type} (error : ValueError) (value : Option α) : Except ParseError α :=
  match value with
  | some a => .ok a
  | none => .error (.malformed error)

/-- Reads a numeral below a bound. -/
def readNumeral (bound : Nat) (text : List Char) : Except ParseError Nat :=
  (Text.readBelow bound text).mapError fun e ↦ .malformed (.numeral e)

/-- Reads a text whose bytes are in the given base. -/
def readBase (base : List Char → Option (List UInt8)) (text : List Char) :
    Except ParseError (List UInt8) :=
  orElse (.base .invalidText) (base text)

/-- Reads a port. -/
def readPort (text : List Char) : Except ParseError UInt16 :=
  (readNumeral UInt16.size text).map UInt16.ofNat

/-- Reads the path of a WebSocket, written as a segment. -/
def readPath (secure : Bool) : ValueReader := fun text ↦
  match Text.Utf8.decode (Text.Percent.decode (Text.Utf8.encode text)) with
  | .error fault => .error (.malformed (.utf8 fault))
  | .ok path => .ok (.websocket secure (String.ofList path))

/-- Reads an onion address of `size` bytes in `length` symbols, and its port, which is not
zero. Letters of either case are read alike. Blocks of symbols may end in padding, and the
bytes that are then missing at the end are zero. -/
def readOnion (length size : Nat) (build : List UInt8 → UInt16 → Component) : ValueReader :=
  fun text ↦
    match Text.pieces ':' (Text.upper text) with
    | [] => .error .invalidAddress
    | host :: more =>
      if (Text.Utf8.encode host).length ≠ length then .error .invalidAddress
      else match more with
        | [] => .error .invalidAddress
        | number :: more => do
          let port ← readPort number
          if port = 0 ∨ more ≠ [] then throw .invalidAddress
          match (Bytes.BitBase.base32.padded 8).decode? host with
          | none => throw .invalidAddress
          | some bytes =>
            return build (bytes ++ List.replicate (size - bytes.length) 0) port

/-- The base 64 symbol that a symbol of a garlic address stands for. -/
def base64Symbol : Char → Char
  | '-' => '+'
  | '~' => '/'
  | c => c

/-- Reads a garlic address in base 64. -/
def readGarlic64 : ValueReader := fun text ↦
  let length := (Text.Utf8.encode text).length
  if length < 516 ∨ 616 < length then .error .invalidValue
  else (readBase Bytes.BitBase.base64.decode? (text.map base64Symbol)).map .garlic64

/-- Reads a garlic address in base 32. -/
def readGarlic32 : ValueReader := fun text ↦
  let length := (Text.Utf8.encode text).length
  if length < 55 ∧ length ≠ 52 then .error .invalidValue
  else (readBase Bytes.BitBase.base32.decode? text).map .garlic32

/-- Reads the hash of a certificate. -/
def readCerthash : ValueReader := fun text ↦
  match Bytes.Multibase.decode text with
  | .error cause => .error (.malformed (.base cause))
  | .ok bytes =>
    match Multihash.ofBytes bytes with
    | .error cause => .error (.malformed (.multihash cause))
    | .ok hash => .ok (.certhash hash)

/-- Reads a peer id. -/
def readPeer : ValueReader := fun text ↦
  match PeerId.parseChars text with
  | .error cause => .error (.malformed (.peer cause))
  | .ok id => .ok (.peer id)

/-- What follows a protocol's name. -/
inductive Form where
  /-- Nothing: the component is complete. -/
  | bare (component : Component)
  /-- A value. -/
  | valued (read : ValueReader)

/-- The form of protocols whose value is a port. -/
def portForm (protocol : PortProtocol) : Form :=
  .valued fun text ↦ (readPort text).map (.port protocol)

/-- The form of protocols whose value is any text. -/
def nameForm (protocol : NameProtocol) : Form :=
  .valued fun text ↦ .ok (.name protocol (String.ofList text))

/-- The form of the protocol with the given name. -/
def form? (name : String) : Option Form :=
  match name with
  | "ip4" => some (.valued fun text ↦ (orElse .ip4 (Ip4.parse? text)).map .ip4)
  | "ip6" => some (.valued fun text ↦ (orElse .ip6 (Ip6.parse? text)).map .ip6)
  | "tcp" => some (portForm .tcp)
  | "udp" => some (portForm .udp)
  | "dccp" => some (portForm .dccp)
  | "sctp" => some (portForm .sctp)
  | "ipcidr" =>
    some (.valued fun text ↦ (readNumeral UInt8.size text).map fun n ↦ .ipcidr (UInt8.ofNat n))
  | "memory" =>
    some (.valued fun text ↦ (readNumeral UInt64.size text).map fun n ↦ .memory (UInt64.ofNat n))
  | "dns" => some (nameForm .dns)
  | "dns4" => some (nameForm .dns4)
  | "dns6" => some (nameForm .dns6)
  | "dnsaddr" => some (nameForm .dnsaddr)
  | "unix" => some (nameForm .unix)
  | "ip6zone" => some (nameForm .ip6zone)
  | "sni" => some (nameForm .sni)
  | "ws" => some (.bare (.websocket false "/"))
  | "wss" => some (.bare (.websocket true "/"))
  | "x-parity-ws" => some (.valued (readPath false))
  | "x-parity-wss" => some (.valued (readPath true))
  | "p2p-circuit" => some (.bare .circuit)
  | "p2p" => some (.valued readPeer)
  | "ipfs" => some (.valued readPeer)
  | "certhash" => some (.valued readCerthash)
  | "onion" => some (.valued (readOnion 16 10 .onion))
  | "onion3" => some (.valued (readOnion 56 35 .onion3))
  | "garlic64" => some (.valued readGarlic64)
  | "garlic32" => some (.valued readGarlic32)
  | name => (Marker.all.find? (·.text == name)).map fun m ↦ .bare (.marker m)

/-- Reads components from the pieces behind the leading slash. -/
def readPieces : List (List Char) → Except ParseError Multiaddr
  | [] => .ok []
  | name :: rest =>
    match form? (String.ofList name) with
    | none => .error (.unknownProtocol (String.ofList name))
    | some (.bare component) => (readPieces rest).map (component :: ·)
    | some (.valued read) =>
      match rest with
      | [] => .error .invalidValue
      | value :: rest =>
        match read value with
        | .error e => .error e
        | .ok component => (readPieces rest).map (component :: ·)

/-- Reads the characters of a multiaddress. -/
def parseChars (text : List Char) : Except ParseError Multiaddr :=
  match Text.pieces '/' text with
  | [] :: rest => readPieces rest
  | _ => .error .invalidAddress

/-- Reads the text of a multiaddress. -/
def parse (text : String) : Except ParseError Multiaddr := parseChars text.toList

end Multiaddr

end Overlay
