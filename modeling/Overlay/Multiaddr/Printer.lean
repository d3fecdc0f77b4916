import Overlay.Bytes.Multibase
import Overlay.Multiaddr.Basic
import Overlay.Text.Percent
import Overlay.Text.Utf8

/-!
# Printing multiaddresses

Every component prints as a slash and its protocol's name, followed by a slash and its
value if the protocol has one. The empty address prints as the empty text.
-/

namespace Overlay

/-- The name of a protocol whose value is a port. -/
def PortProtocol.text : PortProtocol → String
  | .tcp => "tcp"
  | .udp => "udp"
  | .dccp => "dccp"
  | .sctp => "sctp"

/-- The name of a protocol whose value is any text. -/
def NameProtocol.text : NameProtocol → String
  | .dns => "dns"
  | .dns4 => "dns4"
  | .dns6 => "dns6"
  | .dnsaddr => "dnsaddr"
  | .unix => "unix"
  | .ip6zone => "ip6zone"
  | .sni => "sni"

/-- The name of a protocol without a value. -/
def Marker.text : Marker → String
  | .tls => "tls"
  | .noise => "noise"
  | .udt => "udt"
  | .utp => "utp"
  | .http => "http"
  | .https => "https"
  | .quic => "quic"
  | .quicV1 => "quic-v1"
  | .webtransport => "webtransport"
  | .websocketStar => "p2p-websocket-star"
  | .webrtcStar => "p2p-webrtc-star"
  | .oldWebrtcDirect => "p2p-webrtc-direct"
  | .webrtcDirect => "webrtc-direct"
  | .webrtc => "webrtc"
  | .stardust => "p2p-stardust"

/-- Every marker. -/
def Marker.all : List Marker :=
  [.tls, .noise, .udt, .utp, .http, .https, .quic, .quicV1, .webtransport, .websocketStar,
    .webrtcStar, .oldWebrtcDirect, .webrtcDirect, .webrtc, .stardust]

namespace Component

/-- The text of a WebSocket: at the root path the short name, else the path as a segment. -/
def websocketText (secure : Bool) (path : String) : String :=
  let short := if secure then "wss" else "ws"
  if path = "/" then "/" ++ short
  else "/x-parity-" ++ short ++ "/" ++
    String.ofList (Text.Percent.encode (Text.Utf8.encode path.toList))

/-- The text of an onion address. -/
def onionText (host : List UInt8) (number : UInt16) : String :=
  String.ofList (Bytes.BitBase.base32.encode host) ++ ":" ++ Text.decimal number.toNat

/-- Base 64 text with the two symbols that stand for themselves in an address. -/
def garlicSymbol : Char → Char
  | '+' => '-'
  | '/' => '~'
  | c => c

/-- The text of a component. -/
def render : Component → String
  | .ip4 ip => "/ip4/" ++ ip.render
  | .ip6 ip => "/ip6/" ++ ip.render
  | .port protocol number => "/" ++ protocol.text ++ "/" ++ Text.decimal number.toNat
  | .ipcidr bits => "/ipcidr/" ++ Text.decimal bits.toNat
  | .memory number => "/memory/" ++ Text.decimal number.toNat
  | .name protocol text => "/" ++ protocol.text ++ "/" ++ text
  | .websocket secure path => websocketText secure path
  | .marker m => "/" ++ m.text
  | .circuit => "/p2p-circuit"
  | .peer id => "/p2p/" ++ id.render
  | .certhash hash => "/certhash/" ++ String.ofList (Bytes.Multibase.encodeUrl hash.toBytes)
  | .onion host number => "/onion/" ++ onionText host number
  | .onion3 host number => "/onion3/" ++ onionText host number
  | .garlic64 bytes =>
    "/garlic64/" ++ String.ofList ((Bytes.BitBase.base64.encode bytes).map garlicSymbol)
  | .garlic32 bytes => "/garlic32/" ++ String.ofList (Bytes.BitBase.base32.encode bytes)

end Component

/-- The text of a multiaddress. -/
def Multiaddr.render (addr : Multiaddr) : String := String.join (addr.map Component.render)

end Overlay
