import Overlay.Connect.Plan
import Overlay.Files.Tree
import Overlay.Handshake.Server
import Overlay.Main
import Overlay.Proofs.AddressBook.History
import Overlay.Proofs.AddressBook.Mentions
import Overlay.Proofs.AddressBook.Routing
import Overlay.Proofs.Circuit.Advertising
import Overlay.Proofs.Connect.Attendance
import Overlay.Proofs.Connect.Counting
import Overlay.Proofs.Contact.Partition
import Overlay.Proofs.Contact.Texts
import Overlay.Proofs.Handshake.Agreement
import Overlay.Proofs.Handshake.Closing
import Overlay.Proofs.Handshake.Discipline
import Overlay.Proofs.Handshake.Fragments
import Overlay.Proofs.Handshake.Outcome
import Overlay.Proofs.Handshake.Scripts
import Overlay.Proofs.Handshake.Serving
import Overlay.Proofs.Host.Reached
import Overlay.Proofs.Host.Dialing
import Overlay.Proofs.Host.Remembering
import Overlay.Proofs.Host.Places
import Overlay.Proofs.Host.Waiting
import Overlay.Proofs.Host.Requests
import Overlay.Proofs.Host.Accounting
import Overlay.Proofs.Host.Addresses
import Overlay.Proofs.Host.Reserving
import Overlay.Proofs.Host.Advertising
import Overlay.Proofs.Host.Settling
import Overlay.Proofs.Keyring.Loading
import Overlay.Proofs.Keyring.RoundTrip
import Overlay.Proofs.Node.Client
import Overlay.Proofs.Node.StartUp
