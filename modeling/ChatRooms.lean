import ChatRooms.Main
import ChatRooms.Proofs.Directory.Operation
import ChatRooms.Proofs.Exchange.Modes
import ChatRooms.Proofs.Exchange.Tracking
import ChatRooms.Rehearsal
import ChatRooms.Proofs.Intake.Tour
import ChatRooms.Proofs.Intake.Watch
import ChatRooms.Proofs.Exchange.Floor
import ChatRooms.Proofs.Exchange.Soundness
import ChatRooms.Proofs.Intake.Passage
import ChatRooms.Proofs.Exchange.Passage
import ChatRooms.Proofs.Exchange.Turns
import ChatRooms.Proofs.Hub.Due
import ChatRooms.Proofs.Exchange.Serving
import ChatRooms.Proofs.Hub.Authors
import ChatRooms.Proofs.Exchange.Provenance
import ChatRooms.Proofs.Directory.RoomLimit
import ChatRooms.Proofs.Directory.Removal
import ChatRooms.Proofs.Directory.Return
import ChatRooms.Proofs.Hub.Return
import ChatRooms.Proofs.Hub.GuestNumbers
import ChatRooms.Proofs.Exchange.InPlace
import ChatRooms.Proofs.Exchange.Offers
import ChatRooms.Proofs.Exchange.Secrecy
import ChatRooms.Proofs.Hub.Lifetimes
import ChatRooms.Proofs.Exchange.Closing
import ChatRooms.Proofs.Exchange.Reclaim
import ChatRooms.Proofs.Request.Grammar
import ChatRooms.Proofs.Exchange.Handshake
import ChatRooms.Proofs.Exchange.Agreement
import ChatRooms.Proofs.Service.Reactions
import ChatRooms.Proofs.Notice.Reading
import ChatRooms.Proofs.Exchange.Wording
import ChatRooms.Proofs.Service.Breakdown
import ChatRooms.Proofs.Intake.Endings
import ChatRooms.Proofs.Intake.Clearance
import ChatRooms.Proofs.Directory.Registration
import ChatRooms.Proofs.Service.Reading
import ChatRooms.Proofs.Settings.Documents
