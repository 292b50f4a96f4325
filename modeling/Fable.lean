import Fable.Main
import Fable.Proofs.Arrivals
import Fable.Proofs.Installation
import Fable.Proofs.Load
import Fable.Proofs.Whereabouts
import Fable.Proofs.Refusal
import Fable.Proofs.Offers
import Fable.Proofs.Verbal
import Fable.Proofs.Plain
import Fable.Proofs.Sessions
import Fable.Proofs.Splitting
import Fable.Proofs.Scenes
import Fable.Proofs.Endings
import Fable.Proofs.Finales
import Fable.Proofs.Accounts
import Fable.Proofs.Scoring
import Fable.Proofs.Marks
import Fable.Proofs.Inspection
import Fable.Proofs.Exports
import Fable.Proofs.Documents
import Fable.Proofs.RoundTrip
import Fable.Proofs.Speech
import Fable.Proofs.Transcripts
import Fable.Proofs.Frame
import Fable.Proofs.Scripted
import Fable.Proofs.Strictness
import Fable.Proofs.Seeds
import Fable.Proofs.Rooms
import Fable.Proofs.Fates
import Fable.Proofs.Weighing
import Fable.Proofs.Streams
import Fable.Proofs.Readings
import Fable.Proofs.Entrances
import Fable.Proofs.Unseen
import Fable.Proofs.Grammar
import Fable.Proofs.Vocabulary
import Fable.Proofs.Moves
import Fable.Proofs.Choices
import Fable.Proofs.Equality
import Fable.Proofs.Cursors
import Fable.Proofs.Ancestry
