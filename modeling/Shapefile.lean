import Shapefile.Fault.Detail
import Shapefile.Path
import Shapefile.Reading.Desk
import Shapefile.Record.Stored
import Shapefile.Session.Iterator
import Shapefile.Shape.Collection
import Shapefile.Source.Scripted
import Shapefile.Proofs.Fields
import Shapefile.Proofs.Framing
import Shapefile.Proofs.PlainReading
import Shapefile.Proofs.Acceptance
import Shapefile.Proofs.RoundTrip
import Shapefile.Proofs.History
import Shapefile.Proofs.ReadOnce
import Shapefile.Proofs.Chronicle
import Shapefile.Proofs.ClientSteps
import Shapefile.Proofs.PhaseCourse
import Shapefile.Proofs.Refusal
import Shapefile.Proofs.Overrun
import Shapefile.Proofs.Files
import Shapefile.Proofs.Stages
import Shapefile.Proofs.SessionClient
import Shapefile.Proofs.LastError
import Shapefile.Proofs.Completion
import Shapefile.Proofs.Asking
import Shapefile.Proofs.Iteration
import Shapefile.Proofs.ParseIteration
import Shapefile.Proofs.Custody
import Shapefile.Proofs.Consistency
import Shapefile.Proofs.Halves
import Shapefile.Proofs.OpenFiles
import Shapefile.Proofs.SideBySide
import Shapefile.Proofs.Forgetting
import Shapefile.Proofs.Entries
import Shapefile.Proofs.Influence
import Shapefile.Proofs.Stopping
import Shapefile.Proofs.Accounting
import Shapefile.Proofs.ShortFiles
import Shapefile.Proofs.Interruption
import Shapefile.Proofs.HeaderLayout
import Shapefile.Proofs.Termination
import Shapefile.Proofs.Exchanges
import Shapefile.Proofs.Bookkeeping
import Shapefile.Proofs.FailStop
import Shapefile.Proofs.Extension
import Shapefile.Proofs.GeoJson
import Shapefile.Proofs.Decoding
import Shapefile.Proofs.LengthWarnings
