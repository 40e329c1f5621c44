import Backmap.Batch
import Backmap.Command.Console
import Backmap.Diagnostic.Checker
import Backmap.Main
import Backmap.Proofs.Batch.Balance
import Backmap.Proofs.Batch.Locality
import Backmap.Proofs.LineNumbers
import Backmap.Workspace
import Backmap.Proofs.Batch.Readers
import Backmap.Proofs.Batch.Outputs
import Backmap.Proofs.Record.Grammar
import Backmap.Proofs.Record.RoundTrip
import Backmap.Proofs.Anchor.History
import Backmap.Proofs.CacheFolder
import Backmap.Proofs.Numeral
import Backmap.Proofs.Json.RoundTrip
import Backmap.Proofs.Report.JsonLines
import Backmap.Proofs.Overlay.Loaders
import Backmap.Proofs.Report.Sarif
import Backmap.Proofs.Report.PlainLines
import Backmap.Proofs.Command.Stages
import Backmap.Proofs.Command.ExitCodes
import Backmap.Proofs.Command.OutputFile
import Backmap.Proofs.Anchor.Snapping
import Backmap.Proofs.Marker.Numbering
import Backmap.Proofs.Marker.Grammar
import Backmap.Proofs.Directive.Hollow
import Backmap.Proofs.Directive.RoundTrip
import Backmap.Proofs.Anchor.Comments
import Backmap.Proofs.Path.Normal
import Backmap.Proofs.Substitution
import Backmap.Proofs.Batch.Containment
import Backmap.Proofs.Diagnostic.Checker
import Backmap.Proofs.Path.Joining
import Backmap.Proofs.Report.SourceLines
