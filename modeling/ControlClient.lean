import ControlClient.CommandLine.Write
import ControlClient.Main
import ControlClient.Proofs.Text.Split
import ControlClient.Proofs.Text.Utf8
import ControlClient.Proofs.Url.Address
import ControlClient.Proofs.Url.Host
import ControlClient.Proofs.Url.Reread
import ControlClient.Proofs.Base
import ControlClient.Proofs.Request.Destination
import ControlClient.Proofs.Request.Distinct
import ControlClient.Proofs.Request.Pairs
import ControlClient.Proofs.Session.Attempts
import ControlClient.Proofs.Session.PlanPrefix
import ControlClient.Proofs.Session.Course
import ControlClient.Proofs.Session.Refusal
import ControlClient.Proofs.Json.Steps
import ControlClient.Proofs.Json.Strings
import ControlClient.Proofs.Json.Documents
import ControlClient.Proofs.Envelope
import ControlClient.Proofs.Failure
import ControlClient.Proofs.Session.ServerError
import ControlClient.Proofs.Span.Decimal
import ControlClient.Proofs.Span.RoundTrip
import ControlClient.Proofs.Url.Form
import ControlClient.Proofs.Session.Composition
import ControlClient.Proofs.Session.Requests
import ControlClient.Proofs.CommandLine.CommandWord
import ControlClient.Proofs.CommandLine.RoundTrip
import ControlClient.Proofs.Session.Recording
import ControlClient.Proofs.Session.Output
import ControlClient.Proofs.Request.Filter
import ControlClient.Proofs.Span.Sums
import ControlClient.Proofs.Listing
import ControlClient.Proofs.Text.Digits
import ControlClient.Proofs.Span.Grammar
import ControlClient.Proofs.Span.Precision
import ControlClient.Proofs.Span.CanonicalForm
import ControlClient.Proofs.Catalog
import ControlClient.Proofs.Text.Shortest
import ControlClient.Proofs.CommandLine.Pieces
import ControlClient.Proofs.CommandLine.Steps
import ControlClient.Proofs.CommandLine.Reading
import ControlClient.Proofs.CommandLine.Weaving
import ControlClient.Proofs.CommandLine.Placement
import ControlClient.Proofs.CommandLine.Exclusion
import ControlClient.Proofs.Session.Presentation
import ControlClient.Proofs.Json.Spelling
import ControlClient.Proofs.Json.InsideStrings
import ControlClient.Proofs.Json.Accepted
import ControlClient.Proofs.Json.Alike
import ControlClient.Proofs.Respelling
import ControlClient.Proofs.Number.Rounding
import ControlClient.Proofs.Session.UnknownCommand
import ControlClient.Proofs.Listing.Sizes
import ControlClient.Proofs.Table
import ControlClient.Proofs.Listing.Alignment
import ControlClient.Proofs.Causes
import ControlClient.Proofs.CommandLine.TypeOption
import ControlClient.Proofs.TypeMember
import ControlClient.Proofs.TaskType
