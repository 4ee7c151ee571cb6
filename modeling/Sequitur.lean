import Sequitur.Json.Printer
import Sequitur.Json.Reader
import Sequitur.Json.Trees
import Sequitur.Notation.Conversion
import Sequitur.Engine.Forward
import Sequitur.Engine.Scripted
import Sequitur.Failure
import Sequitur.Session.SnapshotFile
import Sequitur.Config
import Sequitur.Gateway.Service
import Sequitur.Main
import Sequitur.Proofs.Engine.FixedPoint
import Sequitur.Proofs.Session.InStep
import Sequitur.Proofs.Notation.Cutting
import Sequitur.Proofs.Notation.Display.Lines
import Sequitur.Proofs.Session.Identifiers
import Sequitur.Proofs.Session.Snapshot
import Sequitur.Proofs.Engine.History
import Sequitur.Proofs.Engine.Horn
import Sequitur.Proofs.Session.CanonicalLines
import Sequitur.Proofs.Notation.Canonical.Lines
import Sequitur.Proofs.CommandLine.Translate
import Sequitur.Proofs.Session.Lookup
import Sequitur.Proofs.Session.Answers
import Sequitur.Proofs.Session.Isolation
import Sequitur.Proofs.Session.Refusals
import Sequitur.Proofs.Gateway.Answers
import Sequitur.Proofs.Session.SnapshotFile
import Sequitur.Proofs.CommandLine.Derive
import Sequitur.Proofs.Notation.Inclusion
import Sequitur.Proofs.Notation.Pools
import Sequitur.Proofs.Notation.Reports
import Sequitur.Proofs.Notation.Display.Layouts
import Sequitur.Proofs.Engine.Bounds
import Sequitur.Proofs.Engine.Candidates
import Sequitur.Proofs.Session.Exhaustion
import Sequitur.Proofs.Session.Roster
import Sequitur.Proofs.Session.Batches
import Sequitur.Proofs.Session.Stability
import Sequitur.Proofs.Session.Restoring
import Sequitur.Proofs.Session.EngineFailures
import Sequitur.Proofs.NormalForm
import Sequitur.Proofs.Engine.Admissions
import Sequitur.Proofs.Session.Limits
