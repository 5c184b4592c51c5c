import Workbench.Main
import Workbench.Flow.Store
import Workbench.Probability.Curves
import Workbench.Proofs.Flow.Numbering
import Workbench.Proofs.Flow.Yielding
import Workbench.Proofs.Flow.Growth
import Workbench.Proofs.Flow.Position
import Workbench.Proofs.Flow.Suite.Growth
import Workbench.Proofs.Flow.Braced.Growth
import Workbench.Proofs.Flow.Function
import Workbench.Proofs.Flow.Order
import Workbench.Proofs.Flow.Suite.Layout
import Workbench.Proofs.Flow.Behaviour
import Workbench.Proofs.Flow.Walks
import Workbench.Proofs.Flow.Depiction
import Workbench.Proofs.Flow.Runs
import Workbench.Proofs.Flow.Suite.Runs
import Workbench.Proofs.Flow.Braced.Runs
import Workbench.Proofs.Flow.Keeping
import Workbench.Proofs.Flow.Indexing
import Workbench.Proofs.Flow.Links
import Workbench.Proofs.Flow.Project
import Workbench.Proofs.Flow.Conflation
import Workbench.Proofs.Flow.Failures
import Workbench.Proofs.Flow.Lexing
import Workbench.Proofs.Flow.Dot
import Workbench.Proofs.Flow.Lisp
import Workbench.Proofs.Flow.Legibility
import Workbench.Proofs.Text.Lines
import Workbench.Proofs.Text.Utf8
import Workbench.Proofs.Split.Sections
import Workbench.Proofs.World.Files
import Workbench.Proofs.Split.Parts
import Workbench.Proofs.Split.Survey
import Workbench.Proofs.Flow.Output
import Workbench.Proofs.Flow.Tour
import Workbench.Proofs.Survey.Gate
import Workbench.Proofs.Extraction.Pool
import Workbench.Proofs.Data.Numerals
import Workbench.Proofs.Data.Spelling
import Workbench.Proofs.Data.Documents
import Workbench.Proofs.Data.Fragments
import Workbench.Proofs.Crate.Diagnostics
import Workbench.Proofs.Split.Overwriting
import Workbench.Proofs.Flow.Store
import Workbench.Proofs.Flow.Union
import Workbench.Proofs.Flow.Tracing
import Workbench.Proofs.Flow.Suite.Traces
import Workbench.Proofs.Flow.Suite.Visits
import Workbench.Proofs.Flow.Suite.Endings
import Workbench.Proofs.Flow.Suite.Jumps
import Workbench.Proofs.Flow.Suite.Chains
import Workbench.Proofs.Flow.Braced.Visits
import Workbench.Proofs.Flow.Braced.Roster
import Workbench.Proofs.Flow.Braced.Sides
import Workbench.Proofs.Flow.Braced.ElseClauses
import Workbench.Proofs.Flow.Braced.Checks
import Workbench.Proofs.Flow.Configuration
import Workbench.Proofs.Extraction.Chunks
import Workbench.Proofs.Text.Pattern
import Workbench.Proofs.Extraction.Tags
import Workbench.Proofs.Extraction.Cleaning
import Workbench.Proofs.Extraction.Conversion
import Workbench.Proofs.Extraction.Fences
import Workbench.Proofs.Extraction.Attempts
import Workbench.Proofs.Extraction.Losses
import Workbench.Proofs.Survey.Ranking
import Workbench.Proofs.Survey.Measures
import Workbench.Proofs.Flow.Patches
import Workbench.Proofs.Flow.Locality
import Workbench.Proofs.Flow.Braced.Scans
