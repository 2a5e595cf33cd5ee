import SoundLaw.Text.CodeRanges
import SoundLaw.Text.Printable
import SoundLaw.Text.Case
import SoundLaw.Text.Surrogate
import SoundLaw.Text.Order
import SoundLaw.Text.Blank
import SoundLaw.Text.Quoted
import SoundLaw.Feature.Set
import SoundLaw.Feature.Change
import SoundLaw.Phoneme
import SoundLaw.Inventory
import SoundLaw.Error
import SoundLaw.Notation
import SoundLaw.Pattern.Basic
import SoundLaw.Pattern.Match
import SoundLaw.Pattern.Render
import SoundLaw.Pattern.Canonical
import SoundLaw.Text.Delimited
import SoundLaw.Pattern.Parser
import SoundLaw.Binary64
import SoundLaw.Binary64.Shortest
import SoundLaw.Json.Value
import SoundLaw.Json.Reader
import SoundLaw.Json.Writer
import SoundLaw.Json.Check
import SoundLaw.Json.HashedSet
import SoundLaw.Word
import SoundLaw.Exchange.Decode
import SoundLaw.Exchange.Encode
import SoundLaw.Segment
import SoundLaw.Rule.Basic
import SoundLaw.Rule.Sweep
import SoundLaw.Rule.Expand
import SoundLaw.Cascade
import SoundLaw.Inventory.Load
import SoundLaw.History
import SoundLaw.Settings.EnvFile
import SoundLaw.Settings
import SoundLaw.Logging.Call
import SoundLaw.Logging.Console
import SoundLaw.Logging
import SoundLaw.Proofs.SegmentNormalForm
import SoundLaw.Proofs.Sweep
import SoundLaw.Proofs.WrittenRuns
import SoundLaw.Proofs.MatchBounds
import SoundLaw.Proofs.CanonicalMatch
import SoundLaw.Proofs.WordEdges
import SoundLaw.Proofs.ReadBack
import SoundLaw.Proofs.CanonicalForm
import SoundLaw.Proofs.LeftmostScan
import SoundLaw.Proofs.Anchors
import SoundLaw.Proofs.ReadFuel
import SoundLaw.Proofs.OutputText
import SoundLaw.Proofs.Repetition
import SoundLaw.Proofs.Expansion
import SoundLaw.Proofs.DelimitedSplit
import SoundLaw.Proofs.GreedyReading
import SoundLaw.Proofs.GreedyLoop
import SoundLaw.Proofs.SubscriptCounts
import SoundLaw.Proofs.WrittenLeaves
import SoundLaw.Proofs.WrittenPatterns
import SoundLaw.Proofs.RuleText
