import Switchyard.Asset.Connection
import Switchyard.Asset.Containment
import Switchyard.Asset.Entity
import Switchyard.Asset.Equipment
import Switchyard.Asset.Identity
import Switchyard.Checksum
import Switchyard.Checksum.Sha256
import Switchyard.Decimal.Binary
import Switchyard.Decimal.Layout
import Switchyard.Decimal.Reading
import Switchyard.Decimal.Shortest
import Switchyard.Decimal.Whole
import Switchyard.FixedWidth
import Switchyard.Graph.Basic
import Switchyard.Graph.Distance
import Switchyard.Graph.Walk
import Switchyard.Json.Basic
import Switchyard.Json.Canonical
import Switchyard.Json.Reader
import Switchyard.Load.Active
import Switchyard.Load.Equipment
import Switchyard.Load.LocalGraph
import Switchyard.Load.Substation
import Switchyard.Log.Directive
import Switchyard.Log.Event
import Switchyard.Log.Filter
import Switchyard.Log.Line
import Switchyard.Mrid
import Switchyard.Mrid.Source
import Switchyard.Mrid.Text
import Switchyard.Numbering
import Switchyard.Pattern.Atom
import Switchyard.Pattern.Bracket
import Switchyard.Pattern.Group
import Switchyard.Pattern.Mode
import Switchyard.Payload
import Switchyard.PerUnit
import Switchyard.Predicate
import Switchyard.Proofs.Graph.Growth
import Switchyard.Proofs.Graph.Layer
import Switchyard.Proofs.Graph.Link
import Switchyard.Proofs.Graph.Points
import Switchyard.Proofs.Graph.Shortest
import Switchyard.Proofs.Load.AfterWrite
import Switchyard.Proofs.Load.NewRecords
import Switchyard.Proofs.Load.Resolved
import Switchyard.Proofs.Load.Substation
import Switchyard.Proofs.Mrid.Fresh
import Switchyard.Proofs.Record.Reference
import Switchyard.Proofs.Store.Mentions
import Switchyard.Proofs.Synthesis.CrossPairs
import Switchyard.Proofs.Synthesis.Drafts
import Switchyard.Proofs.Synthesis.Interconnection
import Switchyard.Proofs.Synthesis.LevelInterconnection
import Switchyard.Proofs.Synthesis.LevelRerun
import Switchyard.Proofs.Synthesis.LevelRun
import Switchyard.Proofs.Synthesis.LinePairs
import Switchyard.Proofs.Synthesis.LinkRecords
import Switchyard.Proofs.Synthesis.LinkRun
import Switchyard.Proofs.Synthesis.LinkedPairs
import Switchyard.Proofs.Synthesis.Linking
import Switchyard.Proofs.Synthesis.Links
import Switchyard.Proofs.Synthesis.Rerun
import Switchyard.Proofs.Synthesis.Switching
import Switchyard.Proofs.Synthesis.TapLayer
import Switchyard.Proofs.Synthesis.TapPlan
import Switchyard.Proofs.Synthesis.TapRun
import Switchyard.Proofs.Synthesis.Taps
import Switchyard.Proofs.Version.Resolution
import Switchyard.Proofs.Write.Atomicity
import Switchyard.Proofs.Write.Outcome
import Switchyard.Proofs.Write.Reuse
import Switchyard.Proofs.Write.Stamps
import Switchyard.Record.Basic
import Switchyard.Record.Column
import Switchyard.Settings.Database
import Switchyard.Settings.Number
import Switchyard.Settings.Synthesis
import Switchyard.Store.Backend
import Switchyard.Store.Basic
import Switchyard.Store.Error
import Switchyard.Store.Interleaving
import Switchyard.Synthesis.Draft
import Switchyard.Synthesis.Input
import Switchyard.Synthesis.Parts
import Switchyard.Synthesis.Substation
import Switchyard.Synthesis.Topology
import Switchyard.Synthesis.VoltageLevel
import Switchyard.Table
import Switchyard.Text.Alphanumeric
import Switchyard.Text.Blank
import Switchyard.Text.Bytes
import Switchyard.Text.Hex
import Switchyard.Text.Terminal
import Switchyard.Version
import Switchyard.Write.Aggregate
import Switchyard.Write.Atomic
import Switchyard.Write.Edit
import Switchyard.Write.Error
import Switchyard.Proofs.Graph.Metric
import Switchyard.Proofs.Load.Current
import Switchyard.Proofs.Graph.Around
import Switchyard.Proofs.Load.Survey
import Switchyard.Proofs.Load.LocalGraph
import Switchyard.Proofs.Synthesis.TwoGraphs
import Switchyard.Proofs.Synthesis.LocalGraph
import Switchyard.Proofs.Store.Growth
import Switchyard.Proofs.Store.Isolation
import Switchyard.Proofs.Store.CommitSequence
import Switchyard.Proofs.Write.Acceptance
import Switchyard.Proofs.Write.ReadBack
import Switchyard.Proofs.Record.Registry
import Switchyard.Proofs.Store.Reached
import Switchyard.Proofs.Write.EditEffect
import Switchyard.Proofs.Synthesis.Taken
import Switchyard.Proofs.Synthesis.Reloaded
import Switchyard.Proofs.Graph.Cycle
import Switchyard.Proofs.Synthesis.Loops
import Switchyard.Proofs.Load.Numbering
import Switchyard.Proofs.Load.Equipment
import Switchyard.Proofs.Synthesis.Numbering
import Switchyard.Proofs.Record.Renaming
import Switchyard.Proofs.Mrid.Exchange
import Switchyard.Proofs.Graph.Hom
import Switchyard.Proofs.Synthesis.Parallel
import Switchyard.Proofs.Synthesis.TwoSources
import Switchyard.Proofs.Load.NumberingCheck
import Switchyard.Proofs.Record.Payload
import Switchyard.Proofs.Json.CanonicalText
import Switchyard.Proofs.Write.SameContent
import Switchyard.Proofs.Store.References
import Switchyard.Proofs.Synthesis.RefersBack
import Switchyard.Proofs.Synthesis.Closed
import Switchyard.Proofs.Synthesis.Choices
import Switchyard.Proofs.Synthesis.Counting
import Switchyard.Proofs.Synthesis.LinkLayout
import Switchyard.Proofs.Synthesis.LayerLayout
import Switchyard.Proofs.Write.Registration
import Switchyard.Proofs.Load.ByReference
import Switchyard.Proofs.Load.CurrentSubstation
import Switchyard.Proofs.Load.CurrentEquipment
import Switchyard.Proofs.Synthesis.Overrides
import Switchyard.Proofs.Write.FirstFault
import Switchyard.Proofs.Version.Newest
import Switchyard.Proofs.Load.Filtering
import Switchyard.Proofs.Graph.Indexed
import Switchyard.Proofs.Store.Written
