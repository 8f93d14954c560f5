import TaggedHeap.Boundaries
import TaggedHeap.Catalog
import TaggedHeap.Category
import TaggedHeap.Classifier
import TaggedHeap.CommandLine.Arguments
import TaggedHeap.CommandLine.Run
import TaggedHeap.Dispatch.Builder
import TaggedHeap.Dispatch.Call
import TaggedHeap.Dispatch.Entry
import TaggedHeap.Dispatch.Subsystem
import TaggedHeap.Dispatch.Table
import TaggedHeap.Fault
import TaggedHeap.HeapObject
import TaggedHeap.Host
import TaggedHeap.Json
import TaggedHeap.Layout
import TaggedHeap.Main
import TaggedHeap.ObjectModel.Basic
import TaggedHeap.ObjectModel.Standard
import TaggedHeap.Operation
import TaggedHeap.Proofs.Dispatch.Completeness
import TaggedHeap.Proofs.Dispatch.Ledger
import TaggedHeap.Proofs.Dispatch.Refinement
import TaggedHeap.Proofs.Dispatch.Registration
import TaggedHeap.Proofs.Dispatch.Tracing
import TaggedHeap.Proofs.Layout.Validity
import TaggedHeap.Proofs.ObjectModel.Finished
import TaggedHeap.Proofs.Outcome
import TaggedHeap.Proofs.Space.Acceptance
import TaggedHeap.Proofs.Space.Appending
import TaggedHeap.Proofs.Space.Arrangement
import TaggedHeap.Proofs.Space.Categories
import TaggedHeap.Proofs.Space.Drafting
import TaggedHeap.Proofs.Space.History
import TaggedHeap.Proofs.Space.Orderly
import TaggedHeap.Proofs.Space.Persistence
import TaggedHeap.Proofs.Space.Routes
import TaggedHeap.Proofs.WordHeap.Readings
import TaggedHeap.Proofs.WordHeap.Walking
import TaggedHeap.Record
import TaggedHeap.Report.Basic
import TaggedHeap.Report.Document
import TaggedHeap.Settings
import TaggedHeap.StableHash
import TaggedHeap.Standard.Behaviors
import TaggedHeap.Standard.Kinds
import TaggedHeap.Standard.Layouts
import TaggedHeap.Standard.Ranges
import TaggedHeap.Summary
import TaggedHeap.TagSpace.Basic
import TaggedHeap.TagSpace.Build
import TaggedHeap.TagSpace.Growth
import TaggedHeap.TagSpace.Range
import TaggedHeap.Text.Blank
import TaggedHeap.Text.CodeRanges
import TaggedHeap.Text.Extending
import TaggedHeap.Text.Hex
import TaggedHeap.Text.Ignorable
import TaggedHeap.Text.Quoted
import TaggedHeap.Text.Unprintable
import TaggedHeap.Word
import TaggedHeap.WordHeap.Basic
import TaggedHeap.WordHeap.Mark
import TaggedHeap.WordHeap.Walk
import TaggedHeap.Proofs.Dispatch.Ordering
import TaggedHeap.Proofs.Dispatch.Commitment
import TaggedHeap.Proofs.ObjectModel.Answers
import TaggedHeap.Proofs.ObjectModel.Equality
import TaggedHeap.Proofs.Space.Capacity
import TaggedHeap.Proofs.StableHash
import TaggedHeap.Proofs.ObjectModel.Validity
import TaggedHeap.Proofs.ObjectModel.Hashing
import TaggedHeap.Proofs.WordHeap.Marking
import TaggedHeap.Proofs.Space.Refusal
import TaggedHeap.Proofs.Space.Tiers
import TaggedHeap.Proofs.Space.Listing
import TaggedHeap.Proofs.Standard.Spaces
import TaggedHeap.Proofs.Standard.Equipment
import TaggedHeap.Proofs.Standard.Contents
import TaggedHeap.Proofs.Standard.Extras
import TaggedHeap.Proofs.Report.Accounting
import TaggedHeap.Proofs.Guarded.Operations
import TaggedHeap.Proofs.Guarded.Sessions
import TaggedHeap.Proofs.Text.Padding
import TaggedHeap.Proofs.CommandLine.Spelling
import TaggedHeap.Proofs.CommandLine.Reading
import TaggedHeap.Proofs.CommandLine.Rewording
import TaggedHeap.Proofs.CommandLine.Running
import TaggedHeap.Proofs.CommandLine.Exits
import TaggedHeap.Proofs.CommandLine.Environment
import TaggedHeap.Proofs.Layout.Locality
import TaggedHeap.Proofs.Space.Ranges
import TaggedHeap.Proofs.Text.Lines
import TaggedHeap.Proofs.Dispatch.Gaps
import TaggedHeap.Proofs.Layout.Acceptance
import TaggedHeap.Proofs.Dispatch.Scanning
