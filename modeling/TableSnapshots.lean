import TableSnapshots.Version
import TableSnapshots.Query
import TableSnapshots.Path.Guard
import TableSnapshots.Retry.Policy
import TableSnapshots.Digest.Hex
import TableSnapshots.Digest.Xxh3
import TableSnapshots.Config
import TableSnapshots.Config.Load
import TableSnapshots.Part.Basic
import TableSnapshots.Gateway.Reply
import TableSnapshots.Controller.Freeze
import TableSnapshots.Controller.Restore
import TableSnapshots.Controller.Teardown
import TableSnapshots.Rehearsal.Script
import TableSnapshots.Rehearsal.Server
import TableSnapshots.Rehearsal.Session
import TableSnapshots.CommandLine.Run
import TableSnapshots.Gateway.Wire
import TableSnapshots.Main
import TableSnapshots.Proofs.Query.Statement
import TableSnapshots.Proofs.Controller.Run
import TableSnapshots.Proofs.Freeze.Admission
import TableSnapshots.Proofs.Part.Found
import TableSnapshots.Proofs.Freeze.Reference
import TableSnapshots.Proofs.Path.Names
import TableSnapshots.Proofs.Tree.Resolve
import TableSnapshots.Proofs.Tree.Remove
import TableSnapshots.Proofs.Controller.Teardown
import TableSnapshots.Proofs.Path.Relative
import TableSnapshots.Proofs.Controller.Guards
import TableSnapshots.Proofs.Tree.Confined
import TableSnapshots.Proofs.Tree.Ownership
import TableSnapshots.Proofs.Controller.Restore
import TableSnapshots.Proofs.Controller.Confinement
import TableSnapshots.Proofs.Tree.Looks
import TableSnapshots.Proofs.Part.Remaining
import TableSnapshots.Proofs.Freeze.Removal
import TableSnapshots.Proofs.Freeze.Counter
import TableSnapshots.Proofs.Freeze.Copying
import TableSnapshots.Proofs.Freeze.Strategies
import TableSnapshots.Proofs.Freeze.Copier
import TableSnapshots.Proofs.Path.Extension
import TableSnapshots.Proofs.Path.Guard
import TableSnapshots.Proofs.Path.Slashes
import TableSnapshots.Proofs.Freeze.Enumeration
import TableSnapshots.Proofs.Gateway.Need
import TableSnapshots.Proofs.Query.Format
import TableSnapshots.Proofs.Controller.Operation
import TableSnapshots.Proofs.Controller.Failure
import TableSnapshots.Proofs.Controller.Format
import TableSnapshots.Proofs.Tree.Footprint
import TableSnapshots.Proofs.Part.Apart
import TableSnapshots.Proofs.Freeze.Independence
import TableSnapshots.Proofs.Controller.Session
import TableSnapshots.Proofs.Json.Quoted
import TableSnapshots.Proofs.Json.Record
import TableSnapshots.Proofs.Part.Line
import TableSnapshots.Proofs.CommandLine.Run
import TableSnapshots.Proofs.CommandLine.Attach
import TableSnapshots.Proofs.CommandLine.Freeze
import TableSnapshots.Proofs.Text.Pieces
import TableSnapshots.Proofs.Text.Decimal
import TableSnapshots.Proofs.Text.Blank
import TableSnapshots.Proofs.Text.Bytes
import TableSnapshots.Proofs.Tree.Entry
import TableSnapshots.Proofs.Part.Catalog
import TableSnapshots.Proofs.Digest.Hex
import TableSnapshots.Proofs.Part.Fingerprint
import TableSnapshots.Proofs.Retry.Outcomes
import TableSnapshots.Proofs.Retry.Delay
import TableSnapshots.Proofs.Version.Order
import TableSnapshots.Proofs.Version.Grammar
import TableSnapshots.Proofs.Version.Strategy
import TableSnapshots.Proofs.Controller.Strategy
import TableSnapshots.Proofs.Tree.Fewer
import TableSnapshots.Proofs.Tree.Cleared
import TableSnapshots.Proofs.Controller.Removals
import TableSnapshots.Proofs.Each
import TableSnapshots.Proofs.Gateway.Column
import TableSnapshots.Proofs.Text.Spelling
import TableSnapshots.Proofs.Freeze.Numeral
import TableSnapshots.Proofs.Tree.GivenAway
import TableSnapshots.Proofs.Json.Spelling
import TableSnapshots.Proofs.Json.Natural
import TableSnapshots.Proofs.Json.Reading
import TableSnapshots.Proofs.Json.Layout
import TableSnapshots.Proofs.Config.Reading
