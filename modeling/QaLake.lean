import QaLake.CommandLine.Arguments
import QaLake.CommandLine.Failure
import QaLake.CommandLine.Help
import QaLake.CommandLine.Program
import QaLake.CommandLine.Summary
import QaLake.Domain.Conversion
import QaLake.Endpoint.PathTemplate
import QaLake.Endpoint.Response
import QaLake.Main
import QaLake.Proofs.CommandLine.Selection
import QaLake.Proofs.Domain.Conversion
import QaLake.Proofs.Domain.Identifiers
import QaLake.Proofs.Domain.Overrides
import QaLake.Proofs.Endpoint.Inputs
import QaLake.Proofs.Endpoint.Kinds
import QaLake.Proofs.Endpoint.Paths
import QaLake.Proofs.Endpoint.Templates
import QaLake.Proofs.Json.Depth
import QaLake.Proofs.Json.Digits
import QaLake.Proofs.Json.Grammar
import QaLake.Proofs.Json.Members
import QaLake.Proofs.Json.Quoted
import QaLake.Proofs.Json.Reading
import QaLake.Proofs.Json.Records
import QaLake.Proofs.Json.Required
import QaLake.Proofs.Json.RoundTrip
import QaLake.Proofs.Json.Spelling
import QaLake.Proofs.Json.WellFormed
import QaLake.Proofs.Keyed.LastPer
import QaLake.Proofs.Keyed.Overwriting
import QaLake.Proofs.Scope.Attributes
import QaLake.Proofs.Scope.Coercion
import QaLake.Proofs.Scope.Decoding
import QaLake.Proofs.Scope.Text
import QaLake.Proofs.Service.Catalogue
import QaLake.Proofs.Service.Facts
import QaLake.Proofs.Service.Served
import QaLake.Proofs.Store.Cell
import QaLake.Proofs.Store.Contents
import QaLake.Proofs.Store.DomainRows
import QaLake.Proofs.Store.Interleaving
import QaLake.Proofs.Store.Isolation
import QaLake.Proofs.Store.ReadBack
import QaLake.Proofs.Store.Reading
import QaLake.Proofs.Store.Scopes
import QaLake.Proofs.Store.Sources
import QaLake.Proofs.Store.Tags
import QaLake.Proofs.Store.ToolRows
import QaLake.Proofs.Store.Upserts
import QaLake.Proofs.Sync.Accounting
import QaLake.Proofs.Sync.Action
import QaLake.Proofs.Sync.BareNumbers
import QaLake.Proofs.Sync.Collection
import QaLake.Proofs.Sync.Completeness
import QaLake.Proofs.Sync.Composition
import QaLake.Proofs.Sync.Context
import QaLake.Proofs.Sync.Conversion
import QaLake.Proofs.Sync.Course
import QaLake.Proofs.Sync.Extraction
import QaLake.Proofs.Sync.Failure
import QaLake.Proofs.Sync.FanOut
import QaLake.Proofs.Sync.Filled
import QaLake.Proofs.Sync.Fold
import QaLake.Proofs.Sync.Frame
import QaLake.Proofs.Sync.History
import QaLake.Proofs.Sync.Overrides
import QaLake.Proofs.Sync.Overwriting
import QaLake.Proofs.Sync.Paging
import QaLake.Proofs.Sync.Places
import QaLake.Proofs.Sync.References
import QaLake.Proofs.Sync.Refinement
import QaLake.Proofs.Sync.Rereading
import QaLake.Proofs.Sync.Rerun
import QaLake.Proofs.Sync.Scoped
import QaLake.Proofs.Sync.Step
import QaLake.Proofs.Sync.StoredScopes
import QaLake.Proofs.Sync.Tuning
import QaLake.Proofs.Sync.Unmigrated
import QaLake.Proofs.Sync.Walk
import QaLake.Proofs.Sync.Writes
import QaLake.Proofs.Text.Percent
import QaLake.Proofs.Text.Trim
import QaLake.Proofs.Text.Utf8
import QaLake.Proofs.Time.Calendar
import QaLake.Proofs.Time.Readers
import QaLake.Proofs.Time.Texts
import QaLake.Proofs.Tool.Payloads
import QaLake.Proofs.Tool.Plans
import QaLake.Proofs.Tool.Reading
import QaLake.RunOptions
import QaLake.Service.Scripted
import QaLake.Settings.Basic
import QaLake.Settings.LogFilter
import QaLake.Settings.Paths
import QaLake.Store.Cursor
import QaLake.Store.Database
import QaLake.Subtask
import QaLake.Sync.Run
import QaLake.Toml.Document
import QaLake.Tool.Record
