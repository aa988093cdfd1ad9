import EdgeFilters.Binary64.Basic
import EdgeFilters.Binary64.Shortest
import EdgeFilters.Command.Basic
import EdgeFilters.Command.Run
import EdgeFilters.Condition
import EdgeFilters.Config.Basic
import EdgeFilters.Config.Read
import EdgeFilters.Dump
import EdgeFilters.Edge
import EdgeFilters.File
import EdgeFilters.Inspect
import EdgeFilters.Json
import EdgeFilters.Log
import EdgeFilters.Main
import EdgeFilters.Proofs.Entries
import EdgeFilters.Registry
import EdgeFilters.Report
import EdgeFilters.Schema
import EdgeFilters.Solver
import EdgeFilters.Table
import EdgeFilters.Text.Blank
import EdgeFilters.Text.Digit
import EdgeFilters.Text.Printable
import EdgeFilters.Text.Quoted
import EdgeFilters.Text.Split
import EdgeFilters.Yaml.Block
import EdgeFilters.Yaml.Builder
import EdgeFilters.Yaml.Document
import EdgeFilters.Yaml.Fault
import EdgeFilters.Yaml.Gap
import EdgeFilters.Yaml.Lexer
import EdgeFilters.Yaml.Mark
import EdgeFilters.Yaml.Meaning
import EdgeFilters.Yaml.Node
import EdgeFilters.Yaml.Plain
import EdgeFilters.Yaml.Quoted
import EdgeFilters.Yaml.Tag
import EdgeFilters.Yaml.Token
import EdgeFilters.Proofs.Outcome
import EdgeFilters.Proofs.History
import EdgeFilters.Proofs.Accepted
import EdgeFilters.Proofs.Separate
import EdgeFilters.Proofs.Faithful
import EdgeFilters.Proofs.Grouping
import EdgeFilters.Proofs.Sharing
import EdgeFilters.Proofs.Filtering
import EdgeFilters.Proofs.Isolation
import EdgeFilters.Proofs.Parts
import EdgeFilters.Proofs.Written
import EdgeFilters.Proofs.Regrouping
import EdgeFilters.Proofs.Modes
import EdgeFilters.Proofs.Reports
import EdgeFilters.Proofs.Growth
import EdgeFilters.Proofs.Places
import EdgeFilters.Proofs.Provenance
import EdgeFilters.Proofs.Leniency
import EdgeFilters.Proofs.Views
import EdgeFilters.Proofs.Acceptance
import EdgeFilters.Proofs.Lines
import EdgeFilters.Proofs.Commands
import EdgeFilters.Proofs.Escapes
import EdgeFilters.Proofs.Flow
import EdgeFilters.Proofs.Steps
import EdgeFilters.Proofs.Tokens
import EdgeFilters.Proofs.Trees
import EdgeFilters.Proofs.RoundTrip
import EdgeFilters.Proofs.Rejoining
import EdgeFilters.Proofs.Forms
import EdgeFilters.Proofs.Mixing
import EdgeFilters.Proofs.Validation
import EdgeFilters.Proofs.Absorption
import EdgeFilters.Proofs.Classes
import EdgeFilters.Proofs.Labels
import EdgeFilters.Proofs.Grammar
import EdgeFilters.Proofs.Printing
import EdgeFilters.Proofs.Answers
