import Scaffold.Artifact.Application
import Scaffold.Artifact.Auth
import Scaffold.Artifact.Readme
import Scaffold.Artifact.Record
import Scaffold.Artifact.ValidationChain
import Scaffold.Artifact.Manifest
import Scaffold.Artifact.Middleware
import Scaffold.Artifact.Repository
import Scaffold.Artifact.Routes
import Scaffold.Artifact.Schema
import Scaffold.Artifact.Service
import Scaffold.Artifact.Source
import Scaffold.Artifact.Suite
import Scaffold.Calendar
import Scaffold.Catalog.Manifest
import Scaffold.Catalog.Services
import Scaffold.Catalog.Types
import Scaffold.Command.Arguments
import Scaffold.Command.Folder
import Scaffold.Command.Run
import Scaffold.Digest.NameId
import Scaffold.Digest.Sha256
import Scaffold.Document.Json.Printer
import Scaffold.Document.Json.Reader
import Scaffold.Document.Literal
import Scaffold.Document.Value
import Scaffold.Document.Yaml.Block
import Scaffold.Document.Yaml.Cursor
import Scaffold.Document.Yaml.Meaning
import Scaffold.Document.Yaml.Node
import Scaffold.Document.Yaml.Property
import Scaffold.Document.Yaml.Reader
import Scaffold.Document.Yaml.Scalar
import Scaffold.Document.Yaml.Tag
import Scaffold.Document.Yaml.Token
import Scaffold.Format.Basic
import Scaffold.Format.Code
import Scaffold.Format.Finish
import Scaffold.Format.Layout
import Scaffold.Format.Mask
import Scaffold.Format.Options
import Scaffold.Format.Sql
import Scaffold.Job.Basic
import Scaffold.Job.Run
import Scaffold.Job.Source
import Scaffold.Main
import Scaffold.Model.Basic
import Scaffold.Model.Field
import Scaffold.Naming
import Scaffold.Number.Binary64
import Scaffold.Number.Numeral
import Scaffold.Number.Spelling
import Scaffold.Options.Coerce
import Scaffold.Options.Export
import Scaffold.Options.Generation
import Scaffold.Package.Archive.Basic
import Scaffold.Package.Archive.Bytes
import Scaffold.Package.Basic
import Scaffold.Package.Build
import Scaffold.Package.Deployment
import Scaffold.Package.Setup
import Scaffold.Project.Auth
import Scaffold.Project.Basic
import Scaffold.Project.Build
import Scaffold.Project.Contents
import Scaffold.Project.Endpoint
import Scaffold.Project.File
import Scaffold.Project.Relocation
import Scaffold.Proofs.Validation.Search
import Scaffold.Schema.Checked
import Scaffold.Schema.Issue
import Scaffold.Schema.Lax
import Scaffold.Schema.Moments
import Scaffold.Schema.Named
import Scaffold.Template.Library
import Scaffold.Template.Node
import Scaffold.Template.Render
import Scaffold.Template.Scope
import Scaffold.Text.CaseTable
import Scaffold.Text.Class
import Scaffold.Text.Ranges
import Scaffold.Text.Lettercase
import Scaffold.Text.Lines
import Scaffold.Validation.Basic
import Scaffold.Validation.Cycles
import Scaffold.Validation.Result
import Scaffold.Validation.Rules
import Scaffold.Validation.Subject
import Scaffold.Proofs.Validation.Cycles
import Scaffold.Proofs.Template.Typing
import Scaffold.Proofs.Template.Dependence
import Scaffold.Proofs.Template.Lines
import Scaffold.Proofs.Template.Nesting
import Scaffold.Proofs.Template.Library
import Scaffold.Proofs.Artifact.Contexts
import Scaffold.Proofs.Project.Assembly
import Scaffold.Proofs.Project.Paths
import Scaffold.Proofs.Project.Collision
import Scaffold.Proofs.Text.OneLine
import Scaffold.Proofs.Artifact.Imports
import Scaffold.Proofs.Text.Names
import Scaffold.Proofs.Artifact.Bodies
import Scaffold.Proofs.Artifact.Chains
import Scaffold.Proofs.Project.Relocation
import Scaffold.Proofs.Artifact.Rendered
import Scaffold.Proofs.Artifact.Sources
import Scaffold.Proofs.Project.Modules
import Scaffold.Proofs.Project.Imports
import Scaffold.Proofs.Project.Accounts
import Scaffold.Proofs.Artifact.Columns
import Scaffold.Proofs.Artifact.References
import Scaffold.Proofs.Project.Endpoints
import Scaffold.Proofs.Project.Tables
import Scaffold.Proofs.Schema.Explained
import Scaffold.Proofs.Validation.Gate
import Scaffold.Proofs.Text.Trim
import Scaffold.Proofs.Format.Cells
import Scaffold.Proofs.Format.Characters
import Scaffold.Proofs.Format.Phases
import Scaffold.Proofs.Format.Literals
import Scaffold.Proofs.Format.Spacing
import Scaffold.Proofs.Format.Brackets
import Scaffold.Proofs.Format.Spans
import Scaffold.Proofs.Format.Faithful
import Scaffold.Proofs.Format.Edits
import Scaffold.Proofs.Format.Passes
import Scaffold.Proofs.Format.Comments
import Scaffold.Proofs.Format.Templates
import Scaffold.Proofs.Format.Decisions
import Scaffold.Proofs.Format.Tidy
import Scaffold.Proofs.Format.Reformat
import Scaffold.Proofs.Project.Gated
import Scaffold.Proofs.Text.Words
import Scaffold.Proofs.Text.Numerals
import Scaffold.Proofs.Text.Decimals
import Scaffold.Proofs.Format.Statements
import Scaffold.Proofs.Format.Keywords
import Scaffold.Proofs.Format.Capitals
import Scaffold.Proofs.Format.StringData
import Scaffold.Proofs.Artifact.Schemas
import Scaffold.Proofs.Format.Surplus
import Scaffold.Proofs.Template.Walk
import Scaffold.Proofs.Artifact.Balance
import Scaffold.Proofs.Artifact.Balanced
import Scaffold.Proofs.Artifact.Filled
import Scaffold.Proofs.Project.Balance
import Scaffold.Proofs.Validation.Completion
import Scaffold.Proofs.Validation.Errors
import Scaffold.Proofs.Validation.Agreement
import Scaffold.Proofs.Document.RoundTrip
import Scaffold.Proofs.Package.Manifest
import Scaffold.Proofs.Package.Contents
import Scaffold.Proofs.Project.Independence
import Scaffold.Proofs.Artifact.RoleLists
import Scaffold.Proofs.Artifact.SignIn
import Scaffold.Proofs.Project.RoleClosure
import Scaffold.Proofs.Project.Renaming
import Scaffold.Proofs.Project.RelocatedRoles
import Scaffold.Proofs.Options.Omission
import Scaffold.Proofs.Project.Settled
import Scaffold.Proofs.Package.Omission
import Scaffold.Template.Session
import Scaffold.Proofs.Template.Session
import Scaffold.Proofs.Schema.Spelling
import Scaffold.Proofs.Model.RoundTrip
import Scaffold.Proofs.Template.Tags
import Scaffold.Proofs.Template.Printing
import Scaffold.Proofs.Template.Documents
import Scaffold.Proofs.Template.Stages
import Scaffold.Proofs.Artifact.Layers
import Scaffold.Proofs.Format.Indentation
import Scaffold.Proofs.Project.Handlers
import Scaffold.Proofs.Number.Rounding
import Scaffold.Proofs.Number.Shortest
import Scaffold.Proofs.Document.Numbers
import Scaffold.Proofs.Document.Readings
import Scaffold.Proofs.Document.LineEnds
import Scaffold.Proofs.Format.Documents
import Scaffold.Proofs.Format.Markdown
import Scaffold.Proofs.Format.NormalForm
import Scaffold.Proofs.Package.Metadata
import Scaffold.Proofs.Options.Overrides
import Scaffold.Proofs.Package.Instructions
import Scaffold.Proofs.Validation.Merging
import Scaffold.Proofs.Text.Casing
import Scaffold.Proofs.Text.Lexicon
import Scaffold.Proofs.Format.Lexemes
import Scaffold.Proofs.Format.Partition
