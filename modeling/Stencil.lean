import Stencil.Text.Basic
import Stencil.Text.Blank
import Stencil.Text.Case
import Stencil.Text.Digit
import Stencil.Text.Letter
import Stencil.Text.Pattern
import Stencil.Text.Printable
import Stencil.Text.Punctuation
import Stencil.Text.Quoted
import Stencil.Text.Rune
import Stencil.Markup.Entity
import Stencil.Markup.Render
import Stencil.Markup.Token
import Stencil.Markup.Parse
import Stencil.Path
import Stencil.Text.Distance
import Stencil.Template.Words
import Stencil.Template.Hole
import Stencil.Template.Excerpt
import Stencil.Template.Error
import Stencil.Template.Segment
import Stencil.Template.Directive
import Stencil.Template.Name
import Stencil.FileSystem
import Stencil.Template.Page
import Stencil.Template.Document
import Stencil.Binding
import Stencil.Evaluate
import Stencil.Unit.Expr
import Stencil.Markdown.Line
import Stencil.Markdown.Tag
import Stencil.Markdown.Reference
import Stencil.Markdown.Block
import Stencil.Markdown.Inline
import Stencil.Markdown.Html
import Stencil.Unit.Lexeme
import Stencil.Unit.Grammar
import Stencil.Log
import Stencil.Unit.Component
import Stencil.Unit.Layout
import Stencil.Unit.Trailer
import Stencil.Unit.Import
import Stencil.Unit.Compile
import Stencil.Forest.Basic
import Stencil.Forest.Register
import Stencil.Component.Value
import Stencil.Component.Deferred
import Stencil.Component.Holder
import Stencil.Component.Instance
import Stencil.Component.Card
import Stencil.Log.Line
import Stencil.Console
import Stencil.Disk.Basic
import Stencil.Disk.Directory
import Stencil.Output
import Stencil.Text.Number
import Stencil.Digest
import Stencil.Cache.Clock
import Stencil.Cache.Fields
import Stencil.Cache.Store
import Stencil.Cache.Basic
import Stencil.Disk.Walk
import Stencil.Watch.Relevance
import Stencil.Watch.Basic
import Stencil.Project.Package
import Stencil.Project.Discover
import Stencil.Text.Integer
import Stencil.Command.Duration
import Stencil.Command.Options
import Stencil.Command.Build
import Stencil.Command.Run
import Stencil.Main
import Stencil.Proofs.Text.Order
import Stencil.Proofs.Text.Rune
import Stencil.Proofs.Template.Symbols
import Stencil.Proofs.Template.Reading
import Stencil.Proofs.Template.Inference
import Stencil.Proofs.Unit.Literal
import Stencil.Proofs.Unit.Lexing
import Stencil.Proofs.Unit.Syntax
import Stencil.Proofs.Unit.Source
import Stencil.Proofs.Unit.Typing
import Stencil.Proofs.Evaluate.Agreement
import Stencil.Proofs.Component.Rules
import Stencil.Proofs.Component.Forcing
import Stencil.Proofs.Component.Passes
import Stencil.Proofs.Template.Including
import Stencil.Proofs.Unit.Dependencies
import Stencil.Proofs.Component.Agreement
import Stencil.Proofs.Cache.Standing
import Stencil.Proofs.Cache.Coherence
import Stencil.Proofs.Cache.Fields
import Stencil.Proofs.Text.Split
import Stencil.Proofs.Disk.Leading
import Stencil.Proofs.Disk.Seeing
import Stencil.Proofs.Command.Units
import Stencil.Proofs.Command.Caching
import Stencil.Proofs.Disk.Sound
import Stencil.Proofs.Component.Purity
import Stencil.Proofs.Evaluate.Rules
import Stencil.Proofs.Evaluate.Checking
import Stencil.Proofs.Evaluate.Containment
import Stencil.Proofs.Template.Expansion
import Stencil.Proofs.Template.Inclusion
import Stencil.Proofs.Template.Registration
import Stencil.Proofs.Template.Replaced
import Stencil.Proofs.Template.Verbatim
import Stencil.Proofs.Template.Words
import Stencil.Proofs.Template.Scanning
import Stencil.Proofs.Evaluate.RoundTrip
import Stencil.Proofs.Markup.Outline
import Stencil.Proofs.Evaluate.Escaping
import Stencil.Proofs.Path
import Stencil.Proofs.Disk.Following
import Stencil.Proofs.Disk.Changing
import Stencil.Proofs.Output.Placing
import Stencil.Proofs.Output.Atomicity
import Stencil.Proofs.Command.Packages
import Stencil.Proofs.Cache.Interleaving
import Stencil.Proofs.Disk.Making
import Stencil.Proofs.Output.Locality
import Stencil.Proofs.Command.Sites
import Stencil.Proofs.Disk.Blending
import Stencil.Proofs.Output.Repeating
import Stencil.Proofs.Unit.Lookups
import Stencil.Proofs.Command.Isolation
import Stencil.Proofs.Disk.Walking
import Stencil.Proofs.Watch.Events
import Stencil.Proofs.Watch.Loop
import Stencil.Proofs.Watch.Rebuilding
import Stencil.Proofs.Watch.Inputs
import Stencil.Proofs.Template.Splitting
import Stencil.Proofs.Unit.Interfaces
import Stencil.Proofs.Forest.Links
import Stencil.Proofs.Forest.Copying
import Stencil.Proofs.Forest.Sharing
import Stencil.Proofs.Template.Excerpts
import Stencil.Proofs.Template.Origins
import Stencil.Proofs.Template.Attribution
import Stencil.Proofs.Template.Directives
import Stencil.Proofs.Unit.Trailers
import Stencil.Proofs.Component.ZeroState
import Stencil.Proofs.Text.Distance
import Stencil.Proofs.Text.Classes
import Stencil.Proofs.Template.Naming
