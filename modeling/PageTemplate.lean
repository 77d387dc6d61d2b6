import PageTemplate.Dynamic.Pipeline
import PageTemplate.Block.Inherit
import PageTemplate.Block.Balance
import PageTemplate.Site.Include
import PageTemplate.Site.Context
import PageTemplate.Config.Load
import PageTemplate.Config.View
import PageTemplate.Config.Document
import PageTemplate.Problem
import PageTemplate.Logging
import PageTemplate.Site.Engine
import PageTemplate.Site.Start
import PageTemplate.Proofs.Rendering
import PageTemplate.Proofs.Scan
import PageTemplate.Proofs.Bracket
import PageTemplate.Proofs.Seam
import PageTemplate.Proofs.Reader
import PageTemplate.Proofs.Substitution
import PageTemplate.Proofs.Template
import PageTemplate.Proofs.Spelling
import PageTemplate.Proofs.Expansion
import PageTemplate.Proofs.Choice
import PageTemplate.Proofs.Reading
import PageTemplate.Proofs.Visibility
import PageTemplate.Proofs.Nesting
import PageTemplate.Proofs.Untagged
import PageTemplate.Proofs.Composition
import PageTemplate.Proofs.Fixpoint
import PageTemplate.Proofs.FreeNames
import PageTemplate.Proofs.Grammar
import PageTemplate.Proofs.Deriving
import PageTemplate.Proofs.Parsing
import PageTemplate.Proofs.Lexeme
import PageTemplate.Proofs.Printing
import PageTemplate.Proofs.Layout
import PageTemplate.Proofs.Pruning
import PageTemplate.Proofs.Deciding
import PageTemplate.Proofs.Unchosen
import PageTemplate.Proofs.Provenance
import PageTemplate.Proofs.Action
import PageTemplate.Proofs.Place
import PageTemplate.Proofs.Drafting
import PageTemplate.Proofs.Confinement
import PageTemplate.Proofs.Saving
import PageTemplate.Proofs.Writing
import PageTemplate.Proofs.Compiling
import PageTemplate.Proofs.Span
import PageTemplate.Proofs.Straying
import PageTemplate.Proofs.Merging
import PageTemplate.Proofs.Stripping
import PageTemplate.Proofs.Outline
import PageTemplate.Proofs.Outermost
import PageTemplate.Proofs.Trimming
import PageTemplate.Proofs.History
import PageTemplate.Proofs.Recency
import PageTemplate.Proofs.Session
import PageTemplate.Proofs.Dotted
import PageTemplate.Proofs.Alone
import PageTemplate.Proofs.Following
import PageTemplate.Proofs.Naming
import PageTemplate.Proofs.Unpaired
import PageTemplate.Proofs.Faults
import PageTemplate.Proofs.Attachment
import PageTemplate.Proofs.Casing
import PageTemplate.Proofs.Overriding
import PageTemplate.Proofs.Priority
import PageTemplate.Proofs.Decision
import PageTemplate.Proofs.Division
import PageTemplate.Proofs.Sweep
import PageTemplate.Proofs.Control
import PageTemplate.Proofs.Keyword
import PageTemplate.Proofs.KeyTag
import PageTemplate.Proofs.Foreign
import PageTemplate.Proofs.Filling
import PageTemplate.Proofs.Reordering
import PageTemplate.Proofs.Unfolding
import PageTemplate.Proofs.Registering
import PageTemplate.Proofs.Quoting
import PageTemplate.Proofs.Enclosing
import PageTemplate.Proofs.Indexing
import PageTemplate.Proofs.Nearest
import PageTemplate.Proofs.Binary64
import PageTemplate.Proofs.Halves
import PageTemplate.Proofs.Arithmetic
import PageTemplate.Proofs.Exactness
import PageTemplate.Proofs.Literals
import PageTemplate.Proofs.RoundTrip
import PageTemplate.Proofs.Equality
import PageTemplate.Proofs.Lexis
import PageTemplate.Proofs.Tokenizing
import PageTemplate.Proofs.Splitting
import PageTemplate.Proofs.Entrance
import PageTemplate.Proofs.Conforming
import PageTemplate.Proofs.Detachment
import PageTemplate.Proofs.Layering
import PageTemplate.Proofs.Commuting
import PageTemplate.Proofs.Contribution
