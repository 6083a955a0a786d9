import Stencil.Main
import Stencil.Helper.Formula
import Stencil.Inspect
import Stencil.Template.Probe
import Stencil.Proofs.Text.Occurrence
import Stencil.Proofs.Text.Words
import Stencil.Proofs.Additions
import Stencil.Proofs.Template.TagExtent
import Stencil.Proofs.Template.Pieces
import Stencil.Proofs.Template.Nests
import Stencil.Proofs.Template.Lossless
import Stencil.Proofs.Template.TagContent
import Stencil.Proofs.Template.TagMeaning
import Stencil.Proofs.Template.Moved
import Stencil.Proofs.Template.Reparse
import Stencil.Proofs.Template.Concrete
import Stencil.Proofs.Render.Streaming
import Stencil.Proofs.Render.Escaping
import Stencil.Proofs.Template.Brackets
import Stencil.Proofs.Helper.WellTyped
import Stencil.Proofs.Template.Ownership
import Stencil.Proofs.Render.Watch
import Stencil.Proofs.Value.Renaming
import Stencil.Proofs.Value.Embedding
import Stencil.Proofs.Value.Inclusion
import Stencil.Proofs.Value.Placing
import Stencil.Proofs.Value.Shifting
import Stencil.Proofs.Render.Calls
import Stencil.Proofs.Render.Rewinding
import Stencil.Proofs.Render.Repeating
import Stencil.Proofs.Render.Untouched
import Stencil.Proofs.Render.Below
import Stencil.Proofs.Render.Looping
import Stencil.Proofs.Helper.Enumerating
import Stencil.Proofs.Helper.Accesses
import Stencil.Proofs.Helper.Reach
import Stencil.Proofs.Render.Asking
import Stencil.Proofs.Render.Exchange
import Stencil.Proofs.Template.Uncalled
import Stencil.Proofs.Template.Lexemes
import Stencil.Proofs.Template.Spelling
import Stencil.Proofs.Template.Faults
import Stencil.Proofs.Template.Culprits
import Stencil.Proofs.Template.OffsetTags
import Stencil.Proofs.Template.Excerpts
import Stencil.Proofs.Template.Progress
import Stencil.Proofs.Render.Stock
import Stencil.Proofs.Render.Unseen
import Stencil.Proofs.Value.Paths
import Stencil.Proofs.Render.Budget
import Stencil.Proofs.Render.Nesting
import Stencil.Proofs.Render.Ahead
import Stencil.Proofs.Render.Reentry
import Stencil.Proofs.Render.Failing
import Stencil.Proofs.Template.Declining
import Stencil.Proofs.Entries
import Stencil.Proofs.Helper.Registering
import Stencil.Proofs.Value.Documents
import Stencil.Proofs.Decimal.Bits
import Stencil.Proofs.Decimal.ReadBack
import Stencil.Proofs.Decimal.Printed
import Stencil.Proofs.Helper.TextAndBack
