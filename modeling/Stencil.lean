import Stencil.Main
import Stencil.Proofs.Document.Concatenation
import Stencil.Proofs.Document.OnePass
import Stencil.Proofs.Engine.Escaping
import Stencil.Proofs.Engine.Mentioned
import Stencil.Proofs.Include.Sandbox
import Stencil.Proofs.Printing.RoundTrip
import Stencil.Proofs.Render.Markup
import Stencil.Proofs.Render.Meaning
import Stencil.Proofs.Engine.Confinement
import Stencil.Proofs.Condition.Height
import Stencil.Proofs.Document.NormalForm
import Stencil.Proofs.Render.Machine
import Stencil.Proofs.Document.Blame
import Stencil.Proofs.Render.Limits
import Stencil.Proofs.Render.Failures
import Stencil.Proofs.Render.Inlining
import Stencil.Proofs.Token.Coverage
import Stencil.Proofs.Engine.Concatenation
import Stencil.Proofs.Include.Agreement
import Stencil.Proofs.Condition.Grammar
import Stencil.Proofs.Document.Tiling
import Stencil.Proofs.Json
import Stencil.Proofs.CommandLine
import Stencil.Proofs.Engine.Requests
import Stencil.Proofs.Condition.Continuation
import Stencil.Proofs.Document.Threshold
import Stencil.Proofs.Cache.History
import Stencil.Proofs.Include.Identity
import Stencil.Proofs.Include.Cancelling
import Stencil.Proofs.Include.NormalForm
import Stencil.Proofs.Html.Entities
import Stencil.Proofs.Report.Place
import Stencil.Proofs.Token.Grouping
import Stencil.Proofs.Request
