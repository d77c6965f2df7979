import ClauseRouter.Application.Directory
import ClauseRouter.Main
import ClauseRouter.Proofs.Bytes.Parts
import ClauseRouter.Proofs.Dispatch.Run
import ClauseRouter.Proofs.Dispatch.Commit
import ClauseRouter.Proofs.Dispatch.Quiet
import ClauseRouter.Proofs.Dispatch.Decomposition
import ClauseRouter.Proofs.Dispatch.Captures
import ClauseRouter.Proofs.Dispatch.Failure
import ClauseRouter.Proofs.Dispatch.Delegation
import ClauseRouter.Proofs.Dispatch.Composition
import ClauseRouter.Proofs.Dispatch.Reordering
import ClauseRouter.Proofs.Pattern.Nesting
import ClauseRouter.Proofs.Pattern.Anchored
import ClauseRouter.Proofs.Pattern.Tandem
import ClauseRouter.Proofs.Path.Boundary
import ClauseRouter.Proofs.Path.Meaning
import ClauseRouter.Proofs.Path.PlainPattern
import ClauseRouter.Proofs.Path.PlainMatch
import ClauseRouter.Proofs.Path.FastPath
import ClauseRouter.Proofs.Path.Templates
import ClauseRouter.Proofs.Path.Windows
import ClauseRouter.Proofs.Path.Extension
import ClauseRouter.Proofs.Settings.RoundTrip
import ClauseRouter.Proofs.Settings.Number
import ClauseRouter.Proofs.Settings.InPlace
import ClauseRouter.Proofs.Settings.Places
import ClauseRouter.Proofs.Settings.Reprint
import ClauseRouter.Proofs.Application.Guests
import ClauseRouter.Proofs.Application.Replies
import ClauseRouter.Proofs.Application.Chain
import ClauseRouter.Proofs.Application.Logging
import ClauseRouter.Proofs.Session.History
import ClauseRouter.Proofs.Message.Form
import ClauseRouter.Proofs.Message.Headers
import ClauseRouter.Proofs.Message.Cookie
import ClauseRouter.Proofs.Message.Framing
