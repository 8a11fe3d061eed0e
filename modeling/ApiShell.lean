import ApiShell.Http.Phrase
import ApiShell.Main
import ApiShell.Proofs.Program.Binding
import ApiShell.Proofs.Reference.Cycle
import ApiShell.Proofs.Reference.Dangling
import ApiShell.Proofs.Pointer.Location
import ApiShell.Proofs.Request.Substitution
import ApiShell.Proofs.Request.Credential
import ApiShell.Proofs.Request.Breaking
import ApiShell.Proofs.Time.Stamp
import ApiShell.Proofs.Cache.Entry
import ApiShell.Proofs.Cache.Basic
import ApiShell.Proofs.Cache.Lifetime
import ApiShell.Proofs.Cache.Providing
import ApiShell.Proofs.Cache.Staleness
import ApiShell.Proofs.Spec.PlainForm
import ApiShell.Proofs.Cache.Transparency
import ApiShell.Proofs.Cache.Trouble
import ApiShell.Proofs.Config.TimeToLive
import ApiShell.Proofs.Spec.Places
import ApiShell.Proofs.Command.Compiling
import ApiShell.Proofs.Program.Catalogue
import ApiShell.Proofs.Program.Leaf
import ApiShell.Proofs.Program.EarlyOptions
import ApiShell.Proofs.Program.Starting
import ApiShell.Proofs.Http.Query
import ApiShell.Proofs.Http.Sendable
import ApiShell.Proofs.Command.Overriding
import ApiShell.Proofs.Config.Saving
import ApiShell.Proofs.Spec.Loading
import ApiShell.Proofs.Command.Typable
import ApiShell.Proofs.Command.FreeIdentifier
import ApiShell.Proofs.Program.IntegerDefault
import ApiShell.Proofs.Output.Csv
import ApiShell.Proofs.Output.Table
import ApiShell.Proofs.Response.DotPath
import ApiShell.Proofs.Spec.Version
import ApiShell.Proofs.Time.DurationGrammar
import ApiShell.Proofs.Spec.Hint
import ApiShell.Proofs.Response.Body
import ApiShell.Proofs.Program.Refreshing
import ApiShell.Proofs.Cache.Sharing
