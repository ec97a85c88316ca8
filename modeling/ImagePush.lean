import ImagePush.Main
import ImagePush.Push.Script
import ImagePush.Workbench.Host
import ImagePush.Workbench.Rules
import ImagePush.Proofs.Push.Outcome
import ImagePush.Proofs.StateValue.RoundTrip
import ImagePush.Proofs.Artifact.RoundTrip
import ImagePush.Proofs.Push.Rerun
import ImagePush.Proofs.Push.Divergence
import ImagePush.Proofs.Push.GivenUp
import ImagePush.Proofs.Push.Release
import ImagePush.Program.Script
import ImagePush.Proofs.Push.Lockstep
import ImagePush.Proofs.Program.Acts
import ImagePush.Proofs.Program.Scratch
import ImagePush.Proofs.Program.Inputs
import ImagePush.Proofs.Program.Secrets
import ImagePush.Proofs.Push.Shapes
import ImagePush.Proofs.Artifact.Nesting
import ImagePush.Proofs.Push.Stored
import ImagePush.Proofs.Program.Record
import ImagePush.Proofs.Text.Base64
import ImagePush.Proofs.Text.Search
import ImagePush.Proofs.Registry.Token
import ImagePush.Proofs.Registry.Address
import ImagePush.Proofs.Engine.Process
import ImagePush.Proofs.Json.Grammar
import ImagePush.Proofs.Json.NumberTexts
import ImagePush.Proofs.Json.Reads
import ImagePush.Proofs.Json.Language
import ImagePush.Proofs.Json.Passing
import ImagePush.Proofs.Artifact.Members
import ImagePush.Proofs.Artifact.Spellings
import ImagePush.Proofs.Config.Members
import ImagePush.Proofs.Config.Spellings
import ImagePush.Proofs.Config.Layers
import ImagePush.Proofs.Program.Names
import ImagePush.Proofs.Program.Verbosity
import ImagePush.Proofs.Engine.Requests
import ImagePush.Proofs.Registry.Domain
import ImagePush.Proofs.CommandLine.Rendering
import ImagePush.Proofs.Push.Integers
