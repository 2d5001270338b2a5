import ImageRelay.Main
import ImageRelay.Proofs.Batch.Archives
import ImageRelay.Proofs.Batch.Notices
import ImageRelay.Proofs.Command.Push
import ImageRelay.Proofs.Engine.Messages
import ImageRelay.Proofs.Engine.Streams
import ImageRelay.Proofs.Command.Conclusion
import ImageRelay.Proofs.Batch.Live
import ImageRelay.Proofs.Command.Rehearsal
import ImageRelay.Proofs.Batch.Independence
import ImageRelay.Proofs.Batch.Secrecy
import ImageRelay.Proofs.Engine.Secrecy
import ImageRelay.Proofs.Command.Secrecy
import ImageRelay.Proofs.Batch.Retries
import ImageRelay.Proofs.Engine.Exports
import ImageRelay.Proofs.Engine.Lifetime
import ImageRelay.Proofs.Toml.Strings
import ImageRelay.Proofs.Toml.Tables
import ImageRelay.Proofs.Settings
import ImageRelay.Proofs.Batch.Interruption
import ImageRelay.Proofs.Image.Grammar
import ImageRelay.Proofs.Engine.Authorization
import ImageRelay.Proofs.Decimal.Shortest
import ImageRelay.Proofs.Image.Parts
import ImageRelay.Proofs.Registry.Distinct
import ImageRelay.Proofs.Version.Resolution
import ImageRelay.Proofs.Engine.Removed
import ImageRelay.Proofs.Registry.Collection
import ImageRelay.Proofs.Text.Lossy
import ImageRelay.Proofs.Engine.Diagnosis
import ImageRelay.Proofs.Cluster.Merging
import ImageRelay.Proofs.Files.Path
import ImageRelay.Proofs.Files.Directories
import ImageRelay.Proofs.Settings.Histories
import ImageRelay.Proofs.CommandLine.Overwriting
import ImageRelay.Proofs.Settings.Fields
