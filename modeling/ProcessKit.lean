import ProcessKit.Main
import ProcessKit.Technology.Schema
import ProcessKit.Proofs.Path
import ProcessKit.Proofs.Disk.Entries
import ProcessKit.Proofs.Disk.Ways
import ProcessKit.Proofs.Disk.Operations
import ProcessKit.Proofs.Cache.Layout
import ProcessKit.Proofs.Cache.Change
import ProcessKit.Proofs.Host.Crew
import ProcessKit.Proofs.Cache.Protocol
import ProcessKit.Proofs.Cache.Requests
import ProcessKit.Proofs.Cache.Safety
import ProcessKit.Proofs.Cache.Concurrency
import ProcessKit.Proofs.Technology.Resolution
import ProcessKit.Proofs.Cache.Alone
import ProcessKit.Proofs.Cache.Neighbours
import ProcessKit.Proofs.Cache.Sequence
import ProcessKit.Proofs.Cache.Settled
import ProcessKit.Proofs.Host.Ending
import ProcessKit.Proofs.Technology.Failures
import ProcessKit.Proofs.Technology.Availability
import ProcessKit.Proofs.Command.Selection
import ProcessKit.Proofs.Technology.Redirect
import ProcessKit.Proofs.Settings.Layers
import ProcessKit.Proofs.Host.Asking
import ProcessKit.Proofs.Command.Context
import ProcessKit.Proofs.Json.Decode
import ProcessKit.Proofs.Json.Schema
import ProcessKit.Proofs.Library.Encoding
import ProcessKit.Proofs.Technology.Document
import ProcessKit.Proofs.Json.Reader
import ProcessKit.Proofs.Yaml.Document
import ProcessKit.Proofs.Cache.Containment
import ProcessKit.Proofs.Technology.Reachability
import ProcessKit.Proofs.Technology.Loading
import ProcessKit.Proofs.Command.Resolving
import ProcessKit.Proofs.Cache.Staying
import ProcessKit.Proofs.Command.CacheDir
import ProcessKit.Proofs.Technology.Joining
import ProcessKit.Proofs.Cache.Staging
import ProcessKit.Proofs.Disk.Alike
import ProcessKit.Proofs.Cache.Retrying
import ProcessKit.Proofs.Cache.Publishing
import ProcessKit.Proofs.Json.Printer
import ProcessKit.Proofs.Library.Roundtrip
import ProcessKit.Proofs.Command.Listing
import ProcessKit.Proofs.Text.Order
import ProcessKit.Proofs.Settings.Flattening
import ProcessKit.Proofs.Toml.Value
import ProcessKit.Proofs.Settings.Scalars
import ProcessKit.Proofs.Cache.Resuming
import ProcessKit.Proofs.Disk.Growing
import ProcessKit.Proofs.Technology.Installs
import ProcessKit.Proofs.Command.Checking
import ProcessKit.Proofs.Technology.Messages
import ProcessKit.Proofs.Command.Search
import ProcessKit.Proofs.Json.Places
import ProcessKit.Proofs.Technology.Violations
import ProcessKit.Proofs.Text.Utf8
import ProcessKit.Proofs.Toml.Strings
import ProcessKit.Proofs.Toml.Printer
import ProcessKit.Proofs.Toml.Document
import ProcessKit.Proofs.Config.Rendering
