import Phrasebook.Inspect
import Phrasebook.Context.History
import Phrasebook.Document.Records
import Phrasebook.Storage.Memory
import Phrasebook.Main
import Phrasebook.Proofs.Template.Encoding
import Phrasebook.Proofs.Template.Scanning
import Phrasebook.Proofs.Storage.Listing
import Phrasebook.Proofs.LocaleTable.Sequence
import Phrasebook.Proofs.LocaleTable.Isolation
import Phrasebook.Proofs.Context.Steps
import Phrasebook.Proofs.Context.Coherence
import Phrasebook.Proofs.Context.Activation
import Phrasebook.Proofs.Context.Erasure
import Phrasebook.Proofs.Context.Snapshot
import Phrasebook.Proofs.Context.Frozen
import Phrasebook.Proofs.Context.Unchanging
import Phrasebook.Proofs.Context.Availability
import Phrasebook.Proofs.Document.InPlace
import Phrasebook.Proofs.Document.Copying
import Phrasebook.Proofs.Plural.Forms
import Phrasebook.Proofs.Plural.Stability
import Phrasebook.Proofs.Locale.Written
import Phrasebook.Proofs.Locale.Spelling
import Phrasebook.Proofs.Locale.Detection
import Phrasebook.Proofs.Locale.Merging
import Phrasebook.Proofs.Storage.Consistency
import Phrasebook.Proofs.LocaleTable.Listed
import Phrasebook.Proofs.LocaleTable.Mentions
import Phrasebook.Proofs.LocaleTable.Available
import Phrasebook.Proofs.Plural.Reports
import Phrasebook.Proofs.Document.Partial
import Phrasebook.Proofs.Document.Records
import Phrasebook.Proofs.Json.Objects
import Phrasebook.Proofs.Json.Numerals
import Phrasebook.Proofs.Json.Documents
import Phrasebook.Proofs.StringTable.Edits
import Phrasebook.Proofs.Locale.Tags
import Phrasebook.Proofs.Plural.Agreement
import Phrasebook.Proofs.Plural.Registrations
import Phrasebook.Proofs.Locale.TagTexts
import Phrasebook.Proofs.Plural.Lookups
import Phrasebook.Proofs.Locale.Precedence
import Phrasebook.Proofs.Command.Configuration
import Phrasebook.Proofs.Command.Output
