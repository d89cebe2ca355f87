import EvmTrace.CommandLine
import EvmTrace.GenesisReport
import EvmTrace.Session
import EvmTrace.Proofs.Consumer
import EvmTrace.Proofs.Delivery
import EvmTrace.Proofs.Lines
import EvmTrace.Proofs.Speculation
import EvmTrace.Proofs.Ensemble
import EvmTrace.Proofs.Hosting
import EvmTrace.Proofs.Lending
import EvmTrace.Proofs.Nesting
import EvmTrace.Proofs.Numbering
import EvmTrace.Proofs.Reuse
import EvmTrace.Proofs.Renewal
import EvmTrace.Proofs.Relay
import EvmTrace.Proofs.Scripts
import EvmTrace.Proofs.Progress
import EvmTrace.Proofs.Layout
import EvmTrace.Proofs.Boundaries
import EvmTrace.Proofs.Brackets
import EvmTrace.Proofs.Leftovers
import EvmTrace.Proofs.AccessLists
import EvmTrace.Proofs.Comparisons
import EvmTrace.Proofs.Rendering
import EvmTrace.Proofs.PayloadReaders
import EvmTrace.Proofs.Transcripts
import EvmTrace.Proofs.Fees
import EvmTrace.Proofs.Failures
import EvmTrace.Proofs.GasChanges
import EvmTrace.Proofs.SavedSettings
import EvmTrace.Proofs.Handouts
import EvmTrace.Proofs.Telling
import EvmTrace.Proofs.Grammar
import EvmTrace.Proofs.Skipping
import EvmTrace.Proofs.SettingsTexts
import EvmTrace.Proofs.Options
import EvmTrace.Proofs.Layers
import EvmTrace.Proofs.CallNumbers
import EvmTrace.Proofs.HexBlocks
import EvmTrace.Proofs.Magnitudes
import EvmTrace.Proofs.BrokenStreams
