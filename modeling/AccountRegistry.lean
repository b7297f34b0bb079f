import AccountRegistry.Main
import AccountRegistry.Refusal
import AccountRegistry.Address.OfValue
import AccountRegistry.Lifecycle.Trial
import AccountRegistry.Scenario.Play
import AccountRegistry.Proofs.Address
import AccountRegistry.Proofs.AddressTable
import AccountRegistry.Proofs.Addresses
import AccountRegistry.Proofs.Configuration
import AccountRegistry.Proofs.Calls
import AccountRegistry.Proofs.Machine
import AccountRegistry.Proofs.Agreement
import AccountRegistry.Proofs.Representation
import AccountRegistry.Proofs.Ledger
import AccountRegistry.Proofs.System
import AccountRegistry.Proofs.ClosedSystem
import AccountRegistry.Proofs.OpenSystem
import AccountRegistry.Proofs.Refusals
import AccountRegistry.Proofs.PrivilegedWrites
import AccountRegistry.Proofs.ValidState
import AccountRegistry.Proofs.TableWrites
import AccountRegistry.Proofs.Nesting
import AccountRegistry.Proofs.GuardedCalls
import AccountRegistry.Proofs.Taxonomy
import AccountRegistry.Proofs.Racing
import AccountRegistry.Proofs.Kinds
import AccountRegistry.Proofs.FailedCalls
import AccountRegistry.Proofs.Requests
import AccountRegistry.Proofs.Resolution
import AccountRegistry.Proofs.Prediction
import AccountRegistry.Proofs.Completion
import AccountRegistry.Proofs.ResolutionOrder
import AccountRegistry.Proofs.SharedLedger
import AccountRegistry.Proofs.Writes
import AccountRegistry.Proofs.GenesisWrites
import AccountRegistry.Proofs.WritingCalls
import AccountRegistry.Proofs.Moments
import AccountRegistry.Proofs.WritingRuns
import AccountRegistry.Proofs.Authority
import AccountRegistry.Proofs.History
import AccountRegistry.Proofs.GenesisAttempts
import AccountRegistry.Proofs.SpecRanges
import AccountRegistry.Proofs.Startup
import AccountRegistry.Proofs.Preimages
import AccountRegistry.Proofs.Numerals
import AccountRegistry.Proofs.Rounding
import AccountRegistry.Proofs.Literals
import AccountRegistry.Proofs.Documents
import AccountRegistry.Proofs.SpecFormat
import AccountRegistry.Proofs.Spelling
import AccountRegistry.Proofs.JsonGrammar
import AccountRegistry.Proofs.SpecNumbers
import AccountRegistry.Proofs.Outcomes
import AccountRegistry.Proofs.Registration
import AccountRegistry.Proofs.GenesisOutcomes
import AccountRegistry.Proofs.SpecReports
import AccountRegistry.Proofs.SpecRepairs
import AccountRegistry.Proofs.Lifecycle
import AccountRegistry.Proofs.Precedence
import AccountRegistry.Proofs.WrittenAddresses
import AccountRegistry.Proofs.Settings
import AccountRegistry.Proofs.NativeReaders
import AccountRegistry.Proofs.FirstRequest
import AccountRegistry.Proofs.HexIntegers
import AccountRegistry.Proofs.WrittenValues
import AccountRegistry.Proofs.LogCalls
import AccountRegistry.Proofs.LogLevels
import AccountRegistry.Proofs.LogForms
