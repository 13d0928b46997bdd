import ScriptedActions.Agent.Manager
import ScriptedActions.Dispatch.State
import ScriptedActions.Logging.Installation
import ScriptedActions.Provider.ConfigFile
import ScriptedActions.Provider.Routing
import ScriptedActions.Script.Engine
import ScriptedActions.Script.LimitsRecord
import ScriptedActions.Proofs.Discipline
import ScriptedActions.Proofs.Calls
import ScriptedActions.Proofs.Accesses
import ScriptedActions.Proofs.Interpretation
import ScriptedActions.Proofs.Ledger
import ScriptedActions.Proofs.Dispatch
import ScriptedActions.Proofs.Table
import ScriptedActions.Proofs.ReplyShape
import ScriptedActions.Proofs.UndeclaredWrites
import ScriptedActions.Proofs.Deadlines
import ScriptedActions.Proofs.Catalog
import ScriptedActions.Proofs.Registration
import ScriptedActions.Proofs.Session
import ScriptedActions.Proofs.JsonGrammar
import ScriptedActions.Proofs.JsonReading
import ScriptedActions.Proofs.History
import ScriptedActions.Proofs.IntegerLiterals
import ScriptedActions.Proofs.Stages
import ScriptedActions.Proofs.Reuse
import ScriptedActions.Proofs.Payloads
import ScriptedActions.Proofs.Interruptions
import ScriptedActions.Proofs.Crowd
import ScriptedActions.Proofs.Marshalling
import ScriptedActions.Proofs.JsonAccepting
import ScriptedActions.Proofs.JsonPrinting
import ScriptedActions.Proofs.JsonReadBack
import ScriptedActions.Proofs.Decoding
import ScriptedActions.Proofs.JsonDepth
import ScriptedActions.Proofs.Decoded
import ScriptedActions.Proofs.Timestamps
import ScriptedActions.Proofs.RoundTrip
import ScriptedActions.Proofs.Aborts
import ScriptedActions.Proofs.Served
import ScriptedActions.Dispatch.Contexts
import ScriptedActions.Proofs.Contexts
import ScriptedActions.Proofs.JsonOutcomes
import ScriptedActions.Proofs.JsonNumbers
import ScriptedActions.Proofs.JsonMeaning
import ScriptedActions.Proofs.JsonOrder
import ScriptedActions.Proofs.DecodedOrder
import ScriptedActions.Proofs.DecodedOutcomes
import ScriptedActions.Proofs.RequestOrder
import ScriptedActions.Proofs.Confinement
import ScriptedActions.Proofs.Discovery
import ScriptedActions.Proofs.DiscoveryLog
import ScriptedActions.Proofs.HiddenDirectories
import ScriptedActions.Proofs.RunContexts
import ScriptedActions.Proofs.Halts
import ScriptedActions.Proofs.Failures
import ScriptedActions.Proofs.InvalidValues
import ScriptedActions.Proofs.Insertions
import ScriptedActions.Proofs.Offers
import ScriptedActions.Proofs.ReplyCopies
import ScriptedActions.Proofs.ScanLimits
import ScriptedActions.Proofs.ParseLimits
import ScriptedActions.Proofs.SyntaxLimits
import ScriptedActions.Proofs.Unlimited
import ScriptedActions.Proofs.NameRules
import ScriptedActions.Proofs.RequestText
import ScriptedActions.Proofs.SharedRegistry
import ScriptedActions.Proofs.AbortReports
