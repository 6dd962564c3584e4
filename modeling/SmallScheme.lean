import SmallScheme.Main
import SmallScheme.Proofs.TokenClass
import SmallScheme.Store.Equality
import SmallScheme.Store.Summary
import SmallScheme.Token.Cursor
import SmallScheme.Proofs.Positional
import SmallScheme.Proofs.TokenText
import SmallScheme.Proofs.LongestMatch
import SmallScheme.Proofs.Grammar
import SmallScheme.Proofs.GrammarReading
import SmallScheme.Proofs.Spine
import SmallScheme.Proofs.Drawing
import SmallScheme.Proofs.Comparing
import SmallScheme.Proofs.Unfolding
import SmallScheme.Proofs.PrintedText
import SmallScheme.Proofs.RoundTrip
import SmallScheme.Proofs.PrintingError
import SmallScheme.Proofs.Role
import SmallScheme.Proofs.Consultation
import SmallScheme.Proofs.Deed
import SmallScheme.Proofs.Discipline
import SmallScheme.Proofs.PrimitiveRules
import SmallScheme.Proofs.DerivedRules
import SmallScheme.Proofs.EvalRules
import SmallScheme.Proofs.Calls
import SmallScheme.Proofs.Encapsulation
import SmallScheme.Proofs.Session
import SmallScheme.Proofs.Separation
import SmallScheme.Proofs.ProgramText
import SmallScheme.Proofs.StoreReading
import SmallScheme.Proofs.Evolution
import SmallScheme.Proofs.Actions
import SmallScheme.Proofs.Nesting
import SmallScheme.Proofs.Soundness
import SmallScheme.Proofs.Abridgement
import SmallScheme.Proofs.AbridgedPrimitives
import SmallScheme.Proofs.AbridgedEval
import SmallScheme.Proofs.StrictReads
import SmallScheme.Proofs.LargerLimits
import SmallScheme.Proofs.NextLine
import SmallScheme.Proofs.ByCalls
import SmallScheme.Proofs.Tracing
import SmallScheme.Proofs.Access
import SmallScheme.Proofs.AccessEval
import SmallScheme.Proofs.Counters
import SmallScheme.Proofs.Cutting
import SmallScheme.Proofs.Descent
import SmallScheme.Proofs.ByPrints
import SmallScheme.Proofs.ByPrintsEval
import SmallScheme.Proofs.NativeStores
import SmallScheme.Proofs.OrdinaryErrors
import SmallScheme.Proofs.ActiveCells
import SmallScheme.Proofs.Renaming
import SmallScheme.Proofs.RenamedReading
import SmallScheme.Proofs.Chains
import SmallScheme.Proofs.Repetition
import SmallScheme.Proofs.RepeatedPrimitives
import SmallScheme.Proofs.RepeatedEval
import SmallScheme.Proofs.Imitation
import SmallScheme.Proofs.FreshNodes
import SmallScheme.Proofs.CondMeaning
import SmallScheme.Proofs.LetMeaning
import SmallScheme.Proofs.LoadedAhead
import SmallScheme.Proofs.LineByLine
import SmallScheme.Proofs.Trimming
import SmallScheme.Proofs.Loop
import SmallScheme.Proofs.AllOrNothing
import SmallScheme.Proofs.Layout
import SmallScheme.Proofs.Scoping
import SmallScheme.Proofs.FormShapes
import SmallScheme.Proofs.MalformedForms
import SmallScheme.Proofs.NumberTokens
import SmallScheme.Proofs.NumberProcedures
import SmallScheme.Proofs.Execution
import SmallScheme.Proofs.Coordinates
import SmallScheme.Proofs.TokenRequests
import SmallScheme.Proofs.Complaints
import SmallScheme.Proofs.GrowingStores
import SmallScheme.Proofs.Recursion
