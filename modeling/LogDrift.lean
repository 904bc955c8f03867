import LogDrift.Change.Record
import LogDrift.Change.UnifiedDiff
import LogDrift.Decimal.Reader
import LogDrift.Double.Nearest
import LogDrift.Error
import LogDrift.Java.Declarations
import LogDrift.Java.Methods
import LogDrift.Java.Program
import LogDrift.Java.Token
import LogDrift.Java.Types
import LogDrift.Json.Skip
import LogDrift.Matching.Calls
import LogDrift.Matching.Methods
import LogDrift.Method
import LogDrift.Proofs.Acceptance
import LogDrift.Proofs.AddedLines
import LogDrift.Proofs.Assignments
import LogDrift.Proofs.CallMatching
import LogDrift.Proofs.CanonicalOnce
import LogDrift.Proofs.CommitTotals
import LogDrift.Proofs.CommonFraction
import LogDrift.Proofs.CommonSubsequence
import LogDrift.Proofs.Distance
import LogDrift.Proofs.Division
import LogDrift.Proofs.DocumentOrder
import LogDrift.Proofs.DoubleOrder
import LogDrift.Proofs.EditScript
import LogDrift.Proofs.ExactMatch
import LogDrift.Proofs.FirstFit
import LogDrift.Proofs.IdentityBytes
import LogDrift.Proofs.KindCounts
import LogDrift.Proofs.LaidOut
import LogDrift.Proofs.Lexemes
import LogDrift.Proofs.LetterCase
import LogDrift.Proofs.Mentions
import LogDrift.Proofs.MethodMatching
import LogDrift.Proofs.MethodPasses
import LogDrift.Proofs.MethodPaths
import LogDrift.Proofs.MethodPriority
import LogDrift.Proofs.MethodReversal
import LogDrift.Proofs.Migration
import LogDrift.Proofs.MutualBest
import LogDrift.Proofs.PairTable
import LogDrift.Proofs.ParameterLists
import LogDrift.Proofs.Patch
import LogDrift.Proofs.Positions
import LogDrift.Proofs.ReadBack
import LogDrift.Proofs.RecordShapes
import LogDrift.Proofs.Regrouping
import LogDrift.Proofs.Rounding
import LogDrift.Proofs.Scan
import LogDrift.Proofs.SeparateGroups
import LogDrift.Proofs.SetAside
import LogDrift.Proofs.StatementOwners
import LogDrift.Proofs.StoreIntegrity
import LogDrift.Proofs.StoreRun
import LogDrift.Proofs.StoredTotals
import LogDrift.Proofs.Threshold
import LogDrift.Proofs.TwoRows
import LogDrift.Proofs.UnchangedLogging
import LogDrift.Proofs.UpdateDetail
import LogDrift.Proofs.UpperPairs
import LogDrift.Proofs.VisitedMethods
import LogDrift.Report
import LogDrift.Settings
import LogDrift.Sources
import LogDrift.Store.Directory
import LogDrift.Store.Identity
import LogDrift.Text.Blank
import LogDrift.Text.Canonical
import LogDrift.Text.CaseFold
import LogDrift.Text.Hidden
import LogDrift.Text.Quoted
import LogDrift.Text.Similarity
import LogDrift.Text.Word
