import Formulary.CommandLine
import Formulary.Main
import Formulary.Percentile
import Formulary.Workload
import Formulary.Proofs.Outcome
import Formulary.Proofs.WorkArea
import Formulary.Proofs.ListEvaluation
import Formulary.Proofs.StackRun
import Formulary.Proofs.Supply
import Formulary.Proofs.StackHeight
import Formulary.Proofs.Grammar
import Formulary.Proofs.Grammar.Spine
import Formulary.Proofs.Grammar.Unambiguous
import Formulary.Proofs.Grammar.Tree
import Formulary.Proofs.Grammar.Reading
import Formulary.Proofs.Parsing
import Formulary.Proofs.Meaning
import Formulary.Proofs.Components
import Formulary.Proofs.Code
import Formulary.Proofs.Compilation
import Formulary.Proofs.Agreement
import Formulary.Proofs.KernelRun
import Formulary.Proofs.KernelRefinement
import Formulary.Proofs.RealData
import Formulary.Proofs.Scanning
import Formulary.Proofs.Tiling
import Formulary.Proofs.Complaints
import Formulary.Proofs.Totality
import Formulary.Proofs.Doubles
import Formulary.Proofs.EqualKeys
import Formulary.Proofs.Origins
import Formulary.Proofs.Sessions
import Formulary.Proofs.CacheTransparency
import Formulary.Proofs.Replaying
import Formulary.Proofs.Spelling
import Formulary.Proofs.Readings
import Formulary.Proofs.Rounding
import Formulary.Proofs.ShortestDigits
import Formulary.Proofs.NumberTexts
import Formulary.Proofs.DisplayNames
import Formulary.Proofs.ImaginaryConstants
import Formulary.Proofs.Rereading
import Formulary.Proofs.ReadBack
import Formulary.Proofs.ErrorSpans
import Formulary.Proofs.Histories
import Formulary.Proofs.Usability
import Formulary.Proofs.PointLoop
import Formulary.Proofs.Dimensions
import Formulary.Proofs.StepByStep
import Formulary.Proofs.FormulaKernels
import Formulary.Proofs.WholeResults
import Formulary.Proofs.RecentKeys
import Formulary.Proofs.KeyEquivalence
import Formulary.Proofs.CacheAccounting
import Formulary.Proofs.Separation
import Formulary.Proofs.DeclaredReads
import Formulary.Proofs.ReplayMeaning
import Formulary.Proofs.ExactArithmetic
import Formulary.Proofs.TextMeaning
import Formulary.Proofs.OutputBuffers
import Formulary.Proofs.ExpectedKinds
import Formulary.Proofs.ReplayWidths
import Formulary.Proofs.SourceParts
import Formulary.Proofs.LogicalLaws
import Formulary.Proofs.VectorsInPlace
import Formulary.Proofs.TruthValues
import Formulary.Proofs.Literals
import Formulary.Proofs.Differences
import Formulary.Proofs.KernelParts
import Formulary.Proofs.ComparisonOrder
import Formulary.Proofs.SlotNames
import Formulary.Proofs.OrderStatistics
import Formulary.Proofs.Percentiles
