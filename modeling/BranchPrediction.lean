import BranchPrediction.Describe
import BranchPrediction.Launch
import BranchPrediction.Proofs.Lines
import BranchPrediction.Proofs.Replacement
import BranchPrediction.Replacement.Scripted
import BranchPrediction.Store.Scripted
import BranchPrediction.Proofs.Insertion
import BranchPrediction.Proofs.Lru
import BranchPrediction.Proofs.Training
import BranchPrediction.Proofs.Coupling
import BranchPrediction.Proofs.Eviction
import BranchPrediction.Proofs.Recency
import BranchPrediction.Proofs.StackDistance
import BranchPrediction.Proofs.Aliases
import BranchPrediction.Proofs.Learning
import BranchPrediction.Proofs.Isolation
import BranchPrediction.Proofs.Inclusion
import BranchPrediction.Proofs.Totality
import BranchPrediction.Proofs.AnyStore
import BranchPrediction.Proofs.ByteOrder
import BranchPrediction.Proofs.Schema
import BranchPrediction.Proofs.Spelling
import BranchPrediction.Proofs.Tokens
import BranchPrediction.Proofs.RoundTrip
import BranchPrediction.Proofs.Setup
import BranchPrediction.Proofs.UsageOrder
import BranchPrediction.Proofs.FillOrder
import BranchPrediction.Proofs.Histories
import BranchPrediction.Proofs.Mispredictions
import BranchPrediction.Proofs.Patterns
import BranchPrediction.Proofs.Loops
import BranchPrediction.Proofs.Lifecycle
import BranchPrediction.Proofs.PolicyCalls
import BranchPrediction.Proofs.Validation
import BranchPrediction.Proofs.StrideLimit
