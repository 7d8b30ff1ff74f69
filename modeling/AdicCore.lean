import AdicCore.Finality.StreamingEquivalence
import AdicCore.Finality.CachedAnalysis
import AdicCore.Economics.LockedFunds
import AdicCore.Economics.HistoryAgreement
import AdicCore.Economics.SupplyCover
import AdicCore.Economics.RollbackIsolation
import AdicCore.Storage.ArrivalOrder
import AdicCore.Storage.SnapshotLoss
import AdicCore.AppCommon.EscrowSettlement
import AdicCore.StorageMarket.ProofSoundness
import AdicCore.StorageMarket.ProvenEpochs
import AdicCore.AppCommon.StrictFinality
import AdicCore.Vrf.Agreement
import AdicCore.Governance.WholeEnactment
import AdicCore.Pouw.AcceptedWork
import AdicCore.Pouw.HonestWork
import AdicCore.Pouw.FinalVerdicts
import AdicCore.Pouw.TaskLifecycle
import AdicCore.Crypto.DkgVerification
import AdicCore.Network.VoteOrder
import AdicCore.Network.UpdateIntegrity
import AdicCore.Mrw.ParentRules
import AdicCore.Consensus.EnergyDescent
import AdicCore.Economics.GenesisAllocation
import AdicCore.Economics.TreasuryProposals
import AdicCore.Economics.HistoryPages
import AdicCore.Storage.PrefixSets
import AdicCore.Storage.IncrementalSync
import AdicCore.Storage.DagDeletion
import AdicCore.Pouw.SignedReceipts
import AdicCore.Governance.FinalizationRetry
import AdicCore.Governance.AttestationBinding
import AdicCore.Pouw.ReputationBudget
import AdicCore.Pouw.Disputes
import AdicCore.Network.Gossip
import AdicCore.Pouw.WorkerSelection
import AdicCore.Node.TrustDecay
import AdicCore.Node.StrandedDeposits
import AdicCore.Node.TransferAuthority
import AdicCore.Finality.CheckpointBinding
import AdicCore.Finality.ChunkedReduction
import AdicCore.Finality.KCoreRounds
import AdicCore.Finality.RefundedPending
import AdicCore.Governance.AxisWeights
import AdicCore.Governance.ConflictResolution
import AdicCore.Finality.F2Finality
import AdicCore.Math.Distance
import AdicCore.Consensus.ScoreGate
import AdicCore.Types.CanonicalForm
import AdicCore.Finality.Filtration
import AdicCore.StorageMarket.Termination
import AdicCore.StorageMarket.CompileAtomicity
import AdicCore.StorageMarket.ChallengeArithmetic
import AdicCore.StorageMarket.ActivationRuns
import AdicCore.Challenges.Adjudication
import AdicCore.Quorum.Selection
import AdicCore.Economics.LedgerTotal
