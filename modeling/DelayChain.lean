import DelayChain.Block.Wire
import DelayChain.Main
import DelayChain.Proofs.Audit
import DelayChain.Proofs.Production
import DelayChain.Proofs.Jacobi
import DelayChain.Proofs.ClaimedOutput
import DelayChain.Proofs.UniqueOutput
import DelayChain.Proofs.RequestBinding
import DelayChain.Proofs.Preimages
import DelayChain.Proofs.Agreement
import DelayChain.Proofs.Replay
import DelayChain.Proofs.ScheduleShape
import DelayChain.Proofs.FinalizedBlock
import DelayChain.Proofs.Intrusions
import DelayChain.Proofs.Repetition
import DelayChain.Proofs.Verdicts
import DelayChain.Proofs.RoundTrip
import DelayChain.Proofs.Race
import DelayChain.Proofs.WindowSpan
import DelayChain.Proofs.ProvingFailure
import DelayChain.Proofs.JacobiRounds
import DelayChain.Proofs.Folding
import DelayChain.Proofs.Payloads
import DelayChain.Proofs.ContentIds
import DelayChain.Proofs.CachedHashes
import DelayChain.Proofs.ProofLength
import DelayChain.Proofs.Transcripts
import DelayChain.Proofs.Cadence
import DelayChain.Proofs.Bounds
import DelayChain.Proofs.History
import DelayChain.Proofs.Linkage
import DelayChain.Proofs.Representatives
import DelayChain.Proofs.HalvingLoops
