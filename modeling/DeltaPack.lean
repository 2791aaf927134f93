import DeltaPack.Config.File
import DeltaPack.OneShot
import DeltaPack.Precoded.Summary.Json
import DeltaPack.Proofs.Json.RoundTrip
import DeltaPack.Proofs.Lz4.Recorded
import DeltaPack.Proofs.OneShot.Machine
import DeltaPack.Proofs.OneShot.Refusal
import DeltaPack.Proofs.Pack.Lossless
import DeltaPack.Proofs.Pack.Outcome
import DeltaPack.Proofs.Pack.Threshold
import DeltaPack.Proofs.Precoded.Extremes
import DeltaPack.Proofs.Precoded.Format
import DeltaPack.Proofs.Precoded.Miscount
import DeltaPack.Proofs.Precoded.Optimal
import DeltaPack.Proofs.Precoded.Stop
import DeltaPack.Proofs.Session
import DeltaPack.Session
import DeltaPack.Version
