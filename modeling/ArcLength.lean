import ArcLength.Main
import ArcLength.Service
import ArcLength.Proofs.Simulation
import ArcLength.Proofs.Flatness
import ArcLength.Proofs.Itinerary
import ArcLength.Proofs.Stop
import ArcLength.Proofs.Answer
import ArcLength.Proofs.Reach
import ArcLength.Proofs.Continuity
import ArcLength.Proofs.Depth
import ArcLength.Proofs.Recurrence
import ArcLength.Proofs.Tracing
import ArcLength.Proofs.RoundTrip
import ArcLength.Proofs.Parametrization
import ArcLength.Proofs.Rectification
import ArcLength.Proofs.Straight
import ArcLength.Proofs.Tightening
import ArcLength.Proofs.Agreement
import ArcLength.Proofs.Anchoring
import ArcLength.Proofs.Unforeseen
import ArcLength.Proofs.Concatenation
import ArcLength.Proofs.Similarity
import ArcLength.Proofs.Reversal
import ArcLength.Proofs.Admission
import ArcLength.Proofs.Scan
import ArcLength.Proofs.Retracing
import ArcLength.Proofs.Heading
import ArcLength.Proofs.EndPoints
import ArcLength.Proofs.Roundness
import ArcLength.Proofs.Joints
import ArcLength.Proofs.Sampling
import ArcLength.Proofs.Invariants
