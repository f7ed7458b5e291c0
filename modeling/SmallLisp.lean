import SmallLisp.Main
import SmallLisp.Proofs.Frames
import SmallLisp.Proofs.RoundTrip
import SmallLisp.Proofs.Closures
import SmallLisp.Proofs.Renaming
import SmallLisp.Proofs.Lockstep
import SmallLisp.Proofs.Heap
import SmallLisp.Proofs.Mirror
import SmallLisp.Proofs.Irrelevance
import SmallLisp.Proofs.Joined
import SmallLisp.Proofs.Repetition
import SmallLisp.Proofs.Pending
import SmallLisp.Proofs.TokenClass
import SmallLisp.Proofs.Scope
import SmallLisp.Proofs.Termination
import SmallLisp.Proofs.Resumption
import SmallLisp.Proofs.Rereading
import SmallLisp.Proofs.Limit
import SmallLisp.Proofs.ShortCircuit
import SmallLisp.Proofs.Application
import SmallLisp.Proofs.Spacing
import SmallLisp.Proofs.History
import SmallLisp.Proofs.Script
import SmallLisp.Proofs.Identity
import SmallLisp.Proofs.Totals
import SmallLisp.Proofs.Ordering
import SmallLisp.Proofs.Comparison
import SmallLisp.Proofs.Equality
import SmallLisp.Proofs.Neighbours
import SmallLisp.Proofs.Sign
import SmallLisp.Proofs.Shape
import SmallLisp.Proofs.Recursion
import SmallLisp.Proofs.Sequence
