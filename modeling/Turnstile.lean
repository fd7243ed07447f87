import Turnstile.Bench
import Turnstile.Trial
import Turnstile.Proofs.Tables.Invariants
import Turnstile.Proofs.Tables.Failing
import Turnstile.Proofs.Tables.Invisible
import Turnstile.Proofs.Tables.Conservation
import Turnstile.Proofs.Tables.Draining
import Turnstile.Proofs.Tables.Erasing
import Turnstile.Proofs.Tables.Chances
import Turnstile.Proofs.Tables.Forgetting
import Turnstile.Proofs.Queue.Stale
import Turnstile.Proofs.Queue.Mapping
import Turnstile.Proofs.Queue.Waking
import Turnstile.Proofs.Random.Shares
import Turnstile.Proofs.Random.Ending
import Turnstile.Proofs.Random.Orbit
import Turnstile.Proofs.Kernel.Restoring
import Turnstile.Proofs.Kernel.Misuse
import Turnstile.Proofs.Simulation.Blocked
import Turnstile.Proofs.Simulation.Signalling
import Turnstile.Proofs.Simulation.Joining
import Turnstile.Proofs.Simulation.Punctual
import Turnstile.Proofs.Simulation.Dispatching
import Turnstile.Proofs.Simulation.Stranding
import Turnstile.Proofs.Simulation.Stopping
import Turnstile.Proofs.Layout
