import ParallelFilter.Main
import ParallelFilter.Multiplexer.Timeline
import ParallelFilter.Proofs.Accounts
import ParallelFilter.Proofs.History
import ParallelFilter.Proofs.Books
import ParallelFilter.Proofs.Closing
import ParallelFilter.Proofs.Delivery
import ParallelFilter.Proofs.Outcome
import ParallelFilter.Proofs.Progress
import ParallelFilter.Proofs.Undisturbed
import ParallelFilter.Pool.Refusal
import ParallelFilter.Proofs.Discipline
import ParallelFilter.Proofs.Tiling
import ParallelFilter.Proofs.Tracking
import ParallelFilter.Proofs.Shares
import ParallelFilter.Proofs.ExactlyOnce
import ParallelFilter.Proofs.Verdict
import ParallelFilter.Proofs.Scheduling
import ParallelFilter.Proofs.SingleThread
import ParallelFilter.Proofs.Running
import ParallelFilter.Proofs.Liveness
import ParallelFilter.Proofs.Blame
import ParallelFilter.Proofs.FailFast
import ParallelFilter.Proofs.Agreement
import ParallelFilter.Multiplexer.Traffic
import ParallelFilter.Proofs.Arrays
import ParallelFilter.Proofs.Lanes
import ParallelFilter.Proofs.Sweeps
import ParallelFilter.Proofs.Traffic
import ParallelFilter.Proofs.Runs
import ParallelFilter.Fleet
import ParallelFilter.Proofs.Summons
import ParallelFilter.Proofs.Isolation
import ParallelFilter.ResultChannel.Life
import ParallelFilter.Proofs.Draining
import ParallelFilter.Proofs.Baseline
import ParallelFilter.Command.Demonstration
import ParallelFilter.Proofs.Senders
import ParallelFilter.Proofs.Demonstration
import ParallelFilter.Proofs.Multiplexing
import ParallelFilter.Proofs.Aftermath
import ParallelFilter.Proofs.SizeHints
import ParallelFilter.Proofs.Stint
import ParallelFilter.Proofs.WindingDown
import ParallelFilter.Proofs.Promptness
import ParallelFilter.Proofs.Backpressure
import ParallelFilter.Proofs.Disconnection
import ParallelFilter.Proofs.Resumption
import ParallelFilter.Proofs.Mishaps
import ParallelFilter.Proofs.InTurn
import ParallelFilter.Barrier.Gathering
import ParallelFilter.Proofs.Allotment
import ParallelFilter.Proofs.Waking
import ParallelFilter.Proofs.Fairness
import ParallelFilter.Proofs.Rounds
import ParallelFilter.Proofs.RoundRobin
import ParallelFilter.Multiplexer.Arrivals
import ParallelFilter.Proofs.Words
import ParallelFilter.Proofs.Launching
import ParallelFilter.Proofs.Patience
import ParallelFilter.Proofs.IdleTicks
import ParallelFilter.Proofs.GivingWay
import ParallelFilter.Proofs.Legibility
