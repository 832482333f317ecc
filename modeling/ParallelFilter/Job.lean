import ParallelFilter.Error
import ParallelFilter.Predicate

/-! Jobs: filter `[0, total)` with a predicate on so many workers. -/

namespace ParallelFilter

structure Job where
  total : Nat
  workers : Nat
  predicate : Predicate
  workers_pos : 0 < workers
  workers_le : workers ≤ maxWorkers

namespace Job

/-- A job, refused if its worker count is. -/
def make (total workers : Nat) (predicate : Predicate) : Except Error Job :=
  match h : checkWorkers workers with
  | .ok () => .ok ⟨total, workers, predicate, (checkWorkers_eq_ok.1 h).1, (checkWorkers_eq_ok.1 h).2⟩
  | .error error => .error error

def text (job : Job) : String :=
  "Job \x7b total: " ++ toString job.total ++ ", worker_count: " ++ toString job.workers ++
    ", .. \x7d"

end Job

end ParallelFilter
