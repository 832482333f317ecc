import ParallelFilter.Predicate

/-! Cancellation tokens. The jobs of a pool have a token each, below the pool's own: cancelling a job
stops that job only, cancelling the pool stops every job, those that start later included. -/

namespace ParallelFilter

/-- A job's token together with the pool's token above it. -/
structure Token where
  job : Bool := false
  pool : Bool := false
  deriving DecidableEq

namespace Token

def isCancelled (token : Token) : Bool :=
  token.job || token.pool

def cancel (token : Token) : Scope → Token
  | .job => { token with job := true }
  | .pool => { token with pool := true }

def cancel? (token : Token) : Option Scope → Token
  | some scope => token.cancel scope
  | none => token

end Token

/-- The token of a pool and those of the jobs below it, in the order in which they were made. -/
structure TokenTree where
  pool : Bool := false
  jobs : Array Bool := #[]

namespace TokenTree

/-- A job's token starts uncancelled by itself, whatever became of the pool. -/
def addJob (tree : TokenTree) : TokenTree :=
  { tree with jobs := tree.jobs.push false }

/-- Cancels one job; nothing happens when there is no such job. -/
def cancelJob (tree : TokenTree) (job : Nat) : TokenTree :=
  { tree with jobs := tree.jobs.modify job fun _ => true }

def cancelPool (tree : TokenTree) : TokenTree :=
  { tree with pool := true }

/-- Which jobs are cancelled, by themselves or with the pool. -/
def cancelledJobs (tree : TokenTree) : List Bool :=
  tree.jobs.toList.map fun job => (Token.mk job tree.pool).isCancelled

end TokenTree

end ParallelFilter
