import ParallelFilter.Partition

/-! What can be tuned about a job's run, with the defaults and the check that is made before anything
is started. -/

namespace ParallelFilter

structure Settings where
  /-- How many accepted values the result channel holds before workers have to wait. -/
  capacity : Nat := 1000
  /-- Whether the first fault of a worker cancels the job. -/
  failFast : Bool := false
  strategy : Strategy := .truncate
  /-- After how many evaluations a worker gives way to the others. -/
  yieldInterval : Nat := 1024
  deriving DecidableEq

namespace Settings

/-- The capacity is looked at before the yield interval. -/
def validate (settings : Settings) : Except Error Unit :=
  if settings.capacity = 0 then .error (.invalidArgument .noCapacity)
  else if settings.yieldInterval = 0 then .error (.invalidArgument .noYieldInterval)
  else .ok ()

theorem validate_eq_ok {settings : Settings} :
    settings.validate = .ok () ↔ 0 < settings.capacity ∧ 0 < settings.yieldInterval := by
  unfold validate
  split
  · simp [*]
  · split <;> simp <;> omega

end Settings

end ParallelFilter
