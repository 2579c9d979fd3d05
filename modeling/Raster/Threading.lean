import Raster.Error
/-!
# Threading

How the rows of a band may be shared out among worker threads. Rows are disjoint
stretches of memory and a row is never split, so the setting decides how fast a band is
drawn and never what is drawn. The one thing that can be wrong with it is a pool of no
threads.

A pool of one thread or more is assumed to be there whenever it is asked for. A system that
is short of threads can fail to build it, and the request is then refused like one for a
pool of no threads; that refusal depends on the system and is not part of this library.
-/

namespace Raster

/-- How rows are shared out. -/
structure Threading where
  /-- Whether rows are shared out at all. -/
  parallel : Bool
  /-- The size of a pool of its own, or none for the pool that is there anyway. -/
  threads : Option UInt64
  /-- The least number of rows given to a worker at once. -/
  minRowsPerTask : UInt64
  deriving DecidableEq

namespace Threading

/-- One after the other; and should rows be shared out, at least 16 at once. -/
instance : Inhabited Threading := ⟨⟨false, none, 16⟩⟩

/-- A pool of no threads can draw nothing. -/
def check (t : Threading) : Except Error Unit :=
  if t.threads = some 0 then .error .noThreads else .ok ()

theorem check_eq_ok_iff (t : Threading) : t.check = .ok () ↔ t.threads ≠ some 0 := by
  unfold check
  split <;> simp_all

def description (t : Threading) : Description :=
  .closed "BlitThreading" [("parallel", .bool t.parallel),
    ("threads", .optional (t.threads.map fun n => .nat n.toNat)),
    ("min_rows_per_task", .nat t.minRowsPerTask.toNat)]

end Threading

end Raster
