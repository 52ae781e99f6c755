import LoadHarness.Failure.Operation

/-!
# The backend that lives in memory

It stores nothing. It hands out handles, counts what is done with them, and can be told to refuse
a number of acquisitions before the first handle and to fail the next commit of a handle.
-/

namespace LoadHarness

/-- What has been done with the handles of a provider. -/
structure MemoryStats where
  acquired : UInt64
  committed : UInt64
  rolledBack : UInt64
  closed : UInt64
  refused : UInt64
deriving DecidableEq, Repr, Inhabited

namespace MemoryStats

def zero : MemoryStats := ⟨0, 0, 0, 0, 0⟩

/-- Handles that have not been closed yet. -/
def opened (s : MemoryStats) : UInt64 := s.acquired - s.closed

end MemoryStats

structure MemoryProvider where
  /-- Acquisitions to refuse before the first handle. -/
  refuseFirst : UInt64
  stats : MemoryStats
deriving DecidableEq, Repr, Inhabited

namespace MemoryProvider

def refusing (n : UInt64) : MemoryProvider := ⟨n, .zero⟩

/-- How a refused acquisition fails. -/
def refusal : OperationError := .connection "connection refused"

/-- Opens a handle, unless it is still refusing. -/
def acquire (p : MemoryProvider) : Except OperationError Unit × MemoryProvider :=
  if p.stats.refused < p.refuseFirst then
    (.error refusal, { p with stats.refused := p.stats.refused + 1 })
  else (.ok (), { p with stats.acquired := p.stats.acquired + 1 })

def committed (p : MemoryProvider) : MemoryProvider :=
  { p with stats.committed := p.stats.committed + 1 }

def rolledBack (p : MemoryProvider) : MemoryProvider :=
  { p with stats.rolledBack := p.stats.rolledBack + 1 }

def closed (p : MemoryProvider) : MemoryProvider :=
  { p with stats.closed := p.stats.closed + 1 }

end MemoryProvider

/-- A handle: the error that its next commit is to fail with. -/
structure MemoryHandle where
  failCommit : Option OperationError
deriving DecidableEq, Repr, Inhabited

namespace MemoryHandle

/-- Commits, or fails once with the error it was given. -/
def commit (h : MemoryHandle) (p : MemoryProvider) :
    Except OperationError Unit × MemoryHandle × MemoryProvider :=
  match h.failCommit with
  | some e => (.error e, ⟨none⟩, p)
  | none => (.ok (), h, p.committed)

end MemoryHandle

end LoadHarness
