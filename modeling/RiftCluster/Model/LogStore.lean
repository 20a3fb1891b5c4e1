import RiftCluster.Lib.RowOrder
import RiftCluster.Model.Machine

/-!
# The Raft log store

`RedbLogStore`: the entries in a table under their index, and the purge point in a row of
its own. Each call is one transaction. `KeptLog` is the log the calls are meant to keep: a
list of entries and the last purge point.
-/

namespace RiftCluster

open KV

/-- How the rows of the log store are written. -/
structure LogCodec where
  entry : Codec Entry
  /-- `LogMeta`. -/
  logMeta : Codec (Option LogId)
  entry_read : ∀ e, entry.read (entry.write e) = .ok e
  meta_read : ∀ m, logMeta.read (logMeta.write m) = .ok m

structure LogStore where
  log : Table ℕ String := ∅
  logMeta : Option String := none

/-- `std::ops::Bound`. -/
inductive Bound where
  | included (index : ℕ)
  | excluded (index : ℕ)
  | unbounded
  deriving DecidableEq, Repr

/-- The bound is not at the last `u64`. -/
def Bound.inside : Bound → Bool
  | .included x | .excluded x => x < u64Max
  | .unbounded => true

structure LogState where
  lastPurgedLogId : Option LogId
  lastLogId : Option LogId
  deriving DecidableEq, Repr

namespace LogStore

/-- Whether an index is from the start bound on, as the reader turns it for the table. -/
def fromStart : Bound → ℕ → Bool
  | .included x, index => x ≤ index
  | .excluded x, index => saturatingAdd x 1 ≤ index
  | .unbounded, _ => true

/-- Whether an index is before the end bound. -/
def beforeEnd : Bound → ℕ → Bool
  | .included x, index => index < saturatingAdd x 1
  | .excluded x, index => index < x
  | .unbounded, _ => true

variable (C : LogCodec)

/-- `try_get_log_entries`. -/
def tryGetLogEntries (s : LogStore) (lo hi : Bound) : Except String (List Entry) :=
  (s.log.toList.filter fun row => fromStart lo row.1 && beforeEnd hi row.1).mapM fun row => C.entry.read row.2

/-- The id in the last row of the log. -/
def lastRowId (s : LogStore) : Except String (Option LogId) :=
  match s.log.toList.getLast? with
  | none => .ok none
  | some row => do
    let entry ← C.entry.read row.2
    return some entry.logId

/-- `LogMeta.last_purged_log_id`, where the row is. -/
def purgedId (s : LogStore) : Except String (Option LogId) :=
  match s.logMeta with
  | none => .ok none
  | some row => C.logMeta.read row

/-- `get_log_state`. -/
def getLogState (s : LogStore) : Except String LogState := do
  let lastLogId ← s.lastRowId C
  let lastPurgedLogId ← s.purgedId C
  return { lastPurgedLogId, lastLogId := lastLogId.or lastPurgedLogId }

def append (s : LogStore) (entries : List Entry) : LogStore :=
  { s with log := entries.foldl (fun log e => log.insert e.logId.index (C.entry.write e)) s.log }

def truncate (s : LogStore) (logId : LogId) : LogStore :=
  { s with log := Table.retain s.log fun index _ => !(logId.index ≤ index) }

def purge (s : LogStore) (logId : LogId) : LogStore where
  log := Table.retain s.log fun index _ => !(index ≤ logId.index)
  logMeta := some (C.logMeta.write (some logId))

end LogStore

/-- A call of openraft that changes the log. -/
inductive LogCall where
  | append (entries : List Entry)
  | truncate (logId : LogId)
  | purge (logId : LogId)
  deriving DecidableEq, Repr

def LogStore.step (C : LogCodec) (s : LogStore) : LogCall → LogStore
  | .append entries => s.append C entries
  | .truncate logId => s.truncate logId
  | .purge logId => s.purge C logId

def LogStore.run (C : LogCodec) (calls : List LogCall) : LogStore := calls.foldl (LogStore.step C) {}

/-! ## The log it keeps -/

/-- A log: the entries that are retained, in the order they were appended, and the point
up to which it was purged last. -/
structure KeptLog where
  entries : List Entry := []
  purged : Option LogId := none
  deriving DecidableEq, Repr

namespace KeptLog

def step (l : KeptLog) : LogCall → KeptLog
  | .append entries => { l with entries := l.entries ++ entries }
  | .truncate logId => { l with entries := l.entries.filter fun e => e.logId.index < logId.index }
  | .purge logId => { entries := l.entries.filter fun e => logId.index < e.logId.index, purged := some logId }

def run (calls : List LogCall) : KeptLog := calls.foldl step {}

/-- The last retained entry, or the purge point when none remain. -/
def last (l : KeptLog) : Option LogId := (l.entries.getLast?.map Entry.logId).or l.purged

/-- Each entry has the index after the one before it. -/
def Contiguous (entries : List Entry) : Prop := entries.IsChain fun a b => b.logId.index = a.logId.index + 1

/-- What openraft's contract asks of a call: an append is contiguous, and goes on after the
last entry. -/
def Allows (l : KeptLog) : LogCall → Prop
  | .append entries => Contiguous entries ∧
      ∀ last ∈ l.last, ∀ first ∈ entries.head?, first.logId.index = last.index + 1
  | .truncate logId => ∀ purged ∈ l.purged, purged.index < logId.index
  | .purge _ => True

/-- The index is from the lower bound on. -/
def above : Bound → ℕ → Bool
  | .included x, index => x ≤ index
  | .excluded x, index => x < index
  | .unbounded, _ => true

/-- The index is up to the upper bound. -/
def below : Bound → ℕ → Bool
  | .included x, index => index ≤ x
  | .excluded x, index => index < x
  | .unbounded, _ => true

/-- The entries of a range of indexes. -/
def range (l : KeptLog) (lo hi : Bound) : List Entry :=
  l.entries.filter fun e => above lo e.logId.index && below hi e.logId.index

/-- Every call of a run is allowed where it is made. -/
def AllowsAll : KeptLog → List LogCall → Prop
  | _, [] => True
  | l, call :: calls => l.Allows call ∧ AllowsAll (l.step call) calls

end KeptLog

/-- What a call appends. -/
def LogCall.appended : LogCall → List Entry
  | .append entries => entries
  | _ => []

/-- The entry that was appended last at an index. -/
def lastAppended (calls : List LogCall) (index : ℕ) : Option Entry :=
  ((calls.flatMap LogCall.appended).filter fun e => e.logId.index = index).getLast?

def LogCall.purge? : LogCall → Option LogId
  | .purge logId => some logId
  | _ => none

/-- The point of the last purge. -/
def lastPurge (calls : List LogCall) : Option LogId := (calls.filterMap LogCall.purge?).getLast?

end RiftCluster
