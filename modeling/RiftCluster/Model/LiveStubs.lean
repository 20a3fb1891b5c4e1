import RiftCluster.Model.Engine

/-!
# The engine's stub list

What the engine documents of the calls `drive_patch` makes, on the list of one imposter. In
`Engine.stubStep` the calls are taken to do what the edit step does to the stored list; here each
is by itself, and how the engine finds a stub by its id is left open.
-/

namespace RiftCluster

/-- How the engine finds the slot of an id: one that carries it, if there is one. -/
structure StubIndex where
  find : List Stub → String → Option ℕ
  finds : ∀ {live id i}, find live id = some i → ∃ stub, live[i]? = some stub ∧ stub.id = some id
  misses : ∀ {live id}, find live id = none → ∀ stub ∈ live, stub.id ≠ some id

inductive StubError where
  | duplicateId (id : String)
  | unknownId (id : String)
  | outOfBounds (index : ℕ)
  deriving DecidableEq, Repr

/-- The index is clamped to the list; none is the end. -/
def addStub (live : List Stub) (stub : Stub) (index : Option ℕ) : Except StubError (List Stub) :=
  match stub.id with
  | some id =>
    if live.any fun s => s.id = some id then .error (.duplicateId id)
    else .ok (live.insertIdx (min (index.getD live.length) live.length) stub)
  | none => .ok (live.insertIdx (min (index.getD live.length) live.length) stub)

def deleteStub (live : List Stub) (index : ℕ) : Except StubError (List Stub) :=
  if index < live.length then .ok (live.eraseIdx index) else .error (.outOfBounds index)

def moveStub (live : List Stub) (src dst : ℕ) : Except StubError (List Stub) :=
  match live[src]? with
  | none => .error (.outOfBounds src)
  | some stub =>
    if dst < live.length then .ok ((live.eraseIdx src).insertIdx dst stub) else .error (.outOfBounds dst)

variable (E : StubIndex)

/-- The slot stays, and the id is the addressed one. -/
def replaceStubById (live : List Stub) (id : String) (stub : Stub) : Except StubError (List Stub) :=
  match E.find live id with
  | none => .error (.unknownId id)
  | some i => .ok (live.set i { stub with id := some id })

def deleteStubById (live : List Stub) (id : String) : Except StubError (List Stub) :=
  match E.find live id with
  | none => .error (.unknownId id)
  | some i => .ok (live.eraseIdx i)

/-- One step of `drive_patch`. -/
def drivePatchStep (live : List Stub) : StubEdit → Except StubError (List Stub)
  | .add stub index => addStub live stub index
  | .replaceById id stub => replaceStubById E live id stub
  | .deleteById id => deleteStubById E live id
  -- from the last one: each delete re-indexes what follows it
  | .deleteBySpace space => (doomed live space).reverse.foldlM deleteStub live
  | .move src dst => moveStub live src dst

/-- `drive_patch`, up to the first call that fails. -/
def drivePatch (live : List Stub) (edit : StubEditScript) : Except StubError (List Stub) := edit.foldlM (drivePatchStep E) live

/-- `apply_edit` on the list it is given: the steps go to a copy, which is written back when all
of them succeed. -/
def applyEditTo (U : Upstream) (stubs : List Stub) (edit : StubEditScript) : List Stub × Except String Unit :=
  match applyEdit U stubs edit with
  | .ok next => (next, .ok ())
  | .error reason => (stubs, .error reason)

end RiftCluster
