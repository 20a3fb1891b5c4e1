import RiftCluster.Lib.Trace

/-!
# Receiving an offered snapshot

`receive_snapshot` brings the working file `receiving-{id}` to the snapshot the leader offered.
It fetches from the length the file has, writes what arrives, and takes the file only if its
length and sha256 are the offered ones. Receives of one node run one at a time, so a run is a
list of attempts on one file.

The outside of an attempt is what its fetch answers at an offset and which operations on the
disk fail (`ReceiveIo`). An error carries what its text is made of.
-/

namespace RiftCluster

abbrev Bytes := List UInt8

/-- Whether the id can name a file in the snapshot directory. -/
def snapshotIdIsSafe (id : String) : Bool :=
  !id.isEmpty && id.toList.all fun c => c.isAlphanum || c == '-' || c == '_'

inductive ReceiveError where
  /-- `unusable snapshot id`. -/
  | unusableId (id : String)
  /-- `receiving snapshot {id}`, an operation on the disk failed. -/
  | io (id : String)
  /-- The fetch was refused. -/
  | refused (error : String)
  /-- The next chunk did not come in time. -/
  | timeout
  /-- `snapshot {id} fetch broke off`. -/
  | brokeOff (id error : String)
  /-- `snapshot {id} ended at {len} of {size} bytes`. -/
  | endedAt (id : String) (len size : ℕ)
  /-- `snapshot {id} arrived as {len} bytes with sha256 {actual}`, and what was offered. -/
  | mismatch (id : String) (len : ℕ) (actual : String) (size : ℕ) (digest : String)
  deriving DecidableEq, Repr

/-- How a body stops after its last chunk. -/
inductive BodyEnd where
  | ended
  | broke (error : String)
  /-- Nothing more within `FETCH_IDLE_TIMEOUT`. -/
  | idle
  deriving DecidableEq, Repr

/-- What a fetch streams. -/
structure Body where
  chunks : List Bytes
  stop : BodyEnd
  deriving DecidableEq, Repr

/-- The operations on the disk that succeed. -/
structure ReceiveIo where
  /-- `create_dir_all` and `open`. -/
  opens : Bool := true
  metadata : Bool := true
  setLen : Bool := true
  seek : Bool := true
  /-- A write, the flush or the sync failed, with that many of the fetched bytes in the file. -/
  torn : Option ℕ := none
  digest : Bool := true
  remove : Bool := true
  truncate : Bool := true
  deriving DecidableEq, Repr

/-- Nothing up to the digest fails. -/
def ReceiveIo.sound (io : ReceiveIo) : Bool :=
  io.opens && io.metadata && io.setLen && io.seek && io.torn.isNone && io.digest

structure ReceiveAttempt where
  fetch : ℕ → Except String Body
  io : ReceiveIo := {}

/-- What the leader offers. -/
structure SnapshotOffer where
  id : String
  size : ℕ
  digest : String
  deriving DecidableEq, Repr

/-- An attempt's outcome. -/
structure Received where
  /-- The working file after it. -/
  file : Option Bytes
  /-- The offset it fetched from. -/
  asked : Option ℕ
  result : Except ReceiveError Unit

/-- Remove a corrupt transfer, or empty it. -/
def discard (io : ReceiveIo) (bytes : Bytes) : Option Bytes :=
  if io.remove then none else if io.truncate then some [] else some bytes

/-- What a fetch writes, and how it ends. -/
def fetched (id : String) : Except String Body → Bytes × Except ReceiveError Unit
  | .error e => ([], .error (.refused e))
  | .ok body =>
    (body.chunks.flatten,
      match body.stop with
      | .ended => .ok ()
      | .broke e => .error (.brokeOff id e)
      | .idle => .error .timeout)

/-- The check of the file against the offer. -/
def settleReceived (sha256 : Bytes → String) (offer : SnapshotOffer) (io : ReceiveIo) (bytes : Bytes)
    (asked : Option ℕ) : Received :=
  if !io.digest then ⟨some bytes, asked, .error (.io offer.id)⟩
  else if bytes.length < offer.size then
    ⟨some bytes, asked, .error (.endedAt offer.id bytes.length offer.size)⟩
  else if bytes.length ≠ offer.size ∨ sha256 bytes ≠ offer.digest then
    ⟨discard io bytes, asked,
      .error (.mismatch offer.id bytes.length (sha256 bytes) offer.size offer.digest)⟩
  else ⟨some bytes, asked, .ok ()⟩

/-- The fetch of what is missing, from the held bytes on. -/
def fetchRest (sha256 : Bytes → String) (offer : SnapshotOffer) (held : Bytes) (a : ReceiveAttempt) : Received :=
  if held.length < offer.size then
    if !a.io.seek then ⟨some held, none, .error (.io offer.id)⟩
    else
      let (arrived, result) := fetched offer.id (a.fetch held.length)
      match a.io.torn, result with
      | some n, _ => ⟨some (held ++ arrived.take n), some held.length, .error (.io offer.id)⟩
      -- flushed all the same: what arrived is what the next attempt resumes from
      | none, .error e => ⟨some (held ++ arrived), some held.length, .error e⟩
      | none, .ok () => settleReceived sha256 offer a.io (held ++ arrived) (some held.length)
  else if a.io.torn.isSome then ⟨some held, none, .error (.io offer.id)⟩
  else settleReceived sha256 offer a.io held none

def receiveSnapshot (sha256 : Bytes → String) (offer : SnapshotOffer) (file : Option Bytes) (a : ReceiveAttempt) :
    Received :=
  if !snapshotIdIsSafe offer.id then ⟨file, none, .error (.unusableId offer.id)⟩
  else if !a.io.opens then ⟨file, none, .error (.io offer.id)⟩
  else
    -- opened with `create`
    let bytes := file.getD []
    if !a.io.metadata then ⟨some bytes, none, .error (.io offer.id)⟩
    else if offer.size < bytes.length then
      -- another transfer's leftover
      if !a.io.setLen then ⟨some bytes, none, .error (.io offer.id)⟩
      else fetchRest sha256 offer [] a
    else fetchRest sha256 offer bytes a

/-- The working file after the first `k` attempts, from no file. -/
def receivingAt (sha256 : Bytes → String) (offer : SnapshotOffer) (attempts : List ReceiveAttempt) (k : ℕ) :
    Option Bytes :=
  Trace.stateAt (fun file a => (receiveSnapshot sha256 offer file a).file) none attempts k

end RiftCluster
