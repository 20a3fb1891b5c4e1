import RiftCluster.Model.Control

/-!
# Recorded stubs

The id a published recording's stub is given (`recordedId` reads it back), the
signatures an edit forgets (`orphanedRecordings`), and where a recorded stub is
placed in a stub list (`placeRecordedStub`).
-/

namespace RiftCluster

open KV

/-! ## Ids -/

def recordedStubIdPrefix : String := "proxy-recorded-"

/-- Split at the first occurrence of a pattern. -/
def splitOnce (pat : List Char) : List Char → Option (List Char × List Char)
  | [] => if pat.isEmpty then some ([], []) else none
  | c :: cs =>
    if pat.isPrefixOf (c :: cs) then some ([], (c :: cs).drop pat.length)
    else (splitOnce pat cs).map fun p => (c :: p.1, p.2)

def isAsciiDigit (c : Char) : Bool := '0' ≤ c && c ≤ '9'

/-- `parse::<u64>` on a non-empty string of digits. -/
def parseU64 (s : List Char) : Option ℕ :=
  let n := Nat.ofDigitChars 10 s 0
  if n < 2 ^ 64 then some n else none

def lowerHex (c : Char) : Bool := isAsciiDigit c || ('a' ≤ c && c ≤ 'f')

/-- The signature hash a list of characters names: a non-empty run of lowercase hex. -/
def sigHashOf (hash : List Char) (rank : ℕ) : Option (String × ℕ) :=
  if !hash.isEmpty && hash.all lowerHex then some (String.ofList hash, rank) else none

/-- A recorded stub id's signature hash and rank: `0` for the base id, `n` for
the suffix `-r{n}`. -/
def recordedId (id : String) : Option (String × ℕ) :=
  if recordedStubIdPrefix.toList.isPrefixOf id.toList then
    let rest := id.toList.drop recordedStubIdPrefix.toList.length
    match splitOnce ['-', 'r'] rest with
    | some (hash, n) =>
      if !n.isEmpty && n.all isAsciiDigit then (parseU64 n).bind (sigHashOf hash) else none
    | none => sigHashOf rest 0
  else none

def recordedSigHash (id : String) : Option String := (recordedId id).map Prod.fst

/-! ## Forgetting -/

/-- Take a stub into the scan: it replaces an older one of its family. -/
def noteRecording (newest : Table String (ℕ × Stub)) (stub : Stub) : Table String (ℕ × Stub) :=
  match stub.id.bind recordedId with
  | some (hash, rank) =>
    if newest[hash]?.all (fun seen => rank > seen.1) then newest.insert hash (rank, stub) else newest
  | none => newest

/-- The newest stub of each recorded family: the first one of the highest rank. -/
def newestRecordings (before : List Stub) : Table String (ℕ × Stub) := before.foldl noteRecording ∅

variable (U : Upstream)

/-- Whether a list still holds a stub of the same id and the same JSON value. -/
def keepsStub (after : List Stub) (stub : Stub) : Bool :=
  after.any fun s => s.id == stub.id && U.stubValue s == U.stubValue stub

/-- The signature hashes whose newest recorded stub an edit removed or changed. -/
def orphanedRecordings (before after : List Stub) : List String :=
  ((newestRecordings before).toList.filter fun kv => !keepsStub U after kv.2.2).map Prod.fst

/-! ## Placement -/

/-- What `place_recorded_stub` did, as the engine drive needs it. -/
inductive PlacedRecording where
  | inserted (index : ℕ)
  | mergedInto (index : ℕ) (id : String)
  | mergedAnonymous
  deriving DecidableEq, Repr

/-- The first index at or after `start` whose stub satisfies `p`. -/
def findFrom (stubs : List Stub) (start : ℕ) (p : Stub → Bool) : Option ℕ :=
  ((stubs.drop start).findIdx? p).map (start + ·)

def proxiesTo (proxyTo : String) (s : Stub) : Bool := s.responses.any (StubResponse.proxiesTo proxyTo)

/-- The stub a recording is placed relative to: the first at or after the index it
was read at that still proxies to its target, else the first that does at all. -/
def placementAnchor (stubs : List Stub) (proxyTo : String) (anchorIndex : Option ℕ) : Option ℕ :=
  (anchorIndex.bind fun start => findFrom stubs start (proxiesTo proxyTo)).or
    (stubs.findIdx? (proxiesTo proxyTo))

/-- The stub an `AfterProxyMerging` recording merges into. -/
def mergeTarget (stubs : List Stub) (stub : Stub) (proxyTo : String) (anchorIndex : Option ℕ) : Option ℕ :=
  findFrom stubs (((placementAnchor stubs proxyTo anchorIndex).map (· + 1)).getD 0)
    fun existing => existing.predicates == stub.predicates

def placeRecordedStub (stubs : List Stub) (stub : Stub) (placement : RecordedStubPlacement) (proxyTo : String)
    (anchorIndex : Option ℕ) : List Stub × PlacedRecording :=
  match placement with
  | .beforeProxy =>
    let index := (placementAnchor stubs proxyTo anchorIndex).getD stubs.length
    (stubs.insertIdx index stub, .inserted index)
  | .afterProxyMerging =>
    match mergeTarget stubs stub proxyTo anchorIndex with
    | some idx =>
      (stubs.modify idx fun s => { s with responses := s.responses ++ stub.responses },
        match (stubs[idx]?).bind Stub.id with
        | some id => .mergedInto idx id
        | none => .mergedAnonymous)
    | none => (stubs ++ [stub], .inserted stubs.length)

/-- The stub a recording stores: one without an id is given one, from the signature
hash alone, or with the applying log index when a stub of that hash is there. -/
def recordedStubValue (stubs : List Stub) (recorded : RecordedStub) (sigHash : String) (index : ℕ) : Stub :=
  match recorded.stub.id with
  | some _ => recorded.stub
  | none =>
    let base := recordedStubIdPrefix ++ sigHash
    let taken := stubs.any fun s => s.id.bind recordedSigHash == some sigHash
    { recorded.stub with id := some (if taken then base ++ "-r" ++ toString index else base) }

end RiftCluster
