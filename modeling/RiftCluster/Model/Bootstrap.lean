import RiftCluster.Model.Mutation

/-!
# The import of `--imposters`

`bootstrap_imposters`: each document is fetched and judged as a whole, then its
imposters are prepared and submitted one after another. The providers, the hash of
a document and the name-based UUIDs are functions; the leader wait and the answers
to the submits are what the fleet does.
-/

namespace RiftCluster

open Front (Scripts admitEntrySize)

/-- What a provider fetches, with whether it declares the blocks the bootstrap refuses. -/
structure SourceDocument where
  configs : List ImposterConfig
  intercept : Bool := false
  routes : Bool := false

inductive LeaderWait where
  | elected
  | timeout
  | shuttingDown
  deriving DecidableEq, Repr

/-- Why a bootstrap fails the start. -/
inductive BootstrapError where
  | retiredScheme (uri scheme : String)
  | unknownScheme (uri scheme : String) (schemes : List String)
  | unreadable (uri : String)
  | intercept (uri : String)
  | routes (uri : String)
  | unhashed (uri : String)
  | refusedByEngine (uri : String) (port : Option Port) (reason : String)
  | noPort (uri : String)
  | notReplicable (uri : String) (port : Port) (reason : String)
  | tooLarge (uri : String) (port : Port) (reason : String)
  | noLeader
  | shuttingDown
  | notSubmitted (uri : String) (port : Port)
  | refusedByCluster (uri : String) (port : Port) (reason : String)
  deriving DecidableEq, Repr

/-- Whether the refusal is decided on this node alone. -/
def BootstrapError.isLocal : BootstrapError → Bool
  | .noLeader | .shuttingDown | .notSubmitted _ _ | .refusedByCluster _ _ _ => false
  | _ => true

/-- The document a failure is about. -/
def BootstrapError.about : BootstrapError → Option String
  | .retiredScheme uri _ | .unknownScheme uri _ _ | .unreadable uri | .intercept uri | .routes uri | .unhashed uri
  | .refusedByEngine uri _ _ | .noPort uri | .notReplicable uri _ _ | .tooLarge uri _ _ | .notSubmitted uri _
  | .refusedByCluster uri _ _ => some uri
  | .noLeader | .shuttingDown => none

/-- `BOOTSTRAP_LEADER_DEADLINE`. -/
def bootstrapLeaderDeadlineSecs : ℕ := 30

def BootstrapError.text : BootstrapError → String
  | .retiredScheme uri scheme => s!"--imposters {uri}: the `{scheme}:` scheme was removed with tracking imposter " ++
      "sources (#549). Fetch the document yourself and pass it as a local file " ++
      "(`--imposters file:<path>`) or serve it over HTTP, or PUT the imposters through the admin API."
  | .unknownScheme uri scheme schemes => s!"--imposters {uri}: no source serves the `{scheme}:` scheme; this build reads " ++
      ", ".intercalate schemes
  | .unreadable uri => s!"reading --imposters {uri}"
  | .intercept uri => s!"--imposters {uri} declares an `intercept` block, which a clustered fleet cannot " ++
      "honour: intercept state is per-node and is not replicated"
  | .routes uri => s!"--imposters {uri} declares a `routes` block, which the bootstrap cannot honour: " ++
      "the front door's route table is its own replicated object. Remove the block and " ++
      "replicate the table with PUT /front-door/routes"
  | .unhashed uri => s!"hashing the document at --imposters {uri}"
  | .refusedByEngine uri port reason => s!"--imposters {uri}: imposter on port " ++ port.elim "(none)" toString ++
      s!" is refused by this engine: {reason}"
  | .noPort uri => s!"--imposters {uri} declares an imposter with no explicit port: an " ++
      "auto-assigned port cannot replicate, because every node would pick a different one"
  | .notReplicable uri port reason => s!"--imposters {uri}: imposter on port {port} is not replicable: {reason}"
  | .tooLarge uri port reason => s!"--imposters {uri}: imposter on port {port} is too large to replicate: {reason}"
  | .noLeader => s!"--imposters: no leader was reachable within {bootstrapLeaderDeadlineSecs}s, so the bootstrap " ++
      "could not submit anything. The fleet has no quorum, or this node has not joined one"
  | .shuttingDown => "--imposters: this node's raft core is shutting down, so the bootstrap could not " ++
      "submit anything. This says nothing about the rest of the fleet"
  | .notSubmitted uri port => s!"--imposters {uri}: submitting port {port}"
  | .refusedByCluster uri port reason => s!"--imposters {uri}: the cluster refused the imposter on port {port}: {reason}"

def retiredSourceSchemes : List String := ["git+https", "git+file", "git+ssh", "s3", "registry"]

/-- `eq_ignore_ascii_case`. -/
def eqIgnoreAsciiCase (a b : String) : Bool := a.toList.map Char.toLower == b.toList.map Char.toLower

def isRetiredSourceScheme (scheme : String) : Bool :=
  retiredSourceSchemes.any fun retired => eqIgnoreAsciiCase retired scheme

/-- What a bootstrap reads, and what the fleet answers it. -/
structure BootstrapHost where
  /-- `SourceRef::scheme`, of the URI. -/
  scheme : String → String
  /-- The provider of a scheme, if the registry has one. -/
  provider : String → Option (String → Option SourceDocument)
  schemes : List String
  /-- The SHA-256 of the canonical bytes, if the configs serialize. -/
  documentDigest : List ImposterConfig → Option String
  /-- `Uuid::new_v5` under `NAMESPACE_URL`. -/
  uuidV5 : String → String
  scripts : Scripts
  /-- The clock when the next request is minted, by the number already submitted. -/
  now : ℕ → ℕ
  awaitLeader : LeaderWait
  /-- The fleet's answer to a submit, by its number. -/
  submit : ℕ → ControlRequest → Except Unit ControlResponse

/-- How far a bootstrap is. -/
structure Bootstrap where
  leaderAwaited : Bool := false
  submitted : List ControlRequest := []

section Run

variable (U : Upstream) (H : BootstrapHost)

def BootstrapHost.bootstrapOpId (uri : String) (port : Port) (digest : String) : String :=
  H.uuidV5 s!"rift-cluster/bootstrap-imposter\n{uri}\n{port}\n{digest}"

/-- `admission_check` of every imposter of a document. -/
def admitDocument (uri : String) : List ImposterConfig → Except BootstrapError Unit
  | [] => .ok ()
  | config :: configs =>
    match U.admissionCheck config with
    | .error reason => .error (.refusedByEngine uri config.port reason)
    | .ok () => admitDocument uri configs

/-- The checks on a document as a whole: its imposters and its digest. -/
def BootstrapHost.readDocument (uri : String) : Except BootstrapError (List ImposterConfig × String) :=
  let scheme := H.scheme uri
  if isRetiredSourceScheme scheme then .error (.retiredScheme uri scheme)
  else
    match H.provider scheme with
    | none => .error (.unknownScheme uri scheme H.schemes)
    | some fetch =>
      match fetch uri with
      | none => .error (.unreadable uri)
      | some fetched =>
        if fetched.intercept then .error (.intercept uri)
        else if fetched.routes then .error (.routes uri)
        else
          match H.documentDigest fetched.configs with
          | none => .error (.unhashed uri)
          | some digest =>
            match admitDocument U uri fetched.configs with
            | .error e => .error e
            | .ok () => .ok (fetched.configs, digest)

/-- The request an imposter is submitted as, and the checks on it. -/
def BootstrapHost.prepare (uri digest : String) (now : ℕ) (config : ImposterConfig) :
    Except BootstrapError (Port × ControlRequest) :=
  match config.port with
  | none => .error (.noPort uri)
  | some port =>
    let request : ControlRequest :=
      { opId := H.bootstrapOpId uri port digest, issuedAtSecs := now, op := .putImposter config none }
    match validate U request.op with
    | .error reason => .error (.notReplicable uri port reason)
    | .ok () =>
      match admitEntrySize H.scripts request with
      | .error e => .error (.tooLarge uri port e)
      | .ok () => .ok (port, request)

def awaitBootstrapLeader : LeaderWait → Except BootstrapError Unit
  | .elected => .ok ()
  | .timeout => .error .noLeader
  | .shuttingDown => .error .shuttingDown

/-- One imposter of a document: prepared, the leader awaited if it is the first, and
submitted. -/
def BootstrapHost.importOne (uri digest : String) (b : Bootstrap) (config : ImposterConfig) :
    Bootstrap × Except BootstrapError Unit :=
  match H.prepare U uri digest (H.now b.submitted.length) config with
  | .error e => (b, .error e)
  | .ok (port, request) =>
    match if b.leaderAwaited then .ok () else awaitBootstrapLeader H.awaitLeader with
    | .error e => (b, .error e)
    | .ok () =>
      let after : Bootstrap := { leaderAwaited := true, submitted := b.submitted ++ [request] }
      match H.submit b.submitted.length request with
      | .error _ => (after, .error (.notSubmitted uri port))
      | .ok response =>
        match response.outcome with
        | .applied => (after, .ok ())
        | .failed reason => (after, .error (.refusedByCluster uri port reason))

/-- A loop that `?` leaves at the first error. -/
def untilError {σ α ε : Type} (f : σ → α → σ × Except ε Unit) : σ → List α → σ × Except ε Unit
  | s, [] => (s, .ok ())
  | s, a :: as =>
    match f s a with
    | (s', .error e) => (s', .error e)
    | (s', .ok ()) => untilError f s' as

def BootstrapHost.importDocument (b : Bootstrap) (uri : String) : Bootstrap × Except BootstrapError Unit :=
  match H.readDocument U uri with
  | .error e => (b, .error e)
  | .ok (configs, digest) => untilError (H.importOne U uri digest) b configs

def BootstrapHost.bootstrapImposters (refs : List String) : Bootstrap × Except BootstrapError Unit :=
  untilError (H.importDocument U) {} refs

end Run

end RiftCluster
