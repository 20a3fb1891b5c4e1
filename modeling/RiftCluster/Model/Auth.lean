import RiftCluster.Lib.Frame
import RiftCluster.Model.Machine

/-!
# Authenticated requests between peers

`rpc/auth.rs`: every internal request carries `t=<unix_secs>,n=<nonce>,mac=<hex>`, a MAC
over its timestamp, nonce, method, path and body. `Verifier.verifyAt` is one call of
`verify_at`: it parses the header, checks the timestamp against the receiver's clock, then
the MAC, and last the nonce against the ones it has seen. The MAC is the parameter `tag`,
HMAC-SHA256 under the cluster's secret, as a function of the bytes it covers.
-/

namespace RiftCluster.Auth

open KV

/-- Why a credential is refused. -/
inductive AuthError
  | malformed | badMac | staleTimestamp | replayedNonce | nonceCacheFull
  deriving Repr, DecidableEq

/-! ## What is signed -/

/-- The bytes of a string. -/
def utf8 (s : String) : List UInt8 := s.toUTF8.data.toList

/-- The parts of a request that the MAC covers. Lengths are of the machine's `usize`. -/
structure SignedRequest where
  method : String
  path : String
  body : List UInt8
  method_fits : method.utf8ByteSize < 2 ^ 64
  path_fits : path.utf8ByteSize < 2 ^ 64
  body_fits : body.length < 2 ^ 64
  deriving DecidableEq

/-- What a key holder signs: a timestamp, a nonce and a request. -/
@[ext]
structure Signed where
  ts : ℕ
  nonce : String
  req : SignedRequest
  ts_lt : ts < 2 ^ 64
  nonce_fits : nonce.utf8ByteSize < 2 ^ 64

instance : DecidableEq Signed := fun _ _ => decidable_of_iff _ Signed.ext_iff.symm

/-- `canonical`: the bytes the MAC covers. Each field stands behind its length. -/
def canonical (ts : ℕ) (nonce : String) (req : SignedRequest) : List UInt8 :=
  Frame.fields 8 [utf8 (toString ts), utf8 nonce, utf8 req.method, utf8 req.path, req.body]

/-- The MAC of a request. -/
def mac (tag : List UInt8 → List UInt8) (ts : ℕ) (nonce : String) (req : SignedRequest) : List UInt8 :=
  tag (canonical ts nonce req)

/-! ## Hex -/

/-- `{b:02x}`. -/
def hexByte (b : UInt8) : List Char := [Nat.digitChar (b.toNat / 16), Nat.digitChar (b.toNat % 16)]

def hexEncode (bytes : List UInt8) : List Char := bytes.flatMap hexByte

/-- `u8::from_str_radix` on two characters: two digits, or a plus sign and one. -/
def hexPair (c d : Char) : Option UInt8 :=
  if c = '+' then (hexValue d).map UInt8.ofNat
  else (hexValue c).bind fun high => (hexValue d).map fun low => UInt8.ofNat (16 * high + low)

/-- How reading a header ends without a credential: it is refused, or a slice of it
starts or ends inside a character, which panics. -/
inductive HeaderFault
  | malformed | panicked
  deriving Repr, DecidableEq

/-- The loop of `hex_decode`, on slices of two bytes. The first slice that is no byte ends it. -/
def hexPairs : List Char → Except HeaderFault (Option (List UInt8))
  | [] => .ok (some [])
  | c :: rest =>
    match c.utf8Size, rest with
    | 1, d :: rest =>
      if d.utf8Size ≠ 1 then .error .panicked
      else match hexPair c d with
        | some b => (hexPairs rest).map (Option.map (b :: ·))
        | none => .ok none
    -- the slice is one character, and no digit
    | 2, _ => .ok none
    | _, _ => .error .panicked

/-- `hex_decode`: of an even number of bytes. -/
def hexDecode (s : List Char) : Except HeaderFault (Option (List UInt8)) :=
  if (s.map Char.utf8Size).sum % 2 = 0 then hexPairs s else .ok none

/-! ## The header -/

/-- `trim`. -/
def trim (s : List Char) : List Char := (s.dropWhile isWhitespace).rdropWhile isWhitespace

/-- `parse::<u64>`: digits, with or without a plus sign. -/
def parseSecs (s : List Char) : Option ℕ :=
  let digits := match s with
    | '+' :: rest => rest
    | _ => s
  if !digits.isEmpty && digits.all isAsciiDigit then parseU64 digits else none

/-- `Signer::header_at`. -/
def headerAt (tag : List UInt8 → List UInt8) (s : Signed) : String :=
  "t=" ++ toString s.ts ++ ",n=" ++ s.nonce ++ ",mac=" ++ String.ofList (hexEncode (mac tag s.ts s.nonce s.req))

structure Credential where
  ts : ℕ
  nonce : String
  mac : List UInt8
  deriving DecidableEq

/-- The parts of a header that have been read so far. -/
structure HeaderParts where
  ts : Option ℕ := none
  nonce : Option (List Char) := none
  mac : Option (List UInt8) := none
  deriving DecidableEq

/-- One `key=value` of the header. A later one of the same key counts. -/
def HeaderParts.read (parts : HeaderParts) (part : List Char) : Except HeaderFault HeaderParts :=
  match splitOnce ['='] part with
  | none => .error .malformed
  | some (key, value) =>
    if trim key = ['t'] then .ok { parts with ts := parseSecs (trim value) }
    else if trim key = ['n'] then .ok { parts with nonce := some (trim value) }
    else if trim key = ['m', 'a', 'c'] then (hexDecode (trim value)).map fun mac => { parts with mac }
    else .error .malformed

/-- `parse`. -/
def parse (header : String) : Except HeaderFault Credential :=
  match (header.toList.splitOn ',').foldlM HeaderParts.read {} with
  | .error fault => .error fault
  | .ok ⟨some ts, some nonce, some mac⟩ => if nonce.isEmpty then .error .malformed else .ok ⟨ts, String.ofList nonce, mac⟩
  | .ok _ => .error .malformed

/-! ## The verifier -/

/-- `saturating_mul` on `u64`. -/
def saturatingMul (a b : ℕ) : ℕ := min (a * b) u64Max

/-- A verifier's limits. -/
structure Verifier where
  skewSecs : ℕ
  capacity : ℕ
  skew_lt : skewSecs < 2 ^ 64

/-- `Verifier::new`: thirty seconds, and a hundred thousand nonces. -/
def Verifier.default : Verifier := ⟨30, 100000, by decide⟩

/-- How long a nonce is kept, as `with_limits` sets it. -/
def Verifier.ttlSecs (v : Verifier) : ℕ := saturatingAdd (saturatingMul v.skewSecs 2) 1

/-- `abs_diff`. -/
def absDiff (a b : ℕ) : ℕ := (a - b) + (b - a)

/-- What comes of a call. -/
inductive AuthOutcome
  | accepted | refused (error : AuthError) | panicked
  deriving Repr, DecidableEq

/-- The nonces seen, after those were dropped whose signed time is `ttl_secs` back. They are
dropped only when there is no room. -/
def Verifier.makeRoom (v : Verifier) (seen : Table String ℕ) (now : ℕ) : Table String ℕ :=
  if v.capacity ≤ seen.size then Table.retain seen fun _ signed => now - signed < v.ttlSecs else seen

/-- `NonceCache::admit`. -/
def Verifier.admitNonce (v : Verifier) (seen : Table String ℕ) (nonce : String) (signedAt now : ℕ) :
    AuthOutcome × Table String ℕ :=
  if seen[nonce]?.isSome then (.refused .replayedNonce, seen)
  else if v.capacity ≤ (v.makeRoom seen now).size then (.refused .nonceCacheFull, v.makeRoom seen now)
  else (.accepted, (v.makeRoom seen now).insert nonce signedAt)

/-- A call of `verify_at`. -/
structure VerifyCall where
  now : ℕ
  header : Option String
  req : SignedRequest
  now_lt : now < 2 ^ 64
  header_fits : ∀ h ∈ header, h.utf8ByteSize < 2 ^ 64

/-- `verify_at`: what comes of the call, and the nonces seen after it. -/
def Verifier.verifyAt (v : Verifier) (tag : List UInt8 → List UInt8) (seen : Table String ℕ) (call : VerifyCall) :
    AuthOutcome × Table String ℕ :=
  match call.header.elim (.error .malformed) parse with
  | .error .malformed => (.refused .malformed, seen)
  | .error .panicked => (.panicked, seen)
  | .ok cred =>
    if v.skewSecs < absDiff call.now cred.ts then (.refused .staleTimestamp, seen)
    else if mac tag cred.ts cred.nonce call.req ≠ cred.mac then (.refused .badMac, seen)
    else v.admitNonce seen cred.nonce cred.ts call.now

/-- The nonces seen after the first `n` calls. -/
def Verifier.seenAt (v : Verifier) (tag : List UInt8 → List UInt8) (calls : List VerifyCall) (n : ℕ) : Table String ℕ :=
  Trace.stateAt (fun seen call => (v.verifyAt tag seen call).2) ∅ calls n

/-- What comes of the call at position `n`. -/
def Verifier.outcomeAt (v : Verifier) (tag : List UInt8 → List UInt8) (calls : List VerifyCall) (n : ℕ) : Option AuthOutcome :=
  calls[n]?.map fun call => (v.verifyAt tag (v.seenAt tag calls n) call).1

end RiftCluster.Auth
