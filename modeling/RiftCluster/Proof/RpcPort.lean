import RiftCluster.Model.RpcPort
import RiftCluster.Proof.Auth
import RiftCluster.Proof.RecordedIds

/-!
# What reaches a handler of the cluster port

* `addressed_delivered`: a path that names no member can be addressed to one, which takes the
  request to the handler of the bare path. Every other member refuses it.
* `handled_once`: in a fleet of ports a handler runs only for a request that a key holder signed
  for that member or for none, and once, until the member's process starts again.
-/

namespace RiftCluster.Rpc

open KV

variable {H : Type}

/-! ## Addresses -/

theorem ne_of_notMem {c : Char} {s : List Char} (h : c ∉ s) : ∀ d ∈ s, d ≠ c := by
  rintro d hd rfl
  exact h hd

theorem splitOnce_eq_some {c : Char} {s : List Char} (h : c ∈ s) :
    ∃ before after, s = before ++ c :: after ∧ (∀ d ∈ before, d ≠ c) ∧ splitOnce [c] s = some (before, after) := by
  obtain ⟨before, after, rfl, hbefore⟩ := List.eq_append_cons_of_mem h
  exact ⟨before, after, rfl, ne_of_notMem hbefore, splitOnce_append (ne_of_notMem hbefore) after⟩

/-- `to={dest}`. -/
def toPair (dest : ℕ) : List Char := 't' :: 'o' :: '=' :: Nat.toDigits 10 dest

/-- What `addressed` puts behind a path. -/
def addressTail (path : String) (dest : ℕ) : List Char := (if '?' ∈ path.toList then '&' else '?') :: toPair dest

theorem toList_addressed (path : String) (dest : ℕ) : (addressed path dest).toList = path.toList ++ addressTail path dest := by
  unfold addressed addressTail toPair
  split_ifs <;> simp [toString, Nat.repr]

theorem splitOnce_addressed (path : String) (dest : ℕ) :
    splitOnce ['?'] (addressed path dest).toList =
      match splitOnce ['?'] path.toList with
      | some (before, query) => some (before, query ++ '&' :: toPair dest)
      | none => some (path.toList, toPair dest) := by
  rw [toList_addressed, addressTail]
  by_cases h : '?' ∈ path.toList
  · obtain ⟨before, after, hpath, hne, hsplit⟩ := splitOnce_eq_some h
    rw [hsplit, if_pos h, hpath, List.append_assoc]
    exact splitOnce_append hne _
  · rw [splitOnce_none (ne_of_notMem h), if_neg h]
    exact splitOnce_append (ne_of_notMem h) _

theorem routePath_addressed (path : String) (dest : ℕ) : routePath (addressed path dest) = routePath path := by
  unfold routePath
  rw [splitOnce_addressed]
  cases splitOnce ['?'] path.toList <;> rfl

theorem splitOn_toPair (dest : ℕ) : (toPair dest).splitOn '&' = [toPair dest] := by
  refine List.splitOn_eq_singleton fun hmem => ?_
  simp only [toPair, List.mem_cons] at hmem
  rcases hmem with h | h | h | h
  · cases h
  · cases h
  · cases h
  · have hdigit := List.all_eq_true.1 (all_digits dest) '&' h
    cases hdigit

theorem readRecipient_digits {dest : ℕ} (hdest : dest < 2 ^ 64) :
    readRecipient none (Nat.toDigits 10 dest) = .ok (some dest) := by
  have hempty : (Nat.toDigits 10 dest).isEmpty = false := by simp
  simp only [readRecipient, Option.isSome_none, hempty, all_digits, parseU64_toDigits hdest]
  rfl

theorem queryRecipient_address {dest : ℕ} (hdest : dest < 2 ^ 64) :
    queryRecipient (toPair dest) = .ok (some dest) := by
  rw [queryRecipient, splitOn_toPair, if_neg (by simp [toPair])]
  show readRecipient none (Nat.toDigits 10 dest) >>= pure = _
  rw [readRecipient_digits hdest]
  rfl

/-- One recipient more than were found before. -/
def oneMore (dest : ℕ) : Except RpcError (Option ℕ) → Except RpcError (Option ℕ)
  | .error e => .error e
  | .ok none => .ok (some dest)
  | .ok (some _) => .error (.badRequest "the recipient \x60to\x60 is given more than once")

theorem queryRecipient_append (query : List Char) {dest : ℕ} (hdest : dest < 2 ^ 64) :
    queryRecipient (query ++ '&' :: toPair dest) = oneMore dest (queryRecipient query) := by
  unfold queryRecipient
  rw [List.splitOn_append_cons_self, splitOn_toPair, List.filterMap_append, List.foldlM_append]
  by_cases hto : ['t', 'o'] ∈ query.splitOn '&'
  · rw [if_pos hto, if_pos (List.mem_append_left _ hto)]
    rfl
  · rw [if_neg hto, if_neg (by simp [hto, toPair])]
    cases ((query.splitOn '&').filterMap toValue).foldlM readRecipient none with
    | error e => rfl
    | ok found =>
      cases found with
      | none =>
        show readRecipient none (Nat.toDigits 10 dest) >>= pure = _
        rw [readRecipient_digits hdest]
        rfl
      | some id => rfl

/-- **The recipient of an addressed path.** -/
theorem recipient_addressed (path : String) {dest : ℕ} (hdest : dest < 2 ^ 64) :
    recipient (addressed path dest) = oneMore dest (recipient path) := by
  unfold recipient
  rw [splitOnce_addressed]
  by_cases h : '?' ∈ path.toList
  · obtain ⟨before, after, -, -, hsplit⟩ := splitOnce_eq_some h
    rw [hsplit]
    exact queryRecipient_append after hdest
  · rw [splitOnce_none (ne_of_notMem h)]
    exact queryRecipient_address hdest

/-- The call with what stands behind the path lengthened. -/
def HandlerRun.withTail (tail : List Char) : HandlerRun H → HandlerRun H
  | .exact handler body => .exact handler body
  | .under handler suffix body => .under handler (String.ofList (suffix.toList ++ tail)) body
  | .streamed handler suffix => .streamed handler (String.ofList (suffix.toList ++ tail))

theorem routePath_isPrefix (path : String) : routePath path <+: path.toList := by
  unfold routePath
  by_cases h : '?' ∈ path.toList
  · obtain ⟨before, after, hpath, -, hsplit⟩ := splitOnce_eq_some h
    rw [hsplit, hpath]
    exact List.prefix_append before _
  · rw [splitOnce_none (ne_of_notMem h)]
    exact List.prefix_refl _

theorem maxByKey_mem {α : Type} {key : α → ℕ} {l : List α} {a : α} (h : maxByKey key l = some a) : a ∈ l :=
  List.mem_reverse.1 (List.argmax_mem h)

theorem lookupUnder_addressed (routes : List (PrefixRoute H)) (method path : String) (dest : ℕ) :
    lookupUnder routes method (addressed path dest) =
      (lookupUnder routes method path).map fun r => (r.1, String.ofList (r.2.toList ++ addressTail path dest)) := by
  unfold lookupUnder
  rw [routePath_addressed]
  cases hmax : maxByKey (·.under.utf8ByteSize) (routes.filter (·.covers (upper method) (routePath path))) with
  | none => rfl
  | some p =>
    have hcovers := (List.mem_filter.1 (maxByKey_mem hmax)).2
    simp only [PrefixRoute.covers, Bool.and_eq_true, List.isPrefixOf_iff_prefix] at hcovers
    have hlen : p.under.toList.length ≤ path.toList.length := (hcovers.2.trans (routePath_isPrefix path)).length_le
    simp only [Option.map_some, toList_addressed, List.drop_append_of_le_length hlen, String.toList_ofList]

theorem serve_addressed {r : Router H} {req req' : Auth.SignedRequest} {dest : ℕ} (hmethod : req'.method = req.method)
    (hpath : req'.path = addressed req.path dest) (hbody : req'.body = req.body) :
    r.serve req' = match r.serve req with
      | .ran run => .ran (run.withTail (addressTail req.path dest))
      | _ => .refused (.unknownRoute req.method req'.path) := by
  have hexact : r.lookup req'.method req'.path = r.lookup req.method req.path := by
    rw [Router.lookup, Router.lookup, hmethod, hpath, routePath_addressed]
  unfold Router.serve
  rw [hexact, Router.lookupPrefix, Router.lookupPrefix, Router.lookupStreamPrefix, Router.lookupStreamPrefix, hmethod,
    hpath, lookupUnder_addressed, lookupUnder_addressed, hbody]
  cases r.lookup req.method req.path with
  | some handler => rfl
  | none =>
    cases lookupUnder r.prefixRoutes req.method req.path with
    | some found => rfl
    | none => cases lookupUnder r.streamRoutes req.method req.path <;> rfl

/-- **An addressed request reaches the handler of the bare path, at the member it names.** Let
the path name no member. A port that answers as `me` refuses the request addressed to another
member, and takes the one addressed to `me` to the handler of the request as it was. -/
theorem addressed_delivered (config : ServerConfig H) (me dest : ℕ) (req req' : Auth.SignedRequest)
    (hme : config.nodeId = some me) (hdest : dest < 2 ^ 64) (hnone : recipient req.path = .ok none)
    (hmethod : req'.method = req.method) (hpath : req'.path = addressed req.path dest) (hbody : req'.body = req.body) :
    config.deliver req' =
      if dest = me then
        match config.deliver req with
        | .ran run => .ran (run.withTail (addressTail req.path dest))
        | _ => .refused (.unknownRoute req.method req'.path)
      else .refused (.wrongNode dest me) := by
  have hrecipient : recipient req'.path = .ok (some dest) := by
    rw [hpath, recipient_addressed req.path hdest, hnone]
    rfl
  have hbare : config.deliver req = config.router.serve req := by
    rw [ServerConfig.deliver, hnone, hme]
  rw [hbare, ← serve_addressed hmethod hpath hbody, ServerConfig.deliver, hrecipient, hme]
  by_cases hself : dest = me
  · rw [if_pos hself]
    exact if_neg (not_not.2 hself)
  · rw [if_neg hself]
    exact if_pos hself

/-- Two handlers: one for a path, and one for what stands under it. -/
def applyRouter : Router String where
  routes := (∅ : Table (String × String) String).insert ("POST", "/raft/append") "append"
  prefixRoutes := [⟨"GET", "/ops/", "ops"⟩]

def opsRequest : Auth.SignedRequest := ⟨"get", "/ops/7?x=1", [], by decide, by decide, Auth.ping.body_fits⟩

def opsAddressed : Auth.SignedRequest := ⟨"get", "/ops/7?x=1&to=3", [], by decide, by decide, Auth.ping.body_fits⟩

theorem ops_addressed :
    addressed opsRequest.path 3 = opsAddressed.path ∧
      (ServerConfig.mk none applyRouter 0 (some 3)).deliver opsAddressed = .ran (.under "ops" "7?x=1&to=3" []) ∧
      (ServerConfig.mk none applyRouter 0 (some 4)).deliver opsAddressed = .refused (.wrongNode 3 4) := by
  have hpath : opsAddressed.path = addressed opsRequest.path 3 := by decide +kernel
  refine ⟨hpath.symm, ?_, ?_⟩
  · rw [addressed_delivered _ 3 3 opsRequest opsAddressed rfl (by decide) (by decide +kernel) rfl hpath rfl]
    decide +kernel
  · rw [addressed_delivered _ 4 3 opsRequest opsAddressed rfl (by decide) (by decide +kernel) rfl hpath rfl]
    decide +kernel

/-! ## A fleet of ports -/

variable {v : Auth.Verifier} {tag : List UInt8 → List UInt8} {fleet : ℕ → ServerConfig H} {events : List PortEvent}

/-- Every port checks credentials, and answers as a member of its own. -/
structure Secured (v : Auth.Verifier) (fleet : ℕ → ServerConfig H) : Prop where
  verifier : ∀ port, (fleet port).verifier = some v
  named : ∀ port, (fleet port).nodeId.isSome = true
  apart : ∀ port port', (fleet port).nodeId = (fleet port').nodeId → port = port'

/-- **A handler runs** when the credential is accepted and the request delivered. -/
theorem ran_inv {config : ServerConfig H} {seen : Table String ℕ} {r : Incoming} {run : HandlerRun H}
    (hv : config.verifier = some v) (h : (config.dispatch tag seen r).1 = .ran run) :
    (v.verifyAt tag seen r.call).1 = .accepted ∧ (config.dispatch tag seen r).2 = (v.verifyAt tag seen r.call).2 ∧
      config.deliver r.call.req = .ran run := by
  unfold ServerConfig.dispatch at h ⊢
  split at h
  · cases h
  · split at h
    · cases h
    · rename_i hsize
      rw [hv] at h ⊢
      simp only [if_neg hsize] at h ⊢
      split at h
      · rename_i seen' hverify
        rw [hverify]
        exact ⟨rfl, rfl, h⟩
      · cases h
      · cases h

theorem deliver_ran {config : ServerConfig H} {req : Auth.SignedRequest} {run : HandlerRun H}
    (h : config.deliver req = .ran run) :
    ∃ dest, recipient req.path = .ok dest ∧ ∀ id ∈ dest, ∀ me ∈ config.nodeId, id = me := by
  unfold ServerConfig.deliver at h
  split at h
  · cases h
  · rename_i dest me hrecipient hme
    refine ⟨some dest, hrecipient, ?_⟩
    split_ifs at h with hne
    intro id hid me' hme'
    cases hid
    cases hme.symm.trans hme'
    exact not_not.1 hne
  · rename_i dest hrecipient hother
    refine ⟨dest, hrecipient, fun id hid me hme => ?_⟩
    cases hid
    exact absurd rfl (hother id me hme)

/-- A nonce stays seen, or the request's clock is past its time. -/
theorem dispatch_keeps {config : ServerConfig H} {seen : Table String ℕ} {r : Incoming} {nonce : String} {ts : ℕ}
    (hv : config.verifier = some v) (h : seen[nonce]? = some ts) :
    (config.dispatch tag seen r).2[nonce]? = some ts ∨ ts + v.ttlSecs ≤ r.call.now := by
  unfold ServerConfig.dispatch
  split
  · exact .inl h
  · split
    · exact .inl h
    · have hkeeps : (v.verifyAt tag seen r.call).2[nonce]? = some ts ∨ ts + v.ttlSecs ≤ r.call.now := Auth.verifyAt_keeps h
      simp only [hv]
      split <;> rename_i hout <;> rw [hout] at hkeeps <;> exact hkeeps

theorem fleetAt_succ {n : ℕ} {e : PortEvent} (he : events[n]? = some e) :
    fleetAt tag fleet events (n + 1) = fleetStep tag fleet (fleetAt tag fleet events n) e := by
  obtain ⟨hn, rfl⟩ := List.getElem?_eq_some_iff.1 he
  exact Trace.stateAt_succ hn

/-- A nonce stays seen until the port's process starts again or a clock is past its time. -/
theorem fleetAt_keeps (hfleet : Secured v fleet) {j k port : ℕ} {nonce : String} {ts : ℕ} (hjk : j ≤ k)
    (hk : k ≤ events.length) (h : (fleetAt tag fleet events j port)[nonce]? = some ts) :
    (fleetAt tag fleet events k port)[nonce]? = some ts ∨
      (∃ m, j ≤ m ∧ m < k ∧ events[m]? = some (.restart port)) ∨
      ∃ m r, m < k ∧ events[m]? = some (.deliver port r) ∧ ts + v.ttlSecs ≤ r.call.now := by
  induction k, hjk using Nat.le_induction with
  | base => exact .inl h
  | succ k hjk ih =>
    have he : events[k]? = some events[k] := List.getElem?_eq_getElem (by omega)
    rcases ih (by omega) with hkept | ⟨m, hjm, hmk, hm⟩ | ⟨m, r, hmk, hm, hpast⟩
    · rw [fleetAt_succ he]
      cases hevent : events[k] with
      | restart other =>
        by_cases hother : port = other
        · subst hother
          exact .inr (.inl ⟨k, hjk, by omega, by rw [he, hevent]⟩)
        · exact .inl (by rw [fleetStep, Function.update_of_ne hother]; exact hkept)
      | deliver other r =>
        by_cases hother : port = other
        · subst hother
          rw [fleetStep, Function.update_self]
          rcases dispatch_keeps (r := r) (hfleet.verifier port) hkept with hkept' | hpast
          · exact .inl hkept'
          · exact .inr (.inr ⟨k, r, by omega, by rw [he, hevent], hpast⟩)
        · exact .inl (by rw [fleetStep, Function.update_of_ne hother]; exact hkept)
    · exact .inr (.inl ⟨m, hjm, by omega, hm⟩)
    · exact .inr (.inr ⟨m, r, by omega, hm, hpast⟩)

/-- At the `n`-th event a handler runs at the port, for the tuple that the request carries. -/
def HandledAt (tag : List UInt8 → List UInt8) (fleet : ℕ → ServerConfig H) (events : List PortEvent) (n port : ℕ)
    (s : Auth.Signed) : Prop :=
  ∃ r run header cred, events[n]? = some (.deliver port r) ∧ servedAt tag fleet events n = some (.ran run) ∧
    r.call.header = some header ∧ Auth.parse header = .ok cred ∧ s.ts = cred.ts ∧ s.nonce = cred.nonce ∧
    s.req = r.call.req

/-- What a handled request shows. -/
theorem HandledAt.inv (hfleet : Secured v fleet) {n port : ℕ} {s : Auth.Signed} (h : HandledAt tag fleet events n port s) :
    ∃ r, events[n]? = some (.deliver port r) ∧ Auth.absDiff r.call.now s.ts ≤ v.skewSecs ∧
      (fleetAt tag fleet events n port)[s.nonce]? = none ∧ (fleetAt tag fleet events (n + 1) port)[s.nonce]? = some s.ts ∧
      ∃ dest, recipient s.req.path = .ok dest ∧ ∀ id ∈ dest, (fleet port).nodeId = some id := by
  obtain ⟨r, run, header, cred, he, hserved, hheader, hparse, hts, hnonce, hreq⟩ := h
  rw [servedAt, he] at hserved
  obtain ⟨hacc, hseen, hdeliver⟩ := ran_inv (hfleet.verifier port) (Option.some.inj hserved)
  obtain ⟨header', cred', hheader', hparse', hskew, -, hfresh, hstored⟩ := Auth.accepted_inv hacc
  cases hheader.symm.trans hheader'
  cases hparse.symm.trans hparse'
  obtain ⟨dest, hdest, hme⟩ := deliver_ran hdeliver
  refine ⟨r, he, by rw [hts]; exact hskew, by rw [hnonce]; exact hfresh, ?_, dest, by rw [hreq]; exact hdest, ?_⟩
  · rw [fleetAt_succ he, fleetStep, Function.update_self, hseen, hnonce, hts]
    exact hstored
  · intro id hid
    obtain ⟨me, hnode⟩ := Option.isSome_iff_exists.1 (hfleet.named port)
    rw [hnode, hme id hid me hnode]

/-- **A handler runs for what was signed, at the member it was signed for, and once.** Take any
run of requests and restarts, with a tag that is injective and cannot be forged, and clocks that
never fall more than the skew. A handler runs only for a tuple that was signed, within the skew of
its timestamp, and at the member that its path names, if any. Handlers that run twice for one
tuple do so at one port, if it names a member; and if it is one port, its process has started again
between them. -/
theorem handled_once (hskew : v.skewSecs < 2 ^ 63) (htag : Function.Injective tag) (signed : Set Auth.Signed)
    (hfleet : Secured v fleet)
    (hforge : ∀ port r, .deliver port r ∈ events → ∀ header cred, r.call.header = some header →
      Auth.parse header = .ok cred → cred.mac ∈ Set.range tag →
      ∃ s ∈ signed, cred.mac = Auth.mac tag s.ts s.nonce s.req)
    (hclock : ∀ (j k port : ℕ) (r r' : Incoming), j < k → events[j]? = some (.deliver port r) → events[k]? = some (.deliver port r') →
      r.call.now ≤ r'.call.now + v.skewSecs) :
    (∀ n port r run, events[n]? = some (.deliver port r) → servedAt tag fleet events n = some (.ran run) →
      ∃ s ∈ signed, HandledAt tag fleet events n port s ∧ Auth.absDiff r.call.now s.ts ≤ v.skewSecs ∧
        ∃ dest, recipient s.req.path = .ok dest ∧ ∀ id ∈ dest, (fleet port).nodeId = some id) ∧
    ∀ m n port port' s, m < n → HandledAt tag fleet events m port s → HandledAt tag fleet events n port' s →
      (∀ id, recipient s.req.path = .ok (some id) → port = port') ∧
        (port = port' → ∃ k, m < k ∧ k < n ∧ events[k]? = some (.restart port)) := by
  constructor
  · intro n port r run he hserved
    have hran := hserved
    rw [servedAt, he] at hran
    obtain ⟨hacc, -, -⟩ := ran_inv (hfleet.verifier port) (Option.some.inj hran)
    obtain ⟨header, cred, hheader, hparse, -, hmac, -, -⟩ := Auth.accepted_inv hacc
    obtain ⟨s, hs, hsmac⟩ := hforge port r (List.mem_of_getElem? he) header cred hheader hparse ⟨_, hmac⟩
    -- the tag is of the credential's own bytes, and these are of one tuple only
    obtain ⟨hts, hnonce⟩ := Auth.parse_fits hparse
    have hfits : cred.nonce.utf8ByteSize < 2 ^ 64 := lt_of_le_of_lt hnonce (r.call.header_fits header hheader)
    have heq : s = ⟨cred.ts, cred.nonce, r.call.req, hts, hfits⟩ := Auth.canonical_inj (htag (hsmac.symm.trans hmac.symm))
    have hhandled : HandledAt tag fleet events n port s :=
      ⟨r, run, header, cred, he, hserved, hheader, hparse, by rw [heq], by rw [heq], by rw [heq]⟩
    obtain ⟨r', he', hwithin, -, -, hdest⟩ := hhandled.inv hfleet
    cases he.symm.trans he'
    exact ⟨s, hs, hhandled, hwithin, hdest⟩
  · intro m n port port' s hmn hm hn
    obtain ⟨r, -, -, -, hstored, dest, hdest, hport⟩ := hm.inv hfleet
    obtain ⟨r', he', hwithin, hfresh, -, dest', hdest', hport'⟩ := hn.inv hfleet
    constructor
    · intro id hid
      cases hdest.symm.trans hid
      cases hdest'.symm.trans hid
      exact hfleet.apart port port' ((hport id rfl).trans (hport' id rfl).symm)
    · rintro rfl
      have hlen : n < events.length := (List.getElem?_eq_some_iff.1 he').1
      rcases fleetAt_keeps hfleet (show m + 1 ≤ n from hmn) hlen.le hstored with hkept | ⟨k, hmk, hkn, hk⟩ | ⟨k, rk, hkn, hk, hpast⟩
      · rw [hfresh] at hkept
        cases hkept
      · exact ⟨k, hmk, hkn, hk⟩
      · -- a clock was past the nonce's time, so this one's is too, and the timestamp check refuses
        have hlate := hclock k n port rk r' hkn hk he'
        rw [Auth.ttlSecs_eq hskew] at hpast
        unfold Auth.absDiff at hwithin
        omega

/-- Members 1 and 2, at ports 1 and 2. -/
def pairFleet (port : ℕ) : ServerConfig String :=
  { verifier := some Auth.Verifier.default, router := applyRouter, nodeId := some port }

def append1 : Auth.Signed :=
  ⟨50, "a1", ⟨"POST", "/raft/append?to=1", [], by decide, by decide, Auth.ping.body_fits⟩, by decide, by decide⟩

def append1In : Incoming := ⟨some "1.0", Auth.arrives 50 append1 append1.ts_lt (by decide +kernel)⟩

/-- A request for member 1: it is sent to both, and again after member 1 has started again. -/
def sentAround : List PortEvent :=
  [.deliver 2 append1In, .deliver 1 append1In, .deliver 1 append1In, .restart 1, .deliver 1 append1In]

/-- Member 2 refuses it. Member 1 runs the handler for it twice, and has started again between. -/
theorem sentAround_once :
    servedAt id pairFleet sentAround 0 = some (.refused (.wrongNode 1 2)) ∧
      servedAt id pairFleet sentAround 1 = some (.ran (.exact "append" [])) ∧
      servedAt id pairFleet sentAround 2 = some (.refused (.unauthorized .replayedNonce)) ∧
      servedAt id pairFleet sentAround 4 = some (.ran (.exact "append" [])) ∧
      ∃ k, 1 < k ∧ k < 4 ∧ sentAround[k]? = some (.restart 1) := by
  have h1 : servedAt id pairFleet sentAround 1 = some (.ran (.exact "append" [])) := by decide +kernel
  have h4 : servedAt id pairFleet sentAround 4 = some (.ran (.exact "append" [])) := by decide +kernel
  have hparse : Auth.parse (Auth.headerAt id append1) = .ok ⟨50, "a1", Auth.mac id 50 "a1" append1.req⟩ := by
    decide +kernel
  have hdeliver : ∀ port r, PortEvent.deliver port r ∈ sentAround → r = append1In := by
    intro port r hmem
    simp only [sentAround, List.mem_cons, PortEvent.deliver.injEq, reduceCtorEq, List.not_mem_nil] at hmem
    rcases hmem with h | h | h | h | h | h
    exacts [h.2, h.2, h.2, h.elim, h.2, h.elim]
  have hfleet : Secured Auth.Verifier.default pairFleet :=
    ⟨fun _ => rfl, fun _ => rfl, fun _ _ h => Option.some.inj h⟩
  refine ⟨by decide +kernel, h1, by decide +kernel, h4, ((handled_once (by decide) Function.injective_id {append1} hfleet
    ?_ ?_).2 1 4 1 1 append1 (by decide) ⟨_, _, _, _, rfl, h1, rfl, hparse, rfl, rfl, rfl⟩
    ⟨_, _, _, _, rfl, h4, rfl, hparse, rfl, rfl, rfl⟩).2 rfl⟩
  · intro port r hmem header cred hheader hcred _
    cases hdeliver port r hmem
    cases hheader
    cases hparse.symm.trans hcred
    exact ⟨append1, rfl, rfl⟩
  · intro j k port r r' _ hj hk
    cases hdeliver port r (List.mem_of_getElem? hj)
    cases hdeliver port r' (List.mem_of_getElem? hk)
    exact Nat.le_add_right _ _

end RiftCluster.Rpc
