import RiftCluster.Model.Sweep
import RiftCluster.Model.SpecSchema

/-!
# Flow namespaces

`stores/flow_config.rs` writes the scope of a flow in front of its id: `i<port>:` for the flows of
one imposter, `f:` for those of the fleet. `stores/flow.rs` reads it back: `imposter_port` (in the
orphan sweep), `owned_spaces` for the listing of an imposter's spaces, and `clear_imposter_scopes`.
-/

namespace RiftCluster

open KV

variable {V : Type}

/-- `prefix_for`: what a scope puts in front of a flow id. -/
def ContextScope.prefixFor : ContextScope → Option Port → String
  | .fleet, _ => "f:"
  | .imposter, some port => "i" ++ toString port ++ ":"
  -- no admitted config is without a port; its flows must not be the fleet's
  | .imposter, none => "i?:"

/-- The id a flow is stored and owned under. -/
def ContextScope.scopedFlowId (scope : ContextScope) (port : Option Port) (flowId : String) : String :=
  scope.prefixFor port ++ flowId

/-- This node's share of the spaces under a scope, with the scope taken off once. -/
def ownedSpaces (entries : List (String × ℕ)) (scope : String) (ownerOf : String → Option ℕ) (me : ℕ) :
    List (String × ℕ) :=
  entries.filterMap fun entry => match Spec.strip? scope entry.1 with
    | some unscoped => if ownerOf entry.1 = some me then some (unscoped, entry.2) else none
    | none => none

/-- One flow of `clear_imposter_scopes`. -/
def Shard.clearIfScoped (ports : Finset Port) (acc : Shard V × Table Port ℕ) (flowId : String) : Shard V × Table Port ℕ :=
  match imposterPort flowId with
  | none => acc
  | some port =>
    if port ∈ ports then (acc.1.clearFlow flowId .async, acc.2.insert port (acc.2[port]?.getD 0 + 1)) else acc

/-- `clear_imposter_scopes` with nothing in between: the shard it leaves, and how many flows it has
dropped under each port. -/
def Shard.clearImposterScopes (s : Shard V) (ports : Finset Port) : Shard V × Table Port ℕ :=
  if ports = ∅ then (s, ∅) else s.flowIds.foldl (clearIfScoped ports) (s, ∅)

end RiftCluster
