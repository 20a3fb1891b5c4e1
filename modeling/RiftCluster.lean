import RiftCluster.Proof.Reconcile
import RiftCluster.Proof.Convergence
import RiftCluster.Proof.Linear
import RiftCluster.Proof.Tombstone
import RiftCluster.Proof.OwnerCopy
import RiftCluster.Proof.CompletionCache
import RiftCluster.Proof.Membership
import RiftCluster.Proof.RingAgreement
import RiftCluster.Proof.ReadToken
import RiftCluster.Proof.UpsertsFirst
import RiftCluster.Proof.ReplaceRetry
import RiftCluster.Proof.Session
import RiftCluster.Proof.RefusedWrite
import RiftCluster.Proof.RecordedLists
import RiftCluster.Proof.PatchDriven
import RiftCluster.Proof.SnapshotFetch
import RiftCluster.Proof.WriteBarrier
import RiftCluster.Proof.AppendSlot
import RiftCluster.Proof.SpecRefs
import RiftCluster.Proof.Bootstrap
import RiftCluster.Proof.Console
import RiftCluster.Proof.LogStore
import RiftCluster.Proof.ElectionHold
import RiftCluster.Proof.Eviction
import RiftCluster.Proof.StripCredentials
import RiftCluster.Proof.FleetCounts
import RiftCluster.Proof.OneCursor
import RiftCluster.Proof.RpcReply
import RiftCluster.Proof.ReplicaAgreement
import RiftCluster.Proof.RpcClient
import RiftCluster.Proof.NodeIdentity
