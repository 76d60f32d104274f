import ClusterRegistry.Registry
import ClusterRegistry.Proofs.Cluster.Absence
import ClusterRegistry.Proofs.Cluster.Identifier
import ClusterRegistry.Proofs.Cluster.Relabelling
import ClusterRegistry.Proofs.Cluster.Strangers
import ClusterRegistry.Proofs.Context
import ClusterRegistry.Proofs.Log.DamagedRecord
import ClusterRegistry.Proofs.Log.Resumption
import ClusterRegistry.Proofs.Log.TornBatch
import ClusterRegistry.Proofs.Record.Decoding
import ClusterRegistry.Proofs.Record.ShortDamage
import ClusterRegistry.Proofs.Store.AppendTarget
import ClusterRegistry.Proofs.Store.FailedCheckpoint
import ClusterRegistry.Proofs.Store.FileNames
import ClusterRegistry.Proofs.Store.Numbering
import ClusterRegistry.Proofs.Store.Reopening
import ClusterRegistry.Proofs.Store.Rotation
import ClusterRegistry.Proofs.Store.Separation
import ClusterRegistry.Proofs.Store.Storability
import ClusterRegistry.Proofs.Text.FixedWidth
import ClusterRegistry.Proofs.Text.Index
import ClusterRegistry.Proofs.Time.Limits
import ClusterRegistry.Proofs.Tree.Cursor
import ClusterRegistry.Proofs.Tree.SnapshotSize
