import ZfsEvacuation.JsonValues
import ZfsEvacuation.KubeObjects

/-!
# zfs-localpv resources

The custom resources of zfs-localpv the controller consumes. A volume's spec keeps the
keys that are not modelled in `extra`, so that copying it carries them along.
-/
namespace ZfsEvacuation

def zfsFinalizer : String := "zfs.openebs.io/finalizer"
def zfsVolLabel : String := "openebs.io/persistent-volume"
def markedForDeletion : String := "openebs.io/marked-for-deletion"
/-- Topology key of PV affinities, and node label overriding the node identity. -/
def nodeIdTopologyKey : String := "openebs.io/nodeid"
def poolnameAttribute : String := "openebs.io/poolname"
def zfsDriver : String := "zfs.csi.openebs.io"
def nodeNameLabel : String := "kubernetes.io/nodename"

def zfsStatusReady : String := "Ready"
def zfsStatusPending : String := "Pending"

def bkpStatusInit : String := "Init"
def bkpStatusDone : String := "Done"
def bkpStatusFailed : String := "Failed"
def bkpStatusInvalid : String := "Invalid"

/-- The spec of ZFSVolume and ZFSSnapshot and the `volSpec` of ZFSRestore. -/
structure VolumeInfo where
  ownerNodeId : String
  poolName : String
  capacity : Option String := none
  snapname : Option String := none
  fsType : Option String := none
  volumeType : Option String := none
  extra : List (String × Json) := []

structure ZFSVolumeStatus where
  state : Option String := none
  deriving DecidableEq, Repr

structure ZFSVolume where
  spec : VolumeInfo
  status : Option ZFSVolumeStatus := none

structure ZFSSnapshot where
  spec : VolumeInfo
  status : Option ZFSVolumeStatus := none

structure ZFSBackupSpec where
  volumeName : String
  ownerNodeId : String
  snapName : Option String := none
  prevSnapName : Option String := none
  backupDest : String
  deriving DecidableEq, Repr

structure ZFSBackup where
  spec : ZFSBackupSpec
  status : Option String := none

structure ZFSRestoreSpec where
  volumeName : String
  ownerNodeId : String
  restoreSrc : String
  deriving DecidableEq, Repr

structure ZFSRestore where
  spec : ZFSRestoreSpec
  volSpec : Option VolumeInfo := none
  status : Option String := none

structure ZfsPool where
  name : String
  uuid : Option String := none
  free : Option String := none

structure ZFSNode where
  pools : List ZfsPool := []

end ZfsEvacuation
