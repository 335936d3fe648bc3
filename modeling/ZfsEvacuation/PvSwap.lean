import ZfsEvacuation.AbortPath

/-!
# The commit point and the PV swap

Rendering of the replacement PV, the last checks before the commit, and the swap of the
old PV for the new one, which only the status survives.
-/
namespace ZfsEvacuation

def pvProtection : String := "kubernetes.io/pv-protection"
def provisionerFinalizer : String := "external-provisioner.volume.kubernetes.io/finalizer"

/-! ## Blocking reasons -/

/-- A vanished source node repels everything. -/
def sourceRepelsPods (cfg : Config) (st : ZFSEvacuationStatus) : M Bool := do
  let source ← orErr st.source "no source recorded"
  match ← getOpt .node ⟨"", source.node⟩ with
  | some node => pure (nodeRepelsPods node cfg.taintKey)
  | none => pure true

def cordonMessage (pods : List (Obj .pod)) : String :=
  if pods.isEmpty then
    "the source node is still schedulable; cordon it (kubectl cordon) or taint it " ++
      "with a NoSchedule effect so no consumer can land there mid-copy"
  else
    "consumer " ++ ", ".intercalate (podNames pods) ++
      " is waiting for this volume, but the source node is still schedulable; " ++
      "cordon it (kubectl cordon) so the pod cannot land there mid-copy"

/-- Why the copy must not start, or the commit not proceed, given the pods that reference
the claim. -/
def blockingReason (cfg : Config) (evac : Obj .evacuation) (st : ZFSEvacuationStatus)
    (pods : List (Obj .pod)) : M (Option String) :=
  match (specOf evac).mode with
  | .whenIdle => pure (if pods.isEmpty then none else some (blockingPodsMessage pods))
  | .whenClaimed =>
    let scheduled := pods.filter podIsScheduled
    if !scheduled.isEmpty then pure (some (blockingPodsMessage scheduled))
    else do
      -- Required even with no pod at all: the lock admits scheduler-routed ones at any time.
      if ← sourceRepelsPods cfg st then pure none
      else pure (some (cordonMessage pods))

/-! ## Rendering -/

/-- The replacement PV: same name, new volume handle, pool and affinity, bound to the
claim's identity, and `Retain` until the rebind is verified. -/
def renderNewPv (oldPv : Obj .pv) (pvcRef : PvcRef) (target : TargetInfo) :
    Except String (Obj .pv) :=
  match pvSpec oldPv with
  | none => .error "old PV has no spec"
  | some spec =>
    match spec.csi with
    | none => .error "old PV has no csi source"
    | some csi =>
      let attributes := csi.volumeAttributes.map fun attrs =>
        if attrs.contains poolnameAttribute then attrs.insert poolnameAttribute target.pool
        else attrs
      .ok
        { metadata :=
            { name := oldPv.name
              labels := oldPv.metadata.labels
              annotations := oldPv.metadata.annotations.erase evacuateAnnotation }
          data := ({ spec := some { spec with
                       claimRef := some
                         { apiVersion := some "v1"
                           kind := some "PersistentVolumeClaim"
                           ns := some pvcRef.ns
                           name := some pvcRef.name
                           uid := some pvcRef.uid }
                       persistentVolumeReclaimPolicy := some "Retain"
                       nodeAffinity := some
                         [{ matchExpressions := some
                              [⟨nodeIdTopologyKey, "In", some [target.nodeId]⟩] }]
                       csi := some { csi with
                         volumeHandle := target.newVolumeHandle
                         volumeAttributes := attributes } }
                     phase := none } : PersistentVolume) }

/-! ## Committing -/

def unexpectedPods (mode : EvacuationMode) (pods : List (Obj .pod)) : List (Obj .pod) :=
  match mode with
  | .whenIdle => pods
  | .whenClaimed => pods.filter podIsScheduled

def committing (cfg : Config) (evac : Obj .evacuation) (st : ZFSEvacuationStatus) :
    M Action := do
  let name := evac.name
  let pvcRef ← orErr st.pvcRef "no pvcRef recorded"
  let source ← orErr st.source "no source recorded"
  let target ← orErr st.target "no target recorded"
  let pvc ← orErr (← getOpt .pvc pvcRef.key) "PVC vanished at commit"
  if pvc.metadata.uid ≠ pvcRef.uid then
    beginAbort name st "PVC UID changed at commit; aborting"
  else do
    let pods ← podsReferencingPvc pvcRef.ns pvcRef.name
    let unexpected := unexpectedPods (specOf evac).mode pods
    if !unexpected.isEmpty then
      beginAbort name st
        ("pods appeared at commit despite lock: " ++ ", ".intercalate (podNames unexpected))
    else match ← blockingReason cfg evac st pods with
    | some msg => wait name st msg 15
    | none => do
      let oldPv ← orErr (← getOpt .pv ⟨"", (specOf evac).pvName⟩) "old PV vanished at commit"
      if oldPv.metadata.uid ≠ source.pvUid then fail name st "old PV UID changed at commit"
      else match renderNewPv oldPv pvcRef target with
      | .error text => throw (.other text)
      | .ok newPv =>
        -- The status write is the commit record; from here on, roll forward only.
        advance name { st with
          oldPvManifest := some (oldPv.metadata, oldPv.data)
          newPvManifest := some (newPv.metadata, newPv.data)
          committed := true } .swapping

/-! ## Swapping -/

def stripPvFinalizers (cur : List String) : List String :=
  cur.filter fun f => f ≠ pvProtection ∧ f ≠ provisionerFinalizer

/-- The PV is bound to the claim that the evacuation recorded. -/
def boundTo (pv : Obj .pv) (pvcUid : Uid) : Bool :=
  let data : PersistentVolume := pv.data
  data.phase == some "Bound" &&
    (((pvSpec pv).bind (·.claimRef)).bind (·.uid)).getD 0 == pvcUid

def swapping (cfg : Config) (evac : Obj .evacuation) (st : ZFSEvacuationStatus) :
    M Action := do
  let name := evac.name
  let source ← orErr st.source "no source recorded"
  let pvcRef ← orErr st.pvcRef "no pvcRef recorded"
  let pvKey : Key := ⟨"", (specOf evac).pvName⟩
  match ← getOpt .pv pvKey with
  | some pv =>
    if pv.metadata.uid = source.pvUid then
      if !pv.deleting then do
        let pods ← podsReferencingPvc pvcRef.ns pvcRef.name
        match ← blockingReason cfg evac st pods with
        | some msg => wait name st msg 10
        | none => do
          deleteObj .pv pvKey
          setFinalizers .pv pvKey stripPvFinalizers
          pure (requeueSecs 2)
      else do
        setFinalizers .pv pvKey stripPvFinalizers
        pure (requeueSecs 2)
    -- A PV with a different identity is taken for our replacement.
    else if boundTo pv pvcRef.uid then do
      match st.originalReclaimPolicy with
      | some orig => patchObj .pv pvKey (.reclaimPolicy orig)
      | none => pure ()
      advance name st .cleaningUp
    else pure (requeueSecs 3)
  | none => do
    let manifest ← orErr st.newPvManifest
      "no newPVManifest recorded; cannot complete swap"
    createIfAbsent (⟨manifest.1, manifest.2⟩ : Obj .pv)
    pure (requeueSecs 2)

end ZfsEvacuation
