import ZfsEvacuation.EvacuationSystem
import ZfsEvacuation.IssuedCalls

/-!
# The footprint of the controller

All the calls that a reconcile can make, whatever it is answered: which kinds of objects it reads,
and which of them it creates, replaces, deletes or patches, and in which namespace.
-/
namespace ZfsEvacuation
open ClientProgram Program

/-- The kinds of zfs-localpv, whose objects live in its namespace. -/
def Kind.ofZfs : Kind → Bool
  | .zfsVolume | .zfsSnapshot | .zfsBackup | .zfsRestore | .zfsNode => true
  | _ => false

/-- The resources of zfs-localpv that drive its agents. -/
def Kind.driven : Kind → Bool
  | .zfsVolume | .zfsSnapshot | .zfsBackup | .zfsRestore => true
  | _ => false

/-- The phases that the handler of a phase writes. -/
def Phase.onward : Phase → List Phase
  | .pending => [.guarding]
  | .guarding => [.retaining]
  | .retaining => [.locking]
  | .locking => [.quiescing]
  | .quiescing => [.quiescing, .targetSelecting]
  | .targetSelecting => [.targetSelecting, .transferring]
  | .transferring => [.transferring, .adopting]
  | .adopting => [.adopting, .committing]
  | .committing => [.committing, .swapping]
  | .swapping => [.swapping, .cleaningUp]
  | .cleaningUp => [.cleaningUp, .completed]
  | .completed | .failed | .aborting => []

/-- What a reconcile may ask for. It writes statuses of a certain kind. -/
inductive Footprint (cfg : Config) (writes : ZFSEvacuationStatus → Prop) : Call → Prop
  | get (k : Kind) (key : Key) (h : k.ofZfs = true → key.ns = cfg.openebsNs) :
      Footprint cfg writes (.get k key)
  | listNodes : Footprint cfg writes (.list .node {})
  | listPods (ns : String) : Footprint cfg writes (.list .pod { ns := some ns })
  | listEvacs : Footprint cfg writes (.list .evacuation {})
  | listZfs (k : Kind) (label : Option (String × String)) (h : k.ofZfs = true) :
      Footprint cfg writes (.list k { ns := some cfg.openebsNs, label })
  | createZfs (k : Kind) (o : Obj k) (h : k.driven = true) (hns : o.metadata.ns = cfg.openebsNs) :
      Footprint cfg writes (.create k o)
  | createPv (o : Obj .pv) : Footprint cfg writes (.create .pv o)
  | createParams (o : Obj .params) : Footprint cfg writes (.create .params o)
  | replaceParams (o : Obj .params) : Footprint cfg writes (.replace .params o)
  | deleteZfs (k : Kind) (key : Key) (h : k.driven = true) (hns : key.ns = cfg.openebsNs) :
      Footprint cfg writes (.delete k key)
  | deletePv (key : Key) : Footprint cfg writes (.delete .pv key)
  | patchZfs (k : Kind) (key : Key) (fs : List String) (h : k.driven = true)
      (hns : key.ns = cfg.openebsNs) : Footprint cfg writes (.patch k key (.finalizers fs))
  | patchPv (key : Key) (p : Patch .pv) : Footprint cfg writes (.patch .pv key p)
  | labelPvc (key : Key) (name : String) (value : Option String) :
      Footprint cfg writes (.patch .pvc key (.label name value))
  | patchStatus (key : Key) (st : ZFSEvacuationStatus) (h : writes st) :
      Footprint cfg writes (.patch .evacuation key (.status st))
  | patchFinalizers (key : Key) (fs : List String) :
      Footprint cfg writes (.patch .evacuation key (.finalizers fs))
  | inside (c : Call) (h : c.remote = false) : Footprint cfg writes c

/-- Any status of the phase is of the kind that is written. -/
def Lets (writes : ZFSEvacuationStatus → Prop) (p : Phase) : Prop := ∀ w, w.phase = p → writes w

/-! ## Rules for the helpers -/

section Helpers
variable {ok : Call → Prop} {α β : Type} {k : Kind} {key : Key}

theorem issues_send {c : Call} (h : ok c) : Issues ok (send c) := ⟨h, fun _ => trivial⟩

theorem issues_answer {r : Except ApiError α} : Issues ok (answer r) := by cases r <;> trivial

theorem issues_orErr {o : Option α} {text : String} : Issues ok (orErr o text) := by
  cases o <;> trivial

theorem issues_withContext {text : String} {p : M α} (h : Issues ok p) :
    Issues ok (withContext text p) := issues_mapError.mpr h

theorem issues_getOpt (h : ok (.get k key)) : Issues ok (getOpt k key) :=
  issues_bind (issues_send h) fun _ => issues_answer

theorem issues_listObjs {sel : Selector} (h : ok (.list k sel)) : Issues ok (listObjs k sel) :=
  issues_bind (issues_send h) fun _ => issues_answer

theorem issues_deleteObj (h : ok (.delete k key)) : Issues ok (deleteObj k key) :=
  issues_bind (issues_send h) fun _ => issues_answer

theorem issues_patchObj {p : Patch k} (h : ok (.patch k key p)) : Issues ok (patchObj k key p) :=
  issues_bind (issues_send h) fun _ => issues_answer

theorem issues_createIfAbsent {o : Obj k} (h : ok (.create k o)) : Issues ok (createIfAbsent o) := by
  refine issues_bind (issues_send h) fun r => ?_
  rcases r with (_ | _ | text) | _ <;> trivial

theorem issues_nowRfc3339 (h : ok .now) : Issues ok nowRfc3339 := ⟨h, fun _ => trivial⟩

theorem issues_writeStatus {name : String} {st : ZFSEvacuationStatus}
    (h : ok (.patch .evacuation ⟨"", name⟩ (.status st))) : Issues ok (writeStatus name st) :=
  issues_withContext (issues_patchObj h)

theorem issues_nodeById {nodeId : String} (hget : ok (.get .node ⟨"", nodeId⟩))
    (hlist : ok (.list .node {})) : Issues ok (nodeById nodeId) := by
  refine issues_bind (issues_getOpt hget) fun named => ?_
  cases named.filter fun n => nodeIdOf n == nodeId with
  | some _ => trivial
  | none => exact issues_bind (issues_listObjs hlist) fun _ => trivial

theorem issues_podsReferencingPvc {ns pvcName : String} (h : ok (.list .pod { ns := some ns })) :
    Issues ok (podsReferencingPvc ns pvcName) :=
  issues_bind (issues_listObjs h) fun _ => trivial

theorem issues_setFinalizers {f : List String → List String} (hget : ok (.get k key))
    (hpatch : ∀ fs, ok (.patch k key (.finalizers fs))) : Issues ok (setFinalizers k key f) := by
  refine issues_bind (issues_getOpt hget) fun o => ?_
  cases o with
  | none => trivial
  | some o =>
    simp only
    split_ifs
    · exact issues_patchObj (hpatch _)
    · trivial

theorem issues_strip {nodeId : String} (hnode : ok (.get .node ⟨"", nodeId⟩))
    (hlist : ok (.list .node {})) (hget : ok (.get k key))
    (hpatch : ∀ fs, ok (.patch k key (.finalizers fs))) :
    Issues ok (stripZfsFinalizerIfNodeGone k key nodeId) := by
  refine issues_bind (issues_nodeById hnode hlist) fun o => ?_
  cases o with
  | some _ => trivial
  | none => exact issues_setFinalizers hget hpatch

theorem issues_updateParams {mutate : EvacuationParamsSpec → EvacuationParamsSpec × Bool}
    (hget : ok (.get .params ⟨"", paramsName⟩)) (hcreate : ∀ o, ok (.create .params o))
    (hreplace : ∀ o, ok (.replace .params o)) (tries : Nat) :
    Issues ok (updateParams mutate tries) := by
  induction tries with
  | zero => trivial
  | succ tries ih =>
    refine issues_bind (issues_getOpt hget) fun o => ?_
    rcases o with _ | ⟨m, spec⟩
    · simp only
      split_ifs
      · trivial
      · refine issues_bind (issues_send (hcreate _)) fun r => ?_
        rcases r with (_ | _ | text) | _
        exacts [trivial, ih, trivial, trivial]
    · simp only
      split_ifs
      · trivial
      · refine issues_bind (issues_send (hreplace _)) fun r => ?_
        rcases r with (_ | _ | text) | _
        exacts [trivial, ih, trivial, trivial]

theorem issues_blockingReason {cfg : Config} {evac : Obj .evacuation} {st : ZFSEvacuationStatus}
    (pods : List (Obj .pod)) (hget : ∀ key, ok (.get .node key)) :
    Issues ok (blockingReason cfg evac st pods) := by
  unfold blockingReason
  cases (specOf evac).mode with
  | whenIdle => trivial
  | whenClaimed =>
    simp only
    split_ifs
    · trivial
    have hrepels : Issues ok (sourceRepelsPods cfg st) := by
      refine issues_bind issues_orErr fun source => issues_bind (issues_getOpt (hget _)) ?_
      rintro (_ | node) <;> trivial
    refine issues_bind hrepels fun repels => ?_
    split_ifs <;> trivial

end Helpers

/-! ## The handlers -/

section Handlers
variable {cfg : Config} {writes : ZFSEvacuationStatus → Prop} {evac : Obj .evacuation}
  {st : ZFSEvacuationStatus} {name : String} {k : Kind} {key : Key}

theorem shows {p : M Action} {name : String} {st : ZFSEvacuationStatus} {a : Action}
    (h : p = do
      writeStatus name st
      pure a) (hw : writes st) : Issues (Footprint cfg writes) p := by
  rw [h]
  exact issues_bind (issues_writeStatus (.patchStatus _ _ hw)) fun _ => trivial

theorem advance_footprint {phase : Phase} (h : Lets writes phase) :
    Issues (Footprint cfg writes) (advance name st phase) := shows rfl (h _ rfl)

theorem fail_footprint (h : Lets writes .failed) (msg : String) :
    Issues (Footprint cfg writes) (fail name st msg) := shows rfl (h _ rfl)

theorem beginAbort_footprint (h : Lets writes .aborting) (msg : String) :
    Issues (Footprint cfg writes) (beginAbort name st msg) := shows rfl (h _ rfl)

theorem wait_footprint {p : Phase} (h : Lets writes p) (hp : st.phase = p) (msg : String)
    (secs : Nat) : Issues (Footprint cfg writes) (wait name st msg secs) := by
  unfold wait
  split_ifs
  · exact shows rfl (h _ hp)
  · trivial

theorem requeueMsg_footprint {p : Phase} (h : Lets writes p) (hp : st.phase = p)
    (msg : String) : Issues (Footprint cfg writes) (requeueMsg name st msg) := by
  unfold requeueMsg
  split_ifs
  · exact shows rfl (h _ hp)
  · trivial

theorem get_footprint (h : k.ofZfs = false) : Issues (Footprint cfg writes) (getOpt k key) :=
  issues_getOpt (.get k key fun hzfs => by
    rw [h] at hzfs
    cases hzfs)

theorem getZfs_footprint (k : Kind) (name : String) :
    Issues (Footprint cfg writes) (getOpt k ⟨cfg.openebsNs, name⟩) :=
  issues_getOpt (.get k _ fun _ => rfl)

theorem nodeById_footprint (nodeId : String) : Issues (Footprint cfg writes) (nodeById nodeId) :=
  issues_nodeById (.get .node _ fun h => by cases h) .listNodes

theorem pods_footprint (ns pvcName : String) :
    Issues (Footprint cfg writes) (podsReferencingPvc ns pvcName) :=
  issues_podsReferencingPvc (.listPods ns)

theorem setFinalizers_footprint (name : String) (f : List String → List String)
    (h : k.driven = true) :
    Issues (Footprint cfg writes) (setFinalizers k ⟨cfg.openebsNs, name⟩ f) :=
  issues_setFinalizers (.get k _ fun _ => rfl) fun fs => .patchZfs k _ fs h rfl

theorem strip_footprint (name nodeId : String) (h : k.driven = true) :
    Issues (Footprint cfg writes) (stripZfsFinalizerIfNodeGone k ⟨cfg.openebsNs, name⟩ nodeId) :=
  issues_strip (.get .node _ fun h => by cases h) .listNodes (.get k _ fun _ => rfl)
    fun fs => .patchZfs k _ fs h rfl

theorem updateParams_footprint (mutate : EvacuationParamsSpec → EvacuationParamsSpec × Bool)
    (tries : Nat) : Issues (Footprint cfg writes) (updateParams mutate tries) :=
  issues_updateParams (.get .params _ fun h => by cases h) (fun o => .createParams o)
    (fun o => .replaceParams o) tries

theorem unlabelPvc_footprint (r : PvcRef) : Issues (Footprint cfg writes) (unlabelPvc r) :=
  issues_bind (issues_send (.labelPvc _ _ _)) fun _ => trivial

theorem removeEvacFinalizer_footprint :
    Issues (Footprint cfg writes) (removeEvacFinalizer name) := by
  refine issues_bind (get_footprint rfl) fun o => ?_
  cases o with
  | none => trivial
  | some _ => exact issues_patchObj (.patchFinalizers _ _)

theorem cleanupCr_footprint (name : String) (nodeId : Option String) (h : k.driven = true) :
    Issues (Footprint cfg writes) (cleanupCr k ⟨cfg.openebsNs, name⟩ nodeId) := by
  refine issues_bind (getZfs_footprint k name) fun o => ?_
  cases o with
  | none => trivial
  | some cr =>
    simp only
    split_ifs
    · exact issues_bind (issues_deleteObj (.deleteZfs k _ h rfl)) fun _ => trivial
    · cases nodeId with
      | none => trivial
      | some nid => exact issues_bind (strip_footprint name nid h) fun _ => trivial

theorem cleanupTransferCrs_footprint (attempt : Nat) :
    Issues (Footprint cfg writes) (cleanupTransferCrs cfg name attempt st) :=
  issues_bind (cleanupCr_footprint _ _ rfl) fun _ =>
    issues_bind (cleanupCr_footprint _ _ rfl) fun _ => trivial

/-! ### The checks before the handlers -/

theorem ensureEvacFinalizer_footprint :
    Issues (Footprint cfg writes) (ensureEvacFinalizer evac) := by
  unfold ensureEvacFinalizer
  split_ifs
  · trivial
  · exact issues_patchObj (.patchFinalizers _ _)

theorem triggerWithdrawn_footprint (pv : Obj .pv) :
    Issues (Footprint cfg writes) (triggerWithdrawn cfg evac st pv) := by
  unfold triggerWithdrawn
  cases (specOf evac).trigger with
  | annotation =>
    simp only
    split_ifs <;> trivial
  | nodeTaint =>
    cases st.source with
    | none => trivial
    | some src =>
      refine issues_bind (get_footprint rfl) fun node => ?_
      cases node with
      | none => trivial
      | some node =>
        simp only
        split_ifs <;> trivial

theorem cancelReason_footprint : Issues (Footprint cfg writes) (cancelReason cfg evac st) := by
  unfold cancelReason
  split_ifs
  · trivial
  refine issues_bind (get_footprint rfl) fun pv => ?_
  cases pv with
  | none => trivial
  | some pv =>
    refine issues_bind (triggerWithdrawn_footprint pv) fun withdrawn => ?_
    cases withdrawn with
    | some _ => trivial
    | none =>
      cases st.pvcRef with
      | none => trivial
      | some r =>
        refine issues_bind (get_footprint rfl) fun pvc => ?_
        cases pvc with
        | none => trivial
        | some pvc =>
          simp only
          split_ifs <;> trivial

/-! ### The phases up to the copy -/

theorem pending_footprint (hf : Lets writes .failed) (hn : Lets writes .guarding) :
    Issues (Footprint cfg writes) (pending cfg evac st) := by
  refine issues_bind (get_footprint rfl) fun pv => ?_
  cases pv with
  | none => exact fail_footprint hf _
  | some pv =>
    simp only
    cases evacuableHandle ((pvSpec pv).getD {}) with
    | error msg => exact fail_footprint hf _
    | ok handle =>
      simp only
      cases boundClaim ((pvSpec pv).getD {}) with
      | error msg => exact fail_footprint hf _
      | ok claim =>
        refine issues_bind (get_footprint rfl) fun pvc => ?_
        rcases pvc with _ | ⟨pvcMeta, pvc⟩
        · exact fail_footprint hf _
        simp only
        split_ifs
        · exact fail_footprint hf _
        · exact fail_footprint hf _
        refine issues_bind (getZfs_footprint .zfsVolume handle) fun zv => ?_
        cases zv with
        | none => exact fail_footprint hf _
        | some zv =>
          simp only
          cases volumeRefusal zv with
          | some msg => exact fail_footprint hf _
          | none =>
            refine issues_bind (issues_listObjs (.listZfs .zfsSnapshot _ rfl)) fun snaps => ?_
            split
            · exact fail_footprint hf _
            refine issues_bind (nodeById_footprint _) fun node => ?_
            cases node with
            | none => exact fail_footprint hf _
            | some node =>
              simp only
              split_ifs
              · exact fail_footprint hf _
              · exact advance_footprint hn

theorem guarding_footprint (hn : Lets writes .retaining) :
    Issues (Footprint cfg writes) (guarding cfg evac st) :=
  issues_bind issues_orErr fun _ =>
    issues_bind (issues_withContext (setFinalizers_footprint _ _ rfl)) fun _ => advance_footprint hn

theorem retaining_footprint (hn : Lets writes .locking) :
    Issues (Footprint cfg writes) (retaining evac st) :=
  issues_bind (issues_withContext (issues_patchObj (.patchPv _ _))) fun _ => advance_footprint hn

theorem locking_footprint (hn : Lets writes .quiescing) :
    Issues (Footprint cfg writes) (locking evac st) :=
  issues_bind issues_orErr fun _ =>
    issues_bind (issues_withContext (updateParams_footprint _ _)) fun _ =>
      issues_bind (issues_withContext (issues_patchObj (.labelPvc _ _ _))) fun _ =>
        issues_bind (issues_nowRfc3339 (.inside _ rfl)) fun _ => advance_footprint hn

theorem blockingReason_footprint (pods : List (Obj .pod)) :
    Issues (Footprint cfg writes) (blockingReason cfg evac st pods) :=
  issues_blockingReason pods fun key => .get .node key fun h => by cases h

theorem quiescing_footprint (hst : Lets writes st.phase) (hn : Lets writes .targetSelecting) :
    Issues (Footprint cfg writes) (quiescing cfg evac st) := by
  refine issues_bind issues_orErr fun r => issues_bind (issues_send (.inside _ rfl)) fun now => ?_
  split
  · trivial
  refine issues_bind (pods_footprint _ _) fun pods => ?_
  refine issues_bind (blockingReason_footprint pods) fun reason => ?_
  cases reason with
  | some msg => exact wait_footprint hst (by rfl) _ _
  | none =>
    refine issues_bind (issues_send (.inside _ rfl)) fun now' => ?_
    split
    · exact issues_bind (issues_nowRfc3339 (.inside _ rfl)) fun _ => shows rfl (hst _ rfl)
    · split_ifs
      · trivial
      · exact advance_footprint hn

/-! ### Target selection -/

theorem classifyClaim_footprint (pvName ns sourceNodeId claim : String) :
    Issues (Footprint cfg writes) (classifyClaim cfg pvName ns sourceNodeId claim) := by
  refine issues_bind (get_footprint rfl) fun pvc => ?_
  rcases pvc with _ | ⟨m, pvc⟩
  · trivial
  simp only
  cases PersistentVolumeClaim.volumeName pvc with
  | none => trivial
  | some memberPv =>
    refine issues_bind (get_footprint rfl) fun pv => ?_
    cases pv with
    | none => trivial
    | some pv =>
      simp only
      cases (pvSpec pv).bind (·.csi) with
      | none => trivial
      | some csi =>
        simp only
        split
        · trivial
        refine issues_bind (getZfs_footprint .zfsVolume _) fun zv => ?_
        rcases zv with _ | ⟨mv, zv⟩
        · trivial
        simp only
        split
        · trivial
        · exact issues_bind (get_footprint rfl) fun _ => trivial

theorem classifyClaims_footprint (pvName ns sourceNodeId : String) (claims : List String) :
    Issues (Footprint cfg writes) (classifyClaims cfg pvName ns sourceNodeId claims) := by
  induction claims with
  | nil => trivial
  | cons claim claims ih =>
    exact issues_bind (classifyClaim_footprint _ _ _ _) fun _ => issues_bind ih fun _ => trivial

theorem resolve_footprint (r : PvcRef) (sourceNodeId : String) (pods : List (Obj .pod)) :
    Issues (Footprint cfg writes) (resolve cfg name r sourceNodeId pods) := by
  unfold resolve
  cases (unscheduledPods pods).head? with
  | none => trivial
  | some pod => exact issues_bind (classifyClaims_footprint _ _ _ _) fun _ => trivial

theorem storageClassOf_footprint (pv : Obj .pv) :
    Issues (Footprint cfg writes) (storageClassOf pv) := by
  unfold storageClassOf
  cases (pvSpec pv).bind (·.storageClassName) with
  | none => trivial
  | some sc => exact get_footprint rfl

theorem scPoolname_footprint (pv : Obj .pv) : Issues (Footprint cfg writes) (scPoolname pv) := by
  refine issues_bind (storageClassOf_footprint pv) fun sc => ?_
  rcases sc with _ | ⟨m, sc⟩ <;> trivial

theorem allowedNodeIds_footprint (pv : Obj .pv) :
    Issues (Footprint cfg writes) (allowedNodeIds pv) := by
  refine issues_bind (storageClassOf_footprint pv) fun sc => ?_
  rcases sc with _ | ⟨m, sc⟩
  · trivial
  simp only
  cases StorageClass.allowedTopologies sc with
  | none => trivial
  | some topos =>
    simp only
    split_ifs <;> trivial

theorem selectTarget_footprint (input : SelectionInput) :
    Issues (Footprint cfg writes) (selectTarget cfg input) := by
  refine issues_bind (issues_listObjs .listNodes) fun nodes => ?_
  refine issues_bind (issues_listObjs .listEvacs) fun evacs => ?_
  refine issues_bind (scPoolname_footprint _) fun scPool => ?_
  refine issues_bind (allowedNodeIds_footprint _) fun allowed => ?_
  refine issues_bind (issues_listObjs (.listZfs .zfsNode none rfl)) fun zfsNodes => ?_
  simp only
  split <;> trivial

theorem recordChoice_footprint (hst : Lets writes st.phase) (hn : Lets writes .transferring)
    (source : SourceInfo) (pv : Obj .pv) (group : Option Group) :
    Issues (Footprint cfg writes) (do
      let chosen : Except Error TargetInfo ← tryCatch
        (do pure (.ok (← selectTarget cfg
          (selectionInput evac.name (specOf evac) source pv group))))
        (fun e => pure (.error e))
      match chosen with
      | .ok t => do
        let r : Nat ← send (.random (2 ^ 128))
        advance evac.name { st with
          colocation := group.map (colocationStatus (specOf evac))
          target := some { t with newVolumeHandle := newDestinationHandle r } } .transferring
      | .error e => wait evac.name st ("no target yet: " ++ e.text) 60) := by
  refine issues_bind (issues_tryCatch ?_ fun _ => trivial) fun chosen => ?_
  · exact issues_bind (selectTarget_footprint _) fun _ => trivial
  · cases chosen with
    | error e => exact wait_footprint hst (by rfl) _ _
    | ok t => exact issues_bind (issues_send (.inside _ rfl)) fun _ => advance_footprint hn

theorem selectAndRecord_footprint (hst : Lets writes st.phase) (hf : Lets writes .failed)
    (hn : Lets writes .transferring) (source : SourceInfo) (r : PvcRef) :
    Issues (Footprint cfg writes) (selectAndRecord cfg evac st source r) := by
  refine issues_bind (issues_listObjs .listEvacs) fun evacs => ?_
  split_ifs
  · exact wait_footprint hst (by rfl) _ _
  refine issues_bind (get_footprint rfl) fun pv => ?_
  cases pv with
  | none => exact fail_footprint hf _
  | some pv =>
    cases (specOf evac).mode with
    | whenIdle => exact recordChoice_footprint hst hn source pv none
    | whenClaimed =>
      exact issues_bind (pods_footprint _ _) fun pods =>
        issues_bind (resolve_footprint _ _ _) fun group =>
          recordChoice_footprint hst hn source pv group

theorem targetSelecting_footprint (hst : Lets writes st.phase) (hf : Lets writes .failed)
    (hn : Lets writes .transferring) :
    Issues (Footprint cfg writes) (targetSelecting cfg evac st) :=
  issues_bind issues_orErr fun _ => issues_bind issues_orErr fun _ =>
    issues_bind (issues_send (.inside _ rfl)) fun _ =>
      issues_andFinally (selectAndRecord_footprint hst hf hn _ _) (issues_send (.inside _ rfl))

/-! ### The copy -/

theorem startAttempt_footprint (hst : Lets writes st.phase) (attempt : Nat) :
    Issues (Footprint cfg writes) (startAttempt cfg evac st attempt) := by
  have hpeers (node : Obj .node) : Issues (Footprint cfg writes) (relayPeers node) := by
    unfold relayPeers
    split_ifs <;> trivial
  refine issues_bind issues_orErr fun source => issues_bind issues_orErr fun target => ?_
  refine issues_bind (issues_send (.inside _ rfl)) fun existing => ?_
  split
  · trivial
  refine issues_bind (nodeById_footprint _) fun src => issues_bind issues_orErr fun srcNode => ?_
  refine issues_bind (nodeById_footprint _) fun dst => issues_bind issues_orErr fun dstNode => ?_
  refine issues_bind (hpeers _) fun backupPeers => issues_bind (hpeers _) fun restorePeers => ?_
  refine issues_bind (issues_send (.inside _ rfl)) fun spawned => ?_
  cases spawned with
  | error text => trivial
  | ok relay =>
    refine issues_bind (issues_send (.inside _ rfl)) fun _ => ?_
    refine issues_bind (issues_send (.inside _ rfl)) fun r => ?_
    refine issues_bind (issues_nowRfc3339 (.inside _ rfl)) fun startedAt => ?_
    refine issues_bind (issues_writeStatus (.patchStatus _ _ (hst _ rfl))) fun _ => ?_
    exact issues_bind (issues_createIfAbsent (.createZfs .zfsBackup _ rfl rfl)) fun _ => trivial

theorem createRestore_footprint (attempt port : Nat) :
    Issues (Footprint cfg writes) (createRestore cfg st name attempt port) := by
  refine issues_bind issues_orErr fun source => issues_bind issues_orErr fun target => ?_
  refine issues_bind (getZfs_footprint .zfsVolume _) fun zv => ?_
  rcases zv with _ | ⟨m, zv⟩
  · trivial
  · exact issues_createIfAbsent (.createZfs .zfsRestore _ rfl rfl)

theorem retryOrFail_footprint (hst : Lets writes st.phase) (ha : Lets writes .aborting)
    (t : TransferStatus) (maxAttempts : Nat) (reason : String) :
    Issues (Footprint cfg writes) (retryOrFail cfg evac st t maxAttempts reason) := by
  refine issues_bind (issues_send (.inside _ rfl)) fun _ => ?_
  refine issues_bind (cleanupTransferCrs_footprint _) fun gone => ?_
  split_ifs
  · exact wait_footprint hst (by rfl) _ _
  · exact beginAbort_footprint ha _
  · exact startAttempt_footprint hst _

theorem transferring_footprint (hst : Lets writes st.phase) (ha : Lets writes .aborting)
    (hn : Lets writes .adopting) : Issues (Footprint cfg writes) (transferring cfg evac st) := by
  unfold transferring
  cases st.transfer with
  | none => exact startAttempt_footprint hst 1
  | some t =>
    refine issues_bind (getZfs_footprint .zfsBackup _) fun bkp => ?_
    refine issues_bind (getZfs_footprint .zfsRestore _) fun rst => ?_
    refine issues_bind (issues_send (.inside _ rfl)) fun mem => ?_
    refine issues_bind (issues_send (.inside _ rfl)) fun now => ?_
    simp only
    split
    · exact issues_bind (issues_send (.inside _ rfl)) fun _ => advance_footprint hn
    · exact retryOrFail_footprint hst ha _ _ _
    · trivial
    · exact issues_bind (issues_send (.inside _ rfl)) fun _ => trivial
    · exact wait_footprint hst (by rfl) _ _
    · exact issues_bind (createRestore_footprint _ _) fun _ => trivial
    · split_ifs
      · exact shows rfl (hst _ rfl)
      · trivial

/-! ### From the adoption to the end -/

theorem adopting_footprint (hst : Lets writes st.phase) (ha : Lets writes .aborting)
    (hn : Lets writes .committing) : Issues (Footprint cfg writes) (adopting cfg evac st) := by
  refine issues_bind issues_orErr fun source => issues_bind issues_orErr fun target => ?_
  refine issues_bind (getZfs_footprint .zfsVolume _) fun zv => ?_
  cases zv with
  | none =>
    refine issues_bind (getZfs_footprint .zfsVolume _) fun src => ?_
    rcases src with _ | ⟨m, src⟩
    · trivial
    · exact issues_bind (issues_createIfAbsent (.createZfs .zfsVolume _ rfl rfl)) fun _ => trivial
  | some zv =>
    simp only
    split_ifs
    · exact advance_footprint hn
    · exact beginAbort_footprint ha _
    · exact wait_footprint hst (by rfl) _ _

theorem committing_footprint (hst : Lets writes st.phase) (ha : Lets writes .aborting)
    (hf : Lets writes .failed) (hn : Lets writes .swapping) :
    Issues (Footprint cfg writes) (committing cfg evac st) := by
  refine issues_bind issues_orErr fun r => issues_bind issues_orErr fun source => ?_
  refine issues_bind issues_orErr fun target => issues_bind (get_footprint rfl) fun pvc => ?_
  refine issues_bind issues_orErr fun pvc => ?_
  split
  · exact beginAbort_footprint ha _
  refine issues_bind (pods_footprint _ _) fun pods => ?_
  simp only
  split
  · exact beginAbort_footprint ha _
  refine issues_bind (blockingReason_footprint pods) fun reason => ?_
  cases reason with
  | some msg => exact wait_footprint hst (by rfl) _ _
  | none =>
    refine issues_bind (get_footprint rfl) fun pv => issues_bind issues_orErr fun oldPv => ?_
    split
    · exact fail_footprint hf _
    · cases renderNewPv oldPv r target with
      | error text => trivial
      | ok newPv => exact advance_footprint hn

theorem swapping_footprint (hst : Lets writes st.phase) (hn : Lets writes .cleaningUp) :
    Issues (Footprint cfg writes) (swapping cfg evac st) := by
  have hstrip : Issues (Footprint cfg writes) (setFinalizers .pv ⟨"", (specOf evac).pvName⟩
      stripPvFinalizers) :=
    issues_setFinalizers (.get .pv _ fun h => by cases h) fun fs => .patchPv _ _
  refine issues_bind issues_orErr fun source => issues_bind issues_orErr fun r => ?_
  refine issues_bind (get_footprint rfl) fun pv => ?_
  cases pv with
  | none =>
    exact issues_bind issues_orErr fun manifest =>
      issues_bind (issues_createIfAbsent (.createPv _)) fun _ => trivial
  | some pv =>
    simp only
    split_ifs
    · refine issues_bind (pods_footprint _ _) fun pods => ?_
      refine issues_bind (blockingReason_footprint pods) fun reason => ?_
      cases reason with
      | some msg => exact wait_footprint hst (by rfl) _ _
      | none =>
        exact issues_bind (issues_deleteObj (.deletePv _)) fun _ =>
          issues_bind hstrip fun _ => trivial
    · exact issues_bind hstrip fun _ => trivial
    · cases st.originalReclaimPolicy with
      | none => exact advance_footprint hn
      | some orig =>
        exact issues_bind (issues_patchObj (.patchPv _ _)) fun _ => advance_footprint hn
    · trivial

theorem markTargetSnapDeleteIssued_footprint (hst : Lets writes st.phase) :
    Issues (Footprint cfg writes) (markTargetSnapDeleteIssued name st) :=
  issues_bind (issues_writeStatus (.patchStatus _ _ (hst _ rfl))) fun _ => trivial

theorem destroyTargetSnapshot_footprint (hst : Lets writes st.phase) :
    Issues (Footprint cfg writes) (destroyTargetSnapshot cfg name st) := by
  have hdelete (key : Key) (msg : Option String) (hns : key.ns = cfg.openebsNs) :
      Issues (Footprint cfg writes) (do
        deleteObj .zfsSnapshot key
        let st ← markTargetSnapDeleteIssued name st
        pure (st, msg)) :=
    issues_bind (issues_deleteObj (.deleteZfs .zfsSnapshot _ rfl hns)) fun _ =>
      issues_bind (markTargetSnapDeleteIssued_footprint hst) fun _ => trivial
  unfold destroyTargetSnapshot
  cases st.transfer with
  | none => trivial
  | some t =>
    cases st.target with
    | none => trivial
    | some target =>
      refine issues_bind (getZfs_footprint .zfsSnapshot _) fun existing => ?_
      split
      · cases existing with
        | none => trivial
        | some _ => exact issues_bind (strip_footprint _ _ rfl) fun _ => trivial
      · cases existing with
        | none =>
          refine issues_bind (getZfs_footprint .zfsVolume _) fun zv => ?_
          rcases zv with _ | ⟨m, zv⟩
          · trivial
          · exact issues_bind (issues_createIfAbsent (.createZfs .zfsSnapshot _ rfl rfl))
              fun _ => trivial
        | some cr =>
          simp only
          split
          · exact issues_bind (markTargetSnapDeleteIssued_footprint hst) fun _ => trivial
          split
          · exact hdelete _ _ rfl
          refine issues_bind (nodeById_footprint _) fun node => ?_
          cases node with
          | some _ => trivial
          | none => exact hdelete _ _ rfl

/-- The status comes back in the phase it had, with the same claim. -/
theorem destroyTargetSnapshot_returns :
    Returns (fun left => left.1.phase = st.phase ∧ left.1.pvcRef = st.pvcRef)
      (destroyTargetSnapshot cfg name st) := by
  have hmark (msg : Option String) : Returns (fun left : ZFSEvacuationStatus × Option String =>
      left.1.phase = st.phase ∧ left.1.pvcRef = st.pvcRef) (do
        let st ← markTargetSnapDeleteIssued name st
        pure (st, msg)) := by
    have hmarked : Returns
        (fun w : ZFSEvacuationStatus => w.phase = st.phase ∧ w.pvcRef = st.pvcRef)
        (markTargetSnapDeleteIssued name st) := returns_bind_of fun _ => ⟨rfl, rfl⟩
    exact returns_bind hmarked fun _ h => h
  have hsame : st.phase = st.phase ∧ st.pvcRef = st.pvcRef := ⟨rfl, rfl⟩
  unfold destroyTargetSnapshot
  cases st.transfer with
  | none => exact hsame
  | some t =>
    cases st.target with
    | none => exact hsame
    | some target =>
      refine returns_bind_of fun existing => ?_
      split
      · cases existing with
        | none => exact hsame
        | some _ => exact returns_bind_of fun _ => hsame
      · cases existing with
        | none =>
          refine returns_bind_of fun zv => ?_
          rcases zv with _ | ⟨m, zv⟩
          · exact hsame
          · exact returns_bind_of fun _ => hsame
        | some cr =>
          simp only
          split
          · exact hmark _
          split
          · exact returns_bind_of fun _ => hmark _
          refine returns_bind_of fun node => ?_
          cases node with
          | some _ => exact hsame
          | none => exact returns_bind_of fun _ => hmark _

theorem destroySource_footprint (source : SourceInfo) :
    Issues (Footprint cfg writes) (destroySource cfg source) := by
  refine issues_bind (getZfs_footprint .zfsVolume _) fun zv => ?_
  have hrest : Issues (Footprint cfg writes) (do
      setFinalizers .zfsVolume ⟨cfg.openebsNs, source.volumeHandle⟩ unguard
      stripZfsFinalizerIfNodeGone .zfsVolume ⟨cfg.openebsNs, source.volumeHandle⟩ source.nodeId
      pure true) :=
    issues_bind (setFinalizers_footprint _ _ rfl) fun _ =>
      issues_bind (strip_footprint _ _ rfl) fun _ => trivial
  cases zv with
  | none => trivial
  | some zv =>
    simp only
    split
    · exact issues_bind (issues_deleteObj (.deleteZfs .zfsVolume _ rfl rfl)) fun _ => hrest
    · exact hrest

theorem complete_footprint (hn : Lets writes .completed) (key : Key) :
    Issues (Footprint cfg writes) (do
    match ← getOpt .pv key with
    | some pv =>
      if pv.metadata.annotations.contains evacuateAnnotation then
        patchObj .pv key (.annotate evacuateAnnotation none)
    | none => pure ()
    let action ← advance evac.name st .completed
    removeEvacFinalizer evac.name
    pure action) := by
  have hend : Issues (Footprint cfg writes) (do
      let action ← advance evac.name st .completed
      removeEvacFinalizer evac.name
      pure action) :=
    issues_bind (advance_footprint hn) fun _ =>
      issues_bind removeEvacFinalizer_footprint fun _ => trivial
  refine issues_bind (get_footprint rfl) fun pv => ?_
  cases pv with
  | none => exact hend
  | some pv =>
    simp only
    split
    · exact issues_bind (issues_patchObj (.patchPv _ _)) fun _ => hend
    · exact hend

theorem finishCleanup_footprint (hn : Lets writes .completed) :
    Issues (Footprint cfg writes) (finishCleanup evac st) := by
  unfold finishCleanup
  cases st.pvcRef with
  | none => exact complete_footprint hn _
  | some r =>
    exact issues_bind (updateParams_footprint _ _) fun _ =>
      issues_bind (unlabelPvc_footprint r) fun _ => complete_footprint hn _

theorem destroyBoth_footprint (hst : Lets writes st.phase) (hn : Lets writes .completed)
    (source : SourceInfo) : Issues (Footprint cfg writes) (do
    let (st, left) ← destroyTargetSnapshot cfg evac.name st
    match left with
    | some msg => wait evac.name st msg 5
    | none => do
      if ← destroySource cfg source then
        wait evac.name st "waiting for source dataset destruction" 10
      else finishCleanup evac st) := by
  refine issues_bind_returns (destroyTargetSnapshot_footprint hst) destroyTargetSnapshot_returns
    fun left hleft => ?_
  rcases left with ⟨st', _ | msg⟩
  · refine issues_bind (destroySource_footprint source) fun there => ?_
    split
    · exact wait_footprint hst hleft.1 _ _
    · exact finishCleanup_footprint hn
  · exact wait_footprint hst hleft.1 _ _

theorem cleaningUp_footprint (hst : Lets writes st.phase) (hn : Lets writes .completed) :
    Issues (Footprint cfg writes) (cleaningUp cfg evac st) := by
  refine issues_bind issues_orErr fun source => ?_
  cases st.transfer with
  | none => exact destroyBoth_footprint hst hn source
  | some t =>
    refine issues_bind (cleanupTransferCrs_footprint _) fun gone => ?_
    cases gone with
    | false => exact wait_footprint hst (by rfl) _ _
    | true => exact destroyBoth_footprint hst hn source

/-! ### The abort -/

theorem targetSide_footprint (hst : Lets writes st.phase) :
    Issues (Footprint cfg writes) (Abort.targetSide cfg name st) := by
  have hmsg (msg : String) : Issues (Footprint cfg writes) (some <$> requeueMsg name st msg) :=
    issues_bind (requeueMsg_footprint hst (by rfl) msg) fun _ => trivial
  have hcleanup (attempt : Nat) : Issues (Footprint cfg writes) (do
      if ← cleanupTransferCrs cfg name attempt st then pure none
      else some <$> requeueMsg name st "abort: cleaning up transfer CRs") := by
    refine issues_bind (cleanupTransferCrs_footprint _) fun gone => ?_
    split
    · trivial
    · exact hmsg _
  have hstrip (handle nodeId msg : String) : Issues (Footprint cfg writes) (do
      stripZfsFinalizerIfNodeGone .zfsVolume ⟨cfg.openebsNs, handle⟩ nodeId
      some <$> requeueMsg name st msg) :=
    issues_bind (strip_footprint _ _ rfl) fun _ => hmsg msg
  unfold Abort.targetSide
  cases st.target with
  | none => trivial
  | some target =>
    cases st.transfer with
    | none => trivial
    | some t =>
      refine issues_bind (getZfs_footprint .zfsRestore _) fun rst => ?_
      refine issues_bind (getZfs_footprint .zfsVolume _) fun zv => ?_
      cases zv with
      | some zv =>
        simp only
        split
        · exact issues_bind (issues_deleteObj (.deleteZfs .zfsVolume _ rfl rfl)) fun _ =>
            hstrip _ _ _
        · exact hstrip _ _ _
      | none =>
        simp only
        split
        · refine issues_bind issues_orErr fun src => ?_
          refine issues_bind (getZfs_footprint .zfsVolume _) fun srcZv => ?_
          rcases srcZv with _ | ⟨m, srcZv⟩
          · exact hcleanup _
          · exact issues_bind (issues_createIfAbsent (.createZfs .zfsVolume _ rfl rfl))
              fun _ => hmsg _
        · exact hcleanup _

theorem restorePolicy_footprint : Issues (Footprint cfg writes) (Abort.restorePolicy evac st) := by
  unfold Abort.restorePolicy
  cases st.source with
  | none => trivial
  | some source =>
    cases st.originalReclaimPolicy with
    | none => trivial
    | some orig =>
      refine issues_bind (get_footprint rfl) fun pv => ?_
      cases pv with
      | none => trivial
      | some pv =>
        simp only
        split_ifs
        · exact issues_patchObj (.patchPv _ _)
        · trivial

theorem abortUnlock_footprint : Issues (Footprint cfg writes) (Abort.unlock st) := by
  unfold Abort.unlock
  cases st.pvcRef with
  | none => trivial
  | some r => exact issues_bind (updateParams_footprint _ _) fun _ => unlabelPvc_footprint r

theorem releaseGuarded_footprint (source : SourceInfo) (gone : Bool) :
    Issues (Footprint cfg writes) (do
      let pv ← getOpt .pv ⟨"", (specOf evac).pvName⟩
      if gone ∧ pv.isNone ∧ st.originalReclaimPolicy = some "Delete" then
        match ← getOpt .zfsVolume ⟨cfg.openebsNs, source.volumeHandle⟩ with
        | some zv =>
          if !zv.deleting then deleteObj .zfsVolume ⟨cfg.openebsNs, source.volumeHandle⟩
          else pure ()
        | none => pure ()
      setFinalizers .zfsVolume ⟨cfg.openebsNs, source.volumeHandle⟩ unguard
      stripZfsFinalizerIfNodeGone .zfsVolume ⟨cfg.openebsNs, source.volumeHandle⟩
        source.nodeId) := by
  have hdrop : Issues (Footprint cfg writes) (do
      setFinalizers .zfsVolume ⟨cfg.openebsNs, source.volumeHandle⟩ unguard
      stripZfsFinalizerIfNodeGone .zfsVolume ⟨cfg.openebsNs, source.volumeHandle⟩
        source.nodeId) :=
    issues_bind (setFinalizers_footprint _ _ rfl) fun _ => strip_footprint _ _ rfl
  refine issues_bind (get_footprint rfl) fun pv => ?_
  simp only
  split
  · refine issues_bind (getZfs_footprint .zfsVolume _) fun zv => ?_
    cases zv with
    | none => exact hdrop
    | some zv =>
      simp only
      split
      · exact issues_bind (issues_deleteObj (.deleteZfs .zfsVolume _ rfl rfl)) fun _ => hdrop
      · exact hdrop
  · exact hdrop

theorem releaseSource_footprint :
    Issues (Footprint cfg writes) (Abort.releaseSource cfg evac st) := by
  unfold Abort.releaseSource
  cases st.source with
  | none => trivial
  | some source =>
    cases st.pvcRef with
    | none => exact releaseGuarded_footprint source false
    | some r =>
      exact issues_bind (get_footprint rfl) fun pvc => releaseGuarded_footprint source pvc.isNone

theorem abortBody_footprint (hst : Lets writes st.phase) (hf : Lets writes .failed) :
    Issues (Footprint cfg writes) (do
      send (.transferRemove evac.name)
      match ← Abort.targetSide cfg evac.name st with
      | some action => pure action
      | none => do
        Abort.restorePolicy evac st
        Abort.unlock st
        Abort.releaseSource cfg evac st
        if evac.deleting then do
          removeEvacFinalizer evac.name
          pure .awaitChange
        else do
          writeStatus evac.name { st with
            phase := .failed
            message := some (st.message.getD "evacuation aborted") }
          pure .awaitChange) := by
  refine issues_bind (issues_send (.inside _ rfl)) fun _ => ?_
  refine issues_bind (targetSide_footprint hst) fun action => ?_
  cases action with
  | some action => trivial
  | none =>
    refine issues_bind restorePolicy_footprint fun _ => ?_
    refine issues_bind abortUnlock_footprint fun _ => ?_
    refine issues_bind releaseSource_footprint fun _ => ?_
    split
    · exact issues_bind removeEvacFinalizer_footprint fun _ => trivial
    · exact shows rfl (hf _ rfl)

theorem abort_footprint (ha : Lets writes .aborting) (hf : Lets writes .failed) :
    Issues (Footprint cfg writes) (Abort.run cfg evac st) := by
  unfold Abort.run
  simp only
  split
  · exact issues_bind (issues_writeStatus (.patchStatus _ _ (ha _ rfl))) fun _ =>
      abortBody_footprint ha hf
  · rename_i hphase
    have hst : st.phase = .aborting := by simpa using hphase
    exact abortBody_footprint (hst ▸ ha) hf

/-! ### A reconcile -/

/-- What a reconcile of the view writes: the abort, or one step of the way. -/
def StepsOn (evac : Obj .evacuation) (w : ZFSEvacuationStatus) : Prop :=
  w.phase ∈ .aborting :: .failed :: (viewStatus evac).phase.onward

theorem handlePhase_footprint :
    Issues (Footprint cfg (StepsOn evac)) (handlePhase cfg evac (viewStatus evac)) := by
  have ha : Lets (StepsOn evac) .aborting := fun w hw => by simp [StepsOn, hw]
  have hf : Lets (StepsOn evac) .failed := fun w hw => by simp [StepsOn, hw]
  have hon : ∀ p, p ∈ (viewStatus evac).phase.onward → Lets (StepsOn evac) p := by
    intro p hp w hw
    simp [StepsOn, hw, hp]
  unfold handlePhase
  generalize hst : (viewStatus evac).phase = p at hon
  cases p with
  | pending => exact pending_footprint hf (hon _ (by decide))
  | guarding => exact guarding_footprint (hon _ (by decide))
  | retaining => exact retaining_footprint (hon _ (by decide))
  | locking => exact locking_footprint (hon _ (by decide))
  | quiescing => exact quiescing_footprint (hst ▸ hon _ (by decide)) (hon _ (by decide))
  | targetSelecting =>
    exact targetSelecting_footprint (hst ▸ hon _ (by decide)) hf (hon _ (by decide))
  | transferring => exact transferring_footprint (hst ▸ hon _ (by decide)) ha (hon _ (by decide))
  | adopting => exact adopting_footprint (hst ▸ hon _ (by decide)) ha (hon _ (by decide))
  | committing => exact committing_footprint (hst ▸ hon _ (by decide)) ha hf (hon _ (by decide))
  | swapping => exact swapping_footprint (hst ▸ hon _ (by decide)) (hon _ (by decide))
  | cleaningUp => exact cleaningUp_footprint (hst ▸ hon _ (by decide)) (hon _ (by decide))
  | completed | failed | aborting => trivial

theorem unlessCancelled_footprint (reason : Option String) :
    Issues (Footprint cfg (StepsOn evac)) (match reason with
      | some reason => do
        writeStatus evac.name { viewStatus evac with
          phase := .aborting, cancelled := true, message := some reason }
        pure (requeueSecs 1)
      | none => handlePhase cfg evac (viewStatus evac) : M Action) := by
  cases reason with
  | some reason => exact shows rfl (List.mem_cons_self ..)
  | none => exact handlePhase_footprint

theorem dispatch_footprint : Issues (Footprint cfg (StepsOn evac)) (do
    if (viewStatus evac).phase = .aborting then Abort.run cfg evac (viewStatus evac)
    else do
      let cancel ← if !(viewStatus evac).committed then cancelReason cfg evac (viewStatus evac)
        else pure none
      match cancel with
      | some reason => do
        writeStatus evac.name { viewStatus evac with
          phase := .aborting, cancelled := true, message := some reason }
        pure (requeueSecs 1)
      | none => handlePhase cfg evac (viewStatus evac) : M Action) := by
  split
  · exact abort_footprint (fun w hw => by simp [StepsOn, hw]) fun w hw => by simp [StepsOn, hw]
  · split
    · exact issues_bind cancelReason_footprint fun _ => unlessCancelled_footprint _
    · exact unlessCancelled_footprint none

theorem reconcile_footprint (cfg : Config) (evac : Obj .evacuation) :
    Issues (Footprint cfg (StepsOn evac)) (reconcile cfg evac) := by
  unfold reconcile
  simp only
  split
  · split
    · exact issues_bind removeEvacFinalizer_footprint fun _ => trivial
    · trivial
  split
  · exact abort_footprint (fun w hw => by simp [StepsOn, hw]) fun w hw => by simp [StepsOn, hw]
  split
  · exact issues_bind ensureEvacFinalizer_footprint fun _ => dispatch_footprint
  · exact dispatch_footprint

end Handlers

end ZfsEvacuation
