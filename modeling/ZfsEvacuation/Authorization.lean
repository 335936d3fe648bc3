import ZfsEvacuation.AccessRules
import ZfsEvacuation.Footprint
import ZfsEvacuation.LeaderElection
import ZfsEvacuation.TriggerRuns

/-!
# What the controller is authorised to do

The manifests give the service account of the controller a role for the whole cluster, one for
the resources of zfs-localpv and one for the lease. Every request it can ever make is covered.
-/
namespace ZfsEvacuation.Authorization
open ClientProgram Program GuardedRun Access

/-! ## The manifests -/

def controllerName : String := "zfs-evacuation-controller"

def systemNs : String := "zfs-evacuation-system"

/-- The namespace in which the manifests expect the resources of zfs-localpv. -/
def deployedNs : String := "openebs"

def account : String × String := (systemNs, controllerName)

def clusterRole : Role where
  name := controllerName
  rules :=
    [ ⟨[""], ["persistentvolumes"], ["get", "list", "watch", "create", "delete", "patch"]⟩,
      ⟨[""], ["persistentvolumeclaims"], ["get", "list", "watch", "patch"]⟩,
      ⟨[""], ["pods", "nodes"], ["get", "list", "watch"]⟩,
      ⟨["storage.k8s.io"], ["storageclasses"], ["get", "list", "watch"]⟩,
      ⟨["zfsevac.alumino.us"], ["zfsevacuations", "zfsevacuations/status", "evacuationparams"],
        ["get", "list", "watch", "create", "update", "patch", "delete"]⟩,
      ⟨[""], ["events"], ["create", "patch"]⟩ ]

def zfsRole : Role where
  ns := some deployedNs
  name := controllerName
  rules :=
    [ ⟨["zfs.openebs.io"],
        ["zfsvolumes", "zfssnapshots", "zfsbackups", "zfsrestores", "zfsnodes"],
        ["get", "list", "watch", "create", "update", "patch", "delete"]⟩ ]

def leaseRole : Role where
  ns := some systemNs
  name := controllerName
  rules := [⟨["coordination.k8s.io"], ["leases"], ["get", "list", "watch", "create", "update"]⟩]

def clusterBinding : Binding := ⟨none, (none, controllerName), [account]⟩

def zfsBinding : Binding := ⟨some deployedNs, (some deployedNs, controllerName), [account]⟩

def leaseBinding : Binding := ⟨some systemNs, (some systemNs, controllerName), [account]⟩

def deployed : Policy :=
  ⟨[clusterRole, zfsRole, leaseRole], [clusterBinding, zfsBinding, leaseBinding]⟩

/-! ## The requests behind the calls -/

def group : Kind → String
  | .pv | .pvc | .pod | .node => ""
  | .storageClass => "storage.k8s.io"
  | .evacuation | .params => "zfsevac.alumino.us"
  | .zfsVolume | .zfsSnapshot | .zfsBackup | .zfsRestore | .zfsNode => "zfs.openebs.io"

def resource : Kind → String
  | .pv => "persistentvolumes"
  | .pvc => "persistentvolumeclaims"
  | .pod => "pods"
  | .node => "nodes"
  | .storageClass => "storageclasses"
  | .zfsVolume => "zfsvolumes"
  | .zfsSnapshot => "zfssnapshots"
  | .zfsBackup => "zfsbackups"
  | .zfsRestore => "zfsrestores"
  | .zfsNode => "zfsnodes"
  | .evacuation => "zfsevacuations"
  | .params => "evacuationparams"

/-- The objects of this kind live in a namespace. -/
def namespaced : Kind → Bool
  | .pvc | .pod => true
  | k => k.ofZfs

def requestOf (k : Kind) (verb ns : String) : Request :=
  ⟨verb, group k, resource k, if namespaced k then some ns else none⟩

/-- A status is patched under the resource of its own. -/
def patchRequest : (k : Kind) → Patch k → String → Request
  | .evacuation, .status _, _ => ⟨"patch", group .evacuation, "zfsevacuations/status", none⟩
  | k, _, ns => requestOf k "patch" ns

/-- What the API server is asked to authorise, if the call goes there. -/
def request : Call → Option Request
  | .get k key => some (requestOf k "get" key.ns)
  | .list k sel => some ⟨"list", group k, resource k, if namespaced k then sel.ns else none⟩
  | .create k o => some (requestOf k "create" o.metadata.ns)
  | .replace k o => some (requestOf k "update" o.metadata.ns)
  | .delete k key => some (requestOf k "delete" key.ns)
  | .patch k key p => some (patchRequest k p key.ns)
  | _ => none

def Authorized (q : Request) : Prop := deployed.authorizes account q = true

/-- The account may make the call. -/
def Granted (c : Call) : Prop := ∀ q, request c = some q → Authorized q

theorem authorized_cluster {q : Request} (h : clusterRole.allows q = true) : Authorized q :=
  authorizes_of_cluster (b := clusterBinding) (r := clusterRole) (by simp [deployed]) rfl
    (by simp [clusterBinding]) (by simp [deployed]) rfl h

theorem authorized_zfs {q : Request} (hns : q.ns = some deployedNs)
    (h : zfsRole.allows q = true) : Authorized q :=
  authorizes_of_namespaced (b := zfsBinding) (r := zfsRole) (by simp [deployed]) hns
    (by simp [zfsBinding]) (by simp [deployed]) rfl h

theorem authorized_lease {q : Request} (hns : q.ns = some systemNs)
    (h : leaseRole.allows q = true) : Authorized q :=
  authorizes_of_namespaced (b := leaseBinding) (r := leaseRole) (by simp [deployed]) hns
    (by simp [leaseBinding]) (by simp [deployed]) rfl h

theorem request_inside {c : Call} (h : c.remote = false) : request c = none := by
  cases c <;> first | rfl | cases h

section Footprint
variable {cfg : Config} {k : Kind}

/-- The role for zfs-localpv covers every verb the controller uses there. -/
theorem authorized_ofZfs {verb ns : String} (hk : k.ofZfs = true) (hns : ns = deployedNs)
    (hverb : verb ∈ ["get", "list", "create", "patch", "delete"]) :
    Authorized (requestOf k verb ns) := by
  have hnamespaced : namespaced k = true := by cases k <;> first | rfl | exact hk
  refine authorized_zfs ?_ ?_
  · rw [requestOf, hnamespaced, hns]
    rfl
  · simp only [List.mem_cons, List.not_mem_nil, or_false] at hverb
    rcases hverb with rfl | rfl | rfl | rfl | rfl <;> cases k <;> first | rfl | cases hk

theorem authorized_get {ns : String} (h : k.ofZfs = true → ns = deployedNs) :
    Authorized (requestOf k "get" ns) := by
  cases hk : k.ofZfs with
  | true => exact authorized_ofZfs hk (h hk) (by simp)
  | false =>
    refine authorized_cluster ?_
    cases k <;> first | rfl | cases hk

/-- All that a reconcile can ask for is granted, where the manifests were applied as they are. -/
theorem granted_of_footprint (hns : cfg.openebsNs = deployedNs) {c : Call}
    {writes : ZFSEvacuationStatus → Prop} (h : Footprint cfg writes c) : Granted c := by
  intro q hq
  cases h with
  | get k key hkey =>
    obtain rfl := Option.some.inj hq
    exact authorized_get fun hk => (hkey hk).trans hns
  | listNodes | listPods _ | listEvacs =>
    obtain rfl := Option.some.inj hq
    exact authorized_cluster rfl
  | listZfs k label hk =>
    obtain rfl := Option.some.inj hq
    exact authorized_ofZfs hk hns (by simp)
  | createZfs k o hk hobj =>
    obtain rfl := Option.some.inj hq
    exact authorized_ofZfs (by cases k <;> first | rfl | cases hk) (hobj.trans hns) (by simp)
  | deleteZfs k key hk hkey =>
    obtain rfl := Option.some.inj hq
    exact authorized_ofZfs (by cases k <;> first | rfl | cases hk) (hkey.trans hns) (by simp)
  | patchZfs k key fs hk hkey =>
    obtain rfl := Option.some.inj hq
    have hreq : patchRequest k (.finalizers fs) key.ns = requestOf k "patch" key.ns := by
      cases k <;> rfl
    rw [hreq]
    exact authorized_ofZfs (by cases k <;> first | rfl | cases hk) (hkey.trans hns) (by simp)
  | createPv _ | createParams _ | replaceParams _ | deletePv _ | patchPv _ _ | labelPvc _ _ _
  | patchStatus _ _ | patchFinalizers _ _ =>
    obtain rfl := Option.some.inj hq
    exact authorized_cluster rfl
  | inside c hc =>
    rw [request_inside hc] at hq
    cases hq

end Footprint

/-! ## The trigger -/

section Trigger
variable {cfg : Config}

/-- A tick reads like a reconcile, and replaces evacuations. -/
inductive TickCall (cfg : Config) : Call → Prop
  | reads (c : Call) (h : Footprint cfg (fun _ => False) c) : TickCall cfg c
  | listPvs : TickCall cfg (.list .pv {})
  | deleteEvac (key : Key) : TickCall cfg (.delete .evacuation key)
  | createEvac (o : Obj .evacuation) : TickCall cfg (.create .evacuation o)

theorem TickCall.granted (hns : cfg.openebsNs = deployedNs) {c : Call} (h : TickCall cfg c) :
    Granted c := by
  cases h with
  | reads c h => exact granted_of_footprint hns h
  | listPvs | deleteEvac _ | createEvac _ =>
    intro q hq
    obtain rfl := Option.some.inj hq
    exact authorized_cluster rfl

theorem tickCall_get {k : Kind} {key : Key} (h : k.ofZfs = false) : TickCall cfg (.get k key) :=
  .reads _ (.get k key fun hk => by
    rw [h] at hk
    cases hk)

theorem clearForCreation_calls (pvName : String) :
    Issues (TickCall cfg) (clearForCreation pvName) := by
  refine issues_bind (issues_send (tickCall_get rfl)) fun r => ?_
  rcases r with e | _ | existing
  · trivial
  · trivial
  simp only
  split
  · refine issues_bind (issues_send (.deleteEvac _)) fun r => ?_
    rcases r with (_ | _ | text) | _ <;> trivial
  · trivial

theorem annotationConditionFresh_calls (pvName : String) :
    Issues (TickCall cfg) (annotationConditionFresh pvName) := by
  refine issues_bind (issues_send (tickCall_get rfl)) fun r => ?_
  rcases r with e | _ | pv <;> trivial

theorem taintConditionFresh_calls (pvName handle : String) :
    Issues (TickCall cfg) (taintConditionFresh cfg pvName handle) := by
  refine issues_tryCatch (issues_bind (issues_getOpt (tickCall_get rfl)) fun pv => ?_)
    fun _ => trivial
  split
  · refine issues_bind (issues_getOpt (.reads _ (.get .zfsVolume _ fun _ => rfl))) fun zv => ?_
    cases zv with
    | none => trivial
    | some zv =>
      refine issues_bind (issues_nodeById (tickCall_get rfl) (.reads _ .listNodes)) fun node => ?_
      cases node <;> trivial
  · trivial

theorem createEvacuation_calls (pvName : String) (trigger : EvacuationTrigger)
    (mode : EvacuationMode) : Issues (TickCall cfg) (createEvacuation pvName trigger mode) :=
  issues_bind (issues_send (.createEvac _)) fun _ => trivial

theorem annotatedPvs_calls (pvs : List (Obj .pv)) : Issues (TickCall cfg) (annotatedPvs pvs) := by
  induction pvs with
  | nil => trivial
  | cons pv pvs ih =>
    refine issues_bind ?_ fun _ => ih
    unfold annotatedPvs.evacuateAnnotated
    split
    · refine issues_bind (clearForCreation_calls _) fun clear => ?_
      split
      · refine issues_bind (annotationConditionFresh_calls _) fun fresh => ?_
        split
        · exact createEvacuation_calls _ _ _
        · trivial
      · trivial
    · trivial

theorem taintedVolumes_calls (pvList : List (Obj .pv)) (ids : List String)
    (volumes : List (Obj .zfsVolume)) :
    Issues (TickCall cfg) (taintedVolumes cfg pvList ids volumes) := by
  induction volumes with
  | nil => trivial
  | cons zv volumes ih =>
    refine issues_bind ?_ fun _ => ih
    unfold taintedVolumes.evacuateTainted
    split
    · cases handleToPv pvList zv.name with
      | none => trivial
      | some pv =>
        refine issues_bind (clearForCreation_calls _) fun clear => ?_
        split
        · refine issues_bind (taintConditionFresh_calls _ _) fun fresh => ?_
          split
          · exact createEvacuation_calls _ _ _
          · trivial
        · trivial
    · trivial

theorem tick_calls (cfg : Config) : Issues (TickCall cfg) (tick cfg) := by
  refine issues_bind (issues_listObjs .listPvs) fun pvs => ?_
  refine issues_bind (annotatedPvs_calls pvs) fun _ => ?_
  refine issues_bind (issues_listObjs (.reads _ .listNodes)) fun nodes => ?_
  simp only
  split
  · trivial
  · exact issues_bind (issues_listObjs (.reads _ (.listZfs .zfsVolume none rfl))) fun volumes =>
      taintedVolumes_calls _ _ _

/-- A tick on its way has only such calls left. -/
theorem ticking_calls {rely : Trace → World → World → Prop} {h : History} {w : World} {p : M Unit}
    (ht : Ticking cfg rely h w p) : Issues (TickCall cfg) p := by
  induction ht with
  | start w => exact tick_calls cfg
  | env _ _ ih => exact ih
  | call o _ ih => exact ih.2 _

end Trigger

/-! ## The lease -/

/-- What the leader election asks for, in the namespace of the pod. -/
def leaseRequest (podNs : String) : Leader.Call → Option Request
  | .getOpt => some ⟨"get", "coordination.k8s.io", "leases", some podNs⟩
  | .create _ => some ⟨"create", "coordination.k8s.io", "leases", some podNs⟩
  | .replace _ => some ⟨"update", "coordination.k8s.io", "leases", some podNs⟩
  | .now => none

theorem leaseRequest_granted {c : Leader.Call} {q : Request}
    (hq : leaseRequest systemNs c = some q) : Authorized q := by
  cases c with
  | now => cases hq
  | getOpt | create _ | replace _ =>
    obtain rfl := Option.some.inj hq
    exact authorized_lease rfl rfl

/-! ## Every run -/

/-- The reconciles in progress have only calls of their footprint left. -/
def AllIssue (cfg : Config) (s : System) : Prop :=
  ∀ n r, s.running.get n = some r → Issues (Footprint cfg (StepsOn r.view)) r.prog

theorem allIssue_run {cfg : Config} {guard : System → SysAction → Prop} {as : List SysAction}
    {s : System} (h : Run (System.step cfg) guard System.init as s) : AllIssue cfg s := by
  have hinit : AllIssue cfg System.init := fun n r hr => by cases hr
  refine h.invariant hinit fun s a s' hs _ hstep n r hr => ?_
  cases System.running_step hstep hr with
  | kept _ hold _ => exact hs n r hold
  | started version idle stored named eq =>
    rw [eq]
    exact reconcile_footprint cfg _
  | called o r₀ c next hold prog free eq =>
    rw [eq]
    have hcalls := hs n r₀ hold
    rw [prog] at hcalls
    exact hcalls.2 _

/-- No reconcile in any run, no tick and no try for the lease is about to make a request that is
refused. -/
structure NeverRefused (cfg : Config) : Prop where
  reconciles : ∀ guard as s n r c, ∀ next : c.Resp → M Action,
    Run (System.step cfg) guard System.init as s → s.running.get n = some r →
      r.prog = .call c next → Granted c
  ticks : ∀ rely h w c, ∀ next : c.Resp → M Unit, Ticking cfg rely h w (.call c next) → Granted c
  lease : ∀ c q, leaseRequest systemNs c = some q → Authorized q

/-- A node that is to be evacuated. -/
def taintedNode (cfg : Config) : Obj .node :=
  ⟨{ name := "n1" }, ({ taints := [{ key := cfg.taintKey, effect := "NoSchedule" }] } : Node)⟩

/-- Where a node is tainted, a tick lists the volumes. -/
theorem ticking_lists (cfg : Config) : ∃ h w,
    ∃ next : (Call.list .zfsVolume { ns := some cfg.openebsNs }).Resp → M Unit,
      Ticking cfg (fun _ _ _ => False) h w
        (.call (.list .zfsVolume { ns := some cfg.openebsNs }) next) := by
  let w : World := ({} : World).store (taintedNode cfg)
  have hpvs := Ticking.call {} (show Ticking cfg (fun _ _ _ => False) [] w (tick cfg) from .start w)
  have hnodes : Ticking cfg (fun _ _ _ => False) _ w (do
      let ids := (([(taintedNode cfg).stamped 1] : List (Obj .node)).filter
        (nodeHasEvacuateTaint · cfg.taintKey)).map nodeIdOf
      if ids.isEmpty then pure ()
      else taintedVolumes cfg [] ids (← listObjs .zfsVolume { ns := some cfg.openebsNs })) :=
    Ticking.call {} hpvs
  have htainted : ([(taintedNode cfg).stamped 1] : List (Obj .node)).filter
      (nodeHasEvacuateTaint · cfg.taintKey) = [(taintedNode cfg).stamped 1] := by
    simp [nodeHasEvacuateTaint, taintedNode, Obj.stamped]
  rw [htainted] at hnodes
  exact ⟨_, w, _, hnodes⟩

/-- The role for zfs-localpv counts in its own namespace only. -/
theorem not_authorized_elsewhere {ns : String} (h : ns ≠ deployedNs) :
    ¬ Authorized (requestOf .zfsVolume "list" ns) := by
  have hcluster : clusterRole.allows (requestOf .zfsVolume "list" ns) = false := rfl
  have hlease : leaseRole.allows (requestOf .zfsVolume "list" ns) = false := rfl
  intro hauth
  obtain ⟨b, hb, -, hreaches, r, hr, href, hallows⟩ := authorizes_iff.mp hauth
  simp only [deployed, List.mem_cons, List.not_mem_nil, or_false] at hb hr
  rcases hr with rfl | rfl | rfl
  · rw [hcluster] at hallows
    cases hallows
  · rcases hb with rfl | rfl | rfl
    · cases href
    · have hns : ns = deployedNs := by simpa [Binding.reaches, zfsBinding, requestOf, namespaced,
        Kind.ofZfs] using hreaches
      exact h hns
    · exact absurd href (by decide)
  · rw [hlease] at hallows
    cases hallows

/-- Where the manifests are applied as they are, the controller is never refused for want of a
permission, provided that the resources of zfs-localpv live where these expect them. -/
theorem never_refused_iff (cfg : Config) : NeverRefused cfg ↔ cfg.openebsNs = deployedNs := by
  refine ⟨fun h => ?_, fun hns => ⟨fun guard as s n r c next hrun hr hprog => ?_,
    fun rely h w c next ht => (ticking_calls ht).1.granted hns, fun c q => leaseRequest_granted⟩⟩
  · by_contra hne
    obtain ⟨hist, w, next, ht⟩ := ticking_lists cfg
    exact not_authorized_elsewhere hne (h.ticks _ hist w _ next ht _ rfl)
  · have hcalls := allIssue_run hrun n r hr
    rw [hprog] at hcalls
    exact granted_of_footprint hns hcalls.1

end ZfsEvacuation.Authorization
