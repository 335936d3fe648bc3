import ZfsEvacuation.Placement

/-!
# Target selection

Node and pool of the received dataset: free capacity less what other evacuations have
reserved, filtered by node health, StorageClass topology and the consumer's placement.
-/
namespace ZfsEvacuation

structure SelectionInput where
  evacName : String
  spec : ZFSEvacuationSpec
  sourceNodeId : String
  sourcePool : String
  capacityBytes : Nat
  pv : Obj .pv
  /-- Bytes of the group's other unplaced members. -/
  groupExtraBytes : Nat
  /-- A sibling's node, by name or id, that this volume must follow. -/
  anchor : Option String
  placement : Option Placement

/-- Only the first component of a poolname names a zpool. -/
def poolComponent (poolname : String) : String :=
  String.ofList (poolname.toList.takeWhile (· ≠ '/'))

/-- Where the received dataset goes, in order of priority, and the rule that picked it. -/
def resolveDestPoolname (targetPool scPoolname : Option String) (sourcePool : String) :
    String × String :=
  match targetPool, scPoolname with
  | some tp, _ => (tp, "spec.targetPool")
  | none, some sc => (sc, "StorageClass poolname")
  | none, none => (sourcePool, "source poolName (StorageClass unavailable)")

def pvSpec (pv : Obj .pv) : Option PersistentVolumeSpec :=
  let data : PersistentVolume := pv.data
  data.spec

def storageClassOf (pv : Obj .pv) : M (Option (Obj .storageClass)) :=
  match (pvSpec pv).bind (·.storageClassName) with
  | none => pure none
  | some sc => getOpt .storageClass ⟨"", sc⟩

def scPoolname (pv : Obj .pv) : M (Option String) := do
  match ← storageClassOf pv with
  | none => pure none
  | some ⟨_, (sc : StorageClass)⟩ => pure (sc.parameters.get "poolname")

def statusOf (e : Obj .evacuation) : Option ZFSEvacuationStatus :=
  let data : ZFSEvacuation := e.data
  data.status

def specOf (e : Obj .evacuation) : ZFSEvacuationSpec :=
  let data : ZFSEvacuation := e.data
  data.spec

def capacityOfEvac (st : ZFSEvacuationStatus) : Nat :=
  (st.source.map (·.capacityBytes)).getD 0

/-- Evacuations that have a target. -/
def placedEvacs (evacs : List (Obj .evacuation)) : List String :=
  (evacs.filter fun e => (statusOf e).any (·.target.isSome)).map Obj.name

/-- What one evacuation keeps reserved on its target while `evacName` chooses: its own
capacity until it is completed, and its group's unplaced members even after that. A
completed leader that let go of them would let an unrelated evacuation take their space. -/
def reservation (evacName : String) (placed : List String) (e : Obj .evacuation) :
    Option ((String × String) × Nat) :=
  match statusOf e with
  | none => none
  | some st =>
    if e.name = evacName ∨ st.phase = .failed then none
    else st.target.map fun t =>
      let own := if st.phase = .completed then 0 else capacityOfEvac st
      let group := match st.colocation with
        | none => 0
        | some c =>
          (((c.members.filter fun m => m.pvName ≠ e.name).filter fun m =>
            m.pvName ≠ evacName ∧ ¬ placed.contains m.pvName).map (·.capacityBytes)).sum
      ((t.nodeId, poolComponent t.pool), own + group)

def reservedBytes (evacName : String) (evacs : List (Obj .evacuation)) (nodeId pool : String) :
    Nat :=
  (((evacs.filterMap (reservation evacName (placedEvacs evacs))).filter
    fun r => r.1 = (nodeId, pool)).map (·.2)).sum

/-- Nodes that are the target of another evacuation that is still going on. -/
def busyTargets (evacName : String) (evacs : List (Obj .evacuation)) : List String :=
  evacs.filterMap fun e =>
    match statusOf e with
    | none => none
    | some st =>
      if e.name = evacName ∨ st.phase = .failed ∨ st.phase = .completed then none
      else st.target.map (·.nodeId)

/-- Ids a StorageClass topology allows; none if it does not constrain the node id. -/
def allowedNodeIds (pv : Obj .pv) : M (Option (List String)) := do
  match ← storageClassOf pv with
  | none => pure none
  | some ⟨m, (sc : StorageClass)⟩ =>
    match sc.allowedTopologies with
    | none => pure none
    | some topos =>
      let exprs := topos.flatten.filter fun e => e.key == nodeIdTopologyKey
      let ids := exprs.flatMap (·.values)
      if exprs.isEmpty then pure none
      else if ids.isEmpty then
        throw (.other ("StorageClass " ++ m.name ++ " allowedTopologies excludes every node"))
      else pure (some ids)

structure Candidate where
  node : String
  nodeId : String
  available : Nat

def subU128 (a b : Nat) : Nat := (a + 2 ^ 128 - b) % 2 ^ 128

/-- Everything a choice depends on, read from the API server once. -/
structure SelectionView where
  nodes : List (Obj .node)
  evacs : List (Obj .evacuation)
  allowedIds : Option (List String)
  component : String
  need : Nat

/-- An explicit target may be given as node name or node id. -/
def matchesExplicit (nodes : List (Obj .node)) (explicit nodeId : String) : Bool :=
  ((nodes.find? fun n => n.name == explicit).map (nodeIdOf · == nodeId)).getD false ||
    explicit == nodeId

/-- The candidates on one node, or why it is none. -/
def nodeCandidates (cfg : Config) (input : SelectionInput) (view : SelectionView)
    (zn : Obj .zfsNode) : List (Candidate ⊕ String) :=
  let nodeId := zn.name
  let inventory : ZFSNode := zn.data
  let reject : String → List (Candidate ⊕ String) := fun why => [.inr (nodeId ++ ": " ++ why)]
  let explicit := input.spec.targetNode.or input.anchor
  if nodeId = input.sourceNodeId then []
  else if explicit.any fun e => !matchesExplicit view.nodes e nodeId then []
  else if view.allowedIds.any fun ids => !ids.contains nodeId then
    reject "outside the StorageClass allowedTopologies"
  else match view.nodes.find? fun n => nodeIdOf n == nodeId with
  | none => reject "no Node with this openebs.io/nodeid"
  | some node =>
    if !nodeIsReady node then reject "not Ready or unschedulable"
    else if nodeHasEvacuateTaint node cfg.taintKey then reject "carries the evacuate taint"
    else if (busyTargets input.evacName view.evacs).contains nodeId then
      reject "already receiving another evacuation"
    else if input.placement.any fun p => !p.admits node then
      reject "excluded by the consumer pod's nodeSelector/affinity/tolerations"
    else
      let pools := inventory.pools.filter fun p => p.name == view.component
      if pools.isEmpty then reject ("no zpool " ++ view.component)
      else pools.map fun pool =>
        let free := (pool.free.bind parseQuantityOrBytes).getD 0
        let res := reservedBytes input.evacName view.evacs nodeId pool.name
        if view.need ≤ free - res then .inl ⟨node.name, nodeId, subU128 free res⟩
        else .inr (nodeId ++ ": zpool " ++ view.component ++ " has " ++ toString (free - res) ++
          " bytes free after reservations, need " ++ toString view.need)

/-- The first of the candidates with the most available space. -/
def mostAvailable : List Candidate → Option Candidate
  | [] => none
  | c :: cs =>
    match mostAvailable cs with
    | some best => if c.available < best.available then some best else some c
    | none => some c

theorem mem_of_mostAvailable {cs : List Candidate} {c : Candidate} (h : mostAvailable cs = some c) :
    c ∈ cs := by
  induction cs generalizing c with
  | nil => cases h
  | cons d ds ih =>
    simp only [mostAvailable] at h
    split at h
    · rename_i best hbest
      split_ifs at h
      · obtain rfl := Option.some.inj h
        exact List.mem_cons_of_mem _ (ih hbest)
      · obtain rfl := Option.some.inj h
        exact List.mem_cons_self ..
    · obtain rfl := Option.some.inj h
      exact List.mem_cons_self ..

theorem mostAvailable_eq_none {cs : List Candidate} (h : mostAvailable cs = none) : cs = [] := by
  cases cs with
  | nil => rfl
  | cons d ds =>
    simp only [mostAvailable] at h
    split at h
    · split_ifs at h
    · cases h

theorem le_mostAvailable {cs : List Candidate} {best c : Candidate}
    (h : mostAvailable cs = some best) (hc : c ∈ cs) : c.available ≤ best.available := by
  induction cs generalizing best with
  | nil => cases h
  | cons d ds ih =>
    simp only [mostAvailable] at h
    split at h
    · rename_i rest hrest
      split_ifs at h with hless
      · obtain rfl := Option.some.inj h
        rcases List.mem_cons.mp hc with rfl | hin
        · omega
        · exact ih hrest hin
      · obtain rfl := Option.some.inj h
        rcases List.mem_cons.mp hc with rfl | hin
        · omega
        · have hle := ih hrest hin
          omega
    · rename_i hnone
      obtain rfl := Option.some.inj h
      obtain rfl := mostAvailable_eq_none hnone
      obtain rfl := List.mem_singleton.mp hc
      omega

def needBytes (input : SelectionInput) : Nat :=
  let headroom := input.spec.headroomPercent.getD defaultHeadroomPercent
  let bytes := input.capacityBytes + input.groupExtraBytes
  bytes + bytes * headroom / 100

def noTargetMessage (input : SelectionInput) (view : SelectionView) (destPool : String)
    (rejected : List String) : String :=
  let reasons := if rejected.isEmpty then "" else "; " ++ ", ".intercalate rejected
  match input.spec.targetNode.or input.anchor with
  | some e => "target " ++ e ++ " ineligible (need " ++ toString view.need ++ " bytes in zpool " ++
      view.component ++ ")" ++ reasons
  | none => "no eligible target: need " ++ toString view.need ++ " bytes in zpool " ++
      view.component ++ " (for destination " ++ destPool ++
      ") on a ready node (excluding source " ++ input.sourceNodeId ++ ")" ++ reasons

/-- The choice itself, once everything has been read. -/
def chooseTarget (cfg : Config) (input : SelectionInput) (view : SelectionView)
    (destPool : String) (zfsNodes : List (Obj .zfsNode)) : Except String TargetInfo :=
  let judged := zfsNodes.flatMap (nodeCandidates cfg input view)
  match mostAvailable (judged.filterMap Sum.getLeft?) with
  | some c => .ok ⟨c.node, c.nodeId, destPool, ""⟩
  | none => .error (noTargetMessage input view destPool (judged.filterMap Sum.getRight?))

/-- The caller fills in the volume handle. -/
def selectTarget (cfg : Config) (input : SelectionInput) : M TargetInfo := do
  let nodes ← listObjs .node {}
  let evacs ← listObjs .evacuation {}
  let scPool ← scPoolname input.pv
  let destPool := (resolveDestPoolname input.spec.targetPool scPool input.sourcePool).1
  let allowedIds ← allowedNodeIds input.pv
  let zfsNodes ← listObjs .zfsNode { ns := some cfg.openebsNs }
  let view : SelectionView :=
    { nodes, evacs, allowedIds, component := poolComponent destPool, need := needBytes input }
  match chooseTarget cfg input view destPool zfsNodes with
  | .ok t => pure t
  | .error text => throw (.other text)

end ZfsEvacuation
