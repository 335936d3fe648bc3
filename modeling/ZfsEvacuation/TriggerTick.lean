import ZfsEvacuation.CallTrace

/-!
# The trigger

One tick turns annotated volumes, and the volumes of tainted nodes, into evacuations. It acts on
lists taken at its start, and makes room for a new evacuation by removing a finished one.
-/
namespace ZfsEvacuation
open ClientProgram Program

def csiOf (pv : Obj .pv) : Option CsiSource :=
  let data : PersistentVolume := pv.data
  data.spec.bind (·.csi)

def ownerOf (zv : Obj .zfsVolume) : String :=
  let data : ZFSVolume := zv.data
  data.spec.ownerNodeId

def wantsEvacuation (pv : Obj .pv) : Bool :=
  pv.metadata.annotations.get evacuateAnnotation == some "true" &&
    (csiOf pv).any (·.driver == zfsDriver) && !pv.deleting

/-- A finished job, or a request that was withdrawn. -/
def replaceable (existing : Obj .evacuation) : Bool :=
  let data : ZFSEvacuation := existing.data
  data.status.any fun s => s.phase == .completed || (s.phase == .failed && s.cancelled)

def clearForCreation (pvName : String) : M Bool := do
  match ← send (.get .evacuation ⟨"", pvName⟩) with
  | .ok (some existing) =>
    if replaceable existing then
      match ← send (.delete .evacuation ⟨"", pvName⟩) with
      | .ok () => pure true
      | .error .notFound => pure true
      | .error _ => pure false
    else pure false
  | .ok none => pure true
  | .error _ => pure false

def annotationConditionFresh (pvName : String) : M Bool := do
  match ← send (.get .pv ⟨"", pvName⟩) with
  | .ok (some pv) => pure (wantsEvacuation pv)
  | .ok none => pure false
  | .error _ => pure false

/-- The body of `taintConditionFresh`, which may fail. -/
def freshTaint (cfg : Config) (pvName handle : String) : M Bool := do
  let pv ← getOpt .pv ⟨"", pvName⟩
  if (pv.bind csiOf).any (·.volumeHandle == handle) then
    match ← getOpt .zfsVolume ⟨cfg.openebsNs, handle⟩ with
    | none => pure false
    | some zv =>
      match ← nodeById (ownerOf zv) with
      | none => pure false
      | some node => pure (nodeHasEvacuateTaint node cfg.taintKey)
  else pure false

def taintConditionFresh (cfg : Config) (pvName handle : String) : M Bool :=
  tryCatch (freshTaint cfg pvName handle) fun _ => pure false

def newEvacuation (pvName : String) (trigger : EvacuationTrigger) (mode : EvacuationMode) :
    Obj .evacuation :=
  ⟨{ name := pvName }, ({ spec := { pvName, trigger, mode } } : ZFSEvacuation)⟩

/-- A conflict is left alone, any other error is only logged. -/
def createEvacuation (pvName : String) (trigger : EvacuationTrigger) (mode : EvacuationMode) :
    M Unit := do
  let _ : Except ApiError Unit ← send (.create .evacuation (newEvacuation pvName trigger mode))
  pure ()

/-- The first loop, over the listed PVs. -/
def annotatedPvs : List (Obj .pv) → M Unit
  | [] => pure ()
  | pv :: rest => do
    evacuateAnnotated pv
    annotatedPvs rest
where
  evacuateAnnotated (pv : Obj .pv) : M Unit := do
    if wantsEvacuation pv then
      if ← clearForCreation pv.name then
        if ← annotationConditionFresh pv.name then
          createEvacuation pv.name EvacuationTrigger.annotation .whenIdle

/-- Where two PVs have the handle, the later one replaces the earlier one in the map. -/
def handleToPv (pvList : List (Obj .pv)) (handle : String) : Option (Obj .pv) :=
  pvList.reverse.find? fun pv =>
    (csiOf pv).any fun csi => csi.driver == zfsDriver && csi.volumeHandle == handle

/-- The second loop, over the listed ZFSVolumes. -/
def taintedVolumes (cfg : Config) (pvList : List (Obj .pv)) (taintedIds : List String) :
    List (Obj .zfsVolume) → M Unit
  | [] => pure ()
  | zv :: rest => do
    evacuateTainted zv
    taintedVolumes cfg pvList taintedIds rest
where
  evacuateTainted (zv : Obj .zfsVolume) : M Unit := do
    if taintedIds.contains (ownerOf zv) then
      match handleToPv pvList zv.name with
      | none => pure ()
      | some pv =>
        if ← clearForCreation pv.name then
          if ← taintConditionFresh cfg pv.name zv.name then
            createEvacuation pv.name .nodeTaint .whenClaimed

def tick (cfg : Config) : M Unit := do
  let pvList ← listObjs .pv {}
  annotatedPvs pvList
  let nodes ← listObjs .node {}
  let taintedIds := (nodes.filter (nodeHasEvacuateTaint · cfg.taintKey)).map nodeIdOf
  if taintedIds.isEmpty then pure ()
  else taintedVolumes cfg pvList taintedIds (← listObjs .zfsVolume { ns := some cfg.openebsNs })

/-! ## What a tick may do -/

/-- As far as the tick knows, no evacuation of this name is left. -/
inductive Cleared (p : String) : Event kubeInterface → Prop
  | absent : Cleared p (sawEvent .evacuation ⟨"", p⟩ none)
  | deleted : Cleared p (deletedEvent .evacuation ⟨"", p⟩)
  | notFound : Cleared p ⟨.delete .evacuation ⟨"", p⟩, (.error .notFound : Except ApiError Unit)⟩

/-- The events of a read that found a tainted node of this identity. -/
inductive SawTainted (cfg : Config) (nodeId : String) : Trace → Prop
  | named {node : Obj .node} (id : nodeIdOf node = nodeId)
      (taint : nodeHasEvacuateTaint node cfg.taintKey = true) :
      SawTainted cfg nodeId [sawEvent .node ⟨"", nodeId⟩ (some node)]
  | listed {node : Obj .node} {nodes : List (Obj .node)} (o : Option (Obj .node))
      (mem : node ∈ nodes) (id : nodeIdOf node = nodeId)
      (taint : nodeHasEvacuateTaint node cfg.taintKey = true) :
      SawTainted cfg nodeId [listedEvent .node {} nodes, sawEvent .node ⟨"", nodeId⟩ o]

/-- The events in which the trigger condition of a PV was found to hold. -/
inductive Confirmed (cfg : Config) (p : String) : Trace → Prop
  | request {pv : Obj .pv} (wants : wantsEvacuation pv = true) :
      Confirmed cfg p [sawEvent .pv ⟨"", p⟩ (some pv)]
  | taint {pv : Obj .pv} {csi : CsiSource} {zv : Obj .zfsVolume} {reads : Trace}
      (csi_pv : csiOf pv = some csi) (node : SawTainted cfg (ownerOf zv) reads) :
      Confirmed cfg p (reads ++
        [sawEvent .zfsVolume ⟨cfg.openebsNs, csi.volumeHandle⟩ (some zv),
          sawEvent .pv ⟨"", p⟩ (some pv)])

def listsNodes : Call → Bool
  | .list .node _ => true
  | _ => false

/-- The first loop of the tick is on. -/
structure Annotating (pvList : List (Obj .pv)) (tr : Trace) : Prop where
  pvs : listedEvent .pv {} pvList ∈ tr
  first : ∀ e ∈ tr, listsNodes e.1 = false

/-- The second loop of the tick is on. The volumes were listed after the PVs. -/
structure Tainting (cfg : Config) (pvList : List (Obj .pv)) (nodes : List (Obj .node))
    (volumes : List (Obj .zfsVolume)) (tr : Trace) : Prop where
  nodes : listedEvent .node {} nodes ∈ tr
  volumes : ∃ tr', listedEvent .zfsVolume { ns := some cfg.openebsNs } volumes :: tr' <:+ tr ∧
    listedEvent .pv {} pvList ∈ tr'

/-- What the tick has read in its lists that makes it act on a PV. -/
inductive Basis (cfg : Config) (p : String) (tr : Trace) : Prop
  | request {pvList : List (Obj .pv)} {pv : Obj .pv} (on : Annotating pvList tr)
      (mem : pv ∈ pvList) (name : pv.name = p) (wants : wantsEvacuation pv = true)
  | taint {pvList : List (Obj .pv)} {nodes : List (Obj .node)} {volumes : List (Obj .zfsVolume)}
      {pv : Obj .pv} {csi : CsiSource} {zv : Obj .zfsVolume} {node : Obj .node}
      (on : Tainting cfg pvList nodes volumes tr) (mem : pv ∈ pvList) (name : pv.name = p)
      (csi_pv : csiOf pv = some csi) (volume : zv ∈ volumes) (handle : csi.volumeHandle = zv.name)
      (node_mem : node ∈ nodes) (id : nodeIdOf node = ownerOf zv)
      (taint : nodeHasEvacuateTaint node cfg.taintKey = true)

/-- A tick writes nothing but evacuations. It deletes a replaceable one right after it has read
it, and creates one right after it has found the condition to hold with the old one gone. -/
inductive TickAllowed (cfg : Config) : Trace → Call → Prop
  | get (tr : Trace) (k : Kind) (key : Key) : TickAllowed cfg tr (.get k key)
  | list (tr : Trace) (k : Kind) (sel : Selector) : TickAllowed cfg tr (.list k sel)
  | delete {tr : Trace} {p : String} {existing : Obj .evacuation} (basis : Basis cfg p tr)
      (old : replaceable existing = true) :
      TickAllowed cfg (sawEvent .evacuation ⟨"", p⟩ (some existing) :: tr)
        (.delete .evacuation ⟨"", p⟩)
  | create {tr reads : Trace} {p : String} {e : Event kubeInterface} (trigger : EvacuationTrigger)
      (mode : EvacuationMode) (cleared : Cleared p e) (confirmed : Confirmed cfg p reads) :
      TickAllowed cfg (reads ++ e :: tr) (.create .evacuation (newEvacuation p trigger mode))

/-- What is kept while nothing but the nodes is listed. -/
def Lasting (inv : Trace → Prop) : Prop :=
  ∀ tr (e : Event kubeInterface), listsNodes e.1 = false → inv tr → inv (e :: tr)

theorem lasting_annotating (pvList : List (Obj .pv)) : Lasting (Annotating pvList) := by
  intro tr e he h
  refine ⟨List.mem_cons_of_mem _ h.pvs, fun x hx => ?_⟩
  rcases List.mem_cons.mp hx with rfl | hx
  · exact he
  · exact h.first x hx

theorem Tainting.mono {cfg : Config} {pvList : List (Obj .pv)} {nodes : List (Obj .node)}
    {volumes : List (Obj .zfsVolume)} {tr tr' : Trace}
    (h : Tainting cfg pvList nodes volumes tr) (hsuffix : tr <:+ tr') :
    Tainting cfg pvList nodes volumes tr' := by
  obtain ⟨hnodes, post, hvolumes, hpvs⟩ := h
  exact ⟨hsuffix.subset hnodes, post, hvolumes.trans hsuffix, hpvs⟩

/-! ## The tick keeps to it -/

section Tick
variable {cfg : Config} {tr : Trace} {p : String} {inv : Trace → Prop}

theorem follows_clearForCreation (hlast : Lasting inv) (hinv : inv tr) (hbasis : Basis cfg p tr) :
    Follows (TickAllowed cfg)
      (fun tr' cleared => inv tr' ∧ (cleared = true → ∃ e rest, tr' = e :: rest ∧ Cleared p e)) tr
      (clearForCreation p) := by
  simp only [clearForCreation, bind_eq, follows_bind, follows_send]
  refine ⟨.get _ _ _, fun r => ?_⟩
  have hsaw := hlast tr ⟨.get .evacuation ⟨"", p⟩, r⟩ rfl hinv
  rcases r with err | o
  · exact ⟨hsaw, fun h => by cases h⟩
  cases o with
  | none => exact ⟨hsaw, fun _ => ⟨_, tr, rfl, .absent⟩⟩
  | some existing =>
    by_cases hold : replaceable existing = true
    · simp only [hold, if_true, follows_bind, follows_send]
      refine ⟨.delete hbasis hold, fun r => ?_⟩
      have hdel := hlast _ ⟨.delete .evacuation ⟨"", p⟩, r⟩ rfl hsaw
      rcases r with (_ | _ | text) | _
      · exact ⟨hdel, fun _ => ⟨_, _, rfl, .notFound⟩⟩
      · exact ⟨hdel, fun h => by cases h⟩
      · exact ⟨hdel, fun h => by cases h⟩
      · exact ⟨hdel, fun _ => ⟨_, _, rfl, .deleted⟩⟩
    · simp only [hold]
      exact ⟨hsaw, fun h => by cases h⟩

theorem follows_annotationConditionFresh (hlast : Lasting inv) (hinv : inv tr) :
    Follows (TickAllowed cfg)
      (fun tr' fresh => inv tr' ∧
        (fresh = true → ∃ reads, tr' = reads ++ tr ∧ Confirmed cfg p reads)) tr
      (annotationConditionFresh p) := by
  simp only [annotationConditionFresh, bind_eq, follows_bind, follows_send]
  refine ⟨.get _ _ _, fun r => ?_⟩
  have hsaw := hlast tr ⟨.get .pv ⟨"", p⟩, r⟩ rfl hinv
  rcases r with err | o
  · exact ⟨hsaw, fun h => by cases h⟩
  cases o with
  | none => exact ⟨hsaw, fun h => by cases h⟩
  | some pv => exact ⟨hsaw, fun h => ⟨[_], rfl, .request h⟩⟩

theorem follows_nodeById_tainted {nodeId : String} {post : Trace → Option (Obj .node) → Prop}
    (hnone : ∀ reads, post (reads ++ tr) none)
    (hpost : ∀ reads node, (nodeHasEvacuateTaint node cfg.taintKey = true →
      SawTainted cfg nodeId reads) → post (reads ++ tr) (some node)) :
    Follows (TickAllowed cfg) post tr (nodeById nodeId) := by
  simp only [nodeById, bind_eq, follows_bind, follows_getOpt]
  refine ⟨.get _ _ _, fun o => ?_⟩
  cases hnamed : o.filter fun n => nodeIdOf n == nodeId with
  | some node =>
    obtain ⟨hsome, hid⟩ := Option.filter_eq_some_iff.mp hnamed
    subst hsome
    exact hpost [_] node fun htaint => .named (by simpa using hid) htaint
  | none =>
    simp only [follows_bind, follows_listObjs]
    refine ⟨.list _ _ _, fun nodes => ?_⟩
    cases hfind : nodes.find? fun n => nodeIdOf n == nodeId with
    | none => simpa [hfind] using hnone [_, _]
    | some node =>
      have hid : nodeIdOf node = nodeId := by simpa using List.find?_some hfind
      have hseen := hpost [listedEvent .node {} nodes, sawEvent .node ⟨"", nodeId⟩ o] node
        fun htaint => .listed o (List.mem_of_find?_eq_some hfind) hid htaint
      simpa [hfind] using hseen

theorem follows_freshTaint {handle : String} :
    Follows (TickAllowed cfg)
      (fun tr' fresh => fresh = true → ∃ reads, tr' = reads ++ tr ∧ Confirmed cfg p reads) tr
      (freshTaint cfg p handle) := by
  simp only [freshTaint, bind_eq, follows_bind, follows_getOpt]
  refine ⟨.get _ _ _, fun o => ?_⟩
  by_cases hhandle : (o.bind csiOf).any (·.volumeHandle == handle) = true
  · rw [if_pos hhandle]
    obtain ⟨csi, hcsi, heq⟩ := (Option.any_eq_true _ _).mp hhandle
    obtain ⟨pv, rfl, hpv⟩ := Option.bind_eq_some_iff.mp hcsi
    obtain rfl := beq_iff_eq.mp heq
    simp only [follows_bind, follows_getOpt]
    refine ⟨.get _ _ _, fun zv => ?_⟩
    cases zv with
    | none => exact fun h => by cases h
    | some zv =>
      simp only [follows_bind]
      refine follows_nodeById_tainted (fun reads h => by cases h) fun reads node hseen h => ?_
      refine ⟨_, ?_, .taint hpv (hseen h)⟩
      simp
  · rw [if_neg hhandle]
    exact fun h => by cases h

theorem follows_taintConditionFresh {handle : String} :
    Follows (TickAllowed cfg)
      (fun tr' fresh => fresh = true → ∃ reads, tr' = reads ++ tr ∧ Confirmed cfg p reads) tr
      (taintConditionFresh cfg p handle) :=
  follows_tryCatch (TickAllowed cfg) (fun _ => True) trivial (fun _ _ _ _ _ => trivial)
    (fun _ _ h => h) follows_freshTaint fun _ _ _ h => by cases h

/-- The last step for one PV, entered once it is cleared. -/
theorem follows_confirmed {e : Event kubeInterface} {fresh : M Bool} {trigger : EvacuationTrigger}
    {mode : EvacuationMode} (hlast : Lasting inv) (hcleared : Cleared p e)
    (hfresh : Follows (TickAllowed cfg) (fun tr' fresh => inv tr' ∧
      (fresh = true → ∃ reads, tr' = reads ++ e :: tr ∧ Confirmed cfg p reads)) (e :: tr) fresh) :
    Follows (TickAllowed cfg) (fun tr' _ => inv tr') (e :: tr)
      (fresh >>= fun ok => if ok = true then createEvacuation p trigger mode else pure ()) := by
  simp only [bind_eq, follows_bind]
  refine follows_mono hfresh fun tr' ok h => ?_
  cases ok with
  | false => exact h.1
  | true =>
    obtain ⟨reads, rfl, hconfirmed⟩ := h.2 rfl
    exact ⟨.create trigger mode hcleared hconfirmed, fun _ => hlast _ _ rfl h.1⟩

theorem follows_evacuateAnnotated {pvList : List (Obj .pv)} {pv : Obj .pv} (hmem : pv ∈ pvList)
    (hon : Annotating pvList tr) :
    Follows (TickAllowed cfg) (fun tr' _ => Annotating pvList tr') tr
      (annotatedPvs.evacuateAnnotated pv) := by
  have hlast := lasting_annotating pvList
  unfold annotatedPvs.evacuateAnnotated
  split_ifs with hwants
  · rw [bind_eq, follows_bind]
    refine follows_mono (follows_clearForCreation hlast hon (.request hon hmem rfl hwants))
      fun tr' cleared h => ?_
    cases cleared with
    | false => exact h.1
    | true =>
      obtain ⟨e, rest, rfl, hcleared⟩ := h.2 rfl
      exact follows_confirmed hlast hcleared (follows_annotationConditionFresh hlast h.1)
  · exact hon

theorem follows_annotatedPvs {pvList pvs : List (Obj .pv)} (hsub : pvs ⊆ pvList)
    (hon : Annotating pvList tr) :
    Follows (TickAllowed cfg) (fun tr' _ => Annotating pvList tr') tr (annotatedPvs pvs) := by
  induction pvs generalizing tr with
  | nil => exact hon
  | cons pv rest ih =>
    simp only [annotatedPvs, bind_eq, follows_bind]
    refine follows_mono (follows_evacuateAnnotated (hsub (List.mem_cons_self ..)) hon)
      fun tr' _ h => ?_
    exact ih (fun x hx => hsub (List.mem_cons_of_mem _ hx)) h

theorem handleToPv_eq {pvList : List (Obj .pv)} {handle : String} {pv : Obj .pv}
    (h : handleToPv pvList handle = some pv) :
    pv ∈ pvList ∧ ∃ csi, csiOf pv = some csi ∧ csi.volumeHandle = handle := by
  refine ⟨by simpa using List.mem_of_find?_eq_some h, ?_⟩
  have hany : (csiOf pv).any (fun csi => csi.driver == zfsDriver && csi.volumeHandle == handle) =
    true := by simpa using List.find?_some h
  obtain ⟨csi, hcsi, hmatch⟩ := (Option.any_eq_true _ _).mp hany
  have hhandle : (csi.volumeHandle == handle) = true := (Bool.and_eq_true_iff.mp hmatch).2
  exact ⟨csi, hcsi, beq_iff_eq.mp hhandle⟩

section Tainted
variable {pvList : List (Obj .pv)} {nodes : List (Obj .node)}
  {volumes : List (Obj .zfsVolume)} {taintedIds : List String}

theorem follows_evacuateTainted {zv : Obj .zfsVolume} (hmem : zv ∈ volumes)
    (hids : taintedIds = (nodes.filter (nodeHasEvacuateTaint · cfg.taintKey)).map nodeIdOf)
    (hon : Tainting cfg pvList nodes volumes tr) :
    Follows (TickAllowed cfg) (fun tr' _ => Tainting cfg pvList nodes volumes tr') tr
      (taintedVolumes.evacuateTainted cfg pvList taintedIds zv) := by
  have hlast : Lasting (Tainting cfg pvList nodes volumes) :=
    fun _ e _ h => h.mono (List.suffix_cons e _)
  unfold taintedVolumes.evacuateTainted
  split_ifs with howner
  · cases hpv : handleToPv pvList zv.name with
    | none => exact hon
    | some pv =>
      obtain ⟨hpvs, csi, hcsi, hhandle⟩ := handleToPv_eq hpv
      obtain ⟨node, ⟨hnode, htaint⟩, hid⟩ : ∃ node, (node ∈ nodes ∧
          nodeHasEvacuateTaint node cfg.taintKey = true) ∧ nodeIdOf node = ownerOf zv := by
        simpa [hids] using howner
      simp only [bind_eq, follows_bind]
      refine follows_mono (follows_clearForCreation hlast hon
        (.taint hon hpvs rfl hcsi hmem hhandle hnode hid htaint)) fun tr' cleared h => ?_
      cases cleared with
      | false => exact h.1
      | true =>
        obtain ⟨e, rest, rfl, hcleared⟩ := h.2 rfl
        refine follows_confirmed hlast hcleared
          (follows_mono (follows_suffix follows_taintConditionFresh) fun tr' ok hfresh => ?_)
        exact ⟨h.1.mono hfresh.2, hfresh.1⟩
  · exact hon

theorem follows_taintedVolumes {zvs : List (Obj .zfsVolume)} (hsub : zvs ⊆ volumes)
    (hids : taintedIds = (nodes.filter (nodeHasEvacuateTaint · cfg.taintKey)).map nodeIdOf)
    (hon : Tainting cfg pvList nodes volumes tr) :
    Follows (TickAllowed cfg) (fun _ _ => True) tr (taintedVolumes cfg pvList taintedIds zvs) := by
  induction zvs generalizing tr with
  | nil => trivial
  | cons zv rest ih =>
    simp only [taintedVolumes, bind_eq, follows_bind]
    refine follows_mono (follows_evacuateTainted (hsub (List.mem_cons_self ..)) hids hon)
      fun tr' _ h => ?_
    exact ih (fun x hx => hsub (List.mem_cons_of_mem _ hx)) h

end Tainted

theorem tick_follows (cfg : Config) :
    Follows (TickAllowed cfg) (fun _ _ => True) [] (tick cfg) := by
  simp only [tick, bind_eq, follows_bind, follows_listObjs]
  refine ⟨.list _ _ _, fun pvList => ?_⟩
  have hon : Annotating pvList [listedEvent .pv {} pvList] := by
    refine ⟨List.mem_singleton_self _, fun e he => ?_⟩
    rw [List.mem_singleton.mp he]
    rfl
  refine follows_mono (follows_annotatedPvs (List.Subset.refl pvList) hon) fun tr _ h => ?_
  refine ⟨.list _ _ _, fun nodes => ?_⟩
  split_ifs
  · trivial
  · simp only [follows_bind, follows_listObjs]
    refine ⟨.list _ _ _, fun volumes => ?_⟩
    refine follows_taintedVolumes (List.Subset.refl volumes) rfl ⟨?_, _, List.suffix_refl _, ?_⟩
    · exact List.mem_cons_of_mem _ (List.mem_cons_self ..)
    · exact List.mem_cons_of_mem _ h.pvs

end Tick

end ZfsEvacuation
