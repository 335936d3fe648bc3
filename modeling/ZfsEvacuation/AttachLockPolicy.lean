import ZfsEvacuation.Placement

/-!
# The attach-lock policy

The admission policy that reads the lock parameters, as its CEL expressions have it, and
the nodes that the controller takes to repel the pods it lets through.
-/
namespace ZfsEvacuation

def unschedulableTaint : Taint := { key := "node.kubernetes.io/unschedulable", effect := "NoSchedule" }

def evacuateTaintKey : String := "zfsevac.alumino.us/evacuate"

namespace AttachLock

/-- "namespace/pvc" for every claim the pod references. -/
def referencedKeys (pod : Obj .pod) : List String :=
  let data : Pod := pod.data
  (data.volumes.filter fun v => v.persistentVolumeClaim.isSome || v.ephemeral).map fun v =>
    pod.metadata.ns ++ "/" ++ v.persistentVolumeClaim.getD (pod.name ++ "-" ++ v.name)

/-- A toleration the policy takes to defeat a cordon or the evacuate taint. -/
def defeatsCordon (t : Toleration) : Bool :=
  ((t.key.all fun k => k == "" || k == "node.kubernetes.io/unschedulable") &&
      t.effect.all fun e => e == "" || e == "NoSchedule") ||
    ((t.key.any fun k => k == "zfsevac.alumino.us/evacuate") &&
      t.effect.all fun e => e == "" || e == "NoSchedule" || e == "NoExecute")

def bypassesCordon (pod : Obj .pod) : Bool :=
  let data : Pod := pod.data
  (data.nodeName.any fun n => n != "") || data.tolerations.any defeatsCordon

/-- Both validations of the policy. -/
def admits (params : EvacuationParamsSpec) (pod : Obj .pod) : Bool :=
  !((referencedKeys pod).any fun k => params.pvcKeys.contains k) &&
    !(bypassesCordon pod && (referencedKeys pod).any fun k => params.claimablePvcKeys.contains k)

def cordoned (node : Obj .node) : Bool :=
  let data : Node := node.data
  data.unschedulable.getD false

/-- An evacuate taint with a hard effect. -/
def evacuateTaints (node : Obj .node) : List Taint :=
  let data : Node := node.data
  data.taints.filter fun t =>
    t.key == evacuateTaintKey && (t.effect == "NoSchedule" || t.effect == "NoExecute")

def tolerations (pod : Obj .pod) : List Toleration :=
  let data : Pod := pod.data
  data.tolerations

/-- The scheduler cannot place the pod on the node: no node is set, and some taint of the
node is not tolerated. -/
structure KeptOff (pod : Obj .pod) (node : Obj .node) : Prop where
  unset : podIsScheduled pod = false
  repelled : (cordoned node ∧ ∀ tol ∈ tolerations pod, tolerates tol unschedulableTaint = false) ∨
    ∃ taint ∈ evacuateTaints node, ∀ tol ∈ tolerations pod, tolerates tol taint = false

theorem not_bypasses {params : EvacuationParamsSpec} {pod : Obj .pod} {key : String}
    (hkey : key ∈ params.claimablePvcKeys) (href : key ∈ referencedKeys pod)
    (hadm : admits params pod = true) : bypassesCordon pod = false := by
  by_contra h
  have hbypass : bypassesCordon pod = true := by simpa using h
  have hclaim : ∀ k ∈ referencedKeys pod, k ∉ params.claimablePvcKeys := by
    simp only [admits, hbypass] at hadm
    simpa using (Bool.and_eq_true_iff.mp hadm).2
  exact hclaim key href hkey

theorem admitted_pod {pod : Obj .pod} (h : bypassesCordon pod = false) :
    podIsScheduled pod = false ∧ ∀ tol ∈ tolerations pod, defeatsCordon tol = false := by
  simp only [bypassesCordon, Bool.or_eq_false_iff, List.any_eq_false] at h
  obtain ⟨hname, htols⟩ := h
  have hne : (fun n : String => decide (n ≠ "")) = fun n => n != "" := by
    funext n
    by_cases hn : n = "" <;> simp [hn]
  refine ⟨?_, fun tol htol => by simpa using htols tol htol⟩
  simp only [podIsScheduled]
  rw [hne]
  exact hname

/-- An absent string and an empty one are taken alike. -/
theorem all_of_empty {o : Option String} {p : String → Bool} (hp : p "" = true)
    (h : o.getD "" = "") : o.all p = true := by
  cases o with
  | none => rfl
  | some s =>
    have hs : s = "" := h
    rw [hs]
    exact hp

/-- The key a toleration must have for a taint. -/
theorem key_of_tolerates {tol : Toleration} {taint : Taint} (h : tolerates tol taint = true) :
    (tol.key.getD "" = "" ∧ tol.operator = some "Exists") ∨ tol.key = some taint.key := by
  simp only [tolerates, Bool.and_eq_true] at h
  obtain ⟨⟨hkey, -⟩, -⟩ := h
  split at hkey
  · rename_i hnone
    exact .inl ⟨by rw [hnone]; rfl, by simpa using hkey⟩
  · rename_i hempty
    exact .inl ⟨by rw [hempty]; rfl, by simpa using hkey⟩
  · rename_i k hk hsome
    exact .inr (by rw [hsome, beq_iff_eq.mp hkey])

/-- The effect a toleration must have for a taint. -/
theorem effect_of_tolerates {tol : Toleration} {taint : Taint} (h : tolerates tol taint = true) :
    tol.effect.getD "" = "" ∨ tol.effect = some taint.effect := by
  simp only [tolerates, Bool.and_eq_true] at h
  obtain ⟨⟨-, heffect⟩, -⟩ := h
  split at heffect
  · rename_i hnone
    exact .inl (by rw [hnone]; rfl)
  · rename_i hempty
    exact .inl (by rw [hempty]; rfl)
  · rename_i e he hsome
    exact .inr (by rw [hsome, beq_iff_eq.mp heffect])

/-- What the policy lets through does not tolerate a cordon. -/
theorem cordon_repels {tol : Toleration} (h : defeatsCordon tol = false) :
    tolerates tol unschedulableTaint = false := by
  by_contra hcon
  have htol : tolerates tol unschedulableTaint = true := by simpa using hcon
  have hkey := key_of_tolerates htol
  have heffect := effect_of_tolerates htol
  have hk : (tol.key.all fun k => k == "" || k == "node.kubernetes.io/unschedulable") = true := by
    rcases hkey with ⟨hk, -⟩ | hk
    · exact all_of_empty rfl hk
    · rw [hk]
      rfl
  have he : (tol.effect.all fun e => e == "" || e == "NoSchedule") = true := by
    rcases heffect with he | he
    · exact all_of_empty rfl he
    · rw [he]
      rfl
  simp [defeatsCordon, hk, he] at h

/-- A toleration of every taint with the effect NoExecute and no other. -/
def evadesNoExecute (tol : Toleration) : Bool :=
  tol.key.getD "" == "" && tol.operator == some "Exists" && tol.effect == some "NoExecute"

theorem evades_tolerates {tol : Toleration} {taint : Taint} (h : evadesNoExecute tol = true)
    (heffect : taint.effect = "NoExecute") : tolerates tol taint = true := by
  simp only [evadesNoExecute, Bool.and_eq_true, beq_iff_eq] at h
  obtain ⟨⟨hkey, hop⟩, heff⟩ := h
  cases hopt : tol.key with
  | none => simp [tolerates, hopt, hop, heff, heffect]
  | some k =>
    have hk : k = "" := by simpa [hopt] using hkey
    simp [tolerates, hopt, hk, hop, heff, heffect]

/-- What the policy lets through and tolerates an evacuate taint evades the NoExecute one. -/
theorem evades_of_tolerates {tol : Toleration} {taint : Taint} (h : defeatsCordon tol = false)
    (hkey : taint.key = evacuateTaintKey)
    (heffect : taint.effect = "NoSchedule" ∨ taint.effect = "NoExecute")
    (htol : tolerates tol taint = true) :
    evadesNoExecute tol = true ∧ taint.effect = "NoExecute" := by
  have hany : tol.effect.getD "" = "" ∨ tol.effect = some taint.effect := effect_of_tolerates htol
  rcases key_of_tolerates htol with ⟨hk, hop⟩ | hk
  · have hkall : (tol.key.all fun k => k == "" || k == "node.kubernetes.io/unschedulable") = true :=
      all_of_empty rfl hk
    have heall : (tol.effect.all fun e => e == "" || e == "NoSchedule") = false := by
      simp only [defeatsCordon, hkall, Bool.true_and, Bool.or_eq_false_iff] at h
      exact h.1
    rcases hany with he | he
    · rw [all_of_empty rfl he] at heall
      cases heall
    · rcases heffect with hs | hx
      · simp [he, hs] at heall
      · exact ⟨by simp [evadesNoExecute, hk, hop, he, hx], hx⟩
  · exfalso
    have heall : (tol.effect.all fun e => e == "" || e == "NoSchedule" || e == "NoExecute") =
        true := by
      rcases hany with he | he
      · exact all_of_empty rfl he
      · rcases heffect with hs | hx
        · simp [he, hs]
        · simp [he, hx]
    simp [defeatsCordon, hk, hkey, evacuateTaintKey, heall] at h

theorem repels_iff {node : Obj .node} : nodeRepelsPods node evacuateTaintKey = true ↔
    cordoned node = true ∨ ∃ taint, taint ∈ evacuateTaints node := by
  simp [nodeRepelsPods, cordoned, evacuateTaints]

theorem evacuateTaint_spec {node : Obj .node} {taint : Taint} (h : taint ∈ evacuateTaints node) :
    taint.key = evacuateTaintKey ∧ (taint.effect = "NoSchedule" ∨ taint.effect = "NoExecute") := by
  simpa [evacuateTaints] using (List.mem_filter.mp h).2

/-- An admitted consumer is kept off a repelling node exactly when the node does not repel
by NoExecute alone, or no toleration of the pod evades that effect. -/
theorem keptOff_iff (params : EvacuationParamsSpec) (pod : Obj .pod) (node : Obj .node)
    (key : String) (hkey : key ∈ params.claimablePvcKeys) (href : key ∈ referencedKeys pod)
    (hadm : admits params pod = true) (hrepels : nodeRepelsPods node evacuateTaintKey = true) :
    KeptOff pod node ↔
      cordoned node = true ∨ (∃ taint ∈ evacuateTaints node, taint.effect = "NoSchedule") ∨
        ∀ tol ∈ tolerations pod, evadesNoExecute tol = false := by
  have hbypass := not_bypasses hkey href hadm
  obtain ⟨hunset, htols⟩ := admitted_pod hbypass
  constructor
  · rintro ⟨-, hcordon | ⟨taint, htaint, hnone⟩⟩
    · exact .inl hcordon.1
    · obtain ⟨-, hs | hx⟩ := evacuateTaint_spec htaint
      · exact .inr (.inl ⟨taint, htaint, hs⟩)
      · refine .inr (.inr fun tol htol => ?_)
        by_contra hcon
        have hevades : evadesNoExecute tol = true := by simpa using hcon
        have htolerated := evades_tolerates hevades hx
        rw [hnone tol htol] at htolerated
        cases htolerated
  · rintro (hcordon | ⟨taint, htaint, hs⟩ | hall)
    · exact ⟨hunset, .inl ⟨hcordon, fun tol htol => cordon_repels (htols tol htol)⟩⟩
    · refine ⟨hunset, .inr ⟨taint, htaint, fun tol htol => ?_⟩⟩
      by_contra hcon
      obtain ⟨hk, he⟩ := evacuateTaint_spec htaint
      have hevades := evades_of_tolerates (htols tol htol) hk he (by simpa using hcon)
      rw [hs] at hevades
      exact absurd hevades.2 (by decide)
    · rcases repels_iff.mp hrepels with hcordon | ⟨taint, htaint⟩
      · exact ⟨hunset, .inl ⟨hcordon, fun tol htol => cordon_repels (htols tol htol)⟩⟩
      · refine ⟨hunset, .inr ⟨taint, htaint, fun tol htol => ?_⟩⟩
        by_contra hcon
        obtain ⟨hk, he⟩ := evacuateTaint_spec htaint
        have hevades := evades_of_tolerates (htols tol htol) hk he (by simpa using hcon)
        rw [hall tol htol] at hevades
        cases hevades.1

/-! ## A node that repels by NoExecute alone -/

def drained : Obj .node :=
  ⟨{ name := "n1" }, ({ taints := [⟨evacuateTaintKey, none, "NoExecute"⟩] } : Node)⟩

/-- A consumer of the claim d/c with the given tolerations. -/
def consumer (tolerations : List Toleration) : Obj .pod :=
  ⟨{ ns := "d", name := "p" },
    ({ volumes := [{ name := "v", persistentVolumeClaim := some "c" }]
       tolerations } : Pod)⟩

/-- Tolerations that the policy lets through and that do not help against the evacuate taint:
the one of every pod, and two with an effect that no evacuation uses. -/
def harmless : List Toleration :=
  [{ key := some "node.kubernetes.io/not-ready", operator := some "Exists",
     effect := some "NoExecute" },
   { key := some evacuateTaintKey, operator := some "Exists", effect := some "PreferNoSchedule" },
   { operator := some "Exists", effect := some "PreferNoSchedule" }]

/-- A node agent's usual toleration. -/
def agentToleration : Toleration := { operator := some "Exists", effect := some "NoExecute" }

/-- It gets past both the policy and the taint. -/
theorem not_keptOff : ¬ ∀ (params : EvacuationParamsSpec) (pod : Obj .pod) (node : Obj .node)
    (key : String), key ∈ params.claimablePvcKeys → key ∈ referencedKeys pod →
    admits params pod = true → nodeRepelsPods node evacuateTaintKey = true → KeptOff pod node := by
  intro h
  have hkept := h { claimablePvcKeys := ["d/c"] } (consumer [agentToleration]) drained "d/c"
    (by decide) (by decide) (by decide) (by decide)
  have hrepelled := hkept.repelled
  revert hrepelled
  decide

theorem keptOff_consumer : KeptOff (consumer harmless) drained ∧
    ¬ KeptOff (consumer (agentToleration :: harmless)) drained := by
  constructor
  · exact (keptOff_iff { claimablePvcKeys := ["d/c"] } (consumer harmless) drained "d/c" (by decide)
      (by decide) (by decide) (by decide)).mpr (by decide)
  · intro hkept
    have hevades := (keptOff_iff { claimablePvcKeys := ["d/c"] }
      (consumer (agentToleration :: harmless)) drained "d/c" (by decide) (by decide) (by decide)
      (by decide)).mp hkept
    revert hevades
    decide

end AttachLock

end ZfsEvacuation
