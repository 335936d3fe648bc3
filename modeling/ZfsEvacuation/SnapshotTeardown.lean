import ZfsEvacuation.SnapshotAgents

/-!
# The snapshot on the target goes before the source

Once the deletion of the ZFSSnapshot is on record, the copy of the transfer snapshot is gone, or
the ZFSSnapshot holds its agent to destroy it, or there is no such node any more. Every step
keeps this as long as no other evacuation acts on a ZFSSnapshot of the same name.
-/
namespace ZfsEvacuation
open ClientProgram Program GuardedRun

/-- A confirmed deletion of an object with a finalizer leaves it marked. -/
theorem World.marked_of_delete {w : World} {o : Outcome} {k : Kind} {key : Key}
    (hok : w.answer o (.delete k key) = .ok ()) : ∃ x, w.get k key = some x ∧
      (x.metadata.finalizers ≠ [] → ∃ x', (w.after o (.delete k key)).get k key = some x' ∧
        x'.metadata.finalizers = x.metadata.finalizers ∧ x'.deleting = true) := by
  have hfault : o.fault = .none := by
    cases hf : o.fault with
    | none => rfl
    | lost => simp [World.answer, Outcome.write, hf] at hok
    | unacked => simp [World.answer, Outcome.write, hf] at hok
  cases hget : w.get k key with
  | none => simp [World.answer, Outcome.write, hfault, World.delete, hget] at hok
  | some x =>
    refine ⟨x, rfl, fun hfin => ?_⟩
    rw [World.after, if_neg (by simp [hfault])]
    cases hdel : x.deleting with
    | true =>
      refine ⟨x, ?_, rfl, hdel⟩
      simp [World.effect, World.delete, hget, hdel]
    | false =>
      have hstays : (x.marked (w.now / 10 ^ 9)).gone = false := by
        simp [Obj.gone, Obj.marked, hfin]
      refine ⟨(x.marked (w.now / 10 ^ 9)).stamped w.revision, ?_, rfl, rfl⟩
      rw [World.get_delete_self hget hdel, if_neg (by rw [hstays]; exact Bool.false_ne_true)]

namespace System
variable {cfg : Config} {s s' : System} {a : SysAction} {n : String}

/-! ## What a cleanup finds gone stays gone -/

theorem nodeGone_step (hc : Contracted cfg s) (hg : Unreturned cfg s a)
    (h : step cfg s a = some s') {st : ZFSEvacuationStatus} (hm : (n, st) ∈ records s)
    (hphase : st.phase = .cleaningUp) {target : TargetInfo} (htarget : st.target = some target)
    (hgone : NodeGone s.world target.nodeId) : NodeGone s'.world target.nodeId := by
  intro x hx
  cases obj_step hc h (World.mem_list.mp hx) with
  | same _ hstored => exact hgone x (World.mem_list.mpr hstored)
  | env e o _ _ _ _ =>
    cases step_cases h with
    | env e => exact (hg _ hm hphase target htarget).1 hgone x hx
  | call m out r c next o hr hprog _ hwritten _ _ _ =>
    exact absurd hwritten (not_written_node hc hr hprog)

theorem volumeGone_step (hx : NamesSound cfg s) (hg : Unreturned cfg s a)
    (h : step cfg s a = some s') {st : ZFSEvacuationStatus} (hm : (n, st) ∈ records s)
    (hphase : st.phase = .cleaningUp) {target : TargetInfo} (htarget : st.target = some target)
    (hgone : s.world.get .zfsVolume (target.volKey cfg) = none) :
    s'.world.get .zfsVolume (target.volKey cfg) = none := by
  by_contra hsome
  obtain ⟨x, hnew⟩ := Option.ne_none_iff_exists'.mp hsome
  rcases created_step h hgone hnew with ⟨o, rfl, -⟩ | ⟨m, o, r, x', next, rfl, hr, hprog, hkey⟩
  · cases step_cases h with
    | env e => exact hsome ((hg _ hm hphase target htarget).2 hgone)
  · obtain ⟨st₁, hk, target₁, info, hphase₁, htarget₁, rfl⟩ := hx.contracted.allowed hr hprog
    obtain rfl : r.status = st₁ := hk.eq
    have hhandle : target₁.newVolumeHandle = target.newVolumeHandle := congrArg Key.name hkey
    have hname : m = n := by
      by_contra hne
      refine hx.handles _ (mem_records_running hr) _ hm hne target.newVolumeHandle ?_ ?_
      · rw [handleOf, htarget₁, Option.map_some, hhandle]
      · rw [handleOf, htarget, Option.map_some]
    subst hname
    rw [← phase_congr (hx.aware.agree hr hk hm), hphase] at hphase₁
    rcases hphase₁ with hfalse | hfalse <;> cases hfalse

theorem OwnSnaps.keeps (h : OwnSnaps cfg s a) : KeepsSnaps cfg s a := by
  unfold KeepsSnaps
  split
  · exact h
  · exact fun q hq t ht hkey => absurd hkey (h q hq t ht)
  · trivial

/-! ## Updates of the agents -/

theorem get_update_snapshot (w : World) (o : Obj .zfsSnapshot) {k : Kind} {key : Key}
    (hk : k ≠ .zfsSnapshot) : (w.env (.update .zfsSnapshot o)).get k key = w.get k key := by
  simp only [World.env]
  split
  · rfl
  · exact World.get_update_other w _ fun hsame => absurd hsame hk

theorem unreturned_update (o : Obj .zfsSnapshot) :
    Unreturned cfg s (.env (.update .zfsSnapshot o)) := by
  intro q _ _ target _
  constructor
  · intro hgone x hx
    rw [World.mem_list, get_update_snapshot s.world o (by decide)] at hx
    exact hgone x (World.mem_list.mpr hx)
  · intro hgone
    rw [get_update_snapshot s.world o (by decide), hgone]

theorem namesApart_update {o : Obj .zfsSnapshot}
    (ho : ∀ n st t target, (n, st) ∈ records s → st.transfer = some t → st.target = some target →
      o.key = t.snapKey cfg → ∃ cur, s.world.get .zfsSnapshot o.key = some cur ∧
        o.metadata.labels = cur.metadata.labels ∧
          (o.metadata.finalizers = [] ∨ o.metadata.finalizers = [zfsFinalizer]))
    (hx : NamesSound cfg s) : NamesApart cfg s (.env (.update .zfsSnapshot o)) where
  status := ⟨trivial, trivial⟩
  handles x hx := by cases hx
  snapNames x hx := by cases hx
  unused x hx := by cases hx
  snaps := by
    rintro ⟨n, st⟩ hq t ht hkey cur hcur
    have htargeted := (hx.shape n st hq).targeted (Option.isSome_of_eq_some ht)
    obtain ⟨target, htarget⟩ := Option.isSome_iff_exists.mp htargeted
    obtain ⟨cur', hcur', hlabels, hfin⟩ := ho n st t target hq ht htarget hkey
    obtain rfl := Option.some.inj (hcur.symm.trans hcur')
    exact ⟨hlabels, hfin⟩

end System

namespace Cluster
variable {cfg : Config} {c c' : Cluster} {a : ClusterAction} {n : String}

/-! ## The copy of the transfer snapshot -/

/-- The copy of the transfer snapshot is gone with its ZFSSnapshot, or the node is. -/
def CopyGone (cfg : Config) (c : Cluster) (t : TransferStatus) (target : TargetInfo) : Prop :=
  (c.system.world.get .zfsSnapshot (t.snapKey cfg) = none ∧ copyOf t target ∉ c.snapshots) ∨
    NodeGone c.system.world target.nodeId

/-- The ZFSSnapshot is not gone before its agent has destroyed the copy. -/
def Held (cfg : Config) (c : Cluster) (deleting : Bool) (t : TransferStatus) : Prop :=
  ∃ cr, c.system.world.get .zfsSnapshot (t.snapKey cfg) = some cr ∧
    zfsFinalizer ∈ cr.metadata.finalizers ∧ (deleting = true → cr.deleting = true)

/-- The reconcile of this evacuation registers its ZFSSnapshot with this step. -/
def Registers (c : Cluster) (n : String) (a : ClusterAction) : Prop :=
  ∃ o r x, ∃ next : Except ApiError Unit → M Action, a = .sys (.call n o) ∧
    c.system.running.get n = some r ∧ r.prog = .call (.create .zfsSnapshot x) next

/-- What a reconcile of the cleanup has seen is so. -/
structure Seen (cfg : Config) (c : Cluster) (r : Running) (t : TransferStatus)
    (target : TargetInfo) : Prop where
  volume : sawEvent .zfsVolume (target.volKey cfg) none ∈ r.trace →
    c.system.world.get .zfsVolume (target.volKey cfg) = none
  node : NodeGoneSeen target.nodeId r.trace → NodeGone c.system.world target.nodeId
  settled : t.targetSnapDeleteIssued = true →
    sawEvent .zfsSnapshot (t.snapKey cfg) none ∈ r.trace → CopyGone cfg c t target
  leaving : ∀ cr, r.trace.head? = some (sawEvent .zfsSnapshot (t.snapKey cfg) (some cr)) →
    cr.deleting = true → CopyGone cfg c t target ∨ Held cfg c true t
  held : ∀ cr, r.trace.head? = some (sawEvent .zfsSnapshot (t.snapKey cfg) (some cr)) →
    zfsFinalizer ∈ cr.metadata.finalizers → CopyGone cfg c t target ∨ Held cfg c false t
  deleted : r.trace.head? = some (deletedEvent .zfsSnapshot (t.snapKey cfg)) →
    CopyGone cfg c t target ∨ Held cfg c true t

/-- What every state keeps of a run in which the surroundings keep to their part and no two
evacuations have a snapshot name in common. -/
structure TeardownSound (cfg : Config) (c : Cluster) : Prop where
  names : System.NamesSound cfg c.system
  crs : ∀ n, System.GoneSeen cfg n c.system
  issued : ∀ n st t target, (n, st) ∈ c.system.records → st.phase = .cleaningUp →
    st.transfer = some t → st.target = some target → t.targetSnapDeleteIssued = true →
      CopyGone cfg c t target ∨ Held cfg c true t
  seen : ∀ n r t target, c.system.running.get n = some r → written r.trace = none →
    r.status.phase = .cleaningUp → r.status.transfer = some t → r.status.target = some target →
      Seen cfg c r t target

/-- The steps of such a run. -/
structure Separate (cfg : Config) (c : Cluster) (a : ClusterAction) : Prop where
  attended : Attended cfg c a
  names : OwnSnapNames cfg c a

/-- The system moves by one of its own steps, or not at all. -/
theorem system_step (hx : TeardownSound cfg c) (hg : Separate cfg c a)
    (h : step cfg c a = some c') : c'.system = c.system ∨ ∃ b,
      System.step cfg c.system b = some c'.system ∧ System.NamesApart cfg c.system b ∧
      System.Unreturned cfg c.system b ∧ (∀ n, System.OwnCrs cfg n b) ∧
      ∀ m o, b = .call m o → a = .sys b := by
  cases step_cases h with
  | sys b s' hstep =>
    obtain ⟨hattended, hnames⟩ := hg
    exact .inr ⟨b, hstep, ⟨hattended.status, hattended.handles, hnames.fresh, hnames.unused,
      hattended.snaps.keeps⟩, hattended.unreturned, hattended.crs, fun _ _ _ => rfl⟩
  | receive x => exact .inl rfl
  | lose x => exact .inl rfl
  | create name cr x _ _ => exact .inl rfl
  | destroy name x => exact .inl rfl
  | register name cr stored live =>
    have hkey : (registered cr).key = cr.key := rfl
    refine .inr ⟨.env (.update .zfsSnapshot (registered cr)), rfl, ?_, ?_, fun n => trivial,
      fun m o heq => by cases heq⟩
    · refine System.namesApart_update (fun n st t target hm ht htarget hname => ?_) hx.names
      rw [hkey, World.get_key stored] at hname
      have hstand := hx.names.standIn n st t target hm ht htarget cr (hname ▸ stored)
      refine ⟨cr, by rw [hkey, World.get_key stored, stored], rfl, .inr ?_⟩
      rcases hstand.finalizers with hfin | hfin <;> simp [registered, addZfs, hfin]
    · exact System.unreturned_update _
  | release name cr x stored names deleting gone =>
    have hkey : (released cr).key = cr.key := rfl
    refine .inr ⟨.env (.update .zfsSnapshot (released cr)), rfl, ?_, ?_, fun n => trivial,
      fun m o heq => by cases heq⟩
    · refine System.namesApart_update (fun n st t target hm ht htarget hname => ?_) hx.names
      rw [hkey, World.get_key stored] at hname
      have hstand := hx.names.standIn n st t target hm ht htarget cr (hname ▸ stored)
      refine ⟨cr, by rw [hkey, World.get_key stored, stored], rfl, .inl ?_⟩
      rcases hstand.finalizers with hfin | hfin <;> simp [released, stripZfs, hfin]
    · exact System.unreturned_update _

/-- The name and the dataset of the snapshot that a ZFSSnapshot is for. -/
theorem snapshotOf_eq {cr : Obj .zfsSnapshot} {x : Snapshot} {name : String}
    (hkey : cr.key = snapKey cfg name) (h : snapshotOf cr = some x) :
    x.name = name ∧ cr.metadata.labels.get zfsVolLabel = some x.dataset := by
  obtain ⟨dataset, hlabel, rfl⟩ := Option.map_eq_some_iff.mp h
  have hname : cr.name = name := congrArg Key.name hkey
  exact ⟨hname, hlabel⟩

section Copy
variable {st : ZFSEvacuationStatus} {t : TransferStatus} {target : TargetInfo}

theorem nodeGone_kept (hx : TeardownSound cfg c) (hg : Separate cfg c a)
    (h : step cfg c a = some c') (hm : (n, st) ∈ c.system.records) (hphase : st.phase = .cleaningUp)
    (htarget : st.target = some target) (hgone : NodeGone c.system.world target.nodeId) :
    NodeGone c'.system.world target.nodeId := by
  rcases system_step hx hg h with heq | ⟨b, hstep, -, hback, -, -⟩
  · rwa [heq]
  · exact System.nodeGone_step hx.names.contracted hback hstep hm hphase htarget hgone

/-- No ZFSSnapshot appears under the name of a transfer that the evacuation does not register. -/
theorem absent_kept (hx : TeardownSound cfg c) (hg : Separate cfg c a) (h : step cfg c a = some c')
    (hm : (n, st) ∈ c.system.records) (ht : st.transfer = some t) (hno : ¬ Registers c n a)
    (hnone : c.system.world.get .zfsSnapshot (t.snapKey cfg) = none) :
    c'.system.world.get .zfsSnapshot (t.snapKey cfg) = none := by
  rcases system_step hx hg h with heq | ⟨b, hstep, hapart, -, -, hcall⟩
  · rwa [heq]
  by_contra hsome
  obtain ⟨x, hnew⟩ := Option.ne_none_iff_exists'.mp hsome
  rcases System.created_step hstep hnone hnew with
    ⟨o, rfl, hkey⟩ | ⟨m, o, r, x', next, rfl, hr, hprog, hkey⟩
  · exact hapart.snaps _ hm t ht hkey
  · obtain ⟨st₁, hk, target₁, t₁, info, -, -, ht₁, rfl, -⟩ :=
      hx.names.contracted.allowed hr hprog
    obtain rfl : r.status = st₁ := hk.eq
    obtain ⟨rfl, -⟩ := hx.names.owner hm ht hr hk ht₁ hkey
    exact hno ⟨o, r, _, next, hcall m o rfl, hr, hprog⟩

theorem copyGone_step (hx : TeardownSound cfg c) (hg : Separate cfg c a)
    (h : step cfg c a = some c') (hm : (n, st) ∈ c.system.records) (hphase : st.phase = .cleaningUp)
    (ht : st.transfer = some t) (htarget : st.target = some target) (hno : ¬ Registers c n a)
    (hgone : CopyGone cfg c t target) : CopyGone cfg c' t target := by
  rcases hgone with ⟨hnone, hcopy⟩ | hnode
  · refine .inl ⟨absent_kept hx hg h hm ht hno hnone, ?_⟩
    have hattended := hg.attended
    cases step_cases h with
    | sys b s' _ => exact hcopy
    | receive x =>
      have hother : x ≠ copyOf t target := hattended _ hm hphase t ht target htarget
      simp [hcopy, hother.symm]
    | lose x | destroy name x =>
      intro hmem
      exact hcopy (List.mem_filter.mp hmem).1
    | create name cr x stored names =>
      have hother : copyOf t target ≠ x := by
        rintro rfl
        have hname := (snapshotOf_eq (World.get_key stored) names).1
        rw [← hname] at stored
        rw [show snapKey cfg (copyOf t target).name = t.snapKey cfg from rfl, hnone] at stored
        cases stored
      simp [hcopy, hother]
    | register name cr _ _ => exact hcopy
    | release name cr x _ _ _ _ => exact hcopy
  · exact .inr (nodeGone_kept hx hg h hm hphase htarget hnode)

/-- Only for a node that is gone, a reconcile takes the agent's finalizer off. -/
theorem nodeGone_of_patch (hx : TeardownSound cfg c) {m : String} {r : Running} {key : Key}
    {p : Patch .zfsSnapshot} {next : Except ApiError Unit → M Action}
    (hm : (n, st) ∈ c.system.records) (ht : st.transfer = some t) (htarget : st.target = some target)
    (hr : c.system.running.get m = some r) (hprog : r.prog = .call (.patch .zfsSnapshot key p) next)
    (hkey : key = t.snapKey cfg) : NodeGone c.system.world target.nodeId := by
  have hallowed := hx.names.contracted.allowed hr hprog
  cases p with
  | finalizers fs =>
    obtain ⟨st₁, hk, -, t₁, target₁, hphase₁, ht₁, htarget₁, hkey₁, hwrote, hseen⟩ := hallowed
    obtain rfl : r.status = st₁ := hk.eq
    obtain ⟨rfl, hcore⟩ := hx.names.owner hm ht hr hk ht₁ (hkey₁.symm.trans hkey)
    have hsame : target₁ = target := by
      rw [target_congr hcore, htarget₁] at htarget
      exact Option.some.inj htarget
    exact hsame ▸ (hx.seen m r t₁ target₁ hr hwrote hphase₁ ht₁ htarget₁).node hseen
  | label _ _ | annotate _ _ =>
    obtain ⟨_, -, hfalse⟩ := hallowed
    exact hfalse.elim

/-- A deletion marks the ZFSSnapshot, which is not gone before its finalizer is. -/
theorem held_marked {cr : Obj .zfsSnapshot} (hfin : zfsFinalizer ∈ cr.metadata.finalizers)
    (timestamp : Nat) : (cr.marked timestamp).gone = false := by
  have hne : cr.metadata.finalizers ≠ [] := List.ne_nil_of_mem hfin
  simp [Obj.gone, Obj.marked, hne]

theorem held_sys (hx : TeardownSound cfg c) {b : SysAction} (hg : System.Attended cfg c.system b)
    {s' : System} (h : System.step cfg c.system b = some s') (hm : (n, st) ∈ c.system.records)
    (hphase : st.phase = .cleaningUp) (ht : st.transfer = some t) (htarget : st.target = some target)
    {deleting : Bool} (hheld : Held cfg c deleting t) :
    NodeGone s'.world target.nodeId ∨
      Held cfg { c with system := s' } deleting t := by
  obtain ⟨cr, hcr, hfin, hdel⟩ := hheld
  have hmarked : ∀ x : Obj .zfsSnapshot, ∀ key, c.system.world.get .zfsSnapshot key = some x →
      key = t.snapKey cfg → x = cr := by
    rintro x _ hget rfl
    exact Option.some.inj (hget.symm.trans hcr)
  have hnode : NodeGone c.system.world target.nodeId → NodeGone s'.world target.nodeId :=
    System.nodeGone_step hx.names.contracted hg.unreturned h hm hphase htarget
  cases hnew : s'.world.get .zfsSnapshot (t.snapKey cfg) with
  | some cr' =>
    cases System.obj_step hx.names.contracted h hnew with
    | same _ hstored =>
      obtain rfl := hmarked cr' _ hstored rfl
      exact .inr ⟨cr', hnew, hfin, hdel⟩
    | env e o hedit hkey heq _ =>
      cases hedit with
      | create o hnone =>
        have hkey' : o.key = t.snapKey cfg := hkey
        rw [hkey', hcr] at hnone
        cases hnone
      | update o cur _ => exact absurd hkey (hg.snaps _ hm t ht)
      | delete key x hget _ =>
        obtain rfl := hmarked x key hget ((World.get_key hget).symm.trans hkey)
        exact .inr ⟨cr', hnew, heq ▸ hfin, fun _ => heq ▸ rfl⟩
    | call m out r call next o hr hprog hallowed hwritten hkey heq _ =>
      cases hwritten with
      | create o hnone =>
        have hkey' : o.key = t.snapKey cfg := hkey
        rw [hkey', hcr] at hnone
        cases hnone
      | replace o cur _ _ =>
        obtain ⟨_, -, hfalse⟩ := hallowed
        exact hfalse.elim
      | delete key x hget _ =>
        obtain rfl := hmarked x key hget ((World.get_key hget).symm.trans hkey)
        exact .inr ⟨cr', hnew, heq ▸ hfin, fun _ => heq ▸ rfl⟩
      | patch key p x hget =>
        have hkey' : key = t.snapKey cfg := by
          rw [Patch.key_apply] at hkey
          exact (World.get_key hget).symm.trans hkey
        exact .inl (hnode (nodeGone_of_patch hx hm ht htarget hr hprog hkey'))
  | none =>
    cases System.obj_gone hx.names.contracted h hcr hnew with
    | env e o hedit hkey hgone =>
      cases hedit with
      | create o _ => simp [Obj.gone, Obj.born, Obj.deleting] at hgone
      | update o cur _ => exact absurd hkey (hg.snaps _ hm t ht)
      | delete key x hget _ =>
        obtain rfl := hmarked x key hget ((World.get_key hget).symm.trans hkey)
        rw [held_marked hfin] at hgone
        cases hgone
    | call m out r call next o hr hprog hallowed hwritten hkey hgone =>
      cases hwritten with
      | create o _ => simp [Obj.gone, Obj.born, Obj.deleting] at hgone
      | replace o cur _ _ =>
        obtain ⟨_, -, hfalse⟩ := hallowed
        exact hfalse.elim
      | delete key x hget _ =>
        obtain rfl := hmarked x key hget ((World.get_key hget).symm.trans hkey)
        rw [held_marked hfin] at hgone
        cases hgone
      | patch key p x hget =>
        have hkey' : key = t.snapKey cfg := by
          rw [Patch.key_apply] at hkey
          exact (World.get_key hget).symm.trans hkey
        exact .inl (hnode (nodeGone_of_patch hx hm ht htarget hr hprog hkey'))

/-- What is stored after an agent's update. -/
theorem get_updated {cr o : Obj .zfsSnapshot}
    (hcr : c.system.world.get .zfsSnapshot cr.key = some cr) (hkey : o.key = cr.key) (key : Key) :
    (c.updated o).system.world.get .zfsSnapshot key =
      if key = cr.key then
        if (World.edited cr o).gone then none
        else some ((World.edited cr o).stamped c.system.world.revision)
      else c.system.world.get .zfsSnapshot key := by
  have hedited : (World.edited cr o).key = cr.key := hkey
  have hworld : (c.updated o).system.world = c.system.world.update (World.edited cr o) := by
    rw [updated, World.env, hkey, hcr]
  rw [hworld]
  split_ifs with hsame hgone
  · rw [hsame, ← hedited, World.get_update_self, if_pos hgone]
  · rw [hsame, ← hedited, World.get_update_self, if_neg hgone]
  · exact World.get_update_other _ _ fun _ => hedited ▸ hsame

/-- The agent puts its finalizer on a ZFSSnapshot and leaves the others as they are. -/
theorem held_register {name : String} {cr : Obj .zfsSnapshot}
    (stored : c.system.world.get .zfsSnapshot (snapKey cfg name) = some cr)
    (live : cr.deleting = false) {deleting : Bool} (hheld : Held cfg c deleting t) :
    Held cfg (c.updated (registered cr)) deleting t := by
  obtain ⟨x, hget, hfin, hdel⟩ := hheld
  have hkey := World.get_key stored
  have hcr : c.system.world.get .zfsSnapshot cr.key = some cr := hkey.symm ▸ stored
  have hafter := get_updated (o := registered cr) hcr rfl (t.snapKey cfg)
  split_ifs at hafter with hsame hgone
  · have hnot : (World.edited cr (registered cr)).deleting = false := live
    simp [Obj.gone, hnot] at hgone
  · rw [hsame, hcr] at hget
    obtain rfl := Option.some.inj hget
    refine ⟨_, hafter, ?_, hdel⟩
    have hkept : zfsFinalizer ∈ addZfs cr.metadata.finalizers := by simp [addZfs, hfin]
    exact hkept
  · exact ⟨x, hafter.trans hget, hfin, hdel⟩

/-- Once its agent lets go of a ZFSSnapshot, the snapshot does not exist. -/
theorem held_release (hx : TeardownSound cfg c) (hm : (n, st) ∈ c.system.records)
    (ht : st.transfer = some t) (htarget : st.target = some target) {name : String}
    {cr : Obj .zfsSnapshot} {x : Snapshot}
    (stored : c.system.world.get .zfsSnapshot (snapKey cfg name) = some cr)
    (names : snapshotOf cr = some x) (deleting : cr.deleting = true) (gone : x ∉ c.snapshots)
    {b : Bool} (hheld : Held cfg c b t) :
    CopyGone cfg (c.updated (released cr)) t target ∨ Held cfg (c.updated (released cr)) b t := by
  obtain ⟨y, hget, hfin, hdel⟩ := hheld
  have hkey := World.get_key stored
  have hcr : c.system.world.get .zfsSnapshot cr.key = some cr := hkey.symm ▸ stored
  have hafter := get_updated (o := released cr) hcr rfl (t.snapKey cfg)
  by_cases hsame : t.snapKey cfg = cr.key
  · have hstand := hx.names.standIn n st t target hm ht htarget cr (hsame ▸ hcr)
    have hone : cr.metadata.finalizers = [zfsFinalizer] := by
      rcases hstand.finalizers with hnil | hone
      · have hmem := hstand.held deleting
        rw [hnil] at hmem
        cases hmem
      · exact hone
    have hempty : (World.edited cr (released cr)).metadata.finalizers = [] := by
      simp [World.edited, released, hone, stripZfs]
    have hmarked : (World.edited cr (released cr)).deleting = true := deleting
    rw [if_pos hsame, if_pos (by simp [Obj.gone, hmarked, hempty])] at hafter
    refine .inl (.inl ⟨hafter, ?_⟩)
    obtain ⟨hname, hlabel⟩ := snapshotOf_eq hkey names
    have hdataset : x.dataset = target.newVolumeHandle :=
      Option.some.inj (hlabel.symm.trans hstand.label)
    have hsnap : name = t.snapName := congrArg Key.name (hkey.symm.trans hsame.symm)
    have hx : x = copyOf t target := by
      cases x
      simp_all [copyOf]
    exact hx ▸ gone
  · rw [if_neg hsame] at hafter
    exact .inr ⟨y, hafter.trans hget, hfin, hdel⟩

/-- The copy of the transfer snapshot stays in the hands of its agent until it is gone. -/
theorem held_step (hx : TeardownSound cfg c) (hg : Separate cfg c a) (h : step cfg c a = some c')
    (hm : (n, st) ∈ c.system.records) (hphase : st.phase = .cleaningUp) (ht : st.transfer = some t)
    (htarget : st.target = some target) {deleting : Bool} (hheld : Held cfg c deleting t) :
    CopyGone cfg c' t target ∨ Held cfg c' deleting t := by
  have hattended := hg.attended
  cases step_cases h with
  | sys b s' hstep =>
    exact (held_sys hx hattended hstep hm hphase ht htarget hheld).imp_left .inr
  | receive x => exact .inr hheld
  | lose x => exact .inr hheld
  | create name cr x _ _ => exact .inr hheld
  | destroy name x => exact .inr hheld
  | register name cr stored live => exact .inr (held_register stored live hheld)
  | release name cr x stored names deleting gone =>
    exact held_release hx hm ht htarget stored names deleting gone hheld

theorem copy_step (hx : TeardownSound cfg c) (hg : Separate cfg c a) (h : step cfg c a = some c')
    (hm : (n, st) ∈ c.system.records) (hphase : st.phase = .cleaningUp) (ht : st.transfer = some t)
    (htarget : st.target = some target) (hno : ¬ Registers c n a) {deleting : Bool}
    (hcopy : CopyGone cfg c t target ∨ Held cfg c deleting t) :
    CopyGone cfg c' t target ∨ Held cfg c' deleting t := by
  rcases hcopy with hgone | hheld
  · exact .inl (copyGone_step hx hg h hm hphase ht htarget hno hgone)
  · exact held_step hx hg h hm hphase ht htarget hheld

/-- Once the deletion is on record, the evacuation registers no ZFSSnapshot any more. -/
theorem not_registers (hx : TeardownSound cfg c) (hm : (n, st) ∈ c.system.records)
    (ht : st.transfer = some t) (hissued : t.targetSnapDeleteIssued = true) :
    ¬ Registers c n a := by
  rintro ⟨o, r, x, next, -, hr, hprog⟩
  obtain ⟨st₁, hk, target₁, t₁, info, -, -, ht₁, -, hunissued⟩ :=
    hx.names.contracted.allowed hr hprog
  obtain rfl : r.status = st₁ := hk.eq
  rw [System.transfer_congr (hx.names.aware.agree hr hk hm), ht₁] at ht
  obtain rfl := Option.some.inj ht
  rw [hissued] at hunissued
  cases hunissued

/-! ## What a reconcile has seen -/

/-- What a reconcile has seen stays so while others move. -/
theorem Seen.kept (hx : TeardownSound cfg c) (hg : Separate cfg c a) (h : step cfg c a = some c')
    {r : Running} (hr : c.system.running.get n = some r) (hphase : r.status.phase = .cleaningUp)
    (ht : r.status.transfer = some t) (htarget : r.status.target = some target)
    (hother : ∀ o, a ≠ .sys (.call n o)) (hs : Seen cfg c r t target) : Seen cfg c' r t target := by
  have hm := System.mem_records_running hr
  have hno : ¬ Registers c n a := by
    rintro ⟨o, _, _, _, ha, -⟩
    exact hother o ha
  constructor
  · intro hseen
    have hnone := hs.volume hseen
    rcases system_step hx hg h with heq | ⟨b, hstep, -, hback, -, -⟩
    · rwa [heq]
    · exact System.volumeGone_step hx.names hback hstep hm hphase htarget hnone
  · exact fun hseen => nodeGone_kept hx hg h hm hphase htarget (hs.node hseen)
  · exact fun hissued hseen =>
      copyGone_step hx hg h hm hphase ht htarget hno (hs.settled hissued hseen)
  · exact fun cr hhead hdel =>
      copy_step hx hg h hm hphase ht htarget hno (hs.leaving cr hhead hdel)
  · exact fun cr hhead hfin => copy_step hx hg h hm hphase ht htarget hno (hs.held cr hhead hfin)
  · exact fun hhead => copy_step hx hg h hm hphase ht htarget hno (hs.deleted hhead)

section Called
variable {o : Outcome} {r : Running} {call : Call} {next : call.Resp → M Action}

/-- The world after a call. -/
theorem world_called (h : step cfg c (.sys (.call n o)) = some c')
    (hr : c.system.running.get n = some r) (hprog : r.prog = .call call next) :
    c'.system.world = c.system.world.after o call := by
  cases step_cases h with
  | sys b s' hstep => exact System.world_call hstep hr hprog

/-- The ZFSSnapshot that a reconcile deletes is in the hands of its agent, or its node is gone. -/
theorem deleted_seen (hx : TeardownSound cfg c) (hg : Separate cfg c (.sys (.call n o)))
    (h : step cfg c (.sys (.call n o)) = some c') (hr : c.system.running.get n = some r)
    (hprog : r.prog = .call call next) (hphase : r.status.phase = .cleaningUp)
    (ht : r.status.transfer = some t) (htarget : r.status.target = some target)
    (hs : Seen cfg c r t target) (hevent : (⟨call, c.system.world.answer o call⟩ : Event kubeInterface) =
      deletedEvent .zfsSnapshot (t.snapKey cfg)) :
    CopyGone cfg c' t target ∨ Held cfg c' true t := by
  have hm := System.mem_records_running hr
  obtain rfl : call = .delete .zfsSnapshot (t.snapKey cfg) := congrArg Sigma.fst hevent
  have hok : c.system.world.answer o (.delete .zfsSnapshot (t.snapKey cfg)) = .ok () :=
    eq_of_heq (Sigma.mk.inj hevent).2
  obtain ⟨cr, hcr, hmarked⟩ := World.marked_of_delete hok
  rw [← world_called h hr hprog] at hmarked
  obtain ⟨st₁, hk, t₁, target₁, -, ht₁, htarget₁, -, -, hmay⟩ :=
    hx.names.contracted.allowed hr hprog
  obtain rfl : r.status = st₁ := hk.eq
  obtain rfl : t = t₁ := Option.some.inj (ht.symm.trans ht₁)
  obtain rfl : target = target₁ := Option.some.inj (htarget.symm.trans htarget₁)
  have hbefore : CopyGone cfg c t target ∨ Held cfg c false t := by
    rcases hmay with ⟨x, hfin, hhead⟩ | hnode
    · exact hs.held x hhead hfin
    · exact .inl (.inr (hs.node hnode))
  rcases hbefore with (⟨hnone, -⟩ | hnode) | ⟨x, hget, hfin, -⟩
  · rw [hcr] at hnone
    cases hnone
  · exact .inl (.inr (nodeGone_kept hx hg h hm hphase htarget hnode))
  · obtain rfl : cr = x := Option.some.inj (hcr.symm.trans hget)
    obtain ⟨cr', hcr', hfin', hdel'⟩ := hmarked (List.ne_nil_of_mem hfin)
    exact .inr ⟨cr', hcr', hfin' ▸ hfin, fun _ => hdel'⟩

/-- What a reconcile sees with its next call is so. -/
theorem Seen.called (hx : TeardownSound cfg c) (hg : Separate cfg c (.sys (.call n o)))
    (h : step cfg c (.sys (.call n o)) = some c') (hr : c.system.running.get n = some r)
    (hprog : r.prog = .call call next) (hphase : r.status.phase = .cleaningUp)
    (ht : r.status.transfer = some t) (htarget : r.status.target = some target)
    (hs : Seen cfg c r t target) :
    Seen cfg c' { r with trace := ⟨call, c.system.world.answer o call⟩ :: r.trace
                         prog := next (c.system.world.answer o call) } t target := by
  have hm := System.mem_records_running hr
  constructor
  · intro hseen
    have hnone : c.system.world.get .zfsVolume (target.volKey cfg) = none := by
      rcases List.mem_cons.mp hseen with hnow | hbefore
      · obtain rfl : Call.get .zfsVolume (target.volKey cfg) = call := congrArg Sigma.fst hnow
        exact answer_get hnow.symm
      · exact hs.volume hbefore
    rcases system_step hx hg h with heq | ⟨b, hstep, -, hback, -, -⟩
    · rwa [heq]
    · exact System.volumeGone_step hx.names hback hstep hm hphase htarget hnone
  · rintro ⟨nodes, hlisted, hnodes⟩
    have hgone : NodeGone c.system.world target.nodeId := by
      rcases List.mem_cons.mp hlisted with hnow | hbefore
      · obtain rfl : Call.list .node {} = call := congrArg Sigma.fst hnow
        rw [NodeGone, answer_list hnow.symm]
        exact hnodes
      · exact hs.node ⟨nodes, hbefore, hnodes⟩
    exact nodeGone_kept hx hg h hm hphase htarget hgone
  · intro hissued hseen
    have hcopy : CopyGone cfg c t target := by
      rcases List.mem_cons.mp hseen with hnow | hbefore
      · obtain rfl : Call.get .zfsSnapshot (t.snapKey cfg) = call := congrArg Sigma.fst hnow
        have hnone := answer_get hnow.symm
        rcases hx.issued n _ t target hm hphase ht htarget hissued with hgone | ⟨cr, hcr, -⟩
        · exact hgone
        · rw [hnone] at hcr
          cases hcr
      · exact hs.settled hissued hbefore
    exact copyGone_step hx hg h hm hphase ht htarget (not_registers hx hm ht hissued) hcopy
  · intro cr hhead hdel
    have hevent := Option.some.inj hhead
    obtain rfl : call = .get .zfsSnapshot (t.snapKey cfg) := congrArg Sigma.fst hevent
    have hcr := answer_get hevent
    have hfin := (hx.names.standIn n _ t target hm ht htarget cr hcr).held hdel
    exact held_step hx hg h hm hphase ht htarget ⟨cr, hcr, hfin, fun _ => hdel⟩
  · intro cr hhead hfin
    have hevent := Option.some.inj hhead
    obtain rfl : call = .get .zfsSnapshot (t.snapKey cfg) := congrArg Sigma.fst hevent
    have hcr := answer_get hevent
    exact held_step hx hg h hm hphase ht htarget ⟨cr, hcr, hfin, fun hfalse => by cases hfalse⟩
  · intro hhead
    exact deleted_seen hx hg h hr hprog hphase ht htarget hs (Option.some.inj hhead)

end Called

/-- A reconcile that has just started has seen nothing. -/
theorem Seen.started (view : Obj .evacuation) (prog : M Action) :
    Seen cfg c { view, prog } t target := by
  constructor
  · intro hseen
    cases hseen
  · rintro ⟨nodes, hlisted, -⟩
    cases hlisted
  · intro _ hseen
    cases hseen
  · intro cr hhead
    cases hhead
  · intro cr hhead
    cases hhead
  · intro hhead
    cases hhead

/-- What is known of a copy depends on the name of the snapshot alone. -/
theorem copy_congr {t₀ : TransferStatus} (hname : t₀.snapName = t.snapName) {deleting : Bool}
    (h : CopyGone cfg c t₀ target ∨ Held cfg c deleting t₀) :
    CopyGone cfg c t target ∨ Held cfg c deleting t := by
  rw [CopyGone, Held, TransferStatus.snapKey, copyOf, hname] at h
  exact h

/-- The deletion of the ZFSSnapshot is recorded once it is on its way out. -/
theorem issued_write (hx : TeardownSound cfg c) {o : Outcome}
    (hg : Separate cfg c (.sys (.call n o))) (h : step cfg c (.sys (.call n o)) = some c')
    {r : Running} {w : ZFSEvacuationStatus} {next : Except ApiError Unit → M Action}
    (hr : c.system.running.get n = some r)
    (hprog : r.prog = .call (.patch .evacuation (evacKey r.view) (.status w)) next)
    (hk : Knows r.view r.trace r.status) (hw : Writes cfg r.view r.trace r.status w)
    (hphase : w.phase = .cleaningUp) (ht : w.transfer = some t) (htarget : w.target = some target)
    (hissued : t.targetSnapDeleteIssued = true) :
    CopyGone cfg c' t target ∨ Held cfg c' true t := by
  have hm := System.mem_records_running hr
  have hshape := hx.names.shape n _ hm
  have hno : ¬ Registers c n (.sys (.call n o)) := by
    rintro ⟨o', r₁, x, next₁, -, hr₁, hprog₁⟩
    obtain rfl := Option.some.inj (hr.symm.trans hr₁)
    rw [hprog] at hprog₁
    cases hprog₁
  obtain ⟨hsame, ⟨t₀, ht₀, -, hname, hcase⟩ | hstarted⟩ := hw.transferMove.transfer_some hshape ht
  · rw [hsame] at htarget
    refine copy_congr hname ?_
    rcases hcase with hflag | ⟨hbefore, hwrote, hseen⟩
    · have hissued₀ : t₀.targetSnapDeleteIssued = true := hflag.symm.trans hissued
      have hbefore : r.status.phase = .cleaningUp := by
        rcases hshape.issued ⟨t₀, ht₀, hissued₀⟩ with hclean | hcompleted
        · exact hclean
        · have hlater := (hw.recording hk hshape.committed).later hshape.toTracked
          have hover := phase_of_completed (hcompleted ▸ hlater.phase)
          rw [hphase] at hover
          cases hover
      exact copy_step hx hg h hm hbefore ht₀ htarget hno
        (hx.issued n _ t₀ target hm hbefore ht₀ htarget hissued₀)
    · have hs := hx.seen n r t₀ target hr hwrote hbefore ht₀ htarget
      refine copy_step hx hg h hm hbefore ht₀ htarget hno ?_
      rcases hseen with hdeleted | ⟨cr, hdel, hhead⟩
      · exact hs.deleted hdeleted
      · exact hs.leaving cr hhead hdel
  · rw [hphase] at hstarted
    cases hstarted

theorem issued_step (hx : TeardownSound cfg c) (hg : Separate cfg c a) (h : step cfg c a = some c')
    (hm : (n, st) ∈ c'.system.records) (hphase : st.phase = .cleaningUp) (ht : st.transfer = some t)
    (htarget : st.target = some target) (hissued : t.targetSnapDeleteIssued = true) :
    CopyGone cfg c' t target ∨ Held cfg c' true t := by
  have hkept : ∀ st₀, (n, st₀) ∈ c.system.records → st.core = st₀.core →
      CopyGone cfg c' t target ∨ Held cfg c' true t := by
    intro st₀ hm₀ hcore
    rw [System.phase_congr hcore] at hphase
    rw [System.transfer_congr hcore] at ht
    rw [target_congr hcore] at htarget
    exact copy_step hx hg h hm₀ hphase ht htarget (not_registers hx hm₀ ht hissued)
      (hx.issued n st₀ t target hm₀ hphase ht htarget hissued)
  rcases system_step hx hg h with heq | ⟨b, hstep, hapart, -, -, hcall⟩
  · exact hkept st (heq ▸ hm) rfl
  · cases System.record_step hx.names.contracted hapart.status hstep hm with
    | kept _ st₀ mem same => exact hkept st₀ mem same
    | wrote r o w next running prog knows writes same =>
      obtain rfl : a = .sys (.call n o) := hcall n o rfl
      rw [System.phase_congr same] at hphase
      rw [System.transfer_congr same] at ht
      rw [target_congr same] at htarget
      exact issued_write hx hg h running prog knows writes hphase ht htarget hissued
    | fresh _ new =>
      rw [new] at hphase
      cases hphase

theorem seen_step (hx : TeardownSound cfg c) (hg : Separate cfg c a) (h : step cfg c a = some c')
    {r' : Running} (hr' : c'.system.running.get n = some r') (hwrote : written r'.trace = none)
    (hphase : r'.status.phase = .cleaningUp) (ht : r'.status.transfer = some t)
    (htarget : r'.status.target = some target) : Seen cfg c' r' t target := by
  have hkept : c.system.running.get n = some r' → (∀ o, a ≠ .sys (.call n o)) →
      Seen cfg c' r' t target := fun hr hother =>
    (hx.seen n r' t target hr hwrote hphase ht htarget).kept hx hg h hr hphase ht htarget hother
  cases step_cases h with
  | sys b s' hstep =>
    cases System.running_step hstep hr' with
    | kept _ hr hother =>
      refine hkept hr fun o heq => hother o ?_
      cases heq
      rfl
    | started version _ _ _ heq =>
      rw [heq]
      exact Seen.started _ _
    | called o r call next hr hprog _ heq =>
      subst heq
      cases hw : statusWrite call with
      | some w => simp [written, hw] at hwrote
      | none =>
        have hbefore : written r.trace = none := by simpa [written, hw] using hwrote
        have hstatus : Running.status
            { r with trace := ⟨call, c.system.world.answer o call⟩ :: r.trace
                     prog := next (c.system.world.answer o call) } = r.status := by
          rw [Running.status, hwrote, Running.status, hbefore]
        rw [hstatus] at hphase ht htarget
        exact (hx.seen n r t target hr hbefore hphase ht htarget).called hx hg h hr hprog hphase ht
          htarget
  | receive x | lose x | create name cr x _ _ | destroy name x | register name cr _ _
  | release name cr x _ _ _ _ => exact hkept hr' fun o heq => by cases heq

end Copy

theorem teardownSound_init : TeardownSound cfg init := by
  constructor
  · exact System.namesSound_init
  · intro n r k cr hr
    cases hr
  · intro n st t target hm
    cases hm
  · intro n r t target hr
    cases hr

theorem TeardownSound.step (hx : TeardownSound cfg c) (hg : Separate cfg c a)
    (h : step cfg c a = some c') : TeardownSound cfg c' where
  names := by
    rcases system_step hx hg h with heq | ⟨b, hstep, hapart, -⟩
    · exact heq ▸ hx.names
    · exact hx.names.step hapart hstep
  crs n := by
    rcases system_step hx hg h with heq | ⟨b, hstep, -, -, hown, -⟩
    · exact heq ▸ hx.crs n
    · exact System.gone_step hx.names.contracted (hx.crs n) (hown n) hstep
  issued _ _ _ _ hm hphase ht htarget hissued := issued_step hx hg h hm hphase ht htarget hissued
  seen _ _ _ _ hr hwrote hphase ht htarget := seen_step hx hg h hr hwrote hphase ht htarget

theorem teardownSound_run {as : List ClusterAction}
    (h : Run (Cluster.step cfg) (Separate cfg) init as c) : TeardownSound cfg c :=
  h.invariant teardownSound_init fun _ _ _ hx hg hstep => hx.step hg hstep

/-- The next call of this reconcile deletes the source in the cleanup. -/
structure DeletesSource (cfg : Config) (r : Running) : Prop where
  phase : r.status.phase = .cleaningUp
  next : ∃ source, ∃ next : Except ApiError Unit → M Action, r.status.source = some source ∧
    r.prog = .call (.delete .zfsVolume (source.volKey cfg)) next

/-- The resources of the transfer are gone, and so is the copy of its snapshot on the target,
unless the volume there or the node is gone. -/
def TargetClean (cfg : Config) (c : Cluster) (n : String) (st : ZFSEvacuationStatus) : Prop :=
  ∃ t target, st.transfer = some t ∧ st.target = some target ∧
    (∀ cr, ¬ System.HasCr cfg c.system n t.attempt cr) ∧
    (copyOf t target ∉ c.snapshots ∨
      c.system.world.get .zfsVolume (target.volKey cfg) = none ∨
      NodeGone c.system.world target.nodeId)

/-- In every run in which no two evacuations have the name of a transfer snapshot in common, the
cleanup deletes the source only once the target is clean. -/
theorem target_clean_first (cfg : Config) (as : List ClusterAction) (c : Cluster) (n : String)
    (r : Running) (h : Run (Cluster.step cfg) (Separate cfg) init as c)
    (hr : c.system.running.get n = some r) (hdel : DeletesSource cfg r) :
    TargetClean cfg c n r.status := by
  have hx := teardownSound_run h
  obtain ⟨hphase, source, next, hs, hprog⟩ := hdel
  obtain ⟨st, hk, ⟨hfalse, -⟩ | ⟨hfalse | ⟨-, hdown⟩, -⟩⟩ := hx.names.contracted.allowed hr hprog
  · obtain rfl : r.status = st := hk.eq
    rw [hphase] at hfalse
    cases hfalse
  · obtain rfl : r.status = st := hk.eq
    rw [hphase] at hfalse
    cases hfalse
  obtain rfl : r.status = st := hk.eq
  have hshape := hx.names.shape n _ (System.mem_records_running hr)
  obtain ⟨t, ht⟩ := Option.isSome_iff_exists.mp (hshape.transfer (by rw [hphase]; rfl))
  obtain ⟨target, htarget, -⟩ := hshape.target (by rw [hphase]; rfl)
  refine ⟨t, target, ht, htarget, ?_, ?_⟩
  · have hname := System.name_of_running hr
    intro cr
    refine hx.crs n r t.attempt cr hr hdown.crs.quiet ?_
    rw [← hname]
    cases cr with
    | backup => exact hdown.crs.bkp t ht
    | restore => exact hdown.crs.rst t ht
  · have hseen := hx.seen n r t target hr hdown.wrote hphase ht htarget
    obtain ⟨hsnap, hissued | hvolume⟩ := hdown.snap t target ht htarget
    · rcases hseen.settled hissued hsnap with ⟨-, hcopy⟩ | hnode
      · exact .inl hcopy
      · exact .inr (.inr hnode)
    · exact .inr (.inl (hseen.volume hvolume))

/-! ### Two cleanups with one snapshot name -/

instance {nodeId : String} {w : World} : Decidable (NodeGone w nodeId) :=
  inferInstanceAs (Decidable (∀ x ∈ _, _))

instance {s : System} {f : ZFSEvacuationStatus → Option String} {a : SysAction} :
    Decidable (System.Fresh f s a) :=
  inferInstanceAs (Decidable (∀ x, System.statusWritten s a = some x → ∀ y, f x.2 = some y → _))

instance {s : System} {a : SysAction} : Decidable (System.NameUnused cfg s a) :=
  inferInstanceAs (Decidable (∀ x, System.statusWritten s a = some x →
    ∀ t, x.2.transfer = some t → _))

instance {s : System} {a : SysAction} : Decidable (System.OwnSnaps cfg s a) := by
  unfold System.OwnSnaps
  split <;> infer_instance

instance {s : System} {a : SysAction} : Decidable (System.Unreturned cfg s a) := by
  unfold System.Unreturned
  rcases a with _ | _ | _ | _ <;> dsimp only <;> infer_instance

/-- A decidable case of `Attended`. -/
def Quiet (cfg : Config) (c : Cluster) : ClusterAction → Prop
  | .sys a => System.StatusCurrent c.system a ∧ System.NoCrs a ∧ System.OwnSnaps cfg c.system a ∧
    System.Unreturned cfg c.system a ∧ System.Fresh handleOf c.system a
  | a => Attended cfg c a

theorem Quiet.attended (h : Quiet cfg c a) : Attended cfg c a := by
  cases a with
  | sys b =>
    obtain ⟨hstatus, hcrs, hsnaps, hunreturned, hhandles⟩ := h
    exact ⟨hstatus, fun _ => hcrs.ownCrs, hsnaps, hunreturned, hhandles⟩
  | _ => exact h

instance : Decidable (Quiet cfg c a) := by
  unfold Quiet Attended
  cases a <;> infer_instance

instance : Decidable (OwnSnapNames cfg c a) := by
  unfold OwnSnapNames
  split
  · exact decidable_of_iff (_ ∧ _) ⟨fun h => ⟨h.1, h.2⟩, fun h => ⟨h.fresh, h.unused⟩⟩
  · infer_instance

open Sample (moveOf reconcilesOf seconds)

def nodes : List SysAction :=
  [ .env (.create .node (Sample.node "n1" "10.0.0.1")),
    .env (.create .node (Sample.node "n2" "10.0.0.2")),
    .env (.create .node (Sample.node "n3" "10.0.0.3")),
    .env (.create .zfsNode (Sample.zfsNode "n2")), .env (.create .zfsNode (Sample.zfsNode "n3")) ]

/-- An evacuation up to its transfer. It has been created with the version `first` and gets its
finalizer with the one before `base`; `random` draws its target and `suffix` its attempt. -/
def transfers (i : String) (first base random suffix : Nat) : List SysAction :=
  reconcilesOf ("pv" ++ i) [(first, 7), (base, 5), (base + 1, 4), (base + 2, 7)] ++
    [seconds 100] ++ reconcilesOf ("pv" ++ i) [(base + 3, 7)] ++ [seconds 100] ++
    reconcilesOf ("pv" ++ i) [(base + 4, 6)] ++ reconcilesOf ("pv" ++ i) [(base + 5, 11)] random ++
    reconcilesOf ("pv" ++ i) [(base + 6, 11)] suffix ++
    [.env (.relay ("pv" ++ i) ⟨1, 2, 0, 0, false, true⟩)] ++
    reconcilesOf ("pv" ++ i) [(base + 7, 8)]

/-- The snapshot of a first attempt. -/
def snapOf (suffix : Nat) : String := "zevac-a1-" ++ hexPadded 4 suffix

/-- The agents report the transfer and the new volume, the PV is swapped, and the agents finish
the deletion of the transfer resources. -/
def swaps (i node : String) (uid base random suffix : Nat) : List SysAction :=
  let handle := newDestinationHandle random
  [ Sample.restoreReport ("pv" ++ i ++ "-evacr-a1") handle node bkpStatusDone,
    Sample.backupReport ("pv" ++ i ++ "-evac-a1") ("vol" ++ i) "n1" (snapOf suffix)
      bkpStatusDone ] ++
    reconcilesOf ("pv" ++ i) [(base + 7, 8), (base + 8, 5)] ++
    [Sample.volumeReport handle node zfsStatusReady] ++
    reconcilesOf ("pv" ++ i) [(base + 8, 4), (base + 9, 6), (base + 10, 4), (base + 10, 2)] ++
    [.env (.update .pv (Sample.boundPv ("pv" ++ i) ("c" ++ i) handle uid))] ++
    reconcilesOf ("pv" ++ i) [(base + 10, 3), (base + 11, 5)] ++
    [ .env (.update .zfsBackup ⟨{ ns := "openebs", name := "pv" ++ i ++ "-evac-a1" },
        ({ spec := ⟨"", "", none, none, ""⟩ } : ZFSBackup)⟩),
      .env (.update .zfsRestore ⟨{ ns := "openebs", name := "pv" ++ i ++ "-evacr-a1" },
        ({ spec := ⟨"", "", ""⟩ } : ZFSRestore)⟩) ]

/-- A move of a volume up to the teardown of its transfer. -/
def moves (i node : String) (uid first base random suffix : Nat) : List ClusterAction :=
  (transfers i first base random suffix).map .sys ++
    [.receive ⟨newDestinationHandle random, snapOf suffix⟩] ++
    (swaps i node uid base random suffix).map .sys

def cleans (i : String) (version calls : Nat) : List ClusterAction :=
  (reconcilesOf ("pv" ++ i) [(version, calls)]).map .sys

/-- Two evacuations to different nodes, whose attempts have drawn the same suffix: the second one
takes the ZFSSnapshot of the first one for its own. -/
def sameSuffix : List ClusterAction :=
  (nodes ++ moveOf "1" ++ moveOf "2").map .sys ++ moves "1" "n2" 7 0 3 0 0 ++
    moves "2" "n3" 11 1 17 1 0 ++ cleans "1" 15 6 ++
    [.create "zevac-a1-0000", .register "zevac-a1-0000"] ++ cleans "2" 29 6 ++
    [.destroy "zevac-a1-0000", .release "zevac-a1-0000"] ++ cleans "2" 32 4

/-- Two evacuations whose attempts have drawn different suffixes. The second one, whose snapshot
is destroyed first, goes on while the first one waits. -/
def ownSuffixes : List ClusterAction :=
  (nodes ++ moveOf "1" ++ moveOf "2").map .sys ++ moves "1" "n2" 7 0 3 0 0 ++
    moves "2" "n3" 11 1 17 1 1 ++ cleans "1" 15 6 ++ cleans "2" 29 6 ++
    [ .create "zevac-a1-0000", .register "zevac-a1-0000", .create "zevac-a1-0001",
      .register "zevac-a1-0001" ] ++ cleans "1" 30 6 ++ cleans "2" 31 6 ++
    [.destroy "zevac-a1-0001", .release "zevac-a1-0001"] ++ cleans "1" 33 3 ++ cleans "2" 35 4

/-- The reconcile is about to delete its source in the cleanup. -/
def deletesSource (cfg : Config) (r : Running) : Bool :=
  r.status.phase = .cleaningUp && match r.prog with
  | .call (.delete .zfsVolume key) _ =>
    r.status.source.any fun source => key = source.volKey cfg
  | _ => false

theorem deletesSource_iff {r : Running} (h : deletesSource cfg r = true) :
    DeletesSource cfg r := by
  obtain ⟨hphase, hmatch⟩ := Bool.and_eq_true_iff.mp h
  refine ⟨of_decide_eq_true hphase, ?_⟩
  split at hmatch
  · rename_i key next hprog
    obtain ⟨source, hs, hkey⟩ := (Option.any_eq_true ..).mp hmatch
    exact ⟨source, next, hs, of_decide_eq_true hkey ▸ hprog⟩
  · cases hmatch

/-- The snapshot of the running evacuation exists on a target that exists. -/
def copyLeft (cfg : Config) (c : Cluster) (r : Running) : Bool :=
  r.status.transfer.any fun t => r.status.target.any fun target =>
    copyOf t target ∈ c.snapshots ∧
      c.system.world.get .zfsVolume (target.volKey cfg) ≠ none ∧
      ¬ NodeGone c.system.world target.nodeId

theorem not_clean_of_copyLeft {r : Running} (h : copyLeft cfg c r = true) :
    ¬ TargetClean cfg c n r.status := by
  rintro ⟨t, target, ht, htarget, -, hclean⟩
  simp only [copyLeft, ht, htarget, Option.any_some, decide_eq_true_eq] at h
  obtain ⟨hcopy, hvolume, hnode⟩ := h
  rcases hclean with hgone | hgone | hgone
  · exact hgone hcopy
  · exact hvolume hgone
  · exact hnode hgone

theorem not_target_clean_first : ¬ ∀ (cfg : Config) (as : List ClusterAction) (c : Cluster)
    (n : String) (r : Running), Run (Cluster.step cfg) (Attended cfg) init as c →
      c.system.running.get n = some r → DeletesSource cfg r → TargetClean cfg c n r.status := by
  intro hall
  obtain ⟨c, hrun, hc⟩ := Run.exists_of_runList
    (p := fun c : Cluster => (c.system.running.get "pv2").any fun r =>
      deletesSource Sample.config r && copyLeft Sample.config c r)
    (show (runList (guarded (Cluster.step Sample.config) (Quiet Sample.config)) init
      sameSuffix).any _ = true by decide +kernel)
  obtain ⟨r, hr, hboth⟩ := (Option.any_eq_true ..).mp hc
  obtain ⟨hdel, hcopy⟩ := Bool.and_eq_true_iff.mp hboth
  exact not_clean_of_copyLeft hcopy
    (hall _ _ c "pv2" r (hrun.mono fun _ _ hg => hg.attended) hr (deletesSource_iff hdel))

/-- Of two cleanups, one deletes its source with its target clean and the snapshot of the other
still there. -/
theorem target_clean_first_small : ∃ (as : List ClusterAction) (c : Cluster) (r : Running),
    Run (Cluster.step Sample.config) (Separate Sample.config) init as c ∧
      c.system.running.get "pv2" = some r ∧ DeletesSource Sample.config r ∧
      TargetClean Sample.config c "pv2" r.status ∧
      ⟨Sample.newHandle, "zevac-a1-0000"⟩ ∈ c.snapshots := by
  obtain ⟨c, hrun, hc⟩ := Run.exists_of_runList
    (p := fun c : Cluster =>
      ((c.system.running.get "pv2").any fun r => deletesSource Sample.config r) &&
        decide (⟨Sample.newHandle, "zevac-a1-0000"⟩ ∈ c.snapshots))
    (show (runList (guarded (Cluster.step Sample.config) fun c a =>
      Quiet Sample.config c a ∧ OwnSnapNames Sample.config c a) init ownSuffixes).any _ = true by
        decide +kernel)
  obtain ⟨hdeletes, hother⟩ := Bool.and_eq_true_iff.mp hc
  obtain ⟨r, hr, hdel⟩ := (Option.any_eq_true ..).mp hdeletes
  have hsep := hrun.mono fun _ _ hg => Separate.mk hg.1.attended hg.2
  have hsource := deletesSource_iff hdel
  exact ⟨_, c, r, hsep, hr, hsource, target_clean_first _ _ c "pv2" r hsep hr hsource,
    of_decide_eq_true hother⟩

end Cluster

end ZfsEvacuation
