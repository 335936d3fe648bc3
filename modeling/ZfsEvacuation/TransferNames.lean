import ZfsEvacuation.AttemptRecord
import ZfsEvacuation.StatusShape

/-!
# Names of transfers

The ZFSSnapshot that stands in for the copy of the transfer snapshot on the target is found by
the name of the snapshot alone. Where no two evacuations have a name in common, what is stored
under the name of a transfer is its own ZFSSnapshot.
-/
namespace ZfsEvacuation
open ClientProgram Program GuardedRun

/-! ## Objects of any kind -/

namespace System
variable {cfg : Config} {s s' : System} {a : SysAction} {n : String}

/-- Where a stored object comes from. -/
inductive ObjStep (cfg : Config) (s : System) {k : Kind} (key : Key) (x' : Obj k) :
    SysAction → Prop
  | same (a : SysAction) (stored : s.world.get k key = some x') : ObjStep cfg s key x' a
  | env (e : EnvAction) (o : Obj k) (edit : World.Edited s.world e k o) (named : o.key = key)
      (eq : x' = o.stamped s.world.revision) (stays : o.gone = false) :
      ObjStep cfg s key x' (.env e)
  | call (m : String) (out : Outcome) (r : Running) (c : Call) (next : c.Resp → M Action)
      (o : Obj k) (running : s.running.get m = some r) (prog : r.prog = .call c next)
      (allowed : Allowed cfg r.view r.trace c) (written : World.Written s.world c k o)
      (named : o.key = key) (eq : x' = o.stamped s.world.revision) (stays : o.gone = false) :
      ObjStep cfg s key x' (.call m out)

theorem obj_step (hc : Contracted cfg s) (h : step cfg s a = some s') {k : Kind} {key : Key}
    {x' : Obj k} (hx : s'.world.get k key = some x') : ObjStep cfg s key x' a := by
  cases step_cases h with
  | env e =>
    rcases World.get_env hx with hold | ⟨o, hedit, hkey, heq, hstays⟩
    · exact .same _ hold
    · exact .env e o hedit hkey heq hstays
  | start name version view _ _ _ _ => exact .same _ hx
  | call name o r c next hr hprog _ =>
    rw [world_proceed] at hx
    rcases World.after_cases s.world o c with ⟨heq, -⟩ | heq
    · have hold : s.world.get k key = some x' := heq ▸ hx
      exact .same _ hold
    · have hafter : (s.world.effect c).get k key = some x' := heq ▸ hx
      rcases World.get_effect hafter with hold | ⟨o', hwritten, hkey, hx', hstays⟩
      · exact .same _ hold
      · exact .call name o r c next o' hr hprog (hc.allowed hr hprog) hwritten hkey hx' hstays
  | crash => exact .same _ hx

/-- How a stored object disappears. -/
inductive ObjGone (cfg : Config) (s : System) {k : Kind} (key : Key) : SysAction → Prop
  | env (e : EnvAction) (o : Obj k) (edit : World.Edited s.world e k o) (named : o.key = key)
      (gone : o.gone = true) : ObjGone cfg s key (.env e)
  | call (m : String) (out : Outcome) (r : Running) (c : Call) (next : c.Resp → M Action)
      (o : Obj k) (running : s.running.get m = some r) (prog : r.prog = .call c next)
      (allowed : Allowed cfg r.view r.trace c) (written : World.Written s.world c k o)
      (named : o.key = key) (gone : o.gone = true) : ObjGone cfg s key (.call m out)

theorem obj_gone (hc : Contracted cfg s) (h : step cfg s a = some s') {k : Kind} {key : Key}
    {x : Obj k} (hx : s.world.get k key = some x) (hnone : s'.world.get k key = none) :
    ObjGone cfg s (k := k) key a := by
  cases step_cases h with
  | env e =>
    obtain ⟨o, hedit, hkey, hgone⟩ := World.get_env_none hx hnone
    exact .env e o hedit hkey hgone
  | start name version view _ _ _ _ => cases hx.symm.trans hnone
  | call name o r c next hr hprog _ =>
    rw [world_proceed] at hnone
    rcases World.after_cases s.world o c with ⟨heq, -⟩ | heq
    · have hsame : s.world.get k key = none := heq ▸ hnone
      cases hx.symm.trans hsame
    · have hafter : (s.world.effect c).get k key = none := heq ▸ hnone
      obtain ⟨o', hwritten, hkey, hgone⟩ := World.get_effect_none hx hafter
      exact .call name o r c next o' hr hprog (hc.allowed hr hprog) hwritten hkey hgone
  | crash => cases hx.symm.trans hnone

/-! ## The statuses of all evacuations -/

/-- The statuses that are stored or worked on, with the names of their evacuations. -/
def records (s : System) : List (String × ZFSEvacuationStatus) :=
  ((s.world.list .evacuation {}).filter fun e => e.metadata.ns = "").map
      (fun e => (e.name, viewStatus e)) ++
    s.running.items.map fun r => (r.view.name, r.status)

theorem mem_records {st : ZFSEvacuationStatus} : (n, st) ∈ records s ↔
    (∃ e, s.world.get .evacuation ⟨"", n⟩ = some e ∧ viewStatus e = st) ∨
      ∃ r, s.running.get n = some r ∧ r.status = st := by
  have hstored : ∀ e : Obj .evacuation,
      s.world.get .evacuation ⟨"", n⟩ = some e ↔
        e ∈ s.world.list .evacuation {} ∧ e.metadata.ns = "" ∧ e.name = n := by
    intro e
    rw [World.mem_list]
    constructor
    · intro he
      obtain ⟨hkey, hname⟩ := evac_key_name he
      exact ⟨hkey ▸ he, congrArg Key.ns hkey, hname⟩
    · rintro ⟨he, hns, hname⟩
      have hkey : e.key = ⟨"", n⟩ := by rw [Obj.key, ObjectMeta.key, hns, ← hname, Obj.name]
      exact hkey ▸ he
  have hrunning : ∀ r : Running, s.running.get n = some r ↔ r ∈ s.running.items ∧ r.view.name = n :=
    fun r => KeyedStore.get_eq_some_iff
  simp only [records, List.mem_append, List.mem_map, List.mem_filter, decide_eq_true_eq,
    Prod.mk.injEq, hstored, hrunning]
  constructor
  · rintro (⟨e, ⟨he, hns⟩, hname, hst⟩ | ⟨r, hr, hname, hst⟩)
    · exact .inl ⟨e, ⟨he, hns, hname⟩, hst⟩
    · exact .inr ⟨r, ⟨hr, hname⟩, hst⟩
  · rintro (⟨e, ⟨he, hns, hname⟩, hst⟩ | ⟨r, ⟨hr, hname⟩, hst⟩)
    · exact .inl ⟨e, ⟨he, hns⟩, hname, hst⟩
    · exact .inr ⟨r, hr, hname, hst⟩

theorem mem_records_running {r : Running} (hr : s.running.get n = some r) :
    (n, r.status) ∈ records s := mem_records.mpr (.inr ⟨r, hr, rfl⟩)

/-- Two records of one evacuation agree, where the reconcile knows the status. -/
theorem AllAware.agree (ha : AllAware s) {st : ZFSEvacuationStatus} {r : Running}
    (hr : s.running.get n = some r) (hk : Knows r.view r.trace r.status)
    (hm : (n, st) ∈ records s) : st.core = r.status.core := by
  rcases mem_records.mp hm with ⟨e, he, rfl⟩ | ⟨r', hr', rfl⟩
  · exact ha n r e hr he r.status hk
  · obtain rfl := Option.some.inj (hr.symm.trans hr')
    rfl

/-- Where a record comes from: it is an old one, a reconcile has written it, or the evacuation
is new. -/
inductive RecordStep (cfg : Config) (s : System) (n : String) (st' : ZFSEvacuationStatus) :
    SysAction → Prop
  | kept (a : SysAction) (st : ZFSEvacuationStatus) (mem : (n, st) ∈ records s)
      (same : st'.core = st.core) : RecordStep cfg s n st' a
  | wrote (r : Running) (o : Outcome) (w : ZFSEvacuationStatus)
      (next : Except ApiError Unit → M Action) (running : s.running.get n = some r)
      (prog : r.prog = .call (.patch .evacuation (evacKey r.view) (.status w)) next)
      (knows : Knows r.view r.trace r.status) (writes : Writes cfg r.view r.trace r.status w)
      (same : st'.core = w.core) : RecordStep cfg s n st' (.call n o)
  | fresh (a : SysAction) (new : st' = {}) : RecordStep cfg s n st' a

theorem record_step (hc : Contracted cfg s) (hg : StatusCurrent s a) (h : step cfg s a = some s')
    {st' : ZFSEvacuationStatus} (hm : (n, st') ∈ records s') : RecordStep cfg s n st' a := by
  rcases mem_records.mp hm with ⟨e', he', rfl⟩ | ⟨r', hr', rfl⟩
  · rcases evac_edit hc h he' with ⟨e, he, rfl | hedit⟩ | ⟨-, o, rfl, rfl, -⟩
    · exact .kept _ _ (mem_records.mpr (.inl ⟨e', he, rfl⟩)) rfl
    · have hold : (n, viewStatus e) ∈ records s := mem_records.mpr (.inl ⟨e, he, rfl⟩)
      cases hedit with
      | updated o _ hcur =>
        have hstatus := viewStatus_congr (hg.1 e hcur)
        exact .kept _ _ hold (congrArg ZFSEvacuationStatus.core hstatus)
      | marked key => exact .kept _ _ hold rfl
      | wrote r o st w next running prog knows writes =>
        obtain rfl : r.status = st := knows.eq
        exact .wrote r o w next running prog knows writes (core_mergeStatus _ _)
      | signed r o fs next _ _ _ => exact .kept _ _ hold rfl
    · have hfresh : statusOf ((o.born s.world.revision).stamped s.world.revision) = none := hg.1
      refine .fresh _ ?_
      rw [viewStatus, hfresh]
      rfl
  · cases running_step h hr' with
    | kept _ hr _ => exact .kept _ _ (mem_records_running hr) rfl
    | started version _ stored named heq =>
      obtain ⟨view, hview, hcur⟩ := hg.2
      obtain rfl : view = r'.view := Option.some.inj (hview.symm.trans stored)
      rw [heq]
      exact .kept _ _ (mem_records.mpr (.inl ⟨r'.view, hcur, rfl⟩)) rfl
    | called o r c next hr hprog _ heq =>
      cases hw : statusWrite c with
      | none =>
        refine .kept _ _ (mem_records_running hr) ?_
        rw [heq, Running.status, written, List.findSome?_cons, hw]
        rfl
      | some w =>
        obtain ⟨key, rfl⟩ := statusWrite_some hw
        obtain ⟨st, hknows, rfl, hwrites⟩ := hc.allowed hr hprog
        obtain rfl : r.status = st := hknows.eq
        rw [heq]
        exact .wrote r o w next hr hprog hknows hwrites rfl

/-! ## Names of one's own -/

/-- No two evacuations have such a name in common. -/
def Apart (f : ZFSEvacuationStatus → Option String) (s : System) : Prop :=
  ∀ p ∈ records s, ∀ q ∈ records s, p.1 ≠ q.1 → ∀ x, f p.2 = some x → f q.2 ≠ some x

/-- The status that a step writes, with the name of its evacuation. -/
def statusWritten (s : System) : SysAction → Option (String × ZFSEvacuationStatus)
  | .call n _ => (s.running.get n).bind fun r => match r.prog with
    | .call (.patch .evacuation _ (.status w)) _ => some (n, w)
    | _ => none
  | _ => none

/-- A status is only written with a name that no other evacuation has. -/
def Fresh (f : ZFSEvacuationStatus → Option String) (s : System) (a : SysAction) : Prop :=
  ∀ x, statusWritten s a = some x → ∀ y, f x.2 = some y →
    ∀ q ∈ records s, q.1 ≠ x.1 → f q.2 ≠ some y

theorem statusWritten_eq {r : Running} {o : Outcome} {key : Key} {w : ZFSEvacuationStatus}
    {next : Except ApiError Unit → M Action} (hr : s.running.get n = some r)
    (hprog : r.prog = .call (.patch .evacuation key (.status w)) next) :
    statusWritten s (.call n o) = some (n, w) := by
  rw [statusWritten, hr, Option.bind_some, hprog]

section Apart
variable {f : ZFSEvacuationStatus → Option String}
  (hcore : ∀ st st' : ZFSEvacuationStatus, st.core = st'.core → f st = f st')
  (hfresh : f {} = none)
include hcore hfresh

/-- A name that a record has after a step was on record before, or is written with it. -/
theorem name_step (hc : Contracted cfg s) (hg : StatusCurrent s a) (h : step cfg s a = some s')
    {st' : ZFSEvacuationStatus} (hm : (n, st') ∈ records s') {x : String} (hx : f st' = some x) :
    (∃ st, (n, st) ∈ records s ∧ f st = some x) ∨
      ∃ w, statusWritten s a = some (n, w) ∧ f w = some x := by
  cases record_step hc hg h hm with
  | kept _ st mem same => exact .inl ⟨st, mem, hcore st' st same ▸ hx⟩
  | wrote r o w next running prog knows writes same =>
    exact .inr ⟨w, statusWritten_eq running prog, hcore st' w same ▸ hx⟩
  | fresh _ new =>
    rw [new, hfresh] at hx
    cases hx

theorem apart_step (hc : Contracted cfg s) (hs : Apart f s) (hg : StatusCurrent s a)
    (hnew : Fresh f s a) (h : step cfg s a = some s') : Apart f s' := by
  rintro ⟨n, st⟩ hp ⟨m, st'⟩ hq hne x hx hx'
  rcases name_step hcore hfresh hc hg h hp hx with ⟨p, hpold, hpx⟩ | ⟨w, hw, hwx⟩
  · rcases name_step hcore hfresh hc hg h hq hx' with ⟨q, hqold, hqx⟩ | ⟨w, hw, hwx⟩
    · exact hs _ hpold _ hqold hne x hpx hqx
    · exact hnew _ hw x hwx _ hpold hne hpx
  · rcases name_step hcore hfresh hc hg h hq hx' with ⟨q, hqold, hqx⟩ | ⟨w', hw', -⟩
    · exact hnew _ hw x hwx _ hqold (Ne.symm hne) hqx
    · have hsame : n = m := congrArg Prod.fst (Option.some.inj (hw.symm.trans hw'))
      exact hne hsame

end Apart

end System

/-- The name of the snapshot that the transfer has been recorded with. -/
def snapNameOf (st : ZFSEvacuationStatus) : Option String := st.transfer.map (·.snapName)

def handleOf (st : ZFSEvacuationStatus) : Option String := st.target.map (·.newVolumeHandle)

theorem snapNameOf_congr {st st' : ZFSEvacuationStatus} (h : st.core = st'.core) :
    snapNameOf st = snapNameOf st' := by
  rw [snapNameOf, System.transfer_congr h, snapNameOf]

theorem handleOf_congr {st st' : ZFSEvacuationStatus} (h : st.core = st'.core) :
    handleOf st = handleOf st' := by
  rw [handleOf, target_congr h, handleOf]

/-! ## What a write does to a transfer -/

/-- What is on record about the snapshot of a transfer. -/
def TransferStatus.mark (t : TransferStatus) : Nat × String × Bool :=
  (t.attempt, t.snapName, t.targetSnapDeleteIssued)

/-- A write keeps the transfer and the target, records one of them, or records that the deletion
of the snapshot has been issued. -/
inductive TransferMove (cfg : Config) (tr : Trace) (st w : ZFSEvacuationStatus) : Prop
  | kept (target : w.target = st.target)
      (transfer : w.transfer.map TransferStatus.mark = st.transfer.map TransferStatus.mark)
  | selected (phase : st.phase = .targetSelecting) (transfer : w.transfer = st.transfer)
      (entered : w.phase = .transferring)
  | attempted (t : TransferStatus) (target : w.target = st.target) (placed : st.target.isSome = true)
      (transfer : w.transfer = some t) (unissued : t.targetSnapDeleteIssued = false)
      (entered : w.phase = .transferring)
  | issued (phase : st.phase = .cleaningUp) (wrote : written tr = none)
      (seen : ∀ t, st.transfer = some t → SnapDeleteSeen cfg tr t)
      (eq : w = { st with
        transfer := st.transfer.map fun t => { t with targetSnapDeleteIssued := true } })

theorem Writes.transferMove {cfg : Config} {view : Obj .evacuation} {tr : Trace}
    {st w : ZFSEvacuationStatus} (h : Writes cfg view tr st w) : TransferMove cfg tr st w := by
  cases h with
  | selected _ _ _ _ _ hp _ _ _ => exact .selected hp rfl rfl
  | attempted _ _ _ _ _ hp _ ht _ _ _ => exact .attempted _ rfl ht rfl rfl hp
  | snapDeleteIssued hp hw hseen => exact .issued hp hw hseen rfl
  | attemptFailing _ _ _ | exhausted _ _ _ =>
    refine .kept rfl ?_
    rw [Option.map_map]
    rfl
  | copied t _ _ _ _ _ ht _ _ _ _ | progressed t _ _ ht =>
    refine .kept rfl ?_
    rw [ht]
    rfl
  | _ => exact .kept rfl rfl

/-- The deletion of the snapshot is on record. -/
def DeleteIssued (st : ZFSEvacuationStatus) : Prop :=
  ∃ t, st.transfer = some t ∧ t.targetSnapDeleteIssued = true

/-- The shape of a status with what it has on record about its transfer. -/
structure RecordShape (st : ZFSEvacuationStatus) : Prop extends Tracked st where
  targeted : st.transfer.isSome = true → st.target.isSome = true
  issued : DeleteIssued st → st.phase = .cleaningUp ∨ st.phase = .completed

theorem recordShape_default : RecordShape {} where
  toTracked := tracked_default
  targeted h := by cases h
  issued := by
    rintro ⟨t, ht, -⟩
    cases ht

theorem recordShape_congr {st st' : ZFSEvacuationStatus} (h : st.core = st'.core)
    (hst : RecordShape st') : RecordShape st where
  toTracked := (tracked_congr h).mpr hst.toTracked
  targeted := by
    rw [System.transfer_congr h, target_congr h]
    exact hst.targeted
  issued := by
    rw [DeleteIssued, System.transfer_congr h, System.phase_congr h]
    exact hst.issued

/-- Behind the swap, the only way on is the end. -/
theorem phase_of_cleaningUp {p : Phase} (h : Relation.ReflTransGen Phase.Next .cleaningUp p) :
    p = .cleaningUp ∨ p = .completed := by
  induction h with
  | refl => exact .inl rfl
  | @tail _ c _ hnext ih =>
    cases hnext with
    | forward _ _ i hp hq =>
      rcases ih with rfl | rfl
      · obtain rfl := Option.some.inj hp
        cases c <;> first | exact .inr rfl | cases hq
      · obtain rfl := Option.some.inj hp
        cases c <;> cases hq
    | aborting _ _ hc => rcases ih with rfl | rfl <;> cases hc
    | failed _ _ hc => rcases ih with rfl | rfl <;> cases hc
    | gaveUp => rcases ih with hp | hp <;> cases hp

theorem phase_of_ended {p q : Phase} (h : Relation.ReflTransGen Phase.Next p q)
    (hp : p = .cleaningUp ∨ p = .completed) : q = .cleaningUp ∨ q = .completed := by
  rcases hp with rfl | rfl
  · exact phase_of_cleaningUp h
  · have hnext : Phase.Next .cleaningUp .completed := .forward _ _ 10 rfl rfl
    exact phase_of_cleaningUp ((Relation.ReflTransGen.single hnext).trans h)

theorem issued_of_mark {st w : ZFSEvacuationStatus}
    (h : w.transfer.map TransferStatus.mark = st.transfer.map TransferStatus.mark)
    (hw : DeleteIssued w) : DeleteIssued st := by
  obtain ⟨t, ht, hissued⟩ := hw
  rw [ht, Option.map_some, eq_comm, Option.map_eq_some_iff] at h
  obtain ⟨t', ht', hmark⟩ := h
  exact ⟨t', ht', (congrArg (·.2.2) hmark).trans hissued⟩

/-- Before the target is selected there is no transfer. -/
theorem RecordShape.unstartedTransfer {st : ZFSEvacuationStatus} (hst : RecordShape st)
    (hp : st.phase = .targetSelecting) : st.transfer = none := by
  rw [← Option.not_isSome_iff_eq_none]
  intro hsome
  have htarget := hst.targeted hsome
  rw [hst.unplaced (by rw [hp]; rfl)] at htarget
  cases htarget

theorem RecordShape.write {cfg : Config} {view : Obj .evacuation} {tr : Trace}
    {st w : ZFSEvacuationStatus} (hst : RecordShape st) (hk : Knows view tr st)
    (hw : Writes cfg view tr st w) : RecordShape w := by
  have hrecording := hw.recording hk hst.committed
  have hlater := hrecording.later hst.toTracked
  have htracked := hrecording.tracked hst.toTracked
  cases hw.transferMove with
  | kept htarget htransfer =>
    refine ⟨htracked, ?_, fun hissued => ?_⟩
    · have hsome := congrArg Option.isSome htransfer
      rw [Option.isSome_map, Option.isSome_map] at hsome
      rw [htarget, hsome]
      exact hst.targeted
    · exact phase_of_ended hlater.phase (hst.issued (issued_of_mark htransfer hissued))
  | selected hphase htransfer _ =>
    have hnone := hst.unstartedTransfer hphase
    refine ⟨htracked, ?_, ?_⟩
    · rw [htransfer, hnone]
      intro hsome
      cases hsome
    · rintro ⟨t, ht, -⟩
      rw [htransfer, hnone] at ht
      cases ht
  | attempted t htarget hplaced htransfer hunissued _ =>
    refine ⟨htracked, fun _ => htarget ▸ hplaced, ?_⟩
    rintro ⟨t', ht', hissued⟩
    rw [htransfer] at ht'
    obtain rfl := Option.some.inj ht'
    rw [hunissued] at hissued
    cases hissued
  | issued hphase _ _ heq =>
    subst heq
    refine ⟨htracked, fun hsome => hst.targeted ?_, fun _ => .inl hphase⟩
    rwa [Option.isSome_map] at hsome

/-! ## The stand-in of a transfer's snapshot -/

/-- A ZFSSnapshot that stands for the copy of the transfer snapshot on this target, with no
finalizer but the agent's. -/
structure StandIn (target : TargetInfo) (cr : Obj .zfsSnapshot) : Prop where
  label : cr.metadata.labels.get zfsVolLabel = some target.newVolumeHandle
  finalizers : cr.metadata.finalizers = [] ∨ cr.metadata.finalizers = [zfsFinalizer]
  held : cr.deleting = true → zfsFinalizer ∈ cr.metadata.finalizers

/-- What is not gone and being deleted still has a finalizer. -/
theorem held_of_stays {cr : Obj .zfsSnapshot} (hstays : cr.gone = false)
    (hfin : cr.metadata.finalizers = [] ∨ cr.metadata.finalizers = [zfsFinalizer])
    (hdel : cr.deleting = true) : zfsFinalizer ∈ cr.metadata.finalizers := by
  rcases hfin with hnil | hone
  · simp [Obj.gone, hdel, hnil] at hstays
  · simp [hone]

namespace System
variable {cfg : Config} {s s' : System} {a : SysAction} {n : String}

/-- Under the name of a transfer, nobody else creates a ZFSSnapshot, changes its labels or gives
it a finalizer that is not the agent's. -/
def KeepsSnaps (cfg : Config) (s : System) : SysAction → Prop
  | .env (.create .zfsSnapshot o) =>
    ∀ q ∈ records s, ∀ t, q.2.transfer = some t → o.key ≠ t.snapKey cfg
  | .env (.update .zfsSnapshot o) =>
    ∀ q ∈ records s, ∀ t, q.2.transfer = some t → o.key = t.snapKey cfg →
      ∀ cur, s.world.get .zfsSnapshot o.key = some cur →
        o.metadata.labels = cur.metadata.labels ∧
          (o.metadata.finalizers = [] ∨ o.metadata.finalizers = [zfsFinalizer])
  | _ => True

/-- An attempt is recorded with a snapshot name under which no ZFSSnapshot is stored. -/
def NameUnused (cfg : Config) (s : System) (a : SysAction) : Prop :=
  ∀ x, statusWritten s a = some x → ∀ t, x.2.transfer = some t →
    (∀ q ∈ records s, q.1 = x.1 → snapNameOf q.2 ≠ some t.snapName) →
      s.world.get .zfsSnapshot (t.snapKey cfg) = none

/-- Steps in which the names of the evacuations stay apart. -/
structure NamesApart (cfg : Config) (s : System) (a : SysAction) : Prop where
  status : StatusCurrent s a
  handles : Fresh handleOf s a
  snapNames : Fresh snapNameOf s a
  unused : NameUnused cfg s a
  snaps : KeepsSnaps cfg s a

/-- What every state of such a run keeps. -/
structure NamesSound (cfg : Config) (s : System) : Prop where
  contracted : Contracted cfg s
  aware : AllAware s
  shape : ∀ n st, (n, st) ∈ records s → RecordShape st
  handles : Apart handleOf s
  snapNames : Apart snapNameOf s
  standIn : ∀ n st t target, (n, st) ∈ records s → st.transfer = some t →
    st.target = some target → ∀ cr, s.world.get .zfsSnapshot (t.snapKey cfg) = some cr →
      StandIn target cr
  seen : ∀ n r t target cr, s.running.get n = some r → r.status.transfer = some t →
    r.status.target = some target →
      r.trace.head? = some (sawEvent .zfsSnapshot (t.snapKey cfg) (some cr)) → StandIn target cr

theorem snapName_of_key {t t' : TransferStatus} (h : t.snapKey cfg = t'.snapKey cfg) :
    t.snapName = t'.snapName := congrArg Key.name h

/-- A reconcile that works on the ZFSSnapshot of a record is the one of its evacuation, and
works on the same target. -/
theorem NamesSound.owner (hx : NamesSound cfg s) {m : String} {r : Running}
    {st : ZFSEvacuationStatus} {t t₁ : TransferStatus} (hm : (n, st) ∈ records s)
    (ht : st.transfer = some t) (hr : s.running.get m = some r)
    (hk : Knows r.view r.trace r.status) (ht₁ : r.status.transfer = some t₁)
    (hkey : t₁.snapKey cfg = t.snapKey cfg) : m = n ∧ st.core = r.status.core := by
  have hname : m = n := by
    by_contra hne
    refine hx.snapNames _ (mem_records_running hr) _ hm hne t.snapName ?_ ?_
    · rw [snapNameOf, ht₁, Option.map_some, snapName_of_key hkey]
    · rw [snapNameOf, ht, Option.map_some]
  subst hname
  exact ⟨rfl, hx.aware.agree hr hk hm⟩

/-- What is stored under the name of a record stays its stand-in. -/
theorem standIn_step (hx : NamesSound cfg s) (hg : NamesApart cfg s a)
    (h : step cfg s a = some s') {st : ZFSEvacuationStatus} {t : TransferStatus}
    {target : TargetInfo} (hm : (n, st) ∈ records s) (ht : st.transfer = some t)
    (htarget : st.target = some target) {cr : Obj .zfsSnapshot}
    (hcr : s'.world.get .zfsSnapshot (t.snapKey cfg) = some cr) : StandIn target cr := by
  have hold : ∀ x : Obj .zfsSnapshot, s.world.get .zfsSnapshot (t.snapKey cfg) = some x →
      StandIn target x := hx.standIn n st t target hm ht htarget
  have hmarked : ∀ x : Obj .zfsSnapshot, s.world.get .zfsSnapshot (t.snapKey cfg) = some x →
      (x.marked (s.world.now / 10 ^ 9)).gone = false →
      StandIn target ((x.marked (s.world.now / 10 ^ 9)).stamped s.world.revision) := by
    intro x hget hstays
    have hstand := hold x hget
    exact ⟨hstand.label, hstand.finalizers, fun hdel => held_of_stays hstays hstand.finalizers hdel⟩
  cases obj_step hx.contracted h hcr with
  | same _ hstored => exact hold cr hstored
  | env e o hedit hkey heq hstays =>
    subst heq
    cases hedit with
    | create o hnone => exact absurd hkey (hg.snaps _ hm t ht)
    | update o cur hcur =>
      have hkey' : o.key = t.snapKey cfg := hkey
      obtain ⟨hlabels, hfin⟩ := hg.snaps _ hm t ht hkey' cur hcur
      rw [hkey'] at hcur
      refine ⟨?_, hfin, fun hdel => held_of_stays hstays hfin hdel⟩
      exact (congrArg (StrMap.get · zfsVolLabel) hlabels).trans (hold cur hcur).label
    | delete key x hget _ =>
      have hkey' : key = t.snapKey cfg := (World.get_key hget).symm.trans hkey
      subst hkey'
      exact hmarked x hget hstays
  | call m out r c next o hr hprog hallowed hwritten hkey heq hstays =>
    subst heq
    cases hwritten with
    | create o hnone =>
      obtain ⟨st₁, hk, target₁, t₁, info, -, htarget₁, ht₁, rfl, -⟩ := hallowed
      obtain rfl : r.status = st₁ := hk.eq
      obtain ⟨-, hcore⟩ := hx.owner hm ht hr hk ht₁ hkey
      have hsame : target₁ = target := by
        rw [target_congr hcore, htarget₁] at htarget
        exact Option.some.inj htarget
      subst hsame
      refine ⟨?_, .inl rfl, fun hdel => by cases hdel⟩
      simp [targetSnapshotCr, Obj.stamped, Obj.born, StrMap.get, List.lookup_cons, nodeNameLabel,
        zfsVolLabel]
    | replace o cur _ _ =>
      obtain ⟨_, -, hfalse⟩ := hallowed
      exact hfalse.elim
    | delete key x hget _ =>
      have hkey' : key = t.snapKey cfg := (World.get_key hget).symm.trans hkey
      subst hkey'
      exact hmarked x hget hstays
    | patch key p x hget =>
      have hkey' : key = t.snapKey cfg := by
        rw [Patch.key_apply] at hkey
        exact (World.get_key hget).symm.trans hkey
      subst hkey'
      cases p with
      | finalizers fs =>
        obtain ⟨st₁, hk, ⟨x₁, hseen, hfs⟩, t₁, target₁, -, ht₁, htarget₁, hkey₁, -, -⟩ := hallowed
        obtain rfl : r.status = st₁ := hk.eq
        have hfin : fs = [] := by
          rw [hkey₁] at hseen
          rcases (hx.seen m r t₁ target₁ x₁ hr ht₁ htarget₁ hseen).finalizers with hnil | hone
          · rw [hfs, hnil]
            rfl
          · rw [hfs, hone]
            simp [stripZfs]
        refine ⟨(hold x hget).label, .inl hfin, fun hdel => ?_⟩
        exact held_of_stays hstays (.inl hfin) hdel
      | label _ _ =>
        obtain ⟨_, -, hfalse⟩ := hallowed
        exact hfalse.elim
      | annotate _ _ =>
        obtain ⟨_, -, hfalse⟩ := hallowed
        exact hfalse.elim

end System

/-- A transfer that is on record after a write was on record before under the same name, or is
a new attempt. The target is the old one. -/
theorem TransferMove.transfer_some {cfg : Config} {tr : Trace} {st w : ZFSEvacuationStatus}
    (h : TransferMove cfg tr st w) (hst : RecordShape st) {t : TransferStatus}
    (ht : w.transfer = some t) : w.target = st.target ∧
      ((∃ t₀, st.transfer = some t₀ ∧ t₀.attempt = t.attempt ∧ t₀.snapName = t.snapName ∧
          (t.targetSnapDeleteIssued = t₀.targetSnapDeleteIssued ∨
            st.phase = .cleaningUp ∧ written tr = none ∧ SnapDeleteSeen cfg tr t₀)) ∨
        w.phase = .transferring) := by
  cases h with
  | kept htarget htransfer =>
    rw [ht, Option.map_some, eq_comm, Option.map_eq_some_iff] at htransfer
    obtain ⟨t₀, ht₀, hmark⟩ := htransfer
    exact ⟨htarget, .inl ⟨t₀, ht₀, congrArg (·.1) hmark, congrArg (·.2.1) hmark,
      .inl (congrArg (·.2.2) hmark).symm⟩⟩
  | selected hphase htransfer _ =>
    rw [htransfer, hst.unstartedTransfer hphase] at ht
    cases ht
  | attempted _ htarget _ _ _ hentered => exact ⟨htarget, .inr hentered⟩
  | issued hphase hwrote hseen heq =>
    subst heq
    obtain ⟨t₀, ht₀, rfl⟩ := Option.map_eq_some_iff.mp ht
    exact ⟨rfl, .inl ⟨t₀, ht₀, rfl, rfl, .inr ⟨hphase, hwrote, hseen t₀ ht₀⟩⟩⟩

namespace System
variable {cfg : Config} {s s' : System} {a : SysAction} {n : String}

/-- A write of a status touches no other object. -/
theorem get_of_statusWrite {o : Outcome} (h : step cfg s (.call n o) = some s') {r : Running} {key : Key}
    {w : ZFSEvacuationStatus} {next : Except ApiError Unit → M Action}
    (hr : s.running.get n = some r)
    (hprog : r.prog = .call (.patch .evacuation key (.status w)) next) {k : Kind} {key' : Key}
    (hk : k ≠ .evacuation) : s'.world.get k key' = s.world.get k key' := by
  cases step_cases h with
  | call name o r₁ c next₁ hr₁ hprog₁ _ =>
    obtain rfl := Option.some.inj (hr.symm.trans hr₁)
    rw [hprog] at hprog₁
    cases hprog₁
    rw [world_proceed]
    rcases World.after_cases s.world o (.patch .evacuation key (.status w)) with ⟨heq, -⟩ | heq
    · exact congrArg (World.get · k key') heq
    · refine (congrArg (World.get · k key') heq).trans ?_
      exact World.get_patch_other s.world fun hsame => absurd hsame hk

theorem standIn_write {o : Outcome} (hx : NamesSound cfg s) (hg : NamesApart cfg s (.call n o))
    (h : step cfg s (.call n o) = some s') {r : Running} {w : ZFSEvacuationStatus}
    {next : Except ApiError Unit → M Action} (hr : s.running.get n = some r)
    (hprog : r.prog = .call (.patch .evacuation (evacKey r.view) (.status w)) next)
    (hk : Knows r.view r.trace r.status) (hw : Writes cfg r.view r.trace r.status w)
    {t : TransferStatus} {target : TargetInfo} (ht : w.transfer = some t)
    (htarget : w.target = some target) {cr : Obj .zfsSnapshot}
    (hcr : s'.world.get .zfsSnapshot (t.snapKey cfg) = some cr) : StandIn target cr := by
  have hm := mem_records_running hr
  obtain ⟨hsame, -⟩ := hw.transferMove.transfer_some (hx.shape n _ hm) ht
  rw [hsame] at htarget
  by_cases hnamed : snapNameOf r.status = some t.snapName
  · obtain ⟨t₀, ht₀, hname⟩ := Option.map_eq_some_iff.mp hnamed
    have hkey : t₀.snapKey cfg = t.snapKey cfg := by
      rw [TransferStatus.snapKey, hname, TransferStatus.snapKey]
    exact standIn_step hx hg h hm ht₀ htarget (hkey ▸ hcr)
  · have hnone : s.world.get .zfsSnapshot (t.snapKey cfg) = none := by
      refine hg.unused _ (statusWritten_eq hr hprog) t ht ?_
      rintro ⟨m, st⟩ hq hname heq
      subst hname
      rw [snapNameOf_congr (hx.aware.agree hr hk hq)] at heq
      exact hnamed heq
    rw [get_of_statusWrite h hr hprog (by decide), hnone] at hcr
    cases hcr

theorem namesSound_init : NamesSound cfg init := by
  constructor
  · intro n r hr
    cases hr
  · intro n r e hr
    cases hr
  · intro n st hm
    cases hm
  · intro p hp
    cases hp
  · intro p hp
    cases hp
  · intro n st t target hm
    cases hm
  · intro n r t target cr hr
    cases hr

theorem seenCr_step (hx : NamesSound cfg s) (h : step cfg s a = some s') {r' : Running}
    {t : TransferStatus} {target : TargetInfo} {cr : Obj .zfsSnapshot}
    (hr' : s'.running.get n = some r') (ht : r'.status.transfer = some t)
    (htarget : r'.status.target = some target)
    (hhead : r'.trace.head? = some (sawEvent .zfsSnapshot (t.snapKey cfg) (some cr))) :
    StandIn target cr := by
  cases running_step h hr' with
  | kept _ hr _ => exact hx.seen n r' t target cr hr ht htarget hhead
  | started version _ _ _ heq =>
    rw [heq] at hhead
    cases hhead
  | called o r c next hr hprog _ heq =>
    subst heq
    have hevent := Option.some.inj hhead
    obtain rfl : c = .get .zfsSnapshot (t.snapKey cfg) := congrArg Sigma.fst hevent
    have hstored := answer_get hevent
    exact hx.standIn n _ t target (mem_records_running hr) ht htarget cr hstored

/-- The records keep their shape. -/
theorem recordShape_step (hc : Contracted cfg s) (hg : StatusCurrent s a)
    (hx : ∀ n st, (n, st) ∈ records s → RecordShape st) (h : step cfg s a = some s')
    {st : ZFSEvacuationStatus} (hm : (n, st) ∈ records s') : RecordShape st := by
  cases record_step hc hg h hm with
  | kept _ st₀ mem same => exact recordShape_congr same (hx n st₀ mem)
  | wrote r o w next running prog knows writes same =>
    exact recordShape_congr same ((hx n _ (mem_records_running running)).write knows writes)
  | fresh _ new => exact new ▸ recordShape_default

theorem NamesSound.step (hx : NamesSound cfg s) (hg : NamesApart cfg s a)
    (h : step cfg s a = some s') : NamesSound cfg s' where
  contracted := contracted_step hx.contracted h
  aware := allAware_step hx.contracted hx.aware hg.status.1 hg.status.2 h
  shape _ _ hm := recordShape_step hx.contracted hg.status hx.shape h hm
  handles :=
    apart_step (fun _ _ hcore => handleOf_congr hcore) rfl hx.contracted hx.handles hg.status
      hg.handles h
  snapNames :=
    apart_step (fun _ _ hcore => snapNameOf_congr hcore) rfl hx.contracted hx.snapNames hg.status
      hg.snapNames h
  standIn n st t target hm ht htarget cr hcr := by
    cases record_step hx.contracted hg.status h hm with
    | kept _ st₀ mem same =>
      rw [transfer_congr same] at ht
      rw [target_congr same] at htarget
      exact standIn_step hx hg h mem ht htarget hcr
    | wrote r o w next running prog knows writes same =>
      rw [transfer_congr same] at ht
      rw [target_congr same] at htarget
      exact standIn_write hx hg h running prog knows writes ht htarget hcr
    | fresh _ new =>
      rw [new] at ht
      cases ht
  seen _ _ _ _ _ hr ht htarget hhead := seenCr_step hx h hr ht htarget hhead

end System

end ZfsEvacuation
