import ZfsEvacuation.SourceLast
import ZfsEvacuation.TransferNames

/-!
# The copy that is adopted

The resources of an attempt are named after the evacuation and the number of the attempt, and
creating one that exists counts as done. So what is found under these names is of the attempt
only if nothing was left there before.
-/
namespace ZfsEvacuation
open ClientProgram Program GuardedRun

/-! ## What belongs to a transfer -/

def backupSpec (o : Obj .zfsBackup) : ZFSBackupSpec :=
  let bkp : ZFSBackup := o.data
  bkp.spec

def restoreSpec (o : Obj .zfsRestore) : ZFSRestoreSpec :=
  let rst : ZFSRestore := o.data
  rst.spec

/-- The backup sends the snapshot of this transfer. -/
structure Sends (source : SourceInfo) (t : TransferStatus) (bkp : Obj .zfsBackup) : Prop where
  volume : (backupSpec bkp).volumeName = source.volumeHandle
  snap : (backupSpec bkp).snapName = some t.snapName

/-- The restore receives into the volume of this target. -/
def Receives (target : TargetInfo) (rst : Obj .zfsRestore) : Prop :=
  (restoreSpec rst).volumeName = target.newVolumeHandle

/-- If the object has a name of the recorded attempt, it is of that attempt. -/
def OwnCopy (cfg : Config) (n : String) (st : ZFSEvacuationStatus) : (k : Kind) → Obj k → Prop
  | .zfsBackup, bkp => ∀ source t, st.source = some source → st.transfer = some t →
    bkp.key = bkpKey cfg n t.attempt → Sends source t bkp
  | .zfsRestore, rst => ∀ target t, st.target = some target → st.transfer = some t →
    rst.key = rstKey cfg n t.attempt → Receives target rst
  | _, _ => True

/-- The same order to the agents, whatever they have reported. -/
def SameOrder : (k : Kind) → Obj k → Obj k → Prop
  | .zfsBackup, o, o' => backupSpec o' = backupSpec o
  | .zfsRestore, o, o' => restoreSpec o' = restoreSpec o
  | _, _, _ => True

theorem sameOrder_of_data {k : Kind} {o o' : Obj k} (h : o'.data = o.data) : SameOrder k o o' := by
  cases k with
  | zfsBackup => exact congrArg ZFSBackup.spec h
  | zfsRestore => exact congrArg ZFSRestore.spec h
  | _ => trivial

theorem OwnCopy.same {cfg : Config} {n : String} {st : ZFSEvacuationStatus} {k : Kind} {o o' : Obj k}
    (h : OwnCopy cfg n st k o) (hkey : o'.key = o.key) (hsame : SameOrder k o o') :
    OwnCopy cfg n st k o' := by
  cases k with
  | zfsBackup =>
    intro source t hs ht hname
    have hspec : backupSpec o' = backupSpec o := hsame
    have hsends := h source t hs ht (hkey.symm.trans hname)
    exact ⟨hspec ▸ hsends.volume, hspec ▸ hsends.snap⟩
  | zfsRestore =>
    intro target t htarget ht hname
    have hspec : restoreSpec o' = restoreSpec o := hsame
    have hreceives := h target t htarget ht (hkey.symm.trans hname)
    rwa [Receives, hspec]
  | _ => trivial

/-- Patches of transfer resources leave the order alone. -/
theorem sameOrder_patch {k : Kind} (p : Patch k) (o : Obj k) : SameOrder k o (p.apply o) := by
  cases k with
  | zfsBackup => cases p <;> rfl
  | zfsRestore => cases p <;> rfl
  | _ => trivial

theorem OwnCopy.congr {cfg : Config} {n : String} {st st' : ZFSEvacuationStatus} {k : Kind}
    {o : Obj k} (h : OwnCopy cfg n st k o) (hcore : st'.core = st.core) :
    OwnCopy cfg n st' k o := by
  have hsource := congrArg ZFSEvacuationStatus.source hcore
  have hs : st'.source = st.source := hsource
  have htarget := target_congr hcore
  have ht := System.transfer_congr hcore
  cases k with
  | zfsBackup =>
    intro source t hs' ht' hname
    exact h source t (hs ▸ hs') (ht ▸ ht') hname
  | zfsRestore =>
    intro target t htarget' ht' hname
    exact h target t (htarget ▸ htarget') (ht ▸ ht') hname
  | _ => trivial

/-- Without an attempt on record there is nothing to belong to. -/
theorem ownCopy_of_unstarted {cfg : Config} {n : String} {st : ZFSEvacuationStatus} {k : Kind}
    {o : Obj k} (h : st.transfer = none) : OwnCopy cfg n st k o := by
  cases k with
  | zfsBackup | zfsRestore =>
    intro x t hx ht
    rw [h] at ht
    cases ht
  | _ => trivial

/-- Where a transfer is on record, its source and its target are, and stay. -/
theorem RecordShape.ends {cfg : Config} {view : Obj .evacuation} {tr : Trace}
    {st w : ZFSEvacuationStatus} (hst : RecordShape st) (hk : Knows view tr st)
    (hw : Writes cfg view tr st w) (hsome : st.transfer.isSome = true) :
    w.source = st.source ∧ w.target = st.target := by
  have hlater := (hw.recording hk hst.committed).later hst.toTracked
  have htarget := hst.targeted hsome
  have hsource := hst.placed htarget
  obtain ⟨target, ht⟩ := Option.isSome_iff_exists.mp htarget
  obtain ⟨source, hs⟩ := Option.isSome_iff_exists.mp hsource
  exact ⟨(hlater.source source hs).trans hs.symm, (hlater.target target ht).trans ht.symm⟩

theorem OwnCopy.write {cfg : Config} {n : String} {view : Obj .evacuation} {tr : Trace}
    {st w : ZFSEvacuationStatus} {k : Kind} {o : Obj k} (h : OwnCopy cfg n st k o)
    (hst : RecordShape st) (hk : Knows view tr st) (hw : Writes cfg view tr st w)
    (hsame : SameRecord st.transfer w.transfer) : OwnCopy cfg n w k o := by
  cases ht : st.transfer with
  | none =>
    refine ownCopy_of_unstarted ?_
    rw [ht] at hsame
    cases hw' : w.transfer with
    | none => rfl
    | some t =>
      rw [hw'] at hsame
      exact hsame.elim
  | some t =>
    obtain ⟨hs, htarget⟩ := hst.ends hk hw (by rw [ht]; rfl)
    rw [ht] at hsame
    cases hw' : w.transfer with
    | none =>
      rw [hw'] at hsame
      exact hsame.elim
    | some t' =>
      rw [hw'] at hsame
      obtain ⟨hattempt, hsnap, -, -⟩ := hsame
      cases k with
      | zfsBackup =>
        intro source x hsource hx hname
        obtain rfl : t' = x := Option.some.inj (hw'.symm.trans hx)
        have hsends := h source t (hs ▸ hsource) ht (hattempt ▸ hname)
        exact ⟨hsends.volume, hsnap ▸ hsends.snap⟩
      | zfsRestore =>
        intro target x htarget' hx hname
        obtain rfl : t' = x := Option.some.inj (hw'.symm.trans hx)
        exact h target t (htarget ▸ htarget') ht (hattempt ▸ hname)
      | _ => trivial

namespace System
variable {cfg : Config} {s s' : System} {a : SysAction} {n : String} {as : List SysAction}

/-! ## Along a run -/

/-- The key is a name of the attempt on record. -/
def NamesAttempt (cfg : Config) (n : String) (st : ZFSEvacuationStatus) (k : Kind) (key : Key) :
    Prop :=
  ∃ t, st.transfer = some t ∧
    (k = .zfsBackup ∧ key = bkpKey cfg n t.attempt ∨ k = .zfsRestore ∧ key = rstKey cfg n t.attempt)

/-- Nobody else creates an object under a name of an attempt on record, or changes what a
transfer resource orders. The agents report in its status. -/
def KeepsTransferCrs (cfg : Config) (s : System) : SysAction → Prop
  | .env (.create k o) => ∀ q ∈ records s, ¬ NamesAttempt cfg q.1 q.2 k o.key
  | .env (.update k o) => ∀ cur, s.world.get k o.key = some cur → SameOrder k cur o
  | _ => True

/-- Nobody else interferes with evacuations and their transfers, and reconciles start from what
is stored. -/
def Unmeddled (cfg : Config) (s : System) (a : SysAction) : Prop :=
  Current s a ∧ KeepsTransferCrs cfg s a

/-- An attempt is recorded while nothing is stored under its names. -/
def AttemptUnused (cfg : Config) (s : System) (a : SysAction) : Prop :=
  ∀ x, statusWritten s a = some x → ∀ t, x.2.transfer = some t →
    (∀ q ∈ records s, q.1 = x.1 → q.2.transfer.map (·.attempt) ≠ some t.attempt) →
      s.world.get .zfsBackup (bkpKey cfg x.1 t.attempt) = none ∧
        s.world.get .zfsRestore (rstKey cfg x.1 t.attempt) = none

/-- The steps of the runs in which every attempt starts with unused names. -/
def StartsUnused (cfg : Config) (s : System) (a : SysAction) : Prop :=
  Unmeddled cfg s a ∧ AttemptUnused cfg s a

/-- What every state of such a run keeps. -/
structure CopiesOwn (cfg : Config) (s : System) : Prop where
  contracted : Contracted cfg s
  aware : AllAware s
  shape : ∀ n st, (n, st) ∈ records s → RecordShape st
  stored : ∀ n st k key, ∀ o : Obj k, (n, st) ∈ records s → s.world.get k key = some o →
    OwnCopy cfg n st k o
  seen : ∀ n r k key, ∀ o : Obj k, s.running.get n = some r → written r.trace = none →
    sawEvent k key (some o) ∈ r.trace → o.key = key ∧ OwnCopy cfg n r.status k o

theorem copiesOwn_init : CopiesOwn cfg init := by
  constructor
  · intro n r hr
    cases hr
  · intro n r e hr
    cases hr
  · intro n st hm
    cases hm
  · intro n st k key o hm
    cases hm
  · intro n r k key o hr
    cases hr

/-- Somebody else's new object belongs to the attempts it is named after, as there are none. -/
theorem ownCopy_of_unnamed {st : ZFSEvacuationStatus} {k : Kind} {o : Obj k}
    (h : ¬ NamesAttempt cfg n st k o.key) : OwnCopy cfg n st k o := by
  cases k with
  | zfsBackup =>
    intro source t hs ht hname
    exact absurd ⟨t, ht, .inl ⟨rfl, hname⟩⟩ h
  | zfsRestore =>
    intro target t htarget ht hname
    exact absurd ⟨t, ht, .inr ⟨rfl, hname⟩⟩ h
  | _ => trivial

/-- What a reconcile creates belongs to the attempts it is named after. -/
theorem ownCopy_created (hx : CopiesOwn cfg s) {m : String} {r : Running} {k : Kind} {o : Obj k}
    (hr : s.running.get m = some r) (hallowed : Allowed cfg r.view r.trace (.create k o))
    {st : ZFSEvacuationStatus} (hm : (n, st) ∈ records s) : OwnCopy cfg n st k o := by
  have hname := name_of_running hr
  cases k with
  | zfsBackup =>
    obtain ⟨st₁, hk, source₁, t₁, port, -, hs₁, ht₁, rfl, -⟩ := hallowed
    obtain rfl : r.status = st₁ := hk.eq
    intro source t hs ht hkey
    have heq : TransferCr.backup.key cfg r.view.name t₁.attempt =
      TransferCr.backup.key cfg n t.attempt := hkey
    obtain ⟨hsame, -⟩ := TransferCr.key_inj heq
    obtain rfl : m = n := hname.symm.trans hsame
    have hcore := hx.aware.agree hr hk hm
    have hsource := congrArg ZFSEvacuationStatus.source hcore
    obtain rfl : source₁ = source := Option.some.inj (hs₁.symm.trans (hsource.symm.trans hs))
    obtain rfl : t₁ = t := Option.some.inj (ht₁.symm.trans ((transfer_congr hcore).symm.trans ht))
    exact ⟨rfl, rfl⟩
  | zfsRestore =>
    obtain ⟨st₁, hk, target₁, t₁, volSpec, port, -, htarget₁, ht₁, rfl, -⟩ := hallowed
    obtain rfl : r.status = st₁ := hk.eq
    intro target t htarget ht hkey
    have heq : TransferCr.restore.key cfg r.view.name t₁.attempt =
      TransferCr.restore.key cfg n t.attempt := hkey
    obtain ⟨hsame, -⟩ := TransferCr.key_inj heq
    obtain rfl : m = n := hname.symm.trans hsame
    have hcore := hx.aware.agree hr hk hm
    obtain rfl : target₁ = target :=
      Option.some.inj (htarget₁.symm.trans ((target_congr hcore).symm.trans htarget))
    rfl
  | _ => trivial

/-- Transfer resources are not replaced. -/
theorem ownCopy_replaced {st : ZFSEvacuationStatus} {r : Running} {k : Kind} {o : Obj k}
    (hallowed : Allowed cfg r.view r.trace (.replace k o)) : OwnCopy cfg n st k o := by
  cases k with
  | zfsBackup | zfsRestore =>
    obtain ⟨_, -, hfalse⟩ := hallowed
    exact hfalse.elim
  | _ => trivial

/-- What is stored under the names of an attempt on record stays of that attempt. -/
theorem ownCopy_step (hx : CopiesOwn cfg s) (hg : KeepsTransferCrs cfg s a)
    (h : step cfg s a = some s') {st : ZFSEvacuationStatus} {k : Kind} {key : Key} {o : Obj k}
    (hm : (n, st) ∈ records s) (ho : s'.world.get k key = some o) : OwnCopy cfg n st k o := by
  have hold : ∀ x : Obj k, ∀ key, s.world.get k key = some x → OwnCopy cfg n st k x :=
    fun x key hget => hx.stored n st k key x hm hget
  cases obj_step hx.contracted h ho with
  | same _ hstored => exact hold o key hstored
  | env e x hedit _ heq _ =>
    subst heq
    cases hedit with
    | create x hnone => exact (ownCopy_of_unnamed (hg _ hm)).same rfl (sameOrder_of_data rfl)
    | update x cur hcur =>
      have hedited := (hold cur _ hcur).same (World.get_key hcur).symm (hg cur hcur)
      exact hedited.same rfl (sameOrder_of_data rfl)
    | delete key x hget _ => exact (hold x key hget).same rfl (sameOrder_of_data rfl)
  | call m out r c next x hr hprog hallowed hwritten _ heq _ =>
    subst heq
    cases hwritten with
    | create x hnone =>
      exact (ownCopy_created hx hr hallowed hm).same rfl (sameOrder_of_data rfl)
    | replace x cur _ _ => exact (ownCopy_replaced hallowed).same rfl (sameOrder_of_data rfl)
    | delete key x hget _ => exact (hold x key hget).same rfl (sameOrder_of_data rfl)
    | patch key p x hget =>
      have hpatched := (hold x key hget).same (Patch.key_apply p x) (sameOrder_patch p x)
      exact hpatched.same rfl (sameOrder_of_data rfl)

/-- A write of a status gives the objects stored under its names to the attempt it records. -/
theorem ownCopy_write {o : Outcome} (hx : CopiesOwn cfg s) (hg : AttemptUnused cfg s (.call n o))
    (h : step cfg s (.call n o) = some s') {r : Running} {w : ZFSEvacuationStatus}
    {next : Except ApiError Unit → M Action} (hr : s.running.get n = some r)
    (hprog : r.prog = .call (.patch .evacuation (evacKey r.view) (.status w)) next)
    (hk : Knows r.view r.trace r.status) (hw : Writes cfg r.view r.trace r.status w)
    {k : Kind} {key : Key} {x : Obj k} (hget : s'.world.get k key = some x) :
    OwnCopy cfg n w k x := by
  have hm := mem_records_running hr
  have hother : ∀ (k : Kind) (key : Key), k ≠ .evacuation →
      s'.world.get k key = s.world.get k key :=
    fun k key hne => get_of_statusWrite h hr hprog hne
  rcases hw.transfer with hsame | ⟨-, t, ht, hturn⟩
  · cases k with
    | zfsBackup | zfsRestore =>
      rw [hother _ _ (by decide)] at hget
      exact (hx.stored n _ _ key x hm hget).write (hx.shape n _ hm) hk hw hsame
    | _ => trivial
  · have hnew : ∀ q ∈ records s, q.1 = n → q.2.transfer.map (·.attempt) ≠ some t.attempt := by
      rintro ⟨m, st⟩ hq hname hattempt
      subst hname
      have hcore := hx.aware.agree hr hk hq
      rw [transfer_congr hcore] at hattempt
      obtain ⟨t₀, ht₀, heq⟩ := Option.map_eq_some_iff.mp hattempt
      simp only [NextAttempt, ht₀] at hturn
      omega
    obtain ⟨hbkp, hrst⟩ := hg _ (statusWritten_eq hr hprog) t ht hnew
    cases k with
    | zfsBackup =>
      intro source t' _ ht' hname
      obtain rfl : t = t' := Option.some.inj (ht.symm.trans ht')
      rw [hother _ _ (by decide), ← World.get_key hget, hname, hbkp] at hget
      cases hget
    | zfsRestore =>
      intro target t' _ ht' hname
      obtain rfl : t = t' := Option.some.inj (ht.symm.trans ht')
      rw [hother _ _ (by decide), ← World.get_key hget, hname, hrst] at hget
      cases hget
    | _ => trivial

/-- A reconcile only sees what is stored. -/
theorem ownCopy_seen (hx : CopiesOwn cfg s) (h : step cfg s a = some s') {r' : Running}
    {k : Kind} {key : Key} {o : Obj k} (hr' : s'.running.get n = some r')
    (hwrote : written r'.trace = none) (hsaw : sawEvent k key (some o) ∈ r'.trace) :
    o.key = key ∧ OwnCopy cfg n r'.status k o := by
  cases running_step h hr' with
  | kept _ hr _ => exact hx.seen n r' k key o hr hwrote hsaw
  | started version _ _ _ heq =>
    rw [heq] at hsaw
    cases hsaw
  | called out r c next hr hprog _ heq =>
    subst heq
    obtain ⟨hc, hbefore⟩ : statusWrite c = none ∧ written r.trace = none := by
      rw [written, List.findSome?_cons] at hwrote
      split at hwrote
      · cases hwrote
      · rename_i hnone
        exact ⟨hnone, hwrote⟩
    have hstatus : Running.status { r with
        trace := ⟨c, s.world.answer out c⟩ :: r.trace
        prog := next (s.world.answer out c) } = r.status := by
      rw [Running.status, Running.status, hwrote, hbefore]
    rw [hstatus]
    rcases List.mem_cons.mp hsaw with hnow | hold
    · obtain rfl : Call.get k key = c := congrArg Sigma.fst hnow
      have hstored := answer_get hnow.symm
      exact ⟨World.get_key hstored, hx.stored n _ k key o (mem_records_running hr) hstored⟩
    · exact hx.seen n r k key o hr hbefore hold

theorem CopiesOwn.step (hx : CopiesOwn cfg s) (hg : StartsUnused cfg s a)
    (h : step cfg s a = some s') : CopiesOwn cfg s' := by
  obtain ⟨⟨hcur, hcrs⟩, hunused⟩ := hg
  have hstatus : StatusCurrent s a := ⟨hcur.1.statuses, hcur.2⟩
  constructor
  · exact contracted_step hx.contracted h
  · exact allAware_step hx.contracted hx.aware hstatus.1 hstatus.2 h
  · intro n st hm
    exact recordShape_step hx.contracted hstatus hx.shape h hm
  · intro n st k key o hm hget
    cases record_step hx.contracted hstatus h hm with
    | kept _ st₀ mem same => exact (ownCopy_step hx hcrs h mem hget).congr same
    | wrote r o w next running prog knows writes same =>
      exact (ownCopy_write hx hunused h running prog knows writes hget).congr same
    | fresh _ new => exact ownCopy_of_unstarted (by rw [new])
  · intro n r k key o hr hwrote hsaw
    exact ownCopy_seen hx h hr hwrote hsaw

theorem copiesOwn_run (h : Run (step cfg) (StartsUnused cfg) init as s) : CopiesOwn cfg s :=
  h.invariant copiesOwn_init fun _ _ _ hx hg hstep => hx.step hg hstep

/-! ## What the transfer is declared over with -/

/-- This trace has the backup and the restore of this attempt, both of them done. -/
structure SawOwnDone (cfg : Config) (n : String) (tr : Trace) (source : SourceInfo)
    (target : TargetInfo) (t : TransferStatus) : Prop where
  backup : ∃ bkp, sawEvent .zfsBackup (bkpKey cfg n t.attempt) (some bkp) ∈ tr ∧
    backupStatus (some bkp) = bkpStatusDone ∧ Sends source t bkp
  restore : ∃ rst, sawEvent .zfsRestore (rstKey cfg n t.attempt) (some rst) ∈ tr ∧
    restoreStatus (some rst) = bkpStatusDone ∧ Receives target rst

/-- A reconcile writes that the transfer is over, on the strength of this. -/
def Completes (cfg : Config) (n : String) (source : SourceInfo) (target : TargetInfo)
    (t : TransferStatus) (s : System) (a : SysAction) : Prop :=
  ∃ o r w, ∃ next : Except ApiError Unit → M Action, a = .call n o ∧
    s.running.get n = some r ∧ r.prog = .call (.patch .evacuation ⟨"", n⟩ (.status w)) next ∧
    r.status.phase = .transferring ∧ w.phase = .adopting ∧ r.status.source = some source ∧
    r.status.target = some target ∧ r.status.transfer = some t ∧
    SawOwnDone cfg n r.trace source target t

/-- An evacuation goes from Transferring to Adopting only on the strength of the resources of its
own attempt. -/
def MovesOnOwnCopy (cfg : Config) (s : System) : Prop :=
  ∀ n r key w, ∀ next : Except ApiError Unit → M Action, s.running.get n = some r →
    r.prog = .call (.patch .evacuation key (.status w)) next → r.status.phase = .transferring →
    w.phase = .adopting → ∃ source target t, r.status.source = some source ∧
      r.status.target = some target ∧ r.status.transfer = some t ∧
      SawOwnDone cfg n r.trace source target t

theorem some_of_done {bkp : Option (Obj .zfsBackup)} (h : backupStatus bkp = bkpStatusDone) :
    ∃ x, bkp = some x := by
  cases bkp with
  | none => exact absurd h (by decide)
  | some x => exact ⟨x, rfl⟩

theorem some_of_restored {rst : Option (Obj .zfsRestore)} (h : restoreStatus rst = bkpStatusDone) :
    ∃ x, rst = some x := by
  cases rst with
  | none => exact absurd h (by decide)
  | some x => exact ⟨x, rfl⟩

/-- What a reconcile has seen done at the end of a transfer is its own. -/
theorem CopiesOwn.sawOwnDone (hx : CopiesOwn cfg s) {r : Running} {t : TransferStatus}
    {bkp : Option (Obj .zfsBackup)} {rst : Option (Obj .zfsRestore)}
    (hr : s.running.get n = some r) (hwrote : written r.trace = none)
    (ht : r.status.transfer = some t)
    (hbkp : sawEvent .zfsBackup (bkpKey cfg r.view.name t.attempt) bkp ∈ r.trace)
    (hrst : sawEvent .zfsRestore (rstKey cfg r.view.name t.attempt) rst ∈ r.trace)
    (hdone : backupStatus bkp = bkpStatusDone) (hdone' : restoreStatus rst = bkpStatusDone) :
    ∃ source target, r.status.source = some source ∧ r.status.target = some target ∧
      SawOwnDone cfg n r.trace source target t := by
  have hshape := hx.shape n _ (mem_records_running hr)
  obtain ⟨target, htarget⟩ := Option.isSome_iff_exists.mp (hshape.targeted (by rw [ht]; rfl))
  obtain ⟨source, hs⟩ := Option.isSome_iff_exists.mp (hshape.placed (by rw [htarget]; rfl))
  obtain ⟨b, rfl⟩ := some_of_done hdone
  obtain ⟨x, rfl⟩ := some_of_restored hdone'
  rw [name_of_running hr] at hbkp hrst
  obtain ⟨hkey, hown⟩ := hx.seen n r _ _ b hr hwrote hbkp
  obtain ⟨hkey', hown'⟩ := hx.seen n r _ _ x hr hwrote hrst
  refine ⟨source, target, hs, htarget, ⟨b, hbkp, hdone, ?_⟩, ⟨x, hrst, hdone', ?_⟩⟩
  · exact hown source t hs ht hkey
  · exact hown' target t htarget ht hkey'

theorem CopiesOwn.moves (hx : CopiesOwn cfg s) : MovesOnOwnCopy cfg s := by
  intro n r key w next hr hprog hphase hnext
  obtain ⟨st, hk, -, hw⟩ := hx.contracted.allowed hr hprog
  obtain rfl : r.status = st := hk.eq
  cases hw with
  | copied t bytes bkp rst _ hwrote ht hbkp hrst hdone hdone' =>
    obtain ⟨source, target, hs, htarget, hsaw⟩ :=
      hx.sawOwnDone hr hwrote ht hbkp hrst hdone hdone'
    exact ⟨source, target, t, hs, htarget, ht, hsaw⟩
  | shown _ _ _ | attempted _ _ _ _ _ _ _ _ _ _ _ | attemptFailing _ _ _ | progressed _ _ _ _
  | snapDeleteIssued _ _ _ | settles _ _ | blocked _ _ =>
    have hcon : r.status.phase = .adopting := hnext
    rw [hphase] at hcon
    cases hcon
  | _ => cases hnext

/-! ## What the adopted volume has received -/

end System

/-- Behind the transfer, on the way to the end. -/
def Phase.copied : Phase → Bool
  | .adopting | .committing | .swapping | .cleaningUp | .completed => true
  | _ => false

namespace System
variable {cfg : Config} {s s' : System} {a : SysAction} {n : String} {as : List SysAction}

/-- The transfer from this source to this target was completed with the attempt's own copy. -/
def CopyMade (cfg : Config) (as : List SysAction) (n : String) (st : ZFSEvacuationStatus) : Prop :=
  ∃ source target t, st.source = some source ∧ st.target = some target ∧
    Happened (step cfg) init (Completes cfg n source target t) as

theorem CopyMade.congr {st st' : ZFSEvacuationStatus} (h : CopyMade cfg as n st)
    (hs : st'.source = st.source) (ht : st'.target = st.target) : CopyMade cfg as n st' := by
  rwa [CopyMade, hs, ht]

theorem CopyMade.later {st : ZFSEvacuationStatus} (h : CopyMade cfg as n st) (a : SysAction) :
    CopyMade cfg (as ++ [a]) n st := by
  obtain ⟨source, target, t, hs, htarget, hmade⟩ := h
  exact ⟨source, target, t, hs, htarget, hmade.append [a]⟩

/-- A status behind the transfer is written at its end, or after a status behind the transfer. -/
theorem copyMade_of_write (hx : CopiesOwn cfg s) (hrun : runList (step cfg) init as = some s)
    {r : Running} (o : Outcome) {w : ZFSEvacuationStatus}
    {next : Except ApiError Unit → M Action} (hr : s.running.get n = some r)
    (hprog : r.prog = .call (.patch .evacuation (evacKey r.view) (.status w)) next)
    (hold : r.status.phase.copied = true → CopyMade cfg as n r.status)
    (hw : Writes cfg r.view r.trace r.status w) (hphase : w.phase.copied = true) :
    CopyMade cfg (as ++ [.call n o]) n w := by
  have hbefore : r.status.phase.copied = true → CopyMade cfg (as ++ [.call n o]) n r.status :=
    fun hst => (hold hst).later (.call n o)
  cases hw with
  | copied t bytes bkp rst hp hwrote ht hbkp hrst hdone hdone' =>
    obtain ⟨source, target, hs, htarget, hsaw⟩ :=
      hx.sawOwnDone hr hwrote ht hbkp hrst hdone hdone'
    rw [evacKey, name_of_running hr] at hprog
    exact ⟨source, target, t, hs, htarget, .now hrun ⟨o, r, _, next, rfl, hr, hprog, hp, rfl, hs,
      htarget, ht, hsaw⟩⟩
  | shown _ _ _ | snapDeleteIssued _ _ _ => exact (hbefore hphase).congr rfl rfl
  | adopted hp => exact (hbefore (by rw [hp]; rfl)).congr rfl rfl
  | committed _ _ _ _ _ hp _ _ _ _ _ _ _ _ _ _ => exact (hbefore (by rw [hp]; rfl)).congr rfl rfl
  | swapped _ _ _ hp _ _ _ _ _ _ => exact (hbefore (by rw [hp]; rfl)).congr rfl rfl
  | completed hp _ => exact (hbefore (by rw [hp]; rfl)).congr rfl rfl
  | settles _ hp | attempted _ _ _ _ _ hp _ _ _ _ _ | attemptFailing _ _ hp | progressed _ _ hp _
  | blocked _ hp =>
    have hcon : r.status.phase.copied = true := hphase
    rw [hp] at hcon
    cases hcon
  | _ => cases hphase

/-- Every status behind the transfer that is or was stored, or is known to a reconcile, is one of
a copy that was made. -/
def AllMade (cfg : Config) (as : List SysAction) (s : System) : Prop :=
  EveryStatus (fun n st => st.phase.copied = true → CopyMade cfg as n st) s

theorem allMade_step (hg : Grounded cfg s) (hx : CopiesOwn cfg s)
    (hrun : runList (step cfg) init as = some s) (hm : AllMade cfg as s) (hl : KeepsEvacs s a)
    (h : step cfg s a = some s') : AllMade cfg (as ++ [a]) s' := by
  refine EveryStatus.step hm hg hl h (fun _ _ hst hphase => (hst hphase).later a) ?_
    (fun _ hphase => by cases hphase) ?_
  · intro n st st' hcore hst hphase
    have hsource := congrArg ZFSEvacuationStatus.source hcore
    exact (hst (by rwa [← phase_congr hcore])).congr hsource (target_congr hcore)
  · intro n o r st w next ha hr hprog hk hw hphase
    obtain rfl : r.status = st := hk.eq
    rw [ha]
    exact copyMade_of_write hx hrun o hr hprog (hm.known n r _ hr hk) hw hphase

theorem allMade_run (h : Run (step cfg) (StartsUnused cfg) init as s) : AllMade cfg as s :=
  h.invariant_past (everyStatus_init _) fun _ _ _ _ prior hm hg hs =>
    allMade_step (grounded_run (fun _ _ hg => hg.1.1.1) prior) (copiesOwn_run prior)
      prior.runList_eq hm hg.1.1.1 hs

/-- What is adopted and swapped in has received a copy of its own. -/
structure CopiesGenuinely (cfg : Config) (as : List SysAction) (s : System) : Prop where
  moves : MovesOnOwnCopy cfg s
  /-- Adopting registers the volume that the completed transfer went to. -/
  registers : ∀ n r o, ∀ next : Except ApiError Unit → M Action, s.running.get n = some r →
    r.prog = .call (.create .zfsVolume o) next → r.status.phase = .adopting →
    ∃ source target t, r.status.target = some target ∧ o.name = target.newVolumeHandle ∧
      Happened (step cfg) init (Completes cfg n source target t) as
  /-- So does the PV that Swapping creates. -/
  swapsIn : ∀ n r pv, ∀ next : Except ApiError Unit → M Action, s.running.get n = some r →
    r.prog = .call (.create .pv pv) next →
    ∃ source target t, r.status.target = some target ∧
      (pvSpec pv).bind csiHandle = some target.newVolumeHandle ∧
      Happened (step cfg) init (Completes cfg n source target t) as

/-- In every run in which reconciles start from what is stored, nobody else creates or redirects
transfer resources, and every attempt is recorded while nothing is stored under its names: an
evacuation leaves Transferring only for a copy of its own, and what it registers and swaps in is
the volume that received it. -/
theorem copies_genuinely (cfg : Config) (as : List SysAction) (s : System)
    (h : Run (step cfg) (StartsUnused cfg) init as s) : CopiesGenuinely cfg as s := by
  have hx := copiesOwn_run h
  have hmade := allMade_run h
  refine ⟨hx.moves, ?_, ?_⟩
  · intro n r o next hr hprog hphase
    obtain ⟨st, hk, target, info, -, ht, rfl⟩ := hx.contracted.allowed hr hprog
    obtain rfl : r.status = st := hk.eq
    obtain ⟨source, target', t, -, ht', hcopied⟩ := hmade.known n r _ hr hk (by rw [hphase]; rfl)
    obtain rfl : target = target' := Option.some.inj (ht.symm.trans ht')
    exact ⟨source, target, t, ht, rfl, hcopied⟩
  · intro n r pv next hr hprog
    have hb : WindowBase cfg s := windowBase_run (fun _ _ hg => hg.1.1) h
    obtain ⟨st, hk, hphase, hmanifest, -⟩ := hb.created hr hprog
    obtain rfl : r.status = st := hk.eq
    obtain ⟨source, target, t, -, ht, hcopied⟩ := hmade.known n r _ hr hk (by rw [hphase]; rfl)
    obtain ⟨_, target', _, _, newPv, hrec⟩ := hb.recorded.known n r _ hr hk (by rw [hphase]; rfl)
    obtain rfl : target = target' := Option.some.inj (ht.symm.trans hrec.target_eq)
    obtain ⟨spec, hnew⟩ := hrec.isReplacement
    obtain ⟨csi, hcsi, hhandle⟩ := hnew.handle
    have hsame := Option.some.inj (hmanifest.symm.trans hrec.manifest)
    have hdata : pv.data = newPv.data := congrArg Prod.snd hsame
    refine ⟨source, target, t, ht, ?_, hcopied⟩
    rw [show pvSpec pv = pvSpec newPv from congrArg PersistentVolume.spec hdata, hnew.spec_eq,
      Option.bind_some, csiHandle, hcsi]
    exact congrArg some hhandle

/-! ### Names that are used already -/

instance {st : ZFSEvacuationStatus} {k : Kind} {key : Key} : Decidable (NamesAttempt cfg n st k key) :=
  inferInstanceAs (Decidable (∃ t, _ = some t ∧ _))

instance {k : Kind} {o o' : Obj k} : Decidable (SameOrder k o o') := by
  unfold SameOrder
  split <;> infer_instance

instance : Decidable (KeepsTransferCrs cfg s a) := by
  unfold KeepsTransferCrs
  rcases a with (_ | _ | _) | _ <;> dsimp only <;> infer_instance

instance : Decidable (Unmeddled cfg s a) := inferInstanceAs (Decidable (_ ∧ _))

instance : Decidable (AttemptUnused cfg s a) :=
  inferInstanceAs (Decidable (∀ x, _ = some x → ∀ t, _ = some t → _ → _))

instance : Decidable (StartsUnused cfg s a) := inferInstanceAs (Decidable (_ ∧ _))

/-- The next call of the reconcile says that the transfer is over. -/
def endsTransfer (r : Running) : Bool :=
  r.status.phase = .transferring && match r.prog with
  | .call (.patch .evacuation _ (.status w)) _ => w.phase = .adopting
  | _ => false

theorem moves_of_endsTransfer {r : Running} (h : endsTransfer r = true) :
    r.status.phase = .transferring ∧ ∃ key w, ∃ next : Except ApiError Unit → M Action,
      r.prog = .call (.patch .evacuation key (.status w)) next ∧ w.phase = .adopting := by
  obtain ⟨hphase, hmatch⟩ := Bool.and_eq_true_iff.mp h
  refine ⟨of_decide_eq_true hphase, ?_⟩
  split at hmatch
  · rename_i key w next hprog
    exact ⟨key, w, next, hprog, of_decide_eq_true hmatch⟩
  · cases hmatch

/-- The volume up to the end of its transfer. -/
def toTransferEnd : List SysAction :=
  Sample.toTransfer ++
    [ Sample.restoreReport "pv1-evacr-a1" Sample.newHandle "n2" bkpStatusDone,
      Sample.backupReport "pv1-evac-a1" "vol1" "n1" "zevac-a1-0000" bkpStatusDone ] ++
    Sample.reconcileOf "pv1" 9 7

/-- The transfer of a small cluster is completed with a copy of its own. -/
theorem copies_genuinely_small : ∃ (as : List SysAction) (s : System) (r : Running)
    (source : SourceInfo) (target : TargetInfo) (t : TransferStatus),
    Run (step Sample.config) (StartsUnused Sample.config) init as s ∧
    s.running.get "pv1" = some r ∧ endsTransfer r = true ∧ r.status.source = some source ∧
    r.status.target = some target ∧ r.status.transfer = some t ∧
    SawOwnDone Sample.config "pv1" r.trace source target t := by
  obtain ⟨s, hrun, hs⟩ := Run.exists_of_runList
    (p := fun s : System => (s.running.get "pv1").any endsTransfer)
    (show (runList (guarded (step Sample.config) (StartsUnused Sample.config)) init
      toTransferEnd).any _ = true by decide +kernel)
  obtain ⟨r, hr, hends⟩ := (Option.any_eq_true ..).mp hs
  obtain ⟨hphase, key, w, next, hprog, hnext⟩ := moves_of_endsTransfer hends
  obtain ⟨source, target, t, hcopy⟩ :=
    (copies_genuinely _ _ s hrun).moves "pv1" r key w next hr hprog hphase hnext
  exact ⟨_, s, r, source, target, t, hrun, hr, hends, hcopy⟩

/-- A reconcile whose random numbers are all one. -/
def otherReconcile (version calls : Nat) : List SysAction :=
  .start "pv1" version :: List.replicate calls (.call "pv1" { random := 1 })

/-- The PV is deleted and created again before the commit, so the evacuation fails. It is deleted
with its resources done, and a second one for the same PV comes to the end of its transfer. -/
def copyLeftOver : List SysAction :=
  Sample.toCommitting ++
    [ .env (.delete .pv ⟨"", "pv1"⟩),
      .env (.create .pv (Sample.pv "pv1" "c1" "vol1" Sample.requested)) ] ++
    otherReconcile 11 6 ++ [.env (.delete .evacuation ⟨"", "pv1"⟩)] ++ otherReconcile 13 2 ++
    [.env (.create .evacuation (Sample.evacuation "pv1" .whenIdle))] ++
    otherReconcile 14 7 ++ otherReconcile 16 4 ++ otherReconcile 17 4 ++ otherReconcile 18 6 ++
    [Sample.seconds 100] ++ otherReconcile 19 7 ++ [Sample.seconds 100] ++ otherReconcile 20 6 ++
    otherReconcile 21 11 ++ otherReconcile 22 11 ++ otherReconcile 23 7

/-- The backups that were read in this trace. -/
def seenBackups (tr : Trace) : List (Obj .zfsBackup) :=
  tr.filterMap fun
    | ⟨.get .zfsBackup _, (ans : Except ApiError (Option (Obj .zfsBackup)))⟩ => ans.toOption.bind id
    | _ => none

theorem mem_seenBackups {tr : Trace} {key : Key} {bkp : Obj .zfsBackup}
    (h : sawEvent .zfsBackup key (some bkp) ∈ tr) : bkp ∈ seenBackups tr :=
  List.mem_filterMap.mpr ⟨_, h, rfl⟩

theorem not_copies_genuinely : ¬ ∀ (cfg : Config) (as : List SysAction) (s : System),
    Run (step cfg) (Unmeddled cfg) init as s → CopiesGenuinely cfg as s := by
  intro hall
  obtain ⟨s, hrun, hs⟩ := Run.exists_of_runList
    (p := fun s : System => (s.running.get "pv1").any fun r => endsTransfer r &&
      (r.status.transfer.any fun t => t.snapName = "zevac-a1-0001") &&
      (seenBackups r.trace).all fun bkp => (backupSpec bkp).snapName = some "zevac-a1-0000")
    (show (runList (guarded (step Sample.config) (Unmeddled Sample.config)) init
      copyLeftOver).any _ = true by decide +kernel)
  obtain ⟨r, hr, hall'⟩ := (Option.any_eq_true ..).mp hs
  obtain ⟨hboth, hseen⟩ := Bool.and_eq_true_iff.mp hall'
  obtain ⟨hends, hrecord⟩ := Bool.and_eq_true_iff.mp hboth
  obtain ⟨hphase, key, w, next, hprog, hnext⟩ := moves_of_endsTransfer hends
  obtain ⟨source, target, t, -, -, ht, hcopy⟩ :=
    (hall _ _ s hrun).moves "pv1" r key w next hr hprog hphase hnext
  obtain ⟨t', ht', hname⟩ := (Option.any_eq_true ..).mp hrecord
  obtain rfl : t = t' := Option.some.inj (ht.symm.trans ht')
  -- the only backup there is to see is the one of the first evacuation
  obtain ⟨bkp, hbkp, -, hsends⟩ := hcopy.backup
  have hold := of_decide_eq_true (List.all_eq_true.mp hseen bkp (mem_seenBackups hbkp))
  rw [hsends.snap, of_decide_eq_true hname] at hold
  exact absurd hold (by decide)

end System

end ZfsEvacuation
