import ZfsEvacuation.FailedUnwound
import ZfsEvacuation.GenuineCopy

/-!
# Received datasets after an abort

The abort path takes a ZFSRestore that is done for the marker that a dataset has landed on the
target. A failed attempt deletes its resources before the abort looks for them, and the marker
with them.
-/
namespace ZfsEvacuation
open ClientProgram Program GuardedRun

/-! ## The datasets on the target -/

/-- A dataset that has landed, with the restore that received it. -/
structure Landing where
  restore : Key
  dataset : String
  deriving DecidableEq, Repr

/-- The restore has received its dataset. -/
def RestoreDone (o : Option (Obj .zfsRestore)) : Prop := restoreStatus o = bkpStatusDone

instance {o : Option (Obj .zfsRestore)} : Decidable (RestoreDone o) :=
  inferInstanceAs (Decidable (_ = _))

/-- The landing of this restore. -/
def landingOf (rst : Obj .zfsRestore) : Landing := ⟨rst.key, (restoreSpec rst).volumeName⟩

namespace System
variable {cfg : Config} {s s' : System} {a : SysAction} {n : String}

/-- The restore that an agent reports to be done in this step. -/
def reported (s : System) : SysAction → Option (Obj .zfsRestore)
  | .env (.update .zfsRestore o) =>
    (s.world.get .zfsRestore o.key).bind fun cur =>
      if ¬ RestoreDone (some cur) ∧ RestoreDone (some o) then some o else none
  | _ => none

end System

/-- The system together with the landings whose dataset exists. -/
structure Pools where
  system : System
  landed : List Landing := []

inductive PoolAction where
  | sys (a : SysAction)
  /-- The agent destroys the dataset of a ZFSVolume that is being deleted. -/
  | destroy (name : String)

namespace Pools
variable {cfg : Config} {c c' : Pools} {a : PoolAction} {n : String}

def step (cfg : Config) (c : Pools) : PoolAction → Option Pools
  | .sys a => (System.step cfg c.system a).map fun s =>
    { system := s, landed := ((System.reported c.system a).map landingOf).toList ++ c.landed }
  | .destroy name => (c.system.world.get .zfsVolume ⟨cfg.openebsNs, name⟩).bind fun zv =>
    if zv.deleting ∧ zfsFinalizer ∈ zv.metadata.finalizers then
      some { c with landed := c.landed.filter (·.dataset ≠ name) }
    else none

def init : Pools := { system := System.init }

/-- One step, by its kind. -/
inductive Step (cfg : Config) (c : Pools) : PoolAction → Pools → Prop
  | sys (a : SysAction) (s' : System) (h : System.step cfg c.system a = some s') :
      Step cfg c (.sys a)
        { system := s', landed := ((System.reported c.system a).map landingOf).toList ++ c.landed }
  | destroy (name : String) :
      Step cfg c (.destroy name) { c with landed := c.landed.filter (·.dataset ≠ name) }

theorem step_cases (h : step cfg c a = some c') : Step cfg c a c' := by
  cases a with
  | sys a =>
    obtain ⟨s', hs, rfl⟩ := Option.map_eq_some_iff.mp h
    exact .sys a s' hs
  | destroy name =>
    obtain ⟨zv, -, hnext⟩ := Option.bind_eq_some_iff.mp h
    split_ifs at hnext
    obtain rfl := Option.some.inj hnext
    exact .destroy name

/-- The dataset exists that this restore has received. -/
def Holds (c : Pools) (key : Key) : Prop :=
  ∃ rst, c.system.world.get .zfsRestore key = some rst ∧ RestoreDone (some rst) ∧
    landingOf rst ∈ c.landed

end Pools

/-! ## What the surroundings keep to -/

/-- The reconcile has read this restore. -/
def readRestore (tr : Trace) (key : Key) : Bool :=
  tr.any fun e => match e.1 with
    | .get .zfsRestore key' => key' = key
    | _ => false

theorem readRestore_of_saw {tr : Trace} {key : Key} {rst : Option (Obj .zfsRestore)}
    (h : sawEvent .zfsRestore key rst ∈ tr) : readRestore tr key = true :=
  List.any_eq_true.mpr ⟨_, h, decide_eq_true rfl⟩

/-- The reconcile has found that there is no such volume. -/
def foundNoVolume (tr : Trace) (key : Key) : Bool :=
  tr.any fun
    | ⟨.get .zfsVolume key', (ans : Except ApiError (Option (Obj .zfsVolume)))⟩ =>
      key' = key && match ans with
        | .ok none => true
        | _ => false
    | _ => false

theorem foundNoVolume_of_saw {tr : Trace} {key : Key}
    (h : sawEvent .zfsVolume key none ∈ tr) : foundNoVolume tr key = true :=
  List.any_eq_true.mpr ⟨_, h, Bool.and_eq_true_iff.mpr ⟨decide_eq_true rfl, rfl⟩⟩

/-- The next call deletes this restore. -/
def droppedRestore (r : Running) : Option Key :=
  match r.prog with
  | .call (.delete .zfsRestore key) _ => some key
  | _ => none

namespace Pools
variable {cfg : Config} {c c' : Pools} {a : PoolAction} {n : String}

/-- A restore that is done stays so, with the dataset that it is for. -/
def KeepsDone (c : Pools) : SysAction → Prop
  | .env (.update .zfsRestore o) => ∀ cur, c.system.world.get .zfsRestore o.key = some cur →
    RestoreDone (some cur) →
      RestoreDone (some o) ∧ (restoreSpec o).volumeName = (restoreSpec cur).volumeName
  | _ => True

/-- A dataset name that is recorded for an evacuation is not the name of one that exists. -/
def DrawsUnused (c : Pools) (a : SysAction) : Prop :=
  ∀ x, System.statusWritten c.system a = some x → ∀ v, handleOf x.2 = some v →
    (∀ q ∈ c.system.records, q.1 = x.1 → handleOf q.2 ≠ some v) → ∀ l ∈ c.landed, l.dataset ≠ v

/-- What is taken for granted: statuses and resources of an evacuation are left to the
controller, whose reconciles start from what is stored; the agents do not take a Done back; and
a drawn name is not in use. -/
structure LeftAlone (cfg : Config) (c : Pools) (a : SysAction) : Prop where
  status : System.StatusCurrent c.system a
  crs : ∀ n, System.OwnCrs cfg n a
  reports : KeepsDone c a
  draws : DrawsUnused c a

/-- A restore whose dataset exists is not deleted by the retry of its attempt, by an abort that
has found the source volume gone, or by anybody else; and what is reported to be done is not
being deleted and has not been read by an abort in progress. -/
def KeepsMarker (cfg : Config) (c : Pools) : SysAction → Prop
  | .env (.delete .zfsRestore key) => ¬ Holds c key
  | .env (.update .zfsRestore o) =>
    ∀ x, System.reported c.system (.env (.update .zfsRestore o)) = some x →
      (∀ cur, c.system.world.get .zfsRestore x.key = some cur → cur.deleting = false) ∧
        ∀ r ∈ c.system.running.items, entersAbort r.view = true → readRestore r.trace x.key = false
  | .call m _ => ∀ r, c.system.running.get m = some r → ∀ key, droppedRestore r = some key →
    (r.status.phase = .transferring ∨
      r.status.phase = .aborting ∧ ∃ source, r.status.source = some source ∧
        foundNoVolume r.trace (source.volKey cfg) = true) → ¬ Holds c key
  | _ => True

def Attended (cfg : Config) (c : Pools) : PoolAction → Prop
  | .sys a => LeftAlone cfg c a
  | .destroy _ => True

/-- The steps of the runs in which an abort finds the marker of every dataset. -/
def FindsMarker (cfg : Config) (c : Pools) (a : PoolAction) : Prop :=
  Attended cfg c a ∧ ∀ b, a = .sys b → KeepsMarker cfg c b

end Pools

/-! ## What becomes of a restore -/

namespace System
variable {cfg : Config} {s s' : System} {a : SysAction} {n : String}

/-- What becomes of a restore that is stored and not being deleted. -/
inductive RestoreStep (s s' : System) (rst : Obj .zfsRestore) (key : Key) : SysAction → Prop
  | kept (a : SysAction) (rst' : Obj .zfsRestore)
      (stored : s'.world.get .zfsRestore key = some rst') (live : rst'.deleting = false)
      (same : rst'.data = rst.data) : RestoreStep s s' rst key a
  | updated (o rst' : Obj .zfsRestore) (named : o.key = key)
      (stored : s'.world.get .zfsRestore key = some rst') (live : rst'.deleting = false)
      (same : rst'.data = o.data) : RestoreStep s s' rst key (.env (.update .zfsRestore o))
  | removed : RestoreStep s s' rst key (.env (.delete .zfsRestore key))
  | deleted (m : String) (o : Outcome) (r : Running)
      (next : (Call.delete .zfsRestore key).Resp → M Action) (running : s.running.get m = some r)
      (prog : r.prog = .call (.delete .zfsRestore key) next) :
      RestoreStep s s' rst key (.call m o)

/-- Somebody else deletes the restore, or gives it new content. -/
theorem edited_restore {e : EnvAction} {rst o : Obj .zfsRestore} {key : Key}
    (hrst : s.world.get .zfsRestore key = some rst) (hlive : rst.deleting = false)
    (h : World.Edited s.world e .zfsRestore o) (hkey : o.key = key) :
    e = .delete .zfsRestore key ∨
      o.deleting = false ∧ ∃ x, e = .update .zfsRestore x ∧ x.key = key ∧ o.data = x.data := by
  cases h with
  | create x hnone =>
    have hkey' : x.key = key := hkey
    rw [hkey', hrst] at hnone
    cases hnone
  | update x cur hcur =>
    have hkey' : x.key = key := hkey
    obtain rfl : cur = rst := Option.some.inj ((hkey' ▸ hcur).symm.trans hrst)
    exact .inr ⟨hlive, x, rfl, hkey', rfl⟩
  | delete key' x hget _ =>
    obtain rfl : key' = key := (World.get_key hget).symm.trans hkey
    exact .inl rfl

/-- The controller deletes the restore, or patches it. -/
theorem written_restore {r : Running} {c : Call} {rst o : Obj .zfsRestore} {key : Key}
    (hrst : s.world.get .zfsRestore key = some rst) (hlive : rst.deleting = false)
    (hallowed : Allowed cfg r.view r.trace c) (h : World.Written s.world c .zfsRestore o)
    (hkey : o.key = key) :
    c = .delete .zfsRestore key ∨ o.deleting = false ∧ o.data = rst.data := by
  cases h with
  | create x hnone =>
    have hkey' : x.key = key := hkey
    rw [hkey', hrst] at hnone
    cases hnone
  | replace x cur _ _ =>
    obtain ⟨_, -, hfalse⟩ := hallowed
    exact hfalse.elim
  | delete key' x hget _ =>
    obtain rfl : key' = key := (World.get_key hget).symm.trans hkey
    exact .inl rfl
  | patch key' p x hget =>
    obtain rfl : key' = key :=
      (World.get_key hget).symm.trans ((Patch.key_apply p x).symm.trans hkey)
    obtain rfl : x = rst := Option.some.inj (hget.symm.trans hrst)
    cases p <;> exact .inr ⟨hlive, rfl⟩

theorem restore_step (hc : Contracted cfg s) (h : step cfg s a = some s') {rst : Obj .zfsRestore}
    {key : Key} (hrst : s.world.get .zfsRestore key = some rst) (hlive : rst.deleting = false) :
    RestoreStep s s' rst key a := by
  have hstays : ∀ o : Obj .zfsRestore, o.deleting = false → o.gone = true → False := by
    intro o ho hgone
    rw [Obj.gone, ho] at hgone
    cases hgone
  cases hnew : s'.world.get .zfsRestore key with
  | none =>
    cases obj_gone hc h hrst hnew with
    | env e o hedit hkey hgone =>
      rcases edited_restore hrst hlive hedit hkey with rfl | ⟨ho, -⟩
      · exact .removed
      · exact (hstays o ho hgone).elim
    | call m out r c next o hr hprog hallowed hwritten hkey hgone =>
      rcases written_restore hrst hlive hallowed hwritten hkey with rfl | ⟨ho, -⟩
      · exact .deleted m out r next hr hprog
      · exact (hstays o ho hgone).elim
  | some rst' =>
    cases obj_step hc h hnew with
    | same _ hstored =>
      obtain rfl : rst' = rst := Option.some.inj (hstored.symm.trans hrst)
      exact .kept _ rst' hnew hlive rfl
    | env e o hedit hkey heq _ =>
      subst heq
      rcases edited_restore hrst hlive hedit hkey with rfl | ⟨ho, x, rfl, hx, hdata⟩
      · exact .removed
      · exact .updated x _ hx hnew ho hdata
    | call m out r c next o hr hprog hallowed hwritten hkey heq _ =>
      subst heq
      rcases written_restore hrst hlive hallowed hwritten hkey with rfl | ⟨ho, hdata⟩
      · exact .deleted m out r next hr hprog
      · exact .kept _ _ hnew ho hdata

/-- The restore is reported to be done in this step. -/
theorem reported_some {o : Obj .zfsRestore} (h : reported s a = some o) :
    a = .env (.update .zfsRestore o) ∧
      ∃ cur, s.world.get .zfsRestore o.key = some cur ∧ ¬ RestoreDone (some cur) ∧
        RestoreDone (some o) := by
  unfold reported at h
  split at h
  · obtain ⟨cur, hcur, hnext⟩ := Option.bind_eq_some_iff.mp h
    split_ifs at hnext with hdone
    obtain rfl := Option.some.inj hnext
    exact ⟨rfl, cur, hcur, hdone⟩
  · cases h

theorem not_restoreDone_init (cfg : Config) (name : String) (attempt : Nat) (target : TargetInfo)
    (volSpec : VolumeInfo) (port : Nat) (x : Obj .zfsRestore)
    (h : x.data = (restoreCr cfg name attempt target volSpec port).data) :
    ¬ RestoreDone (some x) := by
  rw [RestoreDone, restoreStatus, Option.bind_some, h]
  intro hdone
  have hinit : bkpStatusInit = bkpStatusDone := hdone
  exact absurd hinit (by decide)

/-- A restore of an evacuation is not done by itself: it was so before, or it is reported. -/
theorem done_step (hc : Contracted cfg s) (hown : OwnCrs cfg n a) (h : step cfg s a = some s')
    {k : Nat} (hdone : RestoreDone (s'.world.get .zfsRestore (rstKey cfg n k))) :
    RestoreDone (s.world.get .zfsRestore (rstKey cfg n k)) ∨
      ∃ o, reported s a = some o ∧ o.key = rstKey cfg n k := by
  cases hnew : s'.world.get .zfsRestore (rstKey cfg n k) with
  | none =>
    rw [hnew] at hdone
    exact absurd hdone (by decide)
  | some x =>
    rw [hnew] at hdone
    have hold : ∀ y : Obj .zfsRestore, s.world.get .zfsRestore (rstKey cfg n k) = some y →
        x.data = y.data → RestoreDone (s.world.get .zfsRestore (rstKey cfg n k)) := by
      intro y hy hdata
      rw [RestoreDone, restoreStatus, Option.bind_some, hdata] at hdone
      rwa [hy]
    cases obj_step hc h hnew with
    | same _ hstored => exact .inl (hold x hstored rfl)
    | env e o hedit hkey heq _ =>
      subst heq
      cases hedit with
      | create o hnone => exact absurd hkey (hown k)
      | update o cur hcur =>
        have hkey' : o.key = rstKey cfg n k := hkey
        by_cases hbefore : RestoreDone (some cur)
        · exact .inl ((hkey' ▸ hcur) ▸ hbefore)
        · refine .inr ⟨o, ?_, hkey'⟩
          have hreport : RestoreDone (some o) := hdone
          simp only [reported, hcur, Option.bind_some, hbefore, hreport, not_false_eq_true,
            and_self, if_true]
      | delete key o hget _ =>
        obtain rfl : key = rstKey cfg n k := (World.get_key hget).symm.trans hkey
        exact .inl (hold o hget rfl)
    | call m out r c next o hr hprog hallowed hwritten hkey heq _ =>
      subst heq
      cases hwritten with
      | create o hnone =>
        obtain ⟨_, -, target, t, volSpec, port, -, -, -, rfl, -⟩ := hallowed
        exact absurd hdone
          (not_restoreDone_init cfg r.view.name t.attempt target volSpec port _ rfl)
      | replace o cur _ _ =>
        obtain ⟨_, -, hfalse⟩ := hallowed
        exact hfalse.elim
      | delete key o hget _ =>
        obtain rfl : key = rstKey cfg n k := (World.get_key hget).symm.trans hkey
        exact .inl (hold o hget rfl)
      | patch key p o hget =>
        obtain rfl : key = rstKey cfg n k :=
          (World.get_key hget).symm.trans ((Patch.key_apply p o).symm.trans hkey)
        refine .inl (hold o hget ?_)
        cases p <;> rfl

end System

namespace Pools
variable {cfg : Config} {c c' : Pools} {a : PoolAction} {n : String}

/-! ## The markers -/

/-- The dataset has a restore that is done and stays. -/
def Marked (w : World) (key : Key) (v : String) : Prop :=
  ∃ rst, w.get .zfsRestore key = some rst ∧ rst.deleting = false ∧ RestoreDone (some rst) ∧
    (restoreSpec rst).volumeName = v

/-- A restore that the abort has found not to be done is not done. -/
def ReadOpen (cfg : Config) (c : Pools) : Prop :=
  ∀ n r k rst, c.system.running.get n = some r → entersAbort r.view = true →
    sawEvent .zfsRestore (rstKey cfg n k) rst ∈ r.trace → ¬ RestoreDone rst →
      ¬ RestoreDone (c.system.world.get .zfsRestore (rstKey cfg n k))

/-- The datasets that an evacuation has received and that exist are marked until its commit. -/
def AllMarked (cfg : Config) (c : Pools) : Prop :=
  ∀ n st v k, (n, st) ∈ c.system.records → st.committed = false → handleOf st = some v →
    ⟨rstKey cfg n k, v⟩ ∈ c.landed → Marked c.system.world (rstKey cfg n k) v

/-- What every state of these runs keeps. -/
structure LandedSound (cfg : Config) (c : Pools) : Prop where
  contracted : System.Contracted cfg c.system
  aware : System.AllAware c.system
  shape : ∀ n st, (n, st) ∈ c.system.records → RecordShape st
  gone : ∀ n, System.GoneSeen cfg n c.system
  earlier : System.EarlierGone cfg c.system
  read : ReadOpen cfg c
  marked : AllMarked cfg c

theorem landedSound_init : LandedSound cfg init := by
  constructor
  · intro n r hr
    cases hr
  · intro n r e hr
    cases hr
  · intro n st hm
    cases hm
  · intro n r k cr hr
    cases hr
  · intro n st t hm
    cases hm
  · intro n r k rst hr
    cases hr
  · intro n st v k hm
    cases hm

section Sys
variable {b : SysAction} {s' : System}

theorem readOpen_step (hx : LandedSound cfg c) (hg : LeftAlone cfg c b) (hk : KeepsMarker cfg c b)
    (h : System.step cfg c.system b = some s') {n : String} {r' : Running} {k : Nat}
    {rst : Option (Obj .zfsRestore)} (hr' : s'.running.get n = some r')
    (hv : entersAbort r'.view = true)
    (hsaw : sawEvent .zfsRestore (rstKey cfg n k) rst ∈ r'.trace) (hopen : ¬ RestoreDone rst) :
    ¬ RestoreDone (s'.world.get .zfsRestore (rstKey cfg n k)) := by
  have hlater : ∀ r, c.system.running.get n = some r → entersAbort r.view = true →
      sawEvent .zfsRestore (rstKey cfg n k) rst ∈ r.trace →
      ¬ RestoreDone (s'.world.get .zfsRestore (rstKey cfg n k)) := by
    intro r hr hv hsaw hdone
    rcases System.done_step hx.contracted (hg.crs n) h hdone with hbefore | ⟨o, hreport, hkey⟩
    · exact hx.read n r k rst hr hv hsaw hopen hbefore
    · obtain ⟨rfl, -⟩ := System.reported_some hreport
      have hunread := (hk o hreport).2 r (KeyedStore.get_eq_some_iff.mp hr).1 hv
      rw [hkey, readRestore_of_saw hsaw] at hunread
      cases hunread
  cases System.running_step h hr' with
  | kept _ hr _ => exact hlater r' hr hv hsaw
  | started version _ _ _ heq =>
    rw [heq] at hsaw
    cases hsaw
  | called o r call next hr hprog _ heq =>
    subst heq
    rcases List.mem_cons.mp hsaw with hnow | hbefore
    · obtain rfl : Call.get .zfsRestore (rstKey cfg n k) = call := congrArg Sigma.fst hnow
      rw [System.world_call h hr hprog, World.after_get, answer_get hnow.symm]
      exact hopen
    · exact hlater r hr hv hbefore

theorem Marked.holds {key : Key} {v : String} (h : Marked c.system.world key v)
    (hl : ⟨key, v⟩ ∈ c.landed) : Holds c key := by
  obtain ⟨rst, hrst, -, hdone, rfl⟩ := h
  refine ⟨rst, hrst, hdone, ?_⟩
  rw [landingOf, World.get_key hrst]
  exact hl

/-- Before its commit, an evacuation deletes no marker of a dataset that exists. -/
theorem not_deleted_marker (hx : LandedSound cfg c) {m : String} {o : Outcome} {r : Running}
    {st : ZFSEvacuationStatus} {k : Nat} {v : String}
    {next : (Call.delete .zfsRestore (rstKey cfg n k)).Resp → M Action}
    (hk : KeepsMarker cfg c (.call m o)) (hr : c.system.running.get m = some r)
    (hprog : r.prog = .call (.delete .zfsRestore (rstKey cfg n k)) next)
    (hm : (n, st) ∈ c.system.records) (hcommitted : st.committed = false)
    (hl : ⟨rstKey cfg n k, v⟩ ∈ c.landed) (hmark : Marked c.system.world (rstKey cfg n k) v) :
    False := by
  obtain ⟨st₁, hknows, t, hphase, ht, hkey⟩ := hx.contracted.allowed hr hprog
  obtain rfl : r.status = st₁ := hknows.eq
  have hnamed : TransferCr.restore.key cfg n k = TransferCr.restore.key cfg r.view.name t.attempt :=
    hkey
  obtain ⟨rfl, rfl⟩ := TransferCr.key_inj hnamed
  obtain rfl : m = r.view.name := (System.name_of_running hr).symm
  have hkept := hk r hr (rstKey cfg r.view.name t.attempt) (by rw [droppedRestore, hprog])
  have hcore := hx.aware.agree hr hknows hm
  rcases hphase with hp | ⟨hp, hv, ⟨rst, hsaw, hopen⟩ | ⟨source, hs, hsaw⟩⟩ | hp
  · exact hkept (.inl hp) (hmark.holds hl)
  · obtain ⟨x, hstored, -, hdone, -⟩ := hmark
    exact hx.read _ r t.attempt rst hr hv hsaw hopen (hstored ▸ hdone)
  · exact hkept (.inr ⟨hp, source, hs, foundNoVolume_of_saw hsaw⟩) (hmark.holds hl)
  · have hshape := (hx.shape _ st hm).committed
    rw [CommitConsistent, hcommitted, System.phase_congr hcore, hp] at hshape
    cases hshape

/-- A marker stays as long as its dataset exists. -/
theorem marked_step (hx : LandedSound cfg c) (hg : LeftAlone cfg c b) (hk : KeepsMarker cfg c b)
    (h : System.step cfg c.system b = some s') {st : ZFSEvacuationStatus} {k : Nat} {v : String}
    (hm : (n, st) ∈ c.system.records) (hcommitted : st.committed = false)
    (hl : ⟨rstKey cfg n k, v⟩ ∈ c.landed) (hmark : Marked c.system.world (rstKey cfg n k) v) :
    Marked s'.world (rstKey cfg n k) v := by
  have hheld := hmark.holds hl
  obtain ⟨rst, hrst, hlive, hdone, hvol⟩ := id hmark
  cases System.restore_step hx.contracted h hrst hlive with
  | kept _ rst' hstored hlive' hdata =>
    refine ⟨rst', hstored, hlive', ?_, ?_⟩
    · rwa [RestoreDone, restoreStatus, Option.bind_some, hdata]
    · rwa [restoreSpec, hdata]
  | updated o rst' hkey hstored hlive' hdata =>
    obtain ⟨hstays, hsame⟩ := hg.reports rst (hkey ▸ hrst) hdone
    refine ⟨rst', hstored, hlive', ?_, ?_⟩
    · rwa [RestoreDone, restoreStatus, Option.bind_some, hdata]
    · rw [restoreSpec, hdata]
      exact hsame.trans hvol
  | removed => exact absurd hheld hk
  | deleted m o r next hr hprog =>
    exact (not_deleted_marker hx hk hr hprog hm hcommitted hl hmark).elim

/-- What is reported to be done marks its dataset. -/
theorem marked_of_reported {o : Obj .zfsRestore} (hk : KeepsMarker cfg c b)
    (h : System.step cfg c.system b = some s') (hreport : System.reported c.system b = some o) :
    Marked s'.world o.key (restoreSpec o).volumeName := by
  obtain ⟨rfl, cur, hcur, -, hdone⟩ := System.reported_some hreport
  have hlive := (hk o hreport).1 cur hcur
  cases System.step_cases h with
  | env e =>
    have hstays : (World.edited cur o).gone = false := by
      have hdel : (World.edited cur o).deleting = false := hlive
      rw [Obj.gone, hdel, Bool.false_and]
    have hget := World.get_update_self c.system.world (World.edited cur o)
    rw [hstays] at hget
    refine ⟨(World.edited cur o).stamped c.system.world.revision, ?_, hlive, hdone, rfl⟩
    simp only [World.env, hcur]
    exact hget

theorem not_committed_of_write {view : Obj .evacuation} {tr : Trace} {st w : ZFSEvacuationStatus}
    (h : Writes cfg view tr st w) (hw : w.committed = false) : st.committed = false := by
  cases h with
  | committed => cases hw
  | _ => exact hw

theorem allMarked_step (hx : LandedSound cfg c) (hg : LeftAlone cfg c b) (hk : KeepsMarker cfg c b)
    (h : System.step cfg c.system b = some s') :
    AllMarked cfg { system := s', landed :=
      ((System.reported c.system b).map landingOf).toList ++ c.landed } := by
  intro n st' v k hm hcommitted hv hl
  rcases List.mem_append.mp hl with hnow | hbefore
  · obtain ⟨o, hreport, heq⟩ := Option.map_eq_some_iff.mp (Option.mem_toList.mp hnow)
    obtain ⟨hkey, hvol⟩ := Landing.mk.inj heq
    have hmark := marked_of_reported hk h hreport
    rwa [hkey, hvol] at hmark
  · cases System.record_step hx.contracted hg.status h hm with
    | kept _ st mem same =>
      have hold : st.committed = false := (committed_congr same).symm.trans hcommitted
      refine marked_step hx hg hk h mem hold hbefore ?_
      exact hx.marked n st v k mem hold ((handleOf_congr same).symm.trans hv) hbefore
    | wrote r o w next hr hprog hknows hw same =>
      have hold := not_committed_of_write hw ((committed_congr same).symm.trans hcommitted)
      have hmem := System.mem_records_running hr
      have hvw : handleOf w = some v := (handleOf_congr same).symm.trans hv
      by_cases hnamed : handleOf r.status = some v
      · exact marked_step hx hg hk h hmem hold hbefore
          (hx.marked n _ v k hmem hold hnamed hbefore)
      · refine absurd rfl (hg.draws _ (System.statusWritten_eq hr hprog) v hvw ?_ _ hbefore)
        rintro ⟨m, st⟩ hq hname heq
        subst hname
        rw [handleOf_congr (hx.aware.agree hr hknows hq)] at heq
        exact hnamed heq
    | fresh _ new =>
      rw [new] at hv
      cases hv

end Sys

theorem LandedSound.step (hx : LandedSound cfg c) (hg : FindsMarker cfg c a)
    (h : Pools.step cfg c a = some c') : LandedSound cfg c' := by
  cases step_cases h with
  | sys b s' hs =>
    have hattended : LeftAlone cfg c b := hg.1
    have hkeeps := hg.2 b rfl
    exact
      { contracted := System.contracted_step hx.contracted hs
        aware :=
          System.allAware_step hx.contracted hx.aware hattended.status.1 hattended.status.2 hs
        shape := fun _ _ hm =>
          System.recordShape_step hx.contracted hattended.status hx.shape hs hm
        gone := fun n => System.gone_step hx.contracted (hx.gone n) (hattended.crs n) hs
        earlier := System.earlierGone_step hx.contracted hx.aware hx.gone hx.earlier
          hattended.status hattended.crs hs
        read := fun _ _ _ _ hr hv hsaw hopen =>
          readOpen_step hx hattended hkeeps hs hr hv hsaw hopen
        marked := allMarked_step hx hattended hkeeps hs }
  | destroy name =>
    exact
      { hx with
        marked := fun n st v k hm hcommitted hv hl =>
          hx.marked n st v k hm hcommitted hv (List.mem_filter.mp hl).1 }

theorem landedSound_run {as : List PoolAction}
    (h : Run (Pools.step cfg) (FindsMarker cfg) init as c) : LandedSound cfg c :=
  h.invariant landedSound_init fun _ _ _ hx hg hs => hx.step hg hs

/-! ## The end of an abort -/

/-- In this step the evacuation goes from Aborting to Failed. -/
structure AbortEnds (c c' : Pools) (n : String) (st : ZFSEvacuationStatus) : Prop where
  aborting : ∃ st₀, System.persisted c.system n = some st₀ ∧ st₀.phase = .aborting
  stored : System.persisted c'.system n = some st
  failed : st.phase = .failed

/-- No dataset exists on the target that a restore of the evacuation's attempts has received,
unless there is no such node any more. -/
def TargetEmpty (cfg : Config) (c : Pools) (n : String) (st : ZFSEvacuationStatus) : Prop :=
  ∀ target t, st.target = some target → st.transfer = some t →
    ¬ NodeGone c.system.world target.nodeId → ∀ k, 1 ≤ k → k ≤ t.attempt →
      ⟨rstKey cfg n k, target.newVolumeHandle⟩ ∉ c.landed

/-- What the abort path leaves when it is through. -/
theorem LandedSound.unwound (hx : LandedSound cfg c) {r : Running} {t : TransferStatus}
    {target : TargetInfo} (hr : c.system.running.get n = some r) (hp : r.status.phase = .aborting)
    (facts : Unwound cfg r.view r.trace r.status) (htarget : r.status.target = some target)
    (ht : r.status.transfer = some t) {k : Nat} (hpos : 1 ≤ k) (hle : k ≤ t.attempt) :
    ⟨rstKey cfg n k, target.newVolumeHandle⟩ ∉ c.landed := by
  intro hl
  have hmem := System.mem_records_running hr
  have hcommitted : r.status.committed = false := by
    rw [(hx.shape n _ hmem).committed, hp]
    rfl
  have hv : handleOf r.status = some target.newVolumeHandle := by
    rw [handleOf, htarget, Option.map_some]
  obtain ⟨rst, hstored, -⟩ := hx.marked n _ _ k hmem hcommitted hv hl
  have hhas : System.HasCr cfg c.system n k .restore := fun hnone => by
    rw [show c.system.world.get .zfsRestore (rstKey cfg n k) = none from hnone] at hstored
    cases hstored
  rcases Nat.lt_or_eq_of_le hle with hbefore | rfl
  · exact hx.earlier n _ t hmem ht k .restore hpos hbefore hhas
  · exact (hx.gone n).crsGone hr (facts.crs (Option.isSome_of_eq_some htarget)) ht .restore hhas

/-- From Aborting, only the end of the abort path writes Failed. -/
theorem unwound_of_failed {view : Obj .evacuation} {tr : Trace} {st w : ZFSEvacuationStatus}
    (h : Writes cfg view tr st w) (hst : st.phase = .aborting) (hw : w.phase = .failed) :
    Unwound cfg view tr st ∧ w.target = st.target ∧ w.transfer = st.transfer := by
  have hno : ∀ p : Phase, st.phase = p → p ≠ .aborting → False := fun p hp hne =>
    hne (hp.symm.trans hst)
  cases h with
  | unwound msg _ _ _ facts => exact ⟨facts, rfl, rfl⟩
  | refused _ hp | pvLost _ hp _ _ _ | pvReplaced _ _ _ _ _ _ hp _ _ _ _ =>
    exact (hno _ hp (by decide)).elim
  | shown _ _ hfailed => exact absurd hw hfailed
  | settles _ hp | blocked _ hp | attempted _ _ _ _ _ hp _ _ _ _ _ | attemptFailing _ _ hp
  | progressed _ _ hp _ | snapDeleteIssued hp _ _ => exact (hno _ hp (by decide)).elim
  | _ => cases hw

/-- In every run in which restores keep marking the datasets they have received: when an
evacuation goes from Aborting to Failed, no dataset is left on its target that any of its
attempts has received. -/
theorem abort_leaves_no_dataset (cfg : Config) (as : List PoolAction) (c c' : Pools)
    (a : PoolAction) (n : String) (st : ZFSEvacuationStatus)
    (h : Run (Pools.step cfg) (FindsMarker cfg) init as c) (hg : FindsMarker cfg c a)
    (hs : Pools.step cfg c a = some c') (hf : AbortEnds c c' n st) : TargetEmpty cfg c' n st := by
  have hx := landedSound_run h
  obtain ⟨st₀, hst₀, haborting⟩ := hf.aborting
  cases step_cases hs with
  | destroy name =>
    obtain rfl : st₀ = st := Option.some.inj (hst₀.symm.trans hf.stored)
    have hfailed := hf.failed
    rw [haborting] at hfailed
    cases hfailed
  | sys b s' hstep =>
    have hstatus : System.StatusCurrent c.system b := LeftAlone.status hg.1
    obtain ⟨e', he', rfl⟩ := Option.map_eq_some_iff.mp hf.stored
    obtain ⟨e₀, he₀, rfl⟩ := Option.map_eq_some_iff.mp hst₀
    rcases System.status_after core_mergeStatus hx.contracted hx.aware hstatus hstep he' with
      ⟨e, he, -, hsame | ⟨st₁, w, hwrite⟩⟩ | ⟨hnone, -, -⟩
    · obtain rfl : e₀ = e := Option.some.inj (he₀.symm.trans he)
      have hfailed := hf.failed
      rw [hsame, haborting] at hfailed
      cases hfailed
    · obtain rfl : e₀ = e := Option.some.inj (he₀.symm.trans he)
      obtain ⟨r, o, next, rfl, hr, hprog, hk, hw⟩ := hwrite.caller
      obtain rfl : r.status = st₁ := hk.eq
      have hphase : r.status.phase = .aborting :=
        (System.phase_congr hwrite.old).symm.trans haborting
      have hfailed : w.phase = .failed := (System.phase_congr hwrite.new).symm.trans hf.failed
      obtain ⟨facts, htarget, htransfer⟩ := unwound_of_failed hw hphase hfailed
      intro target t htgt ht _ k hpos hle hl
      rw [target_congr hwrite.new, htarget] at htgt
      rw [System.transfer_congr hwrite.new, htransfer] at ht
      exact hx.unwound hr hphase facts htgt ht hpos hle hl
    · cases he₀.symm.trans hnone

/-! ### A marker that is deleted with its attempt -/

instance {key : Key} : Decidable (Holds c key) :=
  inferInstanceAs (Decidable (∃ rst, _ = some rst ∧ _))

instance {a : SysAction} : Decidable (KeepsDone c a) := by
  unfold KeepsDone
  split <;> infer_instance

instance {a : SysAction} : Decidable (DrawsUnused c a) :=
  inferInstanceAs (Decidable (∀ x, System.statusWritten c.system a = some x →
    ∀ v, handleOf x.2 = some v → _ → _))

instance {a : SysAction} : Decidable (KeepsMarker cfg c a) := by
  unfold KeepsMarker
  rcases a with (_ | ⟨⟨⟩, _⟩ | ⟨⟨⟩, _⟩ | _) | _ <;> dsimp only <;> infer_instance

/-- A decidable case of `Attended`. -/
def Quiet (c : Pools) : PoolAction → Prop
  | .sys a => System.StatusCurrent c.system a ∧ System.NoCrs a ∧ KeepsDone c a ∧
    DrawsUnused c a
  | .destroy _ => True

theorem Quiet.attended (h : Quiet c a) : Attended cfg c a := by
  cases a with
  | sys b => exact ⟨h.1, fun _ => h.2.1.ownCrs, h.2.2.1, h.2.2.2⟩
  | destroy name => trivial

instance : Decidable (Quiet c a) := by
  unfold Quiet
  split <;> infer_instance

instance : Decidable (∀ b, a = .sys b → KeepsMarker cfg c b) :=
  match a with
  | .sys b => decidable_of_iff (KeepsMarker cfg c b)
      ⟨fun h _ heq => PoolAction.sys.inj heq ▸ h, fun h => h b rfl⟩
  | .destroy _ => isTrue fun _ heq => by cases heq

/-- The evacuation pv1 goes from Aborting to Failed, and its dataset is still there or may not
be. -/
def abortEnds (cfg : Config) (left : Bool) (c c' : Pools) : Bool :=
  ((System.persisted c.system "pv1").any fun st => st.phase = .aborting) &&
    (System.persisted c'.system "pv1").any fun st => st.phase = .failed &&
      (!left || st.target.any fun target => st.transfer.any fun t =>
        ¬ NodeGone c'.system.world target.nodeId ∧ 1 ≤ t.attempt ∧
          ⟨rstKey cfg "pv1" t.attempt, target.newVolumeHandle⟩ ∈ c'.landed)

theorem abortEnds_iff {left : Bool} (h : abortEnds cfg left c c' = true) :
    ∃ st, AbortEnds c c' "pv1" st ∧ (left = true → ¬ TargetEmpty cfg c' "pv1" st) := by
  obtain ⟨hbefore, hafter⟩ := Bool.and_eq_true_iff.mp h
  obtain ⟨st₀, hst₀, haborting⟩ := (Option.any_eq_true ..).mp hbefore
  obtain ⟨st, hst, hboth⟩ := (Option.any_eq_true ..).mp hafter
  obtain ⟨hfailed, hleft⟩ := Bool.and_eq_true_iff.mp hboth
  refine ⟨st, ⟨⟨st₀, hst₀, of_decide_eq_true haborting⟩, hst, of_decide_eq_true hfailed⟩, ?_⟩
  rintro rfl hempty
  obtain ⟨target, htarget, hany⟩ := (Option.any_eq_true ..).mp hleft
  obtain ⟨t, ht, hlanded⟩ := (Option.any_eq_true ..).mp hany
  obtain ⟨hnode, hpos, hmem⟩ := of_decide_eq_true hlanded
  exact hempty target t htarget ht hnode t.attempt hpos (Nat.le_refl _) hmem

/-- The last status of the restore, and of the backup, once the agents have let go of them. -/
def letGo (status : String) : List PoolAction :=
  [ .sys (.env (.update .zfsBackup ⟨{ ns := "openebs", name := "pv1-evac-a1" },
      ({ spec := ⟨"vol1", "n1", some "zevac-a1-0000", none, "10.0.0.9:1"⟩
         status := some status } : ZFSBackup)⟩)),
    .sys (.env (.update .zfsRestore ⟨{ ns := "openebs", name := "pv1-evacr-a1" },
      ({ spec := ⟨Sample.newHandle, "n2", "10.0.0.9:2"⟩
         status := some bkpStatusDone } : ZFSRestore)⟩)) ]

/-- The restore of the first attempt is done, the backup reports this status. -/
def reports (status : String) : List SysAction :=
  [ Sample.restoreReport "pv1-evacr-a1" Sample.newHandle "n2" bkpStatusDone,
    Sample.backupReport "pv1-evac-a1" "vol1" "n1" "zevac-a1-0000" status ]

/-- An evacuation that admits one attempt. -/
def requestOnce : SysAction :=
  .env (.create .evacuation ⟨{ name := "pv1" },
    ({ spec := { pvName := "pv1", mode := .whenIdle, maxAttempts := some 1 } } : ZFSEvacuation)⟩)

/-- The only attempt fails at its backup, after the restore is done. -/
def failsAtBackup : List PoolAction :=
  (Sample.setup.dropLast ++ [requestOnce] ++ Sample.toTransfer.drop Sample.setup.length ++
      reports bkpStatusFailed ++ Sample.reconcileOf "pv1" 9 12).map .sys ++
    letGo bkpStatusFailed ++
    (Sample.reconcileOf "pv1" 10 10 ++ Sample.reconcileOf "pv1" 11 15).map .sys

theorem not_abort_leaves_no_dataset : ¬ ∀ (cfg : Config) (as : List PoolAction) (c c' : Pools)
    (a : PoolAction) (n : String) (st : ZFSEvacuationStatus),
    Run (Pools.step cfg) (Attended cfg) init as c → Attended cfg c a →
    Pools.step cfg c a = some c' → AbortEnds c c' n st → TargetEmpty cfg c' n st := by
  intro hall
  obtain ⟨c, hrun, hc⟩ := Run.exists_of_runList
    (p := fun c : Pools => decide (Quiet c (.sys (.call "pv1" {}))) &&
      (Pools.step Sample.config c (.sys (.call "pv1" {}))).any (abortEnds Sample.config true c))
    (show (runList (guarded (Pools.step Sample.config) Quiet) init failsAtBackup).any _ = true by
      decide +kernel)
  obtain ⟨hquiet, hends⟩ := Bool.and_eq_true_iff.mp hc
  obtain ⟨c', hstep, hleft⟩ := (Option.any_eq_true ..).mp hends
  obtain ⟨st, hends, hnot⟩ := abortEnds_iff hleft
  exact hnot rfl (hall _ _ c c' (.sys (.call "pv1" {})) "pv1" st
    (hrun.mono fun _ _ hg => hg.attended) (Quiet.attended (of_decide_eq_true hquiet)) hstep hends)

/-- The copy is adopted and the evacuation is cancelled. The agent destroys the dataset, and only
then somebody deletes the restore. -/
def cancelledAdoption : List PoolAction :=
  (Sample.toTransfer ++ reports bkpStatusDone ++ Sample.reconcileOf "pv1" 9 8 ++
      Sample.reconcileOf "pv1" 10 5 ++
      [Sample.volumeReport Sample.newHandle "n2" zfsStatusReady, System.unrequested] ++
      Sample.reconcileOf "pv1" 10 2 ++ Sample.reconcileOf "pv1" 11 6).map .sys ++
    [ .destroy Sample.newHandle,
      .sys (.env (.update .zfsVolume ⟨{ ns := "openebs", name := Sample.newHandle },
        ({ spec := { ownerNodeId := "n2", poolName := "tank" } } : ZFSVolume)⟩)),
      .sys (.env (.delete .zfsRestore ⟨"openebs", "pv1-evacr-a1"⟩)) ] ++
    letGo bkpStatusDone ++
    (Sample.reconcileOf "pv1" 12 7 ++ Sample.reconcileOf "pv1" 13 15).map .sys

/-- A cancelled adoption of a small cluster leaves no dataset. -/
theorem abort_leaves_no_dataset_cancelled : ∃ (as : List PoolAction) (c c' : Pools)
    (a : PoolAction) (st : ZFSEvacuationStatus),
    Run (Pools.step Sample.config) (FindsMarker Sample.config) init as c ∧
    Pools.step Sample.config c a = some c' ∧ AbortEnds c c' "pv1" st ∧
    TargetEmpty Sample.config c' "pv1" st := by
  obtain ⟨c, hrun, hc⟩ := Run.exists_of_runList
    (p := fun c : Pools => decide (Quiet c (.sys (.call "pv1" {})) ∧
        ∀ b, PoolAction.sys (.call "pv1" {}) = .sys b → KeepsMarker Sample.config c b) &&
      (Pools.step Sample.config c (.sys (.call "pv1" {}))).any (abortEnds Sample.config false c))
    (show (runList (guarded (Pools.step Sample.config) fun c a => Quiet c a ∧
      ∀ b, a = .sys b → KeepsMarker Sample.config c b) init cancelledAdoption).any _ = true by
        decide +kernel)
  obtain ⟨hguard, hends⟩ := Bool.and_eq_true_iff.mp hc
  obtain ⟨c', hstep, hdone⟩ := (Option.any_eq_true ..).mp hends
  obtain ⟨st, hends, -⟩ := abortEnds_iff hdone
  have hruns : Run (Pools.step Sample.config) (FindsMarker Sample.config) init cancelledAdoption
      c := hrun.mono fun _ _ hg => ⟨hg.1.attended, hg.2⟩
  obtain ⟨hquiet, hkeeps⟩ := of_decide_eq_true hguard
  exact ⟨_, c, c', _, st, hruns, hstep, hends,
    abort_leaves_no_dataset _ _ c c' _ "pv1" st hruns ⟨hquiet.attended, hkeeps⟩ hstep hends⟩

end Pools

end ZfsEvacuation
