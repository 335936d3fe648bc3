import ZfsEvacuation.AttemptRecord

/-!
# Stale views and the live relay

A relay is registered in memory before its attempt is recorded, so a reconcile may start from
a view that is older than the relay. It leaves the relay alone as long as its view does not
judge the older attempt already.
-/
namespace ZfsEvacuation
open ClientProgram Program GuardedRun

/-- The number of the recorded attempt, zero before the first one. -/
def attemptOf (t : Option TransferStatus) : Nat := (t.map (·.attempt)).getD 0

/-- The attempt that a version of the evacuation records. -/
def recordedAttempt (v : Obj .evacuation) : Nat := attemptOf (viewStatus v).transfer

theorem recordedAttempt_congr {v v' : Obj .evacuation} (h : statusOf v' = statusOf v) :
    recordedAttempt v' = recordedAttempt v := by
  rw [recordedAttempt, viewStatus_congr h, recordedAttempt]

theorem attemptOf_some {o : Option TransferStatus} {t : TransferStatus} (h : o = some t) :
    attemptOf o = t.attempt := by
  rw [h]
  rfl

theorem NextAttempt.eq_succ {view : Obj .evacuation} {st : ZFSEvacuationStatus} {k : Nat}
    (h : NextAttempt view st k) : k = attemptOf st.transfer + 1 := by
  unfold NextAttempt at h
  split at h
  · rename_i hnone
    rw [h, hnone]
    rfl
  · rename_i t hsome
    rw [h.1, attemptOf_some hsome]

/-- A status write keeps the number of the attempt, or takes that of a relay that the
reconcile has registered. -/
theorem Writes.attempt {cfg : Config} {view : Obj .evacuation} {tr : Trace}
    {st w : ZFSEvacuationStatus} (h : Writes cfg view tr st w) :
    attemptOf w.transfer = attemptOf st.transfer ∨
      Registered view.name tr (attemptOf w.transfer) := by
  cases h with
  | attempted attempt snapName ports startedAt msg hp hs ht gone turn registered =>
    exact .inr registered
  | attemptFailing reason msg hp =>
    refine .inl ?_
    cases st.transfer <;> rfl
  | exhausted reason msg hp =>
    refine .inl ?_
    cases st.transfer <;> rfl
  | snapDeleteIssued hp =>
    refine .inl ?_
    cases st.transfer <;> rfl
  | copied t bytes bkp rst hp _ ht _ _ _ _ => exact .inl (attemptOf_some ht).symm
  | progressed t bytes hp ht => exact .inl (attemptOf_some ht).symm
  | _ => exact .inl rfl

theorem Registered.cons {evac : String} {tr : Trace} {k : Nat} {e : Event kubeInterface}
    (h : Registered evac tr k) : Registered evac (e :: tr) k :=
  h.imp fun _ hmem => List.mem_cons_of_mem _ hmem

theorem Registered.of_cons {evac : String} {tr : Trace} {k : Nat} {e : Event kubeInterface}
    (h : Registered evac (e :: tr) k) (he : registersRelay e.1 = false) : Registered evac tr k := by
  obtain ⟨relay, hmem⟩ := h
  rcases List.mem_cons.mp hmem with rfl | hold
  · cases he
  · exact ⟨relay, hold⟩

theorem Unregistered.not_registered {evac : String} {tr : Trace} {k : Nat} (h : Unregistered tr) :
    ¬ Registered evac tr k := by
  rintro ⟨relay, hmem⟩
  cases h _ hmem

namespace World

/-- The surroundings count what a relay forwards, they do not change which one it is. -/
theorem transfers_env (w : World) (e : EnvAction) (n : String) :
    ((w.env e).transfers.get n).map (·.attempt) = (w.transfers.get n).map (·.attempt) := by
  cases e with
  | create k o =>
    simp only [env, create]
    split <;> rfl
  | update k o =>
    simp only [env]
    split
    · rfl
    · rw [transfers_update]
  | delete k key =>
    simp only [env, delete]
    split
    · rfl
    · split_ifs
      · rfl
      · rw [transfers_update]
  | tick nanos => rfl
  | relay evac relay =>
    simp only [env]
    split
    · rfl
    · rename_i t hget
      have hevac : t.evac = evac := KeyedStore.get_key hget
      rw [KeyedStore.get_put]
      split_ifs with hn
      · have heq : evac = n := hevac.symm.trans hn
        rw [← heq, hget]
        rfl
      · rfl

end World

namespace System
variable {cfg : Config} {s s' : System} {a : SysAction} {n : String} {m : Nat}

/-- The next step registers a relay for this attempt. -/
def StartsAttempt (n : String) (k : Nat) (s : System) (a : SysAction) : Prop :=
  ∃ name o r t next, a = .call name o ∧ s.running.get name = some r ∧
    r.prog = .call (.transferInsert t) next ∧ t.evac = n ∧ t.attempt = k

/-- How one step changes which relay is registered for the evacuation. -/
inductive RelayStep (cfg : Config) (s s' : System) (n : String) : SysAction → Prop
  | kept (a : SysAction)
      (same : (s'.world.transfers.get n).map (·.attempt) =
        (s.world.transfers.get n).map (·.attempt)) : RelayStep cfg s s' n a
  | started (o : Outcome) (r : Running) (t : ActiveTransfer) (next : Unit → M Action)
      (running : s.running.get n = some r) (prog : r.prog = .call (.transferInsert t) next)
      (own : t.evac = n) (eq : s'.world = s.world.effect (.transferInsert t)) :
      RelayStep cfg s s' n (.call n o)
  | dropped (o : Outcome) (r : Running) (next : Unit → M Action)
      (running : s.running.get n = some r) (prog : r.prog = .call (.transferRemove n) next)
      (gone : s'.world.transfers.get n = none) : RelayStep cfg s s' n (.call n o)
  | lost (idle : s'.running.get n = none) (gone : s'.world.transfers.get n = none) :
      RelayStep cfg s s' n .crash

theorem relay_step (hc : Contracted cfg s) (h : step cfg s a = some s') :
    RelayStep cfg s s' n a := by
  cases step_cases h with
  | env e => exact .kept _ (World.transfers_env s.world e n)
  | start name version view _ _ _ _ => exact .kept _ rfl
  | crash => exact .lost rfl rfl
  | call name o r c next hr hprog _ =>
    have hallowed := hc.allowed hr hprog
    have hname := name_of_running hr
    have heffect := World.transfers_effect s.world c
    rcases World.after_cases s.world o c with ⟨heq, -⟩ | heq
    · exact .kept _ (by rw [world_proceed, heq])
    · by_cases hown : name = n
      · subst hown
        cases c with
        | transferInsert t => exact .started o r t next hr hprog (hallowed.own.trans hname) heq
        | transferRemove evac =>
          obtain rfl : evac = name := hallowed.1.trans hname
          refine .dropped o r next hr hprog ?_
          rw [world_proceed, heq, heffect]
          simp only [KeyedStore.get_erase, if_pos]
        | _ => exact .kept _ (by rw [world_proceed, heq, heffect])
      · refine .kept _ ?_
        rw [world_proceed, heq, heffect]
        cases c with
        | transferInsert t =>
          have hother : t.evac ≠ n := fun hn => hown (hname.symm.trans (hallowed.own.symm.trans hn))
          simp only [KeyedStore.get_put, if_neg hother]
        | transferRemove evac =>
          have hother : evac ≠ n := fun hn => hown (hname.symm.trans (hallowed.1.symm.trans hn))
          simp only [KeyedStore.get_erase, if_neg hother]
        | _ => rfl

/-- The steps of a transfer that is not aborted, where nobody else creates its resources. The
views may be as old as the system lets them be. -/
def TransferOn (cfg : Config) (n : String) (s : System) (a : SysAction) : Prop :=
  KeepsEvacs s a ∧ OwnCrs cfg n a ∧ match a with
    | .start name version => name = n → ∀ view, s.world.versions[version]? = some view →
      entersAbort view = false
    | _ => True

/-- The view has not judged its attempt if a newer relay is registered, and is of the latest
attempt if none is. -/
def FitsRelay (n : String) (w : World) (view : Obj .evacuation) : Prop :=
  match w.transfers.get n with
  | some t => recordedAttempt view < t.attempt →
    ∀ x, (viewStatus view).transfer = some x → x.failureReason = none
  | none => ∀ v ∈ w.versions, v.name = n → recordedAttempt v ≤ recordedAttempt view

/-- The steps of a transfer whose stale views cannot hurt a live relay. A crash only takes a
relay whose attempt is recorded. -/
def KeepsRelay (cfg : Config) (n : String) (s : System) (a : SysAction) : Prop :=
  TransferOn cfg n s a ∧ match a with
    | .start name version => name = n → ∀ view, s.world.versions[version]? = some view →
      (viewStatus view).phase = .transferring → FitsRelay n s.world view
    | .crash => ∀ t, s.world.transfers.get n = some t →
      ∃ v ∈ s.world.versions, v.name = n ∧ recordedAttempt v = t.attempt
    | _ => True

/-- What a reconcile may still do about the relay, when `m` is the latest attempt. -/
inductive RelayMode (cfg : Config) (n : String) (m : Nat) (s : System) (r : Running) : Prop
  | elsewhere (phase : (viewStatus r.view).phase ≠ .transferring) (first : Unregistered r.trace)
  | behind (older : recordedAttempt r.view < m) (live : s.world.transfers.get n ≠ none)
      (unjudged : ∀ x, (viewStatus r.view).transfer = some x → x.failureReason = none)
      (first : Unregistered r.trace)
      (saw : ∀ x, sawTransferEvent n x ∈ r.trace → ∃ t, x = some t ∧ t.attempt = m)
      (crs : ∀ (cr : TransferCr) o,
        sawEvent cr.kind (cr.key cfg n (recordedAttempt r.view)) (some o) ∉ r.trace)
  | level (same : recordedAttempt r.view = m) (first : Unregistered r.trace)
  | started (busy : ¬ Unregistered r.trace) (only : ∀ k, Registered n r.trace k → k = m)
      (positive : 0 < m)

structure Attempting (cfg : Config) (n : String) (m : Nat) (s : System) (r : Running) :
    Prop where
  proceeds : entersAbort r.view = false
  older : recordedAttempt r.view ≤ m
  known : ∀ st, Knows r.view r.trace st → attemptOf st.transfer = recordedAttempt r.view ∨
    Registered n r.trace (attemptOf st.transfer)
  saw : ∀ t, sawTransferEvent n (some t) ∈ r.trace → 0 < t.attempt
  mode : RelayMode cfg n m s r

/-- The latest attempt of the evacuation, and what is left of the ones before it. -/
structure LatestAttempt (cfg : Config) (n : String) (m : Nat) (s : System) : Prop where
  live : ∀ t, s.world.transfers.get n = some t → t.attempt = m ∧ 0 < m
  recorded : ∀ v ∈ s.world.versions, v.name = n → recordedAttempt v ≤ m
  persisted : s.world.transfers.get n = none → m = 0 ∨
    ∃ v ∈ s.world.versions, v.name = n ∧ recordedAttempt v = m
  crs : ∀ k cr, HasCr cfg s n k cr → k = m ∧ 0 < k
  gone : GoneSeen cfg n s
  working : ∀ r, s.running.get n = some r → Attempting cfg n m s r

theorem latest_init : LatestAttempt cfg n 0 init := by
  constructor
  · intro t h
    cases h
  · intro v hv
    cases hv
  · intro _
    exact .inl rfl
  · intro k cr h
    exact absurd (by cases cr <;> rfl) h
  · intro r k cr hr
    cases hr
  · intro r hr
    cases hr

theorem RelayMode.registered {r : Running} (h : RelayMode cfg n m s r) {k : Nat}
    (hk : Registered n r.trace k) : k = m ∧ 0 < m := by
  cases h with
  | elsewhere _ first => exact absurd hk first.not_registered
  | behind _ _ _ first _ _ => exact absurd hk first.not_registered
  | level _ first => exact absurd hk first.not_registered
  | started _ only positive => exact ⟨only k hk, positive⟩

/-- Only a reconcile whose view is of the latest attempt drops the relay. -/
theorem drop_level {r : Running} (h : Attempting cfg n m s r) (hn : r.view.name = n)
    (hd : MayDrop cfg r.view r.trace) : recordedAttempt r.view = m := by
  subst hn
  rcases hd with habort | ⟨hphase, hfirst, t, ht, hreason⟩
  · rw [h.proceeds] at habort
    cases habort
  · have hattempt : recordedAttempt r.view = t.attempt := attemptOf_some ht
    cases h.mode with
    | elsewhere phase _ => exact absurd hphase phase
    | level same _ => exact same
    | started busy _ _ => exact absurd hfirst busy
    | behind older live unjudged first saw crs =>
      cases hreason with
      | judged hjudged =>
        rw [unjudged t ht] at hjudged
        cases hjudged
      | backup bkp seen => exact absurd (hattempt ▸ seen) (crs .backup bkp)
      | restore rst seen => exact absurd (hattempt ▸ seen) (crs .restore rst)
      | notNewer x seen hle =>
        obtain ⟨t', rfl, ht'⟩ := saw x seen
        have hbound := hle t' rfl
        omega

/-- A relay is only registered from a view of the latest attempt, for the one after it. -/
theorem register_level {r : Running} {t : ActiveTransfer} (h : Attempting cfg n m s r)
    (hn : r.view.name = n) (ht : MayRegister cfg r.view r.trace t) :
    recordedAttempt r.view = m ∧ t.attempt = m + 1 := by
  subst hn
  have hnext : t.attempt = recordedAttempt r.view + 1 := ht.turn.eq_succ
  cases h.mode with
  | elsewhere phase _ => exact absurd ht.phase phase
  | level same _ => exact ⟨same, by omega⟩
  | started busy _ _ => exact absurd ht.first busy
  | behind older live unjudged first saw crs =>
    obtain ⟨x, hseen, hbehind⟩ := ht.behind
    obtain ⟨t', rfl, ht'⟩ := saw x hseen
    have hlt := hbehind t' rfl
    omega

theorem Attempting.attempt_le {r : Running} (h : Attempting cfg n m s r)
    {st : ZFSEvacuationStatus} (hk : Knows r.view r.trace st) : attemptOf st.transfer ≤ m := by
  rcases h.known st hk with heq | hreg
  · rw [heq]
    exact h.older
  · exact Nat.le_of_eq (h.mode.registered hreg).1

/-- The resources that the reconcile creates are those of the latest attempt. -/
theorem created_latest (hc : Contracted cfg s) (hx : LatestAttempt cfg n m s)
    (hown : OwnCrs cfg n a) (h : step cfg s a = some s') {cr : TransferCr} {k : Nat}
    (hnone : ¬ HasCr cfg s n k cr) (hsome : HasCr cfg s' n k cr) : k = m ∧ 0 < k := by
  obtain ⟨r, o, c, next, st, t, rfl, hr, hprog, hcreates, hknows, ht, hk, hready⟩ :=
    cr_created hc hown h hnone hsome
  have hw := hx.working r hr
  have hname := name_of_running hr
  subst hname
  cases cr with
  | backup =>
    obtain ⟨heq, hpos⟩ := hw.mode.registered hready
    omega
  | restore =>
    obtain ⟨⟨t', hseen, ht', -⟩, hfirst, hwrote, hphase⟩ := hready
    have hpos := hw.saw t' hseen
    have hst : st = viewStatus r.view := by rw [← hknows.eq, hwrote, Option.getD_none]
    have hview : recordedAttempt r.view = t.attempt := attemptOf_some (hst ▸ ht)
    have hstatus : r.status = viewStatus r.view := by rw [Running.status, hwrote, Option.getD_none]
    cases hw.mode with
    | elsewhere phase _ => exact absurd (hstatus ▸ hphase) phase
    | behind older live unjudged first saw crs =>
      obtain ⟨t'', heq, hm⟩ := saw (some t') hseen
      obtain rfl := Option.some.inj heq
      omega
    | level same _ => omega
    | started busy _ _ => exact absurd hfirst busy

theorem crs_step (hc : Contracted cfg s) (hx : LatestAttempt cfg n m s) (hown : OwnCrs cfg n a)
    (h : step cfg s a = some s') {k : Nat} {cr : TransferCr} (hsome : HasCr cfg s' n k cr) :
    k = m ∧ 0 < k := by
  by_cases hbefore : HasCr cfg s n k cr
  · exact hx.crs k cr hbefore
  · exact created_latest hc hx hown h hbefore hsome

theorem recordedAttempt_born (o : Obj .evacuation) (h : statusOf o = none) (uid revision : Nat) :
    recordedAttempt ((o.born uid).stamped revision) = 0 := by
  have hstatus : statusOf ((o.born uid).stamped revision) = none := h
  rw [recordedAttempt, viewStatus, hstatus]
  rfl

theorem latest_recorded_step (hg : Grounded cfg s) (hx : LatestAttempt cfg n m s)
    (hl : KeepsEvacs s a) (h : step cfg s a = some s') {v : Obj .evacuation}
    (hv : v ∈ s'.world.versions) (hn : v.name = n) : recordedAttempt v ≤ m := by
  rcases new_version hg hl h hv with hold | hget
  · exact hx.recorded v hold hn
  · rw [hn] at hget
    rcases evac_step hg.contracted hl h hget with ⟨e, he, rfl | hstep⟩ | ⟨-, o, rfl, rfl, -⟩
    · exact hx.recorded v (hg.recorded.stored _ v he) hn
    · have hbefore := hx.recorded e (hg.recorded.stored _ e he) (evac_key_name he).2
      cases hstep with
      | edited _ status _ _ _ =>
        rw [recordedAttempt_congr status]
        exact hbefore
      | signed _ _ _ _ _ _ _ _ status _ _ =>
        rw [recordedAttempt_congr status]
        exact hbefore
      | wrote r o st w next _ hr hprog hknows hwrites status _ _ =>
        have hw := hx.working r hr
        have hcore : (viewStatus v).core = w.core := by
          rw [viewStatus, status, Option.getD_some]
          exact core_mergeStatus _ _
        rw [recordedAttempt, transfer_congr hcore]
        rcases hwrites.attempt with hsame | hreg
        · rw [hsame]
          exact hw.attempt_le hknows
        · rw [name_of_running hr] at hreg
          exact Nat.le_of_eq (hw.mode.registered hreg).1
    · rw [recordedAttempt_born o hl.2.1]
      exact Nat.zero_le m

/-- No relay is registered for the evacuation in this step. -/
def StartsNone (n : String) (s : System) (a : SysAction) : Prop := ∀ k, ¬ StartsAttempt n k s a

theorem live_step (hc : Contracted cfg s) (hx : LatestAttempt cfg n m s) (hnew : StartsNone n s a)
    (h : step cfg s a = some s') {t : ActiveTransfer}
    (ht : s'.world.transfers.get n = some t) : t.attempt = m ∧ 0 < m := by
  cases relay_step (n := n) hc h with
  | kept _ same =>
    rw [ht, Option.map_some, eq_comm, Option.map_eq_some_iff] at same
    obtain ⟨t₀, ht₀, heq⟩ := same
    rw [← heq]
    exact hx.live t₀ ht₀
  | started o r t' next hr hprog hown _ =>
    exact absurd ⟨n, o, r, t', next, rfl, hr, hprog, hown, rfl⟩ (hnew t'.attempt)
  | dropped _ _ _ _ _ gone =>
    rw [gone] at ht
    cases ht
  | lost _ gone =>
    rw [gone] at ht
    cases ht

theorem drop_allowed (hc : Contracted cfg s) (hx : LatestAttempt cfg n m s) {r : Running}
    {next : Unit → M Action} (hr : s.running.get n = some r)
    (hprog : r.prog = .call (.transferRemove n) next) : recordedAttempt r.view = m := by
  have hallowed := hc.allowed hr hprog
  exact drop_level (hx.working r hr) (name_of_running hr) hallowed.2

theorem persisted_step (hg : Grounded cfg s) (hx : LatestAttempt cfg n m s)
    (hk : KeepsRelay cfg n s a) (hnew : StartsNone n s a) (h : step cfg s a = some s')
    (hnone : s'.world.transfers.get n = none) :
    m = 0 ∨ ∃ v ∈ s'.world.versions, v.name = n ∧ recordedAttempt v = m := by
  have hlater : (∃ v ∈ s.world.versions, v.name = n ∧ recordedAttempt v = m) →
      ∃ v ∈ s'.world.versions, v.name = n ∧ recordedAttempt v = m := by
    rintro ⟨v, hv, hrest⟩
    exact ⟨v, versions_step h hv, hrest⟩
  cases relay_step (n := n) hg.contracted h with
  | kept _ same =>
    rw [hnone, Option.map_none, eq_comm, Option.map_eq_none_iff] at same
    exact (hx.persisted same).imp id hlater
  | started o r t' next hr hprog hown _ =>
    exact absurd ⟨n, o, r, t', next, rfl, hr, hprog, hown, rfl⟩ (hnew t'.attempt)
  | dropped o r next hr hprog _ =>
    have hlevel := drop_allowed hg.contracted hx hr hprog
    exact .inr (hlater ⟨r.view, hg.recorded.views n r hr, name_of_running hr, hlevel⟩)
  | lost _ _ =>
    cases hget : s.world.transfers.get n with
    | none => exact (hx.persisted hget).imp id hlater
    | some t =>
      obtain ⟨v, hv, hn, hattempt⟩ := hk.2 t hget
      exact .inr (hlater ⟨v, hv, hn, hattempt.trans (hx.live t hget).1⟩)

/-- A reconcile starts without anything registered. -/
theorem attempting_start (hx : LatestAttempt cfg n m s) {version : Nat} {view : Obj .evacuation}
    (hk : KeepsRelay cfg n s (.start n version)) (hv : s.world.versions[version]? = some view)
    (hn : view.name = n) (hworld : s'.world = s.world) :
    Attempting cfg n m s' { view, prog := reconcile cfg view } := by
  have hproceeds := hk.1.2.2 rfl view hv
  have hmem : view ∈ s.world.versions := List.mem_of_getElem? hv
  have holder := hx.recorded view hmem hn
  refine ⟨hproceeds, holder, ?_, ?_, ?_⟩
  · intro st hknows
    exact .inl (congrArg (fun st => attemptOf st.transfer) hknows.eq.symm)
  · intro t ht
    cases ht
  · by_cases hphase : (viewStatus view).phase = .transferring
    · have hcond := hk.2 rfl view hv hphase
      unfold FitsRelay at hcond
      cases hget : s.world.transfers.get n with
      | none =>
        rw [hget] at hcond
        refine .level ?_ unregistered_nil
        rcases hx.persisted hget with rfl | ⟨v, hvm, hvn, hvk⟩
        · exact Nat.le_zero.mp holder
        · have hle := hcond v hvm hvn
          exact Nat.le_antisymm holder (hvk ▸ hle)
      | some t =>
        rw [hget] at hcond
        have hlive := hx.live t hget
        rcases Nat.lt_or_eq_of_le holder with hlt | heq
        · have hlive' : s'.world.transfers.get n ≠ none := by
            rw [hworld, hget]
            simp
          refine .behind hlt hlive' (hcond (hlive.1.symm ▸ hlt)) unregistered_nil ?_ ?_
          · intro x hmem
            cases hmem
          · intro cr o hmem
            cases hmem
        · exact .level heq unregistered_nil
    · exact .elsewhere hphase unregistered_nil

/-- While a reconcile is behind the relay, nobody takes the relay down. -/
theorem live_behind (hc : Contracted cfg s) (hx : LatestAttempt cfg n m s)
    (hnew : StartsNone n s a) (h : step cfg s a = some s') {r r' : Running}
    (hr : s.running.get n = some r) (holder : recordedAttempt r.view < m)
    (hr' : s'.running.get n = some r') (hlive : s.world.transfers.get n ≠ none) :
    s'.world.transfers.get n ≠ none := by
  intro hnone
  cases relay_step (n := n) hc h with
  | kept _ same =>
    rw [hnone, Option.map_none, eq_comm, Option.map_eq_none_iff] at same
    exact hlive same
  | started o r₁ t' next hr₁ hprog hown _ =>
    exact absurd ⟨n, o, r₁, t', next, rfl, hr₁, hprog, hown, rfl⟩ (hnew t'.attempt)
  | dropped o r₁ next hr₁ hprog _ =>
    obtain rfl : r = r₁ := Option.some.inj (hr.symm.trans hr₁)
    have hlevel := drop_allowed hc hx hr hprog
    omega
  | lost idle _ =>
    rw [idle] at hr'
    cases hr'

theorem attempting_kept (hc : Contracted cfg s) (hx : LatestAttempt cfg n m s)
    (hnew : StartsNone n s a) (h : step cfg s a = some s') {r : Running}
    (hr : s.running.get n = some r) (hr' : s'.running.get n = some r) :
    Attempting cfg n m s' r := by
  have hw := hx.working r hr
  refine ⟨hw.proceeds, hw.older, hw.known, hw.saw, ?_⟩
  cases hw.mode with
  | elsewhere phase first => exact .elsewhere phase first
  | behind older live unjudged first saw crs =>
    exact .behind older (live_behind hc hx hnew h hr older hr' live) unjudged first saw crs
  | level same first => exact .level same first
  | started busy only positive => exact .started busy only positive

theorem registers_none (hc : Contracted cfg s) {name : String} {o : Outcome} {r : Running}
    {c : Call} {next : c.Resp → M Action} (hr : s.running.get name = some r)
    (hprog : r.prog = .call c next) (hnew : StartsNone name s (.call name o)) :
    registersRelay c = false := by
  have hallowed := hc.allowed hr hprog
  cases c with
  | transferInsert t =>
    have hown : t.evac = name := hallowed.own.trans (name_of_running hr)
    exact absurd ⟨name, o, r, t, next, rfl, hr, hprog, hown, rfl⟩ (hnew t.attempt)
  | _ => rfl

/-- What is known of the status after a call other than a new relay. -/
theorem known_called (hc : Contracted cfg s) (hx : LatestAttempt cfg n m s) {r : Running}
    {c : Call} {next : c.Resp → M Action} (hr : s.running.get n = some r)
    (hprog : r.prog = .call c next) {x : c.Resp} {st : ZFSEvacuationStatus}
    (hk : Knows r.view (⟨c, x⟩ :: r.trace) st) :
    attemptOf st.transfer = recordedAttempt r.view ∨
      Registered n (⟨c, x⟩ :: r.trace) (attemptOf st.transfer) := by
  have hw := hx.working r hr
  cases hwrite : statusWrite c with
  | none => exact (hw.known st (hk.of_cons hwrite)).imp id Registered.cons
  | some w =>
    obtain ⟨key, rfl⟩ := statusWrite_some hwrite
    obtain ⟨st₀, hk₀, -, hwrites⟩ := hc.allowed hr hprog
    obtain rfl : st = w := hk.of_write.1
    rcases hwrites.attempt with hsame | hreg
    · rw [hsame]
      exact (hw.known st₀ hk₀).imp id Registered.cons
    · rw [name_of_running hr] at hreg
      exact .inr hreg.cons

theorem saw_called {o : Outcome} {c : Call} {tr : Trace}
    {x : Option ActiveTransfer}
    (hmem : sawTransferEvent n x ∈ (⟨c, s.world.answer o c⟩ :: tr : Trace)) :
    x = s.world.transfers.get n ∨ sawTransferEvent n x ∈ tr := by
  rcases List.mem_cons.mp hmem with heq | hold
  · obtain rfl : Call.transferGet n = c := congrArg Sigma.fst heq
    exact .inl (eq_of_heq (Sigma.mk.inj heq).2)
  · exact .inr hold

theorem attempting_called (hc : Contracted cfg s) (hx : LatestAttempt cfg n m s) {o : Outcome}
    (hnew : StartsNone n s (.call n o)) (h : step cfg s (.call n o) = some s') {r r' : Running}
    {c : Call} {next : c.Resp → M Action} (hr : s.running.get n = some r)
    (hprog : r.prog = .call c next) (hr' : s'.running.get n = some r')
    (heq : r' = { r with trace := ⟨c, s.world.answer o c⟩ :: r.trace
                         prog := next (s.world.answer o c) }) : Attempting cfg n m s' r' := by
  have hw := hx.working r hr
  have hregisters : registersRelay c = false := registers_none hc hr hprog hnew
  subst heq
  refine ⟨hw.proceeds, hw.older, ?_, ?_, ?_⟩
  · intro st hk
    exact known_called hc hx hr hprog hk
  · intro t ht
    rcases saw_called ht with hnow | hold
    · obtain ⟨heq, hpos⟩ := hx.live t hnow.symm
      omega
    · exact hw.saw t hold
  · cases hw.mode with
    | elsewhere phase first => exact .elsewhere phase (first.cons hregisters)
    | level same first => exact .level same (first.cons hregisters)
    | started busy only positive =>
      refine .started ?_ ?_ positive
      · intro hfirst
        exact busy fun e he => hfirst e (List.mem_cons_of_mem _ he)
      · intro k hk
        exact only k (hk.of_cons hregisters)
    | behind older live unjudged first saw crs =>
      refine .behind older (live_behind hc hx hnew h hr older hr' live) unjudged
        (first.cons hregisters) ?_ ?_
      · intro x hmem
        rcases saw_called hmem with hnow | hold
        · obtain ⟨t, ht⟩ := Option.ne_none_iff_exists'.mp live
          exact ⟨t, hnow.trans ht, (hx.live t ht).1⟩
        · exact saw x hold
      · intro cr x hmem
        rcases List.mem_cons.mp hmem with hnow | hold
        · obtain rfl : Call.get cr.kind (cr.key cfg n (recordedAttempt r.view)) = c :=
            congrArg Sigma.fst hnow
          have hget := answer_get hnow.symm
          have hlatest := (hx.crs (recordedAttempt r.view) cr (by rw [HasCr, hget]; simp)).1
          omega
        · exact crs cr x hold

theorem latest_kept (hg : Grounded cfg s) (hx : LatestAttempt cfg n m s)
    (hk : KeepsRelay cfg n s a) (hnew : StartsNone n s a) (h : step cfg s a = some s') :
    LatestAttempt cfg n m s' := by
  have hc := hg.contracted
  refine ⟨fun t ht => live_step hc hx hnew h ht,
    fun v hv hn => latest_recorded_step hg hx hk.1.1 h hv hn,
    persisted_step hg hx hk hnew h, fun k cr => crs_step hc hx hk.1.2.1 h,
    gone_step hc hx.gone hk.1.2.1 h, ?_⟩
  intro r' hr'
  cases running_step h hr' with
  | kept _ running other => exact attempting_kept hc hx hnew h running hr'
  | started version idle stored named eq =>
    rw [eq]
    cases step_cases h with
    | start _ _ view _ hstored _ _ => exact attempting_start hx hk stored named rfl
  | called o r c next running prog free eq =>
    exact attempting_called hc hx hnew h running prog hr' eq

/-- Before a relay is registered, the resources of the attempt before are gone. -/
theorem no_crs (hx : LatestAttempt cfg n m s) {r : Running} {t : ActiveTransfer}
    (hr : s.running.get n = some r) (ht : MayRegister cfg r.view r.trace t) (k : Nat)
    (cr : TransferCr) : ¬ HasCr cfg s n k cr := by
  intro hsome
  obtain ⟨rfl, hpos⟩ := hx.crs k cr hsome
  have hname := name_of_running hr
  have hlevel := (register_level (hx.working r hr) hname ht).1
  subst hname
  cases hrec : (viewStatus r.view).transfer with
  | none =>
    rw [recordedAttempt, hrec] at hlevel
    have hzero : 0 = k := hlevel
    omega
  | some x =>
    have hx' : recordedAttempt r.view = x.attempt := attemptOf_some hrec
    rw [← hlevel, hx'] at hsome
    cases cr with
    | backup => exact hx.gone r _ .backup hr ht.gone.quiet (ht.gone.bkp x hrec) hsome
    | restore => exact hx.gone r _ .restore hr ht.gone.quiet (ht.gone.rst x hrec) hsome

theorem attempting_started (hx : LatestAttempt cfg n m s) {r : Running} {t : ActiveTransfer}
    {x : Unit} {prog : M Action} (hr : s.running.get n = some r)
    (ht : MayRegister cfg r.view r.trace t) :
    Attempting cfg n (m + 1) s' { r with trace := ⟨.transferInsert t, x⟩ :: r.trace, prog } := by
  have hw := hx.working r hr
  obtain ⟨hlevel, hnext⟩ := register_level hw (name_of_running hr) ht
  refine ⟨hw.proceeds, Nat.le_succ_of_le hw.older, ?_, ?_, .started ?_ ?_ (Nat.succ_pos m)⟩
  · intro st hk
    exact (hw.known st (hk.of_cons rfl)).imp id Registered.cons
  · intro t' hmem
    rcases List.mem_cons.mp hmem with heq | hold
    · have hcall := congrArg Sigma.fst heq
      cases hcall
    · exact hw.saw t' hold
  · intro hfirst
    cases hfirst _ (List.mem_cons_self ..)
  · rintro k ⟨relay, hmem⟩
    rcases List.mem_cons.mp hmem with heq | hold
    · have hcall : Call.transferInsert ⟨n, k, relay⟩ = .transferInsert t := congrArg Sigma.fst heq
      obtain rfl := Call.transferInsert.inj hcall
      exact hnext
    · exact absurd ⟨relay, hold⟩ ht.first.not_registered

/-- Each attempt that is started is the one after the latest. -/
theorem latest_started (hg : Grounded cfg s) (hx : LatestAttempt cfg n m s)
    (hk : KeepsRelay cfg n s a) (h : step cfg s a = some s') {k : Nat}
    (hnew : StartsAttempt n k s a) : k = m + 1 ∧ LatestAttempt cfg n (m + 1) s' := by
  obtain ⟨name, o, r, t, next, rfl, hr, hprog, hown, rfl⟩ := hnew
  have hallowed : MayRegister cfg r.view r.trace t := hg.contracted.allowed hr hprog
  obtain rfl : n = name := hown.symm.trans (hallowed.own.trans (name_of_running hr))
  obtain ⟨hlevel, hnext⟩ := register_level (hx.working r hr) (name_of_running hr) hallowed
  have hworld : s'.world = { s.world with transfers := s.world.transfers.put t } := by
    cases step_cases h with
    | call _ _ r₁ c next₁ hr₁ hprog₁ _ =>
      obtain rfl : r = r₁ := Option.some.inj (hr.symm.trans hr₁)
      rw [hprog] at hprog₁
      cases hprog₁
      rw [world_proceed]
      rcases World.after_cases s.world o (.transferInsert t) with ⟨-, -, hremote⟩ | heq
      · cases hremote
      · exact heq
  have hget : s'.world.transfers.get n = some t := by
    rw [hworld]
    simp only [KeyedStore.get_put, hown, if_pos]
  refine ⟨hnext, ?_, ?_, ?_, ?_, gone_step hg.contracted hx.gone hk.1.2.1 h, ?_⟩
  · intro t' ht'
    obtain rfl : t = t' := Option.some.inj (hget.symm.trans ht')
    exact ⟨hnext, Nat.succ_pos m⟩
  · intro v hv hn
    rw [hworld] at hv
    exact Nat.le_succ_of_le (hx.recorded v hv hn)
  · intro hnone
    rw [hget] at hnone
    cases hnone
  · intro k cr hsome
    rw [HasCr, hworld] at hsome
    exact absurd hsome (no_crs hx hr hallowed k cr)
  · intro r' hr'
    cases running_step h hr' with
    | kept _ _ other => exact absurd rfl (other o)
    | called _ r₁ c next₁ hr₁ hprog₁ _ heq =>
      obtain rfl : r = r₁ := Option.some.inj (hr.symm.trans hr₁)
      rw [hprog] at hprog₁
      cases hprog₁
      rw [heq]
      exact attempting_started hx hr hallowed

/-- The attempts that were started on the way to a state are numbered up to the latest. -/
def Numbered (cfg : Config) (n : String) (as : List SysAction) (s : System) : Prop :=
  ∃ m, LatestAttempt cfg n m s ∧
    ∀ k, Happened (step cfg) init (StartsAttempt n k) as → k ≤ m

theorem numbered_step {as : List SysAction} (hg : Grounded cfg s)
    (hrun : runList (step cfg) init as = some s) (hx : Numbered cfg n as s)
    (hk : KeepsRelay cfg n s a) (h : step cfg s a = some s') : Numbered cfg n (as ++ [a]) s' := by
  obtain ⟨m, hlatest, hpast⟩ := hx
  by_cases hnew : ∃ k, StartsAttempt n k s a
  · obtain ⟨k, hk'⟩ := hnew
    obtain ⟨rfl, hlatest'⟩ := latest_started hg hlatest hk h hk'
    refine ⟨m + 1, hlatest', fun j hj => ?_⟩
    rcases hj.last hrun with hbefore | hnow
    · exact Nat.le_succ_of_le (hpast j hbefore)
    · exact Nat.le_of_eq (latest_started hg hlatest hk h hnow).1
  · have hnone : StartsNone n s a := fun k hk' => hnew ⟨k, hk'⟩
    refine ⟨m, latest_kept hg hlatest hk hnone h, fun j hj => ?_⟩
    rcases hj.last hrun with hbefore | hnow
    · exact hpast j hbefore
    · exact absurd hnow (hnone j)

theorem numbered_run {as : List SysAction} (h : Run (step cfg) (KeepsRelay cfg n) init as s) :
    Numbered cfg n as s := by
  have hinit : Numbered cfg n [] init := by
    refine ⟨0, latest_init, ?_⟩
    rintro k ⟨bs, b, cs, t, heq, -⟩
    simp at heq
  refine h.invariant_past hinit ?_
  intro as s a s' hrun hx hk hstep
  have hg : Grounded cfg s := grounded_run (fun _ _ hk => hk.1.1) hrun
  exact numbered_step hg hrun.runList_eq hx hk hstep

/-- The call takes the relay of the evacuation down, or puts another one in its place. -/
def EndsRelay (n : String) : Call → Prop
  | .transferRemove evac => evac = n
  | .transferInsert t => t.evac = n
  | _ => False

/-- What a reconcile may do to the live relay in a state that a run has led to. -/
structure RelaySpared (cfg : Config) (n : String) (as : List SysAction) (s : System) : Prop where
  spared : ∀ name r c next t, s.running.get name = some r → r.prog = .call c next →
    EndsRelay n c → s.world.transfers.get n = some t → t.attempt ≤ recordedAttempt r.view
  once : ∀ k a, Happened (step cfg) init (StartsAttempt n k) as → ¬ StartsAttempt n k s a

/-- Where the steps of a transfer are such, a relay that is newer than the view of a reconcile
is left alone by it, and no attempt is started twice. -/
theorem relay_spared (cfg : Config) (n : String) (as : List SysAction) (s : System)
    (h : Run (step cfg) (KeepsRelay cfg n) init as s) : RelaySpared cfg n as s := by
  have hg : Grounded cfg s := grounded_run (fun _ _ hk => hk.1.1) h
  obtain ⟨m, hx, hpast⟩ := numbered_run h
  constructor
  · intro name r c next t hr hprog hends ht
    have hallowed := hg.contracted.allowed hr hprog
    have hname := name_of_running hr
    obtain ⟨hm, -⟩ := hx.live t ht
    cases c with
    | transferRemove evac =>
      obtain rfl : name = n := hname.symm.trans (hallowed.1.symm.trans hends)
      have hlevel := drop_level (hx.working r hr) hname hallowed.2
      omega
    | transferInsert t' =>
      obtain rfl : name = n := hname.symm.trans (hallowed.own.symm.trans hends)
      obtain ⟨hlevel, -⟩ := register_level (hx.working r hr) hname hallowed
      omega
    | _ => exact hends.elim
  · rintro k a hbefore ⟨name, o, r, t, next, rfl, hr, hprog, hown, rfl⟩
    have hallowed : MayRegister cfg r.view r.trace t := hg.contracted.allowed hr hprog
    obtain rfl : n = name := hown.symm.trans (hallowed.own.trans (name_of_running hr))
    obtain ⟨-, hnext⟩ := register_level (hx.working r hr) (name_of_running hr) hallowed
    have hle := hpast t.attempt hbefore
    omega

/-- No step of the run is a crash, and nobody asks for the evacuation to be aborted. -/
def Uneventful (n : String) (s : System) (a : SysAction) : Prop :=
  KeepsEvacs s a ∧ NoCrs a ∧ match a with
    | .start name version => name = n → ∀ view, s.world.versions[version]? = some view →
      entersAbort view = false
    | .crash => False
    | _ => True

instance : Decidable (Uneventful n s a) := by
  unfold Uneventful
  rcases a with _ | _ | _ | _ <;> dsimp only <;> infer_instance

theorem Uneventful.transferOn (h : Uneventful n s a) : TransferOn cfg n s a := by
  refine ⟨h.1, h.2.1.ownCrs, ?_⟩
  have hmatch := h.2.2
  cases a with
  | start name version => exact hmatch
  | _ => trivial

instance (w : World) (view : Obj .evacuation) : Decidable (FitsRelay n w view) := by
  unfold FitsRelay
  split <;> infer_instance

def UneventfulFit (n : String) (s : System) (a : SysAction) : Prop :=
  Uneventful n s a ∧ match a with
    | .start name version => name = n → ∀ view, s.world.versions[version]? = some view →
      (viewStatus view).phase = .transferring → FitsRelay n s.world view
    | _ => True

instance : Decidable (UneventfulFit n s a) := by
  unfold UneventfulFit
  rcases a with _ | _ | _ | _ <;> dsimp only <;> infer_instance

theorem UneventfulFit.keepsRelay (h : UneventfulFit n s a) : KeepsRelay cfg n s a := by
  refine ⟨h.1.transferOn, ?_⟩
  have hfit := h.2
  have huneventful := h.1.2.2
  cases a with
  | start name version => exact hfit
  | crash => exact huneventful.elim
  | _ => trivial

/-- A second reconcile from the view before the first attempt, with its relay registered. -/
def staleStart : List SysAction :=
  Sample.toTransfer.take (Sample.toTransfer.length - 9) ++ Sample.reconcileOf "pv1" 8 2

theorem relay_spared_stale : ∃ as s, Run (step Sample.config) (KeepsRelay Sample.config "pv1")
    init as s ∧ ((s.world.transfers.get "pv1").map (·.attempt) = some 1 ∧
      (s.running.get "pv1").map (fun r => recordedAttempt r.view) = some 0) ∧
      RelaySpared Sample.config "pv1" as s := by
  obtain ⟨s, hrun, hs⟩ := Run.exists_of_runList
    (p := fun s : System => (s.world.transfers.get "pv1").map (·.attempt) = some 1 ∧
      (s.running.get "pv1").map (fun r => recordedAttempt r.view) = some 0)
    (show (runList (guarded (step Sample.config) (UneventfulFit "pv1")) init staleStart).any _ = true
      by decide +kernel)
  have hrun' : Run (step Sample.config) (KeepsRelay Sample.config "pv1") init _ s :=
    hrun.mono fun _ _ hk => hk.keepsRelay
  exact ⟨_, s, hrun', of_decide_eq_true hs, relay_spared _ _ _ s hrun'⟩

/-- The agent takes its finalizer off the first attempt's backup. -/
def backupReleased : SysAction :=
  .env (.update .zfsBackup ⟨{ ns := "openebs", name := "pv1-evac-a1" },
    ({ spec := ⟨"vol1", "n1", some "zevac-a1-0000", none, "10.0.0.9:1"⟩
       status := some bkpStatusFailed } : ZFSBackup)⟩)

/-- The first attempt fails, the second one starts, and a third reconcile starts from the view
that the second one started from. -/
def staleJudgement : List SysAction :=
  Sample.toTransfer ++
    [Sample.backupReport "pv1-evac-a1" "vol1" "n1" "zevac-a1-0000" bkpStatusFailed] ++
    Sample.reconcileOf "pv1" 9 12 ++ [backupReleased] ++ Sample.reconcileOf "pv1" 10 18 ++
    Sample.reconcileOf "pv1" 10 6

/-- The reconcile is about to take a newer relay down. -/
def takesNewer (s : System) : Bool :=
  match s.running.get "pv1", s.world.transfers.get "pv1" with
  | some r, some t =>
    (match r.prog with
      | .call (.transferRemove evac) _ => evac == "pv1"
      | _ => false) && decide (recordedAttempt r.view < t.attempt)
  | _, _ => false

/-- A stale view that has judged its attempt takes the relay of the next one down. -/
theorem not_relay_spared : ¬ ∀ as s, Run (step Sample.config) (TransferOn Sample.config "pv1")
    init as s → RelaySpared Sample.config "pv1" as s := by
  intro hall
  obtain ⟨s, hrun, hs⟩ := Run.exists_of_runList (p := takesNewer)
    (show (runList (guarded (step Sample.config) (Uneventful "pv1")) init staleJudgement).any _ =
      true by decide +kernel)
  have hspared := hall _ s (hrun.mono fun _ _ hk => hk.transferOn)
  unfold takesNewer at hs
  split at hs
  · rename_i r t hr ht
    obtain ⟨hcall, hnewer⟩ := Bool.and_eq_true_iff.mp hs
    split at hcall
    · rename_i evac next hprog
      have hle := hspared.spared "pv1" r _ next t hr hprog (eq_of_beq hcall) ht
      have hlt := of_decide_eq_true hnewer
      omega
    · cases hcall
  · cases hs

end System

end ZfsEvacuation
