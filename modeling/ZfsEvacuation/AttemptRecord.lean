import ZfsEvacuation.SyncedViews

/-!
# Intent before action in the transfer

The attempt is recorded before its resources are created, and the next one only once they
are gone. So the resources that exist always belong to the recorded attempt.
-/
namespace ZfsEvacuation
open ClientProgram Program GuardedRun

/-! ## Names of transfer resources -/

/-- The two resources of a transfer attempt. -/
inductive TransferCr where
  | backup | restore
  deriving DecidableEq

namespace TransferCr

def kind : TransferCr → Kind
  | backup => .zfsBackup
  | restore => .zfsRestore

def key (cfg : Config) (evac : String) (attempt : Nat) : TransferCr → Key
  | backup => bkpKey cfg evac attempt
  | restore => rstKey cfg evac attempt

end TransferCr

/-- A text and the digits after it can be told apart by a character that is no digit. -/
theorem digits_inj {xs ys ds es : List Char} {c : Char} (hc : c.isDigit = false)
    (hds : ∀ d ∈ ds, d.isDigit = true) (hes : ∀ d ∈ es, d.isDigit = true)
    (h : xs ++ c :: ds = ys ++ c :: es) : xs = ys ∧ ds = es := by
  have hrev : ds.reverse ++ c :: xs.reverse = es.reverse ++ c :: ys.reverse := by
    have hcongr := congrArg List.reverse h
    simpa using hcongr
  have htake : ∀ us vs : List Char, (∀ d ∈ us, d.isDigit = true) →
      (us.reverse ++ c :: vs.reverse).takeWhile Char.isDigit = us.reverse := by
    intro us vs hus
    rw [List.takeWhile_append_of_pos (by simpa using hus)]
    simp [hc]
  have hdigits : ds.reverse = es.reverse := by
    rw [← htake ds xs hds, hrev, htake es ys hes]
  have heq : ds = es := List.reverse_injective hdigits
  subst heq
  have htail := List.append_cancel_left hrev
  exact ⟨List.reverse_injective (List.cons.inj htail).2, rfl⟩

theorem numbered_inj (middle : String) (c : Char) {n n' : String} {a a' : Nat} (hc : c.isDigit = false)
    (h : n ++ (middle ++ String.singleton c) ++ toString a =
      n' ++ (middle ++ String.singleton c) ++ toString a') : n = n' ∧ a = a' := by
  have hdigits : ∀ b : Nat, ∀ d ∈ Nat.toDigits 10 b, d.isDigit = true :=
    fun b d hd => Nat.isDigit_of_mem_toDigits (by omega) (by omega) hd
  have hlist : (n.toList ++ middle.toList) ++ c :: Nat.toDigits 10 a =
      (n'.toList ++ middle.toList) ++ c :: Nat.toDigits 10 a' := by
    have hcongr := congrArg String.toList h
    simpa using hcongr
  obtain ⟨hname, hnumber⟩ := digits_inj hc (hdigits a) (hdigits a') hlist
  have hn := List.append_cancel_right hname
  refine ⟨String.toList_injective hn, ?_⟩
  rw [← Nat.ofDigitChars_ten_toDigits (n := a), hnumber, Nat.ofDigitChars_ten_toDigits]

theorem TransferCr.key_inj {cfg : Config} {n n' : String} {a a' : Nat} {cr : TransferCr}
    (h : cr.key cfg n a = cr.key cfg n' a') : n = n' ∧ a = a' := by
  have hname := congrArg Key.name h
  cases cr with
  | backup => exact numbered_inj "-evac-" 'a' rfl hname
  | restore => exact numbered_inj "-evacr-" 'a' rfl hname

/-! ## How the record changes -/

/-- The record of one attempt, whatever has been noted in it since. -/
def SameRecord : Option TransferStatus → Option TransferStatus → Prop
  | none, none => True
  | some t, some t' => t'.attempt = t.attempt ∧ t'.snapName = t.snapName ∧ t'.ports = t.ports ∧
      t'.startedAt = t.startedAt
  | _, _ => False

theorem SameRecord.refl (t : Option TransferStatus) : SameRecord t t := by
  cases t with
  | none => trivial
  | some t => exact ⟨rfl, rfl, rfl, rfl⟩

theorem SameRecord.attempt {o o' : Option TransferStatus} (h : SameRecord o o')
    {t : TransferStatus} (ht : o = some t) : ∃ t', o' = some t' ∧ t'.attempt = t.attempt := by
  subst ht
  cases o' with
  | none => exact h.elim
  | some t' => exact ⟨t', rfl, h.1⟩

theorem Writes.transfer {cfg : Config} {view : Obj .evacuation} {tr : Trace}
    {st w : ZFSEvacuationStatus} (h : Writes cfg view tr st w) :
    SameRecord st.transfer w.transfer ∨ CrsGone cfg view tr st ∧
      ∃ t, w.transfer = some t ∧ NextAttempt view st t.attempt := by
  have hmap : ∀ f : TransferStatus → TransferStatus, (∀ t, (f t).attempt = t.attempt ∧
      (f t).snapName = t.snapName ∧ (f t).ports = t.ports ∧ (f t).startedAt = t.startedAt) →
      SameRecord st.transfer (st.transfer.map f) := by
    intro f hf
    cases st.transfer with
    | none => trivial
    | some t => exact hf t
  cases h with
  | attempted attempt snapName ports startedAt msg hp hs ht gone turn =>
    exact .inr ⟨gone, _, rfl, turn⟩
  | attemptFailing reason msg hp => exact .inl (hmap _ fun t => ⟨rfl, rfl, rfl, rfl⟩)
  | exhausted reason msg hp => exact .inl (hmap _ fun t => ⟨rfl, rfl, rfl, rfl⟩)
  | snapDeleteIssued hp => exact .inl (hmap _ fun t => ⟨rfl, rfl, rfl, rfl⟩)
  | copied t bytes bkp rst hp _ ht _ _ _ _ =>
    rw [ht]
    exact .inl ⟨rfl, rfl, rfl, rfl⟩
  | progressed t bytes hp ht =>
    rw [ht]
    exact .inl ⟨rfl, rfl, rfl, rfl⟩
  | _ => exact .inl (SameRecord.refl _)

namespace System
variable {cfg : Config} {s s' : System} {a : SysAction} {n : String}

/-- The steps of a run of one evacuation: reconciles start from what is stored, nobody else
creates a resource under a name of the evacuation's attempts, and once it is gone there is
no second one of its name. -/
def RunsOnce (cfg : Config) (n : String) (s : System) (a : SysAction) : Prop :=
  Current s a ∧ match a with
    | .env (.create .zfsBackup o) => ∀ k, o.key ≠ bkpKey cfg n k
    | .env (.create .zfsRestore o) => ∀ k, o.key ≠ rstKey cfg n k
    | .env (.create .evacuation o) => o.name = n → s.world.get .evacuation ⟨"", n⟩ = none →
        ∀ v ∈ s.world.versions, v.name ≠ n
    | _ => True

/-- Nobody else creates a resource under a name of the evacuation's attempts. -/
def OwnCrs (cfg : Config) (n : String) : SysAction → Prop
  | .env (.create .zfsBackup o) => ∀ k, o.key ≠ bkpKey cfg n k
  | .env (.create .zfsRestore o) => ∀ k, o.key ≠ rstKey cfg n k
  | _ => True

theorem RunsOnce.ownCrs (h : RunsOnce cfg n s a) : OwnCrs cfg n a := by
  have hmatch := h.2
  unfold OwnCrs
  split <;> first | exact hmatch | trivial

/-- Nobody else creates transfer resources at all. -/
def NoCrs : SysAction → Prop
  | .env (.create .zfsBackup _) | .env (.create .zfsRestore _) => False
  | _ => True

instance : Decidable (NoCrs a) := by
  unfold NoCrs
  split <;> infer_instance

theorem NoCrs.ownCrs (h : NoCrs a) : OwnCrs cfg n a := by
  unfold OwnCrs
  split
  · exact h.elim
  · exact h.elim
  · trivial

/-- A transfer resource of the evacuation exists. -/
def HasCr (cfg : Config) (s : System) (n : String) (k : Nat) (cr : TransferCr) : Prop :=
  s.world.get cr.kind (cr.key cfg n k) ≠ none

/-- What a reconcile has done or seen before it creates a resource. -/
def Ready (cr : TransferCr) (r : Running) (k : Nat) : Prop :=
  match cr with
  | .backup => Registered r.view.name r.trace k
  | .restore => SourceConnected r.view r.trace k ∧ Unregistered r.trace ∧ written r.trace = none ∧
      r.status.phase = .transferring

/-- A transfer resource is only created by the evacuation's own reconcile, for the attempt
that it knows to be recorded. -/
theorem cr_created (hc : Contracted cfg s) (hown : OwnCrs cfg n a) (h : step cfg s a = some s')
    {cr : TransferCr} {k : Nat} (hnone : ¬ HasCr cfg s n k cr) (hsome : HasCr cfg s' n k cr) :
    ∃ r o c next st t, a = .call n o ∧ s.running.get n = some r ∧ r.prog = .call c next ∧
      createsCr c = true ∧ Knows r.view r.trace st ∧ st.transfer = some t ∧ t.attempt = k ∧
      Ready cr r k := by
  obtain ⟨x, hx⟩ := Option.ne_none_iff_exists'.mp hsome
  rcases created_step h (Classical.not_not.mp hnone) hx with
    ⟨o, rfl, hkey⟩ | ⟨m, o, r, x', next, rfl, hr, hprog, hkey⟩
  · cases cr with
    | backup => exact absurd hkey (hown k)
    | restore => exact absurd hkey (hown k)
  · have hallowed := hc.allowed hr hprog
    have hname := name_of_running hr
    cases cr with
    | backup =>
      obtain ⟨st, hknows, source, t, port, -, -, ht, rfl, hready⟩ := hallowed
      have heq : TransferCr.backup.key cfg r.view.name t.attempt = TransferCr.backup.key cfg n k := hkey
      obtain ⟨rfl, rfl⟩ := TransferCr.key_inj heq
      obtain rfl := hname
      exact ⟨r, o, .create .zfsBackup _, next, st, t, rfl, hr, hprog, rfl, hknows, ht, rfl, hready⟩
    | restore =>
      obtain ⟨st, hknows, target, t, volSpec, port, hphase, -, ht, rfl, hready⟩ := hallowed
      have heq : TransferCr.restore.key cfg r.view.name t.attempt = TransferCr.restore.key cfg n k :=
        hkey
      obtain ⟨rfl, rfl⟩ := TransferCr.key_inj heq
      obtain rfl := hname
      obtain ⟨hconn, hfirst, hwrote⟩ := hready
      have hstatus : r.status = st := hknows.eq
      exact ⟨r, o, .create .zfsRestore _, next, st, t, rfl, hr, hprog, rfl, hknows, ht, rfl,
        hconn, hfirst, hwrote, hstatus ▸ hphase⟩

/-- A resource that a reconcile saw to be gone stays gone until that reconcile creates one. -/
def GoneSeen (cfg : Config) (n : String) (s : System) : Prop :=
  ∀ r k cr, s.running.get n = some r → Quiet r.trace →
    sawEvent (TransferCr.kind cr) (cr.key cfg n k) none ∈ r.trace → ¬ HasCr cfg s n k cr

/-- The attempt recorded for the evacuation, and what is known of its resources. -/
structure Intent (cfg : Config) (n : String) (s : System) : Prop where
  /-- Before the evacuation exists, no resource of its name does. -/
  unborn : (∀ v ∈ s.world.versions, v.name ≠ n) → ∀ k cr, ¬ HasCr cfg s n k cr
  gone : GoneSeen cfg n s
  recorded : ∀ e k cr, s.world.get .evacuation ⟨"", n⟩ = some e → HasCr cfg s n k cr →
    ∃ t, (viewStatus e).transfer = some t ∧ t.attempt = k
  bounded : ∀ e t m, s.world.get .evacuation ⟨"", n⟩ = some e → (viewStatus e).transfer = some t →
    (∀ v ∈ s.world.versions, v.name = n → (specOf v).maxAttempts = m) →
    t.attempt ≤ max 1 (m.getD defaultMaxAttempts)

theorem intent_init : Intent cfg n init := by
  constructor
  · intro _ k cr h
    exact h (by cases cr <;> rfl)
  · intro r k cr hr
    cases hr
  · intro e k cr he
    cases he
  · intro e t m he
    cases he

theorem unborn_step (hi : Informed cfg s) (hrec : Recorded s) (hx : Intent cfg n s)
    (hg : RunsOnce cfg n s a) (h : step cfg s a = some s')
    (hborn : ∀ v ∈ s'.world.versions, v.name ≠ n) (k : Nat) (cr : TransferCr) :
    ¬ HasCr cfg s' n k cr := by
  have hborn' : ∀ v ∈ s.world.versions, v.name ≠ n := fun v hv => hborn v (versions_step h hv)
  intro hsome
  obtain ⟨r, o, c, next, st, t, -, hr, -⟩ := 
    cr_created hi.contracted hg.ownCrs h (hx.unborn hborn' k cr) hsome
  exact hborn' r.view (hrec.views n r hr) (name_of_running hr)

theorem quiet_of_cons {e : Event kubeInterface} {tr : Trace} (h : Quiet (e :: tr)) :
    createsCr e.1 = false ∧ Quiet tr :=
  ⟨h e (List.mem_cons_self ..), fun x hx => h x (List.mem_cons_of_mem _ hx)⟩

theorem gone_step (hc : Contracted cfg s) (hx : GoneSeen cfg n s) (hown : OwnCrs cfg n a)
    (h : step cfg s a = some s') : GoneSeen cfg n s' := by
  intro r' k cr hr' hq hseen hsome
  have hcreated : ¬ HasCr cfg s n k cr → _ := fun hnone => cr_created hc hown h hnone hsome
  cases running_step h hr' with
  | kept _ hr hother =>
    obtain ⟨_, o, _, _, _, _, ha, -⟩ := hcreated (hx r' k cr hr hq hseen)
    exact hother o ha
  | started version _ _ _ heq =>
    rw [heq] at hseen
    cases hseen
  | called o r c next hr hprog hfree heq =>
    rw [heq] at hq hseen
    obtain ⟨hquiet, hq'⟩ := quiet_of_cons hq
    have hnone : ¬ HasCr cfg s n k cr := by
      rcases List.mem_cons.mp hseen with hnow | hbefore
      · obtain rfl : Call.get cr.kind (cr.key cfg n k) = c := congrArg Sigma.fst hnow
        exact fun hsome => hsome (answer_get hnow.symm)
      · exact hx r k cr hr hq' hbefore
    obtain ⟨r₁, _, c₁, _, _, _, ha, hr₁, hprog₁, hcreates, -⟩ := hcreated hnone
    obtain rfl : r = r₁ := Option.some.inj (hr.symm.trans hr₁)
    rw [hprog] at hprog₁
    cases hprog₁
    rw [hquiet] at hcreates
    cases hcreates

theorem transfer_congr {st st' : ZFSEvacuationStatus} (h : st.core = st'.core) :
    st.transfer = st'.transfer := by
  have hcore := congrArg ZFSEvacuationStatus.transfer h
  exact hcore

/-- A resource that the reconcile saw to be gone, before it records the next attempt. -/
theorem GoneSeen.crsGone (hx : GoneSeen cfg n s) {r : Running} {st : ZFSEvacuationStatus}
    {t : TransferStatus} (hr : s.running.get n = some r) (h : CrsGone cfg r.view r.trace st)
    (ht : st.transfer = some t) (cr : TransferCr) : ¬ HasCr cfg s n t.attempt cr := by
  have hname := name_of_running hr
  subst hname
  cases cr with
  | backup => exact hx r _ .backup hr h.quiet (h.bkp t ht)
  | restore => exact hx r _ .restore hr h.quiet (h.rst t ht)

theorem recorded_step (hi : Informed cfg s) (hx : Intent cfg n s) (hg : RunsOnce cfg n s a)
    (h : step cfg s a = some s') {e' : Obj .evacuation} {k : Nat} {cr : TransferCr}
    (he' : s'.world.get .evacuation ⟨"", n⟩ = some e') (hsome : HasCr cfg s' n k cr) :
    ∃ t, (viewStatus e').transfer = some t ∧ t.attempt = k := by
  rcases status_step hi hg.1.1 h he' with ⟨e, he, hstep⟩ | ⟨hnone, -, o, rfl, hname⟩
  · by_cases hbefore : HasCr cfg s n k cr
    · obtain ⟨t, ht, hk⟩ := hx.recorded e k cr he hbefore
      cases hstep with
      | kept same status _ _ => exact ⟨t, (viewStatus_congr status) ▸ ht, hk⟩
      | wrote r o st w next same running prog knows writes old new _ =>
        have hst : st.transfer = some t := (transfer_congr old).symm.trans ht
        rw [transfer_congr new]
        rcases writes.transfer with hsame | ⟨hgone, -⟩
        · obtain ⟨t', ht', hk'⟩ := hsame.attempt hst
          exact ⟨t', ht', hk'.trans hk⟩
        · subst hk
          exact absurd hbefore (hx.gone.crsGone running hgone hst cr)
    · obtain ⟨r, o, c, next, st, t, rfl, hr, hprog, hcreates, hknows, ht, hk, -⟩ :=
        cr_created hi.contracted hg.ownCrs h hbefore hsome
      cases hstep with
      | kept same status _ _ =>
        rw [viewStatus_congr status, transfer_congr ((hi.synced n r e hr he).status st hknows)]
        exact ⟨t, ht, hk⟩
      | wrote r₁ _ _ _ _ _ running prog _ _ _ _ _ =>
        obtain rfl : r = r₁ := Option.some.inj (hr.symm.trans running)
        rw [hprog] at prog
        cases prog
        cases hcreates
  · have hborn := hg.2 hname hnone
    by_cases hbefore : HasCr cfg s n k cr
    · exact absurd hbefore (hx.unborn hborn k cr)
    · obtain ⟨_, _, _, _, _, _, ha, -⟩ :=
        cr_created hi.contracted hg.ownCrs h hbefore hsome
      cases ha

theorem bounded_step (hi : Informed cfg s) (hrec : Recorded s) (hx : Intent cfg n s)
    (hg : RunsOnce cfg n s a) (h : step cfg s a = some s') {e' : Obj .evacuation}
    {t' : TransferStatus} {m : Option Nat} (he' : s'.world.get .evacuation ⟨"", n⟩ = some e')
    (ht' : (viewStatus e').transfer = some t')
    (hspec : ∀ v ∈ s'.world.versions, v.name = n → (specOf v).maxAttempts = m) :
    t'.attempt ≤ max 1 (m.getD defaultMaxAttempts) := by
  have hspec' : ∀ v ∈ s.world.versions, v.name = n → (specOf v).maxAttempts = m :=
    fun v hv => hspec v (versions_step h hv)
  rcases status_step hi hg.1.1 h he' with ⟨e, he, hstep⟩ | ⟨-, hfresh, -⟩
  · cases hstep with
    | kept same status _ _ =>
      rw [viewStatus_congr status] at ht'
      exact hx.bounded e t' m he ht' hspec'
    | wrote r o st w next same running prog knows writes old new _ =>
      rw [transfer_congr new] at ht'
      rcases writes.transfer with hsame | ⟨-, t₁, ht₁, hturn⟩
      · cases hst : st.transfer with
        | none =>
          rw [hst, ht'] at hsame
          exact hsame.elim
        | some t =>
          obtain ⟨t₁, ht₁, hk⟩ := hsame.attempt hst
          obtain rfl : t₁ = t' := Option.some.inj (ht₁.symm.trans ht')
          rw [hk]
          exact hx.bounded e t m he ((transfer_congr old).trans hst) hspec'
      · obtain rfl : t₁ = t' := Option.some.inj (ht₁.symm.trans ht')
        have hview := hspec' r.view (hrec.views n r running) (name_of_running running)
        unfold NextAttempt at hturn
        rw [hview] at hturn
        split at hturn
        · omega
        · omega
  · have hview : viewStatus e' = {} := by rw [viewStatus, hfresh, Option.getD_none]
    rw [hview] at ht'
    cases ht'

theorem intent_step (hi : Informed cfg s) (hrec : Recorded s) (hx : Intent cfg n s)
    (hg : RunsOnce cfg n s a) (h : step cfg s a = some s') : Intent cfg n s' :=
  ⟨unborn_step hi hrec hx hg h, gone_step hi.contracted hx.gone hg.ownCrs h,
    fun _ _ _ => recorded_step hi hx hg h, fun _ _ _ => bounded_step hi hrec hx hg h⟩

theorem intent_run {as : List SysAction} (h : Run (step cfg) (RunsOnce cfg n) init as s) :
    Intent cfg n s := by
  have hcurrent : ∀ {as s}, Run (step cfg) (RunsOnce cfg n) init as s →
      Informed cfg s ∧ Recorded s :=
    fun hrun => ⟨informed_run (hrun.mono fun _ _ hg => hg.1), recorded_run hrun⟩
  exact h.invariant_over hcurrent intent_init fun s a s' hb hx hg hstep =>
    intent_step hb.1 hb.2 hx hg hstep

/-- The relay of an attempt had its source at some state that the run went through. -/
def Connected (cfg : Config) (n : String) (as : List SysAction) (k : Nat) : Prop :=
  ∃ past s t, past <+: as ∧ Run (step cfg) (RunsOnce cfg n) init past s ∧
    s.world.transfers.get n = some t ∧ t.attempt = k ∧ t.relay.sourceConnected = true

/-- What a reconcile saw of its relay, the world was in. -/
theorem connected_of_seen {as : List SysAction} (h : Run (step cfg) (RunsOnce cfg n) init as s)
    {r : Running} (hr : s.running.get n = some r) {k : Nat}
    (hconn : SourceConnected r.view r.trace k) : Connected cfg n as k := by
  have hseen : ∀ r, s.running.get n = some r → ∀ t, sawTransferEvent n (some t) ∈ r.trace →
      ∃ past s₀, past <+: as ∧ Run (step cfg) (RunsOnce cfg n) init past s₀ ∧
        s₀.world.transfers.get n = some t := by
    clear hr hconn r
    induction h with
    | start =>
      intro r hr
      cases hr
    | @snoc as a s s' prior hg hstep ih =>
      have hlater : ∀ r, s.running.get n = some r → ∀ t, sawTransferEvent n (some t) ∈ r.trace →
          ∃ past s₀, past <+: as ++ [a] ∧ Run (step cfg) (RunsOnce cfg n) init past s₀ ∧
            s₀.world.transfers.get n = some t := by
        intro r hr t ht
        obtain ⟨past, s₀, hpre, hrun, hget⟩ := ih r hr t ht
        exact ⟨past, s₀, hpre.trans (List.prefix_append as [a]), hrun, hget⟩
      intro r' hr' t ht
      cases step_cases hstep with
      | env e => exact hlater r' hr' t ht
      | start name version view _ _ _ _ =>
        rw [running_proceed] at hr'
        split_ifs at hr' with hn hfin
        · obtain rfl := Option.some.inj hr'
          cases ht
        · exact hlater r' hr' t ht
      | call name o r c next hr hprog hfree =>
        rw [running_proceed] at hr'
        split_ifs at hr' with hn hfin
        · obtain rfl := Option.some.inj hr'
          obtain rfl : name = n := (name_of_running hr).symm.trans hn
          rcases List.mem_cons.mp ht with heq | hbefore
          · obtain rfl : Call.transferGet name = c := congrArg Sigma.fst heq
            have hget : some t = s.world.answer o (.transferGet name) :=
              eq_of_heq (Sigma.mk.inj heq).2
            exact ⟨as, s, List.prefix_append as _, prior, hget.symm⟩
          · exact hlater r hr t hbefore
        · exact hlater r' hr' t ht
      | crash => cases hr'
  obtain ⟨t, ht, hk, hsource⟩ := hconn
  rw [name_of_running hr] at ht
  obtain ⟨past, s₀, hpre, hrun, hget⟩ := hseen r hr t ht
  exact ⟨past, s₀, t, hpre, hrun, hget, hk, hsource⟩

/-- From one stored version to the next, the record is the same or that of the next attempt,
and then the resources of the last one are gone. -/
def RecordsInOrder (cfg : Config) (s : System) (n : String) (old new : Option TransferStatus) :
    Prop :=
  SameRecord old new ∨ ∃ t', new = some t' ∧
    match old with
    | none => t'.attempt = 1
    | some t => t'.attempt = t.attempt + 1 ∧ ∀ cr, ¬ HasCr cfg s n t.attempt cr

/-- What holds of the transfer in a state that a run has led to, and of its next step. -/
structure IntentBeforeAction (cfg : Config) (n : String) (as : List SysAction) (s : System) :
    Prop where
  recorded : ∀ e k cr, s.world.get .evacuation ⟨"", n⟩ = some e → HasCr cfg s n k cr →
    ∃ t, (viewStatus e).transfer = some t ∧ t.attempt = k
  fresh : ∀ a s' e', RunsOnce cfg n s a → step cfg s a = some s' →
    s.world.get .evacuation ⟨"", n⟩ = none → s'.world.get .evacuation ⟨"", n⟩ = some e' →
    (viewStatus e').transfer = none
  ordered : ∀ a s' e e', RunsOnce cfg n s a → step cfg s a = some s' →
    s.world.get .evacuation ⟨"", n⟩ = some e → s'.world.get .evacuation ⟨"", n⟩ = some e' →
    RecordsInOrder cfg s n (viewStatus e).transfer (viewStatus e').transfer
  bounded : ∀ e t m, s.world.get .evacuation ⟨"", n⟩ = some e → (viewStatus e).transfer = some t →
    (∀ v ∈ s.world.versions, v.name = n → (specOf v).maxAttempts = m) →
    t.attempt ≤ max 1 (m.getD defaultMaxAttempts)
  connected : ∀ a s' k, RunsOnce cfg n s a → step cfg s a = some s' →
    ¬ HasCr cfg s n k .restore → HasCr cfg s' n k .restore → Connected cfg n as k

theorem fresh_step (hi : Informed cfg s) (hl : KeepsEvacs s a) (h : step cfg s a = some s')
    {e' : Obj .evacuation} (hnone : s.world.get .evacuation ⟨"", n⟩ = none)
    (he' : s'.world.get .evacuation ⟨"", n⟩ = some e') : (viewStatus e').transfer = none := by
  rcases status_step hi hl h he' with ⟨e, he, -⟩ | ⟨-, hfresh, -⟩
  · rw [hnone] at he
    cases he
  · rw [viewStatus, hfresh, Option.getD_none]

theorem ordered_step (hi : Informed cfg s) (hx : Intent cfg n s) (hl : KeepsEvacs s a)
    (h : step cfg s a = some s') {e e' : Obj .evacuation}
    (he : s.world.get .evacuation ⟨"", n⟩ = some e)
    (he' : s'.world.get .evacuation ⟨"", n⟩ = some e') :
    RecordsInOrder cfg s n (viewStatus e).transfer (viewStatus e').transfer := by
  rcases status_step hi hl h he' with ⟨e₁, he₁, hstep⟩ | ⟨hnone, -⟩
  · obtain rfl : e = e₁ := Option.some.inj (he.symm.trans he₁)
    cases hstep with
    | kept same status _ _ =>
      rw [viewStatus_congr status]
      exact .inl (SameRecord.refl _)
    | wrote r o st w next same running prog knows writes old new _ =>
      rw [transfer_congr old, transfer_congr new]
      rcases writes.transfer with hsame | ⟨hgone, t', ht', hturn⟩
      · exact .inl hsame
      · refine .inr ⟨t', ht', ?_⟩
        cases hst : st.transfer with
        | none =>
          rw [NextAttempt, hst] at hturn
          exact hturn
        | some t =>
          rw [NextAttempt, hst] at hturn
          exact ⟨hturn.1, hx.gone.crsGone running hgone hst⟩
  · rw [hnone] at he
    cases he

/-- In every run of an evacuation, whatever fails and wherever the controller crashes, the
record comes before the resources. -/
theorem intent_before_action (cfg : Config) (n : String) (as : List SysAction) (s : System)
    (h : Run (step cfg) (RunsOnce cfg n) init as s) : IntentBeforeAction cfg n as s := by
  have hi : Informed cfg s := informed_run (h.mono fun _ _ hg => hg.1)
  have hx := intent_run h
  refine ⟨hx.recorded, ?_, ?_, hx.bounded, ?_⟩
  · intro a s' e' hg hstep hnone he'
    exact fresh_step hi hg.1.1 hstep hnone he'
  · intro a s' e e' hg hstep he he'
    exact ordered_step hi hx hg.1.1 hstep he he'
  · intro a s' k hg hstep hnone hsome
    obtain ⟨r, o, c, next, st, t, -, hr, -, -, -, -, -, hconn⟩ :=
      cr_created hi.contracted hg.ownCrs hstep hnone hsome
    exact connected_of_seen h hr hconn.1

/-- The steps of a cluster where nobody else has transfer resources at all. -/
def Alone (n : String) (s : System) (a : SysAction) : Prop :=
  Current s a ∧ match a with
    | .env (.create .zfsBackup _) | .env (.create .zfsRestore _) => False
    | .env (.create .evacuation o) => o.name = n → s.world.get .evacuation ⟨"", n⟩ = none →
        ∀ v ∈ s.world.versions, v.name ≠ n
    | _ => True

instance : Decidable (Alone n s a) := by
  unfold Alone
  rcases a with ⟨⟨⟩, _⟩ | _ <;> dsimp only <;> infer_instance

theorem Alone.runsOnce (h : Alone n s a) : RunsOnce cfg n s a := by
  refine ⟨h.1, ?_⟩
  have hmatch := h.2
  split at hmatch
  · exact hmatch.elim
  · exact hmatch.elim
  · exact hmatch
  · trivial

/-- The first attempt of a small cluster, with its restore created. -/
theorem intent_before_restore : ∃ as s, Run (step Sample.config) (RunsOnce Sample.config "pv1")
    init as s ∧ HasCr Sample.config s "pv1" 1 .restore ∧
      IntentBeforeAction Sample.config "pv1" as s := by
  obtain ⟨s, hrun, hs⟩ := Run.exists_of_runList
    (p := fun s : System =>
      (s.world.get .zfsRestore (TransferCr.restore.key Sample.config "pv1" 1)).isSome)
    (show (runList (guarded (step Sample.config) (Alone "pv1")) init Sample.toTransfer).any _ = true
      by decide +kernel)
  have hrun' : Run (step Sample.config) (RunsOnce Sample.config "pv1") init _ s :=
    hrun.mono fun _ _ hg => Alone.runsOnce hg
  exact ⟨_, s, hrun', Option.isSome_iff_ne_none.mp hs, intent_before_action _ _ _ s hrun'⟩

end System

end ZfsEvacuation
