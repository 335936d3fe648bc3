import ZfsEvacuation.AbortRounds
import ZfsEvacuation.GuardedRun
import Mathlib.Logic.Function.Iterate

/-!
# Convergence of the abort path

From which states the rounds of an abort come to an end, and what keeps them going for
ever: a landed dataset whose restore stays behind is registered and destroyed in turns.
-/
namespace ZfsEvacuation.Abort
open ClientProgram Program GuardedRun

variable {cfg : Config} {name : String} {st₀ : ZFSEvacuationStatus} {del : Bool}
  {w w' : World} {target : TargetInfo} {t : TransferStatus}

def rounds (cfg : Config) (name : String) (n : Nat) (w : World) : World :=
  (World.round cfg name)^[n] w

theorem rounds_succ (n : Nat) : rounds cfg name (n + 1) w = (rounds cfg name n w).round cfg name :=
  Function.iterate_succ_apply' _ _ _

/-- The abort ends, and a target volume that has disappeared does not come back. -/
structure Converges (cfg : Config) (name : String) (st₀ : ZFSEvacuationStatus) (w : World) :
    Prop where
  ends : ∃ n, Finished name (rounds cfg name n w)
  once : ∀ target, st₀.target = some target → ∀ i j, i < j →
    (rounds cfg name i w).get .zfsVolume (target.volKey cfg) ≠ none →
    (rounds cfg name (i + 1) w).get .zfsVolume (target.volKey cfg) = none →
    (rounds cfg name j w).get .zfsVolume (target.volKey cfg) = none

/-- The restore is Done and nobody deletes it. -/
def Lasting (cfg : Config) (name : String) (t : TransferStatus) (w : World) : Prop :=
  ∃ o ∈ w.get .zfsRestore (rstKey cfg name t.attempt),
    o.deleting = false ∧ restoreStatus (some o) = bkpStatusDone

/-- The volume is there to stay. -/
def Persists (key : Key) (w : World) : Prop :=
  ∃ o ∈ w.get .zfsVolume key, o.deleting = true → guardFinalizer ∈ o.metadata.finalizers

/-- The target volume cannot be destroyed, or there is always a restore to register it
after and a source to register it from. -/
def Stuck (cfg : Config) (name : String) (st₀ : ZFSEvacuationStatus) (w : World) : Prop :=
  ∃ target ∈ st₀.target, ∃ t ∈ st₀.transfer,
    GuardedAt .zfsVolume (target.volKey cfg) w ∨
      (Lasting cfg name t w ∧ ∀ source ∈ st₀.source,
        source.volKey cfg ≠ target.volKey cfg ∧ Persists (source.volKey cfg) w)

instance : Decidable (Lasting cfg name t w) :=
  inferInstanceAs (Decidable (∃ o ∈ w.get .zfsRestore (rstKey cfg name t.attempt),
    o.deleting = false ∧ restoreStatus (some o) = bkpStatusDone))

instance {key : Key} : Decidable (Persists key w) :=
  inferInstanceAs (Decidable (∃ o ∈ w.get .zfsVolume key,
    o.deleting = true → guardFinalizer ∈ o.metadata.finalizers))

instance : Decidable (Stuck cfg name st₀ w) :=
  inferInstanceAs (Decidable (∃ target ∈ st₀.target, ∃ t ∈ st₀.transfer,
    GuardedAt .zfsVolume (target.volKey cfg) w ∨
      (Lasting cfg name t w ∧ ∀ source ∈ st₀.source,
        source.volKey cfg ≠ target.volKey cfg ∧ Persists (source.volKey cfg) w)))

theorem restoreDone_iff : RestoreDone cfg name t w ↔
    ∃ o ∈ w.get .zfsRestore (rstKey cfg name t.attempt), restoreStatus (some o) = bkpStatusDone := by
  unfold RestoreDone
  cases w.get .zfsRestore (rstKey cfg name t.attempt) with
  | none => simp
  | some o =>
    simp only [Option.bind_some, Option.mem_some_iff, exists_eq_left']
    unfold restoreStatus
    cases hst : (ZFSRestore.status o.data) with
    | none => simp [hst, bkpStatusDone]
    | some s => simp [hst]

theorem tended_lasting (h : Lasting cfg name t w)
    (hr : ∀ key, w'.get .zfsRestore key = (w.get .zfsRestore key).bind (tend .zfsRestore)) :
    Lasting cfg name t w' := by
  obtain ⟨o, ho, hdel, hdone⟩ := h
  refine ⟨o, ?_, hdel, hdone⟩
  rw [hr, Option.mem_def.mp ho]
  simp [tend, hdel]

/-- What is Done and has lived through a round was not being deleted. -/
theorem lasting_of_tended (h : RestoreDone cfg name t w')
    (hr : ∀ key, w'.get .zfsRestore key = (w.get .zfsRestore key).bind (tend .zfsRestore)) :
    Lasting cfg name t w := by
  obtain ⟨o, ho, hdone⟩ := restoreDone_iff.mp h
  rw [hr] at ho
  obtain ⟨o', ho', htend⟩ := Option.bind_eq_some_iff.mp ho
  simp only [tend] at htend
  split_ifs at htend with hdel
  obtain rfl := Option.some.inj htend
  exact ⟨o', ho', by simpa using hdel, hdone⟩

theorem tended_persists {key : Key} (h : Persists key w)
    (hv : w'.get .zfsVolume key = (w.get .zfsVolume key).bind (tend .zfsVolume)) :
    Persists key w' := by
  obtain ⟨o, ho, hguard⟩ := h
  have ho' : w.get .zfsVolume key = some o := ho
  unfold Persists
  rw [hv, ho', Option.bind_some]
  simp only [tend]
  by_cases hdel : o.deleting = true
  · rw [if_pos hdel, if_pos (hguard hdel)]
    exact ⟨o, rfl, hguard⟩
  · rw [if_neg hdel]
    split_ifs
    · exact ⟨o, rfl, hguard⟩
    · exact ⟨_, rfl, fun hcon => absurd hcon hdel⟩

/-- A volume that is not there to stay is gone after a round. -/
theorem persists_of_tended {key : Key} (h : w'.get .zfsVolume key ≠ none)
    (hv : w'.get .zfsVolume key = (w.get .zfsVolume key).bind (tend .zfsVolume)) :
    Persists key w := by
  obtain ⟨o, ho⟩ := Option.ne_none_iff_exists'.mp h
  rw [hv] at ho
  obtain ⟨o', ho', htend⟩ := Option.bind_eq_some_iff.mp ho
  refine ⟨o', ho', fun hdel => ?_⟩
  by_contra hno
  simp [tend, hdel, hno] at htend

/-! ## Never ending -/

theorem blocked_of_stuck (ht : st₀.target = some target) (htr : st₀.transfer = some t)
    (hv : w.get .zfsVolume (target.volKey cfg) = none) (h : Stuck cfg name st₀ w) :
    Blocked cfg name st₀ t w := by
  obtain ⟨target', ht', t', htr', hstuck⟩ := h
  obtain rfl : target' = target := Option.some.inj (ht'.symm.trans ht)
  obtain rfl : t' = t := Option.some.inj (htr'.symm.trans htr)
  rcases hstuck with ⟨o, ho, -⟩ | ⟨⟨o, ho, -, hdone⟩, hsource⟩
  · rw [hv] at ho
    cases ho
  · refine ⟨restoreDone_iff.mpr ⟨o, ho, hdone⟩, fun source hs => ?_⟩
    obtain ⟨-, zv, hzv, -⟩ := hsource source hs
    rw [Option.mem_def.mp hzv]
    simp

/-- A stuck abort stays stuck, whatever the round was. -/
theorem stuck_round (h : Stuck cfg name st₀ w) (hr : Rounded cfg name st₀ del w w') :
    Stuck cfg name st₀ w' ∧ On name st₀ del w w' := by
  have hstuck := h
  obtain ⟨target, ht, t, htr, hwhy⟩ := h
  cases hr with
  | finished _ _ clear =>
    obtain ⟨hv, hfree, -, -⟩ := clear target t ht htr
    exact absurd (blocked_of_stuck ht htr hv hstuck) hfree
  | destroying target' t' ht' htr' _ _ hguard hrst hvol on =>
    obtain rfl : target' = target := Option.some.inj (ht'.symm.trans ht)
    refine ⟨⟨target', ht, t, htr, hwhy.imp hguard fun ⟨hl, hs⟩ => ?_⟩, on⟩
    refine ⟨tended_lasting hl hrst, fun source hsource => ?_⟩
    obtain ⟨hne, hp⟩ := hs source hsource
    exact ⟨hne, tended_persists hp (hvol _ hne)⟩
  | adopting target' t' ht' htr' hv _ _ _ _ hrst hvol on =>
    obtain rfl : target' = target := Option.some.inj (ht'.symm.trans ht)
    refine ⟨⟨target', ht, t, htr, .inr ?_⟩, on⟩
    rcases hwhy with ⟨o, ho, -⟩ | ⟨hl, hs⟩
    · rw [hv] at ho
      cases ho
    · refine ⟨tended_lasting hl hrst, fun source hsource => ?_⟩
      obtain ⟨hne, hp⟩ := hs source hsource
      exact ⟨hne, tended_persists hp (hvol _ hne)⟩
  | unsourced target' t' ht' htr' hv _ hnone _ hrst on =>
    obtain rfl : target' = target := Option.some.inj (ht'.symm.trans ht)
    refine ⟨⟨target', ht, t, htr, .inr ?_⟩, on⟩
    rcases hwhy with ⟨o, ho, -⟩ | ⟨hl, -⟩
    · rw [hv] at ho
      cases ho
    · refine ⟨tended_lasting hl hrst, fun source hsource => ?_⟩
      rw [hnone] at hsource
      cases hsource
  | cleaning target' t' ht' htr' hv hfree _ _ _ _ _ =>
    obtain rfl : target' = target := Option.some.inj (ht'.symm.trans ht)
    obtain rfl : t' = t := Option.some.inj (htr'.symm.trans htr)
    exact absurd (blocked_of_stuck ht htr hv hstuck) hfree

theorem not_finished (h : Heading name st₀ del w) (hs : Signed name w) : ¬ Finished name w := by
  intro hf
  obtain ⟨e, he, hheld⟩ := h
  rcases hf e he with hfailed | ⟨hdel, hunsigned⟩
  · have henters := hheld.enters
    simp [entersAbort, hfailed] at henters
  · exact hunsigned (hs e he hdel)

/-- A stuck abort never ends. -/
theorem stuck_forever (h : Heading name st₀ del w) (hs : Signed name w)
    (hstuck : Stuck cfg name st₀ w) (n : Nat) :
    Heading name st₀ del (rounds cfg name n w) ∧ Signed name (rounds cfg name n w) ∧
      Stuck cfg name st₀ (rounds cfg name n w) := by
  induction n with
  | zero => exact ⟨h, hs, hstuck⟩
  | succ n ih =>
    obtain ⟨h, hs, hstuck⟩ := ih
    rw [rounds_succ]
    obtain ⟨hstuck', hon⟩ := stuck_round hstuck (rounded_of_heading cfg h).1
    exact ⟨hon.1, hon.2 hs, hstuck'⟩

/-! ## Coming to an end -/

/-- The target volume is gone and nothing will bring it back. -/
def Calm (cfg : Config) (name : String) (st₀ : ZFSEvacuationStatus) (target : TargetInfo)
    (w : World) : Prop :=
  w.get .zfsVolume (target.volKey cfg) = none ∧
    ∀ t, st₀.transfer = some t → ¬ Blocked cfg name st₀ t w

/-- A round without an abort changes the evacuation at most. -/
theorem idle_round (cfg : Config) (hpath : Path name st₀ del w) (hno : ¬ Heading name st₀ del w) :
    Path name st₀ del (w.round cfg name) ∧
      ∀ k key, k ≠ .evacuation → (w.round cfg name).get k key = (w.get k key).bind (tend k) := by
  unfold World.round
  cases he : w.get .evacuation ⟨"", name⟩ with
  | none => exact ⟨tended_path hpath, fun k key _ => World.get_tended w k key⟩
  | some e =>
    have hfailed : (viewStatus e).phase = .failed :=
      (hpath e he).resolve_left fun hheld => hno ⟨e, he, hheld⟩
    have hname : e.name = name := congrArg Key.name (World.get_key he)
    have hend : Ends cluster
        (fun _ w' => Aside w w' ∧ Path name st₀ del w') (fun _ w' => Aside w w' ∧ Path name st₀ del w')
        (reconcile cfg e) w := by
      have hsame : Aside w w ∧ Path name st₀ del w := ⟨fun _ _ _ => rfl, hpath⟩
      simp only [reconcile, if_pos (show (viewStatus e).phase = .completed ∨ _ from .inr hfailed)]
      split_ifs
      · simp only [removeEvacFinalizer, hname, bind_eq, ends_bind, ends_getOpt, he]
        refine (ends_patchObj he).mpr ⟨aside_patch w _ _, fun e' he' => .inr ?_⟩
        rw [World.get_patch_self he] at he'
        split_ifs at he'
        rw [← Option.some.inj he']
        exact hfailed
      · exact hsame
    have hlast := Ends.exec hend
    refine ⟨tended_path hlast.2, fun k key hk => ?_⟩
    rw [World.get_tended, hlast.1 k key hk]

theorem calm_round (ht : st₀.target = some target) (hpath : Path name st₀ del w)
    (h : Calm cfg name st₀ target w) :
    Path name st₀ del (w.round cfg name) ∧ Calm cfg name st₀ target (w.round cfg name) := by
  obtain ⟨hv, hfree⟩ := h
  by_cases hhead : Heading name st₀ del w
  · obtain ⟨hr, hpath'⟩ := rounded_of_heading cfg hhead
    refine ⟨hpath', ?_⟩
    cases hr with
    | finished _ hvol clear =>
      refine ⟨hvol _ hv, fun t htr hblocked => ?_⟩
      obtain ⟨-, -, -, hrst⟩ := clear target t ht htr
      obtain ⟨o, ho, -⟩ := restoreDone_iff.mp hblocked.1
      rw [hrst] at ho
      cases ho
    | destroying target' t ht' _ hv' _ _ _ _ _ =>
      obtain rfl : target' = target := Option.some.inj (ht'.symm.trans ht)
      exact absurd hv hv'
    | adopting target' t ht' htr _ hblocked _ _ _ _ _ _ => exact absurd hblocked (hfree t htr)
    | unsourced target' t ht' htr _ hblocked _ _ _ _ => exact absurd hblocked (hfree t htr)
    | cleaning target' t ht' htr _ _ _ hgone _ hrst _ =>
      obtain rfl : target' = target := Option.some.inj (ht'.symm.trans ht)
      refine ⟨hgone, fun t' htr' hblocked => ?_⟩
      obtain rfl : t = t' := Option.some.inj (htr.symm.trans htr')
      obtain ⟨o, ho, -⟩ := restoreDone_iff.mp hblocked.1
      rw [hrst] at ho
      cases ho
  · obtain ⟨hpath', hsame⟩ := idle_round cfg hpath hhead
    refine ⟨hpath', ?_, fun t htr hblocked => hfree t htr ⟨?_, fun source hs => ?_⟩⟩
    · rw [hsame _ _ (by decide), hv]
      rfl
    · obtain ⟨o, ho, hdel, hdone⟩ := lasting_of_tended hblocked.1 fun key => hsame _ key (by decide)
      exact restoreDone_iff.mpr ⟨o, ho, hdone⟩
    · intro hnone
      refine hblocked.2 source hs ?_
      rw [hsame _ _ (by decide), hnone]
      rfl

theorem calm_rounds (ht : st₀.target = some target) (hpath : Path name st₀ del w)
    (h : Calm cfg name st₀ target w) (n : Nat) :
    Path name st₀ del (rounds cfg name n w) ∧ Calm cfg name st₀ target (rounds cfg name n w) := by
  induction n with
  | zero => exact ⟨hpath, h⟩
  | succ n ih =>
    rw [rounds_succ]
    exact calm_round ht ih.1 ih.2

theorem finished_of_path (hpath : Path name st₀ del w) (hno : ¬ Heading name st₀ del w) :
    Finished name w :=
  fun e he => .inl ((hpath e he).resolve_left fun hheld => hno ⟨e, he, hheld⟩)

/-- A calm abort is over after two rounds at most. -/
theorem finishes_of_calm (ht : st₀.target = some target) (hpath : Path name st₀ del w)
    (h : Calm cfg name st₀ target w) : ∃ n, Finished name (rounds cfg name n w) := by
  by_cases hhead : Heading name st₀ del w
  swap
  · exact ⟨0, finished_of_path hpath hhead⟩
  obtain ⟨hr, hpath'⟩ := rounded_of_heading cfg hhead
  cases hr with
  | finished done _ _ => exact ⟨1, done⟩
  | destroying target' t ht' _ hv' _ _ _ _ _ =>
    obtain rfl : target' = target := Option.some.inj (ht'.symm.trans ht)
    exact absurd h.1 hv'
  | adopting target' t ht' htr _ hblocked _ _ _ _ _ _ => exact absurd hblocked (h.2 t htr)
  | unsourced target' t ht' htr _ hblocked _ _ _ _ => exact absurd hblocked (h.2 t htr)
  | cleaning target' t ht' htr _ _ _ _ hbkp hrst on =>
    obtain rfl : target' = target := Option.some.inj (ht'.symm.trans ht)
    have hcalm := (calm_round ht hpath h).2
    refine ⟨2, ?_⟩
    rw [rounds_succ]
    obtain ⟨hr', -⟩ := rounded_of_heading cfg on.1
    -- with both transfer resources gone, the second round goes through to the end
    cases hr' with
    | finished done _ _ => exact done
    | destroying target'' t' ht'' _ hv' _ _ _ _ _ =>
      obtain rfl : target'' = target' := Option.some.inj (ht''.symm.trans ht)
      exact absurd hcalm.1 hv'
    | adopting _ t' _ htr' _ hblocked _ _ _ _ _ _ => exact absurd hblocked (hcalm.2 t' htr')
    | unsourced _ t' _ htr' _ hblocked _ _ _ _ => exact absurd hblocked (hcalm.2 t' htr')
    | cleaning _ t' _ htr' _ _ hleft _ _ _ _ =>
      obtain rfl : t' = t := Option.some.inj (htr'.symm.trans htr)
      rcases hleft with hb | hr
      · exact absurd hbkp hb
      · exact absurd hrst hr

theorem path_rounds (hpath : Path name st₀ del w) (n : Nat) :
    Path name st₀ del (rounds cfg name n w) := by
  induction n with
  | zero => exact hpath
  | succ n ih =>
    rw [rounds_succ]
    by_cases hhead : Heading name st₀ del (rounds cfg name n w)
    · exact (rounded_of_heading cfg hhead).2
    · exact (idle_round cfg ih hhead).1

theorem rounds_add (m n : Nat) : rounds cfg name (n + m) w = rounds cfg name n (rounds cfg name m w) :=
  Function.iterate_add_apply _ _ _ _

/-- Once calm, always calm. -/
theorem calm_later (ht : st₀.target = some target) (hpath : Path name st₀ del w) {m j : Nat}
    (h : Calm cfg name st₀ target (rounds cfg name m w)) (hmj : m ≤ j) :
    Calm cfg name st₀ target (rounds cfg name j w) := by
  obtain ⟨n, rfl⟩ := Nat.exists_eq_add_of_le' hmj
  rw [rounds_add]
  exact (calm_rounds ht (path_rounds hpath m) h n).2

/-- An abort that is not stuck becomes calm, and the target volume disappears at most once
on the way. -/
theorem reaches_calm (ht : st₀.target = some target) (htr : st₀.transfer = some t)
    (hhead : Heading name st₀ del w) (hno : ¬ Stuck cfg name st₀ w) :
    ∃ m, Calm cfg name st₀ target (rounds cfg name m w) ∧ ∀ i, i < m →
      (rounds cfg name i w).get .zfsVolume (target.volKey cfg) ≠ none →
      (rounds cfg name (i + 1) w).get .zfsVolume (target.volKey cfg) = none → m ≤ i + 1 := by
  have hcalm_of_gone : ∀ w', w'.get .zfsVolume (target.volKey cfg) = none →
      ¬ Blocked cfg name st₀ t w' → Calm cfg name st₀ target w' := by
    intro w' hv hfree
    refine ⟨hv, fun t' htr' => ?_⟩
    obtain rfl : t = t' := Option.some.inj (htr.symm.trans htr')
    exact hfree
  -- if a restore outlasts the rounds, the source volume does not
  have hsource : Lasting cfg name t w → ∃ source, st₀.source = some source ∧
      (source.volKey cfg = target.volKey cfg ∨ ¬ Persists (source.volKey cfg) w) := by
    intro hl
    by_contra hcon
    refine hno ⟨target, ht, t, htr, .inr ⟨hl, fun source hs => ⟨fun heq => ?_, ?_⟩⟩⟩
    · exact hcon ⟨source, hs, .inl heq⟩
    · by_contra hp
      exact hcon ⟨source, hs, .inr hp⟩
  obtain ⟨hr, -⟩ := rounded_of_heading cfg hhead
  cases hr with
  | finished _ _ clear =>
    obtain ⟨hv, hfree, -, -⟩ := clear target t ht htr
    exact ⟨0, hcalm_of_gone w hv hfree, fun i hi => absurd hi (Nat.not_lt_zero i)⟩
  | cleaning target' t' ht' htr' hv hfree _ _ _ _ _ =>
    obtain rfl : target' = target := Option.some.inj (ht'.symm.trans ht)
    obtain rfl : t' = t := Option.some.inj (htr'.symm.trans htr)
    exact ⟨0, hcalm_of_gone w hv hfree, fun i hi => absurd hi (Nat.not_lt_zero i)⟩
  | unsourced target' t' ht' htr' hv _ hnone hgone hrst _ =>
    obtain rfl : target' = target := Option.some.inj (ht'.symm.trans ht)
    refine ⟨1, hcalm_of_gone _ hgone fun hblocked => ?_, fun i hi _ _ => by omega⟩
    obtain ⟨source, hs, -⟩ := hsource (lasting_of_tended hblocked.1 hrst)
    rw [hnone] at hs
    cases hs
  | destroying target' t' ht' htr' hv hgone _ hrst hvol _ =>
    obtain rfl : target' = target := Option.some.inj (ht'.symm.trans ht)
    have hfree : ¬ GuardedAt .zfsVolume (target'.volKey cfg) w := fun hg =>
      hno ⟨target', ht, t, htr, .inl hg⟩
    refine ⟨1, hcalm_of_gone _ (hgone hfree) fun hblocked => ?_, fun i hi _ _ => by omega⟩
    obtain ⟨source, hs, hwhy⟩ := hsource (lasting_of_tended hblocked.1 hrst)
    have hthere := hblocked.2 source hs
    by_cases heq : source.volKey cfg = target'.volKey cfg
    · rw [heq] at hthere
      exact hthere (hgone hfree)
    · exact hwhy.elim heq fun hp => hp (persists_of_tended hthere (hvol _ heq))
  | adopting target' t' ht' htr' hv _ _ hthere hfree hrst hvol on =>
    obtain rfl : target' = target := Option.some.inj (ht'.symm.trans ht)
    obtain ⟨hr', -⟩ := rounded_of_heading cfg on.1
    cases hr' with
    | finished _ _ clear => exact absurd (clear target' t ht htr).1 hthere
    | adopting target'' _ ht'' _ hv' _ _ _ _ _ _ _ =>
      obtain rfl : target'' = target' := Option.some.inj (ht''.symm.trans ht)
      exact absurd hv' hthere
    | unsourced target'' _ ht'' _ hv' _ _ _ _ _ =>
      obtain rfl : target'' = target' := Option.some.inj (ht''.symm.trans ht)
      exact absurd hv' hthere
    | cleaning target'' _ ht'' _ hv' _ _ _ _ _ _ =>
      obtain rfl : target'' = target' := Option.some.inj (ht''.symm.trans ht)
      exact absurd hv' hthere
    | destroying target'' _ ht'' _ _ hgone' _ hrst' hvol' _ =>
      obtain rfl : target'' = target' := Option.some.inj (ht''.symm.trans ht)
      have htwo : rounds cfg name 2 w = ((w.round cfg name).round cfg name) := rfl
      refine ⟨2, hcalm_of_gone _ (by rw [htwo]; exact hgone' hfree) fun hblocked => ?_, ?_⟩
      · rw [htwo] at hblocked
        obtain ⟨o, ho, hdel, hdone⟩ := lasting_of_tended hblocked.1 hrst'
        obtain ⟨source, hs, hwhy⟩ :=
          hsource (lasting_of_tended (restoreDone_iff.mpr ⟨o, ho, hdone⟩) hrst)
        have hthere' := hblocked.2 source hs
        by_cases heq : source.volKey cfg = target''.volKey cfg
        · rw [heq] at hthere'
          exact hthere' (hgone' hfree)
        · refine hwhy.elim heq fun hp => hp (persists_of_tended ?_ (hvol _ heq))
          intro hnone
          rw [hvol' _ heq, hnone] at hthere'
          exact hthere' rfl
      · intro i hi hne _
        have hi0 : i ≠ 0 := by
          rintro rfl
          exact hne hv
        omega

/-- An abort comes to an end exactly when it is not stuck. -/
theorem converges_iff (cfg : Config) (w : World) (e : Obj .evacuation)
    (he : w.get .evacuation ⟨"", e.name⟩ = some e) (hcommitted : (viewStatus e).committed = false)
    (henters : entersAbort e = true)
    (hsigned : e.deleting = true → evacuationFinalizer ∈ e.metadata.finalizers) :
    Converges cfg e.name (viewStatus e) w ↔ ¬ Stuck cfg e.name (viewStatus e) w := by
  have hthere : e.gone = false := by
    by_contra hgone
    have hboth : e.deleting = true ∧ e.metadata.finalizers.isEmpty = true := by
      simpa [Obj.gone] using hgone
    have hmem := hsigned hboth.1
    simp [List.isEmpty_iff.mp hboth.2] at hmem
  have hheading : Heading e.name (viewStatus e) e.deleting w :=
    ⟨e, he, rfl, rfl, rfl, hcommitted, rfl, henters, hthere⟩
  have hsigned' : Signed e.name w := by
    intro e' he'
    rw [he] at he'
    rwa [← Option.some.inj he']
  constructor
  · rintro ⟨⟨n, hn⟩, -⟩ hstuck
    obtain ⟨h, hs, -⟩ := stuck_forever hheading hsigned' hstuck n
    exact not_finished h hs hn
  · intro hno
    have hpath := hheading.path
    cases ht : (viewStatus e).target with
    | none =>
      obtain ⟨hr, -⟩ := rounded_of_heading cfg hheading
      refine ⟨⟨1, ?_⟩, fun target htarget => by rw [ht] at htarget; cases htarget⟩
      cases hr with
      | finished done _ _ => exact done
      | destroying _ _ ht' _ _ _ _ _ _ _ => rw [ht] at ht'; cases ht'
      | adopting _ _ ht' _ _ _ _ _ _ _ _ _ => rw [ht] at ht'; cases ht'
      | unsourced _ _ ht' _ _ _ _ _ _ _ => rw [ht] at ht'; cases ht'
      | cleaning _ _ ht' _ _ _ _ _ _ _ _ => rw [ht] at ht'; cases ht'
    | some target =>
      cases htr : (viewStatus e).transfer with
      | none =>
        have hcalm : ∀ w', w'.get .zfsVolume (target.volKey cfg) = none →
            Calm cfg e.name (viewStatus e) target w' :=
          fun w' hv => ⟨hv, fun t ht' => by rw [htr] at ht'; cases ht'⟩
        obtain ⟨hr, -⟩ := rounded_of_heading cfg hheading
        refine ⟨⟨1, ?_⟩, fun target' ht' i j hij _ hgone => ?_⟩
        · cases hr with
          | finished done _ _ => exact done
          | destroying _ _ _ htr' _ _ _ _ _ _ => rw [htr] at htr'; cases htr'
          | adopting _ _ _ htr' _ _ _ _ _ _ _ _ => rw [htr] at htr'; cases htr'
          | unsourced _ _ _ htr' _ _ _ _ _ _ => rw [htr] at htr'; cases htr'
          | cleaning _ _ _ htr' _ _ _ _ _ _ _ => rw [htr] at htr'; cases htr'
        · obtain rfl : target = target' := Option.some.inj (ht.symm.trans ht')
          exact (calm_later ht hpath (hcalm _ hgone) hij).1
      | some t =>
        obtain ⟨m, hcalm, hpattern⟩ := reaches_calm ht htr hheading hno
        obtain ⟨n, hn⟩ := finishes_of_calm ht (path_rounds hpath m) hcalm
        refine ⟨⟨n + m, by rwa [rounds_add]⟩, fun target' ht' i j hij hv hgone => ?_⟩
        obtain rfl : target = target' := Option.some.inj (ht.symm.trans ht')
        by_cases hi : i < m
        · exact (calm_later ht hpath hcalm (Nat.le_trans (hpattern i hi hv hgone) hij)).1
        · exact absurd (calm_later ht hpath hcalm (Nat.le_of_not_lt hi)).1 hv

/-! ## A cancelled transfer -/

/-- The annotation of the PV is taken away, and the next reconcile cancels the evacuation. -/
def cancelledBy (name : String) : List SysAction :=
  .env (.update .pv (Sample.pv name "c1" "vol1" [])) :: Sample.reconcileOf name 9 2

/-- A transfer that is cancelled before its restore is done comes to its end. -/
theorem cancelled_transfer_converges : ∃ (as : List SysAction) (s : System) (e : Obj .evacuation)
    (source : SourceInfo) (target : TargetInfo) (t : TransferStatus),
    Run (System.step Sample.config) (fun _ _ => True) { world := {} } as s ∧
    s.world.get .evacuation ⟨"", e.name⟩ = some e ∧ (viewStatus e).phase = .aborting ∧
    (viewStatus e).source = some source ∧ (viewStatus e).target = some target ∧
    (viewStatus e).transfer = some t ∧
    s.world.get .zfsRestore (rstKey Sample.config e.name t.attempt) ≠ none ∧
    Converges Sample.config e.name (viewStatus e) s.world := by
  obtain ⟨s, hrun, hs⟩ := Run.exists_of_runList
    (p := fun s : System => (s.world.get .evacuation ⟨"", "pv1"⟩).any fun e =>
      !(viewStatus e).committed && decide ((viewStatus e).phase = .aborting) && !e.deleting &&
        (viewStatus e).source.isSome && (viewStatus e).target.isSome &&
        ((viewStatus e).transfer.any fun t =>
          (s.world.get .zfsRestore (rstKey Sample.config "pv1" t.attempt)).isSome) &&
        decide (¬ Stuck Sample.config "pv1" (viewStatus e) s.world))
    (show (runList (guarded (System.step Sample.config) fun _ _ => True) { world := {} }
      (Sample.toTransfer ++ cancelledBy "pv1")).any _ = true by decide +kernel)
  obtain ⟨e, he, hfacts⟩ := (Option.any_eq_true _ _).mp hs
  simp only [Bool.and_eq_true, Bool.not_eq_true', decide_eq_true_eq, Option.any_eq_true,
    Option.isSome_iff_exists] at hfacts
  obtain ⟨⟨⟨⟨⟨⟨hcommitted, hphase⟩, hdel⟩, source, hsource⟩, target, htarget⟩, t, ht, hrestore⟩,
    hfree⟩ := hfacts
  have hname : e.name = "pv1" := congrArg Key.name (World.get_key he)
  rw [← hname] at he hfree hrestore
  have henters : entersAbort e = true := by simp [entersAbort, hphase]
  have hsigned : e.deleting = true → evacuationFinalizer ∈ e.metadata.finalizers := by simp [hdel]
  have hconverges :=
    (converges_iff Sample.config s.world e he hcommitted henters hsigned).mpr hfree
  refine ⟨_, s, e, source, target, t, hrun, he, hphase, hsource, htarget, ht, ?_, hconverges⟩
  obtain ⟨rst, hrst⟩ := hrestore
  rw [hrst]
  exact Option.some_ne_none rst

/-! ## A cancelled evacuation with a finished restore -/

def cancelledCopy : List SysAction :=
  Sample.toTransfer ++
    Sample.restoreReport "pv1-evacr-a1" Sample.newHandle "n2" bkpStatusDone :: cancelledBy "pv1"

/-- From a state that the controller reaches by itself, the target volume is created and
destroyed in turns and the abort never ends. -/
theorem not_converges : ¬ ∀ (cfg : Config) (as : List SysAction) (s : System) (e : Obj .evacuation),
    Run (System.step cfg) (fun _ _ => True) { world := {} } as s →
    s.world.get .evacuation ⟨"", e.name⟩ = some e → (viewStatus e).committed = false →
    entersAbort e = true → Converges cfg e.name (viewStatus e) s.world := by
  intro h
  obtain ⟨s, hrun, hs⟩ := Run.exists_of_runList
    (p := fun s : System => (s.world.get .evacuation ⟨"", "pv1"⟩).any fun e =>
      !(viewStatus e).committed && entersAbort e && !e.deleting &&
        decide (Stuck Sample.config "pv1" (viewStatus e) s.world))
    (show (runList (guarded (System.step Sample.config) fun _ _ => True) { world := {} }
      cancelledCopy).any _ = true by decide +kernel)
  obtain ⟨e, he, hfacts⟩ := (Option.any_eq_true _ _).mp hs
  obtain ⟨⟨⟨hcommitted, henters⟩, hdel⟩, hstuck⟩ : (((viewStatus e).committed = false ∧
      entersAbort e = true) ∧ e.deleting = false) ∧
      Stuck Sample.config "pv1" (viewStatus e) s.world := by simpa using hfacts
  have hname : e.name = "pv1" := congrArg Key.name (World.get_key he)
  rw [← hname] at he hstuck
  have hthere : e.gone = false := by simp [Obj.gone, hdel]
  have hheading : Heading e.name (viewStatus e) e.deleting s.world :=
    ⟨e, he, rfl, rfl, rfl, hcommitted, rfl, henters, hthere⟩
  have hsigned : Signed e.name s.world := by
    intro e' he' hdel'
    rw [he] at he'
    rw [← Option.some.inj he', hdel] at hdel'
    cases hdel'
  obtain ⟨n, hn⟩ := (h Sample.config cancelledCopy s e hrun he hcommitted henters).ends
  obtain ⟨hhead, hsign, -⟩ := stuck_forever hheading hsigned hstuck n
  exact not_finished hhead hsign hn

end ZfsEvacuation.Abort
