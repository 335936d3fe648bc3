import ZfsEvacuation.LeaderProgress

/-!
# A lease that runs out is taken over

A lease that nobody renews any more is taken over by the first replica whose try begins
after the expiry, or by one that was faster.
-/
namespace ZfsEvacuation.Leader
open ClientProgram Program GuardedRun

def Action.fault : Action → Fault
  | .serve _ o => o.fault
  | _ => .none

/-- In time, and the call does not fail. -/
def Smooth (s : System) (a : Action) : Prop := InTime s a ∧ a.fault = .none

instance (s : System) (a : Action) : Decidable (Smooth s a) :=
  inferInstanceAs (Decidable (InTime s a ∧ a.fault = .none))

/-- The lease is there for whoever comes first. -/
def Free (s : System) : Prop := ∀ l ∈ s.lease, expiredAt l.details s.now = true

instance (s : System) : Decidable (Free s) :=
  inferInstanceAs (Decidable (∀ l ∈ s.lease, expiredAt l.details s.now = true))

/-- There is a call to be served or an answer to go on from. -/
def Work.underWay : Work → Bool
  | .asleep _ => false
  | .calling _ _ => true
  | .answered _ p => !p.finished

def Trying (s : System) (identity : String) : Prop :=
  ∃ r ∈ s.replicas.get identity, r.work.underWay = true

instance (s : System) (identity : String) : Decidable (Trying s identity) :=
  inferInstanceAs (Decidable (∃ r ∈ s.replicas.get identity, r.work.underWay = true))

/-- The replica leads, or its accepted write makes it lead as soon as the answer arrives. -/
def Entitled (s : System) (identity : String) : Prop :=
  ∃ r ∈ s.replicas.get identity, r.entitled = true

/-- Entitled, and its try has not failed. -/
def Firm (s : System) (identity : String) : Prop :=
  ∃ r, s.replicas.get identity = some r ∧ r.entitled = true ∧ r.stage ≠ .exited ∧
    ∀ tr e, r.work ≠ .answered tr (.fail e)

/-- The replica's try takes the lease that is stored. -/
def Attempts (s : System) (identity : String) : Prop :=
  ∃ r, s.replicas.get identity = some r ∧ r.stage ≠ .exited ∧
    ∃ p, r.work.prog = some p ∧ Takes s.lease s.now p

def Action.actor : Action → Option String
  | .tick _ => none
  | .boot identity => some identity
  | .wake identity => some identity
  | .serve identity _ => some identity
  | .resume identity => some identity

section Takeover
variable {s s' : System} {i k : String} {r : Replica} {a : Action}

theorem get_set_self (hid : r.identity = i) : (s.set r).replicas.get i = some r := by
  rw [System.set, KeyedStore.get_put, if_pos hid]

theorem get_set_work (hr : s.replicas.get i = some r) (work : Work) :
    (s.set { r with work }).replicas.get i = some { r with work } := by
  have hid : r.identity = i := KeyedStore.get_key hr
  exact get_set_self (r := { r with work }) hid

theorem get_set_other (hid : r.identity ≠ i) :
    (s.set r).replicas.get i = s.replicas.get i := by
  rw [System.set, KeyedStore.get_put, if_neg hid]

theorem get_set_work_other {j : String} (hr : s.replicas.get j = some r) (hj : j ≠ i)
    (work : Work) : (s.set { r with work }).replicas.get i = s.replicas.get i := by
  have hid : r.identity ≠ i := fun hi => hj ((KeyedStore.get_key hr).symm.trans hi)
  exact get_set_other (r := { r with work }) hid

/-- What a replica does changes that replica only. -/
theorem step_other (hstep : Stepped s a s') (hne : a.actor ≠ some k) :
    s'.replicas.get k = s.replicas.get k := by
  have hne' : ∀ i, a.actor = some i → i ≠ k := fun i hi hk => hne (hk ▸ hi)
  cases hstep with
  | tick nanos => rfl
  | boot i _ => exact get_set_other (r := { identity := i }) (hne' i rfl)
  | wake i r wakeAt found _ _ => exact get_set_work_other found (hne' i rfl) _
  | serve i o r tr c next found calling =>
    have hsame : (s.after o c).replicas.get i = some r := by rwa [after_replicas]
    have hget := get_set_work_other hsame (hne' i rfl)
      (.answered (⟨c, s.answer o c⟩ :: tr) (next (s.answer o c)))
    rwa [after_replicas] at hget
  | conclude i r tr p res found _ _ =>
    refine get_set_other ?_
    rw [identity_conclude, KeyedStore.get_key found]
    exact hne' i rfl
  | resume i r tr c next found _ => exact get_set_work_other found (hne' i rfl) _

theorem entitled_of_answered {tr : List (Event leaseInterface)}
    (h : r.work = .answered tr (.ret true)) : r.entitled = true := by
  cases hs : r.stage <;> simp [Replica.entitled, hs, h]

theorem past_of_entitled (h : r.entitled = true)
    (hwork : ∀ tr b, r.work ≠ .answered tr (.ret b)) : r.stage.past = true := by
  cases hs : r.stage with
  | leading t => rfl
  | acquiring =>
    simp only [Replica.entitled, hs] at h
    split at h <;> simp_all
  | exited =>
    simp only [Replica.entitled, hs] at h
    split at h <;> simp_all

theorem ret_of_renewing {tr : List (Event leaseInterface)} {b : Bool} (h : r.entitled = true)
    (hwork : r.work = .answered tr (.ret b)) (hrenewing : r.stage.past = true → Renewing s r.work) :
    b = true := by
  cases hs : r.stage with
  | leading t =>
    have hb := hrenewing (by rw [hs]; rfl)
    rw [hwork] at hb
    rcases hb with hb | ⟨e, he⟩
    · exact hb
    · cases he
  | acquiring => cases b <;> simp_all [Replica.entitled]
  | exited => cases b <;> simp_all [Replica.entitled]

theorem firm_of_concluded (hid : r.identity = k) :
    Firm (s.set (r.conclude s.now (.ok true))) k := by
  refine ⟨_, get_set_self (r := r.conclude s.now (.ok true)) hid, rfl, ?_, ?_⟩ <;>
    simp [Replica.conclude]

/-- A leader whose tries do not fail goes on leading. -/
theorem firm_step (h : Steady s) (hfirm : Firm s k)
    (hsmooth : Smooth s a) (hstep : Stepped s a s') : Firm s' k := by
  obtain ⟨r₀, hr₀, hentitled, halive, hgood⟩ := hfirm
  by_cases hactor : a.actor = some k
  swap
  · exact ⟨r₀, (step_other hstep hactor).trans hr₀, hentitled, halive, hgood⟩
  cases hstep with
  | tick nanos => cases hactor
  | boot i new =>
    obtain rfl := Option.some.inj hactor
    exact absurd (new r₀ hr₀) halive
  | wake i r wakeAt found asleep alive =>
    obtain rfl := Option.some.inj hactor
    obtain rfl := Option.some.inj (found.symm.trans hr₀)
    have hpast := past_of_entitled hentitled fun tr b => by simp [asleep]
    exact ⟨_, get_set_work found _, entitled_of_past hpast, alive, by simp⟩
  | serve i o r tr c next found calling =>
    obtain rfl := Option.some.inj hactor
    obtain rfl := Option.some.inj (found.symm.trans hr₀)
    have hpast := past_of_entitled hentitled fun tr b => by simp [calling]
    have htakes := h.renewing i r found hpast
    rw [calling] at htakes
    have hnext : Takes s.lease s.now (next (s.answer o c)) :=
      htakes.2 _ (expected_of_sound hsmooth.2 htakes.1)
    have hsame : (s.after o c).replicas.get i = some r := by rwa [after_replicas]
    refine ⟨_, get_set_work hsame _, entitled_of_past hpast, halive, ?_⟩
    intro tr' e hfail
    injection hfail with _ hfail
    rw [hfail] at hnext
    exact hnext
  | conclude i r tr p res found answered outcome =>
    obtain rfl := Option.some.inj hactor
    obtain rfl := Option.some.inj (found.symm.trans hr₀)
    cases p with
    | call c next => cases outcome
    | fail e => exact absurd answered (hgood tr e)
    | ret b =>
      obtain rfl : res = .ok b := outcome
      obtain rfl : b = true := ret_of_renewing hentitled answered (h.renewing i r found)
      exact firm_of_concluded (KeyedStore.get_key found)
  | resume i r tr c next found answered =>
    obtain rfl := Option.some.inj hactor
    obtain rfl := Option.some.inj (found.symm.trans hr₀)
    have hpast := past_of_entitled hentitled fun tr b => by simp [answered]
    exact ⟨_, get_set_work found _, entitled_of_past hpast, halive, by simp⟩

/-- Some replica is there to lead, or this one is about to take the lease. -/
def Claimed (s : System) (identity : String) : Prop := (∃ k, Firm s k) ∨ Attempts s identity

theorem firm_of_accepted {tr : List (Event leaseInterface)}
    (hget : s.replicas.get k = some r) (halive : r.stage ≠ .exited)
    (hwork : r.work = .answered tr (.ret true)) : Firm s k :=
  ⟨r, hget, entitled_of_answered hwork, halive, fun tr' e he => by simp [hwork] at he⟩

/-- A try goes on as before while neither the lease nor the replica changes. -/
theorem Attempts.later (h : Attempts s i) (hlease : s'.lease = s.lease) (hnow : s.now ≤ s'.now)
    (hget : s'.replicas.get i = s.replicas.get i) : Attempts s' i := by
  obtain ⟨r, hr, halive, p, hp, htakes⟩ := h
  refine ⟨r, hget.trans hr, halive, p, hp, ?_⟩
  rw [hlease]
  exact Takes.later htakes hnow

/-- Whoever stores a lease is there to lead. -/
theorem claimed_serve (h : Steady s) (hclaims : Attempts s i) {j : String} {o : Outcome}
    {tr : List (Event leaseInterface)} {c : Call} {next : c.Resp → Try Bool}
    (hr : s.replicas.get j = some r) (hwork : r.work = .calling tr (.call c next))
    (hf : o.fault = .none) :
    Claimed ((s.after o c).set
      { r with work := .answered (⟨c, s.answer o c⟩ :: tr) (next (s.answer o c)) }) i := by
  have hprompt : Prompt (.call c next) := h.prompt j r hr _ (by simp [hwork, Work.prog])
  have halive : r.stage ≠ .exited := h.alive hr (by rw [hwork]; rfl)
  have hsame : (s.after o c).replicas.get j = some r := by rwa [after_replicas]
  have hget := get_set_work hsame (.answered (⟨c, s.answer o c⟩ :: tr) (next (s.answer o c)))
  rcases after_cases s o c with hkept | ⟨l, hst, -⟩
  · refine .inr ?_
    by_cases hj : j = i
    · subst hj
      obtain ⟨r₀, hr₀, -, p, hp, htakes⟩ := hclaims
      obtain rfl := Option.some.inj (hr.symm.trans hr₀)
      obtain rfl : .call c next = p := by simpa [hwork, Work.prog] using hp
      refine ⟨_, hget, halive, _, rfl, ?_⟩
      have hnext := htakes.2 _ (expected_of_sound hf htakes.1)
      rw [hkept]
      exact hnext
    · rw [hkept]
      exact hclaims.later rfl (Nat.le_refl _) (get_set_work_other hr hj _)
  · have haccepted := accepted_of_expected hst (expected_of_sound hf (fits_of_stores hst))
    rw [hprompt.1 _ haccepted] at hget ⊢
    exact .inl ⟨j, firm_of_accepted hget halive rfl⟩

theorem claimed_step (h : Steady s) (hclaimed : Claimed s i)
    (hsmooth : Smooth s a) (hstep : Stepped s a s') : Claimed s' i := by
  rcases hclaimed with ⟨k, hfirm⟩ | hclaims
  · exact .inl ⟨k, firm_step h hfirm hsmooth hstep⟩
  by_cases hactor : a.actor = some i
  swap
  · have hget := step_other hstep hactor
    cases hstep with
    | tick nanos => exact .inr (hclaims.later rfl (Nat.le_add_right _ _) hget)
    | boot j new => exact .inr (hclaims.later rfl (Nat.le_refl _) hget)
    | wake j r wakeAt found asleep alive =>
      exact .inr (hclaims.later rfl (Nat.le_refl _) hget)
    | serve j o r tr c next found calling => exact claimed_serve h hclaims found calling hsmooth.2
    | conclude j r tr p res found answered outcome =>
      exact .inr (hclaims.later rfl (Nat.le_refl _) hget)
    | resume j r tr c next found answered =>
      exact .inr (hclaims.later rfl (Nat.le_refl _) hget)
  have hclaims' := hclaims
  obtain ⟨r₀, hr₀, halive₀, p₀, hp₀, htakes⟩ := hclaims
  cases hstep with
  | tick nanos => cases hactor
  | boot j new =>
    obtain rfl := Option.some.inj hactor
    exact absurd (new r₀ hr₀) halive₀
  | wake j r wakeAt found asleep alive =>
    obtain rfl := Option.some.inj hactor
    obtain rfl := Option.some.inj (found.symm.trans hr₀)
    simp [asleep, Work.prog] at hp₀
  | serve j o r tr c next found calling => exact claimed_serve h hclaims' found calling hsmooth.2
  | conclude j r tr p res found answered outcome =>
    obtain rfl := Option.some.inj hactor
    obtain rfl := Option.some.inj (found.symm.trans hr₀)
    obtain rfl : p = p₀ := by simpa [answered, Work.prog] using hp₀
    cases p with
    | call c next => cases outcome
    | fail e => cases htakes
    | ret b =>
      obtain rfl : res = .ok b := outcome
      obtain rfl : b = true := htakes
      exact .inl ⟨j, firm_of_concluded (KeyedStore.get_key found)⟩
  | resume j r tr c next found answered =>
    obtain rfl := Option.some.inj hactor
    obtain rfl := Option.some.inj (found.symm.trans hr₀)
    obtain rfl : .call c next = p₀ := by simpa [answered, Work.prog] using hp₀
    exact .inr ⟨_, get_set_work found _, halive₀, _, rfl, htakes⟩

abbrev Smoothly (s : System) (as : List Action) (s' : System) : Prop :=
  Run System.step Smooth s as s'

theorem inv_smoothly {as : List Action} (h : Smoothly s as s') (hinv : Inv s)
    (hsteady : Steady s) : Inv s' ∧ Steady s' := by
  induction h with
  | start => exact ⟨hinv, hsteady⟩
  | snoc _ hsmooth hstep ih =>
    exact ⟨inv_step ih.1 hsmooth.1 hstep, steady_step ih.1 ih.2 (stepped_of_step hstep)⟩

theorem firm_smoothly {as : List Action} (h : Smoothly s as s') (hinv : Inv s)
    (hsteady : Steady s) (hfirm : Firm s k) : Firm s' k :=
  h.invariant_over (fun hrun => inv_smoothly hrun hinv hsteady) hfirm
    fun _ _ _ hs hf hsmooth hstep => firm_step hs.2 hf hsmooth (stepped_of_step hstep)

theorem claimed_smoothly {as : List Action} (h : Smoothly s as s') (hinv : Inv s)
    (hsteady : Steady s) (hclaimed : Claimed s i) : Claimed s' i :=
  h.invariant_over (fun hrun => inv_smoothly hrun hinv hsteady) hclaimed
    fun _ _ _ hs hc hsmooth hstep => claimed_step hs.2 hc hsmooth (stepped_of_step hstep)

/-- A replica that wakes while the lease is free is about to take it. -/
theorem attempts_of_wake (hfree : Free s) (hstep : Stepped s (.wake i) s') : Attempts s' i := by
  cases hstep with
  | wake _ r wakeAt found asleep alive =>
    refine ⟨_, get_set_work found _, alive, _, rfl, takes_tryAcquire fun l hl => .inr ?_⟩
    exact hfree l hl

theorem firm_of_over (h : Attempts s i) (hover : ¬ Trying s i) : Firm s i := by
  obtain ⟨r, hr, halive, p, hp, htakes⟩ := h
  cases hw : r.work with
  | asleep _ => simp [hw, Work.prog] at hp
  | calling tr q => exact absurd ⟨r, hr, by simp [hw, Work.underWay]⟩ hover
  | answered tr q =>
    obtain rfl : q = p := by simpa [hw, Work.prog] using hp
    cases q with
    | call c next => exact absurd ⟨r, hr, by simp [hw, Work.underWay, Program.finished]⟩ hover
    | fail e => cases htakes
    | ret b =>
      obtain rfl : b = true := htakes
      exact firm_of_accepted hr halive hw

theorem Firm.entitled (h : Firm s k) : Entitled s k := by
  obtain ⟨r, hr, hentitled, -⟩ := h
  exact ⟨r, hr, hentitled⟩

end Takeover

/-- A lease that nobody renews is taken over: in a run whose calls had failed and whose
processes had died as they liked, let a replica wake after the lease has run out. If no call
fails from then on, some replica leads for good once the try that began then is over. -/
theorem takes_over {now : Nat} {lease : Option Lease} {xs : List Happening} {as : List Action}
    {s s₁ s₂ : System} {i : String} (h : Lives now lease xs s) (hfree : Free s)
    (hwake : s.step (.wake i) = some s₁) (hrun : Smoothly s₁ as s₂) (hover : ¬ Trying s₂ i) :
    ∃ k, ∀ bs s₃, Smoothly s₂ bs s₃ → Entitled s₃ k := by
  obtain ⟨hinv, hsteady⟩ := inv_lives h
  have hinv₁ := inv_step hinv (a := .wake i) trivial hwake
  have hsteady₁ := steady_step hinv hsteady (stepped_of_step hwake)
  have hattempts := attempts_of_wake hfree (stepped_of_step hwake)
  obtain ⟨hinv₂, hsteady₂⟩ := inv_smoothly hrun hinv₁ hsteady₁
  have hfirm : ∃ k, Firm s₂ k := by
    rcases claimed_smoothly hrun hinv₁ hsteady₁ (.inr hattempts) with hfirm | hattempts
    · exact hfirm
    · exact ⟨i, firm_of_over hattempts hover⟩
  obtain ⟨k, hk⟩ := hfirm
  exact ⟨k, fun bs s₃ hbs => (firm_smoothly hbs hinv₂ hsteady₂ hk).entitled⟩

/-- The first replica leads and dies, and its lease runs out. -/
def abandoned : List Happening :=
  ([Action.boot "a"] ++ tryOf "a" 4 ++ [Action.boot "b"]).map Happening.act ++
    [.crash "a", .act (seconds 31)]

theorem takes_over_abandoned : ∃ s s₁ as s₂, Lives 0 none abandoned s ∧ Free s ∧
    s.step (.wake "b") = some s₁ ∧ Smoothly s₁ as s₂ ∧ s₂.Leads "b" ∧
    ∃ k, ∀ bs s₃, Smoothly s₂ bs s₃ → Entitled s₃ k := by
  obtain ⟨s, hlives, hs⟩ := Run.exists_of_runList
    (p := fun s : System => decide (Free s) && (s.step (.wake "b")).any fun s₁ : System =>
      (runList (guarded System.step Smooth) s₁ (tryOf "b" 5).tail).any fun s₂ : System =>
        decide (s₂.Leads "b" ∧ ¬ Trying s₂ "b"))
    (show (runList (guarded System.happen Timely) (System.start 0 none) abandoned).any _ = true by
      decide +kernel)
  obtain ⟨hfree, hwake⟩ := Bool.and_eq_true_iff.mp hs
  obtain ⟨s₁, hs₁, hafter⟩ := (Option.any_eq_true ..).mp hwake
  obtain ⟨s₂, hrun, hs₂⟩ := Run.exists_of_runList hafter
  obtain ⟨hleads, hover⟩ := of_decide_eq_true hs₂
  exact ⟨s, s₁, _, s₂, hlives, of_decide_eq_true hfree, hs₁, hrun, hleads,
    takes_over hlives (of_decide_eq_true hfree) hs₁ hrun hover⟩

end ZfsEvacuation.Leader
