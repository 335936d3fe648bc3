import ZfsEvacuation.LeaderElection

/-!
# At most one leader

A replica that leads holds a lease that is not expired, as long as its renewals are in
time. Only an expired lease is taken over, so no second replica gets past the acquire
loop.
-/
namespace ZfsEvacuation.Leader
open ClientProgram Program GuardedRun

/-! ## What a try may write -/

def SawLease (tr : List (Event leaseInterface)) (l : Lease) : Prop :=
  (⟨.getOpt, (.ok (some l) : Except ApiError (Option Lease))⟩ : Event leaseInterface) ∈ tr

def Clocked (tr : List (Event leaseInterface)) (t : Nat) : Prop :=
  (⟨.now, t⟩ : Event leaseInterface) ∈ tr

/-- The lease is the replica's own or was expired on the clock it has read. -/
def Takeable (identity : String) (tr : List (Event leaseInterface)) (l : Lease) : Prop :=
  l.holder = identity ∨ ∃ t, (t = 0 ∨ Clocked tr t) ∧ expiredAt l.details t = true

def MayCall (identity : String) (tr : List (Event leaseInterface)) : Call → Prop
  | .create l => l.holder = identity
  | .replace l => l.holder = identity ∧
      ∃ seen, SawLease tr seen ∧ l.resourceVersion = seen.resourceVersion ∧ Takeable identity tr seen
  | _ => True

/-- A try that succeeds has just had a write accepted. -/
def Accepted (identity : String) (tr : List (Event leaseInterface)) (b : Bool) : Prop :=
  b = true → ∃ l, l.holder = identity ∧
    (tr.head? = some ⟨.create l, (.ok () : Except ApiError Unit)⟩ ∨
      tr.head? = some ⟨.replace l, (.ok () : Except ApiError Unit)⟩)

section Try
variable {identity : String} {tr : List (Event leaseInterface)}

theorem Takeable.later {l : Lease} (h : Takeable identity tr l) (e : Event leaseInterface) :
    Takeable identity (e :: tr) l := by
  rcases h with h | ⟨t, ht, hexp⟩
  · exact .inl h
  · exact .inr ⟨t, ht.imp id (List.mem_cons_of_mem _), hexp⟩

theorem createLease_follows :
    Follows (MayCall identity) (Accepted identity) tr (createLease identity) := by
  refine ⟨trivial, fun acquireTime => ⟨trivial, fun renewTime => ⟨rfl, fun r => ?_⟩⟩⟩
  rcases r with (_ | _ | text) | _
  · trivial
  · exact fun h => by cases h
  · trivial
  · exact fun _ => ⟨_, rfl, .inl rfl⟩

theorem replaceLease_follows {l : Lease} (hseen : SawLease tr l) (htake : Takeable identity tr l)
    (acquireTime : Option Nat) :
    Follows (MayCall identity) (Accepted identity) tr (replaceLease identity l acquireTime) := by
  refine ⟨trivial, fun t => ⟨⟨rfl, l, List.mem_cons_of_mem _ hseen, rfl, htake.later _⟩, ?_⟩⟩
  intro r
  rcases r with (_ | _ | text) | _
  · trivial
  · simp only
    split_ifs
    · trivial
    · intro h
      cases h
  · trivial
  · exact fun _ => ⟨_, rfl, .inr rfl⟩

theorem takeLease_follows {l : Lease} {expired : Bool} (hseen : SawLease tr l)
    (hexp : expired = true → Takeable identity tr l) :
    Follows (MayCall identity) (Accepted identity) tr (takeLease identity l expired) := by
  unfold takeLease
  split_ifs with hother hexpired
  · refine ⟨trivial, fun t => ?_⟩
    have htake : Takeable identity (⟨.now, t⟩ :: tr) l := (hexp hexpired).later _
    exact replaceLease_follows (List.mem_cons_of_mem _ hseen) htake _
  · intro h
    cases h
  · exact replaceLease_follows hseen (.inl (by simpa using hother)) _

/-- A lease that has been read is taken over if it is this process's own or has expired. -/
theorem heldLease_follows {l : Lease} (hseen : SawLease tr l) :
    Follows (MayCall identity) (Accepted identity) tr (match l.details.renewTime with
      | none => takeLease identity l true
      | some _ => (do
        let t : Nat ← send .now
        takeLease identity l (expiredAt l.details t))) := by
  cases hrenew : l.details.renewTime with
  | none =>
    have hexp : expiredAt l.details 0 = true := by simp [expiredAt, hrenew]
    exact takeLease_follows hseen fun _ => .inr ⟨0, .inl rfl, hexp⟩
  | some t₀ =>
    refine ⟨trivial, fun t => takeLease_follows (List.mem_cons_of_mem _ hseen) fun hexp => ?_⟩
    exact .inr ⟨t, .inr List.mem_cons_self, hexp⟩

theorem tryAcquire_follows (identity : String) :
    Follows (MayCall identity) (Accepted identity) [] (tryAcquire identity) := by
  refine ⟨trivial, fun r => ?_⟩
  rcases r with _ | _ | l
  · trivial
  · exact createLease_follows
  · exact heldLease_follows List.mem_cons_self

end Try

/-! ## The invariant -/

theorem expiredAt_mono {spec : LeaseSpec} {t t' : Nat} (h : expiredAt spec t = true)
    (hle : t ≤ t') : expiredAt spec t' = true := by
  unfold expiredAt at h ⊢
  cases hr : spec.renewTime with
  | none => rfl
  | some t₀ =>
    rw [hr] at h
    have hlt : spec.leaseDurationSeconds.getD leaseDurationSecs <
        ((t / 10 ^ 9 : Nat) : Int) - (t₀ / 10 ^ 9 : Nat) := by simpa using h
    have hdiv : t / 10 ^ 9 ≤ t' / 10 ^ 9 := Nat.div_le_div_right hle
    simp only [gt_iff_lt, decide_eq_true_eq]
    omega

/-- The replica leads, or the write that makes it lead is accepted and the answer under way. -/
def Replica.entitled (r : Replica) : Bool :=
  match r.stage, r.work with
  | .leading _, _ => true
  | _, .answered _ (.ret true) => true
  | _, _ => false

/-- The lease that the next call of the replica asks to be stored. -/
def Replica.writes (r : Replica) : Option Lease :=
  match r.work with
  | .calling _ (.call (.create l) _) => some l
  | .calling _ (.call (.replace l) _) => some l
  | _ => none

/-- What a try has read is not newer than what is stored, and its clock not ahead. -/
structure Past (s : System) (tr : List (Event leaseInterface)) : Prop where
  older : ∀ l, SawLease tr l → l.resourceVersion < s.revision
  same : ∀ l, SawLease tr l → ∀ cur, s.lease = some cur →
    cur.resourceVersion = l.resourceVersion → cur = l
  clock : ∀ t, Clocked tr t → t ≤ s.now

def Sound (s : System) (identity : String) : Work → Prop
  | .asleep _ => True
  | .calling tr prog => Past s tr ∧ Follows (MayCall identity) (Accepted identity) tr prog
  | .answered tr prog => Past s tr ∧ Follows (MayCall identity) (Accepted identity) tr prog

def Holds (s : System) (identity : String) : Prop :=
  ∃ l, s.lease = some l ∧ l.holder = identity ∧ expiredAt l.details s.now = false

structure Inv (s : System) : Prop where
  versioned : ∀ l, s.lease = some l → l.resourceVersion < s.revision
  sound : ∀ i r, s.replicas.get i = some r → Sound s i r.work
  holds : ∀ i r, s.replicas.get i = some r → r.entitled = true → Holds s i

/-- Every write is stored before the lease it asks for is expired, and the clock does not
pass the expiry of a lease while its holder leads or waits for the answer. -/
def InTime (s : System) : Action → Prop
  | .tick nanos => ∀ r ∈ s.replicas.items, r.entitled = true → ∀ l ∈ s.lease,
      expiredAt l.details (s.now + nanos) = false
  | .serve identity _ => ∀ r ∈ s.replicas.get identity, ∀ l ∈ r.writes,
      expiredAt l.details s.now = false
  | _ => True

instance (s : System) (a : Action) : Decidable (InTime s a) := by
  cases a <;> unfold InTime <;> infer_instance

section Steps
variable {s s' : System} {i j : String} {r : Replica}

theorem Past.tick {tr : List (Event leaseInterface)} (h : Past s tr) (nanos : Nat) :
    Past { s with now := s.now + nanos } tr :=
  ⟨h.older, h.same, fun t ht => Nat.le_trans (h.clock t ht) (Nat.le_add_right _ _)⟩

theorem Past.store {tr : List (Event leaseInterface)} (h : Past s tr) (l : Lease) :
    Past (s.store l) tr := by
  refine ⟨fun seen hs => Nat.lt_succ_of_lt (h.older seen hs), fun seen hs cur hcur heq => ?_, h.clock⟩
  obtain rfl := Option.some.inj hcur
  have hlt := h.older seen hs
  have heq' : s.revision = seen.resourceVersion := heq
  omega

theorem Past.nil (s : System) : Past s [] :=
  ⟨nofun, nofun, nofun⟩

theorem Sound.mono {work : Work} (h : Sound s i work) (hpast : ∀ tr, Past s tr → Past s' tr) :
    Sound s' i work := by
  cases work with
  | asleep _ => trivial
  | calling tr prog => exact ⟨hpast tr h.1, h.2⟩
  | answered tr prog => exact ⟨hpast tr h.1, h.2⟩

/-- A replica changes and nothing else does. -/
theorem Inv.set (h : Inv s) (hsound : Sound s r.identity r.work)
    (hholds : r.entitled = true → Holds s r.identity) : Inv (s.set r) := by
  refine ⟨h.versioned, fun k r' hr' => ?_, fun k r' hr' he => ?_⟩
  · rw [System.set, KeyedStore.get_put] at hr'
    split_ifs at hr' with hk
    · obtain rfl := Option.some.inj hr'
      exact hk ▸ hsound.mono fun tr hp => ⟨hp.older, hp.same, hp.clock⟩
    · exact (h.sound k r' hr').mono fun tr hp => ⟨hp.older, hp.same, hp.clock⟩
  · rw [System.set, KeyedStore.get_put] at hr'
    split_ifs at hr' with hk
    · obtain rfl := Option.some.inj hr'
      exact hk ▸ hholds he
    · exact h.holds k r' hr' he

/-- Which write a call makes, if it is accepted. -/
inductive Stores (s : System) : Call → Lease → Prop
  | create (l : Lease) (absent : s.lease = none) : Stores s (.create l) l
  | replace (l cur : Lease) (stored : s.lease = some cur)
      (version : cur.resourceVersion = l.resourceVersion) : Stores s (.replace l) l

theorem after_cases (s : System) (o : Outcome) (c : Call) :
    s.after o c = s ∨ ∃ l, Stores s c l ∧ s.after o c = s.store l := by
  unfold System.after
  split_ifs with hlost
  · exact .inl rfl
  · cases c with
    | getOpt => exact .inl rfl
    | now => exact .inl rfl
    | create l =>
      cases hl : s.lease with
      | none => exact .inr ⟨l, .create l hl, by simp [System.effect, System.create, hl]⟩
      | some cur => exact .inl (by simp [System.effect, System.create, hl])
    | replace l =>
      cases hl : s.lease with
      | none => exact .inl (by simp [System.effect, System.replace, hl])
      | some cur =>
        by_cases hv : cur.resourceVersion = l.resourceVersion
        · exact .inr ⟨l, .replace l cur hl hv, by simp [System.effect, System.replace, hl, hv]⟩
        · exact .inl (by simp [System.effect, System.replace, hl, hv])

theorem write_ok {o : Outcome} {x : Except ApiError Unit} (h : o.write x = .ok ()) :
    o.fault = .none ∧ x = .ok () := by
  unfold Outcome.write at h
  cases hf : o.fault <;> rw [hf] at h
  · exact ⟨rfl, h⟩
  · cases h
  · cases h

/-- A call that was answered with success has stored its lease. -/
theorem stored_of_create {o : Outcome} {l : Lease} (h : s.answer o (.create l) = .ok ()) :
    Stores s (.create l) l ∧ s.after o (.create l) = s.store l := by
  obtain ⟨hf, hx⟩ := write_ok h
  cases hl : s.lease with
  | none => exact ⟨.create l hl, by simp [System.after, hf, System.effect, System.create, hl]⟩
  | some cur => simp [System.create, hl] at hx

theorem stored_of_replace {o : Outcome} {l : Lease} (h : s.answer o (.replace l) = .ok ()) :
    Stores s (.replace l) l ∧ s.after o (.replace l) = s.store l := by
  obtain ⟨hf, hx⟩ := write_ok h
  cases hl : s.lease with
  | none => simp [System.replace, hl] at hx
  | some cur =>
    by_cases hv : cur.resourceVersion = l.resourceVersion
    · exact ⟨.replace l cur hl hv, by simp [System.after, hf, System.effect, System.replace, hl, hv]⟩
    · simp [System.replace, hl, hv] at hx

/-- Nobody but its holder replaces a lease that is not expired. -/
theorem holder_of_stores {tr : List (Event leaseInterface)} {c : Call} {l : Lease}
    (hpast : Past s tr) (hmay : MayCall i tr c) (hst : Stores s c l) (hj : Holds s j) : j = i := by
  obtain ⟨cur, hcur, rfl, hexp⟩ := hj
  cases hst with
  | create _ habsent =>
    rw [hcur] at habsent
    cases habsent
  | replace _ cur' hcur' hv =>
    obtain rfl : cur' = cur := Option.some.inj (hcur'.symm.trans hcur)
    obtain ⟨-, seen, hseen, hversion, htake⟩ := hmay
    obtain rfl := hpast.same seen hseen cur' hcur (hv.trans hversion)
    rcases htake with hown | ⟨t, ht, hexpired⟩
    · exact hown
    · have hle : t ≤ s.now := by
        rcases ht with rfl | ht
        · exact Nat.zero_le _
        · exact hpast.clock t ht
      rw [expiredAt_mono hexpired hle] at hexp
      cases hexp

/-- Serving a call shows its caller nothing newer than what is stored. -/
theorem Past.served {tr : List (Event leaseInterface)} (h : Past s tr)
    (hversion : ∀ l, s.lease = some l → l.resourceVersion < s.revision) (o : Outcome) (c : Call) :
    Past s (⟨c, s.answer o c⟩ :: tr) := by
  have hread : ∀ l, (⟨.getOpt, (.ok (some l) : Except ApiError (Option Lease))⟩ :
      Event leaseInterface) = ⟨c, s.answer o c⟩ → s.lease = some l := by
    intro l heq
    cases c with
    | getOpt =>
      have hans : o.read s.lease = .ok (some l) := (eq_of_heq (Sigma.mk.inj heq).2).symm
      unfold Outcome.read at hans
      cases hf : o.fault <;> rw [hf] at hans
      · exact Except.ok.inj hans
      · cases hans
      · cases hans
    | create l' => cases (Sigma.mk.inj heq).1
    | replace l' => cases (Sigma.mk.inj heq).1
    | now => cases (Sigma.mk.inj heq).1
  refine ⟨fun l hl => ?_, fun l hl cur hcur hv => ?_, fun t ht => ?_⟩
  · rcases List.mem_cons.mp hl with heq | hl
    · exact hversion l (hread l heq)
    · exact h.older l hl
  · rcases List.mem_cons.mp hl with heq | hl
    · exact Option.some.inj (hcur.symm.trans (hread l heq))
    · exact h.same l hl cur hcur hv
  · rcases List.mem_cons.mp ht with heq | ht
    · cases c with
      | now =>
        have hans : t = s.now := eq_of_heq (Sigma.mk.inj heq).2
        omega
      | getOpt => cases (Sigma.mk.inj heq).1
      | create l' => cases (Sigma.mk.inj heq).1
      | replace l' => cases (Sigma.mk.inj heq).1
    · exact h.clock t ht

theorem stored_of_accepted {o : Outcome} {tr : List (Event leaseInterface)} {c : Call}
    (h : ∃ l, l.holder = i ∧
      ((⟨c, s.answer o c⟩ :: tr).head? = some ⟨.create l, (.ok () : Except ApiError Unit)⟩ ∨
        (⟨c, s.answer o c⟩ :: tr).head? = some ⟨.replace l, (.ok () : Except ApiError Unit)⟩)) :
    ∃ l, Stores s c l ∧ s.after o c = s.store l := by
  obtain ⟨l, -, hhead | hhead⟩ := h
  · obtain ⟨rfl, hans⟩ := Sigma.mk.inj (Option.some.inj hhead)
    exact ⟨l, stored_of_create (eq_of_heq hans)⟩
  · obtain ⟨rfl, hans⟩ := Sigma.mk.inj (Option.some.inj hhead)
    exact ⟨l, stored_of_replace (eq_of_heq hans)⟩

theorem ret_of_entitled {tr : List (Event leaseInterface)} {prog : Try Bool}
    (hno : ¬ r.entitled = true) (h : ({ r with work := .answered tr prog } : Replica).entitled = true) :
    prog = .ret true := by
  cases hs : r.stage with
  | leading t => exact absurd (by simp [Replica.entitled, hs]) hno
  | acquiring =>
    simp only [Replica.entitled, hs] at h
    split at h <;> simp_all
  | exited =>
    simp only [Replica.entitled, hs] at h
    split at h <;> simp_all

theorem holder_of_mayCall {tr : List (Event leaseInterface)} {c : Call} {l : Lease}
    (hmay : MayCall i tr c) (hst : Stores s c l) : l.holder = i := by
  cases hst with
  | create _ _ => exact hmay
  | replace _ _ _ _ => exact hmay.1

theorem holds_store {l : Lease} (hl : l.holder = i) (hexp : expiredAt l.details s.now = false) :
    Holds (s.store l) i := ⟨{ l with resourceVersion := s.revision }, rfl, hl, hexp⟩

theorem entitled_calling (r : Replica) (tr : List (Event leaseInterface)) (prog : Try Bool) :
    ({ r with work := .calling tr prog } : Replica).entitled = true → r.entitled = true := by
  cases hs : r.stage <;> simp [Replica.entitled, hs]

theorem entitled_conclude (r : Replica) (now : Nat) (res : Except Error Bool)
    (h : (r.conclude now res).entitled = true) : r.entitled = true ∨ res = .ok true := by
  match res with
  | .ok true => exact .inr rfl
  | .ok false =>
    refine .inl ?_
    cases hs : r.stage <;> simp [Replica.conclude, Replica.entitled, hs] at h ⊢
  | .error e =>
    refine .inl ?_
    cases hs : r.stage with
    | leading t => simp [Replica.entitled, hs]
    | acquiring => simp [Replica.conclude, Replica.entitled, hs] at h
    | exited => simp [Replica.conclude, Replica.entitled, hs] at h

theorem sound_conclude (s : System) (r : Replica) (now : Nat) (res : Except Error Bool) :
    Sound s (r.conclude now res).identity (r.conclude now res).work := by
  match res with
  | .ok true => trivial
  | .ok false => cases hs : r.stage <;> simp [Replica.conclude, hs, Sound]
  | .error e =>
    cases hs : r.stage with
    | leading t =>
      simp only [Replica.conclude, hs]
      split_ifs <;> trivial
    | acquiring => simp [Replica.conclude, hs, Sound]
    | exited => simp [Replica.conclude, hs, Sound]

theorem identity_conclude (r : Replica) (now : Nat) (res : Except Error Bool) :
    (r.conclude now res).identity = r.identity := by
  match res with
  | .ok true => rfl
  | .ok false => cases hs : r.stage <;> simp [Replica.conclude, hs]
  | .error e =>
    cases hs : r.stage with
    | leading t =>
      simp only [Replica.conclude, hs]
      split_ifs <;> rfl
    | acquiring => simp [Replica.conclude, hs]
    | exited => simp [Replica.conclude, hs]

theorem inv_tick (h : Inv s) {nanos : Nat} (hin : InTime s (.tick nanos)) :
    Inv { s with now := s.now + nanos } := by
  refine ⟨h.versioned, fun k r hr => (h.sound k r hr).mono fun tr hp => hp.tick nanos, ?_⟩
  intro k r hr he
  obtain ⟨l, hl, hk, -⟩ := h.holds k r hr he
  exact ⟨l, hl, hk, hin r (KeyedStore.mem_of_get hr) he l hl⟩

/-- A call is served: the lease stays, or it becomes the caller's. -/
theorem inv_serve (h : Inv s) (hr : s.replicas.get i = some r) {o : Outcome}
    {tr : List (Event leaseInterface)} {c : Call} {next : c.Resp → Try Bool}
    (hwork : r.work = .calling tr (.call c next))
    (hin : InTime s (.serve i o)) :
    Inv ((s.after o c).set
      { r with work := .answered (⟨c, s.answer o c⟩ :: tr) (next (s.answer o c)) }) := by
  have hid : r.identity = i := KeyedStore.get_key hr
  obtain ⟨hpast, hfollows⟩ : Past s tr ∧ Follows (MayCall i) (Accepted i) tr (.call c next) := by
    have hsound := h.sound i r hr
    rwa [hwork] at hsound
  have hmay : MayCall i tr c := hfollows.1
  have hexp : ∀ l, Stores s c l → expiredAt l.details s.now = false := by
    intro l hst
    refine hin r hr l ?_
    cases hst <;> simp [Replica.writes, hwork]
  have hpast' : Past s (⟨c, s.answer o c⟩ :: tr) := hpast.served h.versioned o c
  have hsound : Sound s i (.answered (⟨c, s.answer o c⟩ :: tr) (next (s.answer o c))) :=
    ⟨hpast', hfollows.2 _⟩
  -- a replica that gets its lease accepted here is the one that stores it
  have hentitled : ({ r with work := .answered (⟨c, s.answer o c⟩ :: tr) (next (s.answer o c)) } :
      Replica).entitled = true → Holds s i ∨ ∃ l, Stores s c l ∧ s.after o c = s.store l := by
    intro he
    by_cases hlead : r.entitled = true
    · exact .inl (h.holds i r hr hlead)
    · have hret : next (s.answer o c) = .ret true := ret_of_entitled hlead he
      have hacc : Accepted i (⟨c, s.answer o c⟩ :: tr) true := by
        have hpost := hfollows.2 (s.answer o c)
        rwa [hret] at hpost
      exact .inr (stored_of_accepted (hacc rfl))
  rcases after_cases s o c with hsame | ⟨l, hst, hstore⟩
  · rw [hsame]
    refine h.set (r := { r with work := _ }) (hid.symm ▸ hsound) fun he => ?_
    rcases hentitled he with hholds | ⟨l, -, hstore⟩
    · exact hid.symm ▸ hholds
    · have hrev : s.revision = s.revision + 1 :=
        congrArg System.revision (hsame.symm.trans hstore)
      omega
  · rw [hstore]
    have hl : l.holder = i := holder_of_mayCall hmay hst
    have hmine : Holds (s.store l) i := holds_store hl (hexp l hst)
    have hinv : Inv (s.store l) := by
      refine ⟨fun cur hcur => ?_, fun k r' hr' => ?_, fun k r' hr' he => ?_⟩
      · obtain rfl := Option.some.inj hcur
        exact Nat.lt_succ_self _
      · exact (h.sound k r' hr').mono fun tr hp => hp.store l
      · obtain rfl : k = i := holder_of_stores hpast hmay hst (h.holds k r' hr' he)
        exact hmine
    refine hinv.set (r := { r with work := _ }) ?_ fun _ => hid.symm ▸ hmine
    exact hid.symm ▸ hsound.mono fun tr hp => hp.store l

theorem inv_step {a : Action} (h : Inv s) (hin : InTime s a) (hstep : s.step a = some s') :
    Inv s' := by
  cases a with
  | tick nanos =>
    cases hstep
    exact inv_tick h hin
  | boot identity =>
    have hnew : Inv (s.set { identity }) := h.set trivial (fun he => by cases he)
    simp only [System.step] at hstep
    split at hstep
    · split_ifs at hstep
      cases hstep
      exact hnew
    · cases hstep
      exact hnew
  | wake identity =>
    obtain ⟨r, hr, hstep⟩ := Option.bind_eq_some_iff.mp hstep
    have hid : r.identity = identity := KeyedStore.get_key hr
    split at hstep
    · cases hstep
    · rename_i wakeAt hwork
      split_ifs at hstep
      cases hstep
      refine h.set ⟨Past.nil s, ?_⟩ fun he => ?_
      · exact hid.symm ▸ tryAcquire_follows identity
      · exact hid.symm ▸ h.holds identity r hr (entitled_calling r _ _ he)
    · cases hstep
  | serve identity o =>
    obtain ⟨r, hr, hstep⟩ := Option.bind_eq_some_iff.mp hstep
    split at hstep
    · rename_i tr c next hwork
      cases hstep
      exact inv_serve h hr hwork hin
    · cases hstep
  | resume identity =>
    obtain ⟨r, hr, hstep⟩ := Option.bind_eq_some_iff.mp hstep
    have hid : r.identity = identity := KeyedStore.get_key hr
    have hconclude : ∀ res, (res = .ok true → r.entitled = true) →
        Inv (s.set (r.conclude s.now res)) := by
      intro res hres
      refine h.set (sound_conclude s r s.now res) fun he => ?_
      rw [identity_conclude, hid]
      exact h.holds identity r hr ((entitled_conclude r s.now res he).elim id hres)
    split at hstep
    · rename_i tr b hwork
      cases hstep
      refine hconclude _ fun hb => ?_
      obtain rfl : b = true := Except.ok.inj hb
      cases hs : r.stage <;> simp [Replica.entitled, hwork, hs]
    · cases hstep
      exact hconclude _ (fun hb => by cases hb)
    · rename_i tr c next hwork
      cases hstep
      have hsound : Sound s identity (.answered tr (.call c next)) := hwork ▸ h.sound identity r hr
      refine h.set (hid.symm ▸ hsound) fun he => ?_
      exact hid.symm ▸ h.holds identity r hr (entitled_calling r _ _ he)
    · cases hstep

theorem inv_start (now : Nat) (lease : Option Lease) : Inv (System.start now lease) := by
  refine ⟨fun l hl => ?_, nofun, nofun⟩
  obtain rfl : lease = some l := hl
  exact Nat.lt_succ_self _

theorem holds_of_leads (h : Inv s) (hi : s.Leads i) : Holds s i := by
  obtain ⟨r, hr, hpast⟩ := hi
  refine h.holds i r hr ?_
  cases hs : r.stage with
  | leading t => simp [Replica.entitled, hs]
  | acquiring => simp [Stage.past, hs] at hpast
  | exited => simp [Stage.past, hs] at hpast

end Steps

/-- Two replicas that lead are one. -/
theorem one_leader {now : Nat} {lease : Option Lease} {as : List Action} {s : System}
    (h : Run System.step InTime (System.start now lease) as s) {i j : String}
    (hi : s.Leads i) (hj : s.Leads j) : i = j := by
  have hinv : Inv s := h.invariant (inv_start now lease) fun _ _ _ hs hin hstep => inv_step hs hin hstep
  obtain ⟨l, hl, hholder, -⟩ := holds_of_leads hinv hi
  obtain ⟨l', hl', hholder', -⟩ := holds_of_leads hinv hj
  obtain rfl : l = l' := Option.some.inj (hl.symm.trans hl')
  rw [← hholder, hholder']

/-- A try with `calls` calls, all served and answered at once. -/
def tryOf (identity : String) (calls : Nat) : List Action :=
  .wake identity ::
    (List.replicate calls [Action.serve identity {}, Action.resume identity]).flatten

def seconds (n : Nat) : Action := .tick (n * 10 ^ 9)

/-- The second replica finds the lease of the first one, which renews it in time. -/
def renewing : List Action :=
  [.boot "a"] ++ tryOf "a" 4 ++ [.boot "b", seconds 5] ++ tryOf "b" 2 ++ [seconds 5] ++ tryOf "a" 4

theorem one_leader_renewing : ∃ s, Run System.step InTime (System.start 0 none) renewing s ∧
    s.Leads "a" ∧ ∀ j, s.Leads j → j = "a" := by
  obtain ⟨s, hrun, hs⟩ := Run.exists_of_runList (p := fun s : System => decide (s.Leads "a"))
    (show (runList (guarded System.step InTime) (System.start 0 none) renewing).any _ = true by
      decide +kernel)
  have ha : s.Leads "a" := by simpa using hs
  exact ⟨s, hrun, ha, fun j hj => one_leader hrun hj ha⟩

/-- A renewal that fails before it reaches the server. -/
def failedTry (identity : String) : List Action :=
  [.wake identity, .serve identity { fault := .lost, text := "timeout" }, .resume identity]

/-- The first replica fails to renew three times, and the second one takes the lease over
before the first one gives up. -/
theorem not_one_leader : ¬ ∀ (as : List Action) (s : System) (i j : String),
    Run System.step (fun _ _ => True) (System.start 0 none) as s → s.Leads i → s.Leads j →
    i = j := by
  intro h
  obtain ⟨s, hrun, hs⟩ := Run.exists_of_runList
    (p := fun s : System => decide (s.Leads "a" ∧ s.Leads "b"))
    (show (runList (guarded System.step fun _ _ => True) (System.start 0 none)
      ([.boot "a"] ++ tryOf "a" 4 ++ [seconds 10] ++ failedTry "a" ++ [seconds 10] ++
        failedTry "a" ++ [seconds 10] ++ failedTry "a" ++ [seconds 1, .boot "b"] ++
        tryOf "b" 5)).any _ = true by decide +kernel)
  obtain ⟨ha, hb⟩ : s.Leads "a" ∧ s.Leads "b" := by simpa using hs
  exact absurd (h _ s "a" "b" hrun ha hb) (by decide)

end ZfsEvacuation.Leader
