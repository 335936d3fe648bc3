import ZfsEvacuation.LeaderSafety

/-!
# A leader is not deposed

A leader whose renewals are in time loses the lease to nobody: it stops leading when its
process dies or when it fences itself.
-/
namespace ZfsEvacuation.Leader
open ClientProgram Program GuardedRun

/-! ## What becomes of a try -/

/-- The API server has accepted a write. -/
def accepted : Event leaseInterface → Prop
  | ⟨.create _, r⟩ => r = .ok ()
  | ⟨.replace _, r⟩ => r = .ok ()
  | _ => False

/-- A call has failed on its way to the API server or back. -/
def broken : Event leaseInterface → Prop
  | ⟨.getOpt, r⟩ => ∃ text, r = .error (.failed text)
  | ⟨.create _, r⟩ => ∃ text, r = .error (.failed text)
  | ⟨.replace _, r⟩ => ∃ text, r = .error (.failed text)
  | ⟨.now, _⟩ => False

/-- A try succeeds as soon as a write is accepted, and fails as soon as a call does. -/
def Prompt : Try Bool → Prop
  | .ret _ => True
  | .fail _ => True
  | .call c next => (∀ r, accepted ⟨c, r⟩ → next r = .ret true) ∧
      (∀ r, broken ⟨c, r⟩ → ∃ e, next r = .fail e) ∧ ∀ r, Prompt (next r)

/-- The write is accepted as long as this lease is stored. -/
def Fits (lease : Option Lease) : Call → Prop
  | .create _ => lease = none
  | .replace l => ∃ cur, lease = some cur ∧ cur.resourceVersion = l.resourceVersion
  | _ => True

/-- What a call is answered with as long as this lease is stored, from the instant `t` on. -/
def Expected (lease : Option Lease) (t : Nat) : (c : Call) → c.Resp → Prop
  | .getOpt, r => r = .ok lease
  | .create _, r => r = .ok ()
  | .replace _, r => r = .ok ()
  | .now, r => t ≤ r

/-- The try stores a lease of its own, unless the stored one changes or a call fails. -/
def Takes (lease : Option Lease) (t : Nat) : Try Bool → Prop
  | .ret b => b = true
  | .fail _ => False
  | .call c next => Fits lease c ∧ ∀ r, Expected lease t c r → Takes lease t (next r)

/-- A try that has found a lease. -/
def heldLease (identity : String) (l : Lease) : Try Bool :=
  match l.details.renewTime with
  | none => takeLease identity l true
  | some _ => .call .now fun t => takeLease identity l (expiredAt l.details t)

/-- A try after its read. -/
def afterGet (identity : String) : Except ApiError (Option Lease) → Try Bool
  | .error e => .fail (.api e)
  | .ok none => createLease identity
  | .ok (some l) => heldLease identity l

section Try
variable {identity : String} {lease : Option Lease} {t t' : Nat} {l : Lease}

theorem tryAcquire_eq (identity : String) :
    tryAcquire identity = .call .getOpt (afterGet identity) := by
  refine congrArg (Program.call (I := leaseInterface) Call.getOpt) (funext fun r => ?_)
  rcases r with e | _ | l <;> rfl

theorem heldLease_none (h : l.details.renewTime = none) :
    heldLease identity l = takeLease identity l true := by
  simp only [heldLease, h]

theorem heldLease_some (h : l.details.renewTime = some t) :
    heldLease identity l = .call .now fun t => takeLease identity l (expiredAt l.details t) := by
  simp only [heldLease, h]

theorem Expected.later {c : Call} {r : c.Resp} (h : Expected lease t' c r) (hle : t ≤ t') :
    Expected lease t c r := by
  cases c with
  | getOpt => exact h
  | create l => exact h
  | replace l => exact h
  | now => exact Nat.le_trans hle h

theorem Takes.later {p : Try Bool} (h : Takes lease t p) (hle : t ≤ t') : Takes lease t' p := by
  induction p with
  | ret b => exact h
  | fail e => exact h
  | call c next ih => exact ⟨h.1, fun r hr => ih r (h.2 r (hr.later hle))⟩

theorem prompt_create (identity : String) : Prompt (createLease identity) := by
  refine ⟨fun _ => False.elim, fun _ => False.elim, fun acquireTime =>
    ⟨fun _ => False.elim, fun _ => False.elim, fun renewTime => ⟨?_, ?_, ?_⟩⟩⟩
  · rintro r rfl
    rfl
  · rintro r ⟨text, rfl⟩
    exact ⟨_, rfl⟩
  · rintro ((_ | _ | text) | _) <;> trivial

theorem prompt_replace (identity : String) (l : Lease) (acquireTime : Option Nat) :
    Prompt (replaceLease identity l acquireTime) := by
  refine ⟨fun _ => False.elim, fun _ => False.elim, fun renewTime => ⟨?_, ?_, ?_⟩⟩
  · rintro r rfl
    rfl
  · rintro r ⟨text, rfl⟩
    exact ⟨_, rfl⟩
  · rintro ((_ | _ | text) | _)
    · trivial
    · show Prompt (if l.holder = identity then _ else _)
      split_ifs <;> trivial
    · trivial
    · trivial

theorem prompt_take (identity : String) (l : Lease) (expired : Bool) :
    Prompt (takeLease identity l expired) := by
  unfold takeLease
  split_ifs
  · exact ⟨fun _ => False.elim, fun _ => False.elim, fun _ => prompt_replace identity l _⟩
  · trivial
  · exact prompt_replace identity l _

theorem prompt_held (identity : String) (l : Lease) : Prompt (heldLease identity l) := by
  cases hrenew : l.details.renewTime with
  | none =>
    rw [heldLease_none hrenew]
    exact prompt_take identity l true
  | some t =>
    rw [heldLease_some hrenew]
    exact ⟨fun _ => False.elim, fun _ => False.elim, fun _ => prompt_take identity l _⟩

theorem prompt_tryAcquire (identity : String) : Prompt (tryAcquire identity) := by
  rw [tryAcquire_eq]
  refine ⟨fun _ => False.elim, ?_, ?_⟩
  · rintro r ⟨text, rfl⟩
    exact ⟨_, rfl⟩
  · rintro (e | _ | l)
    · trivial
    · exact prompt_create identity
    · exact prompt_held identity l

theorem takes_create (identity : String) : Takes none t (createLease identity) := by
  refine ⟨trivial, fun acquireTime _ => ⟨trivial, fun renewTime _ => ⟨rfl, ?_⟩⟩⟩
  rintro r rfl
  rfl

theorem takes_replace (identity : String) (l : Lease) (acquireTime : Option Nat) :
    Takes (some l) t (replaceLease identity l acquireTime) := by
  refine ⟨trivial, fun renewTime _ => ⟨⟨l, rfl, rfl⟩, ?_⟩⟩
  rintro r rfl
  rfl

theorem takes_take {expired : Bool} (h : l.holder = identity ∨ expired = true) :
    Takes (some l) t (takeLease identity l expired) := by
  unfold takeLease
  split_ifs with hother hexp
  · exact ⟨trivial, fun _ _ => takes_replace identity l _⟩
  · rcases h with h | h
    · exact absurd h hother
    · exact absurd h hexp
  · exact takes_replace identity l _

/-- The lease can be taken by this replica: there is none, or it is its own or expired. -/
def Open (identity : String) (lease : Option Lease) (t : Nat) : Prop :=
  ∀ l, lease = some l → l.holder = identity ∨ expiredAt l.details t = true

theorem takes_held (h : l.holder = identity ∨ expiredAt l.details t = true) :
    Takes (some l) t (heldLease identity l) := by
  cases hrenew : l.details.renewTime with
  | none =>
    rw [heldLease_none hrenew]
    exact takes_take (.inr rfl)
  | some t₀ =>
    rw [heldLease_some hrenew]
    exact ⟨trivial, fun t' ht' => takes_take (h.imp id fun hexp => expiredAt_mono hexp ht')⟩

theorem takes_tryAcquire (h : Open identity lease t) : Takes lease t (tryAcquire identity) := by
  rw [tryAcquire_eq]
  refine ⟨trivial, ?_⟩
  rintro r rfl
  cases lease with
  | none => exact takes_create identity
  | some l => exact takes_held (h l rfl)

end Try

/-! ## What a step can do -/

/-- What a try has come to. -/
def Concluded : Try Bool → Except Error Bool → Prop
  | .ret b, res => res = .ok b
  | .fail e, res => res = .error e
  | .call _ _, _ => False

inductive Stepped (s : System) : Action → System → Prop
  | tick (nanos : Nat) : Stepped s (.tick nanos) { s with now := s.now + nanos }
  | boot (i : String) (new : ∀ r, s.replicas.get i = some r → r.stage = .exited) :
      Stepped s (.boot i) (s.set { identity := i })
  | wake (i : String) (r : Replica) (wakeAt : Nat) (found : s.replicas.get i = some r)
      (asleep : r.work = .asleep wakeAt) (alive : r.stage ≠ .exited) :
      Stepped s (.wake i) (s.set { r with work := .calling [] (tryAcquire i) })
  | serve (i : String) (o : Outcome) (r : Replica) (tr : List (Event leaseInterface)) (c : Call)
      (next : c.Resp → Try Bool) (found : s.replicas.get i = some r)
      (calling : r.work = .calling tr (.call c next)) :
      Stepped s (.serve i o) ((s.after o c).set
        { r with work := .answered (⟨c, s.answer o c⟩ :: tr) (next (s.answer o c)) })
  | conclude (i : String) (r : Replica) (tr : List (Event leaseInterface)) (p : Try Bool)
      (res : Except Error Bool) (found : s.replicas.get i = some r)
      (answered : r.work = .answered tr p) (outcome : Concluded p res) :
      Stepped s (.resume i) (s.set (r.conclude s.now res))
  | resume (i : String) (r : Replica) (tr : List (Event leaseInterface)) (c : Call)
      (next : c.Resp → Try Bool) (found : s.replicas.get i = some r)
      (answered : r.work = .answered tr (.call c next)) :
      Stepped s (.resume i) (s.set { r with work := .calling tr (.call c next) })

theorem stepped_of_step {s s' : System} {a : Action} (hstep : s.step a = some s') :
    Stepped s a s' := by
  cases a with
  | tick nanos =>
    cases hstep
    exact .tick nanos
  | boot identity =>
    simp only [System.step] at hstep
    split at hstep
    · rename_i r hr
      split_ifs at hstep with hexited
      cases hstep
      exact .boot identity fun r' hr' => Option.some.inj (hr.symm.trans hr') ▸ hexited
    · rename_i hnone
      cases hstep
      exact .boot identity fun r' hr' => by simp [hnone] at hr'
  | wake identity =>
    obtain ⟨r, hr, hstep⟩ := Option.bind_eq_some_iff.mp hstep
    split at hstep
    · cases hstep
    · rename_i wakeAt hwork halive
      split_ifs at hstep
      cases hstep
      exact .wake identity r wakeAt hr hwork halive
    · cases hstep
  | serve identity o =>
    obtain ⟨r, hr, hstep⟩ := Option.bind_eq_some_iff.mp hstep
    split at hstep
    · rename_i tr c next hwork
      cases hstep
      exact .serve identity o r tr c next hr hwork
    · cases hstep
  | resume identity =>
    obtain ⟨r, hr, hstep⟩ := Option.bind_eq_some_iff.mp hstep
    split at hstep
    · rename_i tr b hwork
      cases hstep
      exact .conclude identity r tr _ _ hr hwork rfl
    · rename_i tr e hwork
      cases hstep
      exact .conclude identity r tr _ _ hr hwork rfl
    · rename_i tr c next hwork
      cases hstep
      exact .resume identity r tr c next hr hwork
    · cases hstep

/-! ## Replicas whose processes may die -/

/-- One of the actions of the replicas, or a process dies: none of its calls is served any
more. -/
inductive Happening where
  | act (a : Action)
  | crash (identity : String)

namespace System

def happen (s : System) : Happening → Option System
  | .act a => s.step a
  | .crash identity => (s.replicas.get identity).map fun r =>
      s.set { r with stage := .exited, work := .asleep s.now }

end System

def Timely (s : System) : Happening → Prop
  | .act a => InTime s a
  | .crash _ => True

instance (s : System) : (x : Happening) → Decidable (Timely s x)
  | .act a => inferInstanceAs (Decidable (InTime s a))
  | .crash _ => isTrue trivial

/-- A leader's try takes the lease that is stored, or has failed already. -/
def Renewing (s : System) : Work → Prop
  | .asleep _ => True
  | .calling _ p => Takes s.lease s.now p
  | .answered _ p => Takes s.lease s.now p ∨ ∃ e, p = .fail e

def Work.prog : Work → Option (Try Bool)
  | .asleep _ => none
  | .calling _ p => some p
  | .answered _ p => some p

structure Steady (s : System) : Prop where
  prompt : ∀ i r, s.replicas.get i = some r → ∀ p ∈ r.work.prog, Prompt p
  renewing : ∀ i r, s.replicas.get i = some r → r.stage.past = true → Renewing s r.work
  idle : ∀ i r, s.replicas.get i = some r → r.stage = .exited → r.work.prog = none

section Steps
variable {s s' : System} {i j : String} {r : Replica} {w : Work}

theorem Renewing.later (h : Renewing s w) {nanos : Nat} :
    Renewing { s with now := s.now + nanos } w := by
  cases w with
  | asleep _ => trivial
  | calling tr p => exact Takes.later h (Nat.le_add_right _ _)
  | answered tr p => exact h.imp (fun hp => hp.later (Nat.le_add_right _ _)) id

theorem Steady.set (h : Steady s) (hprompt : ∀ p ∈ r.work.prog, Prompt p)
    (hrenewing : r.stage.past = true → Renewing s r.work)
    (hover : r.stage = .exited → r.work.prog = none) : Steady (s.set r) := by
  refine ⟨fun k r' hr' => ?_, fun k r' hr' => ?_, fun k r' hr' => ?_⟩ <;>
    rw [System.set, KeyedStore.get_put] at hr' <;> split_ifs at hr' with hk
  · obtain rfl := Option.some.inj hr'
    exact hprompt
  · exact h.prompt k r' hr'
  · obtain rfl := Option.some.inj hr'
    exact hrenewing
  · exact h.renewing k r' hr'
  · obtain rfl := Option.some.inj hr'
    exact hover
  · exact h.idle k r' hr'

theorem read_sound {α : Type} {o : Outcome} (hf : o.fault = .none) (a : α) : o.read a = .ok a := by
  rw [Outcome.read, hf]

theorem write_sound {o : Outcome} (hf : o.fault = .none) (x : Except ApiError Unit) :
    o.write x = x := by
  rw [Outcome.write, hf]

theorem read_broken {α : Type} {o : Outcome} (hf : o.fault ≠ .none) (a : α) :
    o.read a = .error (.failed o.text) := by
  unfold Outcome.read
  split
  · exact absurd ‹_› hf
  · rfl

theorem write_broken {o : Outcome} (hf : o.fault ≠ .none) (x : Except ApiError Unit) :
    o.write x = .error (.failed o.text) := by
  unfold Outcome.write
  split
  · exact absurd ‹_› hf
  · rfl

/-- A call that goes well is answered as expected. -/
theorem expected_of_sound {o : Outcome} {c : Call} (hf : o.fault = .none) (h : Fits s.lease c) :
    Expected s.lease s.now c (s.answer o c) := by
  cases c with
  | getOpt => exact read_sound hf s.lease
  | create l =>
    have habsent : s.lease = none := h
    refine (write_sound hf _).trans ?_
    simp [System.create, habsent]
  | replace l =>
    obtain ⟨cur, hcur, hversion⟩ := h
    refine (write_sound hf _).trans ?_
    simp [System.replace, hcur, hversion]
  | now => exact Nat.le_refl s.now

theorem broken_of_fault {o : Outcome} {c : Call} (hf : o.fault ≠ .none) (hc : c ≠ .now) :
    broken ⟨c, s.answer o c⟩ := by
  cases c with
  | getOpt => exact ⟨o.text, read_broken hf s.lease⟩
  | create l => exact ⟨o.text, write_broken hf _⟩
  | replace l => exact ⟨o.text, write_broken hf _⟩
  | now => exact absurd rfl hc

theorem expected_or_broken {c : Call} (h : Fits s.lease c) (o : Outcome) :
    Expected s.lease s.now c (s.answer o c) ∨ broken ⟨c, s.answer o c⟩ := by
  by_cases hf : o.fault = .none
  · exact .inl (expected_of_sound hf h)
  · by_cases hc : c = .now
    · subst hc
      exact .inl (Nat.le_refl s.now)
    · exact .inr (broken_of_fault hf hc)

theorem fits_of_stores {c : Call} {l : Lease} (h : Stores s c l) : Fits s.lease c := by
  cases h with
  | create _ absent => exact absent
  | replace _ cur stored version => exact ⟨cur, stored, version⟩

theorem accepted_of_expected {c : Call} {l : Lease} (h : Stores s c l) {r : c.Resp}
    (hr : Expected s.lease s.now c r) : accepted ⟨c, r⟩ := by
  cases h with
  | create _ _ => exact hr
  | replace _ _ _ _ => exact hr

/-- A try whose write is stored is over. -/
theorem over_of_stores {c : Call} {next : c.Resp → Try Bool} {l : Lease} (h : Stores s c l)
    (hprompt : Prompt (.call c next)) (o : Outcome) :
    next (s.answer o c) = .ret true ∨ ∃ e, next (s.answer o c) = .fail e :=
  (expected_or_broken (fits_of_stores h) o).imp
    (fun hr => hprompt.1 _ (accepted_of_expected h hr)) (hprompt.2.1 _)

/-- A leader's try goes on to take the lease, or has failed. -/
theorem renewing_served {tr : List (Event leaseInterface)} {c : Call} {next : c.Resp → Try Bool}
    (h : Takes s.lease s.now (.call c next)) (hprompt : Prompt (.call c next)) (o : Outcome) :
    Renewing s (.answered tr (next (s.answer o c))) :=
  (expected_or_broken h.1 o).imp (h.2 _) (hprompt.2.1 _)

theorem open_of_holds (h : Holds s i) : Open i s.lease s.now := by
  intro l hl
  obtain ⟨cur, hcur, hholder, -⟩ := h
  obtain rfl : cur = l := Option.some.inj (hcur.symm.trans hl)
  exact .inl hholder

theorem entitled_of_past (hpast : r.stage.past = true) : r.entitled = true := by
  cases hs : r.stage with
  | leading t => simp [Replica.entitled, hs]
  | acquiring => simp [Stage.past, hs] at hpast
  | exited => simp [Stage.past, hs] at hpast

theorem work_conclude (r : Replica) (now : Nat) (res : Except Error Bool) :
    ∃ wakeAt, (r.conclude now res).work = .asleep wakeAt := by
  match res with
  | .ok true => exact ⟨_, rfl⟩
  | .ok false => cases hs : r.stage <;> simp [Replica.conclude, hs]
  | .error e =>
    cases hs : r.stage with
    | leading t =>
      simp only [Replica.conclude, hs]
      split_ifs <;> exact ⟨_, rfl⟩
    | acquiring => simp [Replica.conclude, hs]
    | exited => simp [Replica.conclude, hs]

theorem Steady.asleep (h : Steady s) {wakeAt : Nat} (hwork : r.work = .asleep wakeAt) :
    Steady (s.set r) := by
  refine h.set ?_ ?_ ?_ <;> simp [hwork, Work.prog, Renewing]

/-- A replica whose process is gone has no try. -/
theorem Steady.alive (h : Steady s) (hr : s.replicas.get i = some r) {p : Try Bool}
    (hp : r.work.prog = some p) : r.stage ≠ .exited := by
  intro hexited
  rw [h.idle i r hr hexited] at hp
  cases hp

/-- A call is served: the caller goes on as its program says, and a lease that is stored by it
leaves no other leader behind. -/
theorem steady_serve (hinv : Inv s) (h : Steady s) (hr : s.replicas.get i = some r) {o : Outcome}
    {tr : List (Event leaseInterface)} {c : Call} {next : c.Resp → Try Bool}
    (hwork : r.work = .calling tr (.call c next)) :
    Steady ((s.after o c).set
      { r with work := .answered (⟨c, s.answer o c⟩ :: tr) (next (s.answer o c)) }) := by
  have hid : r.identity = i := KeyedStore.get_key hr
  have hprompt : Prompt (.call c next) := h.prompt i r hr _ (by simp [hwork, Work.prog])
  have halive : r.stage ≠ .exited := h.alive hr (by rw [hwork]; rfl)
  have hset : Steady (s.set
      { r with work := .answered (⟨c, s.answer o c⟩ :: tr) (next (s.answer o c)) }) := by
    refine h.set ?_ (fun hpast => ?_) (fun hexited => absurd hexited halive)
    · simpa [Work.prog] using hprompt.2.2 _
    · have hrenewing := h.renewing i r hr hpast
      rw [hwork] at hrenewing
      exact renewing_served hrenewing hprompt o
  rcases after_cases s o c with hsame | ⟨l, hst, hstore⟩
  · rw [hsame]
    exact hset
  · rw [hstore]
    refine ⟨hset.prompt, fun k r' hr' hpast => ?_, hset.idle⟩
    have hget := hr'
    simp only [System.set, System.store, KeyedStore.get_put] at hget
    split_ifs at hget with hk
    · obtain rfl := Option.some.inj hget
      exact (over_of_stores hst hprompt o).imp (fun hret => by rw [hret]; rfl) id
    · -- nobody else leads while this replica's write is stored
      have hsound := hinv.sound i r hr
      rw [hwork] at hsound
      have hki : k = i := holder_of_stores hsound.1 hsound.2.1 hst
        (hinv.holds k r' hget (entitled_of_past hpast))
      exact absurd (hki.trans hid.symm) (Ne.symm hk)

theorem steady_step {a : Action} (hinv : Inv s) (h : Steady s) (hstep : Stepped s a s') :
    Steady s' := by
  cases hstep with
  | tick nanos =>
    exact ⟨h.prompt, fun k r hr hpast => (h.renewing k r hr hpast).later, h.idle⟩
  | boot i _ => exact h.asleep rfl
  | wake i r wakeAt found asleep alive =>
    refine h.set ?_ (fun hpast => ?_) (fun hover => absurd hover alive)
    · simpa [Work.prog] using prompt_tryAcquire i
    · exact takes_tryAcquire (open_of_holds (hinv.holds i r found (entitled_of_past hpast)))
  | serve i o r tr c next found calling => exact steady_serve hinv h found calling
  | conclude i r tr p res found answered _ =>
    exact h.asleep (work_conclude r s.now res).choose_spec
  | resume i r tr c next found answered =>
    have halive : r.stage ≠ .exited := h.alive found (by rw [answered]; rfl)
    refine h.set ?_ (fun hpast => ?_) (fun hexited => absurd hexited halive)
    · have hprompt := h.prompt i r found
      rwa [answered] at hprompt
    · have hrenewing := h.renewing i r found hpast
      rw [answered] at hrenewing
      rcases hrenewing with htakes | ⟨e, he⟩
      · exact htakes
      · cases he

theorem happen_step {x : Happening} (hinv : Inv s) (h : Steady s) (htimely : Timely s x)
    (hstep : s.happen x = some s') : Inv s' ∧ Steady s' := by
  cases x with
  | act a => exact ⟨inv_step hinv htimely hstep, steady_step hinv h (stepped_of_step hstep)⟩
  | crash identity =>
    obtain ⟨r, -, hset⟩ := Option.map_eq_some_iff.mp hstep
    cases hset
    exact ⟨hinv.set trivial (fun he => by simp [Replica.entitled] at he), h.asleep rfl⟩

/-- A run in time of replicas whose processes may die. -/
abbrev Lives (now : Nat) (lease : Option Lease) (xs : List Happening) (s : System) : Prop :=
  Run System.happen Timely (System.start now lease) xs s

theorem inv_lives {now : Nat} {lease : Option Lease} {xs : List Happening}
    (h : Lives now lease xs s) : Inv s ∧ Steady s :=
  h.invariant ⟨inv_start now lease, nofun, nofun, nofun⟩
    fun _ _ _ hs htimely hstep => happen_step hs.1 hs.2 htimely hstep

/-! ## A leader is not deposed -/

theorem leads_set_self (hid : r.identity = i) : (s.set r).Leads i ↔ r.stage.past = true := by
  simp [System.Leads, System.set, KeyedStore.get_put, hid]

theorem leads_set_other (hid : r.identity ≠ i) : (s.set r).Leads i ↔ s.Leads i := by
  simp [System.Leads, System.set, KeyedStore.get_put, hid]

theorem after_replicas (o : Outcome) (c : Call) : (s.after o c).replicas = s.replicas := by
  rcases after_cases s o c with hsame | ⟨l, -, hstore⟩
  · rw [hsame]
  · rw [hstore]
    rfl

theorem leads_after (o : Outcome) (c : Call) : (s.after o c).Leads i ↔ s.Leads i := by
  simp [System.Leads, after_replicas]

/-- A replica whose stage stays leads as before. -/
theorem leads_set_work (hr : s.replicas.get j = some r) (work : Work) :
    (s.set { r with work }).Leads i ↔ s.Leads i := by
  have hkey : r.identity = j := KeyedStore.get_key hr
  by_cases hi : j = i
  · subst hi
    rw [leads_set_self (r := { r with work }) hkey]
    simp [System.Leads, hr]
  · exact leads_set_other (r := { r with work }) (by rwa [hkey])

/-- The last try of this leader has failed, and its last successful one is more than the lease
duration ago. -/
def Fences (s : System) (identity : String) : Prop :=
  ∃ r, s.replicas.get identity = some r ∧ ∃ lastRenewed tr e, r.stage = .leading lastRenewed ∧
    r.work = .answered tr (.fail e) ∧
    leaseDurationSecs < ((s.now - lastRenewed) / 10 ^ 9 : Nat)

/-- A leader that has been answered goes on leading, unless its try has failed too late. -/
theorem leads_or_fences {tr : List (Event leaseInterface)} {p : Try Bool}
    {res : Except Error Bool} (h : Steady s) (hr : s.replicas.get i = some r)
    (hwork : r.work = .answered tr p) (hres : Concluded p res) (hpast : r.stage.past = true) :
    (r.conclude s.now res).stage.past = true ∨ Fences s i := by
  have hrenewing := h.renewing i r hr hpast
  rw [hwork] at hrenewing
  cases p with
  | call c next => cases hres
  | ret b =>
    obtain rfl : res = .ok b := hres
    rcases hrenewing with hb | ⟨e, he⟩
    · obtain rfl : b = true := hb
      exact .inl rfl
    · cases he
  | fail e =>
    obtain rfl : res = .error e := hres
    cases hs : r.stage with
    | acquiring => simp [Stage.past, hs] at hpast
    | exited => simp [Stage.past, hs] at hpast
    | leading t =>
      simp only [Replica.conclude, hs]
      split_ifs with hfence
      · exact .inr ⟨r, hr, t, tr, e, hs, hwork, hfence⟩
      · exact .inl rfl

/-- What ends the leadership of a replica: the death of its process, or the fence. -/
theorem stays_or_fences {a : Action} (h : Steady s) (hlead : s.Leads i)
    (hstep : Stepped s a s') : s'.Leads i ∨ a = .resume i ∧ Fences s i := by
  obtain ⟨r₀, hr₀, hpast⟩ := hlead
  have hr₀ : s.replicas.get i = some r₀ := hr₀
  have hlead : s.Leads i := ⟨r₀, hr₀, hpast⟩
  cases hstep with
  | tick nanos => exact .inl hlead
  | boot j new =>
    refine .inl ((leads_set_other (r := { identity := j }) ?_).mpr hlead)
    rintro rfl
    simp [Stage.past, new r₀ hr₀] at hpast
  | wake j r wakeAt found _ _ => exact .inl ((leads_set_work found _).mpr hlead)
  | serve j o r tr c next found calling =>
    have hsame : (s.after o c).replicas.get j = some r := by rwa [after_replicas]
    exact .inl ((leads_set_work hsame _).mpr ((leads_after o c).mpr hlead))
  | conclude j r tr p res found answered outcome =>
    have hid : (r.conclude s.now res).identity = j :=
      (identity_conclude r s.now res).trans (KeyedStore.get_key found)
    by_cases hj : j = i
    · subst hj
      obtain rfl := Option.some.inj (found.symm.trans hr₀)
      rw [leads_set_self hid]
      exact (leads_or_fences h found answered outcome hpast).imp id fun hfence => ⟨rfl, hfence⟩
    · exact .inl ((leads_set_other (by rwa [hid])).mpr hlead)
  | resume j r tr c next found answered => exact .inl ((leads_set_work found _).mpr hlead)

end Steps

/-- Nobody takes the leadership away: a replica stops leading when its process dies, or by its
own fence, after a renewal that failed and with the last successful one more than the lease
duration ago. -/
theorem steps_down {now : Nat} {lease : Option Lease} {xs : List Happening} {x : Happening}
    {s s' : System} {i : String} (h : Lives now lease xs s) (hstep : s.happen x = some s')
    (hlead : s.Leads i) (hgone : ¬ s'.Leads i) :
    x = .crash i ∨ x = .act (.resume i) ∧ Fences s i := by
  cases x with
  | act a =>
    rcases stays_or_fences (inv_lives h).2 hlead (stepped_of_step hstep) with hstays | ⟨rfl, hfence⟩
    · exact absurd hstays hgone
    · exact .inr ⟨rfl, hfence⟩
  | crash identity =>
    refine .inl ?_
    obtain ⟨r, hr, hset⟩ := Option.map_eq_some_iff.mp hstep
    by_contra hne
    refine hgone ?_
    rw [← hset]
    refine (leads_set_other ?_).mpr hlead
    have hid : r.identity = identity := KeyedStore.get_key hr
    rintro rfl
    exact hne (by rw [hid])

/-- A renewal that is stored, with an answer that does not arrive. -/
def unackedTry (identity : String) : List Action :=
  [.wake identity] ++ [.serve identity {}, .resume identity, .serve identity {},
    .resume identity, .serve identity {}, .resume identity] ++
    [.serve identity { fault := .unacked, text := "timeout" }]

/-- The lease is renewed all the time, but its holder never learns of it. -/
def unheard : List Happening :=
  (([Action.boot "a"] ++ tryOf "a" 4 ++
    (List.replicate 3 ([seconds 10] ++ unackedTry "a" ++ [Action.resume "a"])).flatten ++
    [seconds 10] ++ unackedTry "a")).map Happening.act

theorem steps_down_unheard : ∃ s s', Lives 0 none unheard s ∧
    s.happen (.act (.resume "a")) = some s' ∧ s.Leads "a" ∧ ¬ s'.Leads "a" ∧ Fences s "a" := by
  obtain ⟨s, hlives, hs⟩ := Run.exists_of_runList
    (p := fun s : System => decide (s.Leads "a") &&
      (s.happen (.act (.resume "a"))).any fun s' : System => decide (¬ s'.Leads "a"))
    (show (runList (guarded System.happen Timely) (System.start 0 none) unheard).any _ = true by
      decide +kernel)
  obtain ⟨hleads, hafter⟩ := Bool.and_eq_true_iff.mp hs
  obtain ⟨s', hs', hgone⟩ := (Option.any_eq_true ..).mp hafter
  have hdown := steps_down hlives hs' (of_decide_eq_true hleads) (of_decide_eq_true hgone)
  refine ⟨s, s', hlives, hs', of_decide_eq_true hleads, of_decide_eq_true hgone, ?_⟩
  rcases hdown with hcrash | ⟨-, hfence⟩
  · cases hcrash
  · exact hfence

end ZfsEvacuation.Leader
