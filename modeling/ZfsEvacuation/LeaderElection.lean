import ZfsEvacuation.EvacuationSystem

/-!
# Leader election

Replicas acquire one Lease, renew it in the background and leave when they lose it or
can no longer renew it. The replicas share a clock; the answer to a call may reach its
caller any time after the call was served.
-/
namespace ZfsEvacuation.Leader
open ClientProgram Program GuardedRun

/-! ## The lease -/

def leaseDurationSecs : Int := 30

/-- Ten seconds, in nanoseconds. -/
def renewEvery : Nat := 10 * 10 ^ 9

structure LeaseSpec where
  holderIdentity : Option String := none
  leaseDurationSeconds : Option Int := none
  acquireTime : Option Nat := none
  renewTime : Option Nat := none
  leaseTransitions : Option Int := none

structure Lease where
  resourceVersion : Nat := 0
  spec : Option LeaseSpec := none

def Lease.details (l : Lease) : LeaseSpec := l.spec.getD {}

def Lease.holder (l : Lease) : String := l.details.holderIdentity.getD ""

/-- A lease without a renew time counts as expired. -/
def expiredAt (spec : LeaseSpec) (now : Nat) : Bool :=
  match spec.renewTime with
  | none => true
  | some t => ((now / 10 ^ 9 : Nat) : Int) - (t / 10 ^ 9 : Nat) >
      spec.leaseDurationSeconds.getD leaseDurationSecs

inductive Call where
  | getOpt
  | create (lease : Lease)
  | replace (lease : Lease)
  | now

def Call.Resp : Call → Type
  | .getOpt => Except ApiError (Option Lease)
  | .create _ | .replace _ => Except ApiError Unit
  | .now => Nat

abbrev leaseInterface : Interface := ⟨Call, Call.Resp⟩

abbrev Try := Program leaseInterface Error

def send (c : Call) : Try c.Resp := Program.call (I := leaseInterface) c Program.ret

def freshLease (identity : String) (acquireTime renewTime : Nat) : Lease where
  spec := some
    { holderIdentity := some identity
      leaseDurationSeconds := some leaseDurationSecs
      acquireTime := some acquireTime
      renewTime := some renewTime
      leaseTransitions := some 0 }

/-- The observed lease under this holder. The observed resource version stays, so that a
concurrent takeover conflicts. -/
def renewed (lease : Lease) (identity : String) (acquireTime : Option Nat) (renewTime : Nat) :
    Lease :=
  { lease with
    spec := some { lease.details with
      holderIdentity := some identity
      leaseDurationSeconds := some leaseDurationSecs
      acquireTime := acquireTime
      renewTime := some renewTime
      leaseTransitions :=
        if lease.holder ≠ identity then some (lease.details.leaseTransitions.getD 0 + 1)
        else lease.details.leaseTransitions } }

def createLease (identity : String) : Try Bool := do
  let acquireTime : Nat ← send .now
  let renewTime : Nat ← send .now
  match ← send (.create (freshLease identity acquireTime renewTime)) with
  | .ok () => pure true
  | .error .conflict => pure false
  | .error e => throw (.context "creating lease" (.api e))

def replaceLease (identity : String) (lease : Lease) (acquireTime : Option Nat) : Try Bool := do
  let renewTime : Nat ← send .now
  match ← send (.replace (renewed lease identity acquireTime renewTime)) with
  | .ok () => pure true
  | .error .conflict =>
    -- A conflict while renewing the own lease is transient, in a takeover someone else won.
    if lease.holder = identity then throw (.other "conflict renewing own lease")
    else pure false
  | .error e => throw (.context "renewing lease" (.api e))

def takeLease (identity : String) (lease : Lease) (expired : Bool) : Try Bool :=
  if lease.holder ≠ identity then
    if expired then do
      let acquireTime : Nat ← send .now
      replaceLease identity lease (some acquireTime)
    else pure false
  else replaceLease identity lease lease.details.acquireTime

def tryAcquire (identity : String) : Try Bool := do
  match ← send .getOpt with
  | .error e => throw (.api e)
  | .ok none => createLease identity
  | .ok (some lease) =>
    match lease.details.renewTime with
    | none => takeLease identity lease true
    | some _ => do
      let t : Nat ← send .now
      takeLease identity lease (expiredAt lease.details t)

/-! ## Replicas -/

/-- Where `run` is: in the acquire loop, past it with the instant of the last renewal, or
over. -/
inductive Stage where
  | acquiring
  | leading (lastRenewed : Nat)
  | exited
  deriving DecidableEq

def Stage.past : Stage → Bool
  | .leading _ => true
  | _ => false

/-- Between two tries, before a call of a try is served, or before its answer arrives. -/
inductive Work where
  | asleep (wakeAt : Nat)
  | calling (trace : List (Event leaseInterface)) (prog : Try Bool)
  | answered (trace : List (Event leaseInterface)) (prog : Try Bool)

structure Replica where
  identity : String
  stage : Stage := .acquiring
  work : Work := .asleep 0

/-- What the loops of `run` make of the outcome of a try. -/
def Replica.conclude (r : Replica) (now : Nat) : Except Error Bool → Replica
  | .ok true => { r with stage := .leading now, work := .asleep (now + renewEvery) }
  | .ok false =>
    match r.stage with
    | .leading _ => { r with stage := .exited, work := .asleep now }
    | _ => { r with work := .asleep (now + renewEvery) }
  | .error _ =>
    match r.stage with
    | .leading lastRenewed =>
      if (((now - lastRenewed) / 10 ^ 9 : Nat) : Int) > leaseDurationSecs then
        { r with stage := .exited, work := .asleep now }
      else { r with work := .asleep (now + renewEvery) }
    | _ => { r with work := .asleep (now + renewEvery) }

structure System where
  now : Nat := 0
  lease : Option Lease := none
  revision : Nat := 1
  replicas : KeyedStore String Replica Replica.identity := ∅

inductive Action where
  | tick (nanos : Nat)
  /-- A process starts, for the first time or after an earlier one has exited. -/
  | boot (identity : String)
  | wake (identity : String)
  /-- The call of a replica is served. -/
  | serve (identity : String) (o : Outcome)
  /-- The answer reaches the replica. -/
  | resume (identity : String)

namespace System

/-- Store a lease under a new resource version. -/
def store (s : System) (l : Lease) : System :=
  { s with lease := some { l with resourceVersion := s.revision }, revision := s.revision + 1 }

def create (s : System) (l : Lease) : Except ApiError Unit × System :=
  match s.lease with
  | some _ => (.error .conflict, s)
  | none => (.ok (), s.store l)

def replace (s : System) (l : Lease) : Except ApiError Unit × System :=
  match s.lease with
  | none => (.error .notFound, s)
  | some cur =>
    if cur.resourceVersion = l.resourceVersion then (.ok (), s.store l) else (.error .conflict, s)

def answer (s : System) (o : Outcome) : (c : Call) → c.Resp
  | .getOpt => o.read s.lease
  | .create l => o.write (s.create l).1
  | .replace l => o.write (s.replace l).1
  | .now => (s.now : Nat)

def effect (s : System) : Call → System
  | .create l => (s.create l).2
  | .replace l => (s.replace l).2
  | _ => s

def after (s : System) (o : Outcome) (c : Call) : System :=
  if o.fault = .lost then s else s.effect c

def set (s : System) (r : Replica) : System := { s with replicas := s.replicas.put r }

def step (s : System) : Action → Option System
  | .tick nanos => some { s with now := s.now + nanos }
  | .boot identity =>
    match s.replicas.get identity with
    | some r => if r.stage = .exited then some (s.set { identity }) else none
    | none => some (s.set { identity })
  | .wake identity => do
    let r ← s.replicas.get identity
    match r.stage, r.work with
    | .exited, _ => none
    | _, .asleep wakeAt =>
      if wakeAt ≤ s.now then some (s.set { r with work := .calling [] (tryAcquire identity) })
      else none
    | _, _ => none
  | .serve identity o => do
    let r ← s.replicas.get identity
    match r.work with
    | .calling trace (.call c next) =>
      some ((s.after o c).set
        { r with work := .answered (⟨c, s.answer o c⟩ :: trace) (next (s.answer o c)) })
    | _ => none
  | .resume identity => do
    let r ← s.replicas.get identity
    match r.work with
    | .answered _ (.ret b) => some (s.set (r.conclude s.now (.ok b)))
    | .answered _ (.fail e) => some (s.set (r.conclude s.now (.error e)))
    | .answered trace (.call c next) => some (s.set { r with work := .calling trace (.call c next) })
    | _ => none

/-- The replica has passed the acquire loop and has not exited. -/
def Leads (s : System) (identity : String) : Prop :=
  ∃ r ∈ s.replicas.get identity, r.stage.past = true

instance (s : System) (identity : String) : Decidable (s.Leads identity) :=
  inferInstanceAs (Decidable (∃ r ∈ s.replicas.get identity, r.stage.past = true))

/-- No replica yet, and any lease or none. -/
def start (now : Nat) (lease : Option Lease) : System :=
  { now, lease, revision := (lease.map Lease.resourceVersion).getD 0 + 1 }

end System

end ZfsEvacuation.Leader
