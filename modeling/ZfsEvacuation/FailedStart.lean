import ZfsEvacuation.AbortRounds
import ZfsEvacuation.SyncedViews

/-!
# Attempts whose start fails

An attempt is started in several calls, and one of them may fail. What is left of the start
is found again by the next reconciles, unless the relay is registered and nothing else is.
-/
namespace ZfsEvacuation.Starting
open ClientProgram Program

/-! ## One failing call -/

/-- A call that fails, with or without taking effect. -/
def broken (o : Outcome) (c : Call) (w : World) : c.Resp × World := (w.answer o c, w.after o c)

abbrev Flaky := Once kubeInterface World

/-- A cooperative cluster in which one call to the API server fails. -/
def flaky (o : Outcome) (c : Call) (s : Flaky) : c.Resp × Flaky :=
  failOnce cluster (broken o) Call.remote c s

theorem read_failed {α : Type} {o : Outcome} (ho : o.fault ≠ .none) (a : α) :
    o.read a = .error (.failed o.text) := by
  unfold Outcome.read
  split
  · contradiction
  · rfl

theorem write_failed {o : Outcome} (ho : o.fault ≠ .none) (r : Except ApiError Unit) :
    o.write r = .error (.failed o.text) := by
  unfold Outcome.write
  split
  · contradiction
  · rfl

theorem after_lost {o : Outcome} (ho : o.fault = .lost) {c : Call} (hc : c.remote = true)
    (w : World) : w.after o c = w := if_pos ⟨ho, hc⟩

theorem after_kept {o : Outcome} (ho : o.fault ≠ .lost) (c : Call) (w : World) :
    w.after o c = w.effect c := if_neg fun h => ho h.1

/-- The node of this id, as `nodeById` finds it. -/
def nodeFound (w : World) (nodeId : String) : Option (Obj .node) :=
  match (w.get .node ⟨"", nodeId⟩).filter fun n => nodeIdOf n == nodeId with
  | some n => some n
  | none => (w.list .node {}).find? fun n => nodeIdOf n == nodeId

section Rules
variable {o : Outcome} {w : World} {left : Nat} {hit : Option Call}
  {err : Error → Flaky → Prop} {k : Kind} {key : Key}

theorem flaky_getOpt {ok : Option (Obj k) → Flaky → Prop} (ho : o.fault ≠ .none)
    (hgo : ∀ left, ok (w.get k key) ⟨w, left, hit⟩)
    (hfail : hit = none → ∀ e, err e ⟨w, 0, some (.get k key)⟩) :
    Ends (flaky o) ok err (getOpt k key) ⟨w, left, hit⟩ := by
  refine ends_failOnce_call (fun left => hgo left) fun _ hhit => ?_
  have hworld : w.after o (.get k key) = w := by
    rcases World.after_cases w o (.get k key) with ⟨heq, -⟩ | heq <;> exact heq
  simp only [broken, hworld, World.answer, read_failed ho]
  exact hfail hhit _

theorem flaky_listObjs {sel : Selector} {ok : List (Obj k) → Flaky → Prop} (ho : o.fault ≠ .none)
    (hgo : ∀ left, ok (w.list k sel) ⟨w, left, hit⟩)
    (hfail : hit = none → ∀ e, err e ⟨w, 0, some (.list k sel)⟩) :
    Ends (flaky o) ok err (listObjs k sel) ⟨w, left, hit⟩ := by
  refine ends_failOnce_call (fun left => hgo left) fun _ hhit => ?_
  have hworld : w.after o (.list k sel) = w := by
    rcases World.after_cases w o (.list k sel) with ⟨heq, -⟩ | heq <;> exact heq
  simp only [broken, hworld, World.answer, read_failed ho]
  exact hfail hhit _

theorem flaky_nodeById {nodeId : String} {ok : Option (Obj .node) → Flaky → Prop}
    (ho : o.fault ≠ .none) (hgo : ∀ left, ok (nodeFound w nodeId) ⟨w, left, hit⟩)
    (hfail : hit = none → ∀ e c, statusWrite c = none → err e ⟨w, 0, some c⟩) :
    Ends (flaky o) ok err (nodeById nodeId) ⟨w, left, hit⟩ := by
  simp only [nodeById, bind_eq, ends_bind]
  refine flaky_getOpt ho (fun left => ?_) fun hhit e => hfail hhit e _ rfl
  unfold nodeFound at hgo
  cases hnamed : (w.get .node ⟨"", nodeId⟩).filter fun n => nodeIdOf n == nodeId with
  | some n =>
    rw [hnamed] at hgo
    exact hgo left
  | none =>
    rw [hnamed] at hgo
    simp only [ends_bind]
    exact flaky_listObjs ho (fun left => hgo left) fun hhit e => hfail hhit e _ rfl

/-- The status is written, or the write fails without or in spite of having taken effect. -/
theorem flaky_writeStatus {name : String} {e : Obj .evacuation} {st : ZFSEvacuationStatus}
    {ok : Unit → Flaky → Prop} (ho : o.fault ≠ .none)
    (he : w.get .evacuation ⟨"", name⟩ = some e)
    (hgo : ∀ left, ok () ⟨w.effect (.patch .evacuation ⟨"", name⟩ (.status st)), left, hit⟩)
    (hfail : hit = none → ∀ e, err e ⟨w.after o (.patch .evacuation ⟨"", name⟩ (.status st)), 0,
      some (.patch .evacuation ⟨"", name⟩ (.status st))⟩) :
    Ends (flaky o) ok err (writeStatus name st) ⟨w, left, hit⟩ := by
  simp only [writeStatus, withContext, ends_mapError]
  refine ends_failOnce_call (fun left => ?_) fun _ hhit => ?_
  · simp only [cluster, World.answer, Outcome.write, World.patch, he]
    exact hgo left
  · simp only [broken, World.answer, write_failed ho]
    exact hfail hhit _

theorem flaky_createIfAbsent {x : Obj k} {ok : Unit → Flaky → Prop} (ho : o.fault ≠ .none)
    (hgo : ∀ left, ok () ⟨w.effect (.create k x), left, hit⟩)
    (hfail : hit = none → ∀ e, err e ⟨w.after o (.create k x), 0, some (.create k x)⟩) :
    Ends (flaky o) ok err (createIfAbsent x) ⟨w, left, hit⟩ := by
  simp only [createIfAbsent, bind_eq, ends_bind]
  refine ends_failOnce_call (fun left => ?_) fun _ hhit => ?_
  · have hnext := hgo left
    cases hget : w.get k x.key with
    | none =>
      simp only [cluster, World.answer, Outcome.write, World.create, hget]
      exact hnext
    | some _ =>
      simp only [cluster, World.answer, Outcome.write, World.create, hget]
      exact hnext
  · simp only [broken, World.answer, write_failed ho]
    exact hfail hhit _

/-! Calls within the controller process do not fail. -/

section Local
variable {β : Type} {ok : β → Flaky → Prop}

theorem flaky_transferGet_bind {name : String} {f : Option ActiveTransfer → M β} :
    Ends (flaky o) ok err (do let t : Option ActiveTransfer ← send (.transferGet name); f t)
      ⟨w, left, hit⟩ ↔ Ends (flaky o) ok err (f (w.transfers.get name)) ⟨w, left, hit⟩ :=
  ends_failOnce_sound rfl

theorem flaky_transferInsert_bind {t : ActiveTransfer} {f : Unit → M β} :
    Ends (flaky o) ok err (do let u : Unit ← send (.transferInsert t); f u) ⟨w, left, hit⟩ ↔
      Ends (flaky o) ok err (f ()) ⟨w.effect (.transferInsert t), left, hit⟩ :=
  ends_failOnce_sound rfl

theorem flaky_spawnRelay_bind {backupPeers restorePeers : List IpNet}
    {f : Except String Relay → M β} : Ends (flaky o) ok err
      (do let r : Except String Relay ← send (.spawnRelay backupPeers restorePeers); f r)
      ⟨w, left, hit⟩ ↔ Ends (flaky o) ok err (f (.ok ⟨1, 2, 0, 0, false, false⟩)) ⟨w, left, hit⟩ :=
  ends_failOnce_sound rfl

theorem flaky_random_bind {bound : Nat} {f : Nat → M β} :
    Ends (flaky o) ok err (do let r : Nat ← send (.random bound); f r) ⟨w, left, hit⟩ ↔
      Ends (flaky o) ok err (f (0 % bound)) ⟨w, left, hit⟩ :=
  ends_failOnce_sound rfl

theorem flaky_nowRfc3339 {post : Nat → Flaky → Prop} :
    Ends (flaky o) post err nowRfc3339 ⟨w, left, hit⟩ ↔ post (w.now / 10 ^ 9) ⟨w, left, hit⟩ :=
  ends_failOnce_sound rfl

end Local

end Rules

/-! ## Stages of a transfer -/

/-- What a transfer leaves as it is about its evacuation. -/
structure Move where
  name : String
  spec : ZFSEvacuationSpec
  source : SourceInfo
  target : TargetInfo
  pvcRef : Option PvcRef

namespace Move

def maxAttempts (m : Move) : Nat := m.spec.maxAttempts.getD defaultMaxAttempts

def timeout (m : Move) : Nat := m.spec.transferTimeoutSeconds.getD defaultTransferTimeout

/-- A status in the middle of the transfer. -/
structure Of (m : Move) (st : ZFSEvacuationStatus) : Prop where
  phase : st.phase = .transferring
  source : st.source = some m.source
  target : st.target = some m.target
  pvcRef : st.pvcRef = m.pvcRef

end Move

/-- The evacuation as it is stored, with the transfer it records. -/
structure Stored (m : Move) (tr : Option TransferStatus) (e : Obj .evacuation) : Prop where
  live : e.deleting = false
  spec : specOf e = m.spec
  status : m.Of (viewStatus e)
  transfer : (viewStatus e).transfer = tr

/-- Nobody has withdrawn the request behind the evacuation. -/
structure Wanted (cfg : Config) (m : Move) (w : World) : Prop where
  pv : ∃ pv, w.get .pv ⟨"", m.spec.pvName⟩ = some pv ∧ (m.spec.trigger = EvacuationTrigger.annotation →
    pv.metadata.annotations.get evacuateAnnotation = some "true")
  taint : m.spec.trigger = .nodeTaint → ∀ node, w.get .node ⟨"", m.source.node⟩ = some node →
    nodeHasEvacuateTaint node cfg.taintKey = true
  pvc : ∀ r, m.pvcRef = some r → ∃ pvc, w.get .pvc r.key = some pvc ∧ pvc.metadata.uid = r.uid

/-- The node is there, with addresses that its agents connect from. -/
def Reachable (w : World) (nodeId : String) : Prop :=
  ∃ node, nodeFound w nodeId = some node ∧ (relayPeerNets node).isEmpty = false

/-- A transfer with its record and its relay. -/
structure Stage (cfg : Config) (m : Move) (tr : Option TransferStatus)
    (relay : Option ActiveTransfer) (w : World) : Prop where
  evac : ∃ e, w.get .evacuation ⟨"", m.name⟩ = some e ∧ Stored m tr e
  relay : w.transfers.get m.name = relay
  wanted : Wanted cfg m w
  source : Reachable w m.source.nodeId
  target : Reachable w m.target.nodeId

/-- What a transfer relies on, and what its own calls leave alone. -/
structure Settled (w w' : World) : Prop where
  pv : ∀ key, w'.get .pv key = w.get .pv key
  pvc : ∀ key, w'.get .pvc key = w.get .pvc key
  nodes : w'.objects .node = w.objects .node

section Settled
variable {cfg : Config} {m : Move} {tr tr' : Option TransferStatus}
  {relay relay' : Option ActiveTransfer} {w w' w'' : World}

theorem settled_of_objects (h : w'.objects = w.objects) : Settled w w' :=
  ⟨fun key => by rw [World.get, h, World.get], fun key => by rw [World.get, h, World.get],
    by rw [h]⟩

theorem settled_update {k : Kind} (o : Obj k) (hpv : k ≠ .pv) (hpvc : k ≠ .pvc)
    (hnode : k ≠ .node) : Settled w (w.update o) := by
  refine ⟨fun key => World.get_update_other w o fun h => absurd h.symm hpv,
    fun key => World.get_update_other w o fun h => absurd h.symm hpvc, ?_⟩
  unfold World.update
  split_ifs <;> simp [World.remove, World.store, Function.update_of_ne hnode.symm]

theorem settled_effect {c : Call} (h : ∀ k (o : Obj k), World.Written w c k o →
    k ≠ .pv ∧ k ≠ .pvc ∧ k ≠ .node) : Settled w (w.effect c) := by
  rcases World.effect_cases w c with ⟨hobj, -, -⟩ | ⟨k, o, hw, heq⟩
  · exact settled_of_objects hobj
  · obtain ⟨hpv, hpvc, hnode⟩ := h k o hw
    rw [heq]
    exact settled_update o hpv hpvc hnode

theorem settled_patch (key : Key) (p : Patch .evacuation) :
    Settled w (w.effect (.patch .evacuation key p)) := by
  refine settled_effect fun k o hw => ?_
  cases hw
  decide

theorem settled_create (o : Obj .zfsBackup) : Settled w (w.effect (.create .zfsBackup o)) := by
  refine settled_effect fun k o hw => ?_
  cases hw
  decide

theorem Settled.found (h : Settled w w') (nodeId : String) :
    nodeFound w' nodeId = nodeFound w nodeId := by
  unfold nodeFound
  rw [World.get, World.list, h.nodes, World.get, World.list]

theorem Settled.reachable (h : Settled w w') {nodeId : String} (hr : Reachable w nodeId) :
    Reachable w' nodeId := by
  unfold Reachable
  rw [h.found]
  exact hr

theorem Settled.wanted (h : Settled w w') (hw : Wanted cfg m w) : Wanted cfg m w' := by
  refine ⟨?_, ?_, ?_⟩
  · rw [h.pv]
    exact hw.pv
  · intro htrigger node hget
    rw [World.get, h.nodes] at hget
    exact hw.taint htrigger node hget
  · intro r hr
    rw [h.pvc]
    exact hw.pvc r hr

/-- A stage is told by the evacuation and the relay alone. -/
theorem Settled.stage (h : Settled w w') (hs : Stage cfg m tr relay w) {e : Obj .evacuation}
    (he : w'.get .evacuation ⟨"", m.name⟩ = some e) (hstored : Stored m tr' e)
    (hrelay : w'.transfers.get m.name = relay') : Stage cfg m tr' relay' w' :=
  ⟨⟨e, he, hstored⟩, hrelay, h.wanted hs.wanted, h.reachable hs.source, h.reachable hs.target⟩

end Settled

/-! ## Starting an attempt -/

section Start
variable {cfg : Config} {m : Move} {tr tr' : Option TransferStatus}
  {relay : Option ActiveTransfer} {w w' : World} {e : Obj .evacuation} {k : Nat} {o : Outcome}

theorem patched_status (he : w.get .evacuation ⟨"", m.name⟩ = some e) (hlive : e.deleting = false)
    (st : ZFSEvacuationStatus) : ∃ e',
      (w.effect (.patch .evacuation ⟨"", m.name⟩ (.status st))).get .evacuation ⟨"", m.name⟩ =
        some e' ∧ e'.deleting = false ∧ specOf e' = specOf e ∧ (viewStatus e').core = st.core := by
  have hself := World.get_patch_self he (.status st)
  have hdel : ((Patch.status st).apply e).deleting = false := by
    rw [Patch.deleting_apply]
    exact hlive
  have hkept : ((Patch.status st).apply e).gone = false := by rw [Obj.gone, hdel, Bool.false_and]
  rw [hkept] at hself
  exact ⟨_, hself, hdel, rfl, core_mergeStatus _ _⟩

theorem Move.Of.of_core {st st' : ZFSEvacuationStatus} (h : m.Of st) (hc : st'.core = st.core) :
    m.Of st' := by
  have hphase := congrArg ZFSEvacuationStatus.phase hc
  have hsource := congrArg ZFSEvacuationStatus.source hc
  have htarget := congrArg ZFSEvacuationStatus.target hc
  have hpvc := congrArg ZFSEvacuationStatus.pvcRef hc
  exact ⟨hphase.trans h.phase, hsource.trans h.source, htarget.trans h.target, hpvc.trans h.pvcRef⟩

/-- Writing a status of the transfer leads to the next stage. -/
theorem Stage.write (h : Stage cfg m tr relay w) {st : ZFSEvacuationStatus} (hst : m.Of st)
    (htr : st.transfer = tr') :
    Stage cfg m tr' relay (w.effect (.patch .evacuation ⟨"", m.name⟩ (.status st))) := by
  obtain ⟨e, he, hstored⟩ := h.evac
  obtain ⟨e', he', hlive, hspec, hcore⟩ := patched_status he hstored.live st
  have htransfer := congrArg ZFSEvacuationStatus.transfer hcore
  refine (settled_patch _ _).stage h he' ?_ ?_
  · exact ⟨hlive, hspec.trans hstored.spec, hst.of_core hcore, htransfer.trans htr⟩
  · rw [World.transfers_effect]
    exact h.relay

theorem Stage.create (h : Stage cfg m tr relay w) (x : Obj .zfsBackup) :
    Stage cfg m tr relay (w.effect (.create .zfsBackup x)) := by
  obtain ⟨e, he, hstored⟩ := h.evac
  have hget : (w.effect (.create .zfsBackup x)).get .evacuation ⟨"", m.name⟩ = some e := by
    rw [← he]
    exact World.get_create_other w x fun heq => absurd heq (by decide)
  refine (settled_create x).stage h hget hstored ?_
  rw [World.transfers_effect]
  exact h.relay

theorem Stage.insert (h : Stage cfg m tr relay w) {t : ActiveTransfer} (ht : t.evac = m.name) :
    Stage cfg m tr (some t) (w.effect (.transferInsert t)) := by
  obtain ⟨e, he, hstored⟩ := h.evac
  have hsettled : Settled w (w.effect (.transferInsert t)) := settled_of_objects rfl
  refine hsettled.stage h he hstored ?_
  simp only [World.transfers_effect, KeyedStore.get_put, ht, if_pos]

theorem Stage.drop (h : Stage cfg m tr relay w) :
    Stage cfg m tr none (w.effect (.transferRemove m.name)) := by
  obtain ⟨e, he, hstored⟩ := h.evac
  have hsettled : Settled w (w.effect (.transferRemove m.name)) := settled_of_objects rfl
  refine hsettled.stage h he hstored ?_
  simp only [World.transfers_effect, KeyedStore.get_erase, if_pos]

/-- Neither resource of the attempt exists. -/
structure NoCrs (cfg : Config) (name : String) (k : Nat) (w : World) : Prop where
  backup : w.get .zfsBackup (bkpKey cfg name k) = none
  restore : w.get .zfsRestore (rstKey cfg name k) = none

theorem NoCrs.write (h : NoCrs cfg m.name k w) (key : Key) (p : Patch .evacuation) :
    NoCrs cfg m.name k (w.effect (.patch .evacuation key p)) := by
  constructor
  · rw [← h.backup]
    exact World.get_patch_other w fun heq => absurd heq (by decide)
  · rw [← h.restore]
    exact World.get_patch_other w fun heq => absurd heq (by decide)

/-- A relay that nothing has come through yet. -/
structure Quiet (t : ActiveTransfer) : Prop where
  bytes : t.relay.bytes = 0
  source : t.relay.sourceConnected = false

/-- The attempt is recorded, its relay is registered and its backup exists. -/
def Started (cfg : Config) (m : Move) (k : Nat) (w : World) : Prop :=
  ∃ t x, Stage cfg m (some t) (some x) w ∧ t.attempt = k ∧ x.attempt = k ∧
    w.get .zfsBackup (bkpKey cfg m.name k) ≠ none

/-- The attempt is recorded and its relay is registered, but none of its resources exists. -/
def Awaiting (cfg : Config) (m : Move) (k s₀ : Nat) (w : World) : Prop :=
  ∃ t x, Stage cfg m (some t) (some x) w ∧ t.attempt = k ∧ x.attempt = k ∧ Quiet x ∧
    t.failureReason = none ∧ t.startedAt = some s₀ ∧ NoCrs cfg m.name k w

/-- What a start leads to, with the call that failed in it. -/
inductive Begun (cfg : Config) (m : Move) (tr : Option TransferStatus) (k : Nat) (o : Outcome)
    (hit : Option Call) (w : World) : Flaky → Prop
  | looked (c : Call) (first : hit = none) (read : statusWrite c = none) :
      Begun cfg m tr k o hit w ⟨w, 0, some c⟩
  | unrecorded (w' : World) (c : Call) (x : ActiveTransfer) (first : hit = none)
      (write : (statusWrite c).isSome = true) (lost : o.fault = .lost)
      (stage : Stage cfg m tr (some x) w') (attempt : x.attempt = k)
      (same : w'.objects = w.objects) : Begun cfg m tr k o hit w ⟨w', 0, some c⟩
  | awaiting (w' : World) (c : Call) (first : hit = none)
      (kept : (statusWrite c).isSome = true → o.fault ≠ .lost) (now : w'.now = w.now)
      (h : Awaiting cfg m k (w.now / 10 ^ 9) w') : Begun cfg m tr k o hit w ⟨w', 0, some c⟩
  | started (s : Flaky) (h : Started cfg m k s.state)
      (kept : ∀ c, s.hit = some c → statusWrite c = none ∨ hit = some c) :
      Begun cfg m tr k o hit w s

theorem flaky_relayPeers {node : Obj .node} (h : (relayPeerNets node).isEmpty = false)
    {ok : List IpNet → Flaky → Prop} {err : Error → Flaky → Prop} {s : Flaky} :
    Ends (flaky o) ok err (relayPeers node) s ↔ ok (relayPeerNets node) s := by
  simp [relayPeers, h]

theorem now_update {kind : Kind} (w : World) (x : Obj kind) : (w.update x).now = w.now := by
  unfold World.update
  split_ifs <;> rfl

theorem now_effect (w : World) {c : Call} (hc : c.remote = true) : (w.effect c).now = w.now := by
  rcases World.effect_remote w hc with heq | ⟨kind, x, heq⟩
  · rw [heq]
  · rw [heq, now_update]

theorem created_exists {kind : Kind} (w : World) (x : Obj kind) :
    (w.effect (.create kind x)).get kind x.key ≠ none := by
  cases hget : w.get kind x.key with
  | none =>
    have hself := World.get_create_self w hget
    rw [hself]
    simp
  | some y =>
    have hsame : w.effect (.create kind x) = w := by simp [World.effect, World.create, hget]
    rw [hsame, hget]
    simp

/-- From the record on, only the backup is left to be created. -/
theorem flaky_createBackup (ho : o.fault ≠ .none) {t : TransferStatus} {x : ActiveTransfer}
    (hs : Stage cfg m (some t) (some x) w') (ht : t.attempt = k) (hx : x.attempt = k)
    (hquiet : Quiet x) (hreason : t.failureReason = none)
    (hstart : t.startedAt = some (w.now / 10 ^ 9)) {hit : Option Call}
    (hcrs : hit = none → NoCrs cfg m.name k w') (hnow : w'.now = w.now) (snapName : String)
    (port left : Nat) :
    Ends (flaky o) (fun _ => Begun cfg m tr k o hit w) (fun _ => Begun cfg m tr k o hit w)
      (createIfAbsent (backupCr cfg m.name k m.source snapName port)) ⟨w', left, hit⟩ := by
  have hstarted : Started cfg m k
      (w'.effect (.create .zfsBackup (backupCr cfg m.name k m.source snapName port))) :=
    ⟨t, x, hs.create _, ht, hx, created_exists w' (backupCr cfg m.name k m.source snapName port)⟩
  refine flaky_createIfAbsent ho (fun left => ?_) fun hhit _ => ?_
  · exact .started _ hstarted fun c hc => .inr hc
  · by_cases hlost : o.fault = .lost
    · rw [after_lost hlost rfl]
      refine .awaiting w' _ hhit (fun hwrite => by cases hwrite) hnow ?_
      exact ⟨t, x, hs, ht, hx, hquiet, hreason, hstart, hcrs hhit⟩
    · rw [after_kept hlost]
      refine .started _ hstarted fun c hc => .inl ?_
      rw [← Option.some.inj hc]
      rfl

/-- The relay is registered before the attempt is recorded, and recorded before the backup is
created. -/
theorem flaky_record (ho : o.fault ≠ .none) (hs : Stage cfg m tr none w) {hit : Option Call}
    (hcrs : hit = none → NoCrs cfg m.name k w) {st : ZFSEvacuationStatus} (hst : m.Of st)
    {t : TransferStatus} {x : ActiveTransfer} (hx : x.evac = m.name) (hxk : x.attempt = k) (hquiet : Quiet x)
    (htk : t.attempt = k) (hreason : t.failureReason = none)
    (hstart : t.startedAt = some (w.now / 10 ^ 9)) (msg : Option String) (snapName : String)
    (port left : Nat) :
    Ends (flaky o) (fun _ => Begun cfg m tr k o hit w) (fun _ => Begun cfg m tr k o hit w)
      (do writeStatus m.name { st with
            source := some m.source, target := some m.target, transfer := some t, message := msg }
          createIfAbsent (backupCr cfg m.name k m.source snapName port)
          pure (requeueSecs 2)) ⟨w.effect (.transferInsert x), left, hit⟩ := by
  have hs₁ : Stage cfg m tr (some x) (w.effect (.transferInsert x)) := hs.insert hx
  have hcrs₁ : hit = none → NoCrs cfg m.name k (w.effect (.transferInsert x)) :=
    fun hhit => ⟨(hcrs hhit).backup, (hcrs hhit).restore⟩
  obtain ⟨st₁, hst₁⟩ : ∃ st₁ : ZFSEvacuationStatus, { st with
      source := some m.source, target := some m.target, transfer := some t, message := msg } = st₁ :=
    ⟨_, rfl⟩
  rw [hst₁]
  have hof : m.Of st₁ := hst₁ ▸ ⟨hst.phase, rfl, rfl, hst.pvcRef⟩
  have hs₂ := hs₁.write hof (hst₁ ▸ rfl : st₁.transfer = some t)
  have hcrs₂ := fun hhit => (hcrs₁ hhit).write ⟨"", m.name⟩ (.status st₁)
  obtain ⟨e₁, he₁, -⟩ := hs₁.evac
  rw [bind_eq, ends_bind]
  refine flaky_writeStatus ho he₁ (fun left => ?_) fun hhit _ => ?_
  · rw [bind_eq, ends_bind]
    exact flaky_createBackup ho hs₂ htk hxk hquiet hreason hstart hcrs₂ (now_effect _ rfl) _ _ _
  · by_cases hlost : o.fault = .lost
    · rw [after_lost hlost rfl]
      exact .unrecorded _ _ x hhit rfl hlost hs₁ hxk rfl
    · rw [after_kept hlost]
      refine .awaiting _ _ hhit (fun _ => hlost) (now_effect _ rfl) ?_
      exact ⟨t, x, hs₂, htk, hxk, hquiet, hreason, hstart, hcrs₂ hhit⟩

theorem flaky_startAttempt (ho : o.fault ≠ .none) (hs : Stage cfg m tr none w)
    {hit : Option Call} (hcrs : hit = none → NoCrs cfg m.name k w) {st : ZFSEvacuationStatus}
    (hst : m.Of st) (hname : e.name = m.name) (left : Nat) :
    Ends (flaky o) (fun _ => Begun cfg m tr k o hit w) (fun _ => Begun cfg m tr k o hit w)
      (startAttempt cfg e st k) ⟨w, left, hit⟩ := by
  obtain ⟨srcNode, hsrc, hsrcPeers⟩ := hs.source
  obtain ⟨dstNode, hdst, hdstPeers⟩ := hs.target
  have hrelay : w.transfers.get e.name = none := by
    rw [hname]
    exact hs.relay
  simp only [startAttempt, hst.source, hst.target, orErr, pure_eq, bind_eq, ret_bind]
  refine flaky_transferGet_bind.mpr ?_
  rw [hrelay, Option.any_none, if_neg (by simp)]
  simp only [ends_bind]
  refine flaky_nodeById ho (fun left => ?_) fun hhit _ c hc => .looked c hhit hc
  simp only [hsrc, ends_ret]
  refine flaky_nodeById ho (fun left => ?_) fun hhit _ c hc => .looked c hhit hc
  simp only [hdst, ends_ret]
  refine (flaky_relayPeers hsrcPeers).mpr ((flaky_relayPeers hdstPeers).mpr ?_)
  refine flaky_spawnRelay_bind.mpr ?_
  refine flaky_transferInsert_bind.mpr ?_
  refine flaky_random_bind.mpr ?_
  rw [ends_bind, flaky_nowRfc3339, hname]
  refine flaky_record ho hs hcrs hst ?_ ?_ ?_ ?_ ?_ ?_ _ _ _ _
  · rfl
  · rfl
  · exact ⟨rfl, rfl⟩
  · rfl
  · rfl
  · rfl

end Start

/-! ## The reconciles that follow -/

section Follow
variable {cfg : Config} {m : Move} {tr : Option TransferStatus} {relay : Option ActiveTransfer}
  {w w' : World} {e : Obj .evacuation} {k : Nat} {st : ZFSEvacuationStatus}

theorem ends_transferGet_bind {β : Type} {ok : β → World → Prop} {err : Error → World → Prop}
    {name : String} {f : Option ActiveTransfer → M β} :
    Ends cluster ok err (do let t : Option ActiveTransfer ← send (.transferGet name); f t) w ↔
      Ends cluster ok err (f (w.transfers.get name)) w := Iff.rfl

theorem ends_now_bind {β : Type} {ok : β → World → Prop} {err : Error → World → Prop}
    {f : Nat → M β} :
    Ends cluster ok err (do let t : Nat ← send .now; f t) w ↔ Ends cluster ok err (f w.now) w := Iff.rfl

theorem ends_transferRemove_bind {β : Type} {ok : β → World → Prop} {err : Error → World → Prop}
    {name : String} {f : Unit → M β} :
    Ends cluster ok err (do let u : Unit ← send (.transferRemove name); f u) w ↔
      Ends cluster ok err (f ()) (w.effect (.transferRemove name)) := Iff.rfl

theorem ends_triggerWithdrawn {ok : Option String → World → Prop} {err : Error → World → Prop}
    (h : Wanted cfg m w) (hspec : specOf e = m.spec) (hst : m.Of st) {pv : Obj .pv}
    (hpv : m.spec.trigger = EvacuationTrigger.annotation →
      pv.metadata.annotations.get evacuateAnnotation = some "true") (hok : ok none w) :
    Ends cluster ok err (triggerWithdrawn cfg e st pv) w := by
  unfold triggerWithdrawn
  rw [hspec]
  cases htrigger : m.spec.trigger with
  | annotation =>
    simp only [hpv htrigger, ne_eq, not_true_eq_false, if_false, pure_eq]
    exact hok
  | nodeTaint =>
    simp only [hst.source, bind_eq, ends_bind, ends_getOpt]
    cases hnode : w.get .node ⟨"", m.source.node⟩ with
    | none => exact hok
    | some node =>
      simp only [h.taint htrigger node hnode, Bool.not_true, Bool.false_eq_true, if_false, pure_eq]
      exact hok

theorem ends_cancelReason {ok : Option String → World → Prop} {err : Error → World → Prop}
    (h : Wanted cfg m w) (hspec : specOf e = m.spec) (hst : m.Of st) (hok : ok none w) :
    Ends cluster ok err (cancelReason cfg e st) w := by
  obtain ⟨pv, hpv, hannotated⟩ := h.pv
  have hphase : st.phase ≠ .pending := by
    rw [hst.phase]
    decide
  simp only [cancelReason, if_neg hphase, bind_eq, ends_bind, ends_getOpt, hspec, hpv]
  refine ends_triggerWithdrawn h hspec hst hannotated ?_
  simp only [hst.pvcRef]
  cases href : m.pvcRef with
  | none => exact hok
  | some r =>
    obtain ⟨pvc, hpvc, huid⟩ := h.pvc r href
    simp only [ends_bind, ends_getOpt, hpvc, huid, ne_eq, not_true_eq_false, if_false, pure_eq]
    exact hok

theorem Stage.sign (h : Stage cfg m tr relay w) (fs : List String) :
    Stage cfg m tr relay (w.effect (.patch .evacuation ⟨"", m.name⟩ (.finalizers fs))) := by
  obtain ⟨e, he, hstored⟩ := h.evac
  have hself := World.get_patch_self he (.finalizers fs)
  have hdel : ((Patch.finalizers fs).apply e).deleting = false := hstored.live
  have hkept : ((Patch.finalizers fs).apply e).gone = false := by rw [Obj.gone, hdel, Bool.false_and]
  rw [hkept] at hself
  refine (settled_patch _ _).stage h hself ?_ ?_
  · exact ⟨hdel, hstored.spec, hstored.status, hstored.transfer⟩
  · rw [World.transfers_effect]
    exact h.relay

theorem ends_ensureEvacFinalizer {ok : Unit → World → Prop} {err : Error → World → Prop}
    (h : Stage cfg m tr relay w) (he : w.get .evacuation ⟨"", m.name⟩ = some e)
    (hname : e.name = m.name) (hok : ∀ w', Stage cfg m tr relay w' → Abort.Aside w w' →
      w'.now = w.now → ok () w') : Ends cluster ok err (ensureEvacFinalizer e) w := by
  unfold ensureEvacFinalizer
  split_ifs
  · exact hok w h (fun _ _ _ => rfl) rfl
  · rw [hname]
    refine (ends_patchObj he).mpr ?_
    exact hok _ (h.sign _) (Abort.aside_patch w _ _) (now_effect w rfl)

/-- A reconcile gets to the transfer, with its finalizer in place. -/
theorem ends_reconcile {ok : Action → World → Prop} {err : Error → World → Prop}
    (h : Stage cfg m tr relay w) (he : w.get .evacuation ⟨"", m.name⟩ = some e)
    (hnext : Stored m tr e → e.name = m.name → ∀ w', Stage cfg m tr relay w' → Abort.Aside w w' →
      w'.now = w.now → Ends cluster ok err (transferring cfg e (viewStatus e)) w') :
    Ends cluster ok err (reconcile cfg e) w := by
  obtain ⟨e₁, he₁, hstored⟩ := h.evac
  obtain rfl : e = e₁ := Option.some.inj (he.symm.trans he₁)
  have hname : e.name = m.name := congrArg Key.name (World.get_key he)
  have hphase := hstored.status.phase
  have hover : ¬ ((viewStatus e).phase = .completed ∨ (viewStatus e).phase = .failed) := by
    rw [hphase]
    decide
  have haborting : (viewStatus e).phase ≠ .aborting := by
    rw [hphase]
    decide
  have hhandle : handlePhase cfg e (viewStatus e) = transferring cfg e (viewStatus e) := by
    simp only [handlePhase, hphase]
  simp only [reconcile, if_neg hover, hstored.live, Bool.false_and, Bool.not_false, if_true,
    Bool.false_eq_true, if_false, if_neg haborting]
  rw [bind_eq, ends_bind]
  refine ends_ensureEvacFinalizer h he hname fun w' hs ha hnow => ?_
  have htransfer := hnext hstored hname w' hs ha hnow
  split_ifs
  · rw [bind_eq, ends_bind]
    refine ends_cancelReason hs.wanted hstored.spec hstored.status ?_
    simp only [hhandle]
    exact htransfer
  · simp only [pure_eq, bind_eq, ret_bind, hhandle]
    exact htransfer

/-- Without a failure the attempt is started. -/
theorem ends_startAttempt (hs : Stage cfg m tr none w) (hst : m.Of st) (hname : e.name = m.name) :
    Ends cluster (fun _ => Started cfg m k) (fun _ => Started cfg m k) (startAttempt cfg e st k)
      w := by
  have hnone : some Call.now = none → NoCrs cfg m.name k w := fun hhit => by cases hhit
  have hstart := flaky_startAttempt (o := { fault := .lost }) (by decide) hs hnone hst hname 0
  have hbegun : ∀ s : Flaky, Begun cfg m tr k { fault := .lost } (some .now) w s →
      Started cfg m k s.state := by
    intro s h
    cases h with
    | looked _ first _ => cases first
    | unrecorded _ _ _ first _ _ _ _ _ => cases first
    | awaiting _ _ first _ _ _ => cases first
    | started s h _ => exact h
  exact (ends_failOnce_hit rfl).mp (ends_mono hstart (fun _ s => hbegun s) fun _ s => hbegun s)

/-! What the verdict is without transfer resources -/

/-- What is observed of an attempt that has no resources. -/
def observed (cfg : Config) (m : Move) (t : TransferStatus) (relay : Option ActiveTransfer)
    (now : Nat) : TransferObs :=
  { attempt := t.attempt
    failureReason := t.failureReason
    bkpStatus := ""
    rstStatus := ""
    rstExists := false
    mem := relay.map observeRelay
    elapsedSecs := (t.startedAt.bind (secsSince now)).getD 0
    nowSecs := now / 10 ^ 9
    timeoutSecs := m.timeout
    stallSecs := cfg.stallSeconds }

/-- Nothing is reported of either resource, and there is no restore. -/
structure Unreported (o : TransferObs) : Prop where
  backup : o.bkpStatus = ""
  restore : o.rstStatus = ""
  absent : o.rstExists = false

theorem Unreported.not_done {o : TransferObs} (h : Unreported o) :
    ¬ (o.bkpStatus = bkpStatusDone ∧ o.rstStatus = bkpStatusDone) := by
  rintro ⟨hdone, -⟩
  rw [h.backup] at hdone
  exact absurd hdone (by decide)

theorem agentFailed_empty : agentFailed "" = false := by decide

theorem verdict_judged {o : TransferObs} (h : Unreported o) {r : String}
    (hr : o.failureReason = some r) : transferVerdict o = .failAttempt r := by
  rw [transferVerdict, if_neg h.not_done, hr]

theorem verdict_unjudged {o : TransferObs} (h : Unreported o) (hr : o.failureReason = none) :
    transferVerdict o = match o.mem with
      | none => .failAttempt "controller restarted mid-transfer"
      | some m =>
        if o.attempt < m.attempt then .staleStatus
        else if m.attempt < o.attempt then .staleRelay
        else if !m.flowing && o.timeoutSecs < o.elapsedSecs then .failAttempt "transfer timed out"
        else if m.sourceConnected then .createRestore else .waitingForSource := by
  rw [transferVerdict, if_neg h.not_done, hr, h.backup, h.restore]
  cases o.mem <;>
    simp only [agentFailed_empty, Bool.false_eq_true, if_false, h.absent, Bool.not_false, if_true]

variable {t : TransferStatus} {x : ActiveTransfer}

theorem unreported (now : Nat) : Unreported (observed cfg m t relay now) := ⟨rfl, rfl, rfl⟩

theorem verdict_lost (now : Nat) :
    ∃ r, transferVerdict (observed cfg m t none now) = .failAttempt r := by
  cases hreason : t.failureReason with
  | some r => exact ⟨r, verdict_judged (unreported now) hreason⟩
  | none => exact ⟨_, verdict_unjudged (unreported now) hreason⟩

theorem verdict_newer (hreason : t.failureReason = none) (hx : t.attempt < x.attempt) (now : Nat) :
    transferVerdict (observed cfg m t (some x) now) = .staleStatus := by
  rw [verdict_unjudged (unreported now) hreason]
  exact if_pos hx

theorem verdict_awaiting (hreason : t.failureReason = none) (hx : x.attempt = t.attempt)
    (hquiet : Quiet x) (now : Nat) : transferVerdict (observed cfg m t (some x) now) =
      if m.timeout < (t.startedAt.bind (secsSince now)).getD 0 then
        .failAttempt "transfer timed out"
      else .waitingForSource := by
  rw [verdict_unjudged (unreported now) hreason]
  simp only [observed, Option.map_some, observeRelay, ← hx, RelayObs.flowing,
    hquiet.bytes, hquiet.source, Nat.lt_irrefl, decide_false, Bool.and_false, Bool.not_false,
    Bool.true_and, decide_eq_true_eq, Bool.false_eq_true, if_false]

/-- What the transfer goes on with, by the verdict. -/
theorem ends_transferring {ok : Action → World → Prop} {err : Error → World → Prop}
    (hstored : Stored m (some t) e) (hname : e.name = m.name) (hrelay : w.transfers.get m.name = relay)
    (hcrs : NoCrs cfg m.name t.attempt w) (hgo :
      match transferVerdict (observed cfg m t relay w.now) with
      | .failAttempt r =>
        Ends cluster ok err (retryOrFail cfg e (viewStatus e) t m.maxAttempts r) w
      | .staleStatus => ok (requeueSecs 2) w
      | .waitingForSource => Ends cluster ok err (wait m.name (viewStatus e)
          ("transfer attempt " ++ toString t.attempt ++ " waiting for source") 2) w
      | _ => False) :
    Ends cluster ok err (transferring cfg e (viewStatus e)) w := by
  have hbkp : w.get .zfsBackup (bkpKey cfg e.name t.attempt) = none := hname ▸ hcrs.backup
  have hrst : w.get .zfsRestore (rstKey cfg e.name t.attempt) = none := hname ▸ hcrs.restore
  have hmem : w.transfers.get e.name = relay := hname ▸ hrelay
  unfold transferring
  simp only [hstored.transfer, hstored.spec, bind_eq, ends_bind, ends_getOpt, hbkp, hrst]
  refine ends_transferGet_bind.mpr (ends_now_bind.mpr ?_)
  rw [hmem]
  have hobs : ({
      attempt := t.attempt, failureReason := t.failureReason, bkpStatus := backupStatus none,
      rstStatus := restoreStatus none, rstExists := (none : Option (Obj .zfsRestore)).isSome,
      mem := Option.map observeRelay relay,
      elapsedSecs := (t.startedAt.bind (secsSince w.now)).getD 0, nowSecs := w.now / 10 ^ 9,
      timeoutSecs := m.spec.transferTimeoutSeconds.getD defaultTransferTimeout,
      stallSecs := cfg.stallSeconds } : TransferObs) = observed cfg m t relay w.now := rfl
  rw [hobs]
  cases hv : transferVerdict (observed cfg m t relay w.now) with
  | failAttempt r =>
    rw [hv] at hgo
    exact hgo
  | staleStatus =>
    rw [hv] at hgo
    exact hgo
  | waitingForSource =>
    rw [hv, ← hname] at hgo
    exact hgo
  | _ =>
    rw [hv] at hgo
    exact hgo.elim

/-- The evacuation has left the transfer for the abort path. -/
def Abandoned (m : Move) (w : World) : Prop :=
  ∃ e, w.get .evacuation ⟨"", m.name⟩ = some e ∧ (viewStatus e).phase = .aborting

/-- What follows an attempt that is given up. -/
def Succeeded (cfg : Config) (m : Move) (k : Nat) (w : World) : Prop :=
  if m.maxAttempts ≤ k then Abandoned m w else Started cfg m (k + 1) w

theorem ends_beginAbort {err : Error → World → Prop} (hs : Stage cfg m tr relay w)
    (hname : e.name = m.name) (msg : String) :
    Ends cluster (fun _ => Abandoned m) err (beginAbort e.name st msg) w := by
  obtain ⟨e₁, he₁, hstored⟩ := hs.evac
  rw [hname, beginAbort, bind_eq, ends_bind]
  refine (ends_writeStatus he₁).mpr ?_
  obtain ⟨e', he', -, -, hcore⟩ := patched_status he₁ hstored.live
    { st with phase := .aborting, message := some msg }
  exact ⟨e', he', congrArg ZFSEvacuationStatus.phase hcore⟩

/-- An attempt whose resources are gone is followed by the next one, or by the end of the
transfer. -/
theorem ends_retryOrFail (hs : Stage cfg m (some t) relay w) (hst : m.Of st)
    (hname : e.name = m.name) (hcrs : NoCrs cfg m.name t.attempt w) (r : String) :
    Ends cluster (fun _ => Succeeded cfg m t.attempt) (fun _ => Succeeded cfg m t.attempt)
      (retryOrFail cfg e st t m.maxAttempts r) w := by
  unfold retryOrFail Succeeded
  refine ends_transferRemove_bind.mpr ?_
  have hdropped := hname ▸ hs.drop
  rw [bind_eq, ends_bind]
  refine Abort.ends_cleanupTransferCrs (fun _ _ => ?_) fun w₁ w₂ hleft _ _ => ?_
  · simp only [Bool.not_true, Bool.false_eq_true, if_false]
    split_ifs with hmax
    · exact ends_beginAbort hdropped hname _
    · exact ends_startAttempt hdropped ⟨hst.phase, hst.source, hst.target, hst.pvcRef⟩ hname
  · rw [hname] at hleft
    rcases hleft with hbackup | hrestore
    · exact absurd hcrs.backup hbackup
    · exact absurd hcrs.restore hrestore

theorem ends_wait (hs : Stage cfg m (some t) relay w) (hst : m.Of st)
    (htr : st.transfer = some t) {ok : Action → World → Prop} {err : Error → World → Prop}
    {msg : String} {secs : Nat} (hok : ∀ a w', Stage cfg m (some t) relay w' → Abort.Aside w w' →
      w'.now = w.now → ok a w') :
    Ends cluster ok err (wait m.name st msg secs) w := by
  obtain ⟨e₁, he₁, -⟩ := hs.evac
  unfold wait
  split_ifs
  · rw [bind_eq, ends_bind]
    refine (ends_writeStatus he₁).mpr (hok _ _ (hs.write ?_ htr) (Abort.aside_patch w _ _) ?_)
    · exact ⟨hst.phase, hst.source, hst.target, hst.pvcRef⟩
    · exact now_effect w rfl
  · exact hok _ _ hs (fun _ _ _ => rfl) rfl

theorem NoCrs.of_aside {name : String} (h : NoCrs cfg name k w) (ha : Abort.Aside w w') :
    NoCrs cfg name k w' :=
  ⟨(ha _ _ (by decide)).trans h.backup, (ha _ _ (by decide)).trans h.restore⟩

/-- The attempt that a transfer with this record starts next. -/
inductive Turn (cfg : Config) (m : Move) (k : Nat) (w : World) : Option TransferStatus → Prop
  | first (h : k = 1) : Turn cfg m k w none
  | next (t : TransferStatus) (h : t.attempt + 1 = k) (more : t.attempt < m.maxAttempts)
      (gone : NoCrs cfg m.name t.attempt w) : Turn cfg m k w (some t)

/-- The recorded attempt has been judged. -/
def Judged (tr : Option TransferStatus) : Prop := ∃ t, tr = some t ∧ t.failureReason ≠ none

/-- One reconcile of the stored evacuation. -/
def reconciled (cfg : Config) (name : String) (w : World) : World :=
  match w.get .evacuation ⟨"", name⟩ with
  | none => w
  | some e => (exec cluster (reconcile cfg e) w).2

theorem reconciled_of_ends (post : World → Prop) (h : Stage cfg m tr relay w)
    (hnext : ∀ e, Stored m tr e → e.name = m.name → ∀ w', Stage cfg m tr relay w' →
      Abort.Aside w w' → w'.now = w.now →
      Ends cluster (fun _ => post) (fun _ => post) (transferring cfg e (viewStatus e)) w') :
    post (reconciled cfg m.name w) := by
  obtain ⟨e, he, -⟩ := h.evac
  rw [reconciled, he]
  exact Ends.exec (ends_reconcile h he fun hstored hname => hnext e hstored hname)

/-- With no relay, or with a judged attempt, the next reconcile starts the attempt. -/
theorem started_round (h : Stage cfg m tr relay w) (hturn : Turn cfg m k w tr)
    (hfree : relay = none ∨ Judged tr) : Started cfg m k (reconciled cfg m.name w) := by
  refine reconciled_of_ends _ h fun e hstored hname w' hs ha _ => ?_
  cases hturn with
  | first hk =>
    obtain rfl : relay = none := hfree.resolve_right fun ⟨t, ht, _⟩ => by cases ht
    unfold transferring
    simp only [hstored.transfer]
    exact hk ▸ ends_startAttempt hs hstored.status hname
  | next t hk more gone =>
    have hgone := gone.of_aside ha
    have hverdict : ∃ r, transferVerdict (observed cfg m t relay w'.now) = .failAttempt r := by
      rcases hfree with rfl | ⟨t', ht', hjudged⟩
      · exact verdict_lost _
      · obtain rfl := Option.some.inj ht'
        obtain ⟨r, hr⟩ := Option.ne_none_iff_exists'.mp hjudged
        exact ⟨r, verdict_judged (unreported _) hr⟩
    obtain ⟨r, hr⟩ := hverdict
    refine ends_transferring hstored hname hs.relay hgone ?_
    rw [hr]
    have hstarts : ∀ w, Succeeded cfg m t.attempt w → Started cfg m k w := by
      intro w hw
      rw [Succeeded, if_neg (Nat.not_le.mpr more), hk] at hw
      exact hw
    exact ends_mono (ends_retryOrFail hs hstored.status hname hgone r) (fun _ => hstarts)
      fun _ => hstarts

/-- An attempt that is running already is not started again. -/
theorem ends_startAttempt_running {y : ActiveTransfer} (hs : Stage cfg m tr (some y) w)
    (hst : m.Of st) (hname : e.name = m.name) (hy : k ≤ y.attempt) {ok : Action → World → Prop}
    {err : Error → World → Prop} (hok : ok (requeueSecs 5) w) :
    Ends cluster ok err (startAttempt cfg e st k) w := by
  have hrelay : w.transfers.get e.name = some y := by
    rw [hname]
    exact hs.relay
  simp only [startAttempt, hst.source, hst.target, orErr, pure_eq, bind_eq, ret_bind]
  refine ends_transferGet_bind.mpr ?_
  rw [hrelay, Option.any_some, if_pos (decide_eq_true hy)]
  exact hok

/-- With a newer relay and an attempt that nobody has judged, a reconcile does nothing. -/
theorem stuck_round {y : ActiveTransfer} (h : Stage cfg m tr (some y) w)
    (hturn : Turn cfg m k w tr) (hy : y.attempt = k) (hunjudged : ¬ Judged tr) :
    Stage cfg m tr (some y) (reconciled cfg m.name w) ∧
      Abort.Aside w (reconciled cfg m.name w) := by
  refine reconciled_of_ends
    (fun w' => Stage cfg m tr (some y) w' ∧ Abort.Aside w w') h fun e hstored hname w' hs ha _ => ?_
  cases hturn with
  | first hk =>
    unfold transferring
    simp only [hstored.transfer]
    exact ends_startAttempt_running hs hstored.status hname (by omega) ⟨hs, ha⟩
  | next t hk more gone =>
    have hreason : t.failureReason = none := by
      by_contra hcon
      exact hunjudged ⟨t, rfl, hcon⟩
    refine ends_transferring hstored hname hs.relay (gone.of_aside ha) ?_
    rw [verdict_newer hreason (by omega)]
    exact ⟨hs, ha⟩

/-- An attempt that nothing comes of waits for its timeout, and is then given up. -/
theorem awaiting_round {s₀ : Nat} (h : Awaiting cfg m k s₀ w) :
    if m.timeout < (secsSince w.now s₀).getD 0 then Succeeded cfg m k (reconciled cfg m.name w)
    else Awaiting cfg m k s₀ (reconciled cfg m.name w) ∧
      (reconciled cfg m.name w).now = w.now := by
  obtain ⟨t, x, hs, rfl, hx, hquiet, hreason, hstart, hcrs⟩ := h
  refine reconciled_of_ends (fun w' =>
    if m.timeout < (secsSince w.now s₀).getD 0 then Succeeded cfg m t.attempt w'
    else Awaiting cfg m t.attempt s₀ w' ∧ w'.now = w.now) hs fun e hstored hname w' hs' ha hnow => ?_
  have hcrs' := hcrs.of_aside ha
  refine ends_transferring hstored hname hs'.relay hcrs' ?_
  rw [verdict_awaiting hreason hx hquiet, hnow, hstart, Option.bind_some]
  split_ifs
  · exact ends_retryOrFail hs' hstored.status hname hcrs' _
  · refine ends_wait hs' hstored.status hstored.transfer fun _ w₂ hs₂ ha₂ hnow₂ => ?_
    exact ⟨⟨t, x, hs₂, rfl, hx, hquiet, hreason, hstart, hcrs'.of_aside ha₂⟩, hnow₂.trans hnow⟩

end Follow

/-! ## Recovery -/

section Recovery
variable {cfg : Config} {m : Move} {tr : Option TransferStatus} {relay : Option ActiveTransfer}
  {w w' : World} {k : Nat} {ws : Nat → World}

/-- Between two reconciles the clock goes on, and the surroundings leave alone what the
transfer relies on and what it has. -/
structure Between (cfg : Config) (name : String) (w w' : World) : Prop where
  settled : Settled w w'
  evac : w'.get .evacuation ⟨"", name⟩ = w.get .evacuation ⟨"", name⟩
  relay : w'.transfers.get name = w.transfers.get name
  crs : ∀ k, NoCrs cfg name k w → NoCrs cfg name k w'
  later : w.now < w'.now

/-- The worlds after one reconcile and the next. -/
def Following (cfg : Config) (name : String) (ws : Nat → World) : Prop :=
  ∀ j, ∃ w, Between cfg name (ws j) w ∧ ws (j + 1) = reconciled cfg name w

/-- The attempt is recorded and running at some point, or torn down and followed by the next
one or by the abort. -/
def Recovers (cfg : Config) (m : Move) (k : Nat) (ws : Nat → World) : Prop :=
  ∃ n, Started cfg m k (ws n) ∨ Succeeded cfg m k (ws n)

theorem Between.stage (h : Between cfg m.name w w') (hs : Stage cfg m tr relay w) :
    Stage cfg m tr relay w' := by
  obtain ⟨e, he, hstored⟩ := hs.evac
  exact h.settled.stage hs (h.evac.trans he) hstored (h.relay.trans hs.relay)

theorem Turn.mono (h : Turn cfg m k w tr)
    (hcrs : ∀ k, NoCrs cfg m.name k w → NoCrs cfg m.name k w') : Turn cfg m k w' tr := by
  cases h with
  | first hk => exact .first hk
  | next t hk more gone => exact .next t hk more (hcrs _ gone)

theorem recovers_of_free (hws : Following cfg m.name ws) (hs : Stage cfg m tr relay (ws 0))
    (hturn : Turn cfg m k (ws 0) tr) (hfree : relay = none ∨ Judged tr) : Recovers cfg m k ws := by
  obtain ⟨w, hb, hnext⟩ := hws 0
  refine ⟨1, .inl ?_⟩
  rw [hnext]
  exact started_round (hb.stage hs) (hturn.mono hb.crs) hfree

/-- A stage records one attempt only. -/
theorem Stage.record {tr' : Option TransferStatus} {relay' : Option ActiveTransfer}
    (h : Stage cfg m tr relay w) (h' : Stage cfg m tr' relay' w) : tr' = tr := by
  obtain ⟨e, he, hstored⟩ := h.evac
  obtain ⟨e', he', hstored'⟩ := h'.evac
  obtain rfl : e = e' := Option.some.inj (he.symm.trans he')
  exact hstored'.transfer.symm.trans hstored.transfer

theorem not_recovered (h : Stage cfg m tr relay w) (hturn : Turn cfg m k w tr) :
    ¬ (Started cfg m k w ∨ Succeeded cfg m k w) := by
  have hnot : ∀ j, k ≤ j → ¬ Started cfg m j w := by
    rintro j hj ⟨t, x, hs, ht, -⟩
    have hrecord := h.record hs
    cases hturn with
    | first _ => cases hrecord
    | next t' hk _ _ =>
      obtain rfl := Option.some.inj hrecord
      omega
  rintro (hstarted | hnext)
  · exact hnot k (Nat.le_refl k) hstarted
  · unfold Succeeded at hnext
    split_ifs at hnext
    · obtain ⟨e, he, hphase⟩ := hnext
      obtain ⟨e', he', hstored⟩ := h.evac
      obtain rfl : e = e' := Option.some.inj (he.symm.trans he')
      rw [hstored.status.phase] at hphase
      cases hphase
    · exact hnot (k + 1) (Nat.le_succ k) hnext

/-- Nothing that the transfer records changes any more. -/
theorem stuck_following {y : ActiveTransfer} (hws : Following cfg m.name ws)
    (hs : Stage cfg m tr (some y) (ws 0)) (hturn : Turn cfg m k (ws 0) tr) (hy : y.attempt = k)
    (hunjudged : ¬ Judged tr) (n : Nat) :
    Stage cfg m tr (some y) (ws n) ∧ Turn cfg m k (ws n) tr := by
  induction n with
  | zero => exact ⟨hs, hturn⟩
  | succ n ih =>
    obtain ⟨hs, hturn⟩ := ih
    obtain ⟨w, hb, hnext⟩ := hws n
    have hturn' := hturn.mono hb.crs
    obtain ⟨hs', ha⟩ := stuck_round (hb.stage hs) hturn' hy hunjudged
    rw [hnext]
    exact ⟨hs', hturn'.mono fun _ hgone => hgone.of_aside ha⟩

theorem Awaiting.between {s₀ : Nat} (h : Awaiting cfg m k s₀ w) (hb : Between cfg m.name w w') :
    Awaiting cfg m k s₀ w' := by
  obtain ⟨t, x, hs, ht, hx, hquiet, hreason, hstart, hcrs⟩ := h
  exact ⟨t, x, hb.stage hs, ht, hx, hquiet, hreason, hstart, hb.crs k hcrs⟩

/-- An attempt that nothing comes of is given up by and by. -/
theorem awaiting_following {s₀ : Nat} (hws : Following cfg m.name ws)
    (h : Awaiting cfg m k s₀ (ws 0)) (n : Nat) : (∃ j, Succeeded cfg m k (ws j)) ∨
      Awaiting cfg m k s₀ (ws n) ∧ (ws 0).now + n ≤ (ws n).now := by
  induction n with
  | zero => exact .inr ⟨h, Nat.le_refl _⟩
  | succ n ih =>
    rcases ih with hdone | ⟨hwait, hnow⟩
    · exact .inl hdone
    · obtain ⟨w, hb, hnext⟩ := hws n
      have hround := awaiting_round (hwait.between hb)
      rw [← hnext] at hround
      split_ifs at hround
      · exact .inl ⟨n + 1, hround⟩
      · have hlater := hb.later
        refine .inr ⟨hround.1, ?_⟩
        rw [hround.2]
        omega

theorem sub_enough {now start floor span : Nat} (hfloor : floor ≤ start)
    (h : start + span ≤ now) : floor ≤ now ∧ span ≤ now - floor := by omega

theorem secs_enough {now start timeout : Nat} (h : start + (timeout + 1) * 10 ^ 9 ≤ now) :
    timeout < (secsSince now (start / 10 ^ 9)).getD 0 := by
  obtain ⟨hstart, hspan⟩ := sub_enough (Nat.div_mul_le_self start (10 ^ 9)) h
  rw [secsSince, if_pos hstart, Option.getD_some]
  exact (Nat.le_div_iff_mul_le (by decide)).mpr hspan

theorem recovers_of_awaiting (hws : Following cfg m.name ws)
    (h : Awaiting cfg m k ((ws 0).now / 10 ^ 9) (ws 0)) : Recovers cfg m k ws := by
  have hdone : ∃ j, Succeeded cfg m k (ws j) := by
    obtain ⟨n, hn⟩ : ∃ n, (m.timeout + 1) * 10 ^ 9 ≤ n := ⟨_, Nat.le_refl _⟩
    rcases awaiting_following hws h n with hdone | ⟨hwait, hnow⟩
    · exact hdone
    · obtain ⟨w, hb, hnext⟩ := hws n
      have hround := awaiting_round (hwait.between hb)
      have hlater := hb.later
      rw [if_pos (secs_enough (by omega)), ← hnext] at hround
      exact ⟨n + 1, hround⟩
  obtain ⟨j, hj⟩ := hdone
  exact ⟨j, .inr hj⟩

/-- The start of an attempt with one failing call, up to the state it ends in. -/
def failedStart (cfg : Config) (o : Outcome) (e : Obj .evacuation) (st : ZFSEvacuationStatus)
    (k left : Nat) (w : World) : Flaky :=
  (exec (flaky o) (startAttempt cfg e st k) ⟨w, left, none⟩).2

/-- A start whose record was lost has registered its relay and left everything else. -/
theorem begun_unrecorded {o : Outcome} {s : Flaky} (h : Begun cfg m tr k o none w s)
    (hlost : o.fault = .lost) (hwrite : ∃ c ∈ s.hit, (statusWrite c).isSome = true) :
    ∃ x, Stage cfg m tr (some x) s.state ∧ x.attempt = k ∧ s.state.objects = w.objects := by
  obtain ⟨c, hc, hwrite⟩ := hwrite
  cases h with
  | looked c' _ hread =>
    obtain rfl := Option.some.inj hc
    rw [hread] at hwrite
    cases hwrite
  | unrecorded w' c' x _ _ _ hstage hx hsame => exact ⟨x, hstage, hx, hsame⟩
  | awaiting w' c' _ hkept _ _ =>
    obtain rfl := Option.some.inj hc
    exact absurd hlost (hkept hwrite)
  | started _ _ hkept =>
    rcases hkept c hc with hnone | hcon
    · rw [hnone] at hwrite
      cases hwrite
    · cases hcon

theorem Turn.of_objects (h : Turn cfg m k w tr) (hsame : w'.objects = w.objects) :
    Turn cfg m k w' tr := by
  refine h.mono fun j hgone => ⟨?_, ?_⟩
  · rw [World.get, hsame]
    exact hgone.backup
  · rw [World.get, hsame]
    exact hgone.restore

/-- A relay without a record is never replaced, unless the attempt before was judged. -/
theorem wedged {x : ActiveTransfer} (hws : Following cfg m.name ws)
    (hs : Stage cfg m tr (some x) (ws 0)) (hturn : Turn cfg m k (ws 0) tr) (hx : x.attempt = k)
    (hunjudged : ¬ Judged tr) : ¬ Recovers cfg m k ws := by
  rintro ⟨n, hdone⟩
  obtain ⟨hsn, hturnn⟩ := stuck_following hws hs hturn hx hunjudged n
  exact not_recovered hsn hturnn hdone

/-- Every other failure is recovered from. -/
theorem recovers_of_begun {o : Outcome} {s : Flaky} (hs : Stage cfg m tr none w)
    (hturn : Turn cfg m k w tr) (h : Begun cfg m tr k o none w s) (hfirst : ws 0 = s.state)
    (hws : Following cfg m.name ws)
    (hkept : (∃ c ∈ s.hit, (statusWrite c).isSome = true) → o.fault = .lost → Judged tr) :
    Recovers cfg m k ws := by
  cases h with
  | looked c _ _ =>
    have hfirst' : ws 0 = w := hfirst
    exact recovers_of_free hws (hfirst' ▸ hs) (hfirst' ▸ hturn) (.inl rfl)
  | unrecorded w' c x _ hwrite hlost hstage _ hsame =>
    have hfirst' : ws 0 = w' := hfirst
    have hturn' : Turn cfg m k w' tr := hturn.of_objects hsame
    have hjudged := hkept ⟨c, rfl, hwrite⟩ hlost
    exact recovers_of_free hws (hfirst' ▸ hstage) (hfirst' ▸ hturn') (.inr hjudged)
  | awaiting w' c _ _ hnow h =>
    have hfirst' : ws 0 = w' := hfirst
    refine recovers_of_awaiting hws ?_
    rw [hfirst', hnow]
    exact h
  | started _ h _ => exact ⟨0, .inl (hfirst ▸ h)⟩

/-- The transfer recovers from one failing call, unless that call was the write of the record,
the write is lost, and the attempt before is not recorded as failed. -/
theorem start_recovers_iff (cfg : Config) (m : Move) (tr : Option TransferStatus) (k left : Nat)
    (w : World) (o : Outcome) (e : Obj .evacuation) (st : ZFSEvacuationStatus) (ws : Nat → World)
    (hs : Stage cfg m tr none w) (hturn : Turn cfg m k w tr) (hcrs : NoCrs cfg m.name k w)
    (hname : e.name = m.name) (hst : m.Of st) (ho : o.fault ≠ .none)
    (hfirst : ws 0 = (failedStart cfg o e st k left w).state) (hws : Following cfg m.name ws) :
    Recovers cfg m k ws ↔ ¬ (o.fault = .lost ∧
      (∃ c ∈ (failedStart cfg o e st k left w).hit, (statusWrite c).isSome = true) ∧
      ¬ Judged tr) := by
  have hbegun : Begun cfg m tr k o none w (failedStart cfg o e st k left w) :=
    Ends.exec (flaky_startAttempt ho hs (fun _ => hcrs) hst hname left)
  constructor
  · rintro hrecovers ⟨hlost, hwrite, hunjudged⟩
    obtain ⟨x, hstage, hx, hsame⟩ := begun_unrecorded hbegun hlost hwrite
    exact wedged hws (hfirst ▸ hstage) (hfirst ▸ hturn.of_objects hsame) hx hunjudged hrecovers
  · intro hnot
    refine recovers_of_begun hs hturn hbegun hfirst hws fun hwrite hlost => ?_
    by_contra hunjudged
    exact hnot ⟨hlost, hwrite, hunjudged⟩

end Recovery

/-! ## The first attempt of a small cluster -/

section Small
variable {cfg : Config} {m : Move} {tr : Option TransferStatus} {relay : Option ActiveTransfer}
  {w : World} {e : Obj .evacuation} {st : ZFSEvacuationStatus} {k : Nat}

instance : Decidable (m.Of st) :=
  decidable_of_iff (st.phase = .transferring ∧ st.source = some m.source ∧
    st.target = some m.target ∧ st.pvcRef = m.pvcRef)
    ⟨fun ⟨h₁, h₂, h₃, h₄⟩ => ⟨h₁, h₂, h₃, h₄⟩, fun h => ⟨h.phase, h.source, h.target, h.pvcRef⟩⟩

instance : Decidable (Stored m tr e) :=
  decidable_of_iff (e.deleting = false ∧ specOf e = m.spec ∧ m.Of (viewStatus e) ∧
    (viewStatus e).transfer = tr)
    ⟨fun ⟨h₁, h₂, h₃, h₄⟩ => ⟨h₁, h₂, h₃, h₄⟩, fun h => ⟨h.live, h.spec, h.status, h.transfer⟩⟩

instance : Decidable (Wanted cfg m w) :=
  decidable_of_iff ((∃ pv, w.get .pv ⟨"", m.spec.pvName⟩ = some pv ∧
      (m.spec.trigger = EvacuationTrigger.annotation →
        pv.metadata.annotations.get evacuateAnnotation = some "true")) ∧
    (m.spec.trigger = .nodeTaint → ∀ node, w.get .node ⟨"", m.source.node⟩ = some node →
      nodeHasEvacuateTaint node cfg.taintKey = true) ∧
    ∀ r, m.pvcRef = some r → ∃ pvc, w.get .pvc r.key = some pvc ∧ pvc.metadata.uid = r.uid)
    ⟨fun ⟨h₁, h₂, h₃⟩ => ⟨h₁, h₂, h₃⟩, fun h => ⟨h.pv, h.taint, h.pvc⟩⟩

instance {nodeId : String} : Decidable (Reachable w nodeId) :=
  inferInstanceAs (Decidable (∃ node, nodeFound w nodeId = some node ∧
    (relayPeerNets node).isEmpty = false))

instance : Decidable (Stage cfg m tr relay w) :=
  decidable_of_iff ((∃ e, w.get .evacuation ⟨"", m.name⟩ = some e ∧ Stored m tr e) ∧
    w.transfers.get m.name = relay ∧ Wanted cfg m w ∧ Reachable w m.source.nodeId ∧
    Reachable w m.target.nodeId)
    ⟨fun ⟨h₁, h₂, h₃, h₄, h₅⟩ => ⟨h₁, h₂, h₃, h₄, h₅⟩,
      fun h => ⟨h.evac, h.relay, h.wanted, h.source, h.target⟩⟩

instance {name : String} : Decidable (NoCrs cfg name k w) :=
  decidable_of_iff ((w.get .zfsBackup (bkpKey cfg name k)).isNone = true ∧
    (w.get .zfsRestore (rstKey cfg name k)).isNone = true)
    ⟨fun ⟨h₁, h₂⟩ => ⟨Option.isNone_iff_eq_none.mp h₁, Option.isNone_iff_eq_none.mp h₂⟩,
      fun h => ⟨Option.isNone_iff_eq_none.mpr h.backup, Option.isNone_iff_eq_none.mpr h.restore⟩⟩

/-- The reconciles that follow when nobody else does anything. -/
def alone (cfg : Config) (name : String) (w : World) : Nat → World
  | 0 => w
  | n + 1 => reconciled cfg name ((alone cfg name w n).env (.tick 1))

theorem following_alone (cfg : Config) (name : String) (w : World) :
    Following cfg name (alone cfg name w) := by
  intro j
  refine ⟨(alone cfg name w j).env (.tick 1), ?_, rfl⟩
  exact ⟨settled_of_objects rfl, rfl, rfl, fun _ h => ⟨h.backup, h.restore⟩, Nat.lt_succ_self _⟩

/-- The world in which the first attempt is about to start. -/
def smallWorld : World :=
  ((GuardedRun.runList (System.step Sample.config) System.init
    (Sample.toTransfer.take (Sample.toTransfer.length - 22))).map (·.world)).getD {}

def smallMove : Move where
  name := "pv1"
  spec := { pvName := "pv1" }
  source := ⟨"n1", "n1", "tank", "vol1", 4, 1073741824⟩
  target := ⟨"n2", "n2", "tank", Sample.newHandle⟩
  pvcRef := some ⟨"d", "c1", 5⟩

def smallStatus : ZFSEvacuationStatus where
  phase := .transferring
  source := some smallMove.source
  target := some smallMove.target
  pvcRef := smallMove.pvcRef

/-- The start of the first attempt, of which one call fails. -/
def smallStart (fault : Fault) (left : Nat) : Flaky :=
  failedStart Sample.config { fault } (Sample.evacuation "pv1" .whenIdle) smallStatus 1 left
    smallWorld

/-- A write that is stored in spite of its error does no harm. -/
theorem start_recovers_small : Recovers Sample.config smallMove 1
    (alone Sample.config "pv1" (smallStart .unacked 2).state) :=
  (start_recovers_iff Sample.config smallMove none 1 2 smallWorld { fault := .unacked }
    (Sample.evacuation "pv1" .whenIdle) smallStatus _ (by decide +kernel) (.first rfl)
    (by decide +kernel) rfl (by decide +kernel) (by decide) rfl (following_alone _ _ _)).mpr
    fun h => absurd h.1 (by decide)

/-- The record of the first attempt is lost, and no reconcile starts it again. -/
theorem not_start_recovers : ¬ Recovers Sample.config smallMove 1
    (alone Sample.config "pv1" (smallStart .lost 2).state) := by
  have hs : Stage Sample.config smallMove none none smallWorld := by decide +kernel
  have hcrs : NoCrs Sample.config "pv1" 1 smallWorld := by decide +kernel
  have hturn : Turn Sample.config smallMove 1 smallWorld none := .first rfl
  have hwrite : ∃ c ∈ (smallStart .lost 2).hit, (statusWrite c).isSome = true := by
    have hany : (smallStart .lost 2).hit.any (fun c => (statusWrite c).isSome) = true := by
      decide +kernel
    exact (Option.any_eq_true _ _).mp hany
  have hbegun : Begun Sample.config smallMove none 1 { fault := .lost } none smallWorld
      (smallStart .lost 2) :=
    Ends.exec (flaky_startAttempt (by decide) hs (fun _ => hcrs) (by decide +kernel) rfl 2)
  obtain ⟨x, hstage, hx, hsame⟩ := begun_unrecorded hbegun rfl hwrite
  have hws := following_alone Sample.config "pv1" (smallStart .lost 2).state
  exact wedged hws hstage (hturn.of_objects hsame) hx fun ⟨t, ht, _⟩ => by cases ht

end Small

end ZfsEvacuation.Starting
