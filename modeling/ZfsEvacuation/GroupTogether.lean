import ZfsEvacuation.GroupReads

/-!
# The volumes of one consumer land on one node

Only a selection sends a volume anywhere, and while one is made no other member of the group is
sent anywhere. What a selection has read of the others is therefore still true of those that go
on, and the node it chooses is theirs.
-/
namespace ZfsEvacuation
open ClientProgram Program GuardedRun

/-! ## Where the volumes go -/

/-- The node that an evacuation with this status moves its volume to, or has moved it to. -/
def headingFor (st : ZFSEvacuationStatus) : Option String :=
  if st.phase = .aborting ∨ st.phase = .failed then none else st.target.map (·.nodeId)

/-- A volume goes where its evacuation has recorded last, also after the evacuation is gone. -/
def Homes.note (home : Homes) (s : System) : Homes := fun n =>
  match s.world.get .evacuation ⟨"", n⟩ with
  | none => home n
  | some e => if (viewStatus e).target.isSome then headingFor (viewStatus e) else home n

theorem headingFor_congr {st st' : ZFSEvacuationStatus} (h : st.core = st'.core) :
    headingFor st = headingFor st' := by
  rw [headingFor, System.phase_congr h, target_congr h, headingFor]

/-- A write of the status leaves the volume where it goes, or ends its journey, or is a
selection. -/
theorem Writes.heading {cfg : Config} {view : Obj .evacuation} {tr : Trace}
    {st w : ZFSEvacuationStatus} (h : Writes cfg view tr st w) :
    w.target = st.target ∧ (headingFor w = headingFor st ∨ headingFor w = none) ∨
      st.phase = .targetSelecting ∧ w.phase = .transferring ∧
        ∃ source ref group t, st.source = some source ∧ st.pvcRef = some ref ∧
          Selection cfg view tr source ref group t ∧ headingFor w = some t.nodeId := by
  cases h with
  | selected source ref group t rand hp hs hr facts =>
    exact .inr ⟨hp, rfl, source, ref, group, t, hs, hr, facts, rfl⟩
  | shown | snapDeleteIssued | settles | blocked | attempted | attemptFailing | progressed =>
    exact .inl ⟨rfl, .inl rfl⟩
  | cancelled | abortStarts | unwound | refused | pvLost | pvReplaced | gaveUp | exhausted =>
    exact .inl ⟨rfl, .inr rfl⟩
  | accepted _ _ _ hp | guarded hp | retained hp | locked _ _ hp | quiesced _ _ hp
  | copied _ _ _ _ hp | adopted hp | committed _ _ _ _ _ hp | swapped _ _ _ hp | completed hp =>
    exact .inl ⟨rfl, .inl (by simp [headingFor, hp])⟩

/-- A volume goes where its evacuation stands for. -/
theorem heading_of_standing {e : Option (Obj .evacuation)} {t : TargetInfo}
    (h : standingTarget e = some t) : ∃ e', e = some e' ∧ (viewStatus e').target.isSome = true ∧
      headingFor (viewStatus e') = some t.nodeId := by
  obtain ⟨e', he', ht⟩ := Option.bind_eq_some_iff.mp h
  obtain ⟨rfl, hactive⟩ := Option.filter_eq_some_iff.mp he'
  obtain ⟨st, hst, htarget⟩ := Option.bind_eq_some_iff.mp ht
  have hview := viewStatus_of_statusOf hst
  simp only [activeSibling, hst, Option.any_some, Bool.not_eq_true', decide_eq_false_iff_not,
    not_or] at hactive
  exact ⟨e', rfl, by simp [hview, htarget], by simp [headingFor, hview, hactive, htarget]⟩

namespace System
variable {cfg : Config} {G : ConsumerGroup} {home : Homes} {s s' : System} {a : SysAction}
  {n m node : String}

/-- With this step an evacuation records a target on the node. -/
structure Chooses (cfg : Config) (s : System) (a : SysAction) (n node : String) : Prop where
  caller : ∃ o, a = .call n o
  selects : ∃ w, selects s a = some (n, w)
  chosen : ∃ r source ref group t, s.running.get n = some r ∧ r.status.source = some source ∧
    r.status.pvcRef = some ref ∧ Selection cfg r.view r.trace source ref group t ∧
    t.nodeId = node

/-- The notes agree with what is stored. -/
def Noted (home : Homes) (s : System) : Prop :=
  ∀ n e, s.world.get .evacuation ⟨"", n⟩ = some e → (viewStatus e).target.isSome = true →
    home n = headingFor (viewStatus e)

theorem noted_note (home : Homes) (s : System) : Noted (home.note s) s := by
  intro n e he ht
  simp [Homes.note, he, ht]

/-- A volume goes where it went before the step, or a selection has sent it there. -/
theorem home_step (hi : Informed cfg s) (hn : Noted home s) (hg : Current s a)
    (h : step cfg s a = some s') (hhome : home.note s' n = some node) :
    home n = some node ∨ Chooses cfg s a n node := by
  unfold Homes.note at hhome
  cases he' : s'.world.get .evacuation ⟨"", n⟩ with
  | none =>
    rw [he'] at hhome
    exact .inl hhome
  | some e' =>
    simp only [he'] at hhome
    split_ifs at hhome with ht
    · rcases status_step hi hg.1 h he' with ⟨e, he, hstep⟩ | ⟨-, hfresh, -⟩
      · cases hstep with
        | kept same status _ _ =>
          rw [viewStatus_congr status] at ht hhome
          exact .inl ((hn n e he ht).trans hhome)
        | wrote r o st w next same running prog knows writes old new _ =>
          rw [headingFor_congr new] at hhome
          rw [target_congr new] at ht
          rcases writes.heading with ⟨hkept, hsame | hnone⟩ | ⟨hp, hp', source, ref, group, t, hs,
            hr, facts, hnode⟩
          · rw [hkept, ← target_congr old] at ht
            rw [hsame, ← headingFor_congr old] at hhome
            exact .inl ((hn n e he ht).trans hhome)
          · rw [hnone] at hhome
            cases hhome
          · have hstatus : r.status = st := knows.eq
            refine .inr ⟨⟨o, rfl⟩, ⟨w, ?_⟩, r, source, ref, group, t, running, ?_, ?_, facts, ?_⟩
            · simp [selects, running, prog, hp', hstatus, hp]
            · rw [hstatus, hs]
            · rw [hstatus, hr]
            · exact Option.some.inj (hnode.symm.trans hhome)
      · have hview : viewStatus e' = {} := by rw [viewStatus, hfresh, Option.getD_none]
        rw [hview] at ht
        cases ht
    · exact .inl hhome

/-! ## The runs of a group -/

/-- The selection of a member: it looks for a target for the volume of the group's claim, under
`whenClaimed` and without an explicit target, away from the source node of the group. -/
structure SelectsInGroup (cfg : Config) (G : ConsumerGroup) (home : Homes) (n : String)
    (r : Running) : Prop where
  mode : (specOf r.view).mode = .whenClaimed
  free : (specOf r.view).targetNode = none
  source : ∀ source, r.status.source = some source → source.nodeId = G.sourceNodeId
  claim : ∀ ref, r.status.pvcRef = some ref →
    ref.ns = G.ns ∧ ReadsGroup cfg G home n r.trace ref.name

/-- The members are evacuated as one group. -/
structure OfGroup (cfg : Config) (G : ConsumerGroup) (x : System × Homes) (a : SysAction) :
    Prop where
  current : Current x.1 a
  member : ∀ c, selects x.1 a = some c → c.1 ∈ G.members → ∀ r, x.1.running.get c.1 = some r →
    SelectsInGroup cfg G x.2 c.1 r

/-- Besides, a selection finds one of the members that have gone somewhere. -/
structure FindsGroup (cfg : Config) (G : ConsumerGroup) (x : System × Homes) (a : SysAction) :
    Prop where
  group : OfGroup cfg G x a
  finds : ∀ c, selects x.1 a = some c → c.1 ∈ G.members → ∀ r, x.1.running.get c.1 = some r →
    FindsSibling cfg G x.2 c.1 r.trace

/-- The system with the notes on where the volumes go. -/
def noted (cfg : Config) : System × Homes → SysAction → Option (System × Homes) :=
  withNotes (step cfg) Homes.note

def nowhere : System × Homes := (init, fun _ => none)

/-- What the runs keep: the members have gone to one node off the source, and what a selection
has read of them under the lock is still true of those that go on. -/
structure Together (cfg : Config) (G : ConsumerGroup) (x : System × Homes) : Prop where
  informed : Informed cfg x.1
  exclusive : Exclusive x.1
  noted : Noted x.2 x.1
  one : OneNode G x.2
  away : OffSource G x.2
  agree : ∀ n r, x.1.running.get n = some r → HoldsSelection r.trace →
    ReadsAgree G x.2 n r.trace

theorem together_init : Together cfg G nowhere := by
  constructor
  · exact informed_init
  · exact exclusive_init
  · intro n e he
    cases he
  · intro m _ m' _ node node' h
    cases h
  · intro m _ h
    cases h
  · intro n r hr
    cases hr

section Step
variable {x : System × Homes}

/-- A choice of a member is the node of the others. -/
theorem Chooses.node_eq (hx : Together cfg G x) (hg : FindsGroup cfg G x a)
    (hc : Chooses cfg x.1 a n node) (hn : n ∈ G.members) (hm : m ∈ G.members) (hne : m ≠ n)
    {node' : String} (hhome : x.2 m = some node') : node = node' := by
  obtain ⟨-, ⟨w, hsel⟩, r, source, ref, group, t, hr, hs, href, facts, rfl⟩ := hc
  have hname := name_of_running hr
  have hselects := hg.group.member _ hsel hn r hr
  obtain ⟨hns, hreads⟩ := hselects.claim ref href
  have hfinds := hg.finds _ hsel hn r hr
  rw [← hname] at hreads hfinds hne
  exact facts.follows hselects.mode hselects.free hns (hselects.source source hs) hreads hfinds
    (hname ▸ hx.agree n r hr facts.held) hx.one hx.away hm hne hhome

/-- Only the member that chooses is sent anywhere. -/
theorem Together.kept (hx : Together cfg G x) (hg : OfGroup cfg G x a)
    (h : step cfg x.1 a = some s') (hother : ∀ o, a ≠ .call m o)
    (hhome : x.2.note s' m = some node) : x.2 m = some node := by
  rcases home_step hx.informed hx.noted hg.current h hhome with hold | hc
  · exact hold
  · obtain ⟨o, rfl⟩ := hc.caller
    exact absurd rfl (hother o)

theorem oneNode_step (hx : Together cfg G x) (hg : FindsGroup cfg G x a)
    (h : step cfg x.1 a = some s') : OneNode G (x.2.note s') := by
  intro m hm m' hm' node node' hhome hhome'
  by_cases hne : m = m'
  · subst hne
    exact Option.some.inj (hhome.symm.trans hhome')
  have hcurrent := hg.group.current
  rcases home_step hx.informed hx.noted hcurrent h hhome with hold | hc <;>
    rcases home_step hx.informed hx.noted hcurrent h hhome' with hold' | hc'
  · exact hx.one m hm m' hm' node node' hold hold'
  · exact (hc'.node_eq hx hg hm' hm hne hold).symm
  · exact hc.node_eq hx hg hm hm' (Ne.symm hne) hold'
  · obtain ⟨o, rfl⟩ := hc.caller
    obtain ⟨o', heq⟩ := hc'.caller
    cases heq
    exact absurd rfl hne

theorem offSource_step (hx : Together cfg G x) (hg : OfGroup cfg G x a)
    (h : step cfg x.1 a = some s') : OffSource G (x.2.note s') := by
  intro m hm hhome
  rcases home_step hx.informed hx.noted hg.current h hhome with hold | hc
  · exact hx.away m hm hold
  · obtain ⟨-, ⟨w, hsel⟩, r, source, ref, group, t, hr, hs, -, facts, hnode⟩ := hc
    have hsource := (hg.member _ hsel hm r hr).source source hs
    exact facts.away (hnode.trans hsource.symm)

/-- What is read under the lock is stored now, and no other reconcile can choose before the
reader gives the lock back. -/
theorem readsAgree_step (hx : Together cfg G x) (hg : OfGroup cfg G x a)
    (h : step cfg x.1 a = some s') {r' : Running} (hr' : s'.running.get n = some r')
    (hheld : HoldsSelection r'.trace) : ReadsAgree G (x.2.note s') n r'.trace := by
  intro m hm hne e t hread ht m' hm' hne' node hhome
  cases running_step h hr' with
  | kept a hr hother =>
    refine hx.agree n r' hr hheld m hm hne e t hread ht m' hm' hne' node ?_
    rcases home_step hx.informed hx.noted hg.current h hhome with hold | hc
    · exact hold
    · -- the lock is taken
      obtain ⟨-, -, q, source, ref, group, t', hq, -, -, facts, -⟩ := hc
      exact absurd (hx.exclusive.single m' n q r' hq hr facts.held hheld) hne'
  | started version _ _ _ heq =>
    rw [heq] at hheld
    exact absurd hheld.1 List.not_mem_nil
  | called o r c next hr hprog _ heq =>
    subst heq
    have hold := hx.kept hg h (fun o' heq => hne' (SysAction.call.inj heq).1.symm) hhome
    obtain ⟨post, hsuffix, hpost⟩ := hread
    have hbefore : HoldsSelection r.trace := hheld.earlier hsuffix hpost
    rcases List.suffix_cons_iff.mp hsuffix with heq | hsuffix
    · -- the evacuation has just been read
      obtain ⟨hevent, -⟩ := List.cons.inj heq
      obtain rfl : Call.get .evacuation ⟨"", m⟩ = c := congrArg Sigma.fst hevent
      have hanswer : .ok e = x.1.world.answer o (.get .evacuation ⟨"", m⟩) :=
        eq_of_heq (Sigma.mk.inj hevent).2
      have hstored : x.1.world.get .evacuation ⟨"", m⟩ = e := by
        simp only [World.answer, Outcome.read] at hanswer
        split at hanswer
        · exact (Except.ok.inj hanswer).symm
        · cases hanswer
      obtain ⟨e', rfl, hsome, hheading⟩ := heading_of_standing ht
      have hhere := (hx.noted m e' hstored hsome).trans hheading
      exact hx.one m hm m' hm' _ _ hhere hold
    · exact hx.agree n r hr hbefore m hm hne e t ⟨post, hsuffix, hpost⟩ ht m' hm' hne' node hold

end Step

theorem together_step {x y : System × Homes} (hx : Together cfg G x) (hg : FindsGroup cfg G x a)
    (h : noted cfg x a = some y) : Together cfg G y := by
  obtain ⟨s', hstep, rfl⟩ := Option.map_eq_some_iff.mp h
  exact
    { informed := hx.informed.step hg.group.current hstep
      exclusive := exclusive_step hx.informed hx.exclusive hg.group.current.1 hstep
      noted := noted_note x.2 s'
      one := oneNode_step hx hg hstep
      away := offSource_step hx hg.group hstep
      agree := fun n r hr hheld => readsAgree_step hx hg.group hstep hr hheld }

/-- In every run in which the selections of a group find one of the members that have gone, all
of the members go to one node. -/
theorem group_stays_together (cfg : Config) (G : ConsumerGroup) (as : List SysAction)
    (x : System × Homes) (h : Run (noted cfg) (FindsGroup cfg G) nowhere as x) : OneNode G x.2 := by
  have hx : Together cfg G x := h.invariant together_init fun _ _ _ hx hg hstep =>
    together_step hx hg hstep
  exact hx.one

/-! ## Two volumes of one pod -/

section Guards
variable {x : System × Homes} {r : Running} {tr : Trace} {claim : String}

instance : Decidable (ReadsGroup cfg G home n tr claim) :=
  decidable_of_iff ((∀ pods ∈ listingsOf .pod tr,
      (unscheduledPods (pods.filter (podReferencesPvc claim))).head?.map podPvcNames =
        some G.claims) ∧
      (∀ claim ∈ G.claims, ∀ pvc ∈ readsOf .pvc ⟨G.ns, claim⟩ tr,
        (pvc.bind fun pvc => PersistentVolumeClaim.volumeName pvc.data) = G.pvOf claim) ∧
      (∀ m ∈ G.members, ∀ e ∈ readsOf .evacuation ⟨"", m⟩ tr,
        (e.bind fun e => (specOf e).targetNode) = none) ∧
      ∀ m ∈ G.members, m ≠ n → ∀ info ∈ (volumesRead cfg m tr).reduceOption,
        ∀ e ∈ readsOf .evacuation ⟨"", m⟩ tr, standingTarget e = none →
          info.ownerNodeId = G.sourceNodeId ∨ home m = some info.ownerNodeId)
    ⟨fun ⟨hconsumer, hbound, hplain, hplaced⟩ => ⟨hconsumer, hbound, hplain, hplaced⟩,
      fun ⟨hconsumer, hbound, hplain, hplaced⟩ => ⟨hconsumer, hbound, hplain, hplaced⟩⟩

instance : Decidable (ShownAt cfg tr m node) :=
  decidable_of_iff ((∀ info ∈ volumesRead cfg m tr, info.isSome = true) ∧
      ∀ info ∈ (volumesRead cfg m tr).reduceOption, ∀ e ∈ readsOf .evacuation ⟨"", m⟩ tr,
        standingTarget e = none → info.ownerNodeId = node)
    ⟨fun ⟨hfound, hthere⟩ => ⟨hfound, hthere⟩, fun ⟨hfound, hthere⟩ => ⟨hfound, hthere⟩⟩

instance : Decidable (FindsSibling cfg G home n tr) :=
  decidable_of_iff (((∃ m ∈ G.members, m ≠ n ∧ home m ≠ none) →
      ∃ m ∈ G.members, m ≠ n ∧ ∃ node, home m = some node ∧ ShownAt cfg tr m node) ∧
      ∀ m ∈ G.members, m ≠ n → ∀ node, home m = some node →
        ∀ nodes ∈ listingsOf .node tr, ∀ x ∈ nodes, x.name = node → nodeIdOf x = node)
    ⟨fun ⟨hshown, hnamed⟩ => ⟨hshown, hnamed⟩, fun ⟨hshown, hnamed⟩ => ⟨hshown, hnamed⟩⟩

instance : Decidable (SelectsInGroup cfg G home n r) :=
  decidable_of_iff ((specOf r.view).mode = .whenClaimed ∧ (specOf r.view).targetNode = none ∧
      (∀ source, r.status.source = some source → source.nodeId = G.sourceNodeId) ∧
      ∀ ref, r.status.pvcRef = some ref →
        ref.ns = G.ns ∧ ReadsGroup cfg G home n r.trace ref.name)
    ⟨fun ⟨hmode, hfree, hsource, hclaim⟩ => ⟨hmode, hfree, hsource, hclaim⟩,
      fun ⟨hmode, hfree, hsource, hclaim⟩ => ⟨hmode, hfree, hsource, hclaim⟩⟩

instance : Decidable (OfGroup cfg G x a) :=
  decidable_of_iff (Current x.1 a ∧ ∀ c, selects x.1 a = some c → c.1 ∈ G.members →
      ∀ r, x.1.running.get c.1 = some r → SelectsInGroup cfg G x.2 c.1 r)
    ⟨fun ⟨hcurrent, hmember⟩ => ⟨hcurrent, hmember⟩, fun ⟨hcurrent, hmember⟩ => ⟨hcurrent, hmember⟩⟩

instance : Decidable (FindsGroup cfg G x a) :=
  decidable_of_iff (OfGroup cfg G x a ∧ ∀ c, selects x.1 a = some c → c.1 ∈ G.members →
      ∀ r, x.1.running.get c.1 = some r → FindsSibling cfg G x.2 c.1 r.trace)
    ⟨fun ⟨hgroup, hfinds⟩ => ⟨hgroup, hfinds⟩, fun ⟨hgroup, hfinds⟩ => ⟨hgroup, hfinds⟩⟩

end Guards

/-- A never-scheduled pod with two claims. -/
def pairConsumer : Obj .pod :=
  ⟨{ ns := "d", name := "p" },
    ({ volumes := [{ name := "a", persistentVolumeClaim := some "c1" },
        { name := "b", persistentVolumeClaim := some "c2" }] } : Pod)⟩

def pairGroup : ConsumerGroup where
  ns := "d"
  claims := ["c1", "c2"]
  pvOf claim := if claim = "c1" then some "pv1" else if claim = "c2" then some "pv2" else none
  sourceNodeId := "n1"

open Sample (reconcilesOf seconds volumeOnFirst)

/-- Two volumes of the pod are on n1, and n2 and n3 are there for them. The first one moves to n2
and has deleted its PV; the second one is in TargetSelecting. -/
def firstSwaps : List SysAction :=
  [ .env (.create .node drainedNode), .env (.create .node (Sample.node "n2" "10.0.0.2")),
    .env (.create .node (Sample.node "n3" "10.0.0.3")),
    .env (.create .zfsNode (Sample.zfsNode "n2")),
    .env (.create .zfsNode (Sample.zfsNode "n3")) ] ++
  ["1", "2"].flatMap volumeOnFirst ++
  [ .env (.create .evacuation (Sample.evacuation "pv1" .whenClaimed)),
    .env (.create .evacuation (Sample.evacuation "pv2" .whenClaimed)),
    .env (.create .pod pairConsumer) ] ++
  reconcilesOf "pv1" [(0, 7), (3, 5), (4, 4), (5, 7)] ++
    reconcilesOf "pv2" [(1, 7), (8, 5), (9, 4), (10, 7)] ++ [seconds 100] ++
    reconcilesOf "pv1" [(6, 8)] ++ reconcilesOf "pv2" [(11, 8)] ++ [seconds 100] ++
    reconcilesOf "pv1" [(12, 7)] ++ reconcilesOf "pv2" [(13, 7)] ++
    reconcilesOf "pv1" [(14, 19), (16, 11)] ++
    [.env (.relay "pv1" ⟨1, 2, 0, 0, false, true⟩)] ++ reconcilesOf "pv1" [(17, 8)] ++
    [ Sample.restoreReport "pv1-evacr-a1" Sample.newHandle "n2" bkpStatusDone,
      Sample.backupReport "pv1-evac-a1" "vol1" "n1" "zevac-a1-0000" bkpStatusDone ] ++
    reconcilesOf "pv1" [(17, 8), (18, 5)] ++
    [Sample.volumeReport Sample.newHandle "n2" zfsStatusReady] ++
    reconcilesOf "pv1" [(18, 4), (19, 7), (20, 5)]

/-- The second volume chooses while the PV of the first one is away. -/
def secondChooses : List SysAction := firstSwaps ++ reconcilesOf "pv2" [(15, 17)]

theorem not_group_stays_together : ¬ ∀ (cfg : Config) (G : ConsumerGroup) (as : List SysAction)
    (x : System × Homes), Run (noted cfg) (OfGroup cfg G) nowhere as x → OneNode G x.2 := by
  intro hall
  obtain ⟨x, hrun, hx⟩ := Run.exists_of_runList
    (p := fun x : System × Homes => x.2 "pv1" == some "n2" && x.2 "pv2" == some "n3")
    (show (runList (guarded (noted Sample.config) (OfGroup Sample.config pairGroup)) nowhere
      secondChooses).any _ = true by decide +kernel)
  obtain ⟨hfirst, hsecond⟩ := Bool.and_eq_true_iff.mp hx
  have hsame := hall _ _ _ x hrun "pv1" (by decide) "pv2" (by decide) _ _
    (beq_iff_eq.mp hfirst) (beq_iff_eq.mp hsecond)
  exact absurd hsame (by decide)

/-- The second volume waits for n2 while the first one is cleaning up. In the end the first one is
there, and n3 has more room. -/
def firstMoved : List SysAction :=
  firstSwaps ++ reconcilesOf "pv1" [(20, 2)] ++
    [.env (.update .pv (Sample.boundPv "pv1" "c1" Sample.newHandle 7))] ++
    reconcilesOf "pv1" [(20, 3)] ++ reconcilesOf "pv2" [(15, 18)] ++
    reconcilesOf "pv1" [(21, 5)] ++ transferTornDown ++ reconcilesOf "pv1" [(23, 6)] ++
    [snapshotReport [zfsFinalizer]] ++ reconcilesOf "pv1" [(24, 6)] ++ [snapshotReport []] ++
    reconcilesOf "pv1" [(26, 9)] ++ [sourceDestroyed] ++ reconcilesOf "pv1" [(27, 11)] ++
    [.env (.update .zfsNode ⟨{ ns := "openebs", name := "n3" },
      ({ pools := [{ name := "tank", free := some "200Gi" }] } : ZFSNode)⟩)]

/-- The second volume follows it all the same. -/
theorem group_stays_together_pair : ∃ x as,
    Run (noted Sample.config) (FindsGroup Sample.config pairGroup) nowhere as x ∧
      x.2 "pv1" = some "n2" ∧ Sample.phaseOf x.1 "pv2" = some .transferring ∧
      OneNode pairGroup x.2 := by
  obtain ⟨x, hrun, hx⟩ := Run.exists_of_runList
    (p := fun x : System × Homes => x.2 "pv1" == some "n2" &&
      Sample.phaseOf x.1 "pv2" == some .transferring)
    (show (runList (guarded (noted Sample.config) (FindsGroup Sample.config pairGroup)) nowhere
      (firstMoved ++ reconcilesOf "pv2" [(22, 19)])).any _ = true by decide +kernel)
  obtain ⟨hfirst, hsecond⟩ := Bool.and_eq_true_iff.mp hx
  exact ⟨x, _, hrun, beq_iff_eq.mp hfirst, beq_iff_eq.mp hsecond,
    group_stays_together _ _ _ x hrun⟩

end System

end ZfsEvacuation
