import ZfsEvacuation.TriggerTick
import ZfsEvacuation.SystemContract

/-!
# A tick among the others

Between any two calls of a tick, reconciles complete evacuations and users edit annotations and
taints. What a tick may rely on when it deletes and creates is what such steps leave of its reads.
-/
namespace ZfsEvacuation
open ClientProgram Program

/-! ## Runs -/

/-- The calls a tick has made with their answers, newest first, each with the world it was made
in. -/
abbrev History := List (World × Event kubeInterface)

def History.trace (h : History) : Trace := h.map Prod.snd

/-- A tick on its way, in a world that the others change as `rely` says. -/
inductive Ticking (cfg : Config) (rely : Trace → World → World → Prop) :
    History → World → M Unit → Prop
  | start (w : World) : Ticking cfg rely [] w (tick cfg)
  | env {h : History} {w w' : World} {p : M Unit} (run : Ticking cfg rely h w p)
      (step : rely h.trace w w') : Ticking cfg rely h w' p
  | call {h : History} {w : World} {c : Call} {next : c.Resp → M Unit} (o : Outcome)
      (run : Ticking cfg rely h w (.call c next)) :
      Ticking cfg rely ((w, ⟨c, w.answer o c⟩) :: h) (w.after o c) (next (w.answer o c))

/-! ## The trigger condition and the others -/

/-- The trigger condition of the PV `p`: it is annotated, or its current volume is on a tainted
node. -/
inductive TriggerHolds (cfg : Config) (w : World) (p : String) : Prop
  | request {pv : Obj .pv} (mem : pv ∈ w.list .pv {}) (name : pv.name = p)
      (wants : wantsEvacuation pv = true)
  | taint {pv : Obj .pv} {csi : CsiSource} {zv : Obj .zfsVolume} {node : Obj .node}
      (mem : pv ∈ w.list .pv {}) (name : pv.name = p) (csi_pv : csiOf pv = some csi)
      (volume : w.get .zfsVolume ⟨cfg.openebsNs, csi.volumeHandle⟩ = some zv)
      (node_mem : node ∈ w.list .node {}) (id : nodeIdOf node = ownerOf zv)
      (taint : nodeHasEvacuateTaint node cfg.taintKey = true)

def Phase.terminal : Phase → Bool
  | .completed | .failed => true
  | _ => false

def InFlight (w : World) (p : String) : Prop :=
  ∃ e, w.get .evacuation ⟨"", p⟩ = some e ∧ (viewStatus e).phase.terminal = false

/-- The handle of a PV and the owner of the volume behind it. -/
def volumePlace (cfg : Config) (w : World) (p : String) : Option (String × Option String) :=
  ((w.get .pv ⟨"", p⟩).bind csiOf).map fun csi =>
    (csi.volumeHandle, (w.get .zfsVolume ⟨cfg.openebsNs, csi.volumeHandle⟩).map ownerOf)

/-- What reconciles and users leave as it is: they request no evacuation, an evacuation that is
over stays as it ended, and a volume moves only while its evacuation is in flight. -/
structure Surroundings (cfg : Config) (w w' : World) : Prop where
  requested : ∀ p e', w'.get .evacuation ⟨"", p⟩ = some e' → ∃ e, w.get .evacuation ⟨"", p⟩ = some e
  ended : ∀ p e e', w.get .evacuation ⟨"", p⟩ = some e → w'.get .evacuation ⟨"", p⟩ = some e' →
    (viewStatus e).phase.terminal = true →
      (viewStatus e').phase = (viewStatus e).phase ∧
        (viewStatus e').cancelled = (viewStatus e).cancelled
  volume : ∀ p, ¬ InFlight w p → volumePlace cfg w' p = volumePlace cfg w p

/-- What a tick can have read about a PV. -/
inductive Fact where
  | wants
  | handle (handle : String)
  | owner (handle nodeId : String)
  | taint (nodeId : String)

def Fact.holds (cfg : Config) (p : String) (w : World) : Fact → Prop
  | .wants => ∃ pv ∈ w.list .pv {}, pv.name = p ∧ wantsEvacuation pv = true
  | .handle h =>
    ∃ pv ∈ w.list .pv {}, pv.name = p ∧ ∃ csi, csiOf pv = some csi ∧ csi.volumeHandle = h
  | .owner h nodeId =>
    ∃ zv, w.get .zfsVolume ⟨cfg.openebsNs, h⟩ = some zv ∧ ownerOf zv = nodeId
  | .taint nodeId => ∃ node ∈ w.list .node {}, nodeIdOf node = nodeId ∧
      nodeHasEvacuateTaint node cfg.taintKey = true

/-- The facts about `p` in the lists of a tick. The annotations count until the nodes are
listed. -/
inductive Shown (cfg : Config) (p : String) (tr : Trace) : Fact → Prop
  | wants {pvList : List (Obj .pv)} {pv : Obj .pv} (on : Annotating pvList tr) (mem : pv ∈ pvList)
      (name : pv.name = p) (wants : wantsEvacuation pv = true) : Shown cfg p tr .wants
  | handle {pvList : List (Obj .pv)} {pv : Obj .pv} {csi : CsiSource}
      (pvs : listedEvent .pv {} pvList ∈ tr) (mem : pv ∈ pvList) (name : pv.name = p)
      (csi_pv : csiOf pv = some csi) : Shown cfg p tr (.handle csi.volumeHandle)
  | owner {pvList : List (Obj .pv)} {pv : Obj .pv} {csi : CsiSource}
      {volumes : List (Obj .zfsVolume)} {zv : Obj .zfsVolume} {tr' : Trace}
      (pvs : listedEvent .pv {} pvList ∈ tr') (mem : pv ∈ pvList) (name : pv.name = p)
      (csi_pv : csiOf pv = some csi)
      (listed : listedEvent .zfsVolume { ns := some cfg.openebsNs } volumes :: tr' <:+ tr)
      (volume : zv ∈ volumes) (same : csi.volumeHandle = zv.name) :
      Shown cfg p tr (.owner zv.name (ownerOf zv))
  | taint {nodes : List (Obj .node)} {node : Obj .node}
      (listed : listedEvent .node {} nodes ∈ tr) (mem : node ∈ nodes)
      (taint : nodeHasEvacuateTaint node cfg.taintKey = true) :
      Shown cfg p tr (.taint (nodeIdOf node))

/-- The step undoes nothing that the tick has read about `p`. -/
def Undisturbed (cfg : Config) (p : String) (tr : Trace) (w w' : World) : Prop :=
  ∀ f, Shown cfg p tr f → f.holds cfg p w → f.holds cfg p w'

def reads : Call → Bool
  | .get .. | .list .. => true
  | _ => false

/-- The old evacuation of `p` was out of the way, and then a read was answered while the trigger
condition held. -/
def ConfirmedSince (cfg : Config) (p : String) (h : History) : Prop :=
  ∃ w read hs w₀ e rest, h = (w, read) :: hs ++ (w₀, e) :: rest ∧
    reads read.1 = true ∧ Cleared p e ∧ TriggerHolds cfg w p

/-- A call that a tick may make whatever the others do. -/
def SafeCall (cfg : Config) (h : History) (w : World) : Call → Prop
  | .get .. | .list .. => True
  | .delete .evacuation key => ∀ e, w.get .evacuation key = some e → replaceable e = true
  | .create .evacuation o => ConfirmedSince cfg o.name h
  | _ => False

/-! ## One call -/

section Calls
variable {cfg : Config} {w w' : World} {p : String} {h : History} {prog : M Unit}
  {rely rely' : Trace → World → World → Prop}

theorem replaceable_iff {e : Obj .evacuation} : replaceable e = true ↔
    (viewStatus e).phase = .completed ∨
      (viewStatus e).phase = .failed ∧ (viewStatus e).cancelled = true := by
  obtain ⟨m, spec, status⟩ := e
  cases status <;> simp [replaceable, viewStatus, statusOf]

theorem terminal_of_replaceable {e : Obj .evacuation} (he : replaceable e = true) :
    (viewStatus e).phase.terminal = true := by
  rcases replaceable_iff.mp he with hphase | ⟨hphase, -⟩ <;> rw [hphase] <;> rfl

theorem Surroundings.stays_replaceable (hs : Surroundings cfg w w') {e' : Obj .evacuation}
    (hold : ∀ e, w.get .evacuation ⟨"", p⟩ = some e → replaceable e = true)
    (he' : w'.get .evacuation ⟨"", p⟩ = some e') : replaceable e' = true := by
  obtain ⟨e, he⟩ := hs.requested p e' he'
  have hre := hold e he
  obtain ⟨hphase, hcancelled⟩ := hs.ended p e e' he he' (terminal_of_replaceable hre)
  rw [replaceable_iff, hphase, hcancelled]
  exact replaceable_iff.mp hre

theorem Surroundings.settled (hs : Surroundings cfg w w') (hold : ¬ InFlight w p) :
    ¬ InFlight w' p := by
  rintro ⟨e', he', hphase⟩
  obtain ⟨e, he⟩ := hs.requested p e' he'
  have hover : (viewStatus e).phase.terminal = true := by
    by_contra hne
    exact hold ⟨e, he, by simpa using hne⟩
  rw [(hs.ended p e e' he he' hover).1, hover] at hphase
  cases hphase

theorem after_read {c : Call} (hc : reads c = true) (o : Outcome) : w.after o c = w := by
  rcases World.after_cases w o c with ⟨heq, -⟩ | heq
  · exact heq
  · cases c <;> first | exact heq | cases hc

/-- A tick writes nothing but evacuations. -/
theorem TickAllowed.get_after {tr : Trace} {c : Call} (hc : TickAllowed cfg tr c) (o : Outcome)
    {k : Kind} {key : Key} (hk : k ≠ .evacuation) : (w.after o c).get k key = w.get k key := by
  rcases World.after_cases w o c with ⟨heq, -⟩ | heq
  · rw [heq]
  · rw [heq]
    refine World.get_effect_other fun x hx => ?_
    cases hc with
    | get | list => cases hx
    | delete => cases hx; exact absurd rfl hk
    | create => cases hx; exact absurd rfl hk

theorem TickAllowed.mem_list_after {tr : Trace} {c : Call} (hc : TickAllowed cfg tr c) (o : Outcome)
    {k : Kind} {x : Obj k} (hk : k ≠ .evacuation) : x ∈ (w.after o c).list k {} ↔ x ∈ w.list k {} := by
  rw [World.mem_list, World.mem_list, hc.get_after o hk]

theorem TickAllowed.holds_after {tr : Trace} {c : Call} (hc : TickAllowed cfg tr c) (o : Outcome)
    (f : Fact) : f.holds cfg p (w.after o c) ↔ f.holds cfg p w := by
  cases f with
  | wants => simp only [Fact.holds, hc.mem_list_after o (show Kind.pv ≠ .evacuation by decide)]
  | handle handle =>
    simp only [Fact.holds, hc.mem_list_after o (show Kind.pv ≠ .evacuation by decide)]
  | owner handle nodeId =>
    simp only [Fact.holds, hc.get_after o (show Kind.zfsVolume ≠ .evacuation by decide)]
  | taint nodeId =>
    simp only [Fact.holds, hc.mem_list_after o (show Kind.node ≠ .evacuation by decide)]

theorem TickAllowed.of_delete {tr : Trace} (hc : TickAllowed cfg tr (.delete .evacuation ⟨"", p⟩)) :
    ∃ existing tr', tr = sawEvent .evacuation ⟨"", p⟩ (some existing) :: tr' ∧
      replaceable existing = true ∧ Basis cfg p tr' := by
  cases hc with
  | delete basis old => exact ⟨_, _, rfl, old, basis⟩

theorem volumePlace_eq_some {handle nodeId : String} :
    volumePlace cfg w p = some (handle, some nodeId) ↔
      ∃ pv csi zv, w.get .pv ⟨"", p⟩ = some pv ∧ csiOf pv = some csi ∧ csi.volumeHandle = handle ∧
        w.get .zfsVolume ⟨cfg.openebsNs, handle⟩ = some zv ∧ ownerOf zv = nodeId := by
  constructor
  · intro hvol
    obtain ⟨csi, hcsi, hpair⟩ := Option.map_eq_some_iff.mp hvol
    obtain ⟨pv, hpv, hcsi⟩ := Option.bind_eq_some_iff.mp hcsi
    obtain ⟨rfl, howner⟩ := Prod.mk.inj hpair
    obtain ⟨zv, hzv, howner⟩ := Option.map_eq_some_iff.mp howner
    exact ⟨pv, csi, zv, hpv, hcsi, rfl, hzv, howner⟩
  · rintro ⟨pv, csi, zv, hpv, hcsi, rfl, hzv, rfl⟩
    simp [volumePlace, hpv, hcsi, hzv]

/-- What is stored under a cluster-scoped name is in the list. -/
theorem mem_list_of_get {k : Kind} {x : Obj k} (hx : w.get k ⟨"", p⟩ = some x) :
    x ∈ w.list k {} ∧ x.name = p := by
  have hkey : x.key = ⟨"", p⟩ := World.get_key hx
  exact ⟨World.mem_list.mpr (by rw [hkey, hx]), congrArg Key.name hkey⟩

/-- What a listing of a namespace shows is stored under its name there. -/
theorem get_of_mem_list {k : Kind} {x : Obj k} {ns : String} (hx : x ∈ w.list k { ns := some ns }) :
    w.get k ⟨ns, x.name⟩ = some x := by
  obtain ⟨hmem, hsel⟩ := List.mem_filter.mp hx
  obtain rfl : ns = x.metadata.ns := by simpa [Selector.selects] using hsel
  exact KeyedStore.get_of_mem hmem

theorem list_of_event {k : Kind} {sel : Selector} {l : List (Obj k)} {c : Call} {o : Outcome}
    (hevent : listedEvent k sel l = ⟨c, w.answer o c⟩) : w.list k sel = l := by
  obtain rfl : Call.list k sel = c := congrArg Sigma.fst hevent
  exact answer_list hevent.symm

/-- The PV and its volume are read one after the other, with nothing moved in between. -/
theorem volumePlace_of_reads {pv : Obj .pv} {csi : CsiSource} {zv : Obj .zfsVolume}
    (hpv : w.get .pv ⟨"", p⟩ = some pv) (hcsi : csiOf pv = some csi)
    (hzv : w'.get .zfsVolume ⟨cfg.openebsNs, csi.volumeHandle⟩ = some zv)
    (hsame : volumePlace cfg w p = volumePlace cfg w' p) :
    volumePlace cfg w' p = some (csi.volumeHandle, some (ownerOf zv)) := by
  have hvol : volumePlace cfg w p = some (csi.volumeHandle,
      (w.get .zfsVolume ⟨cfg.openebsNs, csi.volumeHandle⟩).map ownerOf) := by
    simp [volumePlace, hpv, hcsi]
  obtain ⟨csi', hcsi', hpair⟩ := Option.map_eq_some_iff.mp (hsame.symm.trans hvol)
  have hhandle : csi'.volumeHandle = csi.volumeHandle := congrArg Prod.fst hpair
  rw [volumePlace, hcsi', Option.map_some, hhandle, hzv]
  rfl

theorem triggerHolds_of_volume {handle nodeId : String} {node : Obj .node}
    (hvol : volumePlace cfg w p = some (handle, some nodeId)) (hmem : node ∈ w.list .node {})
    (hid : nodeIdOf node = nodeId) (htaint : nodeHasEvacuateTaint node cfg.taintKey = true) :
    TriggerHolds cfg w p := by
  obtain ⟨pv, csi, zv, hpv, hcsi, rfl, hzv, howner⟩ := volumePlace_eq_some.mp hvol
  obtain ⟨hlist, hname⟩ := mem_list_of_get hpv
  exact .taint hlist hname hcsi hzv hmem (hid.trans howner.symm) htaint

theorem reads_sawTainted {nodeId : String} {tr : Trace} (ht : SawTainted cfg nodeId tr) :
    ∀ e ∈ tr, reads e.1 = true := by
  cases ht <;> simp [sawEvent, listedEvent, reads]

theorem reads_confirmed {tr : Trace} (hc : Confirmed cfg p tr) : ∀ e ∈ tr, reads e.1 = true := by
  cases hc with
  | request _ => simp [sawEvent, reads]
  | taint _ node =>
    intro e he
    rcases List.mem_append.mp he with he | he
    · exact reads_sawTainted node e he
    · rcases List.mem_pair.mp he with rfl | rfl <;> rfl

theorem Shown.cons {tr : Trace} {f : Fact} (hf : Shown cfg p tr f) {e : Event kubeInterface}
    (he : listsNodes e.1 = false) : Shown cfg p (e :: tr) f := by
  have htail : tr <:+ e :: tr := List.suffix_cons e tr
  cases hf with
  | wants on mem name wants => exact .wants (lasting_annotating _ _ _ he on) mem name wants
  | handle pvs mem name csi_pv => exact .handle (htail.subset pvs) mem name csi_pv
  | owner pvs mem name csi_pv listed volume same =>
    exact .owner pvs mem name csi_pv (listed.trans htail) volume same
  | taint listed mem taint => exact .taint (htail.subset listed) mem taint

end Calls

/-! ## Whole runs -/

namespace Ticking
variable {cfg : Config} {w w' : World} {p : String} {h : History} {prog : M Unit}
  {rely rely' : Trace → World → World → Prop}

theorem mono (hrun : Ticking cfg rely h w prog)
    (hrely : ∀ tr w w', rely tr w w' → rely' tr w w') : Ticking cfg rely' h w prog := by
  induction hrun with
  | start w => exact .start w
  | env _ hstep ih => exact .env ih (hrely _ _ _ hstep)
  | call o _ ih => exact .call o ih

theorem follows (hrun : Ticking cfg rely h w prog) :
    Follows (TickAllowed cfg) (fun _ _ => True) h.trace prog := by
  induction hrun with
  | start w => exact tick_follows cfg
  | env _ _ ih => exact ih
  | call o _ ih => exact ih.2 _

theorem allowed {c : Call} {next : c.Resp → M Unit} (hrun : Ticking cfg rely h w (.call c next)) :
    TickAllowed cfg h.trace c := hrun.follows.1

theorem answered (hrun : Ticking cfg rely h w prog) {x : World × Event kubeInterface}
    (hx : x ∈ h) : ∃ c o, x.2 = ⟨c, x.1.answer o c⟩ := by
  induction hrun with
  | start w => cases hx
  | env _ _ ih => exact ih hx
  | call o _ ih =>
    rcases List.mem_cons.mp hx with rfl | hx
    · exact ⟨_, o, rfl⟩
    · exact ih hx

theorem saw (hrun : Ticking cfg rely h w prog) {k : Kind} {key : Key} {o : Option (Obj k)}
    {w₁ : World} (hx : (w₁, sawEvent k key o) ∈ h) : w₁.get k key = o := by
  obtain ⟨c, out, heq⟩ := hrun.answered hx
  obtain rfl : Call.get k key = c := congrArg Sigma.fst heq
  exact answer_get heq.symm

theorem listed (hrun : Ticking cfg rely h w prog) {k : Kind} {sel : Selector} {l : List (Obj k)}
    {w₁ : World} (hx : (w₁, listedEvent k sel l) ∈ h) : w₁.list k sel = l := by
  obtain ⟨c, out, heq⟩ := hrun.answered hx
  exact list_of_event heq

/-- The evacuation that a tick is about to delete may still be replaced. -/
theorem old_replaceable (hrun : Ticking cfg (fun _ => Surroundings cfg) h w prog)
    {existing : Obj .evacuation} {tr : Trace}
    (htrace : h.trace = sawEvent .evacuation ⟨"", p⟩ (some existing) :: tr)
    (hold : replaceable existing = true) :
    ∀ e, w.get .evacuation ⟨"", p⟩ = some e → replaceable e = true := by
  induction hrun with
  | start w => cases htrace
  | env _ hstep ih => exact fun e he => hstep.stays_replaceable (ih htrace) he
  | call o hrun ih =>
    rename_i h w c next
    have hevent : (⟨c, w.answer o c⟩ : Event kubeInterface) =
        sawEvent .evacuation ⟨"", p⟩ (some existing) := (List.cons.inj htrace).1
    obtain rfl : c = .get .evacuation ⟨"", p⟩ := congrArg Sigma.fst hevent
    intro e he
    rw [after_read rfl, answer_get hevent] at he
    obtain rfl := Option.some.inj he
    exact hold

/-- Whichever way the call is answered. -/
theorem settled_delete {next : Except ApiError Unit → M Unit}
    (hrun : Ticking cfg (fun _ => Surroundings cfg) h w (.call (.delete .evacuation ⟨"", p⟩) next))
    (o : Outcome) : ¬ InFlight (w.after o (.delete .evacuation ⟨"", p⟩)) p := by
  obtain ⟨existing, tr, htrace, hold, -⟩ := hrun.allowed.of_delete
  have hstored := hrun.old_replaceable htrace hold
  have hsame : ∀ e', (w.after o (.delete .evacuation ⟨"", p⟩)).get .evacuation ⟨"", p⟩ = some e' →
      ∃ e, w.get .evacuation ⟨"", p⟩ = some e ∧ viewStatus e' = viewStatus e := by
    intro e' he'
    rcases World.after_cases w o (.delete .evacuation ⟨"", p⟩) with ⟨heq, -⟩ | heq
    · rw [heq] at he'
      exact ⟨e', he', rfl⟩
    · rw [heq] at he'
      rcases World.get_effect he' with hget | ⟨x, hx, -, rfl, -⟩
      · exact ⟨e', hget, rfl⟩
      · cases hx with
        | delete key e he hdel => exact ⟨e, he, rfl⟩
  rintro ⟨e', he', hphase⟩
  obtain ⟨e, he, hview⟩ := hsame e' he'
  rw [hview, terminal_of_replaceable (hstored e he)] at hphase
  cases hphase

theorem settled_cleared {c : Call} {next : c.Resp → M Unit}
    (hrun : Ticking cfg (fun _ => Surroundings cfg) h w (.call c next)) {o : Outcome}
    {e : Event kubeInterface} (he : ⟨c, w.answer o c⟩ = e) (hcleared : Cleared p e) :
    ¬ InFlight (w.after o c) p := by
  cases hcleared with
  | absent =>
    obtain rfl : c = .get .evacuation ⟨"", p⟩ := congrArg Sigma.fst he
    rintro ⟨x, hx, -⟩
    rw [after_read rfl, answer_get he] at hx
    cases hx
  | deleted =>
    obtain rfl : c = .delete .evacuation ⟨"", p⟩ := congrArg Sigma.fst he
    exact hrun.settled_delete o
  | notFound =>
    obtain rfl : c = .delete .evacuation ⟨"", p⟩ := congrArg Sigma.fst he
    exact hrun.settled_delete o

/-- Once it is cleared, the volume stays where it is as long as the tick only reads. -/
theorem since_cleared (hrun : Ticking cfg (fun _ => Surroundings cfg) h w prog) {hs rest : History}
    {w₀ : World} {e : Event kubeInterface} (hcleared : Cleared p e)
    (hh : h = hs ++ (w₀, e) :: rest) (hreads : ∀ x ∈ hs, reads x.2.1 = true) :
    ¬ InFlight w p ∧ ∀ x ∈ hs, volumePlace cfg x.1 p = volumePlace cfg w p := by
  induction hrun generalizing hs with
  | start w => cases hs <;> cases hh
  | env _ hstep ih =>
    obtain ⟨hsettled, hsame⟩ := ih hh hreads
    exact ⟨hstep.settled hsettled, fun x hx => (hsame x hx).trans (hstep.volume p hsettled).symm⟩
  | call o hrun ih =>
    cases hs with
    | nil =>
      obtain ⟨hpair, -⟩ := List.cons.inj hh
      exact ⟨hrun.settled_cleared (congrArg Prod.snd hpair) hcleared, fun x hx => by cases hx⟩
    | cons y hs =>
      obtain ⟨rfl, hrest⟩ := List.cons.inj hh
      have hread := hreads _ (List.mem_cons_self ..)
      obtain ⟨hsettled, hsame⟩ := ih hrest fun x hx => hreads x (List.mem_cons_of_mem _ hx)
      rw [after_read hread]
      refine ⟨hsettled, fun x hx => ?_⟩
      rcases List.mem_cons.mp hx with rfl | hx
      · rfl
      · exact hsame x hx

/-- The newest of the reads of a tainted node shows it in the world it was made in. -/
theorem tainted_seen (hrun : Ticking cfg rely h w prog) {nodeId : String} {hs : History}
    (hsub : hs ⊆ h) (hseen : SawTainted cfg nodeId hs.trace) :
    ∃ w₁ e hs', hs = (w₁, e) :: hs' ∧ ∃ node ∈ w₁.list .node {}, nodeIdOf node = nodeId ∧
      nodeHasEvacuateTaint node cfg.taintKey = true := by
  cases hs with
  | nil => exact absurd hseen fun hnil => by cases hnil
  | cons x hs' =>
    obtain ⟨w₁, e⟩ := x
    have hmem : (w₁, e) ∈ h := hsub (List.mem_cons_self ..)
    refine ⟨w₁, e, hs', rfl, ?_⟩
    generalize htrace : History.trace ((w₁, e) :: hs') = tr at hseen
    cases hseen with
    | named hid htaint =>
      obtain rfl : e = _ := (List.cons.inj htrace).1
      exact ⟨_, (mem_list_of_get (hrun.saw hmem)).1, hid, htaint⟩
    | listed o hnode hid htaint =>
      obtain rfl : e = _ := (List.cons.inj htrace).1
      rw [hrun.listed hmem]
      exact ⟨_, hnode, hid, htaint⟩

theorem confirmed_since (hrun : Ticking cfg (fun _ => Surroundings cfg) h w prog)
    {hreads tr : Trace} {e : Event kubeInterface} (htrace : h.trace = hreads ++ e :: tr)
    (hcleared : Cleared p e) (hconfirmed : Confirmed cfg p hreads) : ConfirmedSince cfg p h := by
  obtain ⟨hs, hs', rfl, hmap, hmap'⟩ := List.map_eq_append_iff.mp htrace
  obtain ⟨⟨w₀, e'⟩, rest, rfl, rfl, -⟩ := List.map_eq_cons_iff.mp hmap'
  have hread : ∀ x ∈ hs, reads x.2.1 = true := fun x hx =>
    reads_confirmed hconfirmed _ (hmap ▸ List.mem_map_of_mem hx)
  obtain ⟨-, hsame⟩ := hrun.since_cleared hcleared rfl hread
  suffices ∃ w₁ read hs', hs = (w₁, read) :: hs' ∧ TriggerHolds cfg w₁ p by
    obtain ⟨w₁, read, hs', rfl, hholds⟩ := this
    exact ⟨w₁, read, hs', w₀, e', rest, rfl, hread _ (List.mem_cons_self ..), hcleared, hholds⟩
  cases hconfirmed with
  | request hwants =>
    obtain ⟨⟨w₁, read⟩, hs', rfl, rfl, -⟩ := List.map_eq_cons_iff.mp hmap
    have hpv := hrun.saw (List.mem_append_left _ (List.mem_cons_self ..))
    obtain ⟨hlist, hname⟩ := mem_list_of_get hpv
    exact ⟨w₁, _, hs', rfl, .request hlist hname hwants⟩
  | @taint pv csi zv _ hcsi hnode =>
    obtain ⟨hs₁, hs₂, rfl, rfl, hmap₂⟩ := List.map_eq_append_iff.mp hmap
    obtain ⟨⟨w₂, _⟩, hs₃, rfl, rfl, hmap₃⟩ := List.map_eq_cons_iff.mp hmap₂
    obtain ⟨⟨w₃, _⟩, hs₄, rfl, rfl, -⟩ := List.map_eq_cons_iff.mp hmap₃
    obtain ⟨w₁, read, hs', rfl, node, hmem, hid, htaint⟩ :=
      hrun.tainted_seen (fun x hx => by simp [hx]) hnode
    have hzv : w₂.get .zfsVolume ⟨cfg.openebsNs, csi.volumeHandle⟩ = some zv := hrun.saw (by simp)
    have hpv : w₃.get .pv ⟨"", p⟩ = some pv := hrun.saw (by simp)
    have hsame₁ := hsame (w₁, read) (by simp)
    have hsame₂ := hsame (w₂, _) (List.mem_append_right _ (List.mem_cons_self ..))
    have hsame₃ := hsame (w₃, _)
      (List.mem_append_right _ (List.mem_cons_of_mem _ (List.mem_cons_self ..)))
    have hvol : volumePlace cfg w₁ p = some (csi.volumeHandle, some (ownerOf zv)) :=
      calc volumePlace cfg w₁ p
          = volumePlace cfg w₂ p := hsame₁.trans hsame₂.symm
        _ = some (csi.volumeHandle, some (ownerOf zv)) :=
            volumePlace_of_reads hpv hcsi hzv (hsame₃.trans hsame₂.symm)
    exact ⟨w₁, read, _, rfl, triggerHolds_of_volume hvol hmem hid htaint⟩

/-- In an undisturbed run, what the lists have shown still holds. -/
theorem shown_holds
    (hrun : Ticking cfg (fun tr w w' => Surroundings cfg w w' ∧ Undisturbed cfg p tr w w') h w prog)
    {f : Fact} (hf : Shown cfg p h.trace f) : f.holds cfg p w := by
  induction hrun with
  | start w =>
    cases hf with
    | wants on => cases on.pvs
    | handle pvs => cases pvs
    | owner _ _ _ _ listed => cases List.suffix_nil.mp listed
    | taint listed => cases listed
  | env _ hstep ih => exact hstep.2 f hf (ih hf)
  | call o hrun ih =>
    rw [hrun.allowed.holds_after o]
    cases hf with
    | wants on mem name wants =>
      rcases List.mem_cons.mp on.pvs with hnow | hpast
      · rw [← list_of_event hnow] at mem
        exact ⟨_, mem, name, wants⟩
      · exact ih (.wants ⟨hpast, fun e he => on.first e (List.mem_cons_of_mem _ he)⟩ mem name wants)
    | handle pvs mem name csi_pv =>
      rcases List.mem_cons.mp pvs with hnow | hpast
      · rw [← list_of_event hnow] at mem
        exact ⟨_, mem, name, _, csi_pv, rfl⟩
      · exact ih (.handle hpast mem name csi_pv)
    | owner pvs mem name csi_pv listed volume same =>
      rcases List.suffix_cons_iff.mp listed with hnow | hpast
      · rw [← list_of_event (List.cons.inj hnow).1] at volume
        exact ⟨_, get_of_mem_list volume, rfl⟩
      · exact ih (.owner pvs mem name csi_pv hpast volume same)
    | taint listed mem taint =>
      rcases List.mem_cons.mp listed with hnow | hpast
      · rw [← list_of_event hnow] at mem
        exact ⟨_, mem, rfl, taint⟩
      · exact ih (.taint hpast mem taint)

end Ticking

/-- What a tick has read in its lists holds together in a world where each part of it holds. -/
theorem triggerHolds_of_basis {cfg : Config} {w : World} {p : String} {tr : Trace}
    (hbasis : Basis cfg p tr) (hshown : ∀ f, Shown cfg p tr f → f.holds cfg p w) :
    TriggerHolds cfg w p := by
  cases hbasis with
  | request on mem name wants =>
    obtain ⟨pv, hpv, hname, hwants⟩ := hshown _ (.wants on mem name wants)
    exact .request hpv hname hwants
  | taint on mem name csi_pv volume handle node_mem id taint =>
    obtain ⟨hnodes, tr', hlisted, hpvs⟩ := on
    have hpast : tr' <:+ tr := (List.suffix_cons _ _).trans hlisted
    obtain ⟨pv, hpv, hname, csi, hcsi, hhandle⟩ :=
      hshown _ (.handle (hpast.subset hpvs) mem name csi_pv)
    obtain ⟨zv, hzv, howner⟩ := hshown _ (.owner hpvs mem name csi_pv hlisted volume handle)
    obtain ⟨node, hnode, hid, htaint⟩ := hshown _ (.taint hnodes node_mem taint)
    rw [← handle, ← hhandle] at hzv
    exact .taint hpv hname hcsi hzv hnode (hid.trans (id.trans howner.symm)) htaint

/-- Whatever reconciles and users do in between, a tick deletes no evacuation that is in flight or
failed for good, and creates one only where it has seen the condition hold with the old one gone. -/
theorem tick_safe {cfg : Config} {h : History} {w : World} {c : Call} {next : c.Resp → M Unit}
    (hrun : Ticking cfg (fun _ => Surroundings cfg) h w (.call c next)) : SafeCall cfg h w c := by
  generalize htrace : h.trace = tr
  have hallowed := hrun.allowed
  rw [htrace] at hallowed
  cases hallowed with
  | get | list => trivial
  | delete basis old => exact hrun.old_replaceable htrace old
  | create _ _ cleared confirmed => exact hrun.confirmed_since htrace cleared confirmed

/-- A call that a tick may make for the PV `p`: moreover, what it deletes makes room for a
successor. -/
structure SoundCall (cfg : Config) (p : String) (h : History) (w : World) (c : Call) : Prop where
  safe : SafeCall cfg h w c
  wanted : c = .delete .evacuation ⟨"", p⟩ → (w.get .evacuation ⟨"", p⟩).isSome = true →
    TriggerHolds cfg w p

/-- As long as the others undo nothing that the tick has read about a PV, it removes an evacuation
of this PV only while the trigger condition holds. -/
theorem tick_replaces_for_successor {cfg : Config} {p : String} {h : History} {w : World} {c : Call}
    {next : c.Resp → M Unit}
    (hrun : Ticking cfg (fun tr w w' => Surroundings cfg w w' ∧ Undisturbed cfg p tr w w') h w
      (.call c next)) : SoundCall cfg p h w c where
  safe := tick_safe (hrun.mono fun _ _ _ hstep => hstep.1)
  wanted := by
    rintro rfl -
    obtain ⟨existing, tr, htrace, -, hbasis⟩ := hrun.allowed.of_delete
    refine triggerHolds_of_basis hbasis fun f hf => hrun.shown_holds ?_
    rw [htrace]
    exact hf.cons rfl

namespace Sample

def evacuationIn (name : String) (phase : Phase) : Obj .evacuation :=
  ⟨{ name }, ({ spec := { pvName := name }, status := some { phase } } : ZFSEvacuation)⟩

/-- A volume with its request, and its evacuation in this phase. -/
def requestedIn (phase : Phase) : World :=
  (({} : World).store (pv "pv1" "c1" "vol1" requested)).store (evacuationIn "pv1" phase)

/-- The evacuation of the volume has come to its end. -/
def evacuated : World :=
  ((requestedIn .swapping).store (pv "pv1" "c1" newHandle [])).store
    (evacuationIn "pv1" .completed)

theorem evacuated_surroundings : Surroundings {} (requestedIn .swapping) evacuated := by
  have hother : ∀ {k key}, key.name ≠ "pv1" →
      evacuated.get k key = none ∧ (requestedIn .swapping).get k key = none := by
    intro k key hkey
    have hne : ∀ {o : Key}, o.name = "pv1" → key ≠ o := fun ho heq => hkey (heq ▸ ho)
    have hbefore : (requestedIn .swapping).get k key = none := by
      rw [requestedIn, World.get_store_other _ _ fun _ => hne rfl,
        World.get_store_other _ _ fun _ => hne rfl]
      rfl
    refine ⟨?_, hbefore⟩
    rw [evacuated, World.get_store_other _ _ fun _ => hne rfl,
      World.get_store_other _ _ fun _ => hne rfl]
    exact hbefore
  refine ⟨fun p e' he' => ?_, fun p e e' he _ hover => ?_, fun p hp => ?_⟩
  · by_cases hp : p = "pv1"
    · subst hp
      exact ⟨_, rfl⟩
    · rw [(hother hp).1] at he'
      cases he'
  · by_cases hp : p = "pv1"
    · subst hp
      obtain rfl := Option.some.inj he
      cases hover
    · rw [(hother hp).2] at he
      cases he
  · by_cases hname : p = "pv1"
    · subst hname
      exact absurd ⟨_, rfl, rfl⟩ hp
    · rw [volumePlace, volumePlace, (hother hname).1, (hother hname).2]
      rfl

/-- The tick has listed the PV with its request, then the evacuation has come to its end, and the
tick is about to delete it. -/
theorem tick_deletes_unrequested : ¬ ∀ (cfg : Config) (p : String) (h : History) (w : World)
    (c : Call) (next : c.Resp → M Unit),
    Ticking cfg (fun _ => Surroundings cfg) h w (.call c next) → SoundCall cfg p h w c := by
  intro hall
  have hlisted : Ticking {} (fun _ => Surroundings {}) _ (requestedIn .swapping) _ :=
    (Ticking.start (requestedIn .swapping)).call {}
  have hrun := (hlisted.env evacuated_surroundings).call {}
  have hholds := (hall {} "pv1" _ _ (.delete .evacuation ⟨"", "pv1"⟩) _ hrun).wanted rfl rfl
  cases hholds with
  | request mem _ wants =>
    obtain rfl := List.mem_singleton.mp mem
    cases wants
  | taint _ _ _ _ node_mem _ _ => cases node_mem

/-- The volume is requested once more after its evacuation has completed. -/
theorem tick_replaces_for_successor_requested :
    ∃ h w next, Ticking {} (fun tr w w' => Surroundings {} w w' ∧ Undisturbed {} "pv1" tr w w') h w
      (.call (.delete .evacuation ⟨"", "pv1"⟩) next) ∧
      SoundCall {} "pv1" h w (.delete .evacuation ⟨"", "pv1"⟩) := by
  have hrun : Ticking {} (fun tr w w' => Surroundings {} w w' ∧ Undisturbed {} "pv1" tr w w') _
      (requestedIn .completed) _ := ((Ticking.start (requestedIn .completed)).call {}).call {}
  exact ⟨_, _, _, hrun, tick_replaces_for_successor hrun⟩

end Sample

end ZfsEvacuation
