import ZfsEvacuation.Colocation

/-!
# The vote of the siblings

The votes are counted in a hash map, which has no order of its own. The winner is nevertheless
the same for every order of the map and of the siblings: most votes first, then the smaller name.
-/
namespace ZfsEvacuation

/-! ## The maximum of a list under a selection -/

section Selection
variable {α : Type} {pick : α → α → α} {r : α → α → Prop}

/-- A fold that selects one of two by a transitive relation ends with a member that all others
are below. -/
theorem foldl_select (htrans : ∀ a b c, r a b → r b c → r a c) (hrefl : ∀ a, r a a)
    (hpick : ∀ a b, (pick a b = a ∨ pick a b = b) ∧ r a (pick a b) ∧ r b (pick a b))
    (v : α) (vs : List α) :
    vs.foldl pick v ∈ v :: vs ∧ ∀ x ∈ v :: vs, r x (vs.foldl pick v) := by
  induction vs generalizing v with
  | nil => simpa using hrefl v
  | cons w ws ih =>
    obtain ⟨hor, hleft, hright⟩ := hpick v w
    obtain ⟨hmem, hmax⟩ := ih (pick v w)
    have htop := hmax (pick v w) List.mem_cons_self
    constructor
    · rw [List.foldl_cons]
      rcases List.mem_cons.mp hmem with heq | hin
      · rw [heq]
        rcases hor with hv | hw
        · simp [hv]
        · simp [hw]
      · simp [hin]
    · intro x hx
      simp only [List.mem_cons] at hx
      rcases hx with rfl | rfl | hx
      · exact htrans _ _ _ hleft htop
      · exact htrans _ _ _ hright htop
      · exact hmax x (List.mem_cons_of_mem _ hx)

end Selection

/-! ## The winner of a vote -/

/-- The second vote is at least as good: a larger count, or the same and a smaller name. -/
def Yields (a b : String × Nat) : Prop := a.2 < b.2 ∨ a.2 = b.2 ∧ b.1 ≤ a.1

theorem yields_refl (a : String × Nat) : Yields a a := .inr ⟨rfl, String.le_refl _⟩

theorem yields_trans (a b c : String × Nat) (h : Yields a b) (h' : Yields b c) : Yields a c := by
  rcases h with h | ⟨h, hle⟩ <;> rcases h' with h' | ⟨h', hle'⟩
  · exact .inl (by omega)
  · exact .inl (by omega)
  · exact .inl (by omega)
  · exact .inr ⟨by omega, String.le_trans hle' hle⟩

theorem greaterVote_select (a b : String × Nat) :
    (greaterVote a b = a ∨ greaterVote a b = b) ∧ Yields a (greaterVote a b) ∧
      Yields b (greaterVote a b) := by
  unfold greaterVote
  split_ifs with hab hba hname
  · exact ⟨.inr rfl, .inl hab, yields_refl b⟩
  · exact ⟨.inl rfl, yields_refl a, .inl hba⟩
  · have heq : a.2 = b.2 := by omega
    exact ⟨.inl rfl, yields_refl a, .inr ⟨heq.symm, String.not_lt.mp (String.lt_asymm hname)⟩⟩
  · have heq : a.2 = b.2 := by omega
    exact ⟨.inr rfl, .inr ⟨heq, String.not_lt.mp hname⟩, yields_refl b⟩

/-- The node with the most votes, of several such the one with the smallest name. -/
structure Leads (nodes : List String) (n : String) : Prop where
  mem : n ∈ nodes
  most : ∀ m ∈ nodes, nodes.count m ≤ nodes.count n
  first : ∀ m ∈ nodes, nodes.count m = nodes.count n → n ≤ m

variable {nodes : List String} {n m : String}

theorem Leads.unique (h : Leads nodes n) (h' : Leads nodes m) : n = m := by
  have hcount : nodes.count m = nodes.count n :=
    Nat.le_antisymm (h.most m h'.mem) (h'.most n h.mem)
  exact String.le_antisymm (h.first m h'.mem hcount) (h'.first n h.mem hcount.symm)

theorem Leads.perm {nodes' : List String} (hp : nodes'.Perm nodes) (h : Leads nodes n) :
    Leads nodes' n where
  mem := hp.mem_iff.mpr h.mem
  most m hm := by
    rw [hp.count_eq, hp.count_eq]
    exact h.most m (hp.mem_iff.mp hm)
  first m hm heq := by
    rw [hp.count_eq, hp.count_eq] at heq
    exact h.first m (hp.mem_iff.mp hm) heq

theorem mem_tally {v : String × Nat} :
    v ∈ tally nodes ↔ v.1 ∈ nodes ∧ v.2 = nodes.count v.1 := by
  simp only [tally, List.mem_map, List.mem_dedup]
  constructor
  · rintro ⟨m, hm, rfl⟩
    exact ⟨hm, rfl⟩
  · rintro ⟨hm, hcount⟩
    exact ⟨v.1, hm, by rw [← hcount]⟩

/-- Whatever the order of the map, its maximum is the leading node. -/
theorem leads_of_maxVote {votes : List (String × Nat)} (hp : votes.Perm (tally nodes))
    {best : String × Nat} (h : maxVote votes = some best) : Leads nodes best.1 := by
  cases votes with
  | nil => cases h
  | cons v vs =>
    obtain rfl := Option.some.inj h
    obtain ⟨hmem, hmax⟩ := foldl_select yields_trans yields_refl greaterVote_select v vs
    obtain ⟨hin, hcount⟩ := mem_tally.mp (hp.mem_iff.mp hmem)
    have hbelow : ∀ m ∈ nodes, Yields (m, nodes.count m) (vs.foldl greaterVote v) :=
      fun m hm => hmax _ (hp.mem_iff.mpr (mem_tally.mpr ⟨hm, rfl⟩))
    refine ⟨hin, fun m hm => ?_, fun m hm heq => ?_⟩
    · rcases hbelow m hm with hlt | ⟨heq, -⟩
      · rw [← hcount]
        exact Nat.le_of_lt hlt
      · rw [← hcount]
        exact Nat.le_of_eq heq
    · rcases hbelow m hm with hlt | ⟨-, hle⟩
      · rw [hcount] at hlt
        simp only at hlt
        omega
      · exact hle

theorem maxVote_eq_none {votes : List (String × Nat)} (hp : votes.Perm (tally nodes)) :
    maxVote votes = none ↔ nodes = [] := by
  have hnil : votes = [] ↔ nodes = [] := by
    constructor
    · rintro rfl
      have htally : tally nodes = [] := hp.nil_eq.symm
      simpa [tally] using htally
    · rintro rfl
      exact hp.eq_nil
  rw [← hnil]
  cases votes <;> simp [maxVote]

/-! ## The anchor -/

/-- `pickAnchor` with the votes in the order in which the map is gone through. -/
def pickAnchorIn (votes : List (String × Nat)) (anchors : List Anchor) : Option Anchor :=
  match maxVote votes with
  | none => none
  | some best => anchors.find? fun a => a.node = best.1

theorem pickAnchor_eq (anchors : List Anchor) :
    pickAnchor anchors = pickAnchorIn (tally (anchors.map (·.node))) anchors := rfl

variable {votes : List (String × Nat)} {anchors : List Anchor} {a : Anchor}

theorem pickAnchorIn_eq_none (hp : votes.Perm (tally (anchors.map (·.node)))) :
    pickAnchorIn votes anchors = none ↔ anchors = [] := by
  unfold pickAnchorIn
  cases hmax : maxVote votes with
  | none =>
    have hnil := (maxVote_eq_none hp).mp hmax
    simpa using hnil
  | some best =>
    obtain ⟨b, hb, hnode⟩ := List.mem_map.mp (leads_of_maxVote hp hmax).mem
    have hne : anchors ≠ [] := List.ne_nil_of_mem hb
    simp only [hne, iff_false, List.find?_eq_none, not_forall]
    exact ⟨b, hb, by simpa using hnode⟩

/-- The first of the anchors with the leading node. -/
theorem pickAnchorIn_eq_some (hp : votes.Perm (tally (anchors.map (·.node)))) :
    pickAnchorIn votes anchors = some a ↔ Leads (anchors.map (·.node)) a.node ∧
      ∃ before after, anchors = before ++ a :: after ∧ ∀ b ∈ before, b.node ≠ a.node := by
  unfold pickAnchorIn
  constructor
  · intro h
    cases hmax : maxVote votes with
    | none =>
      rw [hmax] at h
      cases h
    | some best =>
      rw [hmax] at h
      obtain ⟨hnode, before, after, heq, hbefore⟩ := List.find?_eq_some_iff_append.mp h
      have hbest : a.node = best.1 := by simpa using hnode
      rw [hbest]
      exact ⟨leads_of_maxVote hp hmax, before, after, heq, by simpa using hbefore⟩
  · rintro ⟨hleads, before, after, heq, hbefore⟩
    cases hmax : maxVote votes with
    | none =>
      have hnil := (maxVote_eq_none hp).mp hmax
      have hmem := hleads.mem
      rw [hnil] at hmem
      cases hmem
    | some best =>
      obtain hbest : best.1 = a.node := (leads_of_maxVote hp hmax).unique hleads
      refine List.find?_eq_some_iff_append.mpr ⟨by simp [hbest], before, after, heq, ?_⟩
      simpa [hbest] using hbefore

example : (pickAnchor [⟨"n2", "pv-1", "test"⟩, ⟨"n3", "pv-2", "test"⟩, ⟨"n2", "pv-3", "test"⟩]).map
    Anchor.pvName = some "pv-1" := by decide

/-- For every order in which the vote map is gone through: the anchor is none exactly for no
anchors at all; it is the first one at the leading node otherwise; and the siblings in another
order, voting in any order of the map, have an anchor at the same node. -/
theorem pick_anchor_exact (anchors : List Anchor) (votes : List (String × Nat))
    (hp : votes.Perm (tally (anchors.map (·.node)))) :
    pickAnchorIn votes anchors = pickAnchor anchors ∧
    (pickAnchorIn votes anchors = none ↔ anchors = []) ∧
    (∀ a, pickAnchorIn votes anchors = some a ↔ Leads (anchors.map (·.node)) a.node ∧
      ∃ before after, anchors = before ++ a :: after ∧ ∀ b ∈ before, b.node ≠ a.node) ∧
    ∀ anchors' votes', anchors'.Perm anchors → votes'.Perm (tally (anchors'.map (·.node))) →
      (pickAnchorIn votes' anchors').map (·.node) =
        (pickAnchorIn votes anchors).map (·.node) := by
  refine ⟨?_, pickAnchorIn_eq_none hp, fun a => pickAnchorIn_eq_some hp, ?_⟩
  · refine Option.ext fun a => ?_
    rw [pickAnchor_eq, pickAnchorIn_eq_some hp, pickAnchorIn_eq_some (List.Perm.refl _)]
  · intro anchors' votes' hperm hp'
    cases h : pickAnchorIn votes anchors with
    | none =>
      obtain rfl := (pickAnchorIn_eq_none hp).mp h
      obtain rfl := hperm.eq_nil
      rw [(pickAnchorIn_eq_none hp').mpr rfl]
    | some a =>
      have hleads := ((pickAnchorIn_eq_some hp).mp h).1.perm (hperm.map (·.node))
      cases h' : pickAnchorIn votes' anchors' with
      | none =>
        obtain rfl := (pickAnchorIn_eq_none hp').mp h'
        cases hleads.mem
      | some a' =>
        have hleads' := ((pickAnchorIn_eq_some hp').mp h').1
        exact congrArg some (hleads'.unique hleads)

/-- Two votes each for two nodes, which the map holds in the other order: the smaller name wins. -/
theorem pick_anchor_exact_tie :
    pickAnchorIn [("n2", 2), ("n1", 2)]
      [⟨"n2", "a", ""⟩, ⟨"n1", "b", ""⟩, ⟨"n2", "c", ""⟩, ⟨"n1", "d", ""⟩] =
        some ⟨"n1", "b", ""⟩ :=
  ((pick_anchor_exact [⟨"n2", "a", ""⟩, ⟨"n1", "b", ""⟩, ⟨"n2", "c", ""⟩, ⟨"n1", "d", ""⟩]
    [("n2", 2), ("n1", 2)] (by decide)).2.2.1 _).mpr
      ⟨⟨by decide, by decide, by decide⟩, [⟨"n2", "a", ""⟩],
        [⟨"n2", "c", ""⟩, ⟨"n1", "d", ""⟩], rfl, by decide⟩

end ZfsEvacuation
