import ZfsEvacuation.Placement

/-!
# The filters of the scheduler

What node affinity and taint toleration ask of a node, as the scheduler defines them, and that
`Placement.admits` asks the same of it for pods that the API server accepts.
-/
namespace ZfsEvacuation

namespace Scheduler

/-! ## Requirements -/

/-- Nonempty decimal digits with their value. -/
structure Decimal (digits : List Char) (n : Nat) : Prop where
  nonempty : digits ≠ []
  allDigits : ∀ c ∈ digits, c.isDigit = true
  value : n = Nat.ofDigitChars 10 digits 0

/-- A decimal text of a signed 64-bit integer, with an optional sign. -/
inductive DenotesInt (text : String) : Int → Prop
  | plain {digits : List Char} {n : Nat} (eq : text.toList = digits) (h : Decimal digits n)
      (bound : n < 2 ^ 63) : DenotesInt text n
  | plus {digits : List Char} {n : Nat} (eq : text.toList = '+' :: digits) (h : Decimal digits n)
      (bound : n < 2 ^ 63) : DenotesInt text n
  | minus {digits : List Char} {n : Nat} (eq : text.toList = '-' :: digits) (h : Decimal digits n)
      (bound : n ≤ 2 ^ 63) : DenotesInt text (-n)

/-- What a label has to be, or a field; one that is absent is only not in and does not exist. -/
inductive Holds (req : NodeSelectorRequirement) : Option String → Prop
  | isIn {v : String} (op : req.operator = "In") (h : v ∈ req.values.getD []) : Holds req (some v)
  | notIn {v : String} (op : req.operator = "NotIn") (h : v ∉ req.values.getD []) :
      Holds req (some v)
  | notInAbsent (op : req.operator = "NotIn") : Holds req none
  | present {v : String} (op : req.operator = "Exists") : Holds req (some v)
  | absent (op : req.operator = "DoesNotExist") : Holds req none
  | greater {v bound : String} {n m : Int} (op : req.operator = "Gt")
      (values : req.values = some [bound]) (hv : DenotesInt v n) (hb : DenotesInt bound m)
      (h : m < n) : Holds req (some v)
  | less {v bound : String} {n m : Int} (op : req.operator = "Lt")
      (values : req.values = some [bound]) (hv : DenotesInt v n) (hb : DenotesInt bound m)
      (h : n < m) : Holds req (some v)

/-- A field requirement is about the only field there is, the name of the node. -/
def fieldOf (node : Obj .node) (field : String) : Option String :=
  if field = "metadata.name" then some node.metadata.name else none

structure TermHolds (term : NodeSelectorTerm) (node : Obj .node) : Prop where
  nonempty : term.matchExpressions.getD [] ≠ [] ∨ term.matchFields.getD [] ≠ []
  expressions : ∀ req ∈ term.matchExpressions.getD [], Holds req (node.metadata.labels.get req.key)
  fields : ∀ req ∈ term.matchFields.getD [], Holds req (fieldOf node req.key)

/-! ## The filters -/

def requiredTerms (pod : Pod) : Option (List NodeSelectorTerm) :=
  (pod.affinity.bind (·.nodeAffinity)).bind (·.required)

structure NodeAffinityPasses (pod : Pod) (node : Obj .node) : Prop where
  selector : ∀ kv ∈ pod.nodeSelector, node.metadata.labels.get kv.1 = some kv.2
  required : ∀ terms, requiredTerms pod = some terms → ∃ term ∈ terms, TermHolds term node

/-- An empty key tolerates all keys, an empty effect all effects; an absent operator is Equal. -/
structure Tolerated (tol : Toleration) (taint : Taint) : Prop where
  effect : tol.effect.getD "" = "" ∨ tol.effect = some taint.effect
  key : tol.key.getD "" = "" ∨ tol.key = some taint.key
  value : tol.operator = some "Exists" ∨
    (tol.operator.getD "" = "" ∨ tol.operator = some "Equal") ∧
      tol.value.getD "" = taint.value.getD ""

def TaintTolerationPasses (pod : Pod) (node : Node) : Prop :=
  ∀ taint ∈ node.taints, taint.effect = "NoSchedule" ∨ taint.effect = "NoExecute" →
    ∃ tol ∈ pod.tolerations, Tolerated tol taint

/-! ## What the API server accepts -/

structure ValidRequirement (req : NodeSelectorRequirement) : Prop where
  operator : req.operator ∈ ["In", "NotIn", "Exists", "DoesNotExist", "Gt", "Lt"]
  single : req.operator = "Gt" ∨ req.operator = "Lt" → ∃ bound, req.values = some [bound]

structure ValidFieldRequirement (req : NodeSelectorRequirement) : Prop where
  key : req.key = "metadata.name"
  operator : req.operator ∈ ["In", "NotIn"]
  single : ∃ name, req.values = some [name]

structure ValidToleration (tol : Toleration) : Prop where
  operator : tol.operator ∈ [none, some "", some "Equal", some "Exists"]
  emptyKey : tol.key.getD "" = "" → tol.operator = some "Exists"

structure ValidPod (pod : Pod) : Prop where
  terms : ∀ terms, requiredTerms pod = some terms → terms ≠ []
  expressions : ∀ terms, requiredTerms pod = some terms → ∀ term ∈ terms,
    ∀ req ∈ term.matchExpressions.getD [], ValidRequirement req
  fields : ∀ terms, requiredTerms pod = some terms → ∀ term ∈ terms,
    ∀ req ∈ term.matchFields.getD [], ValidFieldRequirement req
  tolerations : ∀ tol ∈ pod.tolerations, ValidToleration tol

/-! ## Numbers -/

theorem all_isAsciiDigit_iff {digits : List Char} :
    digits.all isAsciiDigit = true ↔ ∀ c ∈ digits, c.isDigit = true := by
  have heq : ∀ c, isAsciiDigit c = c.isDigit := fun _ => rfl
  simp [heq]

theorem Decimal.no_sign {digits : List Char} {n : Nat} (h : Decimal digits n) {c : Char}
    (hc : c.isDigit = false) (rest : List Char) : digits ≠ c :: rest := by
  rintro rfl
  have hdigit := h.allDigits c List.mem_cons_self
  rw [hc] at hdigit
  cases hdigit

theorem unsignedDigits_iff {max n : Nat} {digits : List Char} :
    (if digits = [] ∨ ¬ digits.all isAsciiDigit then none
      else if digitsValue digits ≤ max then some (digitsValue digits) else none) = some n ↔
    Decimal digits n ∧ n ≤ max := by
  constructor
  · intro h
    split_ifs at h with hbad hmax
    obtain rfl := Option.some.inj h
    rw [not_or, not_not, all_isAsciiDigit_iff] at hbad
    exact ⟨⟨hbad.1, hbad.2, rfl⟩, hmax⟩
  · rintro ⟨⟨hne, hdigits, rfl⟩, hmax⟩
    have hgood : ¬ (digits = [] ∨ ¬ digits.all isAsciiDigit) := by
      rw [not_or, not_not, all_isAsciiDigit_iff]
      exact ⟨hne, hdigits⟩
    rw [if_neg hgood, if_pos (show digitsValue digits ≤ max from hmax)]
    rfl

theorem parseUnsigned_iff_of_no_plus {max n : Nat} {s : List Char} (h : ∀ rest, s ≠ '+' :: rest) :
    parseUnsigned max s = some n ↔ Decimal s n ∧ n ≤ max := by
  rw [← unsignedDigits_iff]
  simp only [parseUnsigned]

theorem parseUnsigned_plus_iff {max n : Nat} {s : List Char} :
    parseUnsigned max ('+' :: s) = some n ↔ Decimal s n ∧ n ≤ max := unsignedDigits_iff

theorem parseI64_minus_iff {text : String} {rest : List Char} (htext : text.toList = '-' :: rest)
    {n : Int} : parseI64 text = some n ↔ ∃ m : Nat, Decimal rest m ∧ m ≤ 2 ^ 63 ∧ n = -m := by
  simp only [parseI64, htext]
  constructor
  · intro h
    split_ifs at h with hplus
    have hno : ∀ r, rest ≠ '+' :: r := by
      rintro r rfl
      exact hplus rfl
    cases hm : parseUnsigned (2 ^ 63) rest with
    | none =>
      rw [hm] at h
      cases h
    | some m =>
      rw [hm] at h
      obtain ⟨hd, hmax⟩ := (parseUnsigned_iff_of_no_plus hno).mp hm
      exact ⟨m, hd, hmax, (Option.some.inj h).symm⟩
  · rintro ⟨m, hd, hmax, rfl⟩
    have hplus : ¬ rest.head? = some '+' := by
      intro h
      obtain ⟨r, hr⟩ := List.head?_eq_some_iff.mp h
      exact hd.no_sign rfl r hr
    rw [if_neg hplus, (parseUnsigned_iff_of_no_plus (hd.no_sign rfl)).mpr ⟨hd, hmax⟩]
    rfl

theorem parseI64_unsigned_iff {text : String} (h : ∀ rest, text.toList ≠ '-' :: rest) {n : Int} :
    parseI64 text = some n ↔
      ∃ m : Nat, parseUnsigned (2 ^ 63 - 1) text.toList = some m ∧ n = m := by
  simp only [parseI64]
  cases parseUnsigned (2 ^ 63 - 1) text.toList with
  | none => simp
  | some m => simp [eq_comm]

theorem parseI64_eq_some_iff {text : String} {n : Int} :
    parseI64 text = some n ↔ DenotesInt text n := by
  have hbound : ∀ m : Nat, m ≤ 2 ^ 63 - 1 ↔ m < 2 ^ 63 := fun m => by omega
  constructor
  · intro h
    by_cases hminus : ∃ rest, text.toList = '-' :: rest
    · obtain ⟨rest, htext⟩ := hminus
      obtain ⟨m, hd, hmax, rfl⟩ := (parseI64_minus_iff htext).mp h
      exact .minus htext hd hmax
    · obtain ⟨m, hm, rfl⟩ :=
        (parseI64_unsigned_iff fun rest heq => hminus ⟨rest, heq⟩).mp h
      by_cases hplus : ∃ rest, text.toList = '+' :: rest
      · obtain ⟨rest, htext⟩ := hplus
        rw [htext, parseUnsigned_plus_iff, hbound] at hm
        exact .plus htext hm.1 hm.2
      · rw [parseUnsigned_iff_of_no_plus fun rest heq => hplus ⟨rest, heq⟩, hbound] at hm
        exact .plain rfl hm.1 hm.2
  · rintro (⟨rfl, hd, hlt⟩ | ⟨htext, hd, hlt⟩ | ⟨htext, hd, hle⟩)
    · refine (parseI64_unsigned_iff (hd.no_sign rfl)).mpr ⟨_, ?_, rfl⟩
      exact (parseUnsigned_iff_of_no_plus (hd.no_sign rfl)).mpr ⟨hd, (hbound _).mpr hlt⟩
    · refine (parseI64_unsigned_iff (by simp [htext])).mpr ⟨_, ?_, rfl⟩
      rw [htext]
      exact parseUnsigned_plus_iff.mpr ⟨hd, (hbound _).mpr hlt⟩
    · exact (parseI64_minus_iff htext).mpr ⟨_, hd, hle, rfl⟩

/-! ## Requirements and terms -/

theorem bothParsed_iff {v bound : Option String} (less : Int → Int → Bool) :
    (match v.bind parseI64, bound.bind parseI64 with
      | some n, some m => less n m
      | _, _ => false) = true ↔
    ∃ x y n m, v = some x ∧ bound = some y ∧ DenotesInt x n ∧ DenotesInt y m ∧ less n m = true := by
  constructor
  · intro h
    split at h
    · rename_i n m hv hb
      obtain ⟨x, rfl, hx⟩ := Option.bind_eq_some_iff.mp hv
      obtain ⟨y, rfl, hy⟩ := Option.bind_eq_some_iff.mp hb
      exact ⟨x, y, n, m, rfl, rfl, parseI64_eq_some_iff.mp hx, parseI64_eq_some_iff.mp hy, h⟩
    · cases h
  · rintro ⟨x, y, n, m, rfl, rfl, hx, hy, h⟩
    rw [Option.bind_some, Option.bind_some, parseI64_eq_some_iff.mpr hx,
      parseI64_eq_some_iff.mpr hy]
    exact h

variable {req : NodeSelectorRequirement} {value : Option String}

theorem Holds.requirementMatches (h : Holds req value) : requirementMatches req value = true := by
  have hhead : ∀ {bound : String}, req.values = some [bound] →
      (req.values.getD []).head? = some bound := fun hvalues => by rw [hvalues]; rfl
  cases h with
  | isIn op h => simpa [ZfsEvacuation.requirementMatches, op] using h
  | notIn op h => simpa [ZfsEvacuation.requirementMatches, op] using h
  | notInAbsent op => simp [ZfsEvacuation.requirementMatches, op]
  | present op => simp [ZfsEvacuation.requirementMatches, op]
  | absent op => simp [ZfsEvacuation.requirementMatches, op]
  | greater op hvalues hv hb h =>
    simp only [ZfsEvacuation.requirementMatches, op]
    exact (bothParsed_iff fun n m => decide (m < n)).mpr
      ⟨_, _, _, _, rfl, hhead hvalues, hv, hb, decide_eq_true h⟩
  | less op hvalues hv hb h =>
    simp only [ZfsEvacuation.requirementMatches, op]
    exact (bothParsed_iff fun n m => decide (n < m)).mpr
      ⟨_, _, _, _, rfl, hhead hvalues, hv, hb, decide_eq_true h⟩

theorem ValidRequirement.values_of_head (hvalid : ValidRequirement req)
    (hop : req.operator = "Gt" ∨ req.operator = "Lt") {bound : String}
    (h : (req.values.getD []).head? = some bound) : req.values = some [bound] := by
  obtain ⟨b, hb⟩ := hvalid.single hop
  rw [hb] at h
  rw [hb, show b = bound from Option.some.inj h]

theorem ValidRequirement.holds (hvalid : ValidRequirement req)
    (h : ZfsEvacuation.requirementMatches req value = true) : Holds req value := by
  have hop := hvalid.operator
  simp only [List.mem_cons, List.not_mem_nil, or_false] at hop
  rcases hop with hop | hop | hop | hop | hop | hop
  · simp only [requirementMatches, hop, Option.any_eq_true] at h
    obtain ⟨v, rfl, hv⟩ := h
    exact .isIn hop (by simpa using hv)
  · cases value with
    | none => exact .notInAbsent hop
    | some v => exact .notIn hop (by simpa [requirementMatches, hop] using h)
  · cases value with
    | none => simp [requirementMatches, hop] at h
    | some v => exact .present hop
  · cases value with
    | none => exact .absent hop
    | some v => simp [requirementMatches, hop] at h
  · simp only [requirementMatches, hop] at h
    obtain ⟨x, y, n, m, rfl, hy, hx, hb, hlt⟩ :=
      (bothParsed_iff fun n m => decide (m < n)).mp h
    exact .greater hop (hvalid.values_of_head (.inl hop) hy) hx hb (of_decide_eq_true hlt)
  · simp only [requirementMatches, hop] at h
    obtain ⟨x, y, n, m, rfl, hy, hx, hb, hlt⟩ :=
      (bothParsed_iff fun n m => decide (n < m)).mp h
    exact .less hop (hvalid.values_of_head (.inr hop) hy) hx hb (of_decide_eq_true hlt)

theorem requirementMatches_iff (hvalid : ValidRequirement req) :
    ZfsEvacuation.requirementMatches req value = true ↔ Holds req value :=
  ⟨hvalid.holds, Holds.requirementMatches⟩

theorem ValidFieldRequirement.valid (h : ValidFieldRequirement req) : ValidRequirement req where
  operator := by
    have hop := h.operator
    simp only [List.mem_cons, List.not_mem_nil, or_false] at hop ⊢
    exact hop.imp_right .inl
  single _ := h.single

variable {term : NodeSelectorTerm} {node : Obj .node}

theorem termMatches_iff
    (hexprs : ∀ req ∈ term.matchExpressions.getD [], ValidRequirement req)
    (hfields : ∀ req ∈ term.matchFields.getD [], ValidFieldRequirement req) :
    termMatches term node = true ↔ TermHolds term node := by
  have hfield : ∀ req : NodeSelectorRequirement,
      (if req.key == "metadata.name" then some node.name else none) = fieldOf node req.key :=
    fun req => by simp [fieldOf, Obj.name]
  simp only [termMatches, hfield]
  by_cases hempty : term.matchExpressions.getD [] = [] ∧ term.matchFields.getD [] = []
  · rw [if_pos (by simp [hempty])]
    constructor
    · intro h
      cases h
    · rintro ⟨hne | hne, -, -⟩
      · exact absurd hempty.1 hne
      · exact absurd hempty.2 hne
  · rw [if_neg (by simpa using hempty), Bool.and_eq_true, List.all_eq_true, List.all_eq_true]
    constructor
    · rintro ⟨he, hf⟩
      refine ⟨not_and_or.mp hempty, fun req hreq => ?_, fun req hreq => ?_⟩
      · exact (requirementMatches_iff (hexprs req hreq)).mp (he req hreq)
      · exact (requirementMatches_iff (hfields req hreq).valid).mp (hf req hreq)
    · rintro ⟨-, he, hf⟩
      exact ⟨fun req hreq => (requirementMatches_iff (hexprs req hreq)).mpr (he req hreq),
        fun req hreq => (requirementMatches_iff (hfields req hreq).valid).mpr (hf req hreq)⟩

/-! ## Taints -/

/-- The empty key, which only comes with Exists, and the empty effect are no keys of their own. -/
theorem tolerates_iff {tol : Toleration} (hvalid : ValidToleration tol) (taint : Taint) :
    tolerates tol taint = true ↔ Tolerated tol taint := by
  have hparts : Tolerated tol taint ↔
      ((tol.key.getD "" = "" ∨ tol.key = some taint.key) ∧
        (tol.effect.getD "" = "" ∨ tol.effect = some taint.effect)) ∧
      (tol.operator = some "Exists" ∨ (tol.operator.getD "" = "" ∨ tol.operator = some "Equal") ∧
        tol.value.getD "" = taint.value.getD "") :=
    ⟨fun h => ⟨⟨h.key, h.effect⟩, h.value⟩, fun h => ⟨h.1.2, h.1.1, h.2⟩⟩
  have hop := hvalid.operator
  have hempty := hvalid.emptyKey
  simp only [List.mem_cons, List.not_mem_nil, or_false] at hop
  simp only [hparts, tolerates, Bool.and_eq_true]
  refine and_congr (and_congr ?_ ?_) ?_
  · cases hk : tol.key with
    | none => simp [hempty (by simp [hk])]
    | some k =>
      by_cases hk' : k = ""
      · subst hk'
        simp [hempty (by simp [hk])]
      · simp [hk']
  · cases he : tol.effect with
    | none => simp
    | some e =>
      by_cases he' : e = ""
      · subst he'
        simp
      · simp [he']
  · rcases hop with hop | hop | hop | hop <;> simp [hop]

/-! ## The filters agree -/

variable {pod : Obj .pod}

theorem selector_iff (labels selector : StrMap) :
    (selector.any fun kv => labels.get kv.1 != some kv.2) = false ↔
      ∀ kv ∈ selector, labels.get kv.1 = some kv.2 := by
  simp

theorem terms_iff (hvalid : ValidPod pod.data) (node : Obj .node) :
    (Placement.fromPod pod).terms = [] ∨
        (Placement.fromPod pod).terms.any (termMatches · node) = true ↔
      ∀ terms, requiredTerms pod.data = some terms → ∃ term ∈ terms, TermHolds term node := by
  have hterms : (Placement.fromPod pod).terms = (requiredTerms pod.data).getD [] := rfl
  cases hreq : requiredTerms pod.data with
  | none => simp [hterms, hreq]
  | some terms =>
    have hmatches : ∀ term ∈ terms, (termMatches term node = true ↔ TermHolds term node) :=
      fun term hmem => termMatches_iff (hvalid.expressions terms hreq term hmem)
        (hvalid.fields terms hreq term hmem)
    rw [hterms, hreq, Option.getD_some, List.any_eq_true]
    constructor
    · rintro (hnil | ⟨term, hmem, hmatch⟩) terms' hterms'
      · exact absurd hnil (hvalid.terms terms hreq)
      · obtain rfl := Option.some.inj hterms'
        exact ⟨term, hmem, (hmatches term hmem).mp hmatch⟩
    · intro h
      obtain ⟨term, hmem, hholds⟩ := h terms rfl
      exact .inr ⟨term, hmem, (hmatches term hmem).mpr hholds⟩

theorem taints_iff (hvalid : ValidPod pod.data) (taints : List Taint) :
    ((taints.filter fun t => t.effect == "NoSchedule" || t.effect == "NoExecute").all
      fun t => (Placement.fromPod pod).tolerations.any (tolerates · t)) = true ↔
    ∀ taint ∈ taints, taint.effect = "NoSchedule" ∨ taint.effect = "NoExecute" →
      ∃ tol ∈ (pod.data : Pod).tolerations, Tolerated tol taint := by
  simp only [List.all_eq_true, List.mem_filter, Bool.or_eq_true, beq_iff_eq, and_imp,
    List.any_eq_true]
  constructor
  · intro h taint hmem heffect
    obtain ⟨tol, htol, hmatch⟩ := h taint hmem heffect
    exact ⟨tol, htol, (tolerates_iff (hvalid.tolerations tol htol) taint).mp hmatch⟩
  · intro h taint hmem heffect
    obtain ⟨tol, htol, hholds⟩ := h taint hmem heffect
    exact ⟨tol, htol, (tolerates_iff (hvalid.tolerations tol htol) taint).mpr hholds⟩

theorem admits_eq_true_iff {p : Placement} {node : Obj .node} : p.admits node = true ↔
    (p.nodeSelector.any fun kv => node.metadata.labels.get kv.1 != some kv.2) = false ∧
      (p.terms = [] ∨ p.terms.any (termMatches · node) = true) ∧
      (((node.data : Node).taints.filter fun t =>
          t.effect == "NoSchedule" || t.effect == "NoExecute").all
        fun t => p.tolerations.any (tolerates · t)) = true := by
  unfold Placement.admits
  simp only
  split_ifs with hselector hterms
  · simp [hselector]
  · have hnone : ¬ (p.terms = [] ∨ p.terms.any (termMatches · node) = true) := by
      simpa using hterms
    simp only [hnone, false_and, and_false]
  · have hsome : p.terms = [] ∨ p.terms.any (termMatches · node) = true := by
      by_contra hnone
      exact hterms (by simpa using hnone)
    simp only [Bool.not_eq_true] at hselector
    simp only [hselector, hsome, true_and]

theorem admits_iff (pod : Obj .pod) (node : Obj .node) (hvalid : ValidPod pod.data) :
    (Placement.fromPod pod).admits node = true ↔
      NodeAffinityPasses pod.data node ∧ TaintTolerationPasses pod.data node.data := by
  have hselector := selector_iff node.metadata.labels (Placement.fromPod pod).nodeSelector
  rw [admits_eq_true_iff, hselector, terms_iff hvalid node, taints_iff hvalid]
  constructor
  · rintro ⟨hlabels, hrequired, htaints⟩
    exact ⟨⟨hlabels, hrequired⟩, htaints⟩
  · rintro ⟨⟨hlabels, hrequired⟩, htaints⟩
    exact ⟨hlabels, hrequired, htaints⟩

/-- A database pod that wants a disk zone and a newer generation, and tolerates its own taint. -/
def dbPod : Obj .pod where
  metadata := { ns := "db", name := "mysql-0" }
  data := ({
    affinity := some { nodeAffinity := some { required := some [
      { matchExpressions := some
          [{ key := "zone", operator := "In", values := some ["a", "b"] },
           { key := "generation", operator := "Gt", values := some ["2"] }] }] } }
    tolerations := [{ key := some "db", operator := some "Equal", value := some "mysql" }] } : Pod)

def dbNode : Obj .node where
  metadata := { name := "node-a", labels := [("zone", "a"), ("generation", "3")] }
  data := ({ taints := [{ key := "db", value := some "mysql", effect := "NoSchedule" }] } : Node)

theorem validPod_dbPod : ValidPod dbPod.data := by
  constructor
  · intro terms h
    obtain rfl := Option.some.inj h
    simp
  · intro terms h term hmem req hreq
    obtain rfl := Option.some.inj h
    obtain rfl := List.mem_singleton.mp hmem
    simp only [Option.getD_some, List.mem_cons, List.not_mem_nil, or_false] at hreq
    rcases hreq with rfl | rfl
    · exact ⟨by simp, by simp⟩
    · exact ⟨by simp, by simp⟩
  · intro terms h term hmem req hreq
    obtain rfl := Option.some.inj h
    obtain rfl := List.mem_singleton.mp hmem
    cases hreq
  · intro tol hmem
    obtain rfl := List.mem_singleton.mp hmem
    exact ⟨by simp, by simp⟩

theorem admits_iff_dbPod : NodeAffinityPasses dbPod.data dbNode ∧
    TaintTolerationPasses dbPod.data dbNode.data :=
  (admits_iff dbPod dbNode validPod_dbPod).mp (by decide)

end Scheduler

end ZfsEvacuation
