import Mathlib.Tactic.Common

/-!
# Role-based access

Rules grant verbs on resources, roles are lists of rules, and bindings give roles to subjects:
cluster-wide, or in the namespace of the binding. What no rule grants is denied.
-/
namespace ZfsEvacuation.Access

/-- The namespace is left out for resources without one and for requests over all of them. -/
structure Request where
  verb : String
  group : String
  resource : String
  ns : Option String := none

structure PolicyRule where
  apiGroups : List String
  resources : List String
  verbs : List String

/-- The namespace is left out for a role of the whole cluster. -/
structure Role where
  ns : Option String := none
  name : String
  rules : List PolicyRule

/-- The namespace is left out for a binding that counts everywhere. -/
structure Binding where
  ns : Option String := none
  role : Option String × String
  subjects : List (String × String)

structure Policy where
  roles : List Role
  bindings : List Binding

def covers (granted : List String) (asked : String) : Bool :=
  granted.contains "*" || granted.contains asked

def PolicyRule.allows (r : PolicyRule) (q : Request) : Bool :=
  covers r.apiGroups q.group && covers r.resources q.resource && covers r.verbs q.verb

def Role.allows (r : Role) (q : Request) : Bool := r.rules.any (·.allows q)

/-- A binding in a namespace counts for requests in this namespace only. -/
def Binding.reaches (b : Binding) (q : Request) : Bool :=
  match b.ns with
  | none => true
  | some ns => q.ns == some ns

def Binding.grants (b : Binding) (roles : List Role) (subject : String × String) (q : Request) :
    Bool :=
  b.subjects.contains subject && b.reaches q &&
    roles.any fun r => (r.ns, r.name) == b.role && r.allows q

def Policy.authorizes (p : Policy) (subject : String × String) (q : Request) : Bool :=
  p.bindings.any fun b => b.grants p.roles subject q

theorem authorizes_iff {p : Policy} {subject : String × String} {q : Request} :
    p.authorizes subject q = true ↔ ∃ b ∈ p.bindings, subject ∈ b.subjects ∧ b.reaches q = true ∧
      ∃ r ∈ p.roles, (r.ns, r.name) = b.role ∧ r.allows q = true := by
  simp [Policy.authorizes, Binding.grants, and_assoc]

/-- A binding that counts everywhere needs no namespace. -/
theorem authorizes_of_cluster {p : Policy} {b : Binding} {r : Role} {subject : String × String}
    {q : Request} (hb : b ∈ p.bindings) (hns : b.ns = none) (hs : subject ∈ b.subjects)
    (hr : r ∈ p.roles) (href : (r.ns, r.name) = b.role) (hallows : r.allows q = true) :
    p.authorizes subject q = true :=
  authorizes_iff.mpr ⟨b, hb, hs, by simp [Binding.reaches, hns], r, hr, href, hallows⟩

theorem authorizes_of_namespaced {p : Policy} {b : Binding} {r : Role}
    {subject : String × String} {q : Request} (hb : b ∈ p.bindings) (hns : q.ns = b.ns)
    (hs : subject ∈ b.subjects) (hr : r ∈ p.roles) (href : (r.ns, r.name) = b.role)
    (hallows : r.allows q = true) : p.authorizes subject q = true := by
  refine authorizes_iff.mpr ⟨b, hb, hs, ?_, r, hr, href, hallows⟩
  unfold Binding.reaches
  cases hb : b.ns with
  | none => rfl
  | some ns => simp [hns, hb]

end ZfsEvacuation.Access
