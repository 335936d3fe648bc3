import ZfsEvacuation.ControllerBase

/-!
# Placement constraints of a consumer

The part of pod placement a target selection can honour without the scheduler: node
selector, required node affinity, and tolerations against hard taints.
-/
namespace ZfsEvacuation

structure Placement where
  nodeSelector : StrMap
  /-- Required terms, any of which suffices. -/
  terms : List NodeSelectorTerm
  tolerations : List Toleration

def parseI64 (text : String) : Option Int :=
  match text.toList with
  | '-' :: rest =>
    if rest.head? = some '+' then none
    else (parseUnsigned (2 ^ 63) rest).map fun n => -(n : Int)
  | s => (parseUnsigned (2 ^ 63 - 1) s).map fun n => (n : Int)

def requirementMatches (req : NodeSelectorRequirement) (value : Option String) : Bool :=
  let values := req.values.getD []
  match req.operator with
  | "In" => value.any fun v => values.contains v
  | "NotIn" => !value.any fun v => values.contains v
  | "Exists" => value.isSome
  | "DoesNotExist" => value.isNone
  | "Gt" =>
    match value.bind parseI64, values.head?.bind parseI64 with
    | some v, some bound => bound < v
    | _, _ => false
  | "Lt" =>
    match value.bind parseI64, values.head?.bind parseI64 with
    | some v, some bound => v < bound
    | _, _ => false
  -- An unknown operator cannot exclude a node; the scheduler has the last word anyway.
  | _ => true

/-- A term matches when every expression does; an empty one matches nothing. -/
def termMatches (term : NodeSelectorTerm) (node : Obj .node) : Bool :=
  let exprs := term.matchExpressions.getD []
  let fields := term.matchFields.getD []
  if exprs.isEmpty && fields.isEmpty then false
  else
    exprs.all (fun e => requirementMatches e (node.metadata.labels.get e.key)) &&
      fields.all fun f =>
        requirementMatches f (if f.key == "metadata.name" then some node.name else none)

/-- The scheduler's toleration semantics: an empty key (with `Exists`) tolerates every
taint, an empty effect every effect, and `Equal` compares values. -/
def tolerates (tol : Toleration) (taint : Taint) : Bool :=
  let keyOk := match tol.key with
    | none | some "" => tol.operator == some "Exists"
    | some k => k == taint.key
  let effectOk := match tol.effect with
    | none | some "" => true
    | some e => e == taint.effect
  let valueOk := match tol.operator with
    | some "Exists" => true
    | _ => tol.value.getD "" == taint.value.getD ""
  keyOk && effectOk && valueOk

namespace Placement

def fromPod (pod : Obj .pod) : Placement :=
  let data : Pod := pod.data
  { nodeSelector := data.nodeSelector
    terms := ((data.affinity.bind (·.nodeAffinity)).bind (·.required)).getD []
    tolerations := data.tolerations }

/-- Would the scheduler consider this node for the pod, as far as labels, fields and
taints go? -/
def admits (p : Placement) (node : Obj .node) : Bool :=
  let data : Node := node.data
  if p.nodeSelector.any fun kv => node.metadata.labels.get kv.1 != some kv.2 then false
  else if !p.terms.isEmpty && !p.terms.any (termMatches · node) then false
  else (data.taints.filter fun t => t.effect == "NoSchedule" || t.effect == "NoExecute").all
    fun t => p.tolerations.any (tolerates · t)

end Placement

end ZfsEvacuation
