import ZfsEvacuation.RelayPeers

/-!
# The networks of the relay's peers

A network contains the addresses of its family that agree with it on the leading bits, whatever
bits its own address has behind them.
-/
namespace ZfsEvacuation

/-- Two words agree under the mask of their leading bits when these are the same. -/
theorem and_prefixMask_eq_iff {width prefixLength : Nat} (hp : prefixLength ≤ width)
    (a b : BitVec width) :
    a &&& prefixMask width prefixLength = b &&& prefixMask width prefixLength ↔
      ∀ i < prefixLength, a.getMsbD i = b.getMsbD i := by
  have hmask : ∀ i < width,
      (prefixMask width prefixLength).getMsbD i = decide (i < prefixLength) := by
    intro i hi
    unfold prefixMask
    split_ifs with hzero
    · simp [hzero]
    · have hshift : i + (width - prefixLength) < width ↔ i < prefixLength := by omega
      rw [BitVec.getMsbD_shiftLeft, BitVec.getMsbD_allOnes, decide_eq_decide]
      exact hshift
  constructor
  · intro h i hi
    have hbit := congrArg (fun x => x.getMsbD i) h
    simpa [hmask i (by omega), hi] using hbit
  · intro h
    refine BitVec.eq_of_getMsbD_eq fun i hi => ?_
    by_cases hlt : i < prefixLength
    · simp [hmask i hi, hlt, h i hlt]
    · simp [hmask i hi, hlt]

/-- Both addresses are of one family and have the same bits up to the prefix length. -/
def IpNet.Agree (net : IpNet) (ip : IpAddr) : Prop :=
  match net.addr, ip with
  | .v4 a, .v4 b => ∀ i < net.prefixLength, a.getMsbD i = b.getMsbD i
  | .v6 a, .v6 b => ∀ i < net.prefixLength, a.getMsbD i = b.getMsbD i
  | _, _ => False

/-- The mask as the checked arithmetic of the source computes it: the subtraction must not
underflow, and the shift amount must stay below the width. -/
def checkedMask (width prefixLength : Nat) : Option (BitVec width) :=
  if prefixLength = 0 then some 0
  else if prefixLength ≤ width ∧ width - prefixLength < width then
    some (BitVec.allOnes width <<< (width - prefixLength))
  else none

theorem checkedMask_eq {width prefixLength : Nat} (hp : prefixLength ≤ width) :
    checkedMask width prefixLength = some (prefixMask width prefixLength) := by
  unfold checkedMask prefixMask
  split_ifs with hzero hshift
  · rfl
  · rfl
  · omega

/-- A network that the relay is given. -/
def IpNet.Produced (net : IpNet) : Prop :=
  (∃ addr, net = IpNet.host addr) ∨ ∃ s, parseCidr s = some net

theorem IpNet.Produced.prefix_le {net : IpNet} (h : net.Produced) :
    net.prefixLength ≤ net.addr.bits := by
  rcases h with ⟨addr, rfl⟩ | ⟨s, hs⟩
  · exact Nat.le_refl _
  · simp only [parseCidr] at hs
    split at hs
    · cases hs
    · obtain ⟨addr, -, hlen⟩ := Option.bind_eq_some_iff.mp hs
      obtain ⟨length, -, hnet⟩ := Option.bind_eq_some_iff.mp hlen
      split_ifs at hnet with hle
      obtain rfl := Option.some.inj hnet
      exact hle

theorem IpNet.contains_iff {net : IpNet} (h : net.prefixLength ≤ net.addr.bits) (ip : IpAddr) :
    net.contains ip = true ↔ net.Agree ip := by
  obtain ⟨addr, length⟩ := net
  cases addr <;> cases ip <;> simp only [IpNet.contains, IpNet.Agree, beq_iff_eq,
    Bool.false_eq_true]
  · exact and_prefixMask_eq_iff h _ _
  · exact and_prefixMask_eq_iff h _ _

/-- For every network that is parsed or made for a host, and every peer: the peer is contained
exactly if it is of the same family and agrees on the leading bits, no shift reaches the width of
the word, and the network of a host contains that host only. -/
theorem peer_pinning_exact (net : IpNet) (ip : IpAddr) (h : net.Produced) :
    (net.contains ip = true ↔ net.Agree ip) ∧
    checkedMask net.addr.bits net.prefixLength = some (prefixMask net.addr.bits net.prefixLength) ∧
    ∀ addr, net = IpNet.host addr → (net.contains ip = true ↔ addr = ip) := by
  refine ⟨IpNet.contains_iff h.prefix_le ip, checkedMask_eq h.prefix_le, ?_⟩
  rintro addr rfl
  exact IpNet.host_contains addr ip

/-- The gateway of a pod network, whose own address has bits behind the prefix. -/
theorem peer_pinning_exact_gateway :
    (IpNet.mk (.v4 0x0a2a0107) 24).contains (.v4 0x0a2a0101) = true ↔
      (IpNet.mk (.v4 0x0a2a0107) 24).Agree (.v4 0x0a2a0101) :=
  (peer_pinning_exact (IpNet.mk (.v4 0x0a2a0107) 24) (.v4 0x0a2a0101)
    (.inr ⟨"10.42.1.7/24", by decide +kernel⟩)).1

end ZfsEvacuation
