import OpenOJ.Application.Control
import OpenOJ.Foundation.Outcome
import Mathlib.Data.List.Nodup

/-!
# Which nodes may judge what

The deployment's allowlist of judge nodes (`NodePolicy`). A node that is not listed is denied, and a
listed one may declare no capability that the list does not give it. A policy has one entry for each
node, with between one and 64 distinct capabilities (`ValidAllowlist`), which are fields of the
structure.

* `NodePolicy.new_eq_ok`: a policy is made of a list of entries exactly when they are valid and no
  node is listed twice;
* `NodePolicy.authorize_eq_ok`: a node may declare some capabilities exactly when they are not none,
  each of them is named once, and all are listed for it (`NodePolicy.Allows`);
* `NodePolicy.authorizeIdentity_eq_ok`: a node is known exactly when it is listed;
* `NodePolicy.Allows.subset`: who may declare some capabilities may do with fewer.

There is no default for a node that is not listed, and the order of the entries plays no part.
-/

namespace OpenOJ

open Outcome

inductive NodePolicyError where
  | invalidRenewSchedule
  | duplicateNode
  | invalidCapabilities
  | identityDenied
  | capabilityDenied
  deriving DecidableEq, Repr

/-- A capability set a policy may list for a node. -/
def ValidAllowlist (capabilities : List Capability) : Prop :=
  capabilities ≠ [] ∧ capabilities.length ≤ 64 ∧ capabilities.Nodup

instance (capabilities : List Capability) : Decidable (ValidAllowlist capabilities) :=
  inferInstanceAs (Decidable (_ ∧ _ ∧ _))

/-- A default-deny allowlist: at most one capability set for each node. -/
structure NodePolicy where
  allowed : List (NodeId × List Capability)
  nodup : (allowed.map Prod.fst).Nodup
  valid : ∀ entry ∈ allowed, ValidAllowlist entry.2

namespace NodePolicy

/-- One iteration of `NodePolicy::new`. -/
def add (policy : NodePolicy) (entry : NodeId × List Capability) :
    Except NodePolicyError NodePolicy :=
  if hvalid : ValidAllowlist entry.2 then
    if hnew : entry.1 ∉ policy.allowed.map Prod.fst then
      .ok ⟨entry :: policy.allowed, List.nodup_cons.mpr ⟨hnew, policy.nodup⟩,
        List.forall_mem_cons.mpr ⟨hvalid, policy.valid⟩⟩
    else .error .duplicateNode
  else .error .invalidCapabilities

/-- `NodePolicy::new`. -/
def new (nodes : List (NodeId × List Capability)) : Except NodePolicyError NodePolicy :=
  nodes.foldlM add ⟨[], List.nodup_nil, fun _ h => absurd h List.not_mem_nil⟩

/-- The capability set listed for a node. -/
def allowlist (policy : NodePolicy) (nodeId : NodeId) : Option (List Capability) :=
  (policy.allowed.find? fun entry => entry.1 = nodeId).map Prod.snd

/-- `NodePolicy::authorize`. -/
def authorize (policy : NodePolicy) (nodeId : NodeId) (declared : List Capability) :
    Except NodePolicyError Unit := do
  let allowed ← orRefuse .identityDenied (policy.allowlist nodeId)
  refuseIf (declared = []) .capabilityDenied
  refuseIf (¬declared.Nodup ∨ ¬declared ⊆ allowed) .capabilityDenied

private theorem eq_of_allowed {policy next : NodePolicy} (h : policy.allowed = next.allowed) :
    policy = next := by
  cases policy
  cases next
  obtain rfl : _ = _ := h
  rfl

/-- An entry is added exactly when a policy may list it before the others. -/
private theorem add_eq_ok {policy next : NodePolicy} {entry : NodeId × List Capability} :
    policy.add entry = .ok next ↔ next.allowed = entry :: policy.allowed := by
  unfold add
  constructor
  · intro h
    split_ifs at h
    exact Except.ok.inj h ▸ rfl
  · intro h
    have hvalid : ValidAllowlist entry.2 := next.valid entry (h ▸ List.mem_cons_self)
    have hnew : entry.1 ∉ policy.allowed.map Prod.fst := by
      have hnodup := next.nodup
      rw [h, List.map_cons] at hnodup
      exact (List.nodup_cons.mp hnodup).1
    rw [dif_pos hvalid, dif_pos hnew]
    exact congrArg Except.ok (eq_of_allowed h.symm)

/-- Adding entries one by one leaves them all listed, the last one first. -/
private theorem foldlM_add_eq_ok {nodes : List (NodeId × List Capability)}
    {policy next : NodePolicy} :
    nodes.foldlM add policy = .ok next ↔ next.allowed = nodes.reverse ++ policy.allowed := by
  induction nodes generalizing policy with
  | nil => exact ⟨fun h => Except.ok.inj h ▸ rfl, fun h => congrArg _ (eq_of_allowed h.symm)⟩
  | cons entry nodes ih =>
    rw [List.foldlM_cons, bind_eq_ok, List.reverse_cons, List.append_assoc, List.singleton_append]
    constructor
    · rintro ⟨mid, hadd, hrest⟩
      rw [ih.mp hrest, add_eq_ok.mp hadd]
    · intro h
      -- what the last policy lists, the ones on the way may list
      have hsuffix : entry :: policy.allowed <:+ next.allowed := ⟨nodes.reverse, h.symm⟩
      let mid : NodePolicy := ⟨entry :: policy.allowed,
        next.nodup.sublist (hsuffix.sublist.map Prod.fst),
        fun e he => next.valid e (hsuffix.subset he)⟩
      exact ⟨mid, add_eq_ok.mpr rfl, ih.mpr h⟩

/-- `NodePolicy::new` lists what it was given, or refuses. -/
theorem new_eq_ok {nodes : List (NodeId × List Capability)} {policy : NodePolicy} :
    new nodes = .ok policy ↔ policy.allowed = nodes.reverse := by
  rw [new, foldlM_add_eq_ok, List.append_nil]

theorem allowlist_eq_some {policy : NodePolicy} {nodeId : NodeId} {capabilities : List Capability} :
    policy.allowlist nodeId = some capabilities ↔ (nodeId, capabilities) ∈ policy.allowed := by
  unfold allowlist
  rw [Option.map_eq_some_iff]
  constructor
  · rintro ⟨⟨node, _⟩, hfind, rfl⟩
    have hnode := List.find?_some hfind
    obtain rfl : node = nodeId := of_decide_eq_true hnode
    exact List.mem_of_find?_eq_some hfind
  · intro hmem
    obtain ⟨entry, hfind⟩ : ∃ entry, (policy.allowed.find? fun e => e.1 = nodeId) = some entry := by
      rw [← Option.isSome_iff_exists, List.find?_isSome]
      exact ⟨_, hmem, decide_eq_true rfl⟩
    have hnode := List.find?_some hfind
    have hentry : entry = (nodeId, capabilities) :=
      List.inj_on_of_nodup_map policy.nodup (List.mem_of_find?_eq_some hfind) hmem
        (of_decide_eq_true hnode)
    exact ⟨entry, hfind, by rw [hentry]⟩

/-- Every capability of the list is in the node's allowlist. -/
def Allows (policy : NodePolicy) (nodeId : NodeId) (capabilities : List Capability) : Prop :=
  ∃ allowed, policy.allowlist nodeId = some allowed ∧ capabilities ⊆ allowed

/-- A node may declare a set of capabilities that is not empty and within its allowlist. -/
theorem authorize_eq_ok {policy : NodePolicy} {nodeId : NodeId} {declared : List Capability}
    {u : Unit} : policy.authorize nodeId declared = .ok u ↔
      policy.Allows nodeId declared ∧ declared ≠ [] ∧ declared.Nodup := by
  simp only [authorize, bind_eq_ok, orRefuse_eq_ok, refuseIf_eq_ok, exists_const, not_or,
    not_not, Allows]
  constructor
  · rintro ⟨allowed, hallowed, hne, hnodup, hsubset⟩
    exact ⟨⟨allowed, hallowed, hsubset⟩, hne, hnodup⟩
  · rintro ⟨⟨allowed, hallowed, hsubset⟩, hne, hnodup⟩
    exact ⟨allowed, hallowed, hne, hnodup, hsubset⟩

/-- `authorize_identity`. -/
def authorizeIdentity (policy : NodePolicy) (nodeId : NodeId) : Except NodePolicyError Unit :=
  refuseIf ((policy.allowlist nodeId).isNone) .identityDenied

/-- The nodes of the policy are known to it. -/
theorem authorizeIdentity_eq_ok {policy : NodePolicy} {nodeId : NodeId} {u : Unit} :
    policy.authorizeIdentity nodeId = .ok u ↔ (policy.allowlist nodeId).isSome := by
  rw [authorizeIdentity, refuseIf_eq_ok, Option.isNone_iff_eq_none, Option.isSome_iff_ne_none]

theorem Allows.subset {policy : NodePolicy} {nodeId : NodeId} {declared required : List Capability}
    (h : policy.Allows nodeId declared) (hsubset : required ⊆ declared) :
    policy.Allows nodeId required := by
  obtain ⟨allowed, hallowed, hdeclared⟩ := h
  exact ⟨allowed, hallowed, fun _ hc => hdeclared (hsubset hc)⟩

end NodePolicy
end OpenOJ
