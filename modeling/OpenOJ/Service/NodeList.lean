import OpenOJ.Application.NodePolicy
import OpenOJ.Foundation.Words
import OpenOJ.Protocol.Patterns

/-!
# The list of nodes a deployment is configured with

`parseNodePolicy` reads a node policy from one line, `node:cap,cap;node:cap`. A node's identifier
may itself hold colons, and an entry is taken apart at its first one: what follows it in the
identifier is then read as part of the first capability. So the line is read as it was written
exactly when no identifier holds a colon, unless what is left is refused.

`writeNodePolicy` writes a list of entries as such a line, and `NodePolicy.Grants` says that a
policy grants what the entries list. What an entry is taken apart into when its identifier holds a
colon is `takenApart`, and `TakenForPolicy` is the condition that the parts make a policy.

* `splitOnce_writeNodeEntry`: an entry that was written is taken apart at its first colon;
* `parseNodeEntry_write`, `parseNodePolicy_write`: what is read of an entry, and of the whole line;
* `grants_of_noColon`, `not_grants_of_colon`: the two sides of the condition;
* `parseNodePolicy_grants_iff`: policies are read as written exactly when no identifier holds a
  colon, or the line is refused.

`colonNode` is the entry of a node whose capability is then given to another one (`misreadNode`).
-/

namespace OpenOJ

open Outcome Text

/-! ### Reading and writing -/

/-- One entry of `parse_node_policy`. -/
def parseNodeEntry (entry : List Char) : Except String (NodeId × List Capability) := do
  let (node, capabilities) ← orRefuse "node policy invalid" (splitOnce ':' entry)
  let node ← reportAs "node policy invalid" (OpaqueId.parse "node_id" (String.ofList node))
  let capabilities ← (capabilities.splitOn ',').mapM fun capability =>
    reportAs "node policy invalid" (Capability.parse (String.ofList capability))
  return (node, capabilities)

/-- `parse_node_policy`. -/
def parseNodePolicy (value : String) : Except String NodePolicy := do
  let nodes ← (value.toList.splitOn ';').mapM parseNodeEntry
  reportAs "node policy invalid" (NodePolicy.new nodes)

/-- An entry of the list as it is written: `node:cap,cap`. -/
def writeNodeEntry (entry : NodeId × List Capability) : List Char :=
  entry.1.value.toList ++ ':' :: [','].intercalate (entry.2.map (·.value.toList))

/-- The list of nodes as it is written: `node:cap,cap;node:cap`. -/
def writeNodePolicy (entries : List (NodeId × List Capability)) : String :=
  String.ofList ([';'].intercalate (entries.map writeNodeEntry))

/-- The policy grants each listed node its own capabilities, and nothing to any other. -/
def NodePolicy.Grants (policy : NodePolicy) (entries : List (NodeId × List Capability)) : Prop :=
  ∀ nodeId declared, policy.authorize nodeId declared = .ok () ↔
    ∃ capabilities, (nodeId, capabilities) ∈ entries ∧ declared ≠ [] ∧ declared.Nodup ∧
      declared ⊆ capabilities

/-- The texts that an entry is taken apart into, at the first colon of what was written. -/
def takenApart (entry : NodeId × List Capability) : List Char × List (List Char) :=
  match splitOnce ':' entry.1.value.toList, entry.2.map (·.value.toList) with
  | some (before, after), capability :: capabilities =>
    (before, (after ++ ':' :: capability) :: capabilities)
  | _, capabilities => (entry.1.value.toList, capabilities)

/-- What the entries are taken apart into makes a policy. -/
structure TakenForPolicy (entries : List (NodeId × List Capability)) : Prop where
  distinct : (entries.map fun entry => (takenApart entry).1).Nodup
  parsed : ∀ entry ∈ entries, ∀ text ∈ (takenApart entry).2,
    ∃ capability, Capability.parse (String.ofList text) = .ok capability
  nodup : ∀ entry ∈ entries, (takenApart entry).2.Nodup

/-! ### Identifiers and separators -/

theorem Capability.parse_eq_ok {value : String} {capability : Capability} :
    Capability.parse value = .ok capability ↔ capability.value = value :=
  ⟨Capability.value_of_parse, fun h => h ▸ capability.parse_value⟩

/-- A character that no identifier holds. -/
theorem OpaqueId.not_mem {field : String} (id : OpaqueId field) {c : Char} (hascii : c.toNat < 128)
    (hclass : (isAsciiAlphanumeric (UInt8.ofNat c.toNat) || isSeparator (UInt8.ofNat c.toNat)) =
      false) : c ∉ id.value.toList := by
  intro hc
  obtain ⟨first, rest, hbytes, -, hfirst, hrest⟩ := validateOpaque_eq_ok.mp id.valid
  have hmem := ofNat_mem_bytes hc hascii
  rw [hbytes, List.mem_cons] at hmem
  rcases hmem with heq | hmem
  · rw [heq, hfirst, Bool.true_or] at hclass
    cases hclass
  · rw [hrest _ hmem] at hclass
    cases hclass

/-- A character that no capability holds. -/
theorem Capability.not_mem (capability : Capability) {c : Char} (hascii : c.toNat < 128)
    (hclass : (Schema.isLowerAlphanumeric (UInt8.ofNat c.toNat) ||
      isSeparator (UInt8.ofNat c.toNat)) = false) : c ∉ capability.value.toList := by
  intro hc
  obtain ⟨-, first, rest, hbytes, hfirst, hrest⟩ := validateLowerToken_eq_ok.mp capability.valid
  have hmem := ofNat_mem_bytes hc hascii
  rw [hbytes, List.mem_cons] at hmem
  rcases hmem with heq | hmem
  · rw [heq, Schema.isLowerAlphanumeric, hfirst, Bool.true_or, Bool.true_or] at hclass
    cases hclass
  · rw [Regex.mem_of_scanSegments hrest _ hmem] at hclass
    cases hclass

/-- What stands before a colon of an identifier is an identifier. -/
theorem OpaqueId.exists_before {field : String} (id : OpaqueId field) {before after : List Char}
    (h : id.value.toList = before ++ ':' :: after) :
    ∃ id' : OpaqueId field, id'.value.toList = before := by
  obtain ⟨first, rest, hbytes, hlength, hfirst, hrest⟩ := validateOpaque_eq_ok.mp id.valid
  have hsplit : bytes id.value = utf8 before ++ utf8 (':' :: after) := by
    rw [bytes, h, utf8_append]
  rw [hsplit] at hbytes hlength
  cases hbefore : utf8 before with
  | nil =>
    -- an identifier does not begin with a colon
    rw [hbefore, List.nil_append] at hbytes
    obtain rfl : (58 : UInt8) = first := (List.cons.inj hbytes).1
    exact absurd hfirst (by decide)
  | cons b bs =>
    rw [hbefore] at hbytes hlength
    obtain ⟨rfl, rfl⟩ := List.cons.inj hbytes
    rw [List.length_append] at hlength
    refine ⟨⟨String.ofList before, validateOpaque_eq_ok.mpr ⟨b, bs, ?_, ?_, hfirst, ?_⟩⟩, ?_⟩
    · rw [bytes, String.toList_ofList, hbefore]
    · rw [bytes, String.toList_ofList, hbefore]
      omega
    · exact fun c hc => hrest c (List.mem_append_left _ hc)
    · exact String.toList_ofList

/-! ### Taking entries apart -/

/-- What is before the first colon holds none. -/
theorem colon_not_mem_takenApart {entry : NodeId × List Capability} (h : entry.2 ≠ []) :
    ':' ∉ (takenApart entry).1 := by
  obtain ⟨node, capabilities⟩ := entry
  obtain ⟨capability, capabilities, rfl⟩ := List.exists_cons_of_ne_nil h
  by_cases hcolon : ':' ∈ node.value.toList
  · obtain ⟨before, after, hnode, hbefore⟩ := List.eq_append_cons_of_mem hcolon
    rw [takenApart, hnode, splitOnce_append hbefore]
    exact hbefore
  · have hnone : splitOnce ':' node.value.toList = none := splitOnce_eq_none hcolon
    rw [takenApart, hnone]
    exact hcolon

/-- **An entry** that was written is taken apart at its first colon. -/
theorem splitOnce_writeNodeEntry {entry : NodeId × List Capability} (h : entry.2 ≠ []) :
    ∃ after, splitOnce ':' (writeNodeEntry entry) = some ((takenApart entry).1, after) ∧
      after.splitOn ',' = (takenApart entry).2 := by
  obtain ⟨node, capabilities⟩ := entry
  obtain ⟨capability, capabilities, rfl⟩ := List.exists_cons_of_ne_nil h
  have hcomma : ∀ text ∈ (capability :: capabilities).map (·.value.toList), ',' ∉ text := by
    intro text htext
    obtain ⟨c, -, rfl⟩ := List.mem_map.mp htext
    exact c.not_mem (by decide) (by decide)
  by_cases hcolon : ':' ∈ node.value.toList
  · obtain ⟨before, after, hnode, hbefore⟩ := List.eq_append_cons_of_mem hcolon
    have hafter : ',' ∉ after := by
      have hnone : ',' ∉ node.value.toList := node.not_mem (by decide) (by decide)
      rw [hnode, List.mem_append, List.mem_cons, not_or, not_or] at hnone
      exact hnone.2.2
    refine ⟨[','].intercalate ((after ++ ':' :: capability.value.toList) ::
      capabilities.map (·.value.toList)), ?_, ?_⟩
    · rw [writeNodeEntry, takenApart, hnode, splitOnce_append hbefore, List.append_assoc,
        List.cons_append, splitOnce_append hbefore]
      cases capabilities <;> simp [List.intercalate_cons_cons]
    · rw [List.splitOn_intercalate ',' _ (List.cons_ne_nil _ _), takenApart, hnode,
        splitOnce_append hbefore]
      · rfl
      · rw [List.map_cons, List.forall_mem_cons] at hcomma
        rw [List.forall_mem_cons, List.mem_append, List.mem_cons, not_or, not_or]
        exact ⟨⟨hafter, by decide, hcomma.1⟩, hcomma.2⟩
  · have hnone : splitOnce ':' node.value.toList = none := splitOnce_eq_none hcolon
    refine ⟨_, by rw [writeNodeEntry, takenApart, hnone, splitOnce_append hcolon], ?_⟩
    rw [List.splitOn_intercalate ',' hcomma (by simp), takenApart, hnone]

private theorem eq_ofList {s : String} {cs : List Char} : s = String.ofList cs ↔ s.toList = cs :=
  ⟨fun h => h ▸ String.toList_ofList, fun h => h ▸ String.ofList_toList.symm⟩

/-- The capabilities read from texts are those with these texts. -/
private theorem mapM_parse {texts : List (List Char)} {capabilities : List Capability} :
    (texts.mapM fun text =>
        reportAs "node policy invalid" (Capability.parse (String.ofList text))) =
      .ok capabilities ↔ capabilities.map (·.value.toList) = texts := by
  simp only [mapM_eq_ok, reportAs_eq_ok, Capability.parse_eq_ok, eq_ofList]
  constructor
  · intro h
    induction h with
    | nil => rfl
    | cons hread _ ih => rw [List.map_cons, hread, ih]
  · rintro rfl
    exact List.forall₂_map_left_iff.mpr (List.forall₂_same.mpr fun _ _ => rfl)

private theorem not_mem_intercalate {separator c : Char} (hc : c ≠ separator)
    {texts : List (List Char)} (h : ∀ text ∈ texts, c ∉ text) :
    c ∉ [separator].intercalate texts := by
  induction texts with
  | nil => simp
  | cons text texts ih =>
    rw [List.forall_mem_cons] at h
    cases texts with
    | nil => simpa using h.1
    | cons next texts =>
      rw [List.intercalate_cons_cons, List.mem_append, List.mem_append, List.mem_singleton]
      simpa [hc, h.1] using ih h.2

/-- What is read from the text of an entry. -/
def ReadsAs (entry read : NodeId × List Capability) : Prop :=
  read.1.value.toList = (takenApart entry).1 ∧
    read.2.map (·.value.toList) = (takenApart entry).2

instance (entry read : NodeId × List Capability) : Decidable (ReadsAs entry read) :=
  inferInstanceAs (Decidable (_ ∧ _))

/-- **Reading** what was written of an entry. -/
theorem parseNodeEntry_write {entry read : NodeId × List Capability} (h : entry.2 ≠ []) :
    parseNodeEntry (writeNodeEntry entry) = .ok read ↔ ReadsAs entry read := by
  obtain ⟨after, hsplit, hafter⟩ := splitOnce_writeNodeEntry h
  obtain ⟨node, capabilities⟩ := read
  rw [parseNodeEntry, hsplit, orRefuse_some, ok_bind]
  dsimp only
  simp only [bind_eq_ok, reportAs_eq_ok, OpaqueId.parse_eq_ok, eq_ofList, mapM_parse, hafter, pure,
    Except.pure, Except.ok.injEq, Prod.mk.injEq, ReadsAs]
  constructor
  · rintro ⟨_, hnode, _, hcapabilities, rfl, rfl⟩
    exact ⟨hnode, hcapabilities⟩
  · rintro ⟨hnode, hcapabilities⟩
    exact ⟨node, hnode, capabilities, hcapabilities, rfl, rfl⟩

/-- **The whole line** is read entry by entry. -/
theorem parseNodePolicy_write {entries : List (NodeId × List Capability)} {policy : NodePolicy}
    (hne : entries ≠ []) (h : ∀ entry ∈ entries, entry.2 ≠ []) :
    parseNodePolicy (writeNodePolicy entries) = .ok policy ↔
      ∃ nodes, List.Forall₂ ReadsAs entries nodes ∧ policy.allowed = nodes.reverse := by
  have hsemicolon : ∀ text ∈ entries.map writeNodeEntry, ';' ∉ text := by
    intro text htext
    obtain ⟨entry, hentry, rfl⟩ := List.mem_map.mp htext
    rw [writeNodeEntry, List.mem_append, List.mem_cons, not_or, not_or]
    refine ⟨entry.1.not_mem (by decide) (by decide), by decide, not_mem_intercalate (by decide) ?_⟩
    intro text htext
    obtain ⟨c, -, rfl⟩ := List.mem_map.mp htext
    exact c.not_mem (by decide) (by decide)
  have hsplit : (writeNodePolicy entries).toList.splitOn ';' = entries.map writeNodeEntry := by
    rw [writeNodePolicy, String.toList_ofList]
    exact List.splitOn_intercalate ';' hsemicolon (by simpa using hne)
  have hread {nodes : List (NodeId × List Capability)} :
      (entries.map writeNodeEntry).mapM parseNodeEntry = .ok nodes ↔
        List.Forall₂ ReadsAs entries nodes := by
    rw [mapM_eq_ok, List.forall₂_map_left_iff]
    constructor
    · exact fun hall => ((List.forall₂_and_left _ _).mpr ⟨h, hall⟩).imp fun _ _ hread =>
        (parseNodeEntry_write hread.1).mp hread.2
    · exact fun hall => ((List.forall₂_and_left _ _).mpr ⟨h, hall⟩).imp fun _ _ hread =>
        (parseNodeEntry_write hread.1).mpr hread.2
  simp only [parseNodePolicy, hsplit, bind_eq_ok, hread, reportAs_eq_ok, NodePolicy.new_eq_ok]

/-! ### Policies -/

section Entries

variable {entries : List (NodeId × List Capability)} {policy : NodePolicy}

/-- An empty list is refused. -/
private theorem ne_nil_of_parse (hparse : parseNodePolicy (writeNodePolicy entries) = .ok policy) :
    entries ≠ [] := by
  rintro rfl
  cases hparse

private theorem toList_injective {field : String} :
    Function.Injective fun id : OpaqueId field => id.value.toList :=
  fun _ _ h => OpaqueId.ext (String.toList_injective h)

private theorem capability_toList_injective :
    Function.Injective fun capability : Capability => capability.value.toList :=
  fun _ _ h => Capability.ext (String.toList_injective h)

private theorem map_takenApart {nodes : List (NodeId × List Capability)}
    (h : List.Forall₂ ReadsAs entries nodes) :
    (nodes.map Prod.fst).map (fun id => id.value.toList) =
      entries.map fun entry => (takenApart entry).1 := by
  induction h with
  | nil => rfl
  | cons hread _ ih => rw [List.map_cons, List.map_cons, List.map_cons, ih, hread.1]

private theorem length_takenApart (entry : NodeId × List Capability) :
    (takenApart entry).2.length = entry.2.length := by
  obtain ⟨node, capabilities⟩ := entry
  unfold takenApart
  split
  · rename_i hcapabilities
    simpa using (congrArg List.length hcapabilities).symm
  · exact List.length_map _

/-- What is before the first colon is an identifier. -/
private theorem exists_id_takenApart {entry : NodeId × List Capability} (h : entry.2 ≠ []) :
    ∃ node : NodeId, node.value.toList = (takenApart entry).1 := by
  obtain ⟨node, capabilities⟩ := entry
  obtain ⟨capability, capabilities, rfl⟩ := List.exists_cons_of_ne_nil h
  by_cases hcolon : ':' ∈ node.value.toList
  · obtain ⟨before, after, hnode, hbefore⟩ := List.eq_append_cons_of_mem hcolon
    obtain ⟨id, hid⟩ := node.exists_before hnode
    exact ⟨id, by rw [takenApart, hnode, splitOnce_append hbefore]; exact hid⟩
  · exact ⟨node, by rw [takenApart, splitOnce_eq_none hcolon]⟩

/-- A line that is accepted was taken apart into a policy. -/
theorem takenForPolicy_of_parse (h : ∀ entry ∈ entries, entry.2 ≠ [])
    (hparse : parseNodePolicy (writeNodePolicy entries) = .ok policy) : TakenForPolicy entries := by
  obtain ⟨nodes, hreads, hallowed⟩ := (parseNodePolicy_write (ne_nil_of_parse hparse) h).mp hparse
  have hnodup : (nodes.map Prod.fst).Nodup := by
    have hkeys := policy.nodup
    rwa [hallowed, List.map_reverse, List.nodup_reverse] at hkeys
  have hvalid : ∀ read ∈ nodes, read.2.Nodup := fun read hread =>
    (policy.valid read (hallowed ▸ List.mem_reverse.mpr hread)).2.2
  refine ⟨?_, fun entry hentry text htext => ?_, fun entry hentry => ?_⟩
  · rw [← map_takenApart hreads]
    exact hnodup.map toList_injective
  · obtain ⟨read, -, hread⟩ := exists_of_forall₂ hreads hentry
    rw [← hread.2] at htext
    obtain ⟨capability, -, rfl⟩ := List.mem_map.mp htext
    exact ⟨capability, Capability.parse_eq_ok.mpr (eq_ofList.mpr rfl)⟩
  · obtain ⟨read, hmem, hread⟩ := exists_of_forall₂ hreads hentry
    rw [← hread.2]
    exact (hvalid read hmem).map capability_toList_injective

/-- Texts that make a policy are accepted. -/
theorem exists_parse (hne : entries ≠ []) (h : ∀ entry ∈ entries, ValidAllowlist entry.2)
    (htaken : TakenForPolicy entries) :
    ∃ policy, parseNodePolicy (writeNodePolicy entries) = .ok policy := by
  have hread : ∀ entry ∈ entries, ∃ read, ReadsAs entry read := by
    intro entry hentry
    obtain ⟨node, hnode⟩ := exists_id_takenApart (h entry hentry).1
    obtain ⟨capabilities, hcapabilities⟩ := exists_forall₂ (htaken.parsed entry hentry)
    refine ⟨(node, capabilities), hnode, ?_⟩
    exact mapM_parse.mp (mapM_eq_ok.mpr (hcapabilities.imp fun _ _ => reportAs_eq_ok.mpr))
  obtain ⟨nodes, hreads⟩ := exists_forall₂ hread
  have hnodup : (nodes.reverse.map Prod.fst).Nodup := by
    have htexts := htaken.distinct
    rw [← map_takenApart hreads] at htexts
    rw [List.map_reverse, List.nodup_reverse]
    exact htexts.of_map _
  have hvalid : ∀ read ∈ nodes.reverse, ValidAllowlist read.2 := by
    intro read hmem
    obtain ⟨entry, hentry, hread⟩ := exists_of_forall₂ hreads.flip (List.mem_reverse.mp hmem)
    have hlength : read.2.length = entry.2.length := by
      rw [← length_takenApart entry, ← hread.2, List.length_map]
    have hentryValid := h entry hentry
    refine ⟨List.length_pos_iff.mp ?_, hlength ▸ hentryValid.2.1, ?_⟩
    · exact hlength ▸ List.length_pos_iff.mpr hentryValid.1
    · have htexts := htaken.nodup entry hentry
      rw [← hread.2] at htexts
      exact htexts.of_map _
  exact ⟨⟨nodes.reverse, hnodup, hvalid⟩,
    (parseNodePolicy_write hne fun entry hentry => (h entry hentry).1).mpr ⟨nodes, hreads, rfl⟩⟩

/-- Without colons, every entry is read as it was written. -/
theorem grants_of_noColon (h : ∀ entry ∈ entries, entry.2 ≠ [])
    (hcolon : ∀ entry ∈ entries, ':' ∉ entry.1.value.toList)
    (hparse : parseNodePolicy (writeNodePolicy entries) = .ok policy) : policy.Grants entries := by
  obtain ⟨nodes, hreads, hallowed⟩ := (parseNodePolicy_write (ne_nil_of_parse hparse) h).mp hparse
  have hsame : entries = nodes := by
    rw [← List.forall₂_eq_eq_eq]
    refine ((List.forall₂_and_left _ _).mpr ⟨hcolon, hreads⟩).imp fun entry read hread => ?_
    obtain ⟨hcolon, hnode, hcapabilities⟩ := hread
    have hapart : takenApart entry = (entry.1.value.toList, entry.2.map (·.value.toList)) := by
      rw [takenApart, splitOnce_eq_none hcolon]
    rw [hapart] at hnode hcapabilities
    exact Prod.ext (toList_injective hnode.symm)
      (List.map_injective_iff.mpr capability_toList_injective hcapabilities.symm)
  intro nodeId declared
  simp only [NodePolicy.authorize_eq_ok, NodePolicy.Allows, NodePolicy.allowlist_eq_some, hallowed,
    List.mem_reverse, hsame]
  constructor
  · rintro ⟨⟨allowed, hmem, hsubset⟩, hne, hnodup⟩
    exact ⟨allowed, hmem, hne, hnodup, hsubset⟩
  · rintro ⟨allowed, hmem, hne, hnodup, hsubset⟩
    exact ⟨⟨allowed, hmem, hsubset⟩, hne, hnodup⟩

/-- A node whose identifier holds a colon is not in the policy that is read. -/
theorem not_grants_of_colon (h : ∀ entry ∈ entries, ValidAllowlist entry.2)
    {entry : NodeId × List Capability} (hentry : entry ∈ entries)
    (hcolon : ':' ∈ entry.1.value.toList)
    (hparse : parseNodePolicy (writeNodePolicy entries) = .ok policy) : ¬policy.Grants entries := by
  intro hgrants
  have hne : ∀ entry ∈ entries, entry.2 ≠ [] := fun entry hentry => (h entry hentry).1
  obtain ⟨nodes, hreads, hallowed⟩ := (parseNodePolicy_write (ne_nil_of_parse hparse) hne).mp hparse
  have hok := (hgrants entry.1 entry.2).mpr
    ⟨entry.2, hentry, hne entry hentry, (h entry hentry).2.2, List.Subset.refl _⟩
  obtain ⟨⟨allowed, hlisted, -⟩, -⟩ := NodePolicy.authorize_eq_ok.mp hok
  rw [NodePolicy.allowlist_eq_some, hallowed, List.mem_reverse] at hlisted
  obtain ⟨other, hother, hread⟩ := exists_of_forall₂ hreads.flip hlisted
  exact colon_not_mem_takenApart (hne other hother) (hread.1 ▸ hcolon)

end Entries

/-- **Node policies are read as written** exactly when no node's identifier holds a colon or what
the line is taken apart into is no policy, so that it is refused. -/
theorem parseNodePolicy_grants_iff {entries : List (NodeId × List Capability)}
    (h : ∀ entry ∈ entries, ValidAllowlist entry.2) :
    (∀ policy, parseNodePolicy (writeNodePolicy entries) = .ok policy → policy.Grants entries) ↔
      (∀ entry ∈ entries, ':' ∉ entry.1.value.toList) ∨ ¬TakenForPolicy entries := by
  have hne : ∀ entry ∈ entries, entry.2 ≠ [] := fun entry hentry => (h entry hentry).1
  constructor
  · intro hgrants
    by_contra hcon
    simp only [not_or, not_forall, not_not] at hcon
    obtain ⟨⟨entry, hentry, hcolon⟩, htaken⟩ := hcon
    obtain ⟨policy, hparse⟩ := exists_parse (List.ne_nil_of_mem hentry) h htaken
    exact not_grants_of_colon h hentry hcolon hparse (hgrants policy hparse)
  · rintro (hcolon | htaken) policy hparse
    · exact grants_of_noColon hne hcolon hparse
    · exact absurd (takenForPolicy_of_parse hne hparse) htaken

/-! ### A colon in an identifier -/

/-- Entries whose texts are read as entries make a policy. -/
private theorem takenForPolicy_of_read {entries nodes : List (NodeId × List Capability)}
    (hreads : List.Forall₂ ReadsAs entries nodes) (hnodes : (nodes.map Prod.fst).Nodup)
    (hvalid : ∀ read ∈ nodes, ValidAllowlist read.2) (hne : entries ≠ [])
    (hentries : ∀ entry ∈ entries, entry.2 ≠ []) : TakenForPolicy entries := by
  have hnodup : (nodes.reverse.map Prod.fst).Nodup := by
    rwa [List.map_reverse, List.nodup_reverse]
  let policy : NodePolicy :=
    ⟨nodes.reverse, hnodup, fun read hread => hvalid read (List.mem_reverse.mp hread)⟩
  have hparse : parseNodePolicy (writeNodePolicy entries) = .ok policy :=
    (parseNodePolicy_write hne hentries).mpr ⟨nodes, hreads, rfl⟩
  exact takenForPolicy_of_parse hentries hparse

def colonNode : NodeId × List Capability :=
  (⟨"judge:eu", by decide +kernel⟩, [⟨"cpp", by decide +kernel⟩])

/-- What the entry is taken apart into: another node, and a capability that was never listed. -/
def misreadNode : NodeId × List Capability :=
  (⟨"judge", by decide +kernel⟩, [⟨"eu:cpp", by decide +kernel⟩])

theorem colonNode_readsAs : List.Forall₂ ReadsAs [colonNode] [misreadNode] :=
  .cons (by decide +kernel) .nil

/-- Two nodes, of which one may do what the other does and one thing more. -/
def plainNodes : List (NodeId × List Capability) :=
  [(⟨"judge_01", by decide +kernel⟩, [⟨"cpp", by decide +kernel⟩]),
    (⟨"judge_02", by decide +kernel⟩, [⟨"python", by decide +kernel⟩,
      ⟨"cpp", by decide +kernel⟩])]

/-- The list without colons is read as it was written; the one with a colon is not. -/
theorem parseNodePolicy_grants_iff_fixture :
    (∀ entry ∈ plainNodes, ValidAllowlist entry.2) ∧
      (∃ policy, parseNodePolicy (writeNodePolicy plainNodes) = .ok policy ∧
        policy.Grants plainNodes) ∧
      ¬∀ policy, parseNodePolicy (writeNodePolicy [colonNode]) = .ok policy →
        policy.Grants [colonNode] := by
  have hvalid : ∀ entry ∈ plainNodes, ValidAllowlist entry.2 := by decide +kernel
  have hcolon : ∀ entry ∈ plainNodes, ':' ∉ entry.1.value.toList := by decide +kernel
  have htaken : TakenForPolicy plainNodes :=
    takenForPolicy_of_read (List.forall₂_same.mpr (by decide +kernel)) (by decide +kernel) hvalid
      (List.cons_ne_nil _ _) fun entry hentry => (hvalid entry hentry).1
  obtain ⟨policy, hparse⟩ := exists_parse (List.cons_ne_nil _ _) hvalid htaken
  have hcolonNode : ∀ entry ∈ [colonNode], ValidAllowlist entry.2 := by decide
  refine ⟨hvalid, ⟨policy, hparse, (parseNodePolicy_grants_iff hvalid).mpr (.inl hcolon) policy
    hparse⟩, ?_⟩
  have htakenApart : TakenForPolicy [colonNode] :=
    takenForPolicy_of_read colonNode_readsAs (List.nodup_singleton _) (by decide)
      (List.cons_ne_nil _ _) fun entry hentry => (hcolonNode entry hentry).1
  rw [parseNodePolicy_grants_iff hcolonNode]
  rintro (hnone | hrefused)
  · exact absurd (hnone colonNode List.mem_cons_self) (by decide +kernel)
  · exact hrefused htakenApart

/-- The entry is read as that of the other node, which may now judge; the listed one is denied. -/
theorem colonNode_misread :
    writeNodePolicy [colonNode] = "judge:eu:cpp" ∧
      ∃ policy, parseNodePolicy "judge:eu:cpp" = .ok policy ∧
        policy.authorize misreadNode.1 misreadNode.2 = .ok () ∧
        policy.authorize colonNode.1 colonNode.2 = .error .identityDenied := by
  have hwrite : writeNodePolicy [colonNode] = "judge:eu:cpp" := by decide +kernel
  let policy : NodePolicy := ⟨[misreadNode], List.nodup_singleton _, by decide⟩
  have hparse : parseNodePolicy (writeNodePolicy [colonNode]) = .ok policy :=
    (parseNodePolicy_write (List.cons_ne_nil _ _) (by decide)).mpr
      ⟨[misreadNode], colonNode_readsAs, rfl⟩
  refine ⟨hwrite, policy, hwrite ▸ hparse, ?_, ?_⟩
  · decide +kernel
  · decide +kernel

end OpenOJ
