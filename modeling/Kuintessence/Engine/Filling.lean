import Kuintessence.Engine.Batches
import Kuintessence.Lib.Writes
import Mathlib.Data.List.Induction

namespace Kuintessence

open Outcome

variable {static : WorkflowInstanceSpec} {n n' : NodeSpec} {descriptor : String} {input : Input}
  {writes : List (String × Input)} {relations : List NodeRelation}

def NodeSpec.contents (n : NodeSpec) (descriptor : String) : Anyhow (List Input) := do
  let s ← n.inputSlot descriptor
  s.inputs

def WorkflowInstanceSpec.produced (static : WorkflowInstanceSpec) (source : Uuid × String) :
    Anyhow (List Input) := do
  let m ← static.node source.1
  let out ← m.outputSlot source.2
  .ok (outputInputs out)

-- Each slot that is fed, with the node and the output slot that feed it.
def feeding (relations : List NodeRelation) : List (String × Uuid × String) :=
  relations.flatMap fun r => r.slotRelations.map fun s => (s.toSlot, r.fromId, s.fromSlot)

theorem lastFeed_eq (relations : List NodeRelation) (descriptor : String) :
    lastFeed relations descriptor = assigned (feeding relations) descriptor := by
  have hfeeds : (relations.flatMap fun r =>
      (r.slotRelations.filter (fun s => s.toSlot == descriptor)).map fun s => (r.fromId, s.fromSlot)) =
      ((feeding relations).filter (fun feed => feed.1 == descriptor)).map Prod.snd := by
    simp only [feeding, List.filter_flatMap, List.map_flatMap, List.filter_map, List.map_map]
    rfl
  rw [lastFeed, hfeeds, List.getLast?_map, ← List.head?_reverse, ← List.filter_reverse,
    List.head?_filter, assigned]

section Sets

variable {s s' : NodeInputSlot} {ss ss' : List NodeInputSlot}

structure Sets (n : NodeSpec) (descriptor : String) (input : Input) (n' : NodeSpec) : Prop where
  filled : n'.contents descriptor = .ok [input]
  others : ∀ d, d ≠ descriptor → ∀ s, n.inputSlot d = .ok s → n'.inputSlot d = .ok s

theorem setInput_ok (h : NodeSpec.setInput s input = .ok s') :
    s'.descriptor = s.descriptor ∧ (s'.inputs : Anyhow _) = .ok [input] := by
  unfold NodeSpec.setInput at h
  cases hkind : s.kind with
  | text contents =>
    cases input with
    | text key =>
      simp only [hkind, ok.injEq] at h
      subst h
      exact ⟨rfl, rfl⟩
    | file fileInput => simp [hkind, bail] at h
  | file contents name isBatch =>
    cases input with
    | text key => simp [hkind, bail] at h
    | file fileInput =>
      simp only [hkind, ok.injEq] at h
      subst h
      exact ⟨rfl, rfl⟩
  | unknown => simp [hkind, bail] at h

theorem fillFrom_ok {out : NodeSpecOutputSlot} (h : fillFrom out s = .ok s') :
    s'.descriptor = s.descriptor ∧
      ∃ input rest, outputInputs out = input :: rest ∧ (s'.inputs : Anyhow _) = .ok [input] := by
  unfold fillFrom at h
  cases hkind : s.kind with
  | text contents =>
    simp only [hkind, withText, bind_ok_iff, unwrap_ok_iff, ok.injEq] at h
    obtain ⟨keys, hkeys, key, hkey, rfl⟩ := h
    obtain ⟨rest, rfl⟩ := List.head?_eq_some_iff.mp hkey
    cases hout : out.kind with
    | file _ _ _ => simp [NodeSpecOutputSlot.allTasksTextOutputs, hout, bail] at hkeys
    | text own =>
      simp only [NodeSpecOutputSlot.allTasksTextOutputs, hout, ok.injEq] at hkeys
      exact ⟨rfl, .text key, rest.map .text, by simp [outputInputs, hout, hkeys], rfl⟩
  | file contents name isBatch =>
    simp only [hkind, withFile, bind_ok_iff, unwrap_ok_iff, ok.injEq] at h
    obtain ⟨ids, hids, id, hid, rfl⟩ := h
    obtain ⟨rest, rfl⟩ := List.head?_eq_some_iff.mp hid
    cases hout : out.kind with
    | file _ _ own =>
      simp only [NodeSpecOutputSlot.allTasksFileOutputs, hout, ok.injEq] at hids
      exact ⟨rfl, .file { fileMetadataId := id }, rest.map fun id => .file { fileMetadataId := id },
        by simp [outputInputs, hout, hids], rfl⟩
    | text _ => simp [NodeSpecOutputSlot.allTasksFileOutputs, hout, bail] at hids
  | unknown => simp [hkind] at h

theorem modifyInputSlot_ok {f : NodeInputSlot → Anyhow NodeInputSlot}
    (hf : ∀ s s', f s = .ok s' → s'.descriptor = s.descriptor)
    (h : modifyInputSlot descriptor f ss = .ok ss') :
    (∃ s s', f s = .ok s' ∧ ss'.find? (fun el => el.descriptor == descriptor) = some s') ∧
      ∀ d, d ≠ descriptor → ss'.find? (fun el => el.descriptor == d) =
        ss.find? (fun el => el.descriptor == d) := by
  induction ss generalizing ss' with
  | nil => cases h
  | cons s ss ih =>
    rw [modifyInputSlot] at h
    by_cases hhere : s.descriptor = descriptor
    · rw [if_pos (beq_iff_eq.mpr hhere)] at h
      obtain ⟨s', hs', h⟩ := bind_ok_iff.mp h
      cases h
      have hsame := hf s s' hs'
      refine ⟨⟨s, s', hs', by simp [hsame, hhere]⟩, fun d hd => ?_⟩
      simp [hsame, hhere, Ne.symm hd]
    · rw [if_neg (by simpa using hhere)] at h
      obtain ⟨rest, hrest, h⟩ := bind_ok_iff.mp h
      cases h
      obtain ⟨⟨t, t', ht, hfind⟩, hothers⟩ := ih hrest
      refine ⟨⟨t, t', ht, by simp [hhere, hfind]⟩, fun d hd => ?_⟩
      rw [List.find?_cons, List.find?_cons, hothers d hd]

theorem fillSlotRelation_sets {fromId : Uuid} {r : SlotRelation}
    (h : fillSlotRelation static fromId n r = .ok n') : ∃ input rest,
      static.produced (fromId, r.fromSlot) = .ok (input :: rest) ∧ Sets n r.toSlot input n' := by
  obtain ⟨m, hm, h⟩ := bind_ok_iff.mp h
  obtain ⟨out, hout, h⟩ := bind_ok_iff.mp h
  obtain ⟨ss, hss, h⟩ := bind_ok_iff.mp h
  cases h
  obtain ⟨⟨s, s', hs', hfind⟩, hothers⟩ := modifyInputSlot_ok (fun _ _ hs => (fillFrom_ok hs).1) hss
  obtain ⟨-, input, rest, houtput, hinput⟩ := fillFrom_ok hs'
  refine ⟨input, rest, ?_, ?_, fun d hd s hs => ?_⟩
  · simp only [WorkflowInstanceSpec.produced, hm, hout, ok_bind, houtput]
  · simp only [NodeSpec.contents, NodeSpec.inputSlot, hfind, unwrap, ok_bind, hinput]
  · rw [NodeSpec.inputSlot, hothers d hd]
    exact hs

theorem updateWithInput_sets (h : n.updateWithInput descriptor input = .ok n')
    (hslot : n.inputSlot descriptor = .ok s) : Sets n descriptor input n' := by
  obtain ⟨ss, hss, h⟩ := bind_ok_iff.mp h
  cases h
  have hsame : ∀ s s' : NodeInputSlot,
      (if s.descriptor == descriptor then NodeSpec.setInput s input else .ok s) = .ok s' →
        s'.descriptor = s.descriptor := by
    intro s s' hs
    split at hs
    · exact (setInput_ok hs).1
    · cases hs
      rfl
  have hslots := mapEach_forall₂ hss
  have hfind : ∀ d s, n.inputSlots.find? (fun el => el.descriptor == d) = some s →
      ∃ s', ss.find? (fun el => el.descriptor == d) = some s' ∧
        (if s.descriptor == descriptor then NodeSpec.setInput s input else .ok s) = .ok s' :=
    fun d s => find?_of_forall₂ hslots (fun s s' hs => by rw [hsame s s' hs])
  refine ⟨?_, fun d hd s hs => ?_⟩
  · rw [NodeSpec.inputSlot, unwrap_ok_iff] at hslot
    obtain ⟨s', hs', hset⟩ := hfind descriptor s hslot
    rw [if_pos (List.find?_some hslot)] at hset
    simp only [NodeSpec.contents, NodeSpec.inputSlot, hs', unwrap, ok_bind, (setInput_ok hset).2]
  · rw [NodeSpec.inputSlot, unwrap_ok_iff] at hs
    obtain ⟨s', hs', hset⟩ := hfind d s hs
    have hdescriptor := List.find?_some hs
    rw [beq_iff_eq] at hdescriptor
    rw [if_neg (by simpa [hdescriptor] using hd)] at hset
    cases hset
    rw [NodeSpec.inputSlot, hs', unwrap]

end Sets

section Holding

variable {ss : List SlotRelation} {fromId : Uuid}

def Holding (n : NodeSpec) (writes : List (String × Input)) : Prop :=
  Latest (fun d input => n.contents d = .ok [input]) writes

theorem Sets.contents {d : String} {inputs : List Input} (h : Sets n descriptor input n')
    (hd : d ≠ descriptor) (hold : n.contents d = .ok inputs) : n'.contents d = .ok inputs := by
  obtain ⟨s, hs, hinputs⟩ := bind_ok_iff.mp hold
  rw [NodeSpec.contents, h.others d hd s hs]
  exact hinputs

theorem Sets.holding (h : Sets n descriptor input n') (hold : Holding n writes) :
    Holding n' (writes ++ [(descriptor, input)]) :=
  hold.write h.filled fun _ hd _ hinput => h.contents hd hinput

def Supplies (static : WorkflowInstanceSpec) (feed : String × Uuid × String)
    (write : String × Input) : Prop :=
  write.1 = feed.1 ∧ ∃ rest, static.produced feed.2 = .ok (write.2 :: rest)

theorem fillSlotRelations_holding (h : fillSlotRelations static fromId n ss = .ok n')
    (hold : Holding n writes) : ∃ news,
      List.Forall₂ (Supplies static) (ss.map fun s => (s.toSlot, fromId, s.fromSlot)) news ∧
        Holding n' (writes ++ news) := by
  induction ss generalizing n writes with
  | nil =>
    cases h
    exact ⟨[], .nil, by rwa [List.append_nil]⟩
  | cons s ss ih =>
    obtain ⟨m, hm, h⟩ := bind_ok_iff.mp h
    obtain ⟨input, rest, hproduced, hsets⟩ := fillSlotRelation_sets hm
    obtain ⟨news, hnews, hlast⟩ := ih h (hsets.holding hold)
    rw [List.append_assoc] at hlast
    exact ⟨_, .cons ⟨rfl, rest, hproduced⟩ hnews, hlast⟩

theorem fillRelations_holding (h : fillRelations static n relations = .ok n')
    (hold : Holding n writes) : ∃ news,
      List.Forall₂ (Supplies static) (feeding relations) news ∧ Holding n' (writes ++ news) := by
  induction relations generalizing n writes with
  | nil =>
    cases h
    exact ⟨[], .nil, by rwa [List.append_nil]⟩
  | cons r relations ih =>
    obtain ⟨m, hm, h⟩ := bind_ok_iff.mp h
    obtain ⟨news, hnews, hmid⟩ := fillSlotRelations_holding hm hold
    obtain ⟨more, hmore, hlast⟩ := ih h hmid
    rw [List.append_assoc] at hlast
    exact ⟨news ++ more, List.rel_append hnews hmore, hlast⟩

-- A plain node as it is handed over: each slot has the first id of its last feed.
theorem fillRelations_contents (h : fillRelations static n relations = .ok n')
    {source : Uuid × String} (hsource : assigned (feeding relations) descriptor = some source) :
    ∃ input rest, static.produced source = .ok (input :: rest) ∧
      n'.contents descriptor = .ok [input] := by
  obtain ⟨news, hnews, hlast⟩ := fillRelations_holding h (Latest.nil _)
  obtain ⟨input, hinput, -, rest, hproduced⟩ :=
    assigned_of_forall₂ hnews (fun _ _ hone => hone.1) hsource
  exact ⟨input, rest, hproduced, hlast descriptor input hinput⟩

theorem Sets.inputSlot {d : String} (h : Sets n descriptor input n') {s : NodeInputSlot}
    (hs : n.inputSlot d = .ok s) : ∃ s', n'.inputSlot d = .ok s' := by
  by_cases hd : d = descriptor
  · obtain ⟨s', hs', -⟩ := bind_ok_iff.mp h.filled
    exact ⟨s', hd ▸ hs'⟩
  · exact ⟨s, h.others d hd s hs⟩

theorem updateWithInputs_holding {combo : List (String × Input)}
    (h : n.updateWithInputs combo = .ok n') (hold : Holding n writes)
    (hslots : ∀ c ∈ combo, ∃ s, n.inputSlot c.1 = .ok s) : Holding n' (writes ++ combo) := by
  induction combo generalizing n writes with
  | nil =>
    cases h
    rwa [List.append_nil]
  | cons c combo ih =>
    obtain ⟨m, hm, h⟩ := bind_ok_iff.mp h
    obtain ⟨s, hs⟩ := hslots c List.mem_cons_self
    have hsets := updateWithInput_sets hm hs
    have hrest : ∀ c ∈ combo, ∃ s, m.inputSlot c.1 = .ok s := by
      intro c hc
      obtain ⟨s, hs⟩ := hslots c (List.mem_cons_of_mem _ hc)
      exact hsets.inputSlot hs
    have hlast := ih h (hsets.holding hold) hrest
    rwa [List.append_assoc] at hlast

end Holding

section Combos

variable {slots : List (String × List Input)} {combo : List (String × Input)}

theorem allPossibleInputs_concat (slots : List (String × List Input)) (slot : String × List Input) :
    allPossibleInputs (slots ++ [slot]) =
      if (allPossibleInputs slots).isEmpty then slot.2.map (fun j => [(slot.1, j)])
      else slot.2.flatMap (fun j => (allPossibleInputs slots).map (fun k => k ++ [(slot.1, j)])) := by
  rw [allPossibleInputs, List.foldl_append]
  rfl

theorem allPossibleInputs_ne_nil (hne : slots ≠ []) (h : ∀ slot ∈ slots, slot.2 ≠ []) :
    allPossibleInputs slots ≠ [] := by
  have hsizes : ∀ k ∈ slots.map (fun slot => slot.2.length), k ≠ 0 := by
    intro k hk
    obtain ⟨slot, hslot, rfl⟩ := List.mem_map.mp hk
    exact fun hzero => h slot hslot (List.eq_nil_of_length_eq_zero hzero)
  have hlen := length_allPossibleInputs slots
  rw [comboCount_eq_prod (by simpa using hne) hsizes] at hlen
  intro hnil
  rw [hnil, List.length_nil, eq_comm, List.prod_eq_zero_iff] at hlen
  exact hsizes 0 hlen rfl

-- A combination takes one input of each slot, in the order of the slots.
theorem combo_forall₂ (h : ∀ slot ∈ slots, slot.2 ≠ []) (hcombo : combo ∈ allPossibleInputs slots) :
    List.Forall₂ (fun slot c => c.1 = slot.1 ∧ c.2 ∈ slot.2) slots combo := by
  induction slots using List.reverseRecOn generalizing combo with
  | nil => exact absurd hcombo List.not_mem_nil
  | append_singleton slots slot ih =>
    have hslots : ∀ slot ∈ slots, slot.2 ≠ [] := fun s hs => h s (List.mem_append_left _ hs)
    rw [allPossibleInputs_concat] at hcombo
    split at hcombo
    · next hempty =>
      obtain ⟨j, hj, rfl⟩ := List.mem_map.mp hcombo
      have hnil : slots = [] := by
        by_contra hne
        exact allPossibleInputs_ne_nil hne hslots (List.isEmpty_iff.mp hempty)
      rw [hnil]
      exact .cons ⟨rfl, hj⟩ .nil
    · obtain ⟨j, hj, hcombo⟩ := List.mem_flatMap.mp hcombo
      obtain ⟨k, hk, rfl⟩ := List.mem_map.mp hcombo
      exact List.rel_append (ih hslots hk) (.cons ⟨rfl, hj⟩ .nil)

end Combos

end Kuintessence
