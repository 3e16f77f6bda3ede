import Kuintessence.Billing.Charging
import Kuintessence.Billing.Independence
import Kuintessence.Lib.Rows
import Mathlib.Algebra.BigOperators.Group.List.Basic

namespace Kuintessence.Billing.Recording

section Condition

-- The node bill is added up without rounding and without overflow.
def Exact (d : Books) (n : NodeInstanceBilling) : Prop :=
  n.price.mantissa % 10 ^ 8 = 0 ∧ ∀ b ∈ d.flowBills, b.flowInstanceId = n.flowInstanceId →
    b.toUsage.Fits n.toUsage ∧ (b.totalPrice.add n.price).column 12 2 ≠ none

def Access.working : Access → Option NodeInstanceBilling
  | .openBill n | .insertNode n | .save n => some n
  | .readBill _ | .other => none

def Admits (env : Env) (p : Calls) (i : Nat) : Access → Prop
  | .readBill n => ∀ j < p.threads.length, j ≠ i → ∀ tag ∈ p.tag j, ∀ n' ∈ tag.working,
      n'.flowInstanceId ≠ n.flowInstanceId
  | .insertNode n => NodeBillRepo.clashes p.state n = false →
      env.answer p.state.calls ≠ .refused →
      env.answer p.state.calls = .arrived ∧ Exact p.state n
  | .save _ => env.answer p.state.calls ≠ .refused
  | _ => True

def Orderly (env : Env) (p : Calls) : Move Uuid → Prop
  | .spawn _ => True
  | .go i => ∀ tag ∈ p.tag i, Admits env p i tag

instance (d : Books) (n : NodeInstanceBilling) : Decidable (Exact d n) :=
  inferInstanceAs (Decidable (n.price.mantissa % 10 ^ 8 = 0 ∧ ∀ b ∈ d.flowBills,
    b.flowInstanceId = n.flowInstanceId → b.toUsage.Fits n.toUsage ∧
      (b.totalPrice.add n.price).column 12 2 ≠ none))

instance (env : Env) (p : Calls) (i : Nat) (tag : Access) : Decidable (Admits env p i tag) :=
  match tag with
  | .readBill n => inferInstanceAs (Decidable (∀ j < p.threads.length, j ≠ i → ∀ tag ∈ p.tag j,
      ∀ n' ∈ tag.working, n'.flowInstanceId ≠ n.flowInstanceId))
  | .insertNode n => inferInstanceAs (Decidable (NodeBillRepo.clashes p.state n = false →
      env.answer p.state.calls ≠ .refused → env.answer p.state.calls = .arrived ∧ Exact p.state n))
  | .save _ => inferInstanceAs (Decidable (env.answer p.state.calls ≠ .refused))
  | .openBill _ | .other => .isTrue trivial

instance (env : Env) (p : Calls) (move : Move Uuid) : Decidable (Orderly env p move) :=
  match move with
  | .spawn _ => .isTrue trivial
  | .go i => inferInstanceAs (Decidable (∀ tag ∈ p.tag i, Admits env p i tag))

end Condition

def tally (ns : List NodeInstanceBilling) (flowInstanceId : Uuid) (m : Measure) : Int :=
  ((ns.filter (·.flowInstanceId = flowInstanceId)).map (·.amount m)).sum

structure Balanced (p : Calls) : Prop where
  once : (p.state.nodeBills.map (·.nodeInstanceId)).Nodup
  single : (p.state.flowBills.map (·.flowInstanceId)).Nodup
  covered : ∀ n ∈ p.state.nodeBills, ∃ b ∈ p.state.flowBills, b.flowInstanceId = n.flowInstanceId
  sums : ∀ b ∈ p.state.flowBills,
    (∀ i n, p.tag i = some (.save n) → n.flowInstanceId ≠ b.flowInstanceId) →
      ∀ m, b.amount m = tally p.state.nodeBills b.flowInstanceId m

section Tally

variable {ns ns' : List NodeInstanceBilling} {flowInstanceId : Uuid} {m : Measure}

theorem tally_append : tally (ns ++ ns') flowInstanceId m =
    tally ns flowInstanceId m + tally ns' flowInstanceId m := by
  rw [tally, List.filter_append, List.map_append, List.sum_append]
  rfl

theorem tally_perm (h : ns.Perm ns') : tally ns flowInstanceId m = tally ns' flowInstanceId m :=
  ((h.filter _).map _).sum_eq

theorem tally_eq_zero (h : ∀ n ∈ ns, n.flowInstanceId ≠ flowInstanceId) :
    tally ns flowInstanceId m = 0 := by
  have hnil : ns.filter (·.flowInstanceId = flowInstanceId) = [] :=
    List.filter_eq_nil_iff.mpr fun n hn => by simpa using h n hn
  rw [tally, hnil]
  rfl

theorem tally_one {n : NodeInstanceBilling} : tally [n] n.flowInstanceId m = n.amount m := by
  rw [tally, List.filter_cons_of_pos (by simp)]
  exact Int.add_zero _

theorem tally_set {cs : List Phase} {c : Phase} {i : Nat} (hc : cs[i]? = some c) (c' : Phase)
    (flowInstanceId : Uuid) (m : Measure) :
    tally ((cs.set i c').filterMap Phase.unsaved) flowInstanceId m +
        tally c.unsaved.toList flowInstanceId m =
      tally (cs.filterMap Phase.unsaved) flowInstanceId m +
        tally c'.unsaved.toList flowInstanceId m := by
  obtain ⟨rest, hold, hnew⟩ := exists_perm_filterMap_set Phase.unsaved hc
  rw [tally_perm hold, tally_perm (hnew c'), tally_append, tally_append]
  ring

end Tally

section Invariant

structure Copies (b' b : FlowInstanceBilling) (n : NodeInstanceBilling) : Prop where
  id : b'.id = b.id
  usage : b'.toUsage = b.toUsage.add n.toUsage
  total : b'.totalPrice = b.totalPrice.add n.price

def Current (d : Books) : Phase → Prop
  | .inserting n b' => ∃ b ∈ d.flowBills, b.flowInstanceId = n.flowInstanceId ∧ Copies b' b n
  | .saving n b' => (∃ b ∈ d.flowBills, b.flowInstanceId = n.flowInstanceId ∧ Copies b' b n) ∧
      Exact d n
  | _ => True

def Elsewhere (c c' : Phase) : Prop :=
  ∀ n ∈ c.working, ∀ n' ∈ c'.working, n.flowInstanceId ≠ n'.flowInstanceId

structure Crew (d : Books) (cs : List Phase) : Prop where
  priced : ∀ c ∈ cs, ∀ n ∈ c.node, n.price.scale = 10
  alone : Mutual Elsewhere cs
  current : ∀ c ∈ cs, Current d c

structure Ledger (d : Books) (unsaved : List NodeInstanceBilling) : Prop where
  once : (d.nodeBills.map (·.nodeInstanceId)).Nodup
  single : (d.flowBills.map (·.flowInstanceId)).Nodup
  ids : (d.flowBills.map (·.id)).Nodup
  scale : ∀ b ∈ d.flowBills, b.totalPrice.scale = 2
  covered : ∀ n ∈ d.nodeBills, ∃ b ∈ d.flowBills, b.flowInstanceId = n.flowInstanceId
  balanced : ∀ b ∈ d.flowBills, ∀ m, b.amount m + tally unsaved b.flowInstanceId m =
    tally d.nodeBills b.flowInstanceId m

variable {s t : Books} {cs : List Phase} {c c' : Phase} {i : Nat} {checked : Bool} {env : Env}
  {n : NodeInstanceBilling} {b b' : FlowInstanceBilling} {owed : List NodeInstanceBilling}

theorem Exact.congr (h : Exact s n) (ht : ∀ e : FlowInstanceBilling,
    e.flowInstanceId = n.flowInstanceId → (e ∈ t.flowBills ↔ e ∈ s.flowBills)) : Exact t n :=
  ⟨h.1, fun b hb hflow => h.2 b ((ht b hflow).mp hb) hflow⟩

-- What other workflows' calls do leaves a call's copy of the record current.
theorem Current.congr (h : Current s c) (ht : ∀ n ∈ c.working, ∀ e : FlowInstanceBilling,
    e.flowInstanceId = n.flowInstanceId → (e ∈ t.flowBills ↔ e ∈ s.flowBills)) : Current t c := by
  cases c with
  | inserting n b' =>
    obtain ⟨b, hb, hflow, hcopies⟩ := h
    exact ⟨b, (ht n rfl b hflow).mpr hb, hflow, hcopies⟩
  | saving n b' =>
    obtain ⟨⟨b, hb, hflow, hcopies⟩, hexact⟩ := h
    exact ⟨⟨b, (ht n rfl b hflow).mpr hb, hflow, hcopies⟩, hexact.congr (ht n rfl)⟩
  | _ => trivial

theorem Elsewhere.symm (h : Elsewhere c c') : Elsewhere c' c :=
  fun n hn n' hn' heq => h n' hn' n hn heq.symm

theorem Crew.set (h : Crew s cs) (hc : cs[i]? = some c)
    (hnode : ∀ n ∈ c'.node, n.price.scale = 10) (hcurrent : Current t c')
    (halone : ∀ (j : Nat) (d : Phase), j ≠ i → cs[j]? = some d → Elsewhere c' d)
    (ht : ∀ (j : Nat) (d : Phase), j ≠ i → cs[j]? = some d → ∀ n ∈ d.working,
      ∀ e : FlowInstanceBilling, e.flowInstanceId = n.flowInstanceId →
        (e ∈ t.flowBills ↔ e ∈ s.flowBills)) : Crew t (cs.set i c') := by
  refine ⟨fun d hd => ?_, h.alone.set fun j d hj hd =>
    ⟨halone j d hj hd, (halone j d hj hd).symm⟩, fun d hd => ?_⟩
  · obtain hd | rfl := List.mem_or_eq_of_mem_set hd
    · exact h.priced d hd
    · exact hnode
  · obtain ⟨j, hj⟩ := List.getElem?_of_mem hd
    by_cases hji : j = i
    · subst hji
      rw [List.getElem?_set_self (List.getElem?_eq_some_iff.mp hc).1] at hj
      cases hj
      exact hcurrent
    · rw [List.getElem?_set_ne (Ne.symm hji)] at hj
      exact (h.current d (List.mem_of_getElem? hj)).congr (ht j d hji hj)

theorem Ledger.of_same (h : Ledger s owed) (ht : s.Same t) : Ledger t owed where
  once := ht.2 ▸ h.once
  single := ht.1 ▸ h.single
  ids := ht.1 ▸ h.ids
  scale := ht.1 ▸ h.scale
  covered := ht.1 ▸ ht.2 ▸ h.covered
  balanced := ht.1 ▸ ht.2 ▸ h.balanced

structure Sound (d : Books) (cs : List Phase) : Prop where
  crew : Crew d cs
  ledger : Ledger d (cs.filterMap Phase.unsaved)

theorem Ledger.set (h : Ledger s (cs.filterMap Phase.unsaved)) (hc : cs[i]? = some c)
    (hunsaved : c.unsaved = c'.unsaved) : Ledger s ((cs.set i c').filterMap Phase.unsaved) :=
  ⟨h.once, h.single, h.ids, h.scale, h.covered, fun b hb m => by
    have hset := tally_set hc c' b.flowInstanceId m
    rw [hunsaved] at hset
    rw [add_right_cancel hset]
    exact h.balanced b hb m⟩

theorem Sound.turn (h : Sound s cs) (hc : cs[i]? = some c) (ht : s.Same t)
    (hunsaved : c.unsaved = c'.unsaved) (hnode : ∀ n ∈ c'.node, n.price.scale = 10)
    (hcurrent : Current t c') (halone : ∀ (j : Nat) (d : Phase), j ≠ i → cs[j]? = some d →
      Elsewhere c' d) : Sound t (cs.set i c') :=
  ⟨h.crew.set hc hnode hcurrent halone fun _ _ _ _ _ _ _ _ => by rw [ht.1],
    (h.ledger.set hc hunsaved).of_same ht⟩

theorem Phase.Enters.alone (hc : c.Enters) (d : Phase) : Elsewhere c d := by
  obtain rfl | rfl | ⟨n, rfl, -⟩ := hc
  · exact fun _ hn => by cases hn
  · exact fun _ hn => by cases hn
  · exact fun _ hn => by cases hn

theorem Phase.Enters.current (hc : c.Enters) (d : Books) : Current d c := by
  obtain rfl | rfl | ⟨n, rfl, -⟩ := hc
  · trivial
  · trivial
  · trivial

theorem Phase.Enters.unsaved (hc : c.Enters) : c.unsaved = none := by
  obtain rfl | rfl | ⟨n, rfl, -⟩ := hc
  · rfl
  · rfl
  · rfl

theorem Phase.Enters.priced (hc : c.Enters) : ∀ n ∈ c.node, n.price.scale = 10 := by
  obtain rfl | rfl | ⟨n, rfl, hscale⟩ := hc
  · exact fun _ hn => by cases hn
  · exact fun _ hn => by cases hn
  · rintro _ ⟨⟩
    exact hscale

theorem added_cases (b : FlowInstanceBilling) (n : NodeInstanceBilling) :
    Phase.added n (b.addUp checked n) = .finished ∨
      ∃ b', Phase.added n (b.addUp checked n) = .inserting n b' ∧ Copies b' b n := by
  rw [FlowInstanceBilling.addUp]
  split
  · exact .inl rfl
  · exact .inr ⟨_, rfl, rfl, rfl, rfl⟩

theorem Ledger.found (h : Ledger s owed) (hb : FlowBillRepo.find s n.flowInstanceId = some b) :
    b ∈ s.flowBills ∧ b.flowInstanceId = n.flowInstanceId := by
  obtain ⟨b₀, hfind, rfl⟩ := Option.map_eq_some_iff.mp hb
  have hmem := List.mem_of_find?_eq_some hfind
  have hflow : b₀.flowInstanceId = n.flowInstanceId := by simpa using List.find?_some hfind
  rw [Decimal.rescale_of_scale (h.scale b₀ hmem)]
  exact ⟨hmem, hflow⟩

theorem Crew.covered (h : Crew s cs) (hn : n ∈ cs.filterMap Phase.unsaved) :
    ∃ b ∈ s.flowBills, b.flowInstanceId = n.flowInstanceId := by
  obtain ⟨c, hc, hunsaved⟩ := List.mem_filterMap.mp hn
  have hcurrent := h.current c hc
  cases c with
  | saving n' b' =>
    cases hunsaved
    obtain ⟨⟨b, hb, hflow, -⟩, -⟩ := hcurrent
    exact ⟨b, hb, hflow⟩
  | _ => cases hunsaved

theorem unclashed (h : FlowBillRepo.clashes s b = false) :
    ∀ e ∈ s.flowBills, e.flowInstanceId ≠ b.flowInstanceId ∧ e.id ≠ b.id := by
  intro e he
  have hnot := List.any_eq_false.mp h e he
  rwa [Bool.or_eq_true, decide_eq_true_eq, decide_eq_true_eq, not_or] at hnot

theorem Ledger.opened (h : Ledger s owed) (howed : ∀ n ∈ owed, ∃ b ∈ s.flowBills,
      b.flowInstanceId = n.flowInstanceId) (hzero : b.toUsage = .zero)
    (hclash : FlowBillRepo.clashes s b = false)
    (hflowBills : t.flowBills = s.flowBills ++ [{ b with totalPrice := ⟨0, 2⟩ }])
    (hnodeBills : t.nodeBills = s.nodeBills) : Ledger t owed := by
  have hnew := unclashed hclash
  have hcovered {n : NodeInstanceBilling} (hn : n ∈ s.nodeBills ∨ n ∈ owed) :
      n.flowInstanceId ≠ b.flowInstanceId := by
    intro heq
    have hrecord : ∃ e ∈ s.flowBills, e.flowInstanceId = n.flowInstanceId :=
      hn.elim (h.covered n) (howed n)
    obtain ⟨e, he, hflow⟩ := hrecord
    exact (hnew e he).1 (hflow.trans heq)
  refine ⟨hnodeBills ▸ h.once, ?_, ?_, fun e he => ?_, fun n hn => ?_, fun e he m => ?_⟩
  · rw [hflowBills, List.map_append]
    refine h.single.append (List.nodup_singleton _) ?_
    rintro f hf ⟨⟩
    · obtain ⟨e, he, heq⟩ := List.mem_map.mp hf
      exact (hnew e he).1 heq
    · contradiction
  · rw [hflowBills, List.map_append]
    refine h.ids.append (List.nodup_singleton _) ?_
    rintro f hf ⟨⟩
    · obtain ⟨e, he, heq⟩ := List.mem_map.mp hf
      exact (hnew e he).2 heq
    · contradiction
  · rw [hflowBills] at he
    obtain he | he := List.mem_append.mp he
    · exact h.scale e he
    · rw [List.mem_singleton.mp he]
  · rw [hnodeBills] at hn
    obtain ⟨e, he, hflow⟩ := h.covered n hn
    exact ⟨e, hflowBills ▸ List.mem_append_left _ he, hflow⟩
  · rw [hflowBills] at he
    rw [hnodeBills]
    obtain he | he := List.mem_append.mp he
    · exact h.balanced e he m
    · rw [List.mem_singleton.mp he, tally_eq_zero fun n hn => hcovered (.inr hn),
        tally_eq_zero fun n hn => hcovered (.inl hn), Int.add_zero, FlowInstanceBilling.amount, hzero]
      exact Usage.amount_zero (show (⟨0, 2⟩ : Decimal).units = 0 by decide) m

theorem Ledger.inserted (h : Ledger s owed) (hclash : NodeBillRepo.clashes s n = false)
    (hcovered : ∃ b ∈ s.flowBills, b.flowInstanceId = n.flowInstanceId)
    (hflowBills : t.flowBills = s.flowBills) (hnodeBills : t.nodeBills = s.nodeBills ++ [n])
    {owed' : List NodeInstanceBilling}
    (howed : ∀ f m, tally owed' f m = tally owed f m + tally [n] f m) : Ledger t owed' := by
  refine ⟨?_, hflowBills ▸ h.single, hflowBills ▸ h.ids, hflowBills ▸ h.scale, fun e he => ?_,
    fun e he m => ?_⟩
  · rw [hnodeBills, List.map_append]
    refine h.once.append (List.nodup_singleton _) ?_
    rintro f hf ⟨⟩
    · obtain ⟨e, he, heq⟩ := List.mem_map.mp hf
      have hnot := List.any_eq_false.mp hclash e he
      rw [Bool.or_eq_true, decide_eq_true_eq, decide_eq_true_eq, not_or] at hnot
      exact hnot.1 heq
    · contradiction
  · rw [hflowBills]
    rw [hnodeBills] at he
    obtain he | he := List.mem_append.mp he
    · exact h.covered e he
    · rw [List.mem_singleton.mp he]
      exact hcovered
  · rw [hflowBills] at he
    rw [hnodeBills, tally_append, howed, ← h.balanced e he m]
    ring

theorem Ledger.saved (h : Ledger s owed) (hb : b ∈ s.flowBills)
    (hflow : b.flowInstanceId = n.flowInstanceId) (hcopies : Copies b' b n) (hexact : Exact s n)
    (hscale : n.price.scale = 10)
    (hflowBills : t.flowBills =
      FlowBillRepo.overwrite s { b' with totalPrice := b'.totalPrice.rescale 2 })
    (hnodeBills : t.nodeBills = s.nodeBills) {owed' : List NodeInstanceBilling}
    (howed : ∀ f m, tally owed' f m + tally [n] f m = tally owed f m) : Ledger t owed' := by
  rw [FlowBillRepo.overwrite] at hflowBills
  have hkeys {κ : Type} (key : FlowInstanceBilling → κ)
      (hkey : ∀ (e : FlowInstanceBilling) (u : Usage) (p : Decimal),
        key { e with toUsage := u, totalPrice := p } = key e) :
      t.flowBills.map key = s.flowBills.map key := by
    rw [hflowBills, List.map_map]
    refine List.map_congr_left fun e _ => ?_
    rw [Function.comp_apply]
    split
    · exact hkey e _ _
    · rfl
  refine ⟨hnodeBills ▸ h.once, ?_, ?_, fun e he => ?_, fun e he => ?_, fun e he m => ?_⟩
  · rw [hkeys _ fun _ _ _ => rfl]
    exact h.single
  · rw [hkeys _ fun _ _ _ => rfl]
    exact h.ids
  · rw [hflowBills] at he
    obtain ⟨e₀, he₀, rfl⟩ := List.mem_map.mp he
    dsimp only
    split
    · exact Decimal.scale_rescale _ _
    · exact h.scale e₀ he₀
  · rw [hnodeBills] at he
    have hmem : e.flowInstanceId ∈ t.flowBills.map (·.flowInstanceId) := by
      rw [hkeys _ fun _ _ _ => rfl]
      obtain ⟨b, hb, hsame⟩ := h.covered e he
      exact List.mem_map.mpr ⟨b, hb, hsame⟩
    exact List.mem_map.mp hmem
  · rw [hflowBills] at he
    obtain ⟨e₀, he₀, rfl⟩ := List.mem_map.mp he
    rw [hnodeBills]
    have hbalanced := h.balanced e₀ he₀ m
    rw [← howed] at hbalanced
    dsimp only
    split
    · next hid =>
      obtain rfl := Rows.eq_of_key h.ids he₀ hb (hid.trans hcopies.id)
      have hsum : Usage.amount b'.toUsage (b'.totalPrice.rescale 2) m = e₀.amount m + n.amount m := by
        rw [hcopies.usage, hcopies.total]
        exact Usage.amount_add (hexact.2 e₀ he₀ hflow).1
          (Decimal.units_saved (h.scale e₀ he₀) hscale hexact.1) m
      rw [hflow, tally_one] at hbalanced
      change Usage.amount b'.toUsage (b'.totalPrice.rescale 2) m + tally owed' e₀.flowInstanceId m = _
      rw [hsum, hflow, ← hbalanced]
      ring
    · next hid =>
      have hne : n.flowInstanceId ≠ e₀.flowInstanceId := by
        intro heq
        have hsame := Rows.eq_of_key h.single hb he₀ (hflow.trans heq)
        exact hid (hsame ▸ hcopies.id.symm)
      have hnone : tally [n] e₀.flowInstanceId m = 0 :=
        tally_eq_zero fun e he => by rwa [List.mem_singleton.mp he]
      rw [hnone, Int.add_zero] at hbalanced
      exact hbalanced

theorem Sound.elsewhere (h : Sound s cs) (hc : cs[i]? = some c) (hworking : c'.working = c.working) :
    ∀ (j : Nat) (d : Phase), j ≠ i → cs[j]? = some d → Elsewhere c' d := by
  intro j d hj hd n hn
  exact h.crew.alone i j c d (Ne.symm hj) hc hd n (hworking ▸ hn)

theorem Sound.finished (h : Sound s cs) (hc : cs[i]? = some c) (ht : s.Same t)
    (hunsaved : c.unsaved = none) : Sound t (cs.set i .finished) :=
  h.turn hc ht hunsaved (fun _ hn => by cases hn) trivial fun _ _ _ _ _ hn => by cases hn

theorem Sound.copied (h : Sound s cs) (hc : cs[i]? = some c) (hn : n ∈ c.node)
    (hunsaved : c.unsaved = none) (ht : s.Same t) (hb : b ∈ s.flowBills)
    (hflow : b.flowInstanceId = n.flowInstanceId) (halone : ∀ (j : Nat) (d : Phase), j ≠ i →
      cs[j]? = some d → ∀ n' ∈ d.working, n.flowInstanceId ≠ n'.flowInstanceId) :
    Sound t (cs.set i (.added n (b.addUp checked n))) := by
  obtain hover | ⟨b', hinserting, hcopies⟩ := added_cases b n
  · rw [hover]
    exact h.finished hc ht hunsaved
  · rw [hinserting]
    refine h.turn hc ht hunsaved ?_ ⟨b, ht.1 ▸ hb, hflow, hcopies⟩ ?_
    · rintro _ ⟨⟩
      exact h.crew.priced c (List.mem_of_getElem? hc) n hn
    · rintro j d hj hd _ ⟨⟩
      exact halone j d hj hd

theorem Copies.opened (h : Copies b' b n) (hprice : b.totalPrice = ⟨0, 0⟩)
    (hscale : n.price.scale = 10) : Copies b' { b with totalPrice := ⟨0, 2⟩ } n := by
  refine ⟨h.id, h.usage, ?_⟩
  rw [h.total, hprice, Decimal.zero_add_ten hscale, Decimal.zero_two_add_ten hscale]

theorem Sound.opened (h : Sound s cs) (hc : cs[i]? = some (.opening n))
    (hflow : b.flowInstanceId = n.flowInstanceId) (hzero : b.toUsage = .zero)
    (hprice : b.totalPrice = ⟨0, 0⟩) (hclash : FlowBillRepo.clashes s b = false)
    (hflowBills : t.flowBills = s.flowBills ++ [{ b with totalPrice := ⟨0, 2⟩ }])
    (hnodeBills : t.nodeBills = s.nodeBills)
    (hc' : c' = .finished ∨ c' = .added n (b.addUp checked n)) : Sound t (cs.set i c') := by
  have hscale := h.crew.priced _ (List.mem_of_getElem? hc) n rfl
  have hledger : Ledger t (cs.filterMap Phase.unsaved) :=
    h.ledger.opened (fun n hn => h.crew.covered hn) hzero hclash hflowBills hnodeBills
  have hothers (j : Nat) (d : Phase) (hj : j ≠ i) (hd : cs[j]? = some d) :
      ∀ n' ∈ d.working, ∀ e : FlowInstanceBilling, e.flowInstanceId = n'.flowInstanceId →
        (e ∈ t.flowBills ↔ e ∈ s.flowBills) := by
    intro n' hn' e he
    rw [hflowBills, List.mem_append, List.mem_singleton]
    refine or_iff_left ?_
    rintro rfl
    exact h.crew.alone i j _ d (Ne.symm hj) hc hd n rfl n' hn' (hflow.symm.trans he)
  have hset {d : Phase} (hunsaved : d.unsaved = none) (hnode : ∀ n ∈ d.node, n.price.scale = 10)
      (hcurrent : Current t d) (hworking : d.working = none ∨ d.working = some n) :
      Sound t (cs.set i d) := by
    refine ⟨h.crew.set hc hnode hcurrent (fun j e hj he => ?_) hothers,
      hledger.set hc hunsaved.symm⟩
    obtain hnone | hsome := hworking
    · intro n' hn'
      rw [hnone] at hn'
      cases hn'
    · exact h.elsewhere hc hsome j e hj he
  have hover : Sound t (cs.set i .finished) :=
    hset rfl (fun _ hn => by cases hn) trivial (.inl rfl)
  obtain rfl | rfl := hc'
  · exact hover
  · obtain heq | ⟨b', heq, hcopies⟩ := added_cases b n
    · rw [heq]
      exact hover
    · rw [heq]
      refine hset rfl ?_ ⟨{ b with totalPrice := ⟨0, 2⟩ }, ?_, hflow, hcopies.opened hprice hscale⟩
        (.inr rfl)
      · rintro _ ⟨⟩
        exact hscale
      · rw [hflowBills]
        exact List.mem_append_right _ (List.mem_singleton.mpr rfl)

theorem Sound.inserted (h : Sound s cs) (hc : cs[i]? = some (.inserting n b'))
    (hclash : NodeBillRepo.clashes s n = false) (hflowBills : t.flowBills = s.flowBills)
    (hnodeBills : t.nodeBills = s.nodeBills ++ [{ n with price := n.price.rescale 10 }])
    (hexact : Exact s n) : Sound t (cs.set i (.saving n b')) := by
  have hscale := h.crew.priced _ (List.mem_of_getElem? hc) n rfl
  obtain ⟨b, hb, hflow, hcopies⟩ := h.crew.current _ (List.mem_of_getElem? hc)
  rw [Decimal.rescale_of_scale hscale] at hnodeBills
  have hsame : ∀ e : FlowInstanceBilling, e ∈ t.flowBills ↔ e ∈ s.flowBills := fun e => by
    rw [hflowBills]
  refine ⟨h.crew.set hc ?_ ⟨⟨b, (hsame b).mpr hb, hflow, hcopies⟩,
      hexact.congr fun e _ => hsame e⟩ (h.elsewhere hc rfl) fun _ _ _ _ _ _ e _ => hsame e,
    h.ledger.inserted hclash ⟨b, hb, hflow⟩ hflowBills hnodeBills fun f m => ?_⟩
  · rintro _ ⟨⟩
    exact hscale
  · have hset := tally_set hc (.saving n b') f m
    rw [show tally (Phase.inserting n b').unsaved.toList f m = 0 from rfl, Int.add_zero] at hset
    exact hset

theorem Sound.saved (h : Sound s cs) (hc : cs[i]? = some (.saving n b'))
    (hflowBills : t.flowBills =
      FlowBillRepo.overwrite s { b' with totalPrice := b'.totalPrice.rescale 2 })
    (hnodeBills : t.nodeBills = s.nodeBills) (hc' : c'.Enters) : Sound t (cs.set i c') := by
  have hscale := h.crew.priced _ (List.mem_of_getElem? hc) n rfl
  obtain ⟨⟨b, hb, hflow, hcopies⟩, hexact⟩ := h.crew.current _ (List.mem_of_getElem? hc)
  have hledger : Ledger t ((cs.set i c').filterMap Phase.unsaved) := by
    refine h.ledger.saved hb hflow hcopies hexact hscale hflowBills hnodeBills fun f m => ?_
    have hset := tally_set hc c' f m
    rw [hc'.unsaved] at hset
    exact hset.trans (Int.add_zero _)
  refine ⟨h.crew.set hc hc'.priced (hc'.current t) (fun j d _ _ => hc'.alone d) ?_, hledger⟩
  intro j d hj hd n' hn' e he
  have hne := h.crew.alone i j _ d (Ne.symm hj) hc hd n rfl n' hn'
  rw [hflowBills, FlowBillRepo.overwrite, List.mem_map]
  constructor
  · rintro ⟨e₀, he₀, heq⟩
    split at heq
    · next hid =>
      have hsame := Rows.eq_of_key h.ledger.ids he₀ hb (hid.trans hcopies.id)
      have hflow' : e₀.flowInstanceId = e.flowInstanceId := by rw [← heq]
      rw [hsame, hflow, he] at hflow'
      exact absurd hflow' hne
    · exact heq ▸ he₀
  · intro hmem
    refine ⟨e, hmem, if_neg fun hid => ?_⟩
    have hsame := Rows.eq_of_key h.ledger.ids hmem hb (hid.trans hcopies.id)
    rw [hsame, hflow] at he
    exact hne he

theorem Sound.step (h : Sound s cs) (hc : cs[i]? = some c) (hturn : Turn checked env c s t c')
    (hread : ∀ n, c = .reading n → ∀ (j : Nat) (d : Phase), j ≠ i → cs[j]? = some d →
      ∀ n' ∈ d.working, n.flowInstanceId ≠ n'.flowInstanceId)
    (hinsert : ∀ n b, c = .inserting n b → NodeBillRepo.clashes s n = false →
      env.answer s.calls ≠ .refused → env.answer s.calls = .arrived ∧ Exact s n)
    (hsave : ∀ n b, c = .saving n b → env.answer s.calls ≠ .refused) : Sound t (cs.set i c') := by
  cases hturn with
  | aside ht hc' =>
    exact h.turn hc ht hc'.unsaved.symm hc'.priced (hc'.current t) fun _ d _ _ => hc'.alone d
  | found ht hb =>
    obtain ⟨hmem, hflow⟩ := h.ledger.found hb
    exact h.copied hc rfl rfl ht hmem hflow (hread _ rfl)
  | missed ht =>
    refine h.turn hc ht rfl ?_ trivial ?_
    · rintro _ ⟨⟩
      exact h.crew.priced _ (List.mem_of_getElem? hc) _ rfl
    · rintro j d hj hd _ ⟨⟩
      exact hread _ rfl j d hj hd
  | kept ht hunsaved => exact h.finished hc ht hunsaved
  | opened hflow hzero hprice hclash hflowBills hnodeBills hc' =>
    exact h.opened hc hflow hzero hprice hclash hflowBills hnodeBills hc'
  | inserted hclash hflowBills hnodeBills hanswer hc' =>
    obtain ⟨harrived, hexact⟩ := hinsert _ _ rfl hclash hanswer
    rw [hc' harrived]
    exact h.inserted hc hclash hflowBills hnodeBills hexact
  | unsaved ht hanswer =>
    obtain ⟨⟨b, hb, hflow, hcopies⟩, hexact⟩ := h.crew.current _ (List.mem_of_getElem? hc)
    obtain hrefused | hcolumn := hanswer
    · exact absurd hrefused (hsave _ _ rfl)
    · rw [hcopies.total] at hcolumn
      exact absurd hcolumn (hexact.2 b hb hflow).2
  | stray hid =>
    obtain ⟨⟨b, hb, -, hcopies⟩, -⟩ := h.crew.current _ (List.mem_of_getElem? hc)
    exact absurd hcopies.id.symm (hid b hb)
  | saved hflowBills hnodeBills hc' => exact h.saved hc hflowBills hnodeBills hc'

end Invariant

section Runs

variable {F : Type} {mentions : String → List String} {fl : Floats F} {ev : Evaluator F mentions}
  {checked : Bool} {env : Env} {p : Calls} {cs : List Phase} {i : Nat}

structure Underway (checked : Bool) (env : Env) (p : Calls) (cs : List Phase) : Prop where
  follows : Pool.Follows (turns checked env) p cs
  sound : Sound p.state cs

theorem Underway.tag (h : Underway checked env p cs) {c : Phase} (hc : cs[i]? = some c) :
    p.tag i = c.tag := by
  rw [h.follows.tag, hc]
  rfl

theorem Phase.working_tag {c : Phase} {n : NodeInstanceBilling} (hn : n ∈ c.working) :
    ∃ tag, c.tag = some tag ∧ n ∈ tag.working := by
  cases c with
  | outside => cases hn
  | reading _ => cases hn
  | finished => cases hn
  | _ => exact ⟨_, rfl, hn⟩

theorem Underway.go (h : Underway checked env p cs) (horderly : Orderly env p (.go i)) :
    ∃ cs', Underway checked env (p.go i) cs' := by
  obtain ⟨c, c', hc, hturn, hfollows⟩ | ⟨hstays, -⟩ := h.follows.go i
  · refine ⟨_, hfollows, h.sound.step hc hturn ?_ ?_ ?_⟩
    · rintro n rfl j d hj hd n' hn'
      obtain ⟨tag, htag, hworking⟩ := Phase.working_tag hn'
      have hlt : j < p.threads.length := h.follows.length ▸ (List.getElem?_eq_some_iff.mp hd).1
      exact (horderly _ (h.tag hc) j hlt hj tag ((h.tag hd).trans htag) n' hworking).symm
    · rintro n b rfl
      exact horderly _ (h.tag hc)
    · rintro n b rfl
      exact horderly _ (h.tag hc)
  · exact ⟨cs, by rwa [hstays]⟩

theorem Underway.spawn (h : Underway checked env p cs) (nodeInstanceId : Uuid) :
    Underway checked env (p.step (start fl ev checked env) (.spawn nodeInstanceId))
      (cs ++ [.outside]) := by
  have hnone : (cs ++ [Phase.outside]).filterMap Phase.unsaved = cs.filterMap Phase.unsaved := by
    rw [List.filterMap_append]
    exact List.append_nil _
  have hmem {c : Phase} (hc : c ∈ cs ++ [Phase.outside]) : c ∈ cs ∨ c = .outside := by
    rwa [List.mem_append, List.mem_singleton] at hc
  refine ⟨h.follows.spawn rfl (ends_recordBill nodeInstanceId), ⟨fun c hc => ?_, ?_, fun c hc => ?_⟩,
    hnone ▸ h.sound.ledger⟩
  · obtain hc | rfl := hmem hc
    · exact h.sound.crew.priced c hc
    · exact fun _ hn => by cases hn
  · have hfree (c : Phase) : Elsewhere .outside c := fun _ hn => by cases hn
    exact h.sound.crew.alone.concat fun c _ => ⟨hfree c, (hfree c).symm⟩
  · obtain hc | rfl := hmem hc
    · exact h.sound.crew.current c hc
    · trivial

theorem Underway.balanced (h : Underway checked env p cs) : Balanced p where
  once := h.sound.ledger.once
  single := h.sound.ledger.single
  covered := h.sound.ledger.covered
  sums b hb hnone m := by
    have howed : tally (cs.filterMap Phase.unsaved) b.flowInstanceId m = 0 := by
      refine tally_eq_zero fun n hn => ?_
      obtain ⟨c, hc, hunsaved⟩ := List.mem_filterMap.mp hn
      obtain ⟨i, hi⟩ := List.getElem?_of_mem hc
      cases c with
      | saving n' b' =>
        cases hunsaved
        exact hnone i n (h.tag hi)
      | _ => cases hunsaved
    have hbalanced := h.sound.ledger.balanced b hb m
    rwa [howed, Int.add_zero] at hbalanced

theorem bills_balanced {d : Books} {moves : List (Move Uuid)} (hflow : d.flowBills = [])
    (hnode : d.nodeBills = [])
    (h : Along (Pool.step (start fl ev checked env)) (Orderly env) ⟨d, []⟩ moves) :
    Balanced (run (Pool.step (start fl ev checked env)) ⟨d, []⟩ moves) := by
  have hstep : ∀ p move, (∃ cs, Underway checked env p cs) → Orderly env p move →
      ∃ cs, Underway checked env (p.step (start fl ev checked env) move) cs := by
    rintro p move ⟨cs, hcs⟩ horderly
    cases move with
    | spawn nodeInstanceId => exact ⟨_, hcs.spawn nodeInstanceId⟩
    | go i => exact hcs.go horderly
  have hledger : Ledger d [] := by
    refine ⟨?_, ?_, ?_, ?_, ?_, ?_⟩
    · rw [hnode]
      exact List.nodup_nil
    · rw [hflow]
      exact List.nodup_nil
    · rw [hflow]
      exact List.nodup_nil
    · rw [hflow]
      exact fun _ hb => absurd hb List.not_mem_nil
    · rw [hnode]
      exact fun _ hn => absurd hn List.not_mem_nil
    · rw [hflow]
      exact fun _ hb => absurd hb List.not_mem_nil
  have hfollows : Pool.Follows (turns checked env) (⟨d, []⟩ : Calls) [] :=
    ⟨rfl, fun i x y hx => by cases hx⟩
  have halone : Mutual Elsewhere [] := fun i j a b _ hi => by cases hi
  have hcrew : Crew d [] :=
    ⟨fun _ hc => absurd hc List.not_mem_nil, halone, fun _ hc => absurd hc List.not_mem_nil⟩
  have hstart : ∃ cs, Underway checked env ⟨d, []⟩ cs := ⟨[], hfollows, hcrew, hledger⟩
  obtain ⟨cs, hcs⟩ := run_invariant hstep hstart h
  exact hcs.balanced

end Runs

section Samples

def cpuFormula : PriceMap where
  entries := [("p_node", "n_cpu")]
  nodup := by decide

-- The node costs as many units as it has used the cpu.
def pricedEnv (cpu : Uuid → UInt64) (answer : Nat → Answer) : Env where
  answer := answer
  nodeInstance _ id := some ⟨id, 70, { sampleMeter with cpu := cpu id }, 30⟩
  flowInstance _ id := some ⟨id, 5⟩
  settings _ _ := some (sampleSettings cpuFormula)

def hundredths : Env := pricedEnv (fun id => .ofNat (id * 10 ^ 8)) fun _ => .arrived

def halfHundredth : Env := pricedEnv (fun _ => 50000000) fun _ => .arrived

def saveRefused : Env :=
  pricedEnv (fun id => .ofNat (id * 10 ^ 8)) fun k => if k = 6 then .refused else .arrived

def blank : Books := ⟨[], [], [], fun n => 500 + n, 0⟩

def recorded (env : Env) (moves : List (Move Uuid)) : Calls :=
  run (Pool.step (start wholeFloats variableEvaluator true env)) ⟨blank, []⟩ moves

def twice (first second : Uuid) : List (Move Uuid) :=
  .spawn first :: List.replicate 11 (.go 0) ++ .spawn second :: List.replicate 11 (.go 1)

theorem bills_balanced_sample : Balanced (recorded hundredths (twice 1 2)) :=
  bills_balanced rfl rfl (by decide +kernel)

theorem Balanced.quiet {p : Calls} (h : Balanced p)
    (hquiet : ∀ i < p.threads.length, p.tag i = none) : ∀ b ∈ p.state.flowBills,
      b.amount .price = tally p.state.nodeBills b.flowInstanceId .price := by
  intro b hb
  refine h.sums b hb (fun i n htag => ?_) .price
  cases (Pool.tag_none_of_forall hquiet i).symm.trans htag

-- Half of a hundredth is rounded up.
theorem bills_unbalanced : ¬∀ (F : Type) (mentions : String → List String) (fl : Floats F)
    (ev : Evaluator F mentions) (checked : Bool) (env : Env) (d : Books)
    (moves : List (Move Uuid)), d.flowBills = [] → d.nodeBills = [] →
      Balanced (run (Pool.step (start fl ev checked env)) ⟨d, []⟩ moves) := by
  intro h
  have hsums := (h Int (fun txt => [txt]) wholeFloats variableEvaluator true halfHundredth blank
    (.spawn 1 :: List.replicate 11 (.go 0)) rfl rfl).quiet (by decide +kernel)
  revert hsums
  decide +kernel

-- A node whose total could not be saved is not added up when its call is repeated.
theorem repeated_call_unbilled : ¬Balanced (recorded saveRefused (twice 1 1)) := by
  intro hbalanced
  have hsums := hbalanced.quiet (by decide +kernel)
  revert hsums
  decide +kernel

end Samples

end Kuintessence.Billing.Recording
