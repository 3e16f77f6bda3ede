import Kuintessence.Billing.Totals

namespace Kuintessence.Billing.Recording

inductive Phase where
  | outside
  | reading (n : NodeInstanceBilling)
  | opening (n : NodeInstanceBilling)
  | inserting (n : NodeInstanceBilling) (b : FlowInstanceBilling)
  | saving (n : NodeInstanceBilling) (b : FlowInstanceBilling)
  | finished

namespace Phase

def tag : Phase → Option Access
  | .outside => some .other
  | .reading n => some (.readBill n)
  | .opening n => some (.openBill n)
  | .inserting n _ => some (.insertNode n)
  | .saving n _ => some (.save n)
  | .finished => none

def node : Phase → Option NodeInstanceBilling
  | .reading n | .opening n | .inserting n _ | .saving n _ => some n
  | .outside | .finished => none

-- The node bill of a call that is between its reading of the record and its saving.
def working : Phase → Option NodeInstanceBilling
  | .opening n | .inserting n _ | .saving n _ => some n
  | .outside | .reading _ | .finished => none

-- The node bill that is stored and not yet added up.
def unsaved : Phase → Option NodeInstanceBilling
  | .saving n _ => some n
  | _ => none

def added (n : NodeInstanceBilling) : Outcome String FlowInstanceBilling → Phase
  | .ok b => .inserting n b
  | _ => .finished

def Enters (c : Phase) : Prop :=
  c = .outside ∨ c = .finished ∨ ∃ n, c = .reading n ∧ n.price.scale = 10

end Phase

def Books.Same (s t : Books) : Prop := t.flowBills = s.flowBills ∧ t.nodeBills = s.nodeBills

inductive Turn (checked : Bool) (env : Env) : Phase → Books → Books → Phase → Prop where
  | aside {s t : Books} {c : Phase} (h : s.Same t) (hc : c.Enters) :
      Turn checked env .outside s t c
  | found {n : NodeInstanceBilling} {s t : Books} {b : FlowInstanceBilling} (h : s.Same t)
      (hb : FlowBillRepo.find s n.flowInstanceId = some b) :
      Turn checked env (.reading n) s t (.added n (b.addUp checked n))
  | missed {n : NodeInstanceBilling} {s t : Books} (h : s.Same t) :
      Turn checked env (.reading n) s t (.opening n)
  | kept {c : Phase} {s t : Books} (h : s.Same t) (hc : c.unsaved = none) :
      Turn checked env c s t .finished
  | opened {n : NodeInstanceBilling} {s t : Books} {b : FlowInstanceBilling} {c : Phase}
      (hflow : b.flowInstanceId = n.flowInstanceId) (hzero : b.toUsage = .zero)
      (hprice : b.totalPrice = ⟨0, 0⟩) (hclash : FlowBillRepo.clashes s b = false)
      (hflowBills : t.flowBills = s.flowBills ++ [{ b with totalPrice := ⟨0, 2⟩ }])
      (hnodeBills : t.nodeBills = s.nodeBills)
      (hc : c = .finished ∨ c = .added n (b.addUp checked n)) : Turn checked env (.opening n) s t c
  | inserted {n : NodeInstanceBilling} {b : FlowInstanceBilling} {s t : Books} {c : Phase}
      (hclash : NodeBillRepo.clashes s n = false) (hflowBills : t.flowBills = s.flowBills)
      (hnodeBills : t.nodeBills = s.nodeBills ++ [{ n with price := n.price.rescale 10 }])
      (hanswer : env.answer s.calls ≠ .refused)
      (hc : env.answer s.calls = .arrived → c = .saving n b) :
      Turn checked env (.inserting n b) s t c
  | unsaved {n : NodeInstanceBilling} {b : FlowInstanceBilling} {s t : Books} (h : s.Same t)
      (hanswer : env.answer s.calls = .refused ∨ b.totalPrice.column 12 2 = none) :
      Turn checked env (.saving n b) s t .finished
  | stray {n : NodeInstanceBilling} {b : FlowInstanceBilling} {s t : Books} {c : Phase}
      (hid : ∀ e ∈ s.flowBills, e.id ≠ b.id) : Turn checked env (.saving n b) s t c
  | saved {n : NodeInstanceBilling} {b : FlowInstanceBilling} {s t : Books} {c : Phase}
      (hflowBills : t.flowBills =
        FlowBillRepo.overwrite s { b with totalPrice := b.totalPrice.rescale 2 })
      (hnodeBills : t.nodeBills = s.nodeBills) (hc : c.Enters) :
      Turn checked env (.saving n b) s t c

def turns (checked : Bool) (env : Env) : Phases Phase Access Env Books where
  allowed := fun r => r = env
  tag := Phase.tag
  move := Turn checked env

section Conforming

variable {checked : Bool} {env : Env} {α β : Type}

def Books.asked (s : Books) : Books := { s with calls := s.calls + 1 }

theorem run_call (m : Act α) (s : Books) : call m env s = match env.answer s.calls with
    | .arrived => m env s.asked
    | .refused => (.err "connection refused", s.asked)
    | .lost => (m >>= fun _ => (.throw "connection lost" : Act α)) env s.asked := by
  change (match env.answer s.calls with
    | .arrived => m
    | .refused => .throw "connection refused"
    | .lost => m >>= fun _ => .throw "connection lost" : Act α) env s.asked = _
  cases env.answer s.calls <;> rfl

theorem lost_call (m : Act α) (s : Books) :
    ((m >>= fun _ => (.throw "connection lost" : Act α)) env s).2 = (m env s).2 ∧
      ∀ a, ((m >>= fun _ => (.throw "connection lost" : Act α)) env s).1 ≠ .ok a := by
  change (Effect.bind m _ env s).2 = _ ∧ ∀ a, (Effect.bind m _ env s).1 ≠ _
  rw [Effect.bind]
  generalize m env s = out
  obtain ⟨o, t⟩ := out
  cases o with
  | ok a => exact ⟨rfl, fun _ h => by cases h⟩
  | err e => exact ⟨rfl, fun _ h => by cases h⟩
  | panic => exact ⟨rfl, fun _ h => by cases h⟩

theorem call_cases (env : Env) (m : Act α) (s : Books) :
    env.answer s.calls = .arrived ∧ call m env s = m env s.asked ∨
      env.answer s.calls = .refused ∧ (call m env s).2 = s.asked ∧
        (∀ a, (call m env s).1 ≠ .ok a) ∨
      env.answer s.calls = .lost ∧ (call m env s).2 = (m env s.asked).2 ∧
        ∀ a, (call m env s).1 ≠ .ok a := by
  rw [run_call]
  cases env.answer s.calls with
  | arrived => exact .inl ⟨rfl, rfl⟩
  | refused => exact .inr (.inl ⟨rfl, rfl, fun _ h => by cases h⟩)
  | lost => exact .inr (.inr ⟨rfl, lost_call m s.asked⟩)

def steady : Effect.Frame Books where
  rel := Books.Same
  refl _ := ⟨rfl, rfl⟩
  trans h h' := ⟨h'.1.trans h.1, h'.2.trans h.2⟩

theorem keeps_call {m : Act α} (h : Effect.Keeps steady m) : Effect.Keeps steady (call m) := by
  intro env s
  obtain ⟨-, heq⟩ | ⟨-, heq, -⟩ | ⟨-, heq, -⟩ := call_cases env m s
  · rw [heq]
    exact h env s.asked
  · rw [heq]
    exact ⟨rfl, rfl⟩
  · rw [heq]
    exact h env s.asked

theorem keeps_orFail (message : String) (found : Option α) :
    Effect.Keeps steady (orFail message found) := by
  cases found with
  | none => exact Effect.keeps_throw message
  | some a => exact Effect.keeps_pure a

theorem keeps_newV4 : Effect.Keeps steady newV4 :=
  Effect.Keeps.bind Effect.keeps_get fun _ =>
    Effect.Keeps.bind (Effect.keeps_modify fun _ => ⟨rfl, rfl⟩) fun _ => Effect.keeps_pure _

-- What a call of another table's repository looks like.
theorem keeps_lookup (message : String) (find : Env → Books → Option α) :
    Effect.Keeps steady (call do
      let env ← .read
      let d ← .get
      orFail message (find env d)) :=
  keeps_call (Effect.Keeps.bind Effect.keeps_read fun _ =>
    Effect.Keeps.bind Effect.keeps_get fun _ => keeps_orFail _ _)

theorem keeps_getBill (flowInstanceId : Uuid) :
    Effect.Keeps steady (FlowBillRepo.getByFlowInstanceId flowInstanceId) :=
  keeps_call (Effect.Keeps.bind Effect.keeps_get fun _ => keeps_orFail _ _)

theorem keeps_getNodeBills (flowInstanceId : Uuid) :
    Effect.Keeps steady (NodeBillRepo.getAllByFlowInstanceId flowInstanceId) :=
  keeps_call (Effect.Keeps.bind Effect.keeps_get fun _ => Effect.keeps_pure _)

theorem keeps_sendMessage (userId : Uuid) (b : FlowInstanceBilling)
    (ns : List NodeInstanceBilling) :
    Effect.Keeps steady (UserWebhookService.sendMessage userId b ns) :=
  keeps_call (Effect.keeps_modify fun _ => ⟨rfl, rfl⟩)

theorem run_insertFlow (env : Env) (b : FlowInstanceBilling) (s : Books) :
    FlowBillRepo.insertRow b env s = match b.totalPrice.column 12 2 with
      | none => (.err "numeric field overflow", s)
      | some totalPrice =>
        if FlowBillRepo.clashes s b then (.err "None of the records are inserted", s)
        else (.ok b,
          { s with flowBills := s.flowBills ++ [{ b with totalPrice := totalPrice }] }) := by
  change (orFail "numeric field overflow" (b.totalPrice.column 12 2) >>= _) env s = _
  cases b.totalPrice.column 12 2 with
  | none => rfl
  | some totalPrice =>
    change (if FlowBillRepo.clashes s b = true then _ else _ : Act _) env s = _
    dsimp only
    split <;> rfl

theorem run_insertNode (env : Env) (n : NodeInstanceBilling) (s : Books) :
    NodeBillRepo.insertRow n env s = match n.price.column 20 10 with
      | none => (.err "numeric field overflow", s)
      | some price =>
        if NodeBillRepo.clashes s n then (.err "None of the records are inserted", s)
        else (.ok n, { s with nodeBills := s.nodeBills ++ [{ n with price := price }] }) := by
  change (orFail "numeric field overflow" (n.price.column 20 10) >>= _) env s = _
  cases n.price.column 20 10 with
  | none => rfl
  | some price =>
    change (if NodeBillRepo.clashes s n = true then _ else _ : Act _) env s = _
    dsimp only
    split <;> rfl

theorem run_execute (env : Env) {b : FlowInstanceBilling} {s : Books} (h : ∃ e ∈ s.flowBills, e.id = b.id) :
    FlowBillRepo.execute b env s = match b.totalPrice.column 12 2 with
      | none => (.err "numeric field overflow", s)
      | some totalPrice =>
        (.ok (), { s with
          flowBills := FlowBillRepo.overwrite s { b with totalPrice := totalPrice } }) := by
  have hany : s.flowBills.any (·.id = b.id) = true := by
    simpa using h
  change (orFail "numeric field overflow" (b.totalPrice.column 12 2) >>= _) env s = _
  cases b.totalPrice.column 12 2 with
  | none => rfl
  | some totalPrice =>
    change (if s.flowBills.any (·.id = b.id) = true then _ else _ : Act _) env s = _
    rw [if_pos hany]
    rfl

abbrev Ends (checked : Bool) (env : Env) (p : Steps Unit) (c : Phase) : Prop :=
  Prog.Conforms (turns checked env) p c fun _ z => z.tag = none

theorem ends_then {m : Act α} {f : α → Steps Unit} (hm : Effect.Keeps steady m)
    (hf : ∀ a, ∃ c : Phase, c.Enters ∧ Ends checked env (f a) c) :
    Ends checked env (Prog.atom .other m >>= f) .outside := by
  refine Prog.Conforms.bind (Prog.conforms_atom rfl fun r hr s => ?_)
  cases hr
  cases ho : (m env s).1 with
  | ok a =>
    obtain ⟨c, hc, hends⟩ := hf a
    exact ⟨c, .aside (hm env s) hc, hends⟩
  | err e => exact ⟨.finished, .aside (hm env s) (.inr (.inl rfl)), rfl⟩
  | panic => exact ⟨.finished, .aside (hm env s) (.inr (.inl rfl)), rfl⟩

theorem ends_last {m : Act Unit} (hm : Effect.Keeps steady m) :
    Ends checked env (Prog.atom .other m) .outside := by
  refine Prog.conforms_atom rfl fun r hr s => ?_
  cases hr
  exact ⟨.finished, .aside (hm env s) (.inr (.inl rfl)), rfl⟩

theorem ends_report (userId flowInstanceId : Uuid) :
    Ends checked env (report userId flowInstanceId) .outside :=
  ends_then (keeps_getBill flowInstanceId) fun _ => ⟨.outside, .inl rfl,
    ends_then (keeps_getNodeBills flowInstanceId) fun _ => ⟨.outside, .inl rfl,
      ends_last (keeps_sendMessage userId _ _)⟩⟩

theorem sequel_finished {f : α → Steps Unit} {o : Outcome String α} (h : ∀ a, o ≠ .ok a) :
    Prog.Sequel (turns checked env) f (fun _ z => z.tag = none) o .finished := by
  cases o with
  | ok a => exact absurd rfl (h a)
  | err e => rfl
  | panic => rfl

theorem ends_save (n : NodeInstanceBilling) (b : FlowInstanceBilling) {next : Steps Unit}
    (hnext : Ends checked env next .outside) :
    Ends checked env (Prog.atom (.save n) (FlowBillRepo.insertOrUpdateAndSave b) >>= fun _ => next)
      (.saving n b) := by
  refine Prog.Conforms.bind (Prog.conforms_atom rfl fun r hr s => ?_)
  cases hr
  by_cases hid : ∃ e ∈ s.flowBills, e.id = b.id
  · have hsaved {c : Phase} (totalPrice : Decimal) (hc : c.Enters)
        (hcolumn : b.totalPrice.column 12 2 = some totalPrice) (k : Nat) :
        Turn checked env (.saving n b) s { s with
          calls := k
          flowBills := FlowBillRepo.overwrite s { b with totalPrice := totalPrice } } c := by
      rw [Decimal.column_eq_some hcolumn]
      exact .saved rfl rfl hc
    have hexecute := run_execute env (s := s.asked) hid
    obtain ⟨-, hrun⟩ | ⟨hanswer, hrun, hnot⟩ | ⟨-, hrun, hnot⟩ :=
      call_cases env (FlowBillRepo.execute b) s
    · rw [FlowBillRepo.insertOrUpdateAndSave, hrun, hexecute]
      cases hcolumn : b.totalPrice.column 12 2 with
      | none => exact ⟨.finished, .unsaved ⟨rfl, rfl⟩ (.inr hcolumn), rfl⟩
      | some totalPrice => exact ⟨.outside, hsaved _ (.inl rfl) hcolumn _, hnext⟩
    · refine ⟨.finished, ?_, sequel_finished hnot⟩
      rw [FlowBillRepo.insertOrUpdateAndSave, hrun]
      exact .unsaved ⟨rfl, rfl⟩ (.inl hanswer)
    · refine ⟨.finished, ?_, sequel_finished hnot⟩
      rw [FlowBillRepo.insertOrUpdateAndSave, hrun, hexecute]
      cases hcolumn : b.totalPrice.column 12 2 with
      | none => exact .unsaved ⟨rfl, rfl⟩ (.inr hcolumn)
      | some totalPrice => exact hsaved _ (.inr (.inl rfl)) hcolumn _
  · have hstray : ∀ e ∈ s.flowBills, e.id ≠ b.id := fun e he heq => hid ⟨e, he, heq⟩
    cases ho : (FlowBillRepo.insertOrUpdateAndSave b env s).1 with
    | ok a => exact ⟨.outside, .stray hstray, hnext⟩
    | err e => exact ⟨.finished, .stray hstray, rfl⟩
    | panic => exact ⟨.finished, .stray hstray, rfl⟩

theorem ends_insert (n : NodeInstanceBilling) (b : FlowInstanceBilling) {next : Steps Unit}
    (hnext : Ends checked env next (.saving n b)) :
    Ends checked env (Prog.atom (.insertNode n) (NodeBillRepo.insert n) >>= fun _ => next)
      (.inserting n b) := by
  refine Prog.Conforms.bind (Prog.conforms_atom rfl fun r hr s => ?_)
  cases hr
  have hinserted {c : Phase} (price : Decimal) (hcolumn : n.price.column 20 10 = some price)
      (hclash : ¬NodeBillRepo.clashes s.asked n = true) (k : Nat)
      (hanswer : env.answer s.calls ≠ .refused)
      (hc : env.answer s.calls = .arrived → c = .saving n b) :
      Turn checked env (.inserting n b) s { s with
        calls := k
        nodeBills := s.nodeBills ++ [{ n with price := price }] } c := by
    rw [Decimal.column_eq_some hcolumn]
    exact .inserted (Bool.eq_false_iff.mpr hclash) rfl rfl hanswer hc
  obtain ⟨hanswer, hrun⟩ | ⟨-, hrun, hnot⟩ | ⟨hanswer, hrun, hnot⟩ :=
    call_cases env (NodeBillRepo.insertRow n) s
  · rw [NodeBillRepo.insert, hrun, run_insertNode]
    cases hcolumn : n.price.column 20 10 with
    | none => exact ⟨.finished, .kept ⟨rfl, rfl⟩ rfl, rfl⟩
    | some price =>
      dsimp only
      split
      · exact ⟨.finished, .kept ⟨rfl, rfl⟩ rfl, rfl⟩
      · next hclash =>
        refine ⟨.saving n b, hinserted price hcolumn hclash _ ?_ fun _ => rfl, hnext⟩
        rw [hanswer]
        exact fun h => by cases h
  · refine ⟨.finished, ?_, sequel_finished hnot⟩
    rw [NodeBillRepo.insert, hrun]
    exact .kept ⟨rfl, rfl⟩ rfl
  · refine ⟨.finished, ?_, sequel_finished hnot⟩
    rw [NodeBillRepo.insert, hrun, run_insertNode]
    cases hcolumn : n.price.column 20 10 with
    | none => exact .kept ⟨rfl, rfl⟩ rfl
    | some price =>
      dsimp only
      split
      · exact .kept ⟨rfl, rfl⟩ rfl
      · next hclash =>
        refine hinserted price hcolumn hclash _ ?_ ?_
        · rw [hanswer]
          exact fun h => by cases h
        · rw [hanswer]
          exact fun h => by cases h

theorem ends_open (userId : Uuid) (n : NodeInstanceBilling) {next : FlowInstanceBilling → Steps Unit}
    (hnext : ∀ b, Ends checked env (next b) (.added n (b.addUp checked n))) :
    Prog.Conforms (turns checked env) (Prog.atom (.openBill n) (openBill userId n.flowInstanceId))
      (.opening n) (Prog.Sequel (turns checked env) next fun _ z => z.tag = none) := by
  refine Prog.conforms_atom rfl fun r hr s => ?_
  cases hr
  let b : FlowInstanceBilling := ⟨.zero, s.ids 0, n.flowInstanceId, ⟨0, 0⟩, userId⟩
  let u : Books := { s with ids := fun k => s.ids (k + 1) }
  have hid : newV4 env s = (.ok (s.ids 0), u) := rfl
  have hopen : openBill userId n.flowInstanceId env s = FlowBillRepo.insert b env u :=
    Effect.bind_of_ok hid _
  have hcolumn : b.totalPrice.column 12 2 = some ⟨0, 2⟩ := rfl
  have hrun : FlowBillRepo.insertRow b env u.asked =
      if FlowBillRepo.clashes u.asked b then (.err "None of the records are inserted", u.asked)
      else (.ok b,
        { u.asked with flowBills := u.flowBills ++ [{ b with totalPrice := ⟨0, 2⟩ }] }) := by
    rw [run_insertFlow, hcolumn]
    rfl
  rw [hopen]
  obtain ⟨-, hcall⟩ | ⟨-, hcall, hnot⟩ | ⟨-, hcall, hnot⟩ :=
    call_cases env (FlowBillRepo.insertRow b) u
  · rw [FlowBillRepo.insert, hcall, hrun]
    split
    · exact ⟨.finished, .kept ⟨rfl, rfl⟩ rfl, rfl⟩
    · next hclash =>
      exact ⟨_, .opened (b := b) rfl rfl rfl (Bool.eq_false_iff.mpr hclash) rfl rfl (.inr rfl),
        hnext b⟩
  · refine ⟨.finished, ?_, sequel_finished hnot⟩
    rw [FlowBillRepo.insert, hcall]
    exact .kept ⟨rfl, rfl⟩ rfl
  · refine ⟨.finished, ?_, sequel_finished hnot⟩
    rw [FlowBillRepo.insert, hcall, hrun]
    split
    · exact .kept ⟨rfl, rfl⟩ rfl
    · next hclash =>
      exact .opened (b := b) rfl rfl rfl (Bool.eq_false_iff.mpr hclash) rfl rfl (.inl rfl)

theorem ends_charge (userId : Uuid) (n : NodeInstanceBilling) :
    Ends checked env (charge checked userId n) (.reading n) := by
  let next : FlowInstanceBilling → Steps Unit := fun flowBill => do
    let flowBill ← Prog.done (flowBill.addUp checked n)
    let _ ← Prog.atom (.insertNode n) (NodeBillRepo.insert n)
    Prog.atom (.save n) (FlowBillRepo.insertOrUpdateAndSave flowBill)
    report userId n.flowInstanceId
  have hnext (b : FlowInstanceBilling) :
      Ends checked env (next b) (.added n (b.addUp checked n)) := by
    change Prog.Conforms _ (Prog.done (b.addUp checked n) >>= _) _ _
    cases b.addUp checked n with
    | ok b' => exact ends_insert n b' (ends_save n b' (ends_report userId n.flowInstanceId))
    | err e => rfl
    | panic => rfl
  have hopen := ends_open userId n hnext
  refine Prog.Conforms.bind (Prog.Conforms.bind (Prog.Conforms.attempt
    (Prog.conforms_atom rfl fun r hr s => ?_)))
  cases hr
  have hkeeps : s.Same (FlowBillRepo.getByFlowInstanceId n.flowInstanceId env s).2 :=
    keeps_getBill n.flowInstanceId env s
  cases ho : (FlowBillRepo.getByFlowInstanceId n.flowInstanceId env s).1 with
  | ok b =>
    refine ⟨_, .found hkeeps ?_, hnext b⟩
    obtain ⟨-, hrun⟩ | ⟨-, -, hnot⟩ | ⟨-, -, hnot⟩ := call_cases env
      (Effect.get >>= fun d => orFail "No such Flow Instence" (FlowBillRepo.find d n.flowInstanceId))
      s
    · have hfind := (congrArg Prod.fst hrun).symm.trans ho
      change (orFail _ (FlowBillRepo.find s.asked n.flowInstanceId) env s.asked).1 = _ at hfind
      cases hb : FlowBillRepo.find s.asked n.flowInstanceId with
      | none =>
        rw [hb] at hfind
        cases hfind
      | some b' =>
        rw [hb] at hfind
        cases hfind
        exact hb
    · exact absurd ho (hnot b)
    · exact absurd ho (hnot b)
  | err e => exact ⟨.opening n, .missed hkeeps, hopen⟩
  | panic => exact ⟨.finished, .kept hkeeps rfl, rfl⟩

end Conforming

section Service

variable {F : Type} {mentions : String → List String} {fl : Floats F} {ev : Evaluator F mentions}
  {checked : Bool} {env : Env}

theorem ends_recordBill (nodeInstanceId : Uuid) :
    Ends checked env (recordBill fl ev checked nodeInstanceId) .outside := by
  refine ends_then (keeps_lookup "No such Node Instance" fun env d =>
    env.nodeInstance d.calls nodeInstanceId) fun nodeInstance => ⟨.outside, .inl rfl, ?_⟩
  refine ends_then (keeps_lookup "No such Flow Instance" fun env d =>
    env.flowInstance d.calls nodeInstance.flowId) fun flowInstance => ⟨.outside, .inl rfl, ?_⟩
  refine ends_then (keeps_lookup "No such cluster" fun env d =>
    env.settings d.calls nodeInstance.clusterId) fun settings => ?_
  cases hpriced : calculate fl ev nodeInstance.resourceMeter settings with
  | ok priced =>
    exact ⟨.outside, .inl rfl, ends_then keeps_newV4 fun id =>
      ⟨.reading _, .inr (.inr ⟨_, rfl, calculate_scale hpriced⟩), ends_charge _ _⟩⟩
  | err e => exact ⟨.finished, .inr (.inl rfl), rfl⟩
  | panic => exact ⟨.finished, .inr (.inl rfl), rfl⟩

end Service

end Kuintessence.Billing.Recording
