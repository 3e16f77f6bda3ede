import Kuintessence.Workflow.Staleness

namespace Kuintessence

open Effect WorkflowService

variable {env : Env} {w s : World} {user : Option Uuid} {draftId : Uuid}

def World.called (w : World) : World := { w with calls := w.calls + 1 }

theorem wp_call_exact (env : Env) (s : World) :
    wp call env (fun k t => env.fails s.calls = false ∧ k = s.calls ∧ t = s.called)
      (fun t => env.fails s.calls = true ∧ t = s.called) s := by
  unfold call attempt
  simp only [wp_bind, wp_get, wp_read, wp_modify, wp_pure]
  cases hfails : env.fails s.calls with
  | false => exact ⟨rfl, rfl, rfl⟩
  | true => exact ⟨rfl, rfl⟩

section Gen

variable {α β : Type} {Q : α → World → Prop} {R : β → World → Prop} {E : World → Prop}

theorem wp_gen_iff {m : Gen α} :
    wp (gen m) env Q E s ↔
      wp m () (fun a ids => Q a { s with ids := ids }) (fun ids => E { s with ids := ids }) s.ids := by
  unfold wp gen
  generalize m () s.ids = out
  obtain ⟨o, ids⟩ := out
  cases o <;> rfl

end Gen

def instantiate (iter : Order (Uuid × Uuid)) (draft : WorkflowDraft) :
    Gen (WorkflowInstance × List NodeInstance) := do
  let flow ← WorkflowInstance.from iter draft
  let nodes ← flow.parseNodeInstances
  pure (flow, nodes)

structure Registers (env : Env) (w : World) (user : Option Uuid) (draftId : Uuid)
    (draft : WorkflowDraft) : Prop where
  found : env.fails w.calls = false ∧ env.draft w.calls draftId = some draft
  accepted : draft.spec.validateWorkflowDraft (env.fileMeta (w.calls + 1)) = .ok ()
  parsed : ∃ p, (instantiate (env.idMap (w.calls + 1)) draft () w.ids).1 = .ok p
  owned : user ≠ none
  inserted : env.fails (w.calls + 1) = false

def register (draftId : Uuid) : Svc (WorkflowInstance × List NodeInstance) := do
  let env ← .read
  let draft ← getDraftById draftId
  checkDraft draft.spec
  let w ← .get
  let p ← gen (instantiate (env.idMap w.calls) draft)
  insertFlow p.1
  pure p

theorem wp_submitWorkflow_eq {Q : Uuid → World → Prop} {E : World → Prop} (draftId : Uuid) :
    wp (submitWorkflow draftId) env Q E s ↔
      wp (register draftId) env (fun p t =>
        wp (each insertNode p.2) env (fun _ u =>
          wp saveChanged env (fun _ v => Q p.1.id v) E u) E t) E s := by
  simp only [submitWorkflow, register, instantiate, wp_bind, wp_pure, wp_gen_iff]

structure Found (env : Env) (w : World) (user : Option Uuid) (draftId : Uuid)
    (draft : WorkflowDraft) (s : World) : Prop where
  found : env.fails w.calls = false ∧ env.draft w.calls draftId = some draft
  state : s = (w.open user).called

def Unregistered (env : Env) (w : World) (user : Option Uuid) (draftId : Uuid) (t : World) : Prop :=
  (∀ draft, ¬Registers env w user draftId draft) ∧ t.db = w.db

theorem wp_findDraft (env : Env) (w : World) (user : Option Uuid) (draftId : Uuid) :
    wp (getDraftById draftId) env (fun draft t => Found env w user draftId draft t)
      (Unregistered env w user draftId) (w.open user) := by
  unfold getDraftById
  rw [wp_bind, wp_read, wp_bind]
  refine wp_mono (wp_call_exact env (w.open user)) (fun k t hcall => ?_) (fun t hcall => ?_)
  · obtain ⟨hfails, rfl, rfl⟩ := hcall
    change env.fails w.calls = false at hfails
    cases hdraft : env.draft (w.open user).calls draftId with
    | some draft => exact ⟨⟨hfails, hdraft⟩, rfl⟩
    | none =>
      refine ⟨fun draft h => ?_, rfl⟩
      have hfound : env.draft (w.open user).calls draftId = some draft := h.found.2
      rw [hdraft] at hfound
      cases hfound
  · obtain ⟨hfails, rfl⟩ := hcall
    refine ⟨fun draft h => ?_, rfl⟩
    have hfound := h.found.1
    rw [show env.fails w.calls = true from hfails] at hfound
    cases hfound

theorem Found.unregistered {draft : WorkflowDraft} (h : Found env w user draftId draft s)
    (hdb : s.db = w.db) (hnot : ¬Registers env w user draftId draft) :
    Unregistered env w user draftId s := by
  refine ⟨fun other hother => hnot ?_, hdb⟩
  have hsame := hother.found.2
  rw [h.found.2] at hsame
  rw [Option.some.inj hsame]
  exact hother

structure Built (env : Env) (w : World) (user : Option Uuid) (draftId : Uuid)
    (draft : WorkflowDraft) (p : WorkflowInstance × List NodeInstance) (s : World) : Prop where
  found : env.fails w.calls = false ∧ env.draft w.calls draftId = some draft
  accepted : draft.spec.validateWorkflowDraft (env.fileMeta (w.calls + 1)) = .ok ()
  parsed : ∃ p, (instantiate (env.idMap (w.calls + 1)) draft () w.ids).1 = .ok p
  fresh : p.1.id ∉ w.db.used
  state : ∃ ids, s = { (w.open user).called with ids := ids }

theorem wp_checkDraft_iff {Q : Unit → World → Prop} {E : World → Prop} (spec : WorkflowDraftSpec) :
    wp (checkDraft spec) env Q E s ↔
      (spec.validateWorkflowDraft (env.fileMeta s.calls) = .ok () → Q () s) ∧
        (spec.validateWorkflowDraft (env.fileMeta s.calls) ≠ .ok () → E s) := by
  unfold checkDraft
  simp only [wp_bind, wp_read, wp_get, wp_lift]
  cases spec.validateWorkflowDraft (env.fileMeta s.calls) with
  | ok u =>
    constructor
    · exact fun h => ⟨fun _ => h.1 () rfl, fun hne => absurd rfl hne⟩
    · exact fun h => ⟨fun _ _ => h.1 rfl, fun hne => absurd rfl (hne u)⟩
  | err e => simp
  | panic => simp

theorem instantiate_fresh (hs : Sound w) (iter : Order (Uuid × Uuid)) (draft : WorkflowDraft) :
    wp (instantiate iter draft) () (fun p _ => p.1.id ∉ w.db.used) (fun _ => True) w.ids := by
  unfold instantiate
  rw [wp_bind]
  refine wp_mono (wp_instanceFrom hs.supply _ draft) (fun flow ids hsub => ?_) (fun _ he => he)
  rw [wp_bind]
  exact wp_mono (wp_true _) (fun _ _ _ => hsub.id_fresh) (fun _ _ => trivial)

theorem wp_build (hs : Sound w) {draft : WorkflowDraft} (h : Found env w user draftId draft s) :
    wp (checkDraft draft.spec >>= fun _ => Effect.get >>= fun w =>
        gen (instantiate (env.idMap w.calls) draft)) env
      (fun p t => Built env w user draftId draft p t) (Unregistered env w user draftId) s := by
  have hlost {t : World} (hdb : t.db = w.db) (hnot : ¬Registers env w user draftId draft) :
      Unregistered env w user draftId t :=
    ⟨(h.unregistered (by rw [h.state]; rfl) hnot).1, hdb⟩
  obtain ⟨hfound, rfl⟩ := h
  rw [wp_bind, wp_checkDraft_iff]
  change (draft.spec.validateWorkflowDraft (env.fileMeta (w.calls + 1)) = _ → _) ∧
    (draft.spec.validateWorkflowDraft (env.fileMeta (w.calls + 1)) ≠ _ → _)
  constructor
  · intro hvalid
    rw [wp_bind, wp_get, wp_gen_iff]
    change wp (instantiate (env.idMap (w.calls + 1)) draft) () _ _ w.ids
    refine wp_mono (wp_and (wp_result _ () w.ids) (instantiate_fresh hs _ draft))
      (fun p ids hp => ?_) (fun ids hnone => hlost rfl fun h => ?_)
    · exact ⟨hfound, hvalid, ⟨p, by rw [hp.1]⟩, hp.2, ids, rfl⟩
    · obtain ⟨p, hp⟩ := h.parsed
      exact hnone.1 p hp
  · exact fun hinvalid => hlost rfl fun h => hinvalid h.accepted

structure Entered (env : Env) (w : World) (user : Option Uuid) (draftId : Uuid) (id : Uuid)
    (t : World) : Prop where
  registers : ∃ draft, Registers env w user draftId draft
  row : ∃ row, row.id = id ∧ t.db = ⟨w.db.flows ++ [row], w.db.nodes⟩
  statements : t.statements = []

theorem wp_enter {draft : WorkflowDraft} {p : WorkflowInstance × List NodeInstance}
    (h : Built env w user draftId draft p s) :
    wp (insertFlow p.1) env (fun _ t => Entered env w user draftId p.1.id t)
      (Unregistered env w user draftId) s := by
  obtain ⟨hfound, hvalid, hparsed, hfresh, ids, rfl⟩ := h
  have hlost {t : World} (hdb : t.db = w.db) (hnot : ¬Registers env w user draftId draft) :
      Unregistered env w user draftId t :=
    ⟨(Found.unregistered ⟨hfound, rfl⟩ rfl hnot).1, hdb⟩
  unfold insertFlow
  rw [wp_bind, wp_read, wp_bind, wp_get]
  cases user with
  | none => exact hlost rfl fun h => h.owned rfl
  | some owner =>
    change wp (call >>= _) env _ _ _
    rw [wp_bind]
    refine wp_mono (wp_call_exact env _) (fun k t hcall => ?_) (fun t hcall => ?_)
    · obtain ⟨hfails, -, rfl⟩ := hcall
      rw [wp_bind, wp_get]
      split
      · next htaken =>
        rw [List.any_eq_true] at htaken
        obtain ⟨row, hrow, hid⟩ := htaken
        rw [beq_iff_eq] at hid
        apply absurd _ hfresh
        rw [← hid]
        exact Tables.id_mem_used (Tables.mem_plans hrow)
      · exact ⟨⟨draft, hfound, hvalid, hparsed, Option.some_ne_none _, hfails⟩,
          ⟨{ p.1 with userId := owner, lastModifiedTime := _ }, rfl, rfl⟩, rfl⟩
    · obtain ⟨hfails, rfl⟩ := hcall
      refine hlost rfl fun h => ?_
      have hinserted := h.inserted
      rw [show env.fails (w.calls + 1) = true from hfails] at hinserted
      cases hinserted

theorem wp_register (hs : Sound w) (user : Option Uuid) (draftId : Uuid) :
    wp (register draftId) env (fun p t => Entered env w user draftId p.1.id t)
      (Unregistered env w user draftId) (w.open user) := by
  unfold register
  rw [wp_bind, wp_read, wp_bind]
  refine wp_mono (wp_findDraft env w user draftId) (fun draft s hfound => ?_) (fun _ he => he)
  have hbuild := wp_build hs hfound
  rw [wp_bind] at hbuild ⊢
  refine wp_mono hbuild (fun _ t ht => ?_) (fun _ he => he)
  rw [wp_bind, wp_get] at ht ⊢
  rw [wp_bind]
  refine wp_mono ht (fun p u hu => ?_) (fun _ he => he)
  rw [wp_bind]
  exact wp_mono (wp_enter hu) (fun _ _ hv => hv) (fun _ he => he)

inductive Failed (env : Env) (w : World) (user : Option Uuid) (draftId : Uuid) (t : World) : Prop where
  | nothing (h : Unregistered env w user draftId t)
  | row (row : WorkflowInstance) (registers : ∃ draft, Registers env w user draftId draft)
      (db : t.db = ⟨w.db.flows ++ [row], w.db.nodes⟩)

theorem wp_submit_failed (hs : Sound w) (user : Option Uuid) (draftId : Uuid) :
    wp (submitWorkflow draftId) env (fun _ _ => True) (Failed env w user draftId) (w.open user) := by
  rw [wp_submitWorkflow_eq]
  refine wp_mono (wp_register hs user draftId) (fun p t hentered => ?_) (fun _ h => .nothing h)
  obtain ⟨hregisters, ⟨row, -, hdb⟩, hstatements⟩ := hentered
  have hmid : Mid t.ids t.db (notices t.trace) [] [] t := by
    refine ⟨rfl, rfl, ?_, fun _ => hstatements, .refl _⟩
    rw [hstatements]
    exact .nil _
  have hfailed : ∀ u, u.db = t.db → Failed env w user draftId u :=
    fun u hu => .row row hregisters (hu.trans hdb)
  refine wp_mono (wp_insertNodes hmid p.2) (fun _ u hu => ?_) (fun u hu => hfailed u hu.db_eq)
  exact wp_mono (wp_save hu.canDrop) (fun _ _ _ => trivial)
    (fun v hv => hfailed v (hv.db.trans hu.db_eq))

theorem failed_submission_iff {ids : Nat → Uuid} (hids : Function.Injective ids) (files : Files)
    (qs : List Request) (user : Option Uuid) (draftId : Uuid) {w w' : World} {o : Anyhow Uuid}
    (hw : run (step env) (World.start ids files) qs = w)
    (hrun : submitWorkflow draftId env (w.open user) = (o, w')) (hfailed : ∀ id, o ≠ .ok id) :
    (w'.db = w.db ↔ ∀ draft, ¬Registers env w user draftId draft) ∧
      (w'.db ≠ w.db → ∃ row, w'.db = ⟨w.db.flows ++ [row], w.db.nodes⟩) := by
  have hs : Sound w := hw ▸ run_sound (start_sound hids files) qs
  have hleft : Failed env w user draftId w' := by
    have hwp : wp (submitWorkflow draftId) env _ _ (w.open user) := wp_submit_failed hs user draftId
    rcases wp_run hwp with ⟨id, hok, -⟩ | ⟨-, h⟩
    · rw [hrun] at hok
      exact absurd hok (hfailed id)
    · rw [hrun] at h
      exact h
  cases hleft with
  | nothing h => exact ⟨⟨fun _ => h.1, fun _ => h.2⟩, fun hne => absurd h.2 hne⟩
  | row row hregisters hdb =>
    have hne : w'.db ≠ w.db := by
      intro heq
      have hflows := congrArg (fun t => t.flows.length) (hdb.symm.trans heq)
      simp only [List.length_append, List.length_singleton] at hflows
      omega
    obtain ⟨draft, hdraft⟩ := hregisters
    exact ⟨⟨fun heq => absurd heq hne, fun hnone => absurd hdraft (hnone draft)⟩, fun _ => ⟨row, hdb⟩⟩

section Samples

def failingAt (k : Nat) : Env := { sampleEnv [chain] with fails := fun n => n == k }

def submitFailing (k : Nat) : Anyhow Uuid × World :=
  submitWorkflow 900 (failingAt k) (newborn.open (some 5))

theorem lost_save_leaves_row :
    (submitFailing 4).1 = .err (.anyhow "external call failed") ∧
      (submitFailing 4).2.db.flows.map WorkflowInstance.id = [100] ∧
      (submitFailing 4).2.db.nodes = [] := by
  decide +kernel

theorem failed_submissions :
    (submitFailing 1).2.db = newborn.db ∧ ∃ row, (submitFailing 4).2.db = ⟨[row], []⟩ := by
  have hfailed : ∀ k ∈ [1, 4], (submitFailing k).1 = .err (.anyhow "external call failed") := by
    decide +kernel
  have hne : ∀ k ∈ [1, 4], ∀ id, (submitFailing k).1 ≠ .ok id := by
    intro k hk id
    rw [hfailed k hk]
    exact fun h => nomatch h
  have hstored : (submitFailing 4).2.db ≠ newborn.db := by decide +kernel
  have hearly : ((submitFailing 1).2.db = newborn.db ↔
      ∀ draft, ¬Registers (failingAt 1) newborn (some 5) 900 draft) ∧ _ :=
    failed_submission_iff sampleIds_injective sampleFiles [] (some 5) 900 rfl
      (show submitWorkflow 900 (failingAt 1) (newborn.open (some 5)) = (_, _) from rfl)
      (hne 1 (by decide))
  have hlate : _ ∧ ((submitFailing 4).2.db ≠ newborn.db → _) :=
    failed_submission_iff sampleIds_injective sampleFiles [] (some 5) 900 rfl
      (show submitWorkflow 900 (failingAt 4) (newborn.open (some 5)) = (_, _) from rfl)
      (hne 4 (by decide))
  refine ⟨hearly.1.mpr fun draft h => ?_, hlate.2 hstored⟩
  exact absurd h.inserted (by decide)

end Samples

end Kuintessence
