import Kuintessence.Engine.Requests
import Kuintessence.Instance.Copy

namespace Kuintessence

open Effect WorkflowService

variable {ids : Nat → Uuid} {db db' : Tables} {ns : List Notice} {ms : List NodeMark}
  {fs : List FlowMark} {s t w w' : World} {env : Env}

theorem Executes.inserts {rows : List NodeInstance}
    (h : Executes db (rows.map Statement.insertNode) db') :
    db'.flows = db.flows ∧ db'.nodes = db.nodes ++ rows := by
  induction rows generalizing db with
  | nil =>
    cases h
    exact ⟨rfl, (List.append_nil _).symm⟩
  | cons row rows ih =>
    rw [List.map_cons] at h
    cases h with
    | cons stamp hone hrest =>
      simp only [Tables.execute] at hone
      split at hone
      · exact absurd hone.symm (Option.some_ne_none _)
      · cases hone
        obtain ⟨hflows, hnodes⟩ := ih hrest
        refine ⟨hflows, ?_⟩
        rw [hnodes, List.append_assoc, List.singleton_append]

structure Inserting (ids : Nat → Uuid) (db : Tables) (ns : List Notice)
    (rows : List NodeInstance) (s : World) : Prop where
  db_eq : s.db = db
  notices_eq : notices s.trace = ns
  statements : s.statements = rows.map Statement.insertNode
  canDrop : s.canDrop = true → s.statements = []
  ids : Tail ids s.ids

theorem wp_insertNode {rows : List NodeInstance} (h : Inserting ids db ns rows s)
    (node : NodeInstance) :
    wp (insertNode node) env (fun _ t => Inserting ids db ns (rows ++ [node]) t)
      (Left ids db ns) s := by
  unfold insertNode
  rw [wp_bind]
  refine wp_mono (keeps_call.wp env s) (fun _ t ht => ⟨?_, ?_, ?_, ?_, ?_⟩)
    (fun t ht => ⟨ht.db.trans h.db_eq, ?_, h.ids.trans ht.ids⟩)
  · exact ht.db.trans h.db_eq
  · change notices t.trace = ns
    rw [ht.trace, h.notices_eq]
  · change t.statements ++ [.insertNode node] = _
    rw [ht.statements, h.statements, List.map_append, List.map_singleton]
  · exact fun hd => absurd hd Bool.false_ne_true
  · exact h.ids.trans ht.ids
  · rw [ht.trace]
    exact h.notices_eq

theorem wp_insertNodes (h : Mid ids db ns [] [] s) (rows : List NodeInstance) :
    wp (each insertNode rows) env (fun _ t => Inserting ids db ns rows t) (Left ids db ns) s := by
  refine wp_each (fun pre t => Inserting ids db ns pre t) rows
    (fun _ node _ _ _ ht => wp_insertNode ht node) ?_
  exact ⟨h.db_eq, h.notices_eq, h.pending.eq_nil, h.canDrop, h.ids⟩

def Registered (db : Tables) (flow : WorkflowInstance) (db' : Tables) : Prop :=
  db'.nodes = db.nodes ∧ ∃ user time,
    db'.flows = db.flows ++ [{ flow with userId := user, lastModifiedTime := time }]

theorem wp_insertFlow (h : Mid ids db ns [] [] s) (flow : WorkflowInstance) :
    wp (insertFlow flow) env
      (fun _ t => ∃ db', Registered db flow db' ∧ Mid ids db' ns [] [] t) (Left ids db ns) s := by
  unfold insertFlow
  rw [wp_bind, wp_read, wp_bind, wp_get]
  cases s.user with
  | none => exact h.left
  | some user =>
    change wp (call >>= _) env _ _ s
    rw [wp_bind]
    refine wp_mono (wp_call h) (fun k t ht => ?_) (fun _ he => he)
    rw [wp_bind, wp_get]
    split
    · exact ht.left
    · rw [wp_modify, ht.db_eq]
      refine ⟨⟨db.flows ++ [{ flow with userId := user, lastModifiedTime := env.stamp k 0 }],
        db.nodes⟩, ⟨rfl, user, env.stamp k 0, rfl⟩, rfl, ht.notices_eq, ?_, ht.canDrop, ht.ids⟩
      change Pending _ [] [] t.statements
      rw [ht.pending.eq_nil]
      exact .nil _

theorem wp_getDraftById (h : Mid ids db ns ms fs s) (id : Uuid) :
    wp (getDraftById id) env
      (fun draft t => Mid ids db ns ms fs t ∧ ∃ k, env.draft k id = some draft)
      (Left ids db ns) s := by
  unfold getDraftById
  rw [wp_bind, wp_read, wp_bind]
  refine wp_mono (wp_call h) (fun k t ht => ?_) (fun _ he => he)
  cases hdraft : env.draft k id with
  | some draft => exact ⟨ht, k, hdraft⟩
  | none => exact ht.left

def Accepted (spec : WorkflowDraftSpec) : Prop :=
  ∃ fileExists, spec.validateWorkflowDraft fileExists = .ok ()

theorem wp_checkDraft (h : Mid ids db ns ms fs s) (spec : WorkflowDraftSpec) :
    wp (checkDraft spec) env (fun _ t => Mid ids db ns ms fs t ∧ Accepted spec)
      (Left ids db ns) s := by
  unfold checkDraft
  rw [wp_bind, wp_read, wp_bind, wp_get]
  refine wp_mono (wp_lift_mid h _) (fun _ t ⟨ht, hok⟩ => ⟨ht, env.fileMeta s.calls, ?_⟩)
    (fun _ he => he)
  cases hv : spec.validateWorkflowDraft (env.fileMeta s.calls) with
  | ok u => rfl
  | err e =>
    rw [hv] at hok
    cases hok
  | panic =>
    rw [hv] at hok
    cases hok

structure Entry (used : List Uuid) (spec : WorkflowDraftSpec) (flow : WorkflowInstance)
    (rows : List NodeInstance) (iter : Nat → Uuid) : Prop where
  accepted : Accepted spec
  submitted : ∃ order iter, Submitted order spec used flow iter
  minted : ∀ n ∈ flow.spec.nodeSpecs, Minted iter n
  parsed : Parsed flow flow.spec.nodeSpecs (flow.spec.nodeSpecs.map NodeSpec.id ++ flow.id :: used)
    rows iter

structure Inserted (flow : WorkflowInstance) (rows : List NodeInstance) (w w' : World) : Prop where
  flows : ∃ user time,
    w'.db.flows = w.db.flows ++ [{ flow with userId := user, lastModifiedTime := time }]
  nodes : w'.db.nodes = w.db.nodes ++ rows
  notices_eq : notices w'.trace = notices w.trace
  ids : Tail w.ids w'.ids

inductive Submission (env : Env) (used : List Uuid) (draftId : Uuid) (w w' : World) : Prop where
  | lost (turn : Turn [] [] silent w w') (same : w'.db = w.db)
  | inserted (draft : WorkflowDraft) (k : Nat) (flow : WorkflowInstance) (rows : List NodeInstance)
      (kept : List NodeInstance) (hdraft : env.draft k draftId = some draft)
      (entry : Entry used draft.spec flow rows w'.ids) (hkept : kept = [] ∨ kept = rows)
      (inserted : Inserted flow kept w w')

def SubmittedAs (env : Env) (used : List Uuid) (draftId : Uuid) (w : World) (id : Uuid)
    (w' : World) : Prop :=
  ∃ draft k flow rows, env.draft k draftId = some draft ∧
    Entry used draft.spec flow rows w'.ids ∧ Inserted flow rows w w' ∧ flow.id = id

theorem Entry.tail {used : List Uuid} {spec : WorkflowDraftSpec} {flow : WorkflowInstance}
    {rows : List NodeInstance} {iter iter' : Nat → Uuid} (h : Entry used spec flow rows iter)
    (ht : Tail iter iter') : Entry used spec flow rows iter' :=
  ⟨h.accepted, h.submitted, fun n hn => (h.minted n hn).later ht,
    { h.parsed with supply := h.parsed.supply.tail ht }⟩

theorem wp_submitWorkflow {used : List Uuid} (hs : Supply used w.ids) (user : Option Uuid)
    (draftId : Uuid) :
    wp (submitWorkflow draftId) env (fun id t => SubmittedAs env used draftId w id t)
      (Submission env used draftId w) (w.open user) := by
  unfold submitWorkflow
  have hlost : ∀ t, Left w.ids w.db (notices w.trace) t → Submission env used draftId w t :=
    fun t ht => .lost ht.after.turn ht.db_eq
  rw [wp_bind, wp_read, wp_bind]
  refine wp_mono (wp_getDraftById (w.mid_open user) draftId)
    (fun draft s ⟨hmid, k, hdraft⟩ => ?_) hlost
  rw [wp_bind]
  refine wp_mono (wp_checkDraft hmid draft.spec) (fun _ t ⟨ht, haccepted⟩ => ?_) hlost
  rw [wp_bind, wp_get, wp_bind]
  refine wp_mono (wp_gen ht (keeps_instanceFrom _ draft)
    (wp_instanceFrom (hs.tail ht.ids) _ draft)) (fun flow u ⟨hu, hsub⟩ => ?_) hlost
  rw [wp_bind]
  have hused : ∀ n ∈ flow.spec.nodeSpecs,
      n.id ∈ flow.spec.nodeSpecs.map NodeSpec.id ++ flow.id :: used :=
    fun n hn => List.mem_append_left _ (List.mem_map_of_mem hn)
  refine wp_mono (wp_and (wp_gen hu (keeps_parseNodeInstances flow)
    (wp_parseNodeInstances hsub.supply flow hsub.nodup hused))
    ((keeps_gen (keeps_parseNodeInstances flow)).wp env u)) ?_ (fun v hv => hlost v hv.1)
  rintro rows v ⟨⟨hv, hparsed⟩, hcalm⟩
  have hentry : Entry used draft.spec flow rows v.ids :=
    ⟨haccepted, ⟨_, _, hsub⟩, fun n hn => (hsub.minted n hn).later hcalm.ids, hparsed⟩
  have hkeep : ∀ db' x, Registered w.db flow db' → Left v.ids db' (notices w.trace) x →
      Submission env used draftId w x := by
    rintro db' x ⟨hnodes, owner, time, hflows⟩ hx
    refine .inserted draft k flow rows [] hdraft (hentry.tail hx.ids) (.inl rfl)
      ⟨⟨owner, time, ?_⟩, ?_, hx.notices_eq, hv.ids.trans hx.ids⟩
    · rw [hx.db_eq, hflows]
    · rw [hx.db_eq, hnodes, List.append_nil]
  have hfresh : Mid v.ids w.db (notices w.trace) [] [] v :=
    ⟨hv.db_eq, hv.notices_eq, hv.pending, hv.canDrop, .refl _⟩
  rw [wp_bind]
  refine wp_mono (wp_insertFlow hfresh flow) (fun _ x ⟨db', hreg, hx⟩ => ?_)
    (fun x hx => hlost x ⟨hx.db_eq, hx.notices_eq, hv.ids.trans hx.ids⟩)
  rw [wp_bind]
  refine wp_mono (wp_insertNodes hx rows) (fun _ y hy => ?_) (fun y hy => hkeep db' y hreg hy)
  rw [wp_bind]
  refine wp_mono (wp_save hy.canDrop) (fun _ z hz => ?_) (fun z hz => hkeep db' z hreg ?_)
  · obtain ⟨hnodes, owner, time, hflows⟩ := hreg
    have hexec := hz.executes
    rw [hy.statements, hy.db_eq] at hexec
    obtain ⟨hzflows, hznodes⟩ := hexec.inserts
    refine ⟨draft, k, flow, rows, hdraft, hentry.tail (hy.ids.trans hz.ids),
      ⟨⟨owner, time, hzflows.trans hflows⟩, ?_, ?_, ?_⟩, rfl⟩
    · rw [hznodes, hnodes]
    · rw [hz.trace, hy.notices_eq]
    · exact hv.ids.trans (hy.ids.trans hz.ids)
  · refine ⟨hz.db.trans hy.db_eq, ?_, hy.ids.trans hz.ids⟩
    rw [hz.trace, hy.notices_eq]

theorem SubmittedAs.submission {used : List Uuid} {draftId id : Uuid}
    (h : SubmittedAs env used draftId w id w') : Submission env used draftId w w' := by
  obtain ⟨draft, k, flow, rows, hdraft, hentry, hinserted, -⟩ := h
  exact .inserted draft k flow rows rows hdraft hentry (.inr rfl) hinserted

theorem step_submittedAs {used : List Uuid} (hs : Supply used w.ids) (user : Option Uuid)
    {draftId id : Uuid} (h : (submitWorkflow draftId env (w.open user)).1 = .ok id) :
    SubmittedAs env used draftId w id (step env w (.submit user draftId)) := by
  have hwp : wp (submitWorkflow draftId) env _ _ (w.open user) := wp_submitWorkflow hs user draftId
  refine step_of_wp ?_
  change wp (submitWorkflow draftId >>= fun _ => pure ()) env _ _ (w.open user)
  rw [wp_bind]
  generalize hout : submitWorkflow draftId env (w.open user) = out at h
  obtain ⟨o, t⟩ := out
  obtain rfl : o = .ok id := h
  rw [wp_of_eq hout] at hwp ⊢
  exact hwp

theorem step_submit {used : List Uuid} (hs : Supply used w.ids) (user : Option Uuid)
    (draftId : Uuid) : Submission env used draftId w (step env w (.submit user draftId)) := by
  refine step_of_wp ?_
  change wp (submitWorkflow draftId >>= fun _ => pure ()) env _ _ (w.open user)
  rw [wp_bind]
  exact wp_mono (wp_submitWorkflow hs user draftId) (fun _ _ h => h.submission) (fun _ h => h)

end Kuintessence
