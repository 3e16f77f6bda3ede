import Kuintessence.Workflow.Opening

namespace Kuintessence

open Effect

def WorkflowInstance.version (f : WorkflowInstance) : Uuid × Nat := (f.id, f.lastModifiedTime)

def Tables.versions (t : Tables) : List (Uuid × Nat) := t.flows.map WorkflowInstance.version

def Statement.flow : Statement → Option WorkflowInstance
  | .updateFlow f => some f
  | _ => none

def Tables.commitAll : Tables → List Statement → Option Tables
  | t, [] => some t
  | t, s :: ss => t.execute id s >>= fun u => u.commitAll ss

variable {t u : Tables} {s : Statement} {ss rest : List Statement} {f : WorkflowInstance}

theorem Tables.execute_versions (h : t.execute id s = some u) : u.versions = t.versions := by
  cases s with
  | updateFlow f =>
    simp only [Tables.execute, Option.some.injEq] at h
    subst h
    rw [versions, versions, List.map_map]
    refine List.map_congr_left fun row _ => ?_
    rw [Function.comp_apply]
    split
    · rfl
    · rfl
  | updateNode n =>
    simp only [Tables.execute, Option.some.injEq] at h
    subst h
    rfl
  | insertNode n =>
    simp only [Tables.execute, Option.ite_none_left_eq_some, Option.some.injEq] at h
    obtain ⟨-, rfl⟩ := h
    rfl

theorem Tables.commitAll_cons (h : t.commitAll (s :: ss) = some u) :
    ∃ v, t.execute id s = some v ∧ v.commitAll ss = some u := Option.bind_eq_some_iff.mp h

theorem Tables.commitAll_append (h : t.commitAll (ss ++ rest) = some u) :
    ∃ v, t.commitAll ss = some v ∧ v.commitAll rest = some u := by
  induction ss generalizing t with
  | nil => exact ⟨t, rfl, h⟩
  | cons s ss ih =>
    obtain ⟨v, hv, h⟩ := commitAll_cons h
    obtain ⟨x, hx, h⟩ := ih h
    exact ⟨x, Option.bind_eq_some_iff.mpr ⟨v, hv, hx⟩, h⟩

theorem Tables.commitAll_versions (h : t.commitAll ss = some u) : u.versions = t.versions := by
  induction ss generalizing t with
  | nil =>
    cases h
    rfl
  | cons s ss ih =>
    obtain ⟨v, hv, h⟩ := commitAll_cons h
    rw [ih h, execute_versions hv]

def Tables.Matches (t : Tables) (f : WorkflowInstance) : Prop :=
  ∃ row ∈ t.flows, row.id = f.id ∧ row.lastModifiedTime = f.lastModifiedTime

def Tables.Holds (t : Tables) (f : WorkflowInstance) : Prop :=
  ∀ row ∈ t.flows, row.id = f.id → row.spec = f.spec ∧ row.status = f.status

theorem Tables.matches_iff : t.Matches f ↔ f.version ∈ t.versions := by
  rw [Matches, versions, List.mem_map]
  simp only [WorkflowInstance.version, Prod.mk.injEq]

theorem Tables.Matches.congr (h : t.Matches f) (hv : u.versions = t.versions) : u.Matches f := by
  rw [matches_iff, hv, ← matches_iff]
  exact h

theorem Tables.execute_holds (hk : (t.versions.map Prod.fst).Nodup) (hf : t.Matches f)
    (h : t.execute id (.updateFlow f) = some u) : u.Holds f := by
  rw [versions, List.map_map] at hk
  obtain ⟨row, hrow, hid, htime⟩ := hf
  simp only [Tables.execute, Option.some.injEq] at h
  subst h
  intro g hg hgid
  obtain ⟨k, hkmem, rfl⟩ := List.mem_map.mp hg
  have hkid : k.id = f.id := by
    split at hgid
    · exact hgid
    · exact hgid
  have heq : k = row := List.inj_on_of_nodup_map hk hkmem hrow (hkid.trans hid.symm)
  rw [heq, if_pos ⟨hid, htime⟩]
  exact ⟨rfl, rfl⟩

theorem Tables.Holds.execute (hf : t.Holds f) (hs : ∀ g, s.flow = some g → g.id ≠ f.id)
    (h : t.execute id s = some u) : u.Holds f := by
  cases s with
  | updateFlow g =>
    simp only [Tables.execute, Option.some.injEq] at h
    subst h
    intro row hrow hid
    obtain ⟨k, hk, rfl⟩ := List.mem_map.mp hrow
    by_cases hmatch : k.id = g.id ∧ k.lastModifiedTime = g.lastModifiedTime
    · rw [if_pos hmatch] at hid
      exact absurd (hmatch.1.symm.trans hid) (hs g rfl)
    · rw [if_neg hmatch] at hid ⊢
      exact hf k hk hid
  | updateNode n =>
    simp only [Tables.execute, Option.some.injEq] at h
    subst h
    exact hf
  | insertNode n =>
    simp only [Tables.execute, Option.ite_none_left_eq_some, Option.some.injEq] at h
    obtain ⟨-, rfl⟩ := h
    exact hf

theorem Tables.Holds.commitAll (hf : t.Holds f)
    (hs : ∀ s ∈ ss, ∀ g, s.flow = some g → g.id ≠ f.id) (h : t.commitAll ss = some u) :
    u.Holds f := by
  induction ss generalizing t with
  | nil =>
    cases h
    exact hf
  | cons s ss ih =>
    obtain ⟨v, hv, h⟩ := commitAll_cons h
    exact ih (hf.execute (hs s List.mem_cons_self) hv)
      (fun s' hs' => hs s' (List.mem_cons_of_mem s hs')) h

theorem Tables.commitAll_holds (hk : (t.versions.map Prod.fst).Nodup) (hf : t.Matches f)
    (hrest : ∀ s ∈ rest, ∀ g, s.flow = some g → g.id ≠ f.id)
    (h : t.commitAll (ss ++ .updateFlow f :: rest) = some u) : u.Holds f := by
  obtain ⟨v, hv, h⟩ := commitAll_append h
  obtain ⟨x, hx, h⟩ := commitAll_cons h
  have hversions := commitAll_versions hv
  rw [matches_iff, ← hversions, ← matches_iff] at hf
  rw [← hversions] at hk
  exact (execute_holds hk hf hx).commitAll hrest h

section Saving

variable {env : Env} {w : World}

def KeepsTime (env : Env) : Prop := ∀ k time, env.stamp k time = time

theorem KeepsTime.stamp_eq (h : KeepsTime env) (k : Nat) : env.stamp k = id := funext (h k)

theorem wp_executeAll_kept (h : KeepsTime env) (ss : List Statement) (t : Tables) (w : World) :
    wp (executeAll t ss) env
      (fun out w' => Calm w w' ∧ ∀ u, out = some u → t.commitAll ss = some u) (Calm w) w := by
  induction ss generalizing t w with
  | nil => exact ⟨.refl w, fun u hu => hu⟩
  | cons s ss ih =>
    unfold executeAll
    rw [wp_bind, wp_read, wp_bind, wp_get, wp_bind]
    refine wp_mono (keeps_attempt.wp env w) (fun up w' hw' => ?_) (fun _ he => he)
    rw [h.stamp_eq]
    split
    · exact ⟨hw', fun u hu => Option.noConfusion rfl (heq_of_eq hu)⟩
    · next v hv =>
      have hup : up = true := by
        cases up with
        | true => rfl
        | false => simp at hv
      rw [if_pos hup] at hv
      refine wp_mono (ih v w') (fun out x hx => ?_) (fun _ hx => hw'.trans hx)
      obtain ⟨hcalm, hout⟩ := hx
      exact ⟨hw'.trans hcalm, fun u hu => Option.bind_eq_some_iff.mpr ⟨v, hv, hout u hu⟩⟩

structure Undone (w w' : World) : Prop where
  db : w'.db = w.db
  statements : w'.statements = w.statements ∧ w'.canDrop = w.canDrop ∨ w'.statements = []

theorem Calm.undone {w' : World} (h : Calm w w') : Undone w w' :=
  ⟨h.db, .inl ⟨h.statements, h.canDrop⟩⟩

structure Committed (w : World) (written : Bool) (w' : World) : Prop where
  statements : w'.statements = []
  db : if written then w.db.commitAll w.statements = some w'.db else w'.db = w.db

theorem wp_save_kept (h : KeepsTime env) (hdrop : w.canDrop = true → w.statements = []) :
    wp saveChanged env (Committed w) (Undone w) w := by
  unfold saveChanged
  rw [wp_bind, wp_get]
  split
  · next hd => exact ⟨hdrop hd, rfl⟩
  · rw [wp_bind]
    refine wp_mono (keeps_call.wp env w) (fun _ x hx => ?_) (fun _ hx => hx.undone)
    rw [wp_bind]
    refine wp_mono (wp_executeAll_kept h w.statements w.db x) (fun out y hy => ?_)
      (fun y hy => (hx.trans hy).undone)
    obtain ⟨hcalm, hout⟩ := hy
    have hxy : Calm w y := hx.trans hcalm
    cases out with
    | none =>
      rw [wp_bind]
      refine wp_mono (keeps_call.wp env y) (fun _ z hz => ?_) (fun _ hz => (hxy.trans hz).undone)
      exact ⟨(hxy.trans hz).db, .inr rfl⟩
    | some u =>
      rw [wp_bind]
      refine wp_mono (keeps_call.wp env y) (fun _ z hz => ?_) (fun _ hz => (hxy.trans hz).undone)
      exact ⟨rfl, hout u rfl⟩

end Saving

inductive Act where
  | read (id : Uuid)
  | write (spec : WorkflowInstanceSpec) (status : WorkflowInstanceStatus)
  | mark (node : NodeInstance)
  | save
  deriving DecidableEq, Repr

-- `held` is the row the operation read last, `writes` are the rows it has queued. Each comes with
-- the number of writes of that row the other operation had committed at the time of the read.
structure Party where
  repo : World
  held : Option (WorkflowInstance × Nat) := none
  writes : List (WorkflowInstance × Nat) := []

structure Shared where
  db : Tables
  replaced : Bool → Uuid → Nat
  party : Bool → Party

namespace Shared

def init (db : Tables) (repo : Bool → World) : Shared :=
  ⟨db, fun _ _ => 0, fun i => { repo := (repo i).open (repo i).user }⟩

def repo (σ : Shared) (i : Bool) : World := { (σ.party i).repo with db := σ.db }

def put (σ : Shared) (i : Bool) (p : Party) : Shared :=
  { σ with db := p.repo.db, party := fun j => if j = i then p else σ.party j }

def replacing (t : Tables) (ss : List Statement) (id : Uuid) : Nat :=
  (ss.filterMap Statement.flow).countP (fun f => f.id == id && t.flows.any (fun row =>
    row.id == f.id && row.lastModifiedTime == f.lastModifiedTime))

def perform (env : Env) (σ : Shared) (i : Bool) : Act → Shared
  | .read id => (getFlowById id).outcome env (σ.repo i)
      (fun row w => σ.put i
        { σ.party i with repo := w, held := some (row, σ.replaced (!i) row.id) })
      (fun w => σ.put i { σ.party i with repo := w })
  | .write spec status =>
    match (σ.party i).held with
    | none => σ
    | some (row, n) =>
      let flow := { row with spec := spec, status := status }
      (updateFlow flow).outcome env (σ.repo i)
        (fun _ w => σ.put i
          { σ.party i with repo := w, writes := (σ.party i).writes ++ [(flow, n)] })
        (fun w => σ.put i { σ.party i with repo := w })
  | .mark node => (updateNode node).outcome env (σ.repo i)
      (fun _ w => σ.put i { σ.party i with repo := w })
      (fun w => σ.put i { σ.party i with repo := w })
  | .save => saveChanged.outcome env (σ.repo i)
      (fun written w => { σ.put i { σ.party i with repo := w, writes := [] } with
        replaced := fun j id => σ.replaced j id +
          if j = i ∧ written then replacing σ.db (σ.party i).repo.statements id else 0 })
      (fun w => σ.put i { σ.party i with
        repo := w
        writes := if w.statements = [] then [] else (σ.party i).writes })

def step (env : Env) (σ : Shared) (act : Bool × Act) : Shared := σ.perform env act.1 act.2

def Stale (σ : Shared) (i : Bool) (f : WorkflowInstance) : Prop :=
  ∃ e ∈ (σ.party i).writes, e.1 = f ∧ e.2 < σ.replaced (!i) f.id

structure Fits (t : Tables) (p : Party) : Prop where
  held : ∀ row n, p.held = some (row, n) → t.Matches row
  writes : ∀ f n, (f, n) ∈ p.writes → t.Matches f
  queued : p.repo.statements.filterMap Statement.flow = p.writes.map Prod.fst
  canDrop : p.repo.canDrop = true → p.repo.statements = []

structure Sane (σ : Shared) : Prop where
  keys : (σ.db.versions.map Prod.fst).Nodup
  fits : ∀ i, Fits σ.db (σ.party i)

variable {env : Env} {σ : Shared} {i : Bool} {p : Party}

theorem Fits.congr (h : Fits t p) (hv : u.versions = t.versions) : Fits u p :=
  ⟨fun row n hrow => (h.held row n hrow).congr hv, fun f n hf => (h.writes f n hf).congr hv,
    h.queued, h.canDrop⟩

theorem Sane.put (h : Sane σ) (hv : p.repo.db.versions = σ.db.versions) (hp : Fits σ.db p) :
    Sane (σ.put i p) := by
  constructor
  · change (p.repo.db.versions.map Prod.fst).Nodup
    rw [hv]
    exact h.keys
  · intro j
    change Fits p.repo.db (if j = i then p else σ.party j)
    split
    · exact hp.congr hv
    · exact (h.fits j).congr hv

theorem Fits.calm {w : World} (h : Fits t p) (hs : w.statements = p.repo.statements)
    (hd : w.canDrop = p.repo.canDrop) : Fits t { p with repo := w } := by
  refine ⟨h.held, h.writes, ?_, fun hdrop => ?_⟩
  · change w.statements.filterMap Statement.flow = _
    rw [hs]
    exact h.queued
  · change w.statements = []
    rw [hs]
    exact h.canDrop (hd.symm.trans hdrop)

theorem wp_readRow (rowId : Uuid) (w : World) :
    wp (getFlowById rowId) env (fun row w' => Calm w w' ∧ row ∈ w.db.flows) (Calm w) w := by
  unfold getFlowById
  rw [wp_bind]
  refine wp_mono (keeps_call.wp env w) (fun _ w' hw' => ?_) (fun _ he => he)
  have hdb : w'.db = w.db := hw'.db
  rw [wp_bind, wp_get, hdb]
  split
  · next row hfind => exact ⟨hw', List.mem_of_find?_eq_some hfind⟩
  · exact hw'

structure Queued (s : Statement) (w w' : World) : Prop where
  db : w'.db = w.db
  statements : w'.statements = w.statements ++ [s]
  canDrop : w'.canDrop = false

theorem wp_queue (s : Statement) (w : World) :
    wp (call >>= fun _ => push s) env (fun _ w' => Queued s w w') (Calm w) w := by
  rw [wp_bind]
  refine wp_mono (keeps_call.wp env w) (fun _ w' hw' => ?_) (fun _ he => he)
  have hstatements : w'.statements = w.statements := hw'.statements
  refine ⟨hw'.db, ?_, rfl⟩
  change w'.statements ++ [s] = _
  rw [hstatements]

theorem Sane.calm {w : World} (h : Sane σ) (hw : Calm (σ.repo i) w) :
    Sane (σ.put i { σ.party i with repo := w }) :=
  h.put (congrArg Tables.versions hw.db) ((h.fits i).calm hw.statements hw.canDrop)

theorem Sane.read (h : Sane σ) (rowId : Uuid) : Sane (σ.perform env i (.read rowId)) := by
  refine outcome_of_wp (P := Sane) (wp_readRow rowId (σ.repo i)) (fun row w hread => ?_)
    (fun w hw => h.calm hw)
  obtain ⟨hw, hrow⟩ := hread
  have hfits := (h.fits i).calm hw.statements hw.canDrop
  refine h.put (congrArg Tables.versions hw.db) ⟨fun row' n heq => ?_, hfits.writes, hfits.queued,
    hfits.canDrop⟩
  cases heq
  exact ⟨row, hrow, rfl, rfl⟩

theorem Sane.write (h : Sane σ) (spec : WorkflowInstanceSpec) (status : WorkflowInstanceStatus) :
    Sane (σ.perform env i (.write spec status)) := by
  unfold perform
  cases hheld : (σ.party i).held with
  | none => exact h
  | some held =>
    obtain ⟨row, n⟩ := held
    have hrow : σ.db.Matches row := (h.fits i).held row n hheld
    refine outcome_of_wp (P := Sane) (wp_queue _ (σ.repo i)) (fun _ w hqueued => ?_)
      (fun w hw => h.calm hw)
    obtain ⟨hdb, hstatements, hdrop⟩ := hqueued
    refine h.put (congrArg Tables.versions hdb) ⟨(h.fits i).held, fun f m hf => ?_, ?_, ?_⟩
    · rcases List.mem_append.mp hf with hf | hf
      · exact (h.fits i).writes f m hf
      · cases List.mem_singleton.mp hf
        exact hrow
    · change w.statements.filterMap Statement.flow = _
      rw [hstatements, List.filterMap_append, List.map_append]
      exact congrArg (· ++ _) (h.fits i).queued
    · intro hd
      rw [hdrop] at hd
      cases hd

theorem Sane.mark (h : Sane σ) (node : NodeInstance) : Sane (σ.perform env i (.mark node)) := by
  refine outcome_of_wp (P := Sane) (wp_queue _ (σ.repo i)) (fun _ w hqueued => ?_)
    (fun w hw => h.calm hw)
  obtain ⟨hdb, hstatements, hdrop⟩ := hqueued
  refine h.put (congrArg Tables.versions hdb) ⟨(h.fits i).held, (h.fits i).writes, ?_, ?_⟩
  · change w.statements.filterMap Statement.flow = _
    rw [hstatements, List.filterMap_append]
    exact (List.append_nil _).trans (h.fits i).queued
  · intro hd
    rw [hdrop] at hd
    cases hd

theorem Sane.save (h : Sane σ) (henv : KeepsTime env) : Sane (σ.perform env i .save) := by
  have hfits := h.fits i
  refine outcome_of_wp (P := Sane) (wp_save_kept henv hfits.canDrop) (fun written w hw => ?_)
    (fun w hw => ?_)
  · have hversions : w.db.versions = σ.db.versions := by
      have hdb := hw.db
      split at hdb
      · exact Tables.commitAll_versions hdb
      · exact congrArg Tables.versions hdb
    have hput : Sane (σ.put i { σ.party i with repo := w, writes := [] }) := by
      refine h.put hversions ⟨hfits.held, fun _ _ hf => absurd hf List.not_mem_nil, ?_,
        fun _ => hw.statements⟩
      rw [hw.statements]
      rfl
    exact ⟨hput.keys, hput.fits⟩
  · have hversions : w.db.versions = σ.db.versions := congrArg Tables.versions hw.db
    by_cases hnil : w.statements = []
    · rw [if_pos hnil]
      refine h.put hversions ⟨hfits.held, fun _ _ hf => absurd hf List.not_mem_nil, ?_,
        fun _ => hnil⟩
      rw [hnil]
      rfl
    · rw [if_neg hnil]
      obtain ⟨hstatements, hdrop⟩ := hw.statements.resolve_right hnil
      have hcalm := hfits.calm hstatements hdrop
      exact h.put hversions ⟨hcalm.held, hcalm.writes, hcalm.queued, hcalm.canDrop⟩

theorem Sane.step (h : Sane σ) (henv : KeepsTime env) (act : Bool × Act) :
    Sane (σ.step env act) := by
  obtain ⟨i, act⟩ := act
  cases act with
  | read rowId => exact h.read rowId
  | write spec status => exact h.write spec status
  | mark node => exact h.mark node
  | save => exact h.save henv

theorem sane_init {db : Tables} (hdb : (db.flows.map WorkflowInstance.id).Nodup)
    (repo : Bool → World) : Sane (init db repo) := by
  constructor
  · change ((db.flows.map WorkflowInstance.version).map Prod.fst).Nodup
    rw [List.map_map]
    exact hdb
  · intro i
    exact ⟨fun _ _ h => Option.noConfusion rfl (heq_of_eq h), fun _ _ hf => absurd hf List.not_mem_nil, rfl,
      fun _ => rfl⟩

end Shared

open Shared

theorem stale_writes_are_applied {env : Env} (henv : KeepsTime env) {db : Tables}
    (hdb : (db.flows.map WorkflowInstance.id).Nodup) (repo : Bool → World)
    (acts : List (Bool × Act)) (i : Bool) {σ : Shared} {w : World}
    (hrun : run (Shared.step env) (init db repo) acts = σ)
    (hsave : saveChanged env (σ.repo i) = (.ok true, w)) :
    ((∀ f, Stale σ i f → ¬σ.db.Matches f) ↔ ∀ f, ¬Stale σ i f) ∧
      ∀ f, (f ∈ (σ.party i).writes.map Prod.fst) → σ.db.Matches f ∧
        ∀ ss rest, (σ.party i).repo.statements = ss ++ .updateFlow f :: rest →
          (∀ g ∈ rest.filterMap Statement.flow, g.id ≠ f.id) → w.db.Holds f := by
  have hsane : Sane σ := by
    rw [← hrun]
    exact run_preserves (I := Sane) (fun σ act h => h.step henv act) (sane_init hdb repo) acts
  have hmatches : ∀ f ∈ (σ.party i).writes.map Prod.fst, σ.db.Matches f := by
    intro f hf
    obtain ⟨⟨g, n⟩, hg, rfl⟩ := List.mem_map.mp hf
    exact (hsane.fits i).writes g n hg
  refine ⟨⟨fun hkept f hf => ?_, fun hnone f hf => absurd hf (hnone f)⟩,
    fun f hf => ⟨hmatches f hf, ?_⟩⟩
  · have hstale := hf
    obtain ⟨e, hmem, rfl, -⟩ := hf
    exact hkept _ hstale (hmatches _ (List.mem_map_of_mem hmem))
  · intro ss rest hstatements hrest
    have hwp : wp saveChanged env _ _ (σ.repo i) := wp_save_kept henv (hsane.fits i).canDrop
    obtain ⟨-, hcommit⟩ := (wp_of_eq hsave).mp hwp
    change σ.db.commitAll (σ.party i).repo.statements = some w.db at hcommit
    rw [hstatements] at hcommit
    refine Tables.commitAll_holds hsane.keys (hmatches f hf) (fun s hs g hg => hrest g ?_) hcommit
    exact List.mem_filterMap.mpr ⟨s, hs, hg⟩

section Samples

instance (t : Tables) (f : WorkflowInstance) : Decidable (t.Matches f) :=
  inferInstanceAs (Decidable (∃ row ∈ t.flows, row.id = f.id ∧
    row.lastModifiedTime = f.lastModifiedTime))

instance (σ : Shared) (i : Bool) (f : WorkflowInstance) : Decidable (Stale σ i f) :=
  inferInstanceAs (Decidable (∃ e ∈ (σ.party i).writes, e.1 = f ∧ e.2 < σ.replaced (!i) f.id))

def storedSpec (t : Tables) : WorkflowInstanceSpec :=
  (t.flows.head?.map WorkflowInstance.spec).getD ⟨.auto, [], []⟩

-- A failed result reads the workflow, a pause reads and saves it, then the result writes it.
def lateFailure : Shared :=
  run (Shared.step (sameSecond chain)) (init (startSample chain).db fun _ => newborn)
    [(false, .read 100), (true, .read 100), (true, .write (storedSpec (startSample chain).db) .paused),
      (true, .save), (false, .write (storedSpec (startSample chain).db) .error)]

theorem pause_overwritten :
    (∃ f ∈ lateFailure.db.flows, f.id = 100 ∧ f.status = .paused) ∧
      (∃ f ∈ (lateFailure.party false).writes.map Prod.fst, Stale lateFailure false f ∧
        lateFailure.db.Matches f) ∧
      (saveChanged (sameSecond chain) (lateFailure.repo false)).1 = .ok true ∧
      ∃ f ∈ (saveChanged (sameSecond chain) (lateFailure.repo false)).2.db.flows,
        f.id = 100 ∧ f.status = .error := by
  decide +kernel

theorem failure_applied :
    (∃ f, Stale lateFailure false f) ∧
      ∀ f, Stale lateFailure false f → lateFailure.db.Matches f ∧
        (saveChanged (sameSecond chain) (lateFailure.repo false)).2.db.Holds f := by
  have hstale : ∃ f ∈ (lateFailure.party false).writes.map Prod.fst, Stale lateFailure false f := by
    decide +kernel
  have hqueue : ∀ f ∈ (lateFailure.party false).writes.map Prod.fst,
      (lateFailure.party false).repo.statements = [] ++ .updateFlow f :: [] := by decide +kernel
  have hok : (saveChanged (sameSecond chain) (lateFailure.repo false)).1 = .ok true := by
    decide +kernel
  have hids : ((startSample chain).db.flows.map WorkflowInstance.id).Nodup := by decide +kernel
  generalize hsave : saveChanged (sameSecond chain) (lateFailure.repo false) = out at hok ⊢
  obtain ⟨o, w⟩ := out
  obtain rfl : o = .ok true := hok
  have h := (stale_writes_are_applied (fun _ _ => rfl) hids (fun _ => newborn) _ false
    (show _ = lateFailure from rfl) hsave).2
  obtain ⟨f, -, hf⟩ := hstale
  refine ⟨⟨f, hf⟩, fun g hg => ?_⟩
  obtain ⟨e, he, rfl, -⟩ := hg
  have hmem := List.mem_map_of_mem (f := Prod.fst) he
  obtain ⟨hmatches, hholds⟩ := h e.1 hmem
  exact ⟨hmatches, hholds [] [] (hqueue e.1 hmem) fun _ hg => absurd hg List.not_mem_nil⟩

end Samples

end Kuintessence
