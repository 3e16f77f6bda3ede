import Kuintessence.Storage.NetDisk
import Mathlib.Logic.Relation

namespace Kuintessence.FileTree

-- What an id stands for, and the user it belongs to. A node comes with its workflow.
inductive Kind where
  | root (user : Uuid)
  | draftRoot (user : Uuid)
  | instanceRoot (user : Uuid)
  | draft (user : Uuid)
  | flow (user : Uuid)
  | node (flow user : Uuid)
  | file
  deriving DecidableEq, Repr

def Kind.owner : Kind → Option Uuid
  | .root user => some user
  | .draftRoot user => some user
  | .instanceRoot user => some user
  | .draft user => some user
  | .flow user => some user
  | .node _ user => some user
  | .file => none

-- No id stands for two things.
structure Census where
  kind : Uuid → Kind
  draftRoot : ∀ user, kind user = .root user → kind (user + 1) = .draftRoot user
  instanceRoot : ∀ user, kind user = .root user → kind (user + 2) = .instanceRoot user
  bound : ∀ user, kind user = .root user → user + 2 < 2 ^ 128

def Has (rows : List FileSystem) (id : Uuid) : Prop := ∃ row ∈ rows, row.id = id

-- How a directory is found again.
def Kind.metadata (id : Uuid) : Kind → Option NetDiskMeta
  | .root _ => none
  | .draftRoot _ => some { dirKind := some .flowDraft }
  | .instanceRoot _ => some { dirKind := some .flowInstance }
  | .draft _ => some { flowDraftId := some id, dirKind := some .flowDraft }
  | .flow _ => some { flowInstanceId := some id, dirKind := some .flowInstance }
  | .node workflow _ => some { flowInstanceId := some workflow, nodeInstanceId := some id,
                               dirKind := some .flowInstance }
  | .file => none

-- The place of a directory, by what its id stands for.
def Placed (c : Census) (row : FileSystem) : Kind → Prop
  | .root user => row.id = user ∧ row.parentId = none
  | .draftRoot user => row.id = user + 1 ∧ c.kind user = .root user ∧ row.parentId = some user
  | .instanceRoot user => row.id = user + 2 ∧ c.kind user = .root user ∧ row.parentId = some user
  | .draft user => c.kind user = .root user ∧ row.parentId = some (user + 1)
  | .flow user => c.kind user = .root user ∧ row.parentId = some (user + 2)
  | .node flow user => c.kind flow = .flow user ∧ ∃ parent, row.parentId = some parent ∧
      (parent = flow ∨ c.kind parent = .node flow user)
  | .file => False

structure Directory (c : Census) (row : FileSystem) : Prop where
  isDict : row.isDict = true
  owner : (c.kind row.id).owner = some row.ownerId
  metadata : row.metadata = (c.kind row.id).metadata row.id
  placed : Placed c row (c.kind row.id)

structure File (c : Census) (row : FileSystem) : Prop where
  kind : c.kind row.id = .file
  isDict : row.isDict = false
  parent : ∃ parent, row.parentId = some parent ∧ (c.kind parent).owner = some row.ownerId
  dirKind : row.dirKind = none

-- Every row came after the one that it lies in.
inductive Tree (c : Census) : List FileSystem → Prop where
  | nil : Tree c []
  | concat {rows : List FileSystem} {row : FileSystem} (tree : Tree c rows)
      (fits : Directory c row ∨ File c row) (new : ¬Has rows row.id)
      (parent : ∀ parent, row.parentId = some parent → Has rows parent) : Tree c (rows ++ [row])

structure Sound (c : Census) (d : Disk) : Prop where
  tree : Tree c d.rows
  ids : ∀ n, c.kind (d.ids n) = .file
  distinct : Function.Injective d.ids
  fresh : ∀ n, ¬Has d.rows (d.ids n)

def growth (c : Census) : Growth Disk where
  inv := Sound c
  le s t := s.rows <+: t.rows
  refl _ := List.prefix_refl _
  trans := List.IsPrefix.trans

section Trees

variable {c : Census} {rows : List FileSystem} {row dir : FileSystem} {id : Uuid}

theorem Has.mono {rows' : List FileSystem} (h : Has rows id) (hle : rows <+: rows') :
    Has rows' id := by
  obtain ⟨row, hrow, rfl⟩ := h
  exact ⟨row, hle.subset hrow, rfl⟩

theorem has_iff : Has rows id ↔ rows.any (fun row => row.id == id) = true := by
  rw [List.any_eq_true]
  exact exists_congr fun row => and_congr_right fun _ => beq_iff_eq.symm

theorem Tree.fits (h : Tree c rows) : ∀ row ∈ rows, Directory c row ∨ File c row := by
  induction h with
  | nil => exact List.forall_mem_nil _
  | concat tree fits new parent ih =>
    intro row hrow
    obtain hrow | hrow := List.mem_append.mp hrow
    · exact ih row hrow
    · exact List.mem_singleton.mp hrow ▸ fits

theorem Tree.nodup (h : Tree c rows) : (rows.map FileSystem.id).Nodup := by
  induction h with
  | nil => exact List.nodup_nil
  | concat tree fits new parent ih =>
    rw [List.map_append, List.map_singleton, ← List.concat_eq_append]
    refine ih.concat fun hin => new ?_
    obtain ⟨row, hrow, heq⟩ := List.mem_map.mp hin
    exact ⟨row, hrow, heq⟩

-- `dir` is the directory that `row` lies in.
structure Within (rows : List FileSystem) (row dir : FileSystem) : Prop where
  mem : dir ∈ rows
  parent : row.parentId = some dir.id
  isDict : dir.isDict = true
  owner : dir.ownerId = row.ownerId

theorem Within.mono {rows' : List FileSystem} (h : Within rows row dir) (hle : rows <+: rows') :
    Within rows' row dir := { h with mem := hle.subset h.mem }

theorem Directory.of_owner (h : Directory c row ∨ File c row) {user : Uuid}
    (howner : (c.kind row.id).owner = some user) : Directory c row ∧ row.ownerId = user := by
  obtain hdir | hfile := h
  · exact ⟨hdir, Option.some.inj (hdir.owner.symm.trans howner)⟩
  · rw [hfile.kind] at howner
    cases howner

theorem Directory.parent_owner (h : Directory c row) {parent : Uuid}
    (hparent : row.parentId = some parent) : (c.kind parent).owner = some row.ownerId := by
  have howner := h.owner
  have hplaced := h.placed
  cases hkind : c.kind row.id with
  | root user =>
    rw [hkind] at hplaced
    rw [hplaced.2] at hparent
    cases hparent
  | draftRoot user =>
    rw [hkind] at hplaced howner
    rw [hplaced.2.2] at hparent
    cases hparent
    rw [hplaced.2.1]
    exact howner
  | instanceRoot user =>
    rw [hkind] at hplaced howner
    rw [hplaced.2.2] at hparent
    cases hparent
    rw [hplaced.2.1]
    exact howner
  | draft user =>
    rw [hkind] at hplaced howner
    rw [hplaced.2] at hparent
    cases hparent
    rw [c.draftRoot user hplaced.1]
    exact howner
  | flow user =>
    rw [hkind] at hplaced howner
    rw [hplaced.2] at hparent
    cases hparent
    rw [c.instanceRoot user hplaced.1]
    exact howner
  | node flow user =>
    rw [hkind] at hplaced howner
    obtain ⟨hflow, other, hother, hcases⟩ := hplaced
    cases hother.symm.trans hparent
    obtain rfl | hnode := hcases
    · rw [hflow]
      exact howner
    · rw [hnode]
      exact howner
  | file =>
    rw [hkind] at hplaced
    exact hplaced.elim

theorem parent_owner (h : Directory c row ∨ File c row) {parent : Uuid}
    (hparent : row.parentId = some parent) : (c.kind parent).owner = some row.ownerId := by
  obtain hdir | hfile := h
  · exact hdir.parent_owner hparent
  · obtain ⟨other, hother, howner⟩ := hfile.parent
    cases hother.symm.trans hparent
    exact howner

theorem Tree.within (h : Tree c rows) (hrow : Directory c row ∨ File c row) {parent : Uuid}
    (hparent : row.parentId = some parent) (hhas : Has rows parent) :
    ∃ dir, dir.id = parent ∧ Within rows row dir := by
  obtain ⟨dir, hdir, rfl⟩ := hhas
  obtain ⟨hdirectory, howner⟩ := Directory.of_owner (h.fits dir hdir) (parent_owner hrow hparent)
  exact ⟨dir, rfl, hdir, hparent, hdirectory.isDict, howner⟩

theorem Directory.no_parent (h : Directory c row ∨ File c row) (hparent : row.parentId = none) :
    row.id = row.ownerId := by
  obtain hdir | hfile := h
  · have howner := hdir.owner
    have hplaced := hdir.placed
    cases hkind : c.kind row.id with
    | root user =>
      rw [hkind] at hplaced howner
      exact hplaced.1.trans (Option.some.inj howner)
    | draftRoot user =>
      rw [hkind] at hplaced
      cases hplaced.2.2.symm.trans hparent
    | instanceRoot user =>
      rw [hkind] at hplaced
      cases hplaced.2.2.symm.trans hparent
    | draft user =>
      rw [hkind] at hplaced
      cases hplaced.2.symm.trans hparent
    | flow user =>
      rw [hkind] at hplaced
      cases hplaced.2.symm.trans hparent
    | node flow user =>
      rw [hkind] at hplaced
      obtain ⟨-, other, hother, -⟩ := hplaced
      cases hother.symm.trans hparent
    | file =>
      rw [hkind] at hplaced
      exact hplaced.elim
  · obtain ⟨other, hother, -⟩ := hfile.parent
    cases hother.symm.trans hparent

-- The way up from a row ends at the root of its owner.
theorem Tree.rooted (h : Tree c rows) : ∀ row ∈ rows, ∃ root ∈ rows,
    Relation.ReflTransGen (Within rows) row root ∧ root.parentId = none ∧ root.id = row.ownerId := by
  induction h with
  | nil => exact List.forall_mem_nil _
  | @concat rows last tree fits new parent ih =>
    have hle : rows <+: rows ++ [last] := List.prefix_append _ _
    have hold : ∀ row ∈ rows, ∃ root ∈ rows ++ [last],
        Relation.ReflTransGen (Within (rows ++ [last])) row root ∧ root.parentId = none ∧
          root.id = row.ownerId := by
      intro row hrow
      obtain ⟨root, hroot, hup, hnone, howner⟩ := ih row hrow
      exact ⟨root, hle.subset hroot, hup.lift id fun _ _ hwithin => hwithin.mono hle, hnone,
        howner⟩
    intro row hrow
    obtain hrow | hrow := List.mem_append.mp hrow
    · exact hold row hrow
    · cases List.mem_singleton.mp hrow
      cases hparent : last.parentId with
      | none => exact ⟨last, List.mem_append_right _ hrow, .refl, hparent, Directory.no_parent fits hparent⟩
      | some above =>
        obtain ⟨dir, -, hwithin⟩ := tree.within fits hparent (parent above hparent)
        obtain ⟨root, hroot, hup, hnone, howner⟩ := hold dir hwithin.mem
        exact ⟨root, hroot, .head (hwithin.mono hle) hup, hnone, howner.trans hwithin.owner⟩

-- A step up inside the directories of one workflow.
structure Inside (rows : List FileSystem) (flow : Uuid) (row dir : FileSystem) : Prop where
  within : Within rows row dir
  flow : row.flowInstanceId = some flow
  node : row.nodeInstanceId.isSome = true

theorem Tree.grouped (h : Tree c rows) : ∀ row ∈ rows, ∀ flow user, c.kind row.id = .node flow user →
    ∃ dir ∈ rows, dir.id = flow ∧ Relation.ReflTransGen (Inside rows flow) row dir := by
  induction h with
  | nil => exact List.forall_mem_nil _
  | @concat rows last tree fits new parent ih =>
    have hle : rows <+: rows ++ [last] := List.prefix_append _ _
    have hold : ∀ row ∈ rows, ∀ flow user, c.kind row.id = .node flow user →
        ∃ dir ∈ rows ++ [last], dir.id = flow ∧
          Relation.ReflTransGen (Inside (rows ++ [last]) flow) row dir := by
      intro row hrow flow user hkind
      obtain ⟨dir, hdir, hid, hup⟩ := ih row hrow flow user hkind
      exact ⟨dir, hle.subset hdir, hid, hup.lift id fun _ _ hinside =>
        { hinside with within := hinside.within.mono hle }⟩
    intro row hrow flow user hkind
    obtain hrow | hrow := List.mem_append.mp hrow
    · exact hold row hrow flow user hkind
    · cases List.mem_singleton.mp hrow
      obtain hdirectory | hfile := fits
      · have hplaced := hdirectory.placed
        have hmetadata := hdirectory.metadata
        rw [hkind] at hplaced hmetadata
        obtain ⟨hflow, above, habove, hcases⟩ := hplaced
        obtain ⟨dir, hid, hwithin⟩ := tree.within (.inl hdirectory) habove (parent above habove)
        have hinside : Inside (rows ++ [last]) flow last dir := by
          refine ⟨hwithin.mono hle, ?_, ?_⟩
          · rw [FileSystem.flowInstanceId, hmetadata]
            rfl
          · rw [FileSystem.nodeInstanceId, hmetadata]
            rfl
        obtain rfl | hnode := hcases
        · exact ⟨dir, hle.subset hwithin.mem, hid, .single hinside⟩
        · obtain ⟨top, htop, htopid, hup⟩ := hold dir hwithin.mem flow user (hid ▸ hnode)
          exact ⟨top, htop, htopid, .head hinside hup⟩
      · rw [hfile.kind] at hkind
        cases hkind

end Trees

section Requests

variable {c : Census} {env : Env} {d : Disk} {row : FileSystem} {id u : Uuid} {α : Type}

open Effect

theorem known_has {s : Disk} (h : Has s.rows id) : (growth c).Known s fun t => Has t.rows id :=
  fun _ _ hle => h.mono hle

theorem Sound.calls (h : Sound c d) (calls : Nat) : Sound c { d with calls := calls } := { h with }

-- A request asks the database; the table stays as it is.
def Asks (c : Census) (env : Env) (m : Act α) (V : List FileSystem → α → Prop) : Prop :=
  ∀ d, Sound c d → wp m env (fun a t => t.rows = d.rows ∧ t.ids = d.ids ∧ V d.rows a)
    (fun t => t.rows = d.rows ∧ t.ids = d.ids) d

theorem Sound.same (h : Sound c d) {t : Disk} (hrows : t.rows = d.rows) (hids : t.ids = d.ids) :
    Sound c t where
  tree := hrows ▸ h.tree
  ids := hids ▸ h.ids
  distinct := hids ▸ h.distinct
  fresh := by
    rw [hrows, hids]
    exact h.fresh

theorem grows_query {m : Act α} {s : Disk} {Q : α → Disk → Prop}
    (h : ∀ t, Sound c t → s.rows <+: t.rows → wp m env
      (fun a u => Sound c u ∧ t.rows <+: u.rows ∧ (growth c).Known u (Q a))
      (fun u => Sound c u ∧ t.rows <+: u.rows) t) :
    Prog.Grows (growth c) env (query m) s Q := by
  refine Prog.grows_atom fun t ht hle => ?_
  obtain ⟨a, ha, hsound, hgain, hknown⟩ | ⟨hnot, hsound, hgain⟩ := wp_run (h t ht hle)
  · refine ⟨hsound, hgain, fun b hb => ?_⟩
    cases ha.symm.trans hb
    exact hknown
  · exact ⟨hsound, hgain, fun b hb => absurd hb (hnot b)⟩

theorem Asks.grows {m : Act α} {V : List FileSystem → α → Prop} (h : Asks c env m V) {s : Disk}
    {Q : α → Disk → Prop} (hQ : ∀ t a, Sound c t → V t.rows a → (growth c).Known t (Q a)) :
    Prog.Grows (growth c) env (query m) s Q := by
  refine grows_query fun t ht _ => wp_mono (h t ht) ?_ ?_
  · rintro a u ⟨hrows, hids, hV⟩
    have hu := ht.same hrows hids
    exact ⟨hu, hrows ▸ List.prefix_refl _, hQ u a hu (hrows.symm ▸ hV)⟩
  · rintro u ⟨hrows, hids⟩
    exact ⟨ht.same hrows hids, hrows ▸ List.prefix_refl _⟩

theorem wp_call {Q : Nat → Disk → Prop} {E : Disk → Prop} (hQ : Q d.calls { d with calls := d.calls + 1 })
    (hE : E { d with calls := d.calls + 1 }) : wp call env Q E d := by
  rw [call, wp_bind, wp_read, wp_bind, wp_get, wp_bind, wp_modify]
  split
  · exact hE
  · exact hQ

theorem wp_orFail {message : String} {o : Option α} {Q : α → Disk → Prop} {E : Disk → Prop}
    (hQ : ∀ a, o = some a → Q a d) (hE : E d) : wp (orFail message o) env Q E d := by
  cases o with
  | some a => exact hQ a rfl
  | none => exact hE

theorem asks_find (p : FileSystem → Bool) : Asks c env (Repo.find p) fun rows found =>
    ∀ id, found = some id → ∃ row ∈ rows, row.id = id ∧ p row = true := by
  intro d _
  rw [Repo.find, wp_bind, wp_read, wp_bind]
  refine wp_call ?_ ⟨rfl, rfl⟩
  rw [wp_bind, wp_get, wp_pure]
  refine ⟨rfl, rfl, fun id hid => ?_⟩
  obtain ⟨row, hrow, rfl⟩ := Option.map_eq_some_iff.mp hid
  have hin := List.mem_filter.mp ((Order.mem_on _).mp (List.mem_of_mem_head? hrow))
  exact ⟨row, hin.1, rfl, hin.2⟩

-- The session, if there is one, is that of the user.
def Session (env : Env) (u : Uuid) : Prop := ∀ v, env.session = .ok (some v) → v = u

theorem wp_user (hsession : Session env u) {userId : Option Uuid} (huser : ∀ v, userId = some v → v = u)
    {Q : Uuid → Disk → Prop} {E : Disk → Prop} (hQ : Q u d) (hE : E d) :
    wp (Repo.user userId) env Q E d := by
  rw [Repo.user, wp_bind, wp_read]
  cases hs : env.session with
  | error e => exact hE
  | ok session =>
    refine wp_orFail (fun v hv => ?_) hE
    have hu : v = u := by
      cases userId with
      | some w =>
        cases hv
        exact huser v rfl
      | none =>
        cases session with
        | some w =>
          cases hv
          exact hsession v hs
        | none => cases hv
    exact hu ▸ hQ

theorem asks_user (hsession : Session env u) {userId : Option Uuid}
    (huser : ∀ v, userId = some v → v = u) {f : Uuid → Act α} {V : List FileSystem → α → Prop}
    (h : Asks c env (f u) V) : Asks c env (Repo.user userId >>= f) V := by
  intro d hd
  rw [wp_bind]
  exact wp_user hsession huser (h d hd) ⟨rfl, rfl⟩

theorem none_user {u : Uuid} : ∀ v, (none : Option Uuid) = some v → v = u := fun _ h => by cases h

theorem some_user {u : Uuid} : ∀ v, some u = some v → v = u := fun _ h => (Option.some.inj h).symm

-- What a query by metadata returns is a directory.
theorem Sound.found (h : Sound c d) (hrow : row ∈ d.rows) {kind : DirKind}
    (hkind : row.dirKind = some kind) : Directory c row := by
  obtain hdirectory | hfile := h.tree.fits row hrow
  · exact hdirectory
  · cases hfile.dirKind.symm.trans hkind

theorem draft_of_metadata {kind : Kind} {draft : Uuid}
    (h : (kind.metadata id).bind NetDiskMeta.flowDraftId = some draft) : id = draft := by
  cases kind with
  | draft user => exact Option.some.inj h
  | _ => cases h

theorem draftRoot_of_metadata {kind : Kind}
    (hkind : (kind.metadata id).bind NetDiskMeta.dirKind = some .flowDraft)
    (hnone : (kind.metadata id).bind NetDiskMeta.flowDraftId = none) :
    ∃ user, kind = .draftRoot user := by
  cases kind with
  | draftRoot user => exact ⟨user, rfl⟩
  | draft user => cases hnone
  | _ => cases hkind

theorem instanceRoot_of_metadata {kind : Kind}
    (hkind : (kind.metadata id).bind NetDiskMeta.dirKind = some .flowInstance)
    (hnone : (kind.metadata id).bind NetDiskMeta.flowInstanceId = none) :
    ∃ user, kind = .instanceRoot user := by
  cases kind with
  | instanceRoot user => exact ⟨user, rfl⟩
  | flow user => cases hnone
  | node flow user => cases hnone
  | _ => cases hkind

theorem flow_of_metadata {kind : Kind} {flow : Uuid}
    (h : (kind.metadata id).bind NetDiskMeta.flowInstanceId = some flow) :
    id = flow ∨ ∃ user, kind = .node flow user := by
  cases kind with
  | flow user => exact .inl (Option.some.inj h)
  | node other user =>
    cases h
    exact .inr ⟨user, rfl⟩
  | _ => cases h

theorem no_nodeInstance {kind : Kind} :
    (kind.metadata id).bind NetDiskMeta.dirKind ≠ some .nodeInstance := by
  cases kind with
  | _ => exact fun h => by cases h

theorem asks_rootId (hsession : Session env u) {userId : Option Uuid}
    (huser : ∀ v, userId = some v → v = u) : Asks c env (Repo.getRootId userId) fun rows found =>
      ∀ id, found = some id → id = u ∧ Has rows id := by
  refine asks_user hsession huser fun d hd => wp_mono (asks_find _ d hd) ?_ fun _ ht => ht
  rintro found t ⟨hrows, hids, hfound⟩
  refine ⟨hrows, hids, fun id hid => ?_⟩
  obtain ⟨row, hrow, rfl, hp⟩ := hfound id hid
  exact ⟨beq_iff_eq.mp hp, row, hrow, rfl⟩

theorem asks_flowDraftDirId (hsession : Session env u) (draft : Uuid) :
    Asks c env (Repo.getFlowDraftDirId draft) fun rows found =>
      ∀ id, found = some id → id = draft ∧ Has rows id := by
  refine asks_user hsession none_user fun d hd => wp_mono (asks_find _ d hd) ?_ fun _ ht => ht
  rintro found t ⟨hrows, hids, hfound⟩
  refine ⟨hrows, hids, fun id hid => ?_⟩
  obtain ⟨row, hrow, rfl, hp⟩ := hfound id hid
  rw [Bool.and_eq_true, Bool.and_eq_true, beq_iff_eq, beq_iff_eq] at hp
  have hdraft := hp.1.2
  rw [FileSystem.flowDraftId, (hd.found hrow hp.1.1).metadata] at hdraft
  exact ⟨draft_of_metadata hdraft, row, hrow, rfl⟩

theorem asks_flowDraftRootId (hsession : Session env u) :
    Asks c env Repo.getFlowDraftRootId fun rows found =>
      ∀ id, found = some id → id = u + 1 ∧ Has rows id := by
  refine asks_user hsession none_user fun d hd => wp_mono (asks_find _ d hd) ?_ fun _ ht => ht
  rintro found t ⟨hrows, hids, hfound⟩
  refine ⟨hrows, hids, fun id hid => ?_⟩
  obtain ⟨row, hrow, rfl, hp⟩ := hfound id hid
  rw [Bool.and_eq_true, Bool.and_eq_true, beq_iff_eq, beq_iff_eq, beq_iff_eq] at hp
  obtain ⟨⟨hkind, hnone⟩, howner⟩ := hp
  have hdirectory := hd.found hrow hkind
  rw [FileSystem.dirKind, hdirectory.metadata] at hkind
  rw [FileSystem.flowDraftId, hdirectory.metadata] at hnone
  obtain ⟨user, hroot⟩ := draftRoot_of_metadata hkind hnone
  have hplaced := hdirectory.placed
  have huser := hdirectory.owner
  rw [hroot] at hplaced huser
  cases huser
  exact ⟨howner ▸ hplaced.1, row, hrow, rfl⟩

theorem asks_flowInstanceRootId (hsession : Session env u) :
    Asks c env (Repo.getFlowInstanceRootId (some u)) fun rows found =>
      ∀ id, found = some id → id = u + 2 ∧ Has rows id := by
  refine asks_user hsession some_user fun d hd => wp_mono (asks_find _ d hd) ?_ fun _ ht => ht
  rintro found t ⟨hrows, hids, hfound⟩
  refine ⟨hrows, hids, fun id hid => ?_⟩
  obtain ⟨row, hrow, rfl, hp⟩ := hfound id hid
  rw [Bool.and_eq_true, Bool.and_eq_true, beq_iff_eq, beq_iff_eq, beq_iff_eq] at hp
  obtain ⟨⟨hkind, hnone⟩, howner⟩ := hp
  have hdirectory := hd.found hrow hkind
  rw [FileSystem.dirKind, hdirectory.metadata] at hkind
  rw [FileSystem.flowInstanceId, hdirectory.metadata] at hnone
  obtain ⟨user, hroot⟩ := instanceRoot_of_metadata hkind hnone
  have hplaced := hdirectory.placed
  have huser := hdirectory.owner
  rw [hroot] at hplaced huser
  cases huser
  exact ⟨howner ▸ hplaced.1, row, hrow, rfl⟩

-- Any directory of the workflow may be returned, that of another node too.
theorem asks_flowInstanceDirId {flow : Uuid} (hflow : c.kind flow = .flow u) :
    Asks c env (Repo.getFlowInstanceDirId flow) fun rows found =>
      ∀ id, found = some id → (id = flow ∨ c.kind id = .node flow u) ∧ Has rows id := by
  refine fun d hd => wp_mono (asks_find _ d hd) ?_ fun _ ht => ht
  rintro found t ⟨hrows, hids, hfound⟩
  refine ⟨hrows, hids, fun id hid => ?_⟩
  obtain ⟨row, hrow, rfl, hp⟩ := hfound id hid
  rw [Bool.and_eq_true, beq_iff_eq, beq_iff_eq] at hp
  have hdirectory := hd.found hrow hp.1
  have hmetadata := hp.2
  rw [FileSystem.flowInstanceId, hdirectory.metadata] at hmetadata
  refine ⟨(flow_of_metadata hmetadata).imp_right ?_, row, hrow, rfl⟩
  rintro ⟨user, hnode⟩
  have hplaced := hdirectory.placed
  rw [hnode] at hplaced
  cases hflow.symm.trans hplaced.1
  exact hnode

-- Nothing is stored under the kind that a node's directory is looked up with.
theorem asks_nodeInstanceDirId (node : Uuid) :
    Asks c env (Repo.getNodeInstanceDirId node) fun _ found => found = none := by
  refine fun d hd => wp_mono (asks_find _ d hd) ?_ fun _ ht => ht
  rintro found t ⟨hrows, hids, hfound⟩
  refine ⟨hrows, hids, Option.eq_none_iff_forall_ne_some.mpr fun id hid => ?_⟩
  obtain ⟨row, hrow, rfl, hp⟩ := hfound id hid
  rw [Bool.and_eq_true, beq_iff_eq] at hp
  have hkind := hp.1
  rw [FileSystem.dirKind, (hd.found hrow hp.1).metadata] at hkind
  exact no_nodeInstance hkind

theorem asks_isSame (hsession : Session env u) {userId : Option Uuid}
    (huser : ∀ v, userId = some v → v = u) (parentId : Option Uuid) (fileName : String) :
    Asks c env (Repo.isSamePidFnameExists parentId fileName userId) fun _ _ => True := by
  refine asks_user hsession huser fun d hd => ?_
  rw [wp_bind]
  exact wp_mono (asks_find _ d hd) (fun _ _ ht => ⟨ht.1, ht.2.1, trivial⟩) fun _ ht => ht

end Requests

section Inserting

variable {c : Census} {env : Env} {d : Disk} {row : FileSystem} {u : Uuid}

open Effect

-- A row with the id is there afterwards, this one if there was none.
structure Saved (c : Census) (d : Disk) (row : FileSystem) (t : Disk) : Prop where
  sound : Sound c t
  gain : d.rows <+: t.rows
  has : Has t.rows row.id
  mem : ¬Has d.rows row.id → row ∈ t.rows

theorem Sound.append (h : Sound c d) (fits : Directory c row ∨ File c row)
    (hnew : ¬Has d.rows row.id) (hparent : ∀ parent, row.parentId = some parent → Has d.rows parent)
    (hfresh : ∀ n, row.id ≠ d.ids n) : Sound c { d with rows := d.rows ++ [row] } where
  tree := .concat h.tree fits hnew hparent
  ids := h.ids
  distinct := h.distinct
  fresh n hhas := by
    obtain ⟨other, hother, hid⟩ := hhas
    obtain hother | hother := List.mem_append.mp hother
    · exact h.fresh n ⟨other, hother, hid⟩
    · rw [List.mem_singleton.mp hother] at hid
      exact hfresh n hid

theorem wp_save (h : Sound c d) (ignored : Bool) (fits : Directory c row ∨ File c row)
    (hself : row.parentId = some row.id → Has d.rows row.id) (hfresh : ∀ n, row.id ≠ d.ids n) :
    wp (Repo.save ignored row) env (fun _ => Saved c d row)
      (fun t => Sound c t ∧ d.rows <+: t.rows) d := by
  have hcalls := h.calls (d.calls + 1)
  rw [Repo.save, wp_bind]
  refine wp_call ?_ ⟨hcalls, List.prefix_refl _⟩
  rw [wp_bind, wp_get]
  by_cases hhas : Has d.rows row.id
  · rw [if_pos (has_iff.mp hhas)]
    cases ignored with
    | true => exact ⟨hcalls, List.prefix_refl _, hhas, fun hnot => absurd hhas hnot⟩
    | false => exact ⟨hcalls, List.prefix_refl _⟩
  · rw [if_neg fun hany => hhas (has_iff.mpr hany)]
    split
    · next hparent =>
      have hmem : row ∈ d.rows ++ [row] := List.mem_append_right _ (List.mem_singleton_self row)
      refine ⟨hcalls.append fits hhas (fun parent hp => ?_) hfresh, List.prefix_append _ _,
        ⟨row, hmem, rfl⟩, fun _ => hmem⟩
      rw [Repo.hasParent, hp] at hparent
      obtain hid | hany := Bool.or_eq_true_iff.mp hparent
      · exact absurd (hself (hp.trans (congrArg some (beq_iff_eq.mp hid)))) hhas
      · exact has_iff.mpr hany
    · exact ⟨hcalls, List.prefix_refl _⟩

theorem u128_of_lt {checked : Bool} {n : Nat} (h : n < 2 ^ 128) : Repo.u128 checked n = .ok n := if_pos h

-- `insert` of an entity whose row fits.
theorem wp_insert (h : Sound c d) (hsession : Session env u) {entity : NetDisk}
    (huser : ∀ v, entity.userId = some v → v = u) {id : Uuid}
    (hid : Repo.fixedId env.checked u entity.id entity.metadata = .ok id)
    (hrow : row = ⟨id, entity.parentId, entity.name, entity.isDict, entity.kind, u,
      entity.fileMetadataId, entity.metadata⟩) (fits : Directory c row ∨ File c row)
    (hself : row.parentId = some row.id → Has d.rows row.id) (hfresh : ∀ n, row.id ≠ d.ids n) :
    wp (Repo.insert entity) env (fun id t => id = row.id ∧ Saved c d row t)
      (fun t => Sound c t ∧ d.rows <+: t.rows) d := by
  have hstill : Sound c d ∧ d.rows <+: d.rows := ⟨h, List.prefix_refl _⟩
  rw [Repo.insert, wp_bind, Repo.rowOf, wp_bind]
  refine wp_user hsession huser ?_ hstill
  rw [wp_bind, wp_read, wp_bind, wp_lift]
  refine ⟨fun id' hid' => ?_, fun hnot => absurd hid (hnot id)⟩
  cases hid.symm.trans hid'
  rw [wp_pure, ← hrow, wp_bind]
  exact wp_mono (wp_save h true fits hself hfresh) (fun _ t ht => ⟨rfl, ht⟩) fun _ ht => ht

theorem Directory.fresh (h : Directory c row) (hd : Sound c d) (n : Nat) : row.id ≠ d.ids n := by
  intro heq
  have howner := h.owner
  rw [heq, hd.ids n] at howner
  cases howner

theorem grows_insert (hsession : Session env u) {entity : NetDisk}
    (huser : ∀ v, entity.userId = some v → v = u) {id : Uuid}
    (hid : Repo.fixedId env.checked u entity.id entity.metadata = .ok id)
    (hdirectory : Directory c ⟨id, entity.parentId, entity.name, entity.isDict, entity.kind, u,
      entity.fileMetadataId, entity.metadata⟩) {s : Disk}
    (hself : ∀ t, Sound c t → s.rows <+: t.rows → entity.parentId = some id → Has t.rows id) :
    Prog.Grows (growth c) env (query (Repo.insert entity)) s
      fun a t => a = id ∧ Has t.rows id := by
  refine grows_query fun t ht hle => wp_mono (wp_insert ht hsession huser hid rfl (.inl hdirectory)
    (hself t ht hle) (hdirectory.fresh ht)) ?_ fun _ hu => hu
  rintro a w ⟨rfl, hsaved⟩
  exact ⟨hsaved.sound, hsaved.gain, fun _ _ hlater => ⟨rfl, hsaved.has.mono hlater⟩⟩

theorem grows_createRoot (hroot : c.kind u = .root u) (hsession : Session env u) (s : Disk) :
    Prog.Grows (growth c) env (query Repo.createRoot) s fun id t => id = u ∧ Has t.rows u := by
  have hdirectory : Directory c ⟨u, none, Storage.uuidText u, true, .folder, u, none, none⟩ := by
    refine ⟨rfl, ?_, ?_, ?_⟩
    · rw [hroot]
      rfl
    · rw [hroot]
      rfl
    · rw [hroot]
      exact ⟨rfl, rfl⟩
  refine grows_query fun t ht hle => ?_
  rw [Repo.createRoot, wp_bind]
  refine wp_user hsession none_user ?_ ⟨ht, List.prefix_refl _⟩
  rw [wp_bind]
  refine wp_mono (wp_save ht false (.inl hdirectory) (fun h => by cases h) (hdirectory.fresh ht)) ?_
    fun _ hu => hu
  intro _ w hsaved
  exact ⟨hsaved.sound, hsaved.gain, fun _ _ hlater => ⟨rfl, hsaved.has.mono hlater⟩⟩

end Inserting

section Services

variable {c : Census} {env : Env} {u : Uuid} {s : Disk} (hs : Sound c s)

include hs

open Effect NetDiskService

-- What a look-up has found is used; otherwise the directory is made.
theorem grows_orElse {m : Act (Option Uuid)} {V : List FileSystem → Option Uuid → Prop}
    (hm : Asks c env m V) {make : Request Uuid} {P : Uuid → Prop}
    (hfound : ∀ rows id, V rows (some id) → P id ∧ Has rows id)
    (hmake : ∀ t, Sound c t → Prog.Grows (growth c) env make t fun id t => P id ∧ Has t.rows id) :
    Prog.Grows (growth c) env (query m >>= fun found => match found with
      | some el => pure el
      | none => make) s fun id t => P id ∧ Has t.rows id := by
  have hquery : Prog.Grows (growth c) env (query m) s fun found t =>
      ∀ id, found = some id → P id ∧ Has t.rows id := by
    refine hm.grows fun t found _ hV u _ hle id hid => ?_
    subst hid
    obtain ⟨hP, hhas⟩ := hfound t.rows id hV
    exact ⟨hP, hhas.mono hle⟩
  refine hquery.bind hs fun found t ht _ hknown => ?_
  cases found with
  | some el => exact Prog.grows_pure (hknown.mono fun _ _ h => h el rfl)
  | none => exact hmake t ht

theorem grows_rootId (hroot : c.kind u = .root u) (hsession : Session env u) {userId : Option Uuid}
    (huser : ∀ v, userId = some v → v = u) : Prog.Grows (growth c) env (getRootId userId) s
      fun id t => id = u ∧ Has t.rows id :=
  grows_orElse hs (asks_rootId hsession huser) (fun _ id h => h id rfl) fun t _ =>
    (grows_createRoot hroot hsession t).mono fun _ _ _ _ h => ⟨h.1, h.1 ▸ h.2⟩

theorem grows_flowDraftRoot (hroot : c.kind u = .root u) (hsession : Session env u) :
    Prog.Grows (growth c) env getOrCreateFlowDraftRoot s fun id t => id = u + 1 ∧ Has t.rows id := by
  refine grows_orElse hs (asks_flowDraftRootId hsession) (fun _ id h => h id rfl) fun t ht => ?_
  refine (grows_rootId ht hroot hsession none_user).bind ht fun root t' ht' _ hknown => ?_
  obtain ⟨rfl, -⟩ := hknown t' ht' (List.prefix_refl _)
  have hkind := c.draftRoot root hroot
  have hfixed : Repo.fixedId env.checked root 0 (some { dirKind := some .flowDraft }) =
      .ok (root + 1) := u128_of_lt (Nat.lt_of_succ_lt (c.bound root hroot))
  have hdirectory : Directory c ⟨root + 1, some root, "来自工作流草稿", true, .folder, root, none,
      some { dirKind := some .flowDraft }⟩ := by
    refine ⟨rfl, ?_, ?_, ?_⟩
    · rw [hkind]
      rfl
    · rw [hkind]
      rfl
    · rw [hkind]
      exact ⟨rfl, hroot, rfl⟩
  refine (grows_insert hsession none_user hfixed hdirectory fun _ _ _ hself => ?_).mono
    fun _ _ _ _ h => ⟨h.1, h.1 ▸ h.2⟩
  exact absurd (Option.some.inj hself) (Nat.ne_of_lt (Nat.lt_succ_self root))

theorem grows_flowDraftDir (hroot : c.kind u = .root u) (hsession : Session env u) {draft : Uuid}
    (hdraft : c.kind draft = .draft u) (name : String) :
    Prog.Grows (growth c) env (getOrCreateFlowDraftDir draft name) s
      fun id t => id = draft ∧ Has t.rows id := by
  refine grows_orElse hs (asks_flowDraftDirId hsession draft) (fun _ id h => h id rfl) fun t ht => ?_
  refine (grows_flowDraftRoot ht hroot hsession).bind ht fun root t' ht' _ hknown => ?_
  obtain ⟨rfl, -⟩ := hknown t' ht' (List.prefix_refl _)
  have hdirectory : Directory c ⟨draft, some (u + 1), s!"{name}_{firstGroup draft}", true, .folder, u,
      none, some { flowDraftId := some draft, dirKind := some .flowDraft }⟩ := by
    refine ⟨rfl, ?_, ?_, ?_⟩
    · rw [hdraft]
      rfl
    · rw [hdraft]
      rfl
    · rw [hdraft]
      exact ⟨hroot, rfl⟩
  refine (grows_insert hsession none_user rfl hdirectory fun _ _ _ hself => ?_).mono
    fun _ _ _ _ h => ⟨h.1, h.1 ▸ h.2⟩
  have hkind := c.draftRoot u hroot
  rw [Option.some.inj hself, hdraft] at hkind
  cases hkind

theorem grows_flowInstanceRoot (hroot : c.kind u = .root u) (hsession : Session env u) :
    Prog.Grows (growth c) env (getOrCreateFlowInstanceRoot (some u)) s
      fun id t => id = u + 2 ∧ Has t.rows id := by
  refine grows_orElse hs (asks_flowInstanceRootId hsession) (fun _ id h => h id rfl) fun t ht => ?_
  refine (grows_rootId ht hroot hsession some_user).bind ht fun root t' ht' _ hknown => ?_
  obtain ⟨rfl, -⟩ := hknown t' ht' (List.prefix_refl _)
  have hkind := c.instanceRoot root hroot
  have hfixed : Repo.fixedId env.checked root 0 (some { dirKind := some .flowInstance }) =
      .ok (root + 2) := u128_of_lt (c.bound root hroot)
  have hdirectory : Directory c ⟨root + 2, some root, "来自工作流实例", true, .folder, root, none,
      some { dirKind := some .flowInstance }⟩ := by
    refine ⟨rfl, ?_, ?_, ?_⟩
    · rw [hkind]
      rfl
    · rw [hkind]
      rfl
    · rw [hkind]
      exact ⟨rfl, hroot, rfl⟩
  refine (grows_insert hsession some_user hfixed hdirectory fun _ _ _ hself => ?_).mono
    fun _ _ _ _ h => ⟨h.1, h.1 ▸ h.2⟩
  exact absurd (Option.some.inj hself) (Nat.ne_of_lt (Nat.lt_add_of_pos_right Nat.two_pos))

theorem grows_flowInstanceDir (hroot : c.kind u = .root u) (hsession : Session env u) {flow : Uuid}
    (hflow : c.kind flow = .flow u) (name : String) :
    Prog.Grows (growth c) env (getOrCreateFlowInstanceDir flow name (some u)) s
      fun id t => (id = flow ∨ c.kind id = .node flow u) ∧ Has t.rows id := by
  refine grows_orElse hs (asks_flowInstanceDirId hflow) (fun _ id h => h id rfl) fun t ht => ?_
  refine (grows_flowInstanceRoot ht hroot hsession).bind ht fun root t' ht' _ hknown => ?_
  obtain ⟨rfl, -⟩ := hknown t' ht' (List.prefix_refl _)
  have hdirectory : Directory c ⟨flow, some (u + 2), s!"{name}_{firstGroup flow}", true, .folder, u,
      none, some { flowInstanceId := some flow, dirKind := some .flowInstance }⟩ := by
    refine ⟨rfl, ?_, ?_, ?_⟩
    · rw [hflow]
      rfl
    · rw [hflow]
      rfl
    · rw [hflow]
      exact ⟨hroot, rfl⟩
  refine (grows_insert hsession some_user rfl hdirectory fun _ _ _ hself => ?_).mono
    fun _ _ _ _ h => ⟨.inl h.1, h.1 ▸ h.2⟩
  have hkind := c.instanceRoot u hroot
  rw [Option.some.inj hself, hflow] at hkind
  cases hkind

theorem grows_nodeInstanceDir (hroot : c.kind u = .root u) (hsession : Session env u)
    {flow node : Uuid} (hflow : c.kind flow = .flow u) (hnode : c.kind node = .node flow u)
    (nodeName flowName : String) :
    Prog.Grows (growth c) env (getOrCreateNodeInstanceDir node flow nodeName flowName (some u)) s
      fun id t => id = node ∧ Has t.rows id := by
  have habove : Prog.Grows (growth c) env (getOrCreateDirFor node flow flowName (some u)) s
      fun id t => (id = flow ∨ c.kind id = .node flow u) ∧ Has t.rows id :=
    grows_orElse hs (asks_nodeInstanceDirId node) (fun _ _ h => by cases h) fun t ht =>
      grows_flowInstanceDir ht hroot hsession hflow flowName
  refine habove.bind hs fun above t ht _ hknown => ?_
  obtain ⟨hcases, -⟩ := hknown t ht (List.prefix_refl _)
  have hdirectory : Directory c ⟨node, some above, s!"{nodeName}_{firstGroup node}", true, .folder, u,
      none, some { flowInstanceId := some flow, nodeInstanceId := some node,
                   dirKind := some .flowInstance }⟩ := by
    refine ⟨rfl, ?_, ?_, ?_⟩
    · rw [hnode]
      rfl
    · rw [hnode]
      rfl
    · rw [hnode]
      exact ⟨hflow, above, rfl, hcases⟩
  refine (grows_insert hsession some_user rfl hdirectory fun w hw hle hself => ?_).mono
    fun _ _ _ _ h => ⟨h.1, h.1 ▸ h.2⟩
  cases hself
  exact (hknown w hw hle).2

end Services

-- The entry of an accepted file.
def Filed (metaId parent user : Uuid) (rows : List FileSystem) : Prop :=
  ∃ row ∈ rows, row.isDict = false ∧ row.fileMetadataId = some metaId ∧ row.parentId = some parent ∧
    row.ownerId = user

section Files

variable {c : Census} {env : Env} {u : Uuid} {s : Disk}

open Effect NetDiskService

theorem grows_insertFile (hsession : Session env u) {userId : Option Uuid}
    (huser : ∀ v, userId = some v → v = u) {parent : Uuid} (hparent : (c.kind parent).owner = some u)
    (metaId : Uuid) (name : String) (kind : Storage.FileType) {metadata : Option NetDiskMeta}
    (hmetadata : metadata.bind NetDiskMeta.dirKind = none) :
    Prog.Grows (growth c) env (insertFile parent metaId name kind metadata userId) s
      fun _ t => Filed metaId parent u t.rows := by
  refine grows_query fun t ht _ => ?_
  have hdrawn : Sound c { t with ids := fun n => t.ids (n + 1) } :=
    ⟨ht.tree, fun n => ht.ids (n + 1), fun m n h => Nat.succ.inj (ht.distinct h),
      fun n => ht.fresh (n + 1)⟩
  have hid : Repo.fixedId env.checked u (t.ids 0) metadata = .ok (t.ids 0) := by
    cases metadata with
    | none => rfl
    | some md =>
      obtain ⟨draft, flow, node, dirKind⟩ := md
      cases (hmetadata : dirKind = none)
      cases draft with
      | none =>
        cases flow with
        | none => rfl
        | some flow => rfl
      | some draft =>
        cases flow with
        | none => rfl
        | some flow => rfl
  have hfile : File c ⟨t.ids 0, some parent, name, false, kind, u, some metaId, metadata⟩ :=
    ⟨ht.ids 0, rfl, ⟨parent, rfl, hparent⟩, hmetadata⟩
  have hself : (some parent : Option Uuid) = some (t.ids 0) → Has t.rows (t.ids 0) := by
    intro heq
    rw [Option.some.inj heq, ht.ids 0] at hparent
    cases hparent
  have hfresh : ∀ n, t.ids 0 ≠ t.ids (n + 1) := fun n h => Nat.succ_ne_zero n (ht.distinct h).symm
  rw [wp_bind, newV4, wp_bind, wp_get, wp_bind, wp_modify, wp_pure]
  refine wp_mono (wp_insert hdrawn hsession huser hid rfl (.inr hfile) hself hfresh) ?_ fun _ hu => hu
  rintro _ w ⟨-, hsaved⟩
  have hmem := hsaved.mem (ht.fresh 0)
  exact ⟨hsaved.sound, hsaved.gain, fun v _ hlater =>
    ⟨_, hlater.subset hmem, rfl, rfl, rfl, rfl⟩⟩

theorem grows_fixFileName (hsession : Session env u) {userId : Option Uuid}
    (huser : ∀ v, userId = some v → v = u) (parent : Option Uuid) (name : String) :
    Prog.Grows (growth c) env (fixFileName parent name userId) s fun _ _ => True := by
  have hasks : Asks c env (do
      let env ← .read
      let d ← .get
      let exist ← Repo.isSamePidFnameExists parent name userId
      if exist then pure s!"{name}_{env.now d.calls}" else pure name) fun _ _ => True := by
    intro d hd
    rw [wp_bind, wp_read, wp_bind, wp_get, wp_bind]
    refine wp_mono (asks_isSame hsession huser parent name d hd) ?_ fun _ ht => ht
    rintro exist t ⟨hrows, hids, -⟩
    cases exist with
    | true => exact ⟨hrows, hids, trivial⟩
    | false => exact ⟨hrows, hids, trivial⟩
  exact hasks.grows fun _ _ _ _ _ _ _ => trivial

theorem grows_getById {α : Type} (records : Env → Nat → Uuid → Option α) (id : Uuid) :
    Prog.Grows (growth c) env (getById records id) s fun a _ => ∃ k, records env k id = some a := by
  have hasks : Asks c env (do
      let env ← .read
      let k ← call
      orFail "No such record." (records env k id)) fun _ a => ∃ k, records env k id = some a := by
    intro d hd
    rw [wp_bind, wp_read, wp_bind]
    refine wp_call (wp_orFail (fun a ha => ⟨rfl, rfl, d.calls, ha⟩) ⟨rfl, rfl⟩) ⟨rfl, rfl⟩
  exact hasks.grows fun _ _ _ hV _ _ _ => hV

end Files

-- A request of the user who owns what the file is for.
def Job.Allowed (c : Census) (u : Uuid) (job : Job) : Prop :=
  c.kind u = .root u ∧ Session job.env u ∧
    match job.command.kind with
    | .nodeInstance node => ∃ flow, c.kind flow = .flow u ∧ c.kind node = .node flow u ∧
        (∀ k found name, job.env.nodeInstance k node = some (found, name) → found = flow) ∧
        ∀ k name user, job.env.flowInstance k flow = some (name, user) → user = u
    | .flowDraft draft => c.kind draft = .draft u
    | .normal parent => ∀ dir, parent = some dir → (c.kind dir).owner = some u

-- The directory that a command asks for.
def Job.parent (u : Uuid) (job : Job) : Uuid :=
  match job.command.kind with
  | .nodeInstance node => node
  | .flowDraft draft => draft
  | .normal parent => parent.getD u

section Commands

variable {c : Census} {u : Uuid} {s : Disk}

open NetDiskService

theorem grows_createFile (hs : Sound c s) {job : Job} (h : job.Allowed c u) :
    Prog.Grows (growth c) job.env (createFile job.command) s
      fun _ t => Filed job.command.metaId (job.parent u) u t.rows := by
  obtain ⟨env, metaId, fileName, fileType, kind⟩ := job
  obtain ⟨hroot, hsession, hkind⟩ := h
  cases kind with
  | nodeInstance node =>
    obtain ⟨flow, hflow, hnode, hflowOf, howner⟩ := hkind
    have howner' : (c.kind node).owner = some u := by
      rw [hnode]
      rfl
    refine (grows_getById Env.nodeInstance node).bind hs fun found t ht _ hknown => ?_
    obtain ⟨found, nodeName⟩ := found
    obtain ⟨k, hk⟩ := hknown t ht (List.prefix_refl _)
    obtain rfl := hflowOf k found nodeName hk
    refine (grows_getById Env.flowInstance found).bind ht fun record t ht _ hknown => ?_
    obtain ⟨flowName, user⟩ := record
    obtain ⟨k, hk⟩ := hknown t ht (List.prefix_refl _)
    obtain rfl := howner k flowName user hk
    refine (grows_nodeInstanceDir ht hroot hsession hflow hnode nodeName flowName).bind ht
      fun dir t ht _ hknown => ?_
    obtain ⟨rfl, -⟩ := hknown t ht (List.prefix_refl _)
    refine (grows_fixFileName hsession some_user (some dir) fileName).bind ht fun name t ht _ _ => ?_
    exact (grows_insertFile hsession some_user howner' metaId name fileType rfl).bind ht
      fun _ _ _ _ hknown => Prog.grows_pure hknown
  | flowDraft draft =>
    have howner : (c.kind draft).owner = some u := by
      rw [show c.kind draft = .draft u from hkind]
      rfl
    refine (grows_getById Env.flowDraft draft).bind hs fun flowName t ht _ _ => ?_
    refine (grows_flowDraftDir ht hroot hsession hkind flowName).bind ht fun dir t ht _ hknown => ?_
    obtain ⟨rfl, -⟩ := hknown t ht (List.prefix_refl _)
    refine (grows_fixFileName hsession none_user (some dir) fileName).bind ht fun name t ht _ _ => ?_
    exact (grows_insertFile hsession none_user howner metaId name fileType rfl).bind ht
      fun _ _ _ _ hknown => Prog.grows_pure hknown
  | normal parent =>
    refine (grows_fixFileName hsession none_user parent fileName).bind hs fun name t ht _ _ => ?_
    cases parent with
    | some dir =>
      change Prog.Grows (growth c) env
        (insertFile dir metaId name fileType none none >>= fun _ => pure ()) t _
      exact (grows_insertFile hsession none_user (hkind dir rfl) metaId name fileType rfl).bind ht
        fun _ _ _ _ hknown => Prog.grows_pure hknown
    | none =>
      have howner : (c.kind u).owner = some u := by
        rw [hroot]
        rfl
      refine (grows_rootId ht hroot hsession none_user).bind ht fun dir t ht _ hknown => ?_
      obtain ⟨rfl, -⟩ := hknown t ht (List.prefix_refl _)
      exact (grows_insertFile hsession none_user howner metaId name fileType rfl).bind ht
        fun _ _ _ _ hknown => Prog.grows_pure hknown

end Commands

-- The table is a forest: one tree for each user who has entries, the directories of a workflow
-- together.
structure Forest (rows : List FileSystem) : Prop where
  distinct : (rows.map FileSystem.id).Nodup
  rooted : ∀ row ∈ rows, ∃ root ∈ rows, Relation.ReflTransGen (Within rows) row root ∧
    root.parentId = none ∧ root.id = row.ownerId
  grouped : ∀ row ∈ rows, row.isDict = true → ∀ node, row.nodeInstanceId = some node →
    row.id = node ∧ ∃ flow ∈ rows, flow.nodeInstanceId = none ∧
      Relation.ReflTransGen (Inside rows flow.id) row flow

theorem node_of_metadata {id node : Uuid} {kind : Kind}
    (h : (kind.metadata id).bind NetDiskMeta.nodeInstanceId = some node) :
    id = node ∧ ∃ flow user, kind = .node flow user := by
  cases kind with
  | node flow user => exact ⟨Option.some.inj h, flow, user, rfl⟩
  | _ => cases h

theorem Tree.forest {c : Census} {rows : List FileSystem} (h : Tree c rows) : Forest rows where
  distinct := h.nodup
  rooted := h.rooted
  grouped row hrow hdict node hnode := by
    obtain hdirectory | hfile := h.fits row hrow
    · rw [FileSystem.nodeInstanceId, hdirectory.metadata] at hnode
      obtain ⟨hid, flow, user, hkind⟩ := node_of_metadata hnode
      obtain ⟨dir, hdir, rfl, hup⟩ := h.grouped row hrow flow user hkind
      have hplaced := hdirectory.placed
      rw [hkind] at hplaced
      have howner : (c.kind dir.id).owner = some user := by
        rw [hplaced.1]
        rfl
      have hmetadata := (Directory.of_owner (h.fits dir hdir) howner).1.metadata
      rw [hplaced.1] at hmetadata
      refine ⟨hid, dir, hdir, ?_, hup⟩
      rw [FileSystem.nodeInstanceId, hmetadata]
      rfl
    · rw [hfile.isDict] at hdict
      cases hdict

def blank (ids : Nat → Uuid) : Pool Unit Env Disk String := ⟨⟨[], ids, 0⟩, []⟩

theorem disk_forest (c : Census) (ids : Nat → Uuid) (hids : ∀ n, c.kind (ids n) = .file)
    (hdistinct : Function.Injective ids) (moves : List (Move Job))
    (hjobs : ∀ job ∈ Pool.jobs moves, ∃ u, job.Allowed c u) :
    Forest (run (Pool.step start) (blank ids) moves).state.rows ∧
      ∀ (i : Nat) (job : Job) (env : Env), (Pool.jobs moves)[i]? = some job →
        (run (Pool.step start) (blank ids) moves).threads[i]? = some ⟨env, .done (.ok ())⟩ →
          ∃ u, job.Allowed c u ∧ Filed job.command.metaId (job.parent u) u
            (run (Pool.step start) (blank ids) moves).state.rows := by
  have hstart : Pool.Grown (growth c)
      (fun (job : Job) (d : Disk) => ∃ u, job.Allowed c u ∧ Filed job.command.metaId (job.parent u) u d.rows) []
      (blank ids) := by
    refine ⟨⟨.nil, hids, hdistinct, ?_⟩, rfl, fun _ _ _ h => by cases h⟩
    rintro n ⟨row, hrow, -⟩
    cases hrow
  have hstep : ∀ job ∈ Pool.jobs moves, ∀ s, (growth c).inv s →
      Prog.Grows (growth c) (start job).env (start job).prog s fun _ t =>
        ∃ u, job.Allowed c u ∧ Filed job.command.metaId (job.parent u) u t.rows := by
    intro job hjob s hs
    obtain ⟨u, hallowed⟩ := hjobs job hjob
    exact (grows_createFile hs hallowed).mono fun _ _ _ _ h => ⟨u, hallowed, h⟩
  have hrun := hstart.run hstep
  exact ⟨hrun.inv.tree.forest, fun i job env hjob hdone => hrun.returned hjob hdone⟩

def sampleKind (id : Uuid) : Kind :=
  if id = 1000 then .root 1000
  else if id = 1001 then .draftRoot 1000
  else if id = 1002 then .instanceRoot 1000
  else if id = 7 then .flow 1000
  else if id = 8 ∨ id = 9 then .node 7 1000
  else .file

theorem sampleKind_root {user : Uuid} (h : sampleKind user = .root user) : user = 1000 := by
  unfold sampleKind at h
  split_ifs at h with hroot
  exact hroot

def sampleCensus : Census where
  kind := sampleKind
  draftRoot user h := by
    cases sampleKind_root h
    rfl
  instanceRoot user h := by
    cases sampleKind_root h
    rfl
  bound user h := by
    cases sampleKind_root h
    decide

def sampleEnv : Env where
  session := .ok (some 1000)
  checked := true
  fails _ := false
  rows _ := .reversed FileSystem
  flowDraft _ _ := none
  nodeInstance _ _ := some (7, "node")
  flowInstance _ _ := some ("flow", 1000)
  now _ := "0"

-- The database returns the newest row first.
def sampleMoves : List (Move Job) :=
  [.spawn ⟨sampleEnv, ⟨70, "a", .text, .nodeInstance 8⟩⟩,
   .spawn ⟨sampleEnv, ⟨71, "b", .text, .nodeInstance 9⟩⟩] ++
    (List.replicate 20 (.go 0) ++ List.replicate 20 (.go 1))

def sampleDisk : Pool Unit Env Disk String := run (Pool.step start) (blank fun n => 2000 + n) sampleMoves

theorem sampleIds (n : Nat) : sampleCensus.kind (2000 + n) = .file := by
  have hne : ∀ k < 2000, 2000 + n ≠ k := fun k hk => Nat.ne_of_gt (Nat.lt_add_right n hk)
  change sampleKind (2000 + n) = .file
  rw [sampleKind, if_neg (hne 1000 (by decide)), if_neg (hne 1001 (by decide)),
    if_neg (hne 1002 (by decide)), if_neg (hne 7 (by decide)), if_neg]
  rintro (h | h)
  · exact hne 8 (by decide) h
  · exact hne 9 (by decide) h

theorem sampleJobs_allowed : ∀ job ∈ Pool.jobs sampleMoves, ∃ u, job.Allowed sampleCensus u := by
  have hsession : Session sampleEnv 1000 := fun v h => by
    cases h
    rfl
  have hflow : ∀ k found name, sampleEnv.nodeInstance k 8 = some (found, name) → found = 7 := by
    intro k found name h
    cases h
    rfl
  have howner : ∀ k name user, sampleEnv.flowInstance k 7 = some (name, user) → user = 1000 := by
    intro k name user h
    cases h
    rfl
  intro job hjob
  obtain rfl | rfl := List.mem_pair.mp hjob
  · exact ⟨1000, rfl, hsession, 7, rfl, rfl, hflow, howner⟩
  · exact ⟨1000, rfl, hsession, 7, rfl, rfl, hflow, howner⟩

example : sampleDisk.state.rows.map (fun row => (row.id, row.parentId)) =
    [(1000, none), (1002, some 1000), (7, some 1002), (8, some 7), (2000, some 8), (9, some 8),
      (2001, some 9)] := by
  decide

theorem disk_forest_sample : Forest sampleDisk.state.rows ∧ Filed 71 9 1000 sampleDisk.state.rows := by
  obtain ⟨hforest, hfiled⟩ := disk_forest sampleCensus (fun n => 2000 + n) sampleIds
    (fun _ _ h => Nat.add_left_cancel h) sampleMoves sampleJobs_allowed
  refine ⟨hforest, ?_⟩
  obtain ⟨u, hallowed, h⟩ := hfiled 1 ⟨sampleEnv, ⟨71, "b", .text, .nodeInstance 9⟩⟩ sampleEnv rfl rfl
  cases sampleKind_root hallowed.1
  exact h

end Kuintessence.FileTree
