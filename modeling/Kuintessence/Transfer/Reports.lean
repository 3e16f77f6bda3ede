import Kuintessence.Agent.Repository
import Kuintessence.Lib.Path
import Kuintessence.Transfer.Blocks

namespace Kuintessence

namespace Transfer

open Agent (File FileTransferCommand)
open Agent.Dto (PreparePartialUploadResponse)

structure SshProxyConfig where
  host : String
  username : String
  port : UInt16
  homeDir : String
  saveDir : String
  deriving DecidableEq, Repr

inductive Call where
  | runJob (file : Uuid)
  | completeJob (file : Uuid)
  | failJob (subTask : Uuid) (reason : String)
  deriving DecidableEq, Repr

-- What awaiting a spawned block task gives: the block's own result, or the error of a task that
-- panicked.
inductive Joined where
  | returned (result : Except String Unit)
  | lost (e : String)

def Joined.outcome : Joined → Outcome String Unit
  | .returned _ => .ok ()
  | .lost e => .err e

-- The handles are cloned while the tasks are spawned, then all tasks are awaited in order.
def awaitBlocks (clone : Nat → Except String Unit) (block : Nat → Joined) (blockCount : Nat) :
    Outcome String Unit := do
  Outcome.each (fun i => Outcome.expect (clone i)) (List.range blockCount)
  Outcome.each (fun i => (block i).outcome) (List.range blockCount)

section Awaiting

variable {clone : Nat → Except String Unit} {block : Nat → Joined} {blockCount : Nat}

theorem outcome_ok_iff {j : Joined} : j.outcome = .ok () ↔ ∀ e, j ≠ .lost e := by
  cases j with
  | returned result => exact ⟨fun _ _ => nofun, fun _ => rfl⟩
  | lost e => exact ⟨nofun, fun h => absurd rfl (h e)⟩

theorem outcome_ne_panic (j : Joined) : j.outcome ≠ .panic := by
  cases j with
  | returned result => exact Outcome.ok_ne_panic ()
  | lost e => exact Outcome.err_ne_panic e

theorem each_expect_ne_panic_iff {xs : List Nat} :
    Outcome.each (fun i => Outcome.expect (clone i)) xs ≠ .panic ↔ ∀ i ∈ xs, clone i = .ok () := by
  induction xs with
  | nil => exact ⟨fun _ _ hi => absurd hi List.not_mem_nil, fun _ => Outcome.ok_ne_panic ()⟩
  | cons i xs ih =>
    rw [Outcome.each, Outcome.then_ne_panic_iff, Outcome.expect_ne_panic_iff, List.forall_mem_cons,
      ih]
    exact and_congr_right fun hi => ⟨fun h => h (Outcome.expect_ok_iff.mpr hi), fun h _ => h⟩

theorem awaitBlocks_ok_iff : awaitBlocks clone block blockCount = .ok () ↔
    (∀ i < blockCount, clone i = .ok ()) ∧ ∀ i < blockCount, ∀ e, block i ≠ .lost e := by
  rw [awaitBlocks, Outcome.then_ok_iff, Outcome.each_ok_iff, Outcome.each_ok_iff]
  exact and_congr (forall_congr' fun i => imp_congr List.mem_range Outcome.expect_ok_iff)
    (forall_congr' fun i => imp_congr List.mem_range outcome_ok_iff)

theorem awaitBlocks_ne_panic_iff : awaitBlocks clone block blockCount ≠ .panic ↔
    ∀ i < blockCount, clone i = .ok () := by
  rw [awaitBlocks, Outcome.then_ne_panic_iff, each_expect_ne_panic_iff]
  constructor
  · exact fun h i hi => h.1 i (List.mem_range.mpr hi)
  · exact fun h => ⟨fun i hi => h i (List.mem_range.mp hi), fun _ =>
      Outcome.each_ne_panic fun i _ => outcome_ne_panic (block i)⟩

theorem exists_blocks (checked : Bool) {size fileLength : Nat} (hsize : 0 < size)
    (hfits : fileLength < 2 ^ 64) : ∃ b, blocks checked size fileLength = .ok b := by
  obtain rfl | hpos := Nat.eq_zero_or_pos fileLength
  · rw [blocks, if_neg (Nat.not_lt_zero _)]
    exact ⟨_, rfl⟩
  · obtain ⟨blockLength, blockCount, hblocks, -⟩ := blocks_layout checked hsize hpos hfits
    exact ⟨_, hblocks⟩

end Awaiting

def Call.isSuccess : Call → Bool
  | .failJob _ _ => false
  | _ => true

-- One call, and one of success only when everything was transferred.
structure Reported (transferred : Prop) (calls : List Call) : Prop where
  once : ∃ c, calls = [c]
  success : ∀ c ∈ calls, c.isSuccess = true → transferred

theorem reported_singleton {transferred : Prop} {c : Call} :
    Reported transferred [c] ↔ (c.isSuccess = true → transferred) := by
  constructor
  · exact fun h => h.success c List.mem_cons_self
  · exact fun h => ⟨⟨c, rfl⟩, fun d hd => List.mem_singleton.mp hd ▸ h⟩

theorem not_reported_nil {transferred : Prop} : ¬Reported transferred [] := by
  rintro ⟨⟨c, hc⟩, -⟩
  cases hc

theorem exists_file {file : File} {P : File → Prop} :
    (∃ f, some file = some f ∧ P f) ↔ P file :=
  ⟨fun ⟨_, hf, h⟩ => Option.some.inj hf ▸ h, fun h => ⟨file, rfl, h⟩⟩

def filePath (saveDir : String) (parentId : Uuid) (fileName : String) : String :=
  Path.push (Path.push saveDir (toString parentId)) fileName

def remotePath (proxy : SshProxyConfig) (parentId : Uuid) (fileName : String) : String :=
  filePath (Path.push proxy.homeDir proxy.saveDir) parentId fileName

namespace Download

def blockSize : Nat := 16777216

-- The answers of the file system, the server and the `scp` process to one run.
structure Replies where
  exist : Bool
  createDirAll : Except String Unit
  write : Except String Unit
  url : Except String Unit
  contentLength : Option UInt64
  get : Except String Unit
  create : Except String Unit
  bytes : Except String Unit
  copy : Except String Unit
  setLen : Except String Unit
  clone : Nat → Except String Unit
  block : Nat → Joined
  spawn : Except String Unit
  wait : Except String Bool

def Replies.fileLength (r : Replies) : Nat := (r.contentLength.getD 0).toNat

def makeDirectory (path : String) (r : Replies) : Outcome String Unit :=
  if r.exist then .ok ()
  else if Path.hasParent path then .expect r.createDirAll
  else .panic

def whole (r : Replies) : Outcome String Unit := do
  .ofExcept r.get
  .ofExcept r.create
  .expect r.bytes
  .ofExcept r.copy

def inBlocks (checked : Bool) (r : Replies) : Outcome String Unit := do
  .ofExcept r.create
  .ofExcept r.setLen
  let b ← blocks checked blockSize r.fileLength
  awaitBlocks r.clone r.block b.2

def fetch (checked : Bool) (r : Replies) : Outcome String Unit := do
  .expect r.url
  if r.fileLength = 0 then whole r else inBlocks checked r

def task (checked : Bool) (path : String) (file : File) (r : Replies) : Outcome String Unit := do
  makeDirectory path r
  if file.isGenerated then .ofExcept r.write else fetch checked r

def unable (file : File) (e : String) : Call :=
  .failJob file.relatedTaskBody
    ("Unable to download file " ++ toString file.metadataId ++ ", because of " ++ e)

-- The result of `mkdir` on the remote is only logged.
def copyOver (proxy : SshProxyConfig) (parentId : Uuid) (file : File) (r : Replies) :
    Outcome String (List Call) :=
  if Path.hasParent (remotePath proxy parentId file.fileName) then
    match r.spawn with
    | .ok () =>
      match r.wait with
      | .ok true => .ok []
      | .ok false => .ok [unable file "ssh transport not success."]
      | .error e => .ok [unable file e]
    | .error e => .ok [unable file e]
  else .panic

def copied (sshProxy : Option SshProxyConfig) (parentId : Uuid) (file : File) (r : Replies) :
    Outcome String (List Call) :=
  match sshProxy with
  | some proxy => copyOver proxy parentId file r
  | none => .ok []

-- The calls that one command leads to; a panic ends the spawned task without any further call.
def calls (checked : Bool) (saveDir : String) (sshProxy : Option SshProxyConfig)
    (command : FileTransferCommand) (r : Replies) : List Call :=
  if command.status = .start then
    match command.taskFile with
    | none => []
    | some file =>
      match task checked (filePath saveDir command.parentId file.fileName) file r with
      | .ok () =>
        match copied sshProxy command.parentId file r with
        | .ok calls => calls ++ [.runJob file.id]
        | _ => []
      | .err e => [unable file e]
      | .panic => []
  else []

section Conditions

variable (checked : Bool) (path : String) (sshProxy : Option SshProxyConfig) (file : File)
  (r : Replies)

-- No `unwrap` that is reached meets an error.
structure Safe : Prop where
  directory : r.exist = true ∨ Path.hasParent path = true ∧ r.createDirAll = .ok ()
  url : file.isGenerated = false → r.url = .ok ()
  bytes : file.isGenerated = false → r.fileLength = 0 → r.get = .ok () → r.create = .ok () →
    r.bytes = .ok ()
  clones : file.isGenerated = false → r.fileLength ≠ 0 → r.create = .ok () → r.setLen = .ok () →
    ∀ b, blocks checked blockSize r.fileLength = .ok b → ∀ i < b.2, r.clone i = .ok ()

-- No step but the blocks themselves returns an error.
structure Finishes : Prop where
  text : file.isGenerated = true → r.write = .ok ()
  whole : file.isGenerated = false → r.fileLength = 0 →
    r.get = .ok () ∧ r.create = .ok () ∧ r.copy = .ok ()
  blocks : file.isGenerated = false → r.fileLength ≠ 0 → r.create = .ok () ∧ r.setLen = .ok () ∧
    ∀ b, blocks checked blockSize r.fileLength = .ok b → ∀ i < b.2, ∀ e, r.block i ≠ .lost e

structure Transferred : Prop where
  text : file.isGenerated = true → r.write = .ok ()
  whole : file.isGenerated = false → r.fileLength = 0 → r.get = .ok () ∧ r.copy = .ok ()
  blocks : file.isGenerated = false → r.fileLength ≠ 0 →
    ∀ b, blocks checked blockSize r.fileLength = .ok b → ∀ i < b.2, r.block i = .returned (.ok ())
  ssh : ∀ proxy, sshProxy = some proxy → r.spawn = .ok () ∧ r.wait = .ok true

-- What the error paths of the code do not look at.
structure Clean (parentId : Uuid) : Prop where
  blocks : file.isGenerated = false → r.fileLength ≠ 0 →
    ∀ b, blocks checked blockSize r.fileLength = .ok b → ∀ i < b.2, ∀ e,
      r.block i ≠ .returned (.error e)
  ssh : ∀ proxy, sshProxy = some proxy →
    Path.hasParent (remotePath proxy parentId file.fileName) = true ∧
      r.spawn = .ok () ∧ r.wait = .ok true

structure Regular (parentId : Uuid) : Prop where
  safe : Safe checked path file r
  clean : Finishes checked file r → Clean checked sshProxy file r parentId

end Conditions

section Running

variable {checked : Bool} {path : String} {sshProxy : Option SshProxyConfig} {file : File}
  {r : Replies} {parentId : Uuid}

theorem exists_cut (checked : Bool) (r : Replies) :
    ∃ b, blocks checked blockSize r.fileLength = .ok b :=
  exists_blocks checked (by decide) (UInt64.toNat_lt _)

theorem makeDirectory_ok_iff : makeDirectory path r = .ok () ↔
    r.exist = true ∨ Path.hasParent path = true ∧ r.createDirAll = .ok () := by
  rw [makeDirectory]
  split
  · next h => exact ⟨fun _ => .inl h, fun _ => rfl⟩
  · next h =>
    rw [or_iff_right h]
    split
    · next hp => rw [Outcome.expect_ok_iff, and_iff_right hp]
    · next hp => exact ⟨nofun, fun h => absurd h.1 hp⟩

theorem makeDirectory_ne_panic_iff : makeDirectory path r ≠ .panic ↔
    r.exist = true ∨ Path.hasParent path = true ∧ r.createDirAll = .ok () := by
  rw [makeDirectory]
  split
  · next h => exact ⟨fun _ => .inl h, fun _ => Outcome.ok_ne_panic ()⟩
  · next h =>
    rw [or_iff_right h]
    split
    · next hp => rw [Outcome.expect_ne_panic_iff, and_iff_right hp]
    · next hp => exact ⟨fun hne => absurd rfl hne, fun h => absurd h.1 hp⟩

theorem whole_ok_iff : whole r = .ok () ↔
    r.get = .ok () ∧ r.create = .ok () ∧ r.bytes = .ok () ∧ r.copy = .ok () := by
  simp only [whole, Outcome.then_ok_iff, Outcome.ofExcept_ok_iff, Outcome.expect_ok_iff]

theorem whole_ne_panic_iff : whole r ≠ .panic ↔
    (r.get = .ok () → r.create = .ok () → r.bytes = .ok ()) := by
  rw [whole, Outcome.try_ne_panic_iff]
  refine imp_congr_right fun _ => Outcome.try_ne_panic_iff.trans (imp_congr_right fun _ => ?_)
  rw [Outcome.then_ne_panic_iff, Outcome.expect_ne_panic_iff]
  exact and_iff_left fun _ => Outcome.ofExcept_ne_panic r.copy

theorem inBlocks_ok_iff {b : Nat × Nat} (hb : blocks checked blockSize r.fileLength = .ok b) :
    inBlocks checked r = .ok () ↔ r.create = .ok () ∧ r.setLen = .ok () ∧
      (∀ i < b.2, r.clone i = .ok ()) ∧ ∀ i < b.2, ∀ e, r.block i ≠ .lost e := by
  simp only [inBlocks, hb, Outcome.ok_bind, Outcome.then_ok_iff, Outcome.ofExcept_ok_iff,
    awaitBlocks_ok_iff]

theorem inBlocks_ne_panic_iff {b : Nat × Nat}
    (hb : blocks checked blockSize r.fileLength = .ok b) : inBlocks checked r ≠ .panic ↔
      (r.create = .ok () → r.setLen = .ok () → ∀ i < b.2, r.clone i = .ok ()) := by
  rw [inBlocks, Outcome.try_ne_panic_iff]
  refine imp_congr_right fun _ => Outcome.try_ne_panic_iff.trans (imp_congr_right fun _ => ?_)
  rw [hb, Outcome.ok_bind, awaitBlocks_ne_panic_iff]

theorem fetch_ne_panic_iff {b : Nat × Nat} (hb : blocks checked blockSize r.fileLength = .ok b) :
    fetch checked r ≠ .panic ↔ r.url = .ok () ∧
      (r.fileLength = 0 → r.get = .ok () → r.create = .ok () → r.bytes = .ok ()) ∧
      (r.fileLength ≠ 0 → r.create = .ok () → r.setLen = .ok () →
        ∀ i < b.2, r.clone i = .ok ()) := by
  rw [fetch, Outcome.then_ne_panic_iff, Outcome.expect_ne_panic_iff]
  refine and_congr_right fun hurl => ?_
  rw [Outcome.expect_ok_iff, forall_prop_of_true hurl]
  split
  · next hzero =>
    rw [whole_ne_panic_iff, forall_prop_of_true hzero, and_iff_left fun hne => absurd hzero hne]
  · next hne =>
    rw [inBlocks_ne_panic_iff hb, forall_prop_of_true hne,
      and_iff_right fun hzero => absurd hzero hne]

theorem fetch_ok_iff {b : Nat × Nat} (hb : blocks checked blockSize r.fileLength = .ok b)
    (hsafe : fetch checked r ≠ .panic) : fetch checked r = .ok () ↔
      (r.fileLength = 0 → r.get = .ok () ∧ r.create = .ok () ∧ r.copy = .ok ()) ∧
      (r.fileLength ≠ 0 → r.create = .ok () ∧ r.setLen = .ok () ∧
        ∀ i < b.2, ∀ e, r.block i ≠ .lost e) := by
  obtain ⟨hurl, hbytes, hclones⟩ := (fetch_ne_panic_iff hb).mp hsafe
  rw [fetch, Outcome.expect_ok_iff.mpr hurl, Outcome.ok_bind]
  split
  · next hzero =>
    rw [whole_ok_iff, and_iff_left fun hne => absurd hzero hne, forall_prop_of_true hzero]
    exact and_congr_right fun hget => and_congr_right fun hcreate =>
      and_iff_right (hbytes hzero hget hcreate)
  · next hne =>
    rw [inBlocks_ok_iff hb, and_iff_right fun hzero => absurd hzero hne, forall_prop_of_true hne]
    exact and_congr_right fun hcreate => and_congr_right fun hlen =>
      and_iff_right (hclones hne hcreate hlen)

theorem task_ne_panic_iff : task checked path file r ≠ .panic ↔ Safe checked path file r := by
  obtain ⟨b, hb⟩ := exists_cut checked r
  have hcut (P : Nat × Nat → Prop) : (∀ b, blocks checked blockSize r.fileLength = .ok b → P b) ↔
      P b := by
    rw [hb]
    exact ⟨fun h => h b rfl, fun h c hc => Outcome.ok.inj hc ▸ h⟩
  rw [task, Outcome.then_ne_panic_iff, makeDirectory_ne_panic_iff, makeDirectory_ok_iff]
  constructor
  · rintro ⟨hdirectory, hrest⟩
    have hrest := hrest hdirectory
    split at hrest
    · next hgen =>
      exact ⟨hdirectory, fun h => absurd hgen (by rw [h]; decide),
        fun h => absurd hgen (by rw [h]; decide), fun h => absurd hgen (by rw [h]; decide)⟩
    · next hgen =>
      obtain ⟨hurl, hbytes, hclones⟩ := (fetch_ne_panic_iff hb).mp hrest
      refine ⟨hdirectory, fun _ => hurl, fun _ => hbytes, fun _ hne hcreate hlen => ?_⟩
      exact (hcut fun b => ∀ i < b.2, r.clone i = .ok ()).mpr (hclones hne hcreate hlen)
  · intro h
    refine ⟨h.directory, fun _ => ?_⟩
    split
    · exact Outcome.ofExcept_ne_panic r.write
    · next hgen =>
      have hgen := Bool.not_eq_true _ ▸ hgen
      exact (fetch_ne_panic_iff hb).mpr ⟨h.url hgen, h.bytes hgen,
        fun hne hcreate hlen => h.clones hgen hne hcreate hlen b hb⟩

theorem task_ok_iff (h : Safe checked path file r) :
    task checked path file r = .ok () ↔ Finishes checked file r := by
  obtain ⟨b, hb⟩ := exists_cut checked r
  have hsafe := task_ne_panic_iff.mpr h
  rw [task, makeDirectory_ok_iff.mpr h.directory, Outcome.ok_bind] at hsafe ⊢
  cases hgen : file.isGenerated with
  | true =>
    rw [if_pos rfl, Outcome.ofExcept_ok_iff]
    constructor
    · exact fun hwrite => ⟨fun _ => hwrite, fun h => absurd (hgen.symm.trans h) (by decide),
        fun h => absurd (hgen.symm.trans h) (by decide)⟩
    · exact fun h => h.text hgen
  | false =>
    rw [hgen] at hsafe
    rw [if_neg Bool.false_ne_true] at hsafe ⊢
    rw [fetch_ok_iff hb hsafe]
    constructor
    · rintro ⟨hwhole, hblocks⟩
      refine ⟨fun h => absurd (hgen.symm.trans h) (by decide), fun _ => hwhole, fun _ hne => ?_⟩
      obtain ⟨hcreate, hlen, hjoined⟩ := hblocks hne
      refine ⟨hcreate, hlen, fun c hc => ?_⟩
      cases hb.symm.trans hc
      exact hjoined
    · intro h
      refine ⟨h.whole hgen, fun hne => ?_⟩
      obtain ⟨hcreate, hlen, hjoined⟩ := h.blocks hgen hne
      exact ⟨hcreate, hlen, hjoined b hb⟩

theorem copied_cases (sshProxy : Option SshProxyConfig) (parentId : Uuid) (file : File)
    (r : Replies) :
    copied sshProxy parentId file r = .ok [] ∧ (∀ proxy, sshProxy = some proxy →
      Path.hasParent (remotePath proxy parentId file.fileName) = true ∧
        r.spawn = .ok () ∧ r.wait = .ok true) ∨
    (∃ proxy, sshProxy = some proxy ∧
      ¬(Path.hasParent (remotePath proxy parentId file.fileName) = true ∧
        r.spawn = .ok () ∧ r.wait = .ok true)) ∧
      (copied sshProxy parentId file r = .panic ∨
        ∃ c, copied sshProxy parentId file r = .ok [c]) := by
  cases sshProxy with
  | none => exact .inl ⟨rfl, nofun⟩
  | some proxy =>
    rw [copied, copyOver]
    split
    · next hparent =>
      cases hspawn : r.spawn with
      | error e => exact .inr ⟨⟨proxy, rfl, fun h => nomatch h.2.1⟩, .inr ⟨_, rfl⟩⟩
      | ok =>
        cases hwait : r.wait with
        | error e => exact .inr ⟨⟨proxy, rfl, fun h => nomatch h.2.2⟩, .inr ⟨_, rfl⟩⟩
        | ok success =>
          cases success with
          | false => exact .inr ⟨⟨proxy, rfl, fun h => nomatch h.2.2⟩, .inr ⟨_, rfl⟩⟩
          | true =>
            refine .inl ⟨rfl, fun other hother => ?_⟩
            cases hother
            exact ⟨hparent, rfl, rfl⟩
    · next hparent => exact .inr ⟨⟨proxy, rfl, fun h => hparent h.1⟩, .inl rfl⟩

theorem transferred_iff (hfinishes : Finishes checked file r) (hssh : ∀ proxy,
    sshProxy = some proxy → Path.hasParent (remotePath proxy parentId file.fileName) = true ∧
      r.spawn = .ok () ∧ r.wait = .ok true) :
    Transferred checked sshProxy file r ↔ Clean checked sshProxy file r parentId := by
  constructor
  · intro h
    refine ⟨fun hgen hne b hb i hi e he => ?_, hssh⟩
    cases (h.blocks hgen hne b hb i hi).symm.trans he
  · intro h
    refine ⟨hfinishes.text, fun hgen hzero => ?_, fun hgen hne b hb i hi => ?_,
      fun proxy hproxy => (h.ssh proxy hproxy).2⟩
    · obtain ⟨hget, -, hcopy⟩ := hfinishes.whole hgen hzero
      exact ⟨hget, hcopy⟩
    · obtain ⟨-, -, hjoined⟩ := hfinishes.blocks hgen hne
      cases hj : r.block i with
      | lost e => exact absurd hj (hjoined b hb i hi e)
      | returned result =>
        cases result with
        | ok => rfl
        | error e => exact absurd hj (h.blocks hgen hne b hb i hi e)

theorem reported_iff (checked : Bool) (saveDir : String) (sshProxy : Option SshProxyConfig)
    (command : FileTransferCommand) (r : Replies) (hstart : command.status = .start) :
    Reported (∃ file, command.taskFile = some file ∧ Transferred checked sshProxy file r)
        (calls checked saveDir sshProxy command r) ↔
      ∃ file, command.taskFile = some file ∧
        Regular checked (filePath saveDir command.parentId file.fileName) sshProxy file r
          command.parentId := by
  rw [calls, if_pos hstart]
  cases command.taskFile with
  | none => exact ⟨fun h => absurd h not_reported_nil, fun ⟨_, h, _⟩ => nomatch h⟩
  | some file =>
    dsimp only
    rw [exists_file, exists_file]
    generalize filePath saveDir command.parentId file.fileName = path
    have hsafe : task checked path file r ≠ .panic ↔ Safe checked path file r := task_ne_panic_iff
    have hfinishes (h : Safe checked path file r) :
        task checked path file r = .ok () ↔ Finishes checked file r := task_ok_iff h
    cases htask : task checked path file r with
    | panic =>
      exact ⟨fun h => absurd h not_reported_nil, fun h => absurd htask (hsafe.mpr h.safe)⟩
    | err e =>
      have hsafe := hsafe.mp (by rw [htask]; exact Outcome.err_ne_panic e)
      refine iff_of_true (reported_singleton.mpr nofun) ⟨hsafe, fun h => ?_⟩
      cases htask.symm.trans ((hfinishes hsafe).mpr h)
    | ok =>
      have hsafe := hsafe.mp (by rw [htask]; exact Outcome.ok_ne_panic ())
      have hfinishes := (hfinishes hsafe).mp htask
      dsimp only
      obtain ⟨hcopied, hssh⟩ | ⟨⟨proxy, hproxy, hnot⟩, hcopied⟩ :=
        copied_cases sshProxy command.parentId file r
      · rw [hcopied]
        refine reported_singleton.trans ⟨fun h => ⟨hsafe, fun _ => ?_⟩, fun h _ => ?_⟩
        · exact (transferred_iff hfinishes hssh).mp (h rfl)
        · exact (transferred_iff hfinishes hssh).mpr (h.clean hfinishes)
      · refine iff_of_false ?_ fun h => hnot ((h.clean hfinishes).ssh proxy hproxy)
        obtain hcopied | ⟨c, hcopied⟩ := hcopied
        · rw [hcopied]
          exact not_reported_nil
        · rw [hcopied]
          rintro ⟨⟨d, hd⟩, -⟩
          cases hd

end Running

end Download

namespace Upload

def blockSize : Nat := 1024 * 512

structure Replies where
  spawn : Except String Unit
  wait : Except String Bool
  opened : Except String Unit
  hash : Except String String
  metadata : Except String UInt64
  url : Except String Unit
  post : Except String Unit
  json : Except String (Option PreparePartialUploadResponse)
  clone : Nat → Except String Unit
  block : Nat → Joined

-- The exit status of `scp` is dropped.
def copied (sshProxy : Option SshProxyConfig) (r : Replies) : Outcome String Unit :=
  match sshProxy with
  | some _ => do
    .ofExcept r.spawn
    let _ ← .ofExcept r.wait
    .ok ()
  | none => .ok ()

-- What follows once the file has been cut.
def send (r : Replies) (b : Nat × Nat) : Outcome String Unit := do
  .expect r.url
  .ofExcept r.post
  let content ← .ofExcept r.json
  let response ← .okOr "Upload url is null." content
  if response.result ≠ .flashUpload then awaitBlocks r.clone r.block b.2 else .ok ()

def post (checked : Bool) (r : Replies) : Outcome String Unit := do
  let _ ← .ofExcept r.hash
  let length ← .ofExcept r.metadata
  let b ← blocks checked blockSize length.toNat
  send r b

def task (checked : Bool) (sshProxy : Option SshProxyConfig) (file : File) (r : Replies) :
    Outcome String Unit := do
  copied sshProxy r
  match r.opened with
  | .ok () => post checked r
  | .error e => if file.isOptional then .ok () else .err e

def calls (checked : Bool) (sshProxy : Option SshProxyConfig) (command : FileTransferCommand)
    (r : Replies) : List Call :=
  if command.status = .start then
    match command.taskFile with
    | none => []
    | some file =>
      match task checked sshProxy file r with
      | .ok () => [.completeJob command.id]
      | .err e => [.failJob file.relatedTaskBody
          ("Cannot upload File " ++ toString file.id ++ " to Node " ++ toString command.parentId ++
            " when uploading block, because of " ++ e)]
      | .panic => []
  else []

section Conditions

variable (checked : Bool) (sshProxy : Option SshProxyConfig) (file : File) (r : Replies)

-- The answers up to the blocks: what the file is cut into, when it is not there already.
structure Reaches (b : Nat × Nat) : Prop where
  hash : ∃ hash, r.hash = .ok hash
  length : ∃ length, r.metadata = .ok length ∧ blocks checked blockSize length.toNat = .ok b

structure Copies : Prop where
  spawn : sshProxy ≠ none → r.spawn = .ok ()
  wait : sshProxy ≠ none → ∃ success, r.wait = .ok success

structure Safe : Prop where
  url : Copies sshProxy r → r.opened = .ok () → ∀ b, Reaches checked r b → r.url = .ok ()
  clones : Copies sshProxy r → r.opened = .ok () → ∀ b, Reaches checked r b → r.post = .ok () →
    ∀ response, r.json = .ok (some response) → response.result ≠ .flashUpload →
      ∀ i < b.2, r.clone i = .ok ()

structure Finishes : Prop where
  copies : Copies sshProxy r
  optional : ∀ e, r.opened = .error e → file.isOptional = true
  reaches : r.opened = .ok () → ∃ b, Reaches checked r b ∧ r.post = .ok () ∧
    ∃ response, r.json = .ok (some response) ∧
      (response.result ≠ .flashUpload → ∀ i < b.2, ∀ e, r.block i ≠ .lost e)

structure Transferred : Prop where
  blocks : r.opened = .ok () → ∀ b, Reaches checked r b →
    ∀ response, r.json = .ok (some response) → response.result ≠ .flashUpload →
      ∀ i < b.2, r.block i = .returned (.ok ())
  ssh : sshProxy ≠ none → r.wait = .ok true

structure Clean : Prop where
  blocks : r.opened = .ok () → ∀ b, Reaches checked r b →
    ∀ response, r.json = .ok (some response) → response.result ≠ .flashUpload →
      ∀ i < b.2, ∀ e, r.block i ≠ .returned (.error e)
  ssh : sshProxy ≠ none → r.wait = .ok true

structure Regular : Prop where
  safe : Safe checked sshProxy r
  clean : Finishes checked sshProxy file r → Clean checked sshProxy r

end Conditions

section Running

variable {checked : Bool} {sshProxy : Option SshProxyConfig} {file : File} {r : Replies}

theorem Reaches.unique {b c : Nat × Nat} (hb : Reaches checked r b) (hc : Reaches checked r c) :
    b = c := by
  obtain ⟨length, hlength, hcut⟩ := hb.length
  obtain ⟨length', hlength', hcut'⟩ := hc.length
  cases hlength.symm.trans hlength'
  exact Outcome.ok.inj (hcut.symm.trans hcut')

theorem copied_ok_iff : copied sshProxy r = .ok () ↔ Copies sshProxy r := by
  cases sshProxy with
  | none => exact ⟨fun _ => ⟨fun h => absurd rfl h, fun h => absurd rfl h⟩, fun _ => rfl⟩
  | some proxy =>
    rw [copied, Outcome.then_ok_iff, Outcome.ofExcept_ok_iff]
    constructor
    · rintro ⟨hspawn, hwait⟩
      obtain ⟨success, hsuccess, -⟩ := Outcome.bind_ok_iff.mp hwait
      exact ⟨fun _ => hspawn, fun _ => ⟨success, Outcome.ofExcept_ok_iff.mp hsuccess⟩⟩
    · intro h
      obtain ⟨success, hsuccess⟩ := h.wait nofun
      refine ⟨h.spawn nofun, ?_⟩
      rw [Outcome.ofExcept_ok_iff.mpr hsuccess, Outcome.ok_bind]

theorem copied_ne_panic (sshProxy : Option SshProxyConfig) (r : Replies) :
    copied sshProxy r ≠ .panic := by
  cases sshProxy with
  | none => exact Outcome.ok_ne_panic ()
  | some proxy =>
    refine Outcome.bind_ne_panic (Outcome.ofExcept_ne_panic r.spawn) fun _ => ?_
    exact Outcome.bind_ne_panic (Outcome.ofExcept_ne_panic r.wait) fun _ => Outcome.ok_ne_panic ()

theorem post_of_reaches {b : Nat × Nat} (h : Reaches checked r b) : post checked r = send r b := by
  obtain ⟨hash, hhash⟩ := h.hash
  obtain ⟨length, hlength, hcut⟩ := h.length
  rw [post, Outcome.ofExcept_ok_iff.mpr hhash, Outcome.ok_bind,
    Outcome.ofExcept_ok_iff.mpr hlength, Outcome.ok_bind, hcut, Outcome.ok_bind]

theorem post_of_not_reaches (h : ∀ b, ¬Reaches checked r b) : ∃ e, post checked r = .err e := by
  cases hhash : r.hash with
  | error e => exact ⟨e, by rw [post, hhash]; rfl⟩
  | ok hash =>
    cases hlength : r.metadata with
    | error e => exact ⟨e, by rw [post, hhash, hlength]; rfl⟩
    | ok length =>
      obtain ⟨b, hb⟩ := exists_blocks checked (by decide : 0 < blockSize) (UInt64.toNat_lt length)
      exact absurd ⟨⟨hash, hhash⟩, length, hlength, hb⟩ (h b)

theorem content_cases (r : Replies) : (∃ response, r.json = .ok (some response)) ∨
    ∃ e, ∀ f : PreparePartialUploadResponse → Outcome String Unit,
      (Outcome.ofExcept r.json >>= fun content =>
        Outcome.okOr "Upload url is null." content >>= f) = .err e := by
  cases r.json with
  | error e => exact .inr ⟨e, fun _ => rfl⟩
  | ok content =>
    cases content with
    | none => exact .inr ⟨_, fun _ => rfl⟩
    | some response => exact .inl ⟨response, rfl⟩

theorem send_ne_panic_iff {b : Nat × Nat} : send r b ≠ .panic ↔ r.url = .ok () ∧
    (r.post = .ok () → ∀ response, r.json = .ok (some response) →
      response.result ≠ .flashUpload → ∀ i < b.2, r.clone i = .ok ()) := by
  rw [send, Outcome.then_ne_panic_iff, Outcome.expect_ne_panic_iff]
  refine and_congr_right fun hurl => ?_
  rw [Outcome.expect_ok_iff, forall_prop_of_true hurl, Outcome.try_ne_panic_iff]
  refine imp_congr_right fun _ => ?_
  obtain ⟨response, hresponse⟩ | ⟨e, he⟩ := content_cases r
  · rw [hresponse]
    simp only [Outcome.ofExcept, Outcome.okOr, Outcome.ok_bind, Except.ok.injEq, Option.some.injEq,
      forall_eq']
    split
    · next hne => rw [awaitBlocks_ne_panic_iff, forall_prop_of_true hne]
    · next heq => exact iff_of_true (Outcome.ok_ne_panic ()) fun hne => absurd hne heq
  · rw [he]
    refine iff_of_true (Outcome.err_ne_panic e) fun response hresponse => ?_
    have hbad := he fun _ => .ok ()
    rw [hresponse] at hbad
    cases hbad

theorem send_ok_iff {b : Nat × Nat} (hsafe : send r b ≠ .panic) : send r b = .ok () ↔
    r.post = .ok () ∧ ∃ response, r.json = .ok (some response) ∧
      (response.result ≠ .flashUpload → ∀ i < b.2, ∀ e, r.block i ≠ .lost e) := by
  obtain ⟨hurl, hclones⟩ := send_ne_panic_iff.mp hsafe
  rw [send, Outcome.expect_ok_iff.mpr hurl, Outcome.ok_bind, Outcome.then_ok_iff,
    Outcome.ofExcept_ok_iff]
  refine and_congr_right fun hpost => ?_
  obtain ⟨response, hresponse⟩ | ⟨e, he⟩ := content_cases r
  · have hclones := hclones hpost response hresponse
    rw [hresponse]
    simp only [Outcome.ofExcept, Outcome.okOr, Outcome.ok_bind, Except.ok.injEq, Option.some.injEq,
      exists_eq_left']
    split
    · next hne =>
      rw [awaitBlocks_ok_iff, forall_prop_of_true hne]
      exact and_iff_right (hclones hne)
    · next heq => exact iff_of_true rfl fun hne => absurd hne heq
  · rw [he]
    refine iff_of_false (fun h => by cases h) ?_
    rintro ⟨response, hresponse, -⟩
    have hbad := he fun _ => .ok ()
    rw [hresponse] at hbad
    cases hbad

theorem post_ne_panic_iff : post checked r ≠ .panic ↔
    ∀ b, Reaches checked r b → send r b ≠ .panic := by
  by_cases hreaches : ∃ b, Reaches checked r b
  · obtain ⟨b, hb⟩ := hreaches
    rw [post_of_reaches hb]
    exact ⟨fun h c hc => hb.unique hc ▸ h, fun h => h b hb⟩
  · have hnot : ∀ b, ¬Reaches checked r b := fun b hb => hreaches ⟨b, hb⟩
    obtain ⟨e, he⟩ := post_of_not_reaches hnot
    rw [he]
    exact iff_of_true (Outcome.err_ne_panic e) fun b hb => absurd hb (hnot b)

theorem post_ok_iff : post checked r = .ok () ↔
    ∃ b, Reaches checked r b ∧ send r b = .ok () := by
  by_cases hreaches : ∃ b, Reaches checked r b
  · obtain ⟨b, hb⟩ := hreaches
    rw [post_of_reaches hb]
    exact ⟨fun h => ⟨b, hb, h⟩, fun ⟨c, hc, h⟩ => hb.unique hc ▸ h⟩
  · have hnot : ∀ b, ¬Reaches checked r b := fun b hb => hreaches ⟨b, hb⟩
    obtain ⟨e, he⟩ := post_of_not_reaches hnot
    rw [he]
    exact iff_of_false nofun fun ⟨b, hb, _⟩ => hnot b hb

theorem task_ne_panic_iff : task checked sshProxy file r ≠ .panic ↔ Safe checked sshProxy r := by
  rw [task, Outcome.then_ne_panic_iff, and_iff_right (copied_ne_panic sshProxy r), copied_ok_iff]
  cases hopened : r.opened with
  | error e =>
    refine iff_of_true (fun _ => ?_) ⟨fun _ h => ?_, fun _ h => ?_⟩
    · dsimp only
      split
      · exact Outcome.ok_ne_panic ()
      · exact Outcome.err_ne_panic e
    · cases hopened.symm.trans h
    · cases hopened.symm.trans h
  | ok =>
    dsimp only
    rw [post_ne_panic_iff]
    constructor
    · intro h
      exact ⟨fun hcopies _ b hb => (send_ne_panic_iff.mp (h hcopies b hb)).1,
        fun hcopies _ b hb => (send_ne_panic_iff.mp (h hcopies b hb)).2⟩
    · exact fun h hcopies b hb => send_ne_panic_iff.mpr
        ⟨h.url hcopies hopened b hb, h.clones hcopies hopened b hb⟩

theorem task_ok_iff (h : Safe checked sshProxy r) :
    task checked sshProxy file r = .ok () ↔ Finishes checked sshProxy file r := by
  rw [task, Outcome.then_ok_iff, copied_ok_iff]
  cases hopened : r.opened with
  | error e =>
    dsimp only
    constructor
    · rintro ⟨hcopies, hrest⟩
      refine ⟨hcopies, fun _ _ => ?_, fun h => nomatch hopened.symm.trans h⟩
      split at hrest
      · next hoptional => exact hoptional
      · cases hrest
    · intro h
      exact ⟨h.copies, if_pos (h.optional e hopened)⟩
  | ok =>
    dsimp only
    rw [post_ok_iff]
    constructor
    · rintro ⟨hcopies, b, hb, hsend⟩
      refine ⟨hcopies, fun e he => (nomatch hopened.symm.trans he), fun _ => ⟨b, hb, ?_⟩⟩
      exact (send_ok_iff (by rw [hsend]; exact Outcome.ok_ne_panic ())).mp hsend
    · intro hfin
      obtain ⟨b, hb, hsend⟩ := hfin.reaches hopened
      have hsafe := send_ne_panic_iff.mpr ⟨h.url hfin.copies hopened b hb,
        h.clones hfin.copies hopened b hb⟩
      exact ⟨hfin.copies, b, hb, (send_ok_iff hsafe).mpr hsend⟩

theorem transferred_iff (hfinishes : Finishes checked sshProxy file r) :
    Transferred checked sshProxy r ↔ Clean checked sshProxy r := by
  constructor
  · intro h
    refine ⟨fun hopened b hb response hresponse hne i hi e he => ?_, h.ssh⟩
    cases (h.blocks hopened b hb response hresponse hne i hi).symm.trans he
  · intro h
    refine ⟨fun hopened b hb response hresponse hne i hi => ?_, h.ssh⟩
    obtain ⟨c, hc, -, response', hresponse', hjoined⟩ := hfinishes.reaches hopened
    cases hb.unique hc
    cases hresponse.symm.trans hresponse'
    cases hj : r.block i with
    | lost e => exact absurd hj (hjoined hne i hi e)
    | returned result =>
      cases result with
      | ok => rfl
      | error e => exact absurd hj (h.blocks hopened b hb response hresponse hne i hi e)

theorem reported_iff (checked : Bool) (sshProxy : Option SshProxyConfig)
    (command : FileTransferCommand) (r : Replies) (hstart : command.status = .start) :
    Reported (Transferred checked sshProxy r) (calls checked sshProxy command r) ↔
      ∃ file, command.taskFile = some file ∧ Regular checked sshProxy file r := by
  rw [calls, if_pos hstart]
  cases command.taskFile with
  | none => exact ⟨fun h => absurd h not_reported_nil, fun ⟨_, h, _⟩ => nomatch h⟩
  | some file =>
    dsimp only
    rw [exists_file]
    have hsafe : task checked sshProxy file r ≠ .panic ↔ Safe checked sshProxy r :=
      task_ne_panic_iff
    have hfinishes (h : Safe checked sshProxy r) :
        task checked sshProxy file r = .ok () ↔ Finishes checked sshProxy file r := task_ok_iff h
    cases htask : task checked sshProxy file r with
    | panic =>
      exact ⟨fun h => absurd h not_reported_nil, fun h => absurd htask (hsafe.mpr h.safe)⟩
    | err e =>
      have hsafe := hsafe.mp (by rw [htask]; exact Outcome.err_ne_panic e)
      refine iff_of_true (reported_singleton.mpr nofun) ⟨hsafe, fun h => ?_⟩
      cases htask.symm.trans ((hfinishes hsafe).mpr h)
    | ok =>
      have hsafe := hsafe.mp (by rw [htask]; exact Outcome.ok_ne_panic ())
      have hfinishes := (hfinishes hsafe).mp htask
      refine reported_singleton.trans ⟨fun h => ⟨hsafe, fun _ => ?_⟩, fun h _ => ?_⟩
      · exact (transferred_iff hfinishes).mp (h rfl)
      · exact (transferred_iff hfinishes).mpr (h.clean hfinishes)

end Running

end Upload

theorem commands_reported_iff (checked : Bool) (saveDir : String)
    (sshProxy : Option SshProxyConfig) (command : FileTransferCommand)
    (hstart : command.status = .start) (d : Download.Replies) (u : Upload.Replies) :
    (Reported (∃ file, command.taskFile = some file ∧
        Download.Transferred checked sshProxy file d)
          (Download.calls checked saveDir sshProxy command d) ↔
      ∃ file, command.taskFile = some file ∧
        Download.Regular checked (filePath saveDir command.parentId file.fileName) sshProxy file d
          command.parentId) ∧
    (Reported (Upload.Transferred checked sshProxy u)
        (Upload.calls checked sshProxy command u) ↔
      ∃ file, command.taskFile = some file ∧ Upload.Regular checked sshProxy file u) :=
  ⟨Download.reported_iff checked saveDir sshProxy command d hstart,
    Upload.reported_iff checked sshProxy command u hstart⟩

def resultFile : File :=
  { id := 1
    metadataId := 2
    fileName := "result"
    relatedTaskBody := 3
    fileType := .IN
    status := .downloading
    isOptional := false
    isPackaged := false
    text := ""
    isGenerated := false }

def startFile : FileTransferCommand := ⟨1, 4, .start, some resultFile⟩

def proxyHost : SshProxyConfig := ⟨"node", "user", 22, "/home/user", "tasks"⟩

def downloadReplies : Download.Replies where
  exist := false
  createDirAll := .ok ()
  write := .ok ()
  url := .ok ()
  contentLength := some 2
  get := .ok ()
  create := .ok ()
  bytes := .ok ()
  copy := .ok ()
  setLen := .ok ()
  clone := fun _ => .ok ()
  block := fun _ => .returned (.ok ())
  spawn := .ok ()
  wait := .ok true

def uploadReplies : Upload.Replies where
  spawn := .ok ()
  wait := .ok true
  opened := .ok ()
  hash := .ok "00"
  metadata := .ok 2
  url := .ok ()
  post := .ok ()
  json := .ok (some ⟨.normal, 2⟩)
  clone := fun _ => .ok ()
  block := fun _ => .returned (.ok ())

def timedOut : Joined := .returned (.error "timeout")

theorem startFile_reported :
    Reported (∃ file, startFile.taskFile = some file ∧
        Download.Transferred true (some proxyHost) file downloadReplies)
      (Download.calls true "/work" (some proxyHost) startFile downloadReplies) ∧
    Reported (Upload.Transferred true (some proxyHost) uploadReplies)
      (Upload.calls true (some proxyHost) startFile uploadReplies) := by
  obtain ⟨hdownload, hupload⟩ := commands_reported_iff true "/work" (some proxyHost) startFile rfl
    downloadReplies uploadReplies
  refine ⟨hdownload.mpr ⟨resultFile, rfl, ?_, fun _ => ?_⟩,
    hupload.mpr ⟨resultFile, rfl, ?_, fun _ => ?_⟩⟩
  · exact ⟨.inr ⟨by decide +kernel, rfl⟩, fun _ => rfl, fun _ _ _ _ => rfl,
      fun _ _ _ _ _ _ _ _ => rfl⟩
  · refine ⟨fun _ _ _ _ _ _ _ => nofun, fun proxy hproxy => ?_⟩
    cases hproxy
    exact ⟨by decide +kernel, rfl, rfl⟩
  · exact ⟨fun _ _ _ _ => rfl, fun _ _ _ _ _ _ _ _ _ _ => rfl⟩
  · exact ⟨fun _ _ _ _ _ _ _ _ => nofun, fun _ => rfl⟩

-- A block of a download that fails, a copy that fails, and a block of an upload that fails.
theorem startFile_misreported :
    ¬Reported (∃ file, startFile.taskFile = some file ∧
        Download.Transferred true none file { downloadReplies with block := fun _ => timedOut })
      (Download.calls true "/work" none startFile
        { downloadReplies with block := fun _ => timedOut }) ∧
    ¬Reported (∃ file, startFile.taskFile = some file ∧
        Download.Transferred true (some proxyHost) file { downloadReplies with wait := .ok false })
      (Download.calls true "/work" (some proxyHost) startFile
        { downloadReplies with wait := .ok false }) ∧
    ¬Reported (Upload.Transferred true none { uploadReplies with block := fun _ => timedOut })
      (Upload.calls true none startFile { uploadReplies with block := fun _ => timedOut }) := by
  refine ⟨fun h => ?_, fun h => ?_, fun h => ?_⟩
  · have hcalls : Download.calls true "/work" none startFile
        { downloadReplies with block := fun _ => timedOut } = [.runJob 1] := by decide +kernel
    rw [hcalls] at h
    obtain ⟨file, hfile, htransferred⟩ := h.success _ List.mem_cons_self rfl
    cases hfile
    exact nomatch htransferred.blocks rfl (by decide) (2, 1) (by decide +kernel) 0 Nat.one_pos
  · obtain ⟨c, hc⟩ := h.once
    have hcalls : (Download.calls true "/work" (some proxyHost) startFile
        { downloadReplies with wait := .ok false }).length = 2 := by decide +kernel
    rw [hc] at hcalls
    cases hcalls
  · have hcalls : Upload.calls true none startFile
        { uploadReplies with block := fun _ => timedOut } = [.completeJob 1] := by decide +kernel
    rw [hcalls] at h
    have htransferred := h.success _ List.mem_cons_self rfl
    have hreaches : Upload.Reaches true { uploadReplies with block := fun _ => timedOut } (2, 1) :=
      ⟨⟨"00", rfl⟩, 2, rfl, by decide +kernel⟩
    exact nomatch htransferred.blocks rfl (2, 1) hreaches ⟨.normal, 2⟩ rfl nofun 0 Nat.one_pos

end Transfer

end Kuintessence
