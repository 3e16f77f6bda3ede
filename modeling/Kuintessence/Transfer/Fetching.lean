import Kuintessence.Storage.Ranges
import Kuintessence.Transfer.Cursor

namespace Kuintessence.Fetching

open Ranges (HttpResponse getRangelyDownloadFile)
open Transfer (Bytes Job Shared created range slice span writeAt)

-- A block's task between its spawn and its end; `moved` of the body's bytes are in the file.
inductive Phase where
  | fetching (attempt : Nat)
  | received (body : Bytes)
  | writing (body : Bytes) (moved : Nat)
  | returned (written : Nat)
  deriving DecidableEq, Repr

namespace Phase

def written : Phase → Nat
  | .fetching _ => 0
  | .received _ => 0
  | .writing _ moved => moved
  | .returned written => written

def isReturned : Phase → Bool
  | .returned _ => true
  | _ => false

def isWriting : Phase → Bool
  | .writing _ _ => true
  | _ => false

-- `write_all_buf` goes on until nothing is left.
def rest (body : Bytes) (moved : Nat) : Phase :=
  if moved = body.length then .returned moved else .writing body moved

-- The fourth attempt is the last one.
def lost (attempt : Nat) : Phase := if attempt = 4 then .returned 0 else .fetching (attempt + 1)

end Phase

-- The file, the cursor that all its clones share, and the tasks of the blocks.
structure Disk where
  cursor : Nat
  file : Bytes
  tasks : List Phase
  deriving DecidableEq, Repr

-- `call`: what the service has asked its store so far.
inductive Event where
  | spawn
  | reply (block call : Nat)
  | lose (block : Nat)
  | seek (block : Nat)
  | write (block bytes : Nat)
  | stop (block : Nat)
  deriving DecidableEq, Repr

def header (start stop : Nat) : List Char :=
  "bytes=".toList ++ (Nat.toDigits 10 start ++ '-' :: Nat.toDigits 10 stop)

-- The body goes into the file whatever its status is; a handler that panics sends none.
def body : Outcome String HttpResponse → Option Bytes
  | .ok response => some response.chunks.flatten
  | _ => none

-- The `Content-Length`, which an answer with the status 500 does not have.
def contentLength : Option Uuid → Ranges.Act (Option UInt64)
  | none => pure none
  | some id => do
    match ← Effect.attempt (Ranges.StorageServerDownloadDispatcherService.getFileSize id) with
    | .ok size => pure (some size)
    | .error _ => pure none

def headRangelyDownloadFile (id : String) : Ranges.Act (Option UInt64) := do
  let env ← Effect.read
  contentLength (env.uuid.parse id)

structure Download where
  server : Ranges.Env
  metaId : Uuid
  checked : Bool
  maxBlockLength : Nat

inductive Stage where
  | asking
  | whole
  | blocks (job : Job) (disk : Disk)
  | completed (file : Bytes)
  | failed

inductive Step where
  | size (call : Nat)
  | unsized
  | body (call : Nat)
  | task (e : Event)
  | join
  | abort
  deriving DecidableEq, Repr

namespace Download

variable (a : Download)

def get (header : Option (List Char)) (call : Nat) : Option Bytes :=
  body (getRangelyDownloadFile (a.server.uuid.text a.metaId) (header.map .ok) a.server call).1

def head (call : Nat) : Option UInt64 :=
  ((headRangelyDownloadFile (a.server.uuid.text a.metaId) a.server call).1.toOption).join

def begin (job : Job) (block : Nat) : Phase :=
  match range job.checked job.blockCount job.blockLength job.fileLength block with
  | .ok _ => .fetching 1
  | _ => .returned 0

def fetched (job : Job) (block call : Nat) : Option Bytes :=
  match range job.checked job.blockCount job.blockLength job.fileLength block with
  | .ok (start, stop) => a.get (some (header start stop)) call
  | _ => none

def positioned (d : Disk) (block : Nat) (body : Bytes) : Outcome String Nat → Disk
  | .ok position => { d with cursor := position, tasks := d.tasks.set block (.rest body 0) }
  | _ => { d with tasks := d.tasks.set block (.returned 0) }

def advance (job : Job) (d : Disk) : Event → Disk
  | .spawn =>
    if d.tasks.length < job.blockCount ∧ d.tasks.countP (fun t => !t.isReturned) < 16 then
      { d with tasks := d.tasks ++ [begin job d.tasks.length] }
    else d
  | .reply block call =>
    match d.tasks[block]? with
    | some (.fetching attempt) =>
      match a.fetched job block call with
      | some body => { d with tasks := d.tasks.set block (.received body) }
      | none => { d with tasks := d.tasks.set block (.lost attempt) }
    | _ => d
  | .lose block =>
    match d.tasks[block]? with
    | some (.fetching attempt) => { d with tasks := d.tasks.set block (.lost attempt) }
    | _ => d
  | .seek block =>
    match d.tasks[block]? with
    | some (.received body) => positioned d block body (job.start block)
    | _ => d
  | .write block bytes =>
    match d.tasks[block]? with
    | some (.writing body moved) =>
      if 0 < bytes ∧ moved + bytes ≤ body.length then
        { cursor := d.cursor + bytes
          file := writeAt d.cursor ((body.drop moved).take bytes) d.file
          tasks := d.tasks.set block (.rest body (moved + bytes)) }
      else d
    | _ => d
  | .stop block =>
    match d.tasks[block]? with
    | some phase => { d with tasks := d.tasks.set block (.returned phase.written) }
    | none => d

-- The file that is created, with its length set.
def opened (fileLength : UInt64) : Stage :=
  if fileLength = 0 then .whole
  else
    match h : Transfer.blocks a.checked a.maxBlockLength fileLength.toNat with
    | .ok (blockLength, blockCount) =>
      .blocks ⟨.download, a.checked, a.maxBlockLength, fileLength.toNat, blockLength, blockCount,
        fileLength.toNat_lt, h⟩ ⟨0, created fileLength.toNat, []⟩
    | _ => .failed

-- What a task returns is not looked at; the runner only waits for all of them.
def step : Stage → Step → Stage
  | .asking, .size call => a.opened ((a.head call).getD 0)
  | .asking, .unsized => .whole
  | .whole, .body call =>
    match a.get none call with
    | some body => .completed body
    | none => .failed
  | .blocks job d, .task e => .blocks job (a.advance job d e)
  | .blocks job d, .join =>
    if d.tasks.length = job.blockCount ∧ d.tasks.all Phase.isReturned then .completed d.file
    else .blocks job d
  | .asking, .abort => .failed
  | .whole, .abort => .failed
  | .blocks _ _, .abort => .failed
  | s, _ => s

end Download

def Stage.tasks : Stage → List Phase
  | .blocks _ d => d.tasks
  | _ => []

def Stage.file : Stage → Option Bytes
  | .completed file => some file
  | _ => none

def Step.isSeek : Step → Bool
  | .task (.seek _) => true
  | _ => false

-- No task seeks while another one is between its seek and its last byte.
def Alone (s : Stage) (q : Step) : Prop :=
  q.isSeek = true → ∀ t ∈ s.tasks, t.isWriting = false

instance (s : Stage) (q : Step) : Decidable (Alone s q) :=
  inferInstanceAs (Decidable (_ = true → ∀ t ∈ s.tasks, t.isWriting = false))

-- Of each block the first bytes are there, and zeros behind them.
structure Patched (source : Bytes) (blockLength : Nat) (written : Nat → Nat) (file : Bytes) :
    Prop where
  length : file.length = source.length
  byte : ∀ position < source.length, file[position]? =
    if position % blockLength < written (position / blockLength) then source[position]? else some 0

section Answers

variable {a : Download} {source : Bytes} {start stop call : Nat}

open Ranges (download_eq newRanges_rangeHeader panicless_getBytes panicless_getFileSize
  panicless_rangelyGetFile partialContent rangelyGetFile_ok_iff served_of_le)

theorem header_eq (hstart : start < 2 ^ 64) (hstop : stop < 2 ^ 64) : header start stop =
    Ranges.MinioServerBrokerService.rangeHeader ⟨.ofNat start, .ofNat stop⟩ := by
  rw [Ranges.MinioServerBrokerService.rangeHeader, Ranges.Range.text,
    UInt64.toNat_ofNat_of_lt' hstart, UInt64.toNat_ofNat_of_lt' hstop, header]

theorem partialContent_body {checked : Bool} (id : String) {size : UInt64} {range : Ranges.Range}
    {bytes content : Bytes} (h : body (partialContent checked id size [(range, bytes)]) = some content) :
    content = bytes := by
  have hrun : partialContent checked id size [(range, bytes)] =
      (u64 checked ((range.stop.toNat : Int) - range.start.toNat) >>= fun span =>
        u64 checked ((span + 1 : Nat) : Int) >>= fun contentSize =>
          .ok (.single ⟨range, size, bytes⟩ contentSize)) := rfl
  rw [hrun] at h
  cases hspan : (u64 checked ((range.stop.toNat : Int) - range.start.toNat) : Outcome String Nat) with
  | ok span =>
    rw [hspan, Outcome.ok_bind] at h
    cases hsize : (u64 checked ((span + 1 : Nat) : Int) : Outcome String Nat) with
    | ok contentSize =>
      rw [hsize, Outcome.ok_bind] at h
      have hbytes : content = [bytes].flatten := (Option.some.inj h).symm
      rw [hbytes, List.flatten_singleton]
    | err e =>
      rw [hsize] at h
      cases h
    | panic =>
      rw [hsize] at h
      cases h
  | err e =>
    rw [hspan] at h
    cases h
  | panic =>
    rw [hspan] at h
    cases h

-- An answer with the status 500 has an empty body.
theorem body_error : body (.ok Ranges.internalServerError) = some [] := by decide

theorem answerSized_body {metaId : Uuid} {env : Ranges.Env} {range : Ranges.Range} {bytes content : Bytes}
    (h : body (Ranges.answerSized metaId [range] [bytes] env call).1 = some content) :
    content = [] ∨ content = bytes := by
  obtain ⟨size, m, -, hattempt⟩ | ⟨-, e, m, hattempt⟩ :=
    (panicless_getFileSize metaId).attempt_cases env call
  · have hrun : Ranges.answerSized metaId [range] [bytes] env call =
        (partialContent env.checked (env.uuid.text metaId) size [(range, bytes)], m) :=
      Effect.bind_of_ok hattempt _
    rw [hrun] at h
    exact .inr (partialContent_body (env.uuid.text metaId) h)
  · have hrun : Ranges.answerSized metaId [range] [bytes] env call =
        (.ok Ranges.internalServerError, m) := Effect.bind_of_ok hattempt _
    rw [hrun, body_error] at h
    exact .inl (Option.some.inj h).symm

theorem answerRanges_body {metaId : Uuid} {env : Ranges.Env} (h : Ranges.Stores env metaId source)
    {range : Ranges.Range} {content : Bytes}
    (hbody : body (Ranges.answerRanges metaId [range] env call).1 = some content) :
    content = [] ∨ content = Ranges.served source range := by
  obtain ⟨results, m, hresults, hattempt⟩ | ⟨-, e, m, hattempt⟩ :=
    (panicless_rangelyGetFile metaId [range]).attempt_cases env call
  · obtain ⟨-, -, -, rfl, -⟩ := (rangelyGetFile_ok_iff h).mp hresults
    have hrun : Ranges.answerRanges metaId [range] env call =
        Ranges.answerSized metaId [range] [Ranges.served source range] env m :=
      Effect.bind_of_ok hattempt _
    rw [hrun] at hbody
    exact answerSized_body hbody
  · have hrun : Ranges.answerRanges metaId [range] env call = (.ok Ranges.internalServerError, m) :=
      Effect.bind_of_ok hattempt _
    rw [hrun, body_error] at hbody
    exact .inl (Option.some.inj hbody).symm

theorem get_range (h : Ranges.Stores a.server a.metaId source) (hle : start ≤ stop)
    (hstop : stop < source.length) (hfits : source.length < 2 ^ 64) {content : Bytes}
    (hget : a.get (some (header start stop)) call = some content) :
    content = [] ∨ content = slice source start stop := by
  have hstart : (UInt64.ofNat start).toNat = start :=
    UInt64.toNat_ofNat_of_lt' (Nat.lt_trans (Nat.lt_of_le_of_lt hle hstop) hfits)
  have hstop' : (UInt64.ofNat stop).toNat = stop :=
    UInt64.toNat_ofNat_of_lt' (Nat.lt_trans hstop hfits)
  have hordered : UInt64.ofNat start ≤ UInt64.ofNat stop := by
    rwa [UInt64.le_iff_toNat_le, hstart, hstop']
  rw [Download.get, header_eq (by omega) (by omega), Option.map_some, download_eq,
    a.server.uuid.parse_text, Ranges.answer, newRanges_rangeHeader, Ranges.answerParsed] at hget
  have hcases := answerRanges_body h hget
  rw [served_of_le hordered, hstart, hstop'] at hcases
  exact hcases

theorem get_whole (h : Ranges.Stores a.server a.metaId source) {content : Bytes}
    (hget : a.get none call = some content) : content = [] ∨ content = source := by
  rw [Download.get, Option.map_none, download_eq, a.server.uuid.parse_text, Ranges.answer,
    Ranges.answerWhole] at hget
  obtain ⟨bytes, m, hbytes, hattempt⟩ | ⟨-, e, m, hattempt⟩ :=
    (panicless_getBytes a.metaId).attempt_cases a.server call
  · rw [Effect.bind_of_ok hattempt] at hget
    have hbody : content = [bytes].flatten := (Option.some.inj hget).symm
    rw [hbody, List.flatten_singleton, Ranges.getBytes_eq h hbytes]
    exact .inr rfl
  · rw [Effect.bind_of_ok hattempt] at hget
    exact .inl (Option.some.inj (body_error.symm.trans hget)).symm

theorem head_size (h : Ranges.Stores a.server a.metaId source) {size : UInt64}
    (hhead : a.head call = some size) : size.toNat = source.length := by
  have hrun : headRangelyDownloadFile (a.server.uuid.text a.metaId) a.server call =
      contentLength (some a.metaId) a.server call := by
    change contentLength (a.server.uuid.parse (a.server.uuid.text a.metaId)) a.server call = _
    rw [a.server.uuid.parse_text]
  rw [Download.head, hrun, contentLength] at hhead
  obtain ⟨length, m, hlength, hattempt⟩ | ⟨-, e, m, hattempt⟩ :=
    (panicless_getFileSize a.metaId).attempt_cases a.server call
  · rw [Effect.bind_of_ok hattempt] at hhead
    obtain ⟨server, reported, hserver, hreported, rfl, -⟩ := Ranges.getFileSize_ok_iff.mp hlength
    cases hhead
    exact h.size_toNat hserver hreported
  · rw [Effect.bind_of_ok hattempt] at hhead
    cases hhead

end Answers

section Refining

variable {job : Job} {d : Disk} {s : Shared} {block : Nat}

-- A task as the runners that share the cursor see it.
def Phase.task : Phase → Transfer.Task
  | .fetching _ => .fetching
  | .received body => .ready body.length
  | .writing body moved => .moving moved (body.length - moved)
  | .returned _ => .finished

structure Follows (s : Shared) (d : Disk) : Prop where
  cursor : s.cursor = d.cursor
  tasks : s.tasks = d.tasks.map Phase.task

theorem isFinished_task (phase : Phase) : phase.task.isFinished = phase.isReturned := by
  cases phase with
  | fetching attempt => rfl
  | received body => rfl
  | writing body moved => rfl
  | returned written => rfl

theorem isMoving_task (phase : Phase) : phase.task.isMoving = phase.isWriting := by
  cases phase with
  | fetching attempt => rfl
  | received body => rfl
  | writing body moved => rfl
  | returned written => rfl

theorem Follows.get (h : Follows s d) (block : Nat) :
    s.tasks[block]? = d.tasks[block]?.map Phase.task := by
  rw [h.tasks, List.getElem?_map]

theorem Follows.set (h : Follows s d) (block : Nat) (phase : Phase) :
    s.tasks.set block phase.task = (d.tasks.set block phase).map Phase.task := by
  rw [h.tasks, List.map_set]

theorem Follows.count (h : Follows s d) : s.tasks.countP (fun t => !t.isFinished) =
    d.tasks.countP (fun t => !t.isReturned) := by
  rw [h.tasks, List.countP_map]
  refine List.countP_congr fun phase _ => ?_
  rw [Function.comp_apply, isFinished_task]

theorem task_begin (hjob : job.direction = .download) (block : Nat) :
    (Download.begin job block).task = job.begin block := by
  rw [Download.begin, Job.begin, hjob]
  cases range job.checked job.blockCount job.blockLength job.fileLength block with
  | ok bounds => rfl
  | err e => rfl
  | panic => rfl

theorem task_rest (hjob : job.direction = .download) {body : Bytes} {moved : Nat}
    (hmoved : moved ≤ body.length) :
    (Phase.rest body moved).task = job.rest moved (body.length - moved) := by
  rw [Phase.rest, Job.rest]
  by_cases hall : moved = body.length
  · rw [if_pos hall, if_pos (Nat.sub_eq_zero_of_le hall.ge), hjob]
    rfl
  · rw [if_neg hall, if_neg (by omega)]
    rfl

-- The cursor and the tasks behave as those of the job do.
def Governed (job : Job) (d : Disk) : Prop :=
  job.direction = .download ∧ ∃ s, Follows s d ∧ job.Orderly s

theorem governed_created (hjob : job.direction = .download) (file : Bytes) :
    Governed job ⟨0, file, []⟩ := ⟨hjob, Job.opened 0, ⟨rfl, rfl⟩, Job.orderly_opened job 0⟩

theorem Governed.finish (h : Governed job d) {phase : Phase} (hblock : d.tasks[block]? = some phase)
    (written : Nat) : Governed job { d with tasks := d.tasks.set block (.returned written) } := by
  obtain ⟨hjob, s, hs, horderly⟩ := h
  refine ⟨hjob, job.step s (.stop block), ?_, horderly.step trivial⟩
  rw [Job.step, hs.get, hblock]
  exact ⟨hs.cursor, hs.set block (.returned written)⟩

theorem Governed.spawn (h : Governed job d) (a : Download) :
    Governed job (a.advance job d .spawn) := by
  obtain ⟨hjob, s, hs, horderly⟩ := h
  refine ⟨hjob, job.step s .spawn, ?_, horderly.step trivial⟩
  have hlength : s.tasks.length = d.tasks.length := by rw [hs.tasks, List.length_map]
  rw [Job.step, Download.advance, hs.count, hlength]
  split
  · refine ⟨hs.cursor, ?_⟩
    rw [List.map_append, ← hs.tasks, List.map_singleton, task_begin hjob]
  · exact hs

theorem Governed.receive (h : Governed job d) {attempt : Nat}
    (hblock : d.tasks[block]? = some (.fetching attempt)) (body : Bytes) :
    Governed job { d with tasks := d.tasks.set block (.received body) } := by
  obtain ⟨hjob, s, hs, horderly⟩ := h
  refine ⟨hjob, job.step s (.answer block body.length), ?_, horderly.step trivial⟩
  rw [Job.step, hs.get, hblock]
  exact ⟨hs.cursor, hs.set block (.received body)⟩

theorem Governed.lose (h : Governed job d) {attempt : Nat}
    (hblock : d.tasks[block]? = some (.fetching attempt)) :
    Governed job { d with tasks := d.tasks.set block (.lost attempt) } := by
  rw [Phase.lost]
  split
  · exact h.finish hblock 0
  · obtain ⟨hjob, s, hs, horderly⟩ := h
    refine ⟨hjob, s, ⟨hs.cursor, ?_⟩, horderly⟩
    have hsame : s.tasks[block]? = some .fetching := by
      rw [hs.get, hblock]
      rfl
    obtain ⟨hlt, hsame⟩ := List.getElem?_eq_some_iff.mp hsame
    rw [← hs.set block, Phase.task, ← hsame, List.set_getElem_self]

theorem Governed.seek (h : Governed job d) {body : Bytes}
    (hblock : d.tasks[block]? = some (.received body)) (halone : ∀ t ∈ d.tasks, t.isWriting = false) :
    job.start block = .ok (block * job.blockLength) ∧ Governed job { d with
      cursor := block * job.blockLength
      tasks := d.tasks.set block (.rest body 0) } := by
  obtain ⟨hjob, s, hs, horderly⟩ := h
  have hlength : s.tasks.length = d.tasks.length := by rw [hs.tasks, List.length_map]
  have hlt : block < job.blockCount := Nat.lt_of_lt_of_le
    (hlength ▸ (List.getElem?_eq_some_iff.mp hblock).1) horderly.count
  have hfree : Job.Alone s (.seek block) := by
    intro t ht
    rw [hs.tasks] at ht
    obtain ⟨phase, hphase, rfl⟩ := List.mem_map.mp ht
    rw [isMoving_task]
    exact halone phase hphase
  refine ⟨Job.start_eq hlt, hjob, job.step s (.seek block), ?_, horderly.step hfree⟩
  rw [Job.step, hs.get, hblock]
  change Follows (job.positioned s block body.length (job.start block)) _
  rw [Job.start_eq hlt, Job.positioned]
  refine ⟨rfl, ?_⟩
  have hrest : (Phase.rest body 0).task = job.sought body.length := by
    rw [task_rest hjob (Nat.zero_le _), Job.sought, if_neg]
    · rfl
    · rw [hjob]
      exact fun hupload => absurd hupload.1 (by decide)
  rw [← hs.set block, hrest]

theorem Governed.write (h : Governed job d) {body : Bytes} {moved bytes : Nat}
    (hblock : d.tasks[block]? = some (.writing body moved))
    (hbytes : 0 < bytes ∧ moved + bytes ≤ body.length) (file : Bytes) : Governed job
      ⟨d.cursor + bytes, file, d.tasks.set block (.rest body (moved + bytes))⟩ := by
  obtain ⟨hjob, s, hs, horderly⟩ := h
  refine ⟨hjob, job.step s (.transfer block bytes), ?_, horderly.step trivial⟩
  rw [Job.step, hs.get, hblock]
  change Follows (if 0 < bytes ∧ bytes ≤ body.length - moved ∧ job.Allows s.cursor bytes then _ else _) _
  rw [if_pos ⟨hbytes.1, by omega, .inl hjob⟩]
  refine ⟨congrArg (· + bytes) hs.cursor, ?_⟩
  rw [← hs.set block, task_rest hjob hbytes.2, Nat.sub_sub]

theorem Governed.cursor (h : Governed job d) {body : Bytes} {moved : Nat}
    (hblock : d.tasks[block]? = some (.writing body moved)) :
    block < job.blockCount ∧ d.cursor = block * job.blockLength + moved := by
  obtain ⟨hjob, s, hs, horderly⟩ := h
  have hmoving : s.tasks[block]? = some (.moving moved (body.length - moved)) := by
    rw [hs.get, hblock]
    rfl
  refine ⟨Nat.lt_of_lt_of_le (List.getElem?_eq_some_iff.mp hmoving).1 horderly.count, ?_⟩
  rw [← hs.cursor]
  exact (horderly.held block _ _ hmoving).2

theorem Governed.lt (h : Governed job d) {phase : Phase} (hblock : d.tasks[block]? = some phase) :
    block < job.blockCount := by
  obtain ⟨-, s, hs, horderly⟩ := h
  have hlt := (List.getElem?_eq_some_iff.mp hblock).1
  rw [← List.length_map (f := Phase.task), ← hs.tasks] at hlt
  exact Nat.lt_of_lt_of_le hlt horderly.count

end Refining

section Patching

variable {source file : Bytes} {blockLength blockCount block moved bytes : Nat} {written : Nat → Nat}

open Transfer (slice_getElem? slice_length writeAt_getElem? writeAt_length)

def blockBytes (source : Bytes) (blockLength block : Nat) : Bytes :=
  slice source (block * blockLength) (block * blockLength + (span source.length blockLength block - 1))

theorem blockBytes_length (h : Transfer.Layout source.length blockLength blockCount) (hblock : block < blockCount) :
    (blockBytes source blockLength block).length = span source.length blockLength block := by
  have hstart := h.start_lt hblock
  have hle : span source.length blockLength block ≤ source.length - block * blockLength :=
    Nat.min_le_right _ _
  exact slice_length source _ (h.span_pos hblock) (by omega)

theorem patched_created (hlength : file.length = source.length)
    (hzero : ∀ position < source.length, file[position]? = some 0) :
    Patched source blockLength (fun _ => 0) file := by
  refine ⟨hlength, fun position hposition => ?_⟩
  rw [if_neg (Nat.not_lt_zero _), hzero position hposition]

theorem Patched.congr (h : Patched source blockLength written file) {written' : Nat → Nat}
    (hsame : ∀ block, written' block = written block) : Patched source blockLength written' file := by
  rwa [show written' = written from funext hsame]

-- The next bytes of one block, at their place.
theorem Patched.write (h : Patched source blockLength written file)
    (hlayout : Transfer.Layout source.length blockLength blockCount) (hblock : block < blockCount)
    (hmoved : written block = moved) (hbytes : moved + bytes ≤ span source.length blockLength block) :
    Patched source blockLength (Function.update written block (moved + bytes))
      (writeAt (block * blockLength + moved)
        (((blockBytes source blockLength block).drop moved).take bytes) file) := by
  have hstart := hlayout.start_lt hblock
  have hspan : span source.length blockLength block ≤ blockLength := Nat.min_le_left _ _
  have hrest : span source.length blockLength block ≤ source.length - block * blockLength :=
    Nat.min_le_right _ _
  have hlength : (((blockBytes source blockLength block).drop moved).take bytes).length = bytes := by
    rw [List.length_take, List.length_drop, blockBytes_length hlayout hblock]
    omega
  have hroom : block * blockLength + moved +
      (((blockBytes source blockLength block).drop moved).take bytes).length ≤ file.length := by
    rw [hlength, h.length]
    omega
  refine ⟨(writeAt_length hroom).trans h.length, fun position hposition => ?_⟩
  rw [writeAt_getElem? hroom, hlength]
  by_cases hin : position / blockLength = block
  · have hsplit := Nat.div_add_mod' position blockLength
    rw [hin] at hsplit
    rw [hin, Function.update_self]
    by_cases hnew : moved ≤ position % blockLength ∧ position % blockLength < moved + bytes
    · rw [if_pos (by omega), if_pos hnew.2, List.getElem?_take_of_lt (by omega), List.getElem?_drop,
        blockBytes, slice_getElem? (by omega)]
      congr 1
      omega
    · rw [if_neg (by omega), h.byte position hposition, hin, hmoved]
      by_cases hold : position % blockLength < moved
      · rw [if_pos hold, if_pos (by omega)]
      · rw [if_neg hold, if_neg (by omega)]
  · have hout : ¬(block * blockLength + moved ≤ position ∧
        position < block * blockLength + moved + bytes) := by
      rw [Nat.div_eq_iff hlayout.length] at hin
      omega
    rw [if_neg hout, Function.update_of_ne hin, h.byte position hposition]

theorem Patched.eq (h : Patched source blockLength written file)
    (hlayout : Transfer.Layout source.length blockLength blockCount)
    (hall : ∀ block < blockCount, written block = span source.length blockLength block) :
    file = source := by
  refine List.ext_getElem? fun position => ?_
  obtain hlt | hge := Nat.lt_or_ge position source.length
  · have hsplit := Nat.div_add_mod' position blockLength
    have hmod := Nat.mod_lt position hlayout.length
    rw [h.byte position hlt, hall _ (hlayout.block_of hlt), if_pos]
    rw [span]
    omega
  · rw [List.getElem?_eq_none hge, List.getElem?_eq_none (h.length ▸ hge)]

end Patching

section Invariant

variable {a : Download} {source : Bytes} {job : Job} {d : Disk} {block : Nat} {phase phase' : Phase}

def Disk.written (d : Disk) (block : Nat) : Nat := (d.tasks[block]?.map Phase.written).getD 0

def Sane (source : Bytes) (blockLength block : Nat) : Phase → Prop
  | .fetching _ => True
  | .received body => body = [] ∨ body = blockBytes source blockLength block
  | .writing body moved => body = blockBytes source blockLength block ∧ moved < body.length
  | .returned written => written ≤ span source.length blockLength block

structure Sound (source : Bytes) (job : Job) (d : Disk) : Prop where
  length : job.fileLength = source.length
  pos : 0 < source.length
  governed : Governed job d
  patched : Patched source job.blockLength d.written d.file
  sane : ∀ block phase, d.tasks[block]? = some phase → Sane source job.blockLength block phase

theorem Sound.layout (h : Sound source job d) :
    Transfer.Layout source.length job.blockLength job.blockCount := by
  have hpos : 0 < job.fileLength := h.length.symm ▸ h.pos
  exact h.length ▸ Job.layout_of_pos hpos

theorem written_set (hblock : d.tasks[block]? = some phase) (cursor : Nat) (file : Bytes) :
    Disk.written ⟨cursor, file, d.tasks.set block phase'⟩ =
      Function.update d.written block phase'.written := by
  have hlt := (List.getElem?_eq_some_iff.mp hblock).1
  funext other
  by_cases heq : other = block
  · subst heq
    rw [Disk.written, List.getElem?_set_self hlt, Function.update_self]
    rfl
  · rw [Disk.written, List.getElem?_set_ne (Ne.symm heq), Function.update_of_ne heq]
    rfl

theorem Sound.sane_set (h : Sound source job d) (hsane : Sane source job.blockLength block phase') :
    ∀ other phase, (d.tasks.set block phase')[other]? = some phase →
      Sane source job.blockLength other phase := by
  intro other phase hother
  obtain ⟨rfl, rfl⟩ | ⟨-, hold⟩ := set_cases hother
  · exact hsane
  · exact h.sane other phase hold

-- A task that goes on without a write.
theorem Sound.set (h : Sound source job d) (hblock : d.tasks[block]? = some phase) {cursor : Nat}
    (hgoverned : Governed job ⟨cursor, d.file, d.tasks.set block phase'⟩)
    (hwritten : phase'.written = phase.written) (hsane : Sane source job.blockLength block phase') :
    Sound source job ⟨cursor, d.file, d.tasks.set block phase'⟩ := by
  refine ⟨h.length, h.pos, hgoverned, ?_, h.sane_set hsane⟩
  refine h.patched.congr fun other => ?_
  rw [written_set hblock, hwritten]
  by_cases heq : other = block
  · subst heq
    rw [Function.update_self, Disk.written, hblock]
    rfl
  · rw [Function.update_of_ne heq]

theorem written_rest (body : Bytes) (moved : Nat) : (Phase.rest body moved).written = moved := by
  rw [Phase.rest]
  split
  · rfl
  · rfl

theorem written_lost (attempt : Nat) : (Phase.lost attempt).written = 0 := by
  rw [Phase.lost]
  split
  · rfl
  · rfl

theorem sane_lost (attempt : Nat) : Sane source job.blockLength block (.lost attempt) := by
  rw [Phase.lost]
  split
  · exact Nat.zero_le _
  · trivial

theorem Sound.sane_rest (h : Sound source job d) (hblock : block < job.blockCount) {moved : Nat}
    (hmoved : moved ≤ span source.length job.blockLength block) :
    Sane source job.blockLength block (.rest (blockBytes source job.blockLength block) moved) := by
  have hlength := blockBytes_length h.layout hblock
  rw [Phase.rest]
  split
  · exact hmoved
  · exact ⟨rfl, by omega⟩

theorem Sound.fetched (h : Sound source job d) (hstores : Ranges.Stores a.server a.metaId source)
    {call : Nat} {content : Bytes} (hblock : block < job.blockCount)
    (hfetched : a.fetched job block call = some content) :
    content = [] ∨ content = blockBytes source job.blockLength block := by
  have hfits := job.fits
  rw [h.length] at hfits
  have hstart := h.layout.start_lt hblock
  have hpos := h.layout.span_pos hblock
  have hrest : span source.length job.blockLength block ≤ source.length - block * job.blockLength :=
    Nat.min_le_right _ _
  rw [Download.fetched, h.length, h.layout.range hfits hblock] at hfetched
  exact get_range hstores (Nat.le_add_right _ _) (by omega) hfits hfetched

theorem Sound.spawn (h : Sound source job d) : Sound source job (a.advance job d .spawn) := by
  have hgoverned := h.governed.spawn a
  rw [Download.advance] at hgoverned ⊢
  split at hgoverned
  · next hroom =>
    rw [if_pos hroom]
    have hbegin : (Download.begin job d.tasks.length).written = 0 ∧
        Sane source job.blockLength d.tasks.length (Download.begin job d.tasks.length) := by
      rw [Download.begin]
      split
      · exact ⟨rfl, trivial⟩
      · exact ⟨rfl, Nat.zero_le _⟩
    refine ⟨h.length, h.pos, hgoverned, h.patched.congr fun other => ?_, fun other phase hother => ?_⟩
    · rw [Disk.written, Disk.written, List.getElem?_append]
      split
      · rfl
      · next hge =>
        rw [List.getElem?_singleton, List.getElem?_eq_none (Nat.not_lt.mp hge)]
        split
        · exact hbegin.1
        · rfl
    · rw [List.getElem?_append] at hother
      split at hother
      · exact h.sane other phase hother
      · next hge =>
        rw [List.getElem?_singleton] at hother
        split at hother
        · next hzero =>
          cases hother
          have hlast : other = d.tasks.length := by omega
          exact hlast ▸ hbegin.2
        · cases hother
  · next hroom =>
    rw [if_neg hroom]
    exact h

theorem Sound.reply (h : Sound source job d) (hstores : Ranges.Stores a.server a.metaId source) (call : Nat) :
    Sound source job (a.advance job d (.reply block call)) := by
  rw [Download.advance]
  split
  · next attempt hblock =>
    split
    · next content hfetched =>
      exact h.set hblock (h.governed.receive hblock content) rfl
        (h.fetched hstores (h.governed.lt hblock) hfetched)
    · exact h.set hblock (h.governed.lose hblock) (written_lost attempt) (sane_lost attempt)
  · exact h

theorem Sound.lose (h : Sound source job d) : Sound source job (a.advance job d (.lose block)) := by
  rw [Download.advance]
  split
  · next attempt hblock =>
    exact h.set hblock (h.governed.lose hblock) (written_lost attempt) (sane_lost attempt)
  · exact h

theorem Sound.seek (h : Sound source job d) (halone : ∀ t ∈ d.tasks, t.isWriting = false) :
    Sound source job (a.advance job d (.seek block)) := by
  rw [Download.advance]
  split
  · next content hblock =>
    obtain ⟨hstart, hgoverned⟩ := h.governed.seek hblock halone
    rw [hstart, Download.positioned]
    refine h.set hblock hgoverned (written_rest content 0) ?_
    obtain rfl | rfl := h.sane block _ hblock
    · rw [Phase.rest, if_pos List.length_nil.symm]
      exact Nat.zero_le _
    · exact h.sane_rest (h.governed.lt hblock) (Nat.zero_le _)
  · exact h

theorem Sound.write (h : Sound source job d) (bytes : Nat) :
    Sound source job (a.advance job d (.write block bytes)) := by
  rw [Download.advance]
  split
  · next content moved hblock =>
    split
    · next hbytes =>
      obtain ⟨rfl, -⟩ := h.sane block _ hblock
      obtain ⟨hlt, hcursor⟩ := h.governed.cursor hblock
      have hgoverned := h.governed.write hblock hbytes
        (writeAt d.cursor (((blockBytes source job.blockLength block).drop moved).take bytes) d.file)
      have hmoved : d.written block = moved := by
        rw [Disk.written, hblock]
        rfl
      have hend : moved + bytes ≤ span source.length job.blockLength block :=
        blockBytes_length h.layout hlt ▸ hbytes.2
      refine ⟨h.length, h.pos, hgoverned, ?_, h.sane_set (h.sane_rest hlt hend)⟩
      rw [written_set hblock, written_rest, hcursor]
      exact h.patched.write h.layout hlt hmoved hend
    · exact h
  · exact h

theorem Sound.stop (h : Sound source job d) : Sound source job (a.advance job d (.stop block)) := by
  rw [Download.advance]
  split
  · next phase hblock =>
    refine h.set hblock (h.governed.finish hblock _) rfl ?_
    have hsane := h.sane block phase hblock
    cases phase with
    | fetching attempt => exact Nat.zero_le _
    | received body => exact Nat.zero_le _
    | writing body moved =>
      obtain ⟨rfl, hlt⟩ := hsane
      rw [blockBytes_length h.layout (h.governed.lt hblock)] at hlt
      exact hlt.le
    | returned written => exact hsane
  · exact h

theorem Sound.advance (h : Sound source job d) (hstores : Ranges.Stores a.server a.metaId source) {e : Event}
    (halone : Alone (.blocks job d) (.task e)) : Sound source job (a.advance job d e) := by
  cases e with
  | spawn => exact h.spawn
  | reply block call => exact h.reply hstores call
  | lose block => exact h.lose
  | seek block => exact h.seek (halone rfl)
  | write block bytes => exact h.write bytes
  | stop block => exact h.stop

-- What the disk and the downloaded file may hold.
def Trusted (a : Download) (source : Bytes) : Stage → Prop
  | .blocks job d => Patched source job.blockLength d.written d.file
  | .completed file => file = [] ∨ file = source ∨ ∃ blockLength blockCount written,
      Transfer.blocks a.checked a.maxBlockLength source.length = .ok (blockLength, blockCount) ∧
        Patched source blockLength written file
  | _ => True

def Holds (a : Download) (source : Bytes) : Stage → Prop
  | .blocks job d => job.checked = a.checked ∧ job.maxBlockLength = a.maxBlockLength ∧
      Sound source job d
  | s => Trusted a source s

theorem Holds.trusted {s : Stage} (h : Holds a source s) : Trusted a source s := by
  cases s with
  | blocks job d => exact h.2.2.patched
  | asking => trivial
  | whole => trivial
  | completed file => exact h
  | failed => trivial

theorem sound_created (hjob : job.direction = .download) (hlength : job.fileLength = source.length)
    (hpos : 0 < source.length) : Sound source job ⟨0, created job.fileLength, []⟩ where
  length := hlength
  pos := hpos
  governed := governed_created hjob _
  patched := by
    rw [hlength]
    refine patched_created List.length_replicate fun position hposition => ?_
    rw [created, List.getElem?_replicate, if_pos hposition]
  sane _ _ hphase := by cases hphase

theorem holds_opened {size : UInt64} (hsize : size = 0 ∨ size.toNat = source.length) :
    Holds a source (a.opened size) := by
  rw [Download.opened]
  split
  · trivial
  · next hne =>
    have hlength := hsize.resolve_left hne
    have hpos : 0 < source.length := by
      rw [← hlength, Nat.pos_iff_ne_zero]
      exact fun hzero => hne (UInt64.toNat_inj.mp hzero)
    split
    · exact ⟨rfl, rfl, sound_created rfl hlength hpos⟩
    · trivial

theorem Holds.step {s : Stage} (h : Holds a source s) (hstores : Ranges.Stores a.server a.metaId source)
    {q : Step} (halone : Alone s q) : Holds a source (a.step s q) := by
  cases s with
  | asking =>
    cases q with
    | size call =>
      refine holds_opened ?_
      cases hhead : a.head call with
      | none => exact .inl rfl
      | some size => exact .inr (head_size hstores hhead)
    | _ => trivial
  | whole =>
    cases q with
    | body call =>
      rw [Download.step]
      split
      · next content hget =>
        exact (get_whole hstores hget).imp_right .inl
      · trivial
    | _ => trivial
  | blocks job d =>
    obtain ⟨hchecked, hmax, hsound⟩ := h
    cases q with
    | task e => exact ⟨hchecked, hmax, hsound.advance hstores halone⟩
    | join =>
      rw [Download.step]
      split
      · refine .inr (.inr ⟨job.blockLength, job.blockCount, d.written, ?_, hsound.patched⟩)
        rw [← hchecked, ← hmax, ← hsound.length]
        exact job.cut
      · exact ⟨hchecked, hmax, hsound⟩
    | abort => trivial
    | size call => exact ⟨hchecked, hmax, hsound⟩
    | unsized => exact ⟨hchecked, hmax, hsound⟩
    | body call => exact ⟨hchecked, hmax, hsound⟩
  | completed file =>
    cases q
    all_goals exact h
  | failed =>
    cases q
    all_goals trivial

end Invariant

theorem holds_run (a : Download) (source : Bytes) (h : Ranges.Stores a.server a.metaId source)
    {qs : List Step} (halone : Along a.step Alone .asking qs) :
    Holds a source (run a.step .asking qs) := by
  have hstart : Holds a source .asking := trivial
  exact run_invariant (fun _ _ hs hq => hs.step h hq) hstart halone

theorem download_trusted (a : Download) (source : Bytes) (h : Ranges.Stores a.server a.metaId source)
    {qs : List Step} (halone : Along a.step Alone .asking qs) :
    Trusted a source (run a.step .asking qs) := (holds_run a source h halone).trusted

section Undisturbed

variable {a : Download} {source : Bytes} {job : Job} {d : Disk} {block : Nat} {phase : Phase}

def answered (a : Download) (s : Stage) (block call : Nat) : Option Bytes :=
  match s with
  | .blocks job _ => a.fetched job block call
  | _ => none

-- The size is known, no block is lost four times, and no answer is an error.
def Undisturbed (a : Download) (s : Stage) : Step → Prop
  | .size call => (a.head call).isSome = true
  | .unsized => False
  | .task (.reply block call) => answered a s block call ≠ some [] ∧
      (answered a s block call = none → s.tasks[block]? ≠ some (.fetching 4))
  | .task (.lose block) => s.tasks[block]? ≠ some (.fetching 4)
  | .task (.stop _) => False
  | .task _ => True
  | .body _ => True
  | .join => True
  | .abort => True

instance (a : Download) (s : Stage) : (q : Step) → Decidable (Undisturbed a s q)
  | .size _ => inferInstanceAs (Decidable (_ = true))
  | .unsized => .isFalse id
  | .task (.reply block call) => inferInstanceAs (Decidable (answered a s block call ≠ some [] ∧
      (answered a s block call = none → s.tasks[block]? ≠ some (.fetching 4))))
  | .task (.lose block) => inferInstanceAs (Decidable (s.tasks[block]? ≠ some (.fetching 4)))
  | .task (.stop _) => .isFalse id
  | .task .spawn => .isTrue trivial
  | .task (.seek _) => .isTrue trivial
  | .task (.write _ _) => .isTrue trivial
  | .body _ => .isTrue trivial
  | .join => .isTrue trivial
  | .abort => .isTrue trivial

def Whole (source : Bytes) (blockLength block : Nat) : Phase → Prop
  | .received body => body ≠ []
  | .returned written => written = span source.length blockLength block
  | _ => True

def Full (source : Bytes) (job : Job) (d : Disk) : Prop :=
  ∀ block phase, d.tasks[block]? = some phase → Whole source job.blockLength block phase

theorem Full.set (h : Full source job d) (hwhole : Whole source job.blockLength block phase)
    (cursor : Nat) (file : Bytes) : Full source job ⟨cursor, file, d.tasks.set block phase⟩ := by
  intro other phase' hother
  obtain ⟨rfl, rfl⟩ | ⟨-, hold⟩ := set_cases hother
  · exact hwhole
  · exact h other phase' hold

theorem whole_lost {attempt : Nat} (hattempt : attempt ≠ 4) :
    Whole source job.blockLength block (.lost attempt) := by
  rw [Phase.lost, if_neg hattempt]
  trivial

theorem Sound.whole_rest (h : Sound source job d) (hblock : block < job.blockCount) (moved : Nat) :
    Whole source job.blockLength block (.rest (blockBytes source job.blockLength block) moved) := by
  rw [Phase.rest]
  split
  · next hall => exact hall.trans (blockBytes_length h.layout hblock)
  · trivial

theorem Full.spawn (h : Full source job d) (hsound : Sound source job d) :
    Full source job (a.advance job d .spawn) := by
  have hfits := job.fits
  rw [hsound.length] at hfits
  rw [Download.advance]
  split
  · next hroom =>
    intro other phase hother
    rw [List.getElem?_append] at hother
    split at hother
    · exact h other phase hother
    · rw [List.getElem?_singleton] at hother
      split at hother
      · cases hother
        rw [Download.begin, hsound.length, hsound.layout.range hfits hroom.1]
        trivial
      · cases hother
  · exact h

theorem Full.advance (h : Full source job d) (hsound : Sound source job d) {e : Event}
    (hundisturbed : Undisturbed a (.blocks job d) (.task e)) : Full source job (a.advance job d e) := by
  cases e with
  | spawn => exact h.spawn hsound
  | reply block call =>
    rw [Download.advance]
    split
    · next attempt hblock =>
      split
      · next body hfetched =>
        have hwhole : Whole source job.blockLength block (.received body) := by
          rintro rfl
          exact hundisturbed.1 hfetched
        exact h.set hwhole _ _
      · next hfetched =>
        exact h.set (whole_lost fun heq => hundisturbed.2 hfetched (heq ▸ hblock)) _ _
    · exact h
  | lose block =>
    rw [Download.advance]
    split
    · next attempt hblock => exact h.set (whole_lost fun heq => hundisturbed (heq ▸ hblock)) _ _
    · exact h
  | seek block =>
    rw [Download.advance]
    split
    · next body hblock =>
      have hlt := hsound.governed.lt hblock
      rw [Job.start_eq hlt, Download.positioned]
      obtain rfl | rfl := hsound.sane block _ hblock
      · exact absurd rfl (h block _ hblock)
      · exact h.set (hsound.whole_rest hlt 0) _ _
    · exact h
  | write block bytes =>
    rw [Download.advance]
    split
    · next body moved hblock =>
      split
      · obtain ⟨rfl, -⟩ := hsound.sane block _ hblock
        exact h.set (hsound.whole_rest (hsound.governed.lt hblock) _) _ _
      · exact h
    · exact h
  | stop block => exact hundisturbed.elim

-- The whole file is asked for only when it is empty.
def Exact (source : Bytes) : Stage → Prop
  | .asking => True
  | .whole => source = []
  | .blocks job d => Full source job d
  | .completed file => file = source
  | .failed => True

theorem Full.eq (h : Full source job d) (hsound : Sound source job d)
    (hall : d.tasks.length = job.blockCount ∧ d.tasks.all Phase.isReturned = true) :
    d.file = source := by
  refine hsound.patched.eq hsound.layout fun block hblock => ?_
  rw [← hall.1] at hblock
  have hget := List.getElem?_eq_getElem hblock
  have hreturned := List.all_eq_true.mp hall.2 _ (List.getElem_mem hblock)
  have hwhole := h block _ hget
  rw [Disk.written, hget]
  cases hphase : d.tasks[block] with
  | returned written =>
    rw [hphase] at hwhole
    exact hwhole
  | fetching attempt =>
    rw [hphase] at hreturned
    cases hreturned
  | received body =>
    rw [hphase] at hreturned
    cases hreturned
  | writing body moved =>
    rw [hphase] at hreturned
    cases hreturned

theorem exact_opened {size : UInt64} (hsize : size.toNat = source.length) :
    Exact source (a.opened size) := by
  rw [Download.opened]
  split
  · next hzero =>
    rw [hzero] at hsize
    exact List.length_eq_zero_iff.mp hsize.symm
  · split
    · intro block phase hphase
      cases hphase
    · trivial

theorem Exact.step {s : Stage} (h : Exact source s) (hholds : Holds a source s)
    (hstores : Ranges.Stores a.server a.metaId source) {q : Step} (hundisturbed : Undisturbed a s q) :
    Exact source (a.step s q) := by
  cases s with
  | asking =>
    cases q with
    | size call =>
      obtain ⟨size, hhead⟩ := Option.isSome_iff_exists.mp hundisturbed
      rw [Download.step, hhead]
      exact exact_opened (head_size hstores hhead)
    | unsized => exact hundisturbed.elim
    | _ => trivial
  | whole =>
    cases q with
    | body call =>
      rw [Download.step]
      split
      · next content hget =>
        obtain rfl | hwhole := get_whole hstores hget
        · exact h.symm
        · exact hwhole
      · trivial
    | abort => trivial
    | _ => exact h
  | blocks job d =>
    cases q with
    | task e => exact Full.advance h hholds.2.2 hundisturbed
    | join =>
      rw [Download.step]
      split
      · next hall => exact Full.eq h hholds.2.2 hall
      · exact h
    | abort => trivial
    | _ => exact h
  | completed file =>
    cases q
    all_goals exact h
  | failed =>
    cases q
    all_goals trivial

end Undisturbed

section Samples

open Ranges (five holding stores_holding)

def fiveDownload : Download := ⟨holding true five, 9, true, 2⟩

-- The blocks come in the order 1, 2, 0; one attempt is lost.
def fetchedSteps : List Step :=
  [.size 0, .task .spawn, .task .spawn, .task .spawn, .task (.lose 1), .task (.reply 1 2),
    .task (.reply 2 5), .task (.seek 1), .task (.write 1 1), .task (.write 1 1), .task (.seek 2),
    .task (.reply 0 8), .task (.write 2 1), .task (.seek 0), .task (.write 0 2), .join]

-- The last block is given up.
def lossySteps : List Step :=
  [.size 0, .task .spawn, .task .spawn, .task .spawn, .task (.reply 1 2), .task (.reply 0 5),
    .task (.lose 2), .task (.lose 2), .task (.lose 2), .task (.lose 2), .task (.seek 1),
    .task (.write 1 2), .task (.seek 0), .task (.write 0 2), .join]

theorem download_trusted_sample :
    Trusted fiveDownload five (run fiveDownload.step .asking lossySteps) :=
  download_trusted fiveDownload five (stores_holding true (by decide) 9) (by decide +kernel)

end Samples

end Kuintessence.Fetching
