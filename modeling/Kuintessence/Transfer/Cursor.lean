import Kuintessence.Lib.Phases
import Kuintessence.Lib.Run
import Kuintessence.Transfer.Download
import Kuintessence.Transfer.Upload

namespace Kuintessence

namespace Transfer

inductive Direction where
  | download
  | upload
  deriving DecidableEq, Repr

-- One file and the blocks that a runner cuts it into.
structure Job where
  direction : Direction
  checked : Bool
  maxBlockLength : Nat
  fileLength : Nat
  blockLength : Nat
  blockCount : Nat
  fits : fileLength < 2 ^ 64
  cut : blocks checked maxBlockLength fileLength = .ok (blockLength, blockCount)

-- `ready`: the bytes that are still to be moved are known; `moving`: those that have been moved
-- since the task's seek, and those that are left.
inductive Task where
  | fetching
  | ready (bytes : Nat)
  | moving (moved left : Nat)
  | sending
  | finished
  deriving DecidableEq, Repr

-- One call of the operating system that moved bytes of a block at a position of the file.
structure Move where
  block : Nat
  moved : Nat
  position : Nat
  bytes : Nat
  deriving DecidableEq, Repr

-- The clones of the handle and the cursor that they share.
structure Shared where
  cursor : Nat
  tasks : List Task
  moves : List Move
  deriving DecidableEq, Repr

inductive Step where
  | spawn
  | answer (block bytes : Nat)
  | seek (block : Nat)
  | transfer (block bytes : Nat)
  | send (block : Nat)
  | stop (block : Nat)
  deriving DecidableEq, Repr

def Task.isFinished : Task → Bool
  | .finished => true
  | _ => false

def Task.isMoving : Task → Bool
  | .moving _ _ => true
  | _ => false

namespace Job

variable (job : Job)

def begin (block : Nat) : Task :=
  match job.direction with
  | .download =>
    match range job.checked job.blockCount job.blockLength job.fileLength block with
    | .ok _ => .fetching
    | _ => .finished
  | .upload =>
    match realBlockLength job.checked job.blockCount job.blockLength job.fileLength block with
    | .ok real => .ready real
    | _ => .finished

-- `write_all_buf` and `read_exact` go on until nothing is left.
def rest (moved left : Nat) : Task :=
  if left = 0 then
    match job.direction with
    | .download => .finished
    | .upload => .sending
  else .moving moved left

-- The buffer of an upload is allocated between its seek and its first read.
def sought (bytes : Nat) : Task :=
  if job.direction = .upload ∧ isizeMax < bytes then .finished else job.rest 0 bytes

-- Nothing is read behind the end of the file.
def Allows (cursor bytes : Nat) : Prop :=
  job.direction = .download ∨ cursor + bytes ≤ job.fileLength

instance (cursor bytes : Nat) : Decidable (job.Allows cursor bytes) :=
  inferInstanceAs (Decidable (_ ∨ _))

-- The offset of `SeekFrom::Start`.
def start (block : Nat) : Outcome String Nat := u64 job.checked (block * job.blockLength : Nat)

def positioned (s : Shared) (block bytes : Nat) : Outcome String Nat → Shared
  | .ok position => { s with cursor := position, tasks := s.tasks.set block (job.sought bytes) }
  | _ => { s with tasks := s.tasks.set block .finished }

def step (s : Shared) : Step → Shared
  | .spawn =>
    if s.tasks.length < job.blockCount ∧ s.tasks.countP (fun t => !t.isFinished) < 16 then
      { s with tasks := s.tasks ++ [job.begin s.tasks.length] }
    else s
  | .answer block bytes =>
    match s.tasks[block]? with
    | some .fetching => { s with tasks := s.tasks.set block (.ready bytes) }
    | _ => s
  | .seek block =>
    match s.tasks[block]? with
    | some (.ready bytes) => job.positioned s block bytes (job.start block)
    | _ => s
  | .transfer block bytes =>
    match s.tasks[block]? with
    | some (.moving moved left) =>
      if 0 < bytes ∧ bytes ≤ left ∧ job.Allows s.cursor bytes then
        { cursor := s.cursor + bytes
          tasks := s.tasks.set block (job.rest (moved + bytes) (left - bytes))
          moves := ⟨block, moved, s.cursor, bytes⟩ :: s.moves }
      else s
    | _ => s
  | .send block =>
    match s.tasks[block]? with
    | some .sending => { s with tasks := s.tasks.set block .finished }
    | _ => s
  | .stop block =>
    match s.tasks[block]? with
    | some _ => { s with tasks := s.tasks.set block .finished }
    | none => s

def opened (cursor : Nat) : Shared := ⟨cursor, [], []⟩

def Placed (s : Shared) : Prop :=
  ∀ m ∈ s.moves, m.position = m.block * job.blockLength + m.moved

instance (s : Shared) : Decidable (job.Placed s) := List.decidableBAll _ _

-- No task seeks while another one is between its seek and its last byte.
def Alone (s : Shared) : Step → Prop
  | .seek _ => ∀ t ∈ s.tasks, t.isMoving = false
  | _ => True

instance (s : Shared) (q : Step) : Decidable (Alone s q) :=
  match q with
  | .seek _ => List.decidableBAll _ _
  | .spawn => .isTrue trivial
  | .answer _ _ => .isTrue trivial
  | .transfer _ _ => .isTrue trivial
  | .send _ => .isTrue trivial
  | .stop _ => .isTrue trivial

-- The cursor belongs to the one task that is moving its bytes.
structure Orderly (s : Shared) : Prop where
  placed : job.Placed s
  count : s.tasks.length ≤ job.blockCount
  alone : Mutual (fun t u => t.isMoving = true → u.isMoving = false) s.tasks
  held : ∀ (block moved left : Nat), s.tasks[block]? = some (.moving moved left) →
    0 < left ∧ s.cursor = block * job.blockLength + moved

section Starts

variable {job} {block : Nat}

theorem layout_of_pos (h : 0 < job.fileLength) :
    Layout job.fileLength job.blockLength job.blockCount := by
  have hmax : 0 < job.maxBlockLength := by
    refine Nat.pos_of_ne_zero fun hzero => ?_
    have hcut := job.cut
    rw [blocks, hzero, if_pos h, if_pos rfl] at hcut
    cases hcut
  obtain ⟨blockLength, blockCount, hblocks, hlayout⟩ :=
    blocks_layout job.checked hmax h job.fits
  cases hblocks.symm.trans job.cut
  exact hlayout

theorem cut_of_zero (h : job.fileLength = 0) : job.blockLength = 0 ∧ job.blockCount = 1 := by
  have hcut := job.cut
  rw [blocks, h, if_neg (Nat.not_lt_zero _)] at hcut
  have hpair := Outcome.ok.inj hcut
  exact ⟨(congrArg Prod.fst hpair).symm, (congrArg Prod.snd hpair).symm⟩

theorem start_eq (h : block < job.blockCount) :
    job.start block = .ok (block * job.blockLength) := by
  rw [start]
  obtain hzero | hpos := Nat.eq_zero_or_pos job.fileLength
  · rw [(cut_of_zero hzero).1, Nat.mul_zero, u64_of_nat (by decide)]
  · exact u64_of_nat (Nat.lt_trans ((layout_of_pos hpos).start_lt h) job.fits)

end Starts

section Frames

variable {job} {s : Shared} {block : Nat} {t u : Task}

theorem rest_moving {moved left moved' left' : Nat} (h : job.rest moved left = .moving moved' left') :
    moved' = moved ∧ left' = left ∧ 0 < left := by
  rw [rest] at h
  split at h
  · split at h
    · cases h
    · cases h
  · next hleft =>
    cases h
    exact ⟨rfl, rfl, Nat.pos_of_ne_zero hleft⟩

theorem sought_moving {bytes moved left : Nat} (h : job.sought bytes = .moving moved left) :
    moved = 0 ∧ 0 < left := by
  rw [sought] at h
  split at h
  · cases h
  · obtain ⟨rfl, rfl, hleft⟩ := rest_moving h
    exact ⟨rfl, hleft⟩

theorem begin_isMoving (job : Job) (block : Nat) : (job.begin block).isMoving = false := by
  rw [begin]
  split
  · split
    · rfl
    · rfl
  · split
    · rfl
    · rfl

-- A task that moves no bytes afterwards leaves the cursor to the others.
theorem Orderly.set (h : job.Orderly s) (ht : t.isMoving = false) :
    job.Orderly { s with tasks := s.tasks.set block t } where
  placed := h.placed
  count := by
    rw [List.length_set]
    exact h.count
  alone := h.alone.set fun j u _ _ => ⟨fun hmoving => absurd hmoving (by rw [ht]; decide), fun _ => ht⟩
  held i moved left hi := by
    obtain ⟨-, heq⟩ | ⟨-, hold⟩ := set_cases hi
    · rw [← heq] at ht
      cases ht
    · exact h.held i moved left hold

-- The task that holds the cursor, when no other one does.
theorem Orderly.hold (h : job.Orderly s) {cursor : Nat} {moves : List Move}
    (hother : ∀ (j : Nat) (u : Task), j ≠ block → s.tasks[j]? = some u → u.isMoving = false)
    (hplaced : job.Placed ⟨cursor, s.tasks, moves⟩)
    (ht : ∀ moved left, t = .moving moved left →
      0 < left ∧ cursor = block * job.blockLength + moved) :
    job.Orderly ⟨cursor, s.tasks.set block t, moves⟩ where
  placed := hplaced
  count := by
    rw [List.length_set]
    exact h.count
  alone := h.alone.set fun j u hne hu => by
    have hfalse := hother j u hne hu
    exact ⟨fun _ => hfalse, fun hmoving => absurd hmoving (by rw [hfalse]; decide)⟩
  held i moved left hi := by
    obtain ⟨rfl, heq⟩ | ⟨hne, hold⟩ := set_cases hi
    · exact ht moved left heq.symm
    · cases hother i (.moving moved left) hne hold

end Frames

section Steps

variable {job} {s : Shared} {block : Nat}

theorem Orderly.others (h : job.Orderly s) {t : Task} (hblock : s.tasks[block]? = some t)
    (hmoving : t.isMoving = true) (j : Nat) (u : Task) (hne : j ≠ block)
    (hu : s.tasks[j]? = some u) : u.isMoving = false :=
  h.alone block j t u hne.symm hblock hu hmoving

theorem Orderly.spawn (h : job.Orderly s) : job.Orderly (job.step s .spawn) := by
  rw [step]
  split
  · next hroom =>
    refine ⟨h.placed, ?_, ?_, fun i moved left hi => ?_⟩
    · rw [List.length_append]
      exact hroom.1
    · refine h.alone.concat fun u _ => ⟨fun hmoving => absurd hmoving ?_, fun _ => ?_⟩
      · rw [begin_isMoving]
        decide
      · exact begin_isMoving job s.tasks.length
    · rw [List.getElem?_append] at hi
      split at hi
      · exact h.held i moved left hi
      · rw [List.getElem?_singleton] at hi
        split at hi
        · have hfalse := begin_isMoving job s.tasks.length
          rw [Option.some.inj hi] at hfalse
          cases hfalse
        · cases hi
  · exact h

theorem Orderly.seek (h : job.Orderly s) (halone : Alone s (.seek block)) :
    job.Orderly (job.step s (.seek block)) := by
  rw [step]
  split
  · next bytes hblock =>
    have hlt := (List.getElem?_eq_some_iff.mp hblock).1
    rw [start_eq (Nat.lt_of_lt_of_le hlt h.count)]
    rw [positioned]
    refine h.hold (fun j u _ hu => halone u (List.mem_of_getElem? hu)) h.placed
      fun moved left heq => ?_
    obtain ⟨rfl, hleft⟩ := sought_moving heq
    exact ⟨hleft, rfl⟩
  · exact h

theorem Orderly.transfer (h : job.Orderly s) (bytes : Nat) :
    job.Orderly (job.step s (.transfer block bytes)) := by
  rw [step]
  split
  · next moved left hblock =>
    obtain ⟨-, hcursor⟩ := h.held block moved left hblock
    split
    · refine h.hold (h.others hblock rfl) (fun m hm => ?_) fun moved' left' heq => ?_
      · obtain rfl | hm := List.mem_cons.mp hm
        · exact hcursor
        · exact h.placed m hm
      · obtain ⟨rfl, rfl, hleft⟩ := rest_moving heq
        refine ⟨hleft, ?_⟩
        rw [hcursor, Nat.add_assoc]
    · exact h
  · exact h

theorem Orderly.step (h : job.Orderly s) {q : Step} (halone : Alone s q) :
    job.Orderly (job.step s q) := by
  cases q with
  | spawn => exact h.spawn
  | answer block bytes =>
    rw [Job.step]
    split
    · exact h.set rfl
    · exact h
  | seek block => exact h.seek halone
  | transfer block bytes => exact h.transfer bytes
  | send block =>
    rw [Job.step]
    split
    · exact h.set rfl
    · exact h
  | stop block =>
    rw [Job.step]
    split
    · exact h.set rfl
    · exact h

theorem orderly_opened (job : Job) (cursor : Nat) : job.Orderly (opened cursor) where
  placed _ hm := absurd hm List.not_mem_nil
  count := Nat.zero_le _
  alone _ _ _ _ _ hi := nomatch hi
  held _ _ _ hi := nomatch hi

theorem Orderly.run (h : job.Orderly s) {qs : List Step} (hqs : Along job.step Alone s qs) :
    job.Orderly (Kuintessence.run job.step s qs) :=
  run_invariant (fun _ _ h halone => h.step halone) h hqs

-- A seek between another task's seek and its transfer takes the cursor away from it.
theorem Orderly.misplaced (h : job.Orderly s) {other bytes moved left : Nat}
    (hblock : s.tasks[block]? = some (.ready bytes))
    (hother : s.tasks[other]? = some (.moving moved left))
    (hcursor : s.cursor ≠ block * job.blockLength) :
    ¬job.Placed (Kuintessence.run job.step s [.seek block, .transfer other 1]) := by
  obtain ⟨hleft, hheld⟩ := h.held other moved left hother
  have hlt := Nat.lt_of_lt_of_le (List.getElem?_eq_some_iff.mp hblock).1 h.count
  have hlt' := Nat.lt_of_lt_of_le (List.getElem?_eq_some_iff.mp hother).1 h.count
  have hne : block ≠ other := by
    rintro rfl
    cases hblock.symm.trans hother
  have hseek : job.step s (.seek block) =
      { s with cursor := block * job.blockLength, tasks := s.tasks.set block (job.sought bytes) } := by
    rw [Job.step, hblock]
    dsimp only
    rw [start_eq hlt, positioned]
  have hpos : 0 < job.fileLength := by
    refine Nat.pos_of_ne_zero fun hzero => hne ?_
    rw [(cut_of_zero hzero).2] at hlt hlt'
    omega
  have hallows : job.Allows (block * job.blockLength) 1 := .inr ((layout_of_pos hpos).start_lt hlt)
  have htransfer : (⟨other, moved, block * job.blockLength, 1⟩ : Move) ∈
      (Kuintessence.run job.step s [.seek block, .transfer other 1]).moves := by
    change _ ∈ (job.step (job.step s (.seek block)) (.transfer other 1)).moves
    rw [hseek, Job.step]
    dsimp only
    rw [List.getElem?_set_ne hne, hother]
    dsimp only
    rw [if_pos ⟨Nat.one_pos, hleft, hallows⟩]
    exact List.mem_cons_self
  intro hplaced
  have heq := hplaced _ htransfer
  exact hcursor (hheld.trans heq.symm)

end Steps

theorem blocks_placed (cursor : Nat) (qs : List Step)
    (hqs : Along job.step Alone (opened cursor) qs) :
    job.Placed (run job.step (opened cursor) qs) ∧
      ∀ (block other bytes moved left : Nat),
        (run job.step (opened cursor) qs).tasks[block]? = some (.ready bytes) →
        (run job.step (opened cursor) qs).tasks[other]? = some (.moving moved left) →
        (run job.step (opened cursor) qs).cursor ≠ block * job.blockLength →
        ∃ q, ¬job.Placed (run job.step (opened cursor) (qs ++ [.seek block, q])) := by
  have horderly := (orderly_opened job cursor).run hqs
  refine ⟨horderly.placed, fun block other bytes moved left hblock hother hcursor =>
    ⟨.transfer other 1, ?_⟩⟩
  rw [run_append]
  exact horderly.misplaced hblock hother hcursor

end Job

def fourBytes (direction : Direction) : Job where
  direction := direction
  checked := true
  maxBlockLength := 2
  fileLength := 4
  blockLength := 2
  blockCount := 2
  fits := by decide
  cut := by decide +kernel

def inTurn : List Step :=
  [.spawn, .spawn, .answer 1 2, .answer 0 2, .seek 1, .transfer 1 1, .transfer 1 1, .seek 0,
    .transfer 0 2]

theorem inTurn_placed : (fourBytes .download).Placed
    (run (fourBytes .download).step (Job.opened 0) inTurn) :=
  ((fourBytes .download).blocks_placed 0 inTurn (by decide +kernel)).1

-- Both seeks come before the first transfer.
theorem overlap_misplaced :
    ¬(fourBytes .download).Placed (run (fourBytes .download).step (Job.opened 0)
      [.spawn, .spawn, .answer 0 2, .answer 1 2, .seek 0, .seek 1, .transfer 0 2]) ∧
    ¬(fourBytes .upload).Placed (run (fourBytes .upload).step (Job.opened 4)
      [.spawn, .spawn, .seek 0, .seek 1, .transfer 0 1]) := by
  decide +kernel

end Transfer

end Kuintessence
