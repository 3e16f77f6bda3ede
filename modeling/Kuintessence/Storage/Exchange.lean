import Kuintessence.Storage.Undisturbed

namespace Kuintessence.Storage

structure TaskFile where
  metadataId : Uuid
  parentId : Uuid
  fileName : String
  content : Bytes
  deriving DecidableEq, Repr

inductive Delivery where
  | lost
  | unanswered
  | answered
  deriving DecidableEq, Repr

structure Reply where
  status : Nat
  content : Option PreparePartialUploadResponse
  deriving DecidableEq, Repr

inductive Payload where
  | json (nodeInstanceUuid fileMetadataId : Uuid) (r : PreparePartialUploadRequest)
  | form (fileMetadataId : Uuid) (nth : Nat) (bin : Bytes)
  deriving DecidableEq, Repr

-- The endpoint reads JSON only: a form is refused before the handler runs.
def servePrepare : Payload → Act Reply
  | .json nodeInstanceUuid fileMetadataId r => do
    let response ← r.fromNodeInstance nodeInstanceUuid fileMetadataId
    pure ⟨200, response⟩
  | .form _ _ _ => pure ⟨400, none⟩

namespace TaskFile

def hash (env : Env) (file : TaskFile) : String :=
  MultipartService.toUppercase (env.blake3 file.content)

def blocks (maxBlockLength fileLength : Nat) : Nat × Nat :=
  if maxBlockLength < fileLength then
    if fileLength % maxBlockLength ≠ 0 then (maxBlockLength, fileLength / maxBlockLength + 1)
    else (maxBlockLength, fileLength / maxBlockLength)
  else (fileLength, 1)

def preparePayload (env : Env) (blockSize : Nat) (file : TaskFile) : Payload :=
  .json file.parentId file.metadataId
    ⟨file.fileName, file.hash env, "blake3", file.content.length,
      (blocks blockSize file.content.length).2⟩

-- One byte short of its block; the subtraction underflows on an empty one.
def readBlock (blockSize : Nat) (file : TaskFile) (index : Nat) : Option Bytes :=
  let shape := blocks blockSize file.content.length
  let start := index * shape.1
  let length := if index = shape.2 - 1 then file.content.length - start else shape.1
  if length = 0 then none else some ((file.content.drop start).take (length - 1))

end TaskFile

-- `tries` counts the attempts left, for the request that prepares and then for each block.
inductive Phase where
  | preparing (tries : Nat)
  | sending (id : Uuid) (tries : List Nat)
  | completed
  | failed
  deriving DecidableEq, Repr

structure Exchange where
  depot : Depot
  phase : Phase

namespace Exchange

def retry : Nat → Phase
  | 0 => .failed
  | tries + 1 => .preparing (tries + 1)

-- The agent knows three of the four results.
def received (blockSize : Nat) (file : TaskFile) (response : PreparePartialUploadResponse) : Phase :=
  match response.result with
  | .conflictedId => .failed
  | .flashUpload => .completed
  | _ =>
    let count := (TaskFile.blocks blockSize file.content.length).2
    if (List.range count).all fun index => (file.readBlock blockSize index).isSome then
      .sending response.id (.replicate count 4)
    else .failed

def answered (blockSize : Nat) (file : TaskFile) (tries : Nat) : Outcome Exception Reply → Phase
  | .ok reply =>
    if 400 ≤ reply.status then retry tries
    else match reply.content with
      | none => .failed
      | some response => received blockSize file response
  | _ => retry tries

def prepare (env : Env) (blockSize : Nat) (file : TaskFile) (x : Exchange) (tries : Nat) :
    Delivery → Exchange
  | .lost => { x with phase := retry tries }
  | .unanswered =>
    ⟨(servePrepare (file.preparePayload env blockSize) env x.depot).2, retry tries⟩
  | .answered =>
    let out := servePrepare (file.preparePayload env blockSize) env x.depot
    ⟨out.2, answered blockSize file tries out.1⟩

-- The agent posts the blocks where it posted the preparation.
def postBlock (env : Env) (blockSize : Nat) (file : TaskFile) (x : Exchange) (id : Uuid)
    (index tries : Nat) : Delivery → Depot × Nat
  | .lost => (x.depot, tries)
  | .unanswered =>
    ((servePrepare (.form id index ((file.readBlock blockSize index).getD [])) env x.depot).2, tries)
  | .answered =>
    let out := servePrepare (.form id index ((file.readBlock blockSize index).getD [])) env x.depot
    match out.1 with
    | .ok reply => (out.2, if 400 ≤ reply.status then tries else 0)
    | _ => (out.2, tries)

inductive Label where
  | client (q : Request)
  | prepare (fate : Delivery)
  | block (index : Nat) (fate : Delivery)
  | finish
  deriving DecidableEq

-- A block that was never accepted does not keep the agent from completing the job.
def step (env : Env) (blockSize : Nat) (file : TaskFile) (x : Exchange) : Label → Exchange
  | .client q => { x with depot := Storage.step env x.depot q }
  | .prepare fate =>
    match x.phase with
    | .preparing (tries + 1) => x.prepare env blockSize file tries fate
    | _ => x
  | .block index fate =>
    match x.phase with
    | .sending id tries =>
      match tries[index]? with
      | some (n + 1) =>
        let out := x.postBlock env blockSize file id index n fate
        ⟨out.1, .sending id (tries.set index out.2)⟩
      | _ => x
    | _ => x
  | .finish =>
    match x.phase with
    | .sending _ tries => if tries.all (· == 0) then { x with phase := .completed } else x
    | _ => x

def start (d : Depot) : Exchange := ⟨d, .preparing 9⟩

def Label.handsIn (id : Uuid) : Label → Bool
  | .client q => q.handsIn id
  | _ => false

section Undisturbed

variable {id : Uuid} (env : Env) (blockSize : Nat) (file : TaskFile)

theorem keeps_servePrepare (payload : Payload) :
    Effect.Keeps (idFrame id) (servePrepare payload) := by
  cases payload with
  | json nodeInstanceUuid fileMetadataId r =>
    exact (keeps_fromNode _ _ _ r).bind fun _ => Effect.keeps_pure _
  | form fileMetadataId nth bin => exact Effect.keeps_pure _

theorem prepare_undisturbed (x : Exchange) (tries : Nat) (fate : Delivery) :
    Undisturbed id x.depot (x.prepare env blockSize file tries fate).depot := by
  cases fate with
  | lost => exact (idFrame id).refl x.depot
  | unanswered => exact keeps_servePrepare _ env x.depot
  | answered => exact keeps_servePrepare _ env x.depot

theorem postBlock_depot (x : Exchange) (target : Uuid) (index tries : Nat) (fate : Delivery) :
    (x.postBlock env blockSize file target index tries fate).1 = x.depot := by
  cases fate <;> rfl

theorem step_undisturbed (x : Exchange) {l : Label} (h : l.handsIn id = false) :
    Undisturbed id x.depot (x.step env blockSize file l).depot := by
  have hrefl := (idFrame id).refl x.depot
  cases l with
  | client q => exact Storage.step_undisturbed env x.depot h
  | prepare fate =>
    unfold step
    dsimp only
    split
    · exact prepare_undisturbed env blockSize file x _ fate
    · exact hrefl
  | block index fate =>
    unfold step
    dsimp only
    split
    · split
      · rw [postBlock_depot]
        exact hrefl
      · exact hrefl
    · exact hrefl
  | finish =>
    unfold step
    dsimp only
    split
    · split
      · exact hrefl
      · exact hrefl
    · exact hrefl

theorem run_undisturbed (d : Depot) {ls : List Label} (h : ∀ l ∈ ls, l.handsIn id = false) :
    Undisturbed id d (run (step env blockSize file) (start d) ls).depot := by
  have hstep : ∀ x l, Undisturbed id d x.depot → Label.handsIn id l = false →
      Undisturbed id d (step env blockSize file x l).depot :=
    fun x l hx hl => (idFrame id).trans hx (step_undisturbed env blockSize file x hl)
  have hstart : Undisturbed id d (start d).depot := (idFrame id).refl d
  exact run_invariant hstep hstart (Along.of_forall fun _ l hl => h l hl)

end Undisturbed

end Exchange

def Resolves (d : Depot) (id : Uuid) (hash : String) (size : Nat) : Prop :=
  ∃ row ∈ d.rowsOf id, row.hash = hash ∧ row.size = size

instance (d : Depot) (id : Uuid) (hash : String) (size : Nat) : Decidable (Resolves d id hash size) :=
  inferInstanceAs (Decidable (∃ row ∈ d.rowsOf id, row.hash = hash ∧ row.size = size))

section Samples

def outputFile : TaskFile := ⟨40, 41, "out", [49, 50, 51]⟩

def followed : List Exchange.Label :=
  [.prepare .answered, .block 0 .answered, .block 0 .answered, .block 0 .answered,
    .block 0 .answered, .finish, .client (.deliver ⟨500, 5⟩)]

def exchanged (d : Depot) (ls : List Exchange.Label) : Exchange :=
  run (Exchange.step upEnv 8 outputFile) (.start d) ls

def equalElsewhere : Depot :=
  { emptyDepot with metas := [⟨60, "same", outputFile.hash upEnv, .blake3, 3⟩] }

end Samples

end Kuintessence.Storage
