import Kuintessence.Lib.Pool
import Kuintessence.Storage.Keys

namespace Kuintessence.Storage

namespace MultipartService

def info (metaId : Uuid) : Act Multipart := do
  let found ← MultipartRepo.getOneByKeyRegex (idKeyRegex metaId)
  orFail "No such multipart" found

end MultipartService

namespace Creation

structure NewUpload where
  metaId : Uuid
  hash : String
  hashAlgorithm : HashAlgorithm
  count : Nat
  deriving DecidableEq, Repr

namespace NewUpload

def key (r : NewUpload) : String := MultipartService.idHashKey r.metaId r.hash

def multipart (r : NewUpload) : Multipart :=
  ⟨r.metaId, r.hash, r.hashAlgorithm, .replicate r.count false⟩

end NewUpload

inductive Access where
  | lookUpHash (r : NewUpload)
  | lookUpId (r : NewUpload)
  | insert (r : NewUpload)
  | other
  deriving DecidableEq, Repr

abbrev Steps (α : Type) := Prog Access Env Depot Exception α

def insert (r : NewUpload) : Steps Unit :=
  Prog.atom (.insert r) (MultipartRepo.write r.key r.multipart)

def checkId (r : NewUpload) : Steps Unit := do
  match ← Prog.atom (.lookUpId r)
    (MultipartRepo.getOneByKeyRegex (MultipartService.idKeyRegex r.metaId)) with
  | some _ => .done (.err (.conflictedId r.metaId))
  | none => insert r

def create (r : NewUpload) : Steps Unit := do
  match ← Prog.atom (.lookUpHash r)
    (MultipartRepo.getOneByKeyRegex (MultipartService.hashKeyRegex r.hash)) with
  | some el => .done (.err (.conflictedHash el.metaId r.hash))
  | none => checkId r

inductive Operation where
  | completePart (part : Part)
  | info (metaId : Uuid)
  | remove (metaId : Uuid)
  deriving DecidableEq, Repr

namespace Operation

def metaId : Operation → Uuid
  | .completePart part => part.metaId
  | .info metaId => metaId
  | .remove metaId => metaId

def act : Operation → Act Unit
  | .completePart part => do
    let _ ← MultipartService.completePart part
    pure ()
  | .info metaId => do
    let _ ← MultipartService.info metaId
    pure ()
  | .remove metaId => MultipartService.remove metaId

end Operation

inductive Job where
  | create (r : NewUpload)
  | operate (op : Operation)
  | expire (key : String)

namespace Job

def prog : Job → Steps Unit
  | .create r => Creation.create r
  | .operate op => Prog.atom .other op.act
  | .expire key =>
    Prog.atom .other (.modify fun d => { d with multiparts := deleteKeys d.multiparts [key] })

end Job

abbrev Calls := Pool Access Env Depot Exception

def start (env : Env) (job : Job) : Thread Access Env Depot Exception := ⟨env, job.prog⟩

def outcome (p : Calls) (i : Nat) : Option (Outcome Exception Unit) :=
  match p.threads[i]? with
  | some ⟨_, .done o⟩ => some o
  | _ => none

-- The calls one after another are the calls of the service.
theorem exec_create (r : NewUpload) :
    (create r).exec = MultipartService.create r.metaId r.hash r.hashAlgorithm r.count := by
  rw [create, Prog.exec_bind, Prog.exec_atom, MultipartService.create]
  congr 1
  funext found
  cases found with
  | some el => rfl
  | none =>
    dsimp only
    rw [checkId, Prog.exec_bind, Prog.exec_atom]
    congr 1
    funext found
    cases found with
    | some el => rfl
    | none => rfl

section Condition

-- The pattern of the hash finds that very hash only.
def Exact (d : Depot) (hash : String) : Prop :=
  hash.toList.all Glob.isPlain = true ∧
    ∀ e ∈ d.multiparts, ¬ '_' :: hash.toList <:+ e.2.hash.toList

def Access.clashes (r : NewUpload) : Access → Bool
  | .lookUpId r' | .insert r' => r'.metaId = r.metaId || r'.hash = r.hash
  | _ => false

-- No other creation of the id or the hash is between its checks and its insertion.
def Alone (p : Calls) (i : Nat) : Access → Prop
  | .lookUpHash r => Exact p.state r.hash ∧
      ∀ j < p.threads.length, j ≠ i → ∀ tag ∈ p.tag j, tag.clashes r = false
  | _ => True

def Serial (p : Calls) : Move Job → Prop
  | .spawn _ => True
  | .go i => ∀ tag ∈ p.tag i, Alone p i tag

instance (d : Depot) (hash : String) : Decidable (Exact d hash) :=
  inferInstanceAs (Decidable (hash.toList.all Glob.isPlain = true ∧
    ∀ e ∈ d.multiparts, ¬ '_' :: hash.toList <:+ e.2.hash.toList))

instance (p : Calls) (i : Nat) (tag : Access) : Decidable (Alone p i tag) :=
  match tag with
  | .lookUpHash r => inferInstanceAs (Decidable (Exact p.state r.hash ∧
      ∀ j < p.threads.length, j ≠ i → ∀ tag ∈ p.tag j, tag.clashes r = false))
  | .lookUpId _ | .insert _ | .other => .isTrue trivial

instance (p : Calls) (move : Move Job) : Decidable (Serial p move) :=
  match move with
  | .spawn _ => .isTrue trivial
  | .go i => inferInstanceAs (Decidable (∀ tag ∈ p.tag i, Alone p i tag))

end Condition

-- What an operation on the id does to the records.
structure Touches (id : Uuid) (s t : Depot) : Prop where
  others : ∀ e : String × Multipart, e.2.metaId ≠ id → (e ∈ t.multiparts ↔ e ∈ s.multiparts)
  own : ∀ e ∈ t.multiparts, e.2.metaId = id →
    ∃ e' ∈ s.multiparts, e'.1 = e.1 ∧ e'.2.metaId = id ∧ e'.2.hash = e.2.hash

structure Exclusive (p : Calls) : Prop where
  ids : ∀ e ∈ p.state.multiparts, ∀ e' ∈ p.state.multiparts, e.2.metaId = e'.2.metaId → e = e'
  hashes : ∀ e ∈ p.state.multiparts, ∀ e' ∈ p.state.multiparts, e.2.hash = e'.2.hash → e = e'
  conflictedHash : ∀ i r, p.tag i = some (.lookUpHash r) → Serial p (.go i) →
    ((∃ id, outcome (p.go i) i = some (.err (.conflictedHash id r.hash))) ↔
      ∃ e ∈ p.state.multiparts, e.2.hash = r.hash)
  conflictedId : ∀ i r, p.tag i = some (.lookUpId r) →
    (outcome (p.go i) i = some (.err (.conflictedId r.metaId)) ↔
      ∃ e ∈ p.state.multiparts, e.2.metaId = r.metaId)
  own : ∀ env (op : Operation), Touches op.metaId p.state (op.act env p.state).2
  info : ∀ env id m, (MultipartService.info id env p.state).1 = .ok m →
    ∃ e ∈ p.state.multiparts, e.2 = m ∧ m.metaId = id
  removed : ∀ env id, (MultipartService.remove id env p.state).1 = .ok () →
    ∀ e ∈ (MultipartService.remove id env p.state).2.multiparts, e.2.metaId ≠ id

end Creation

end Kuintessence.Storage
