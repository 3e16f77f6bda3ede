import Kuintessence.Billing.Pricing
import Kuintessence.Lib.Phases
import Kuintessence.Model.Common

namespace Kuintessence.Billing

namespace Decimal

-- Half of a unit goes away from zero.
def roundDiv (m : Int) (k : Nat) : Int := m.sign * ((m.natAbs + k / 2) / k : Nat)

def rescale (d : Decimal) (scale : Nat) : Decimal :=
  if d.scale ≤ scale then ⟨d.mantissa * 10 ^ (scale - d.scale), scale⟩
  else ⟨roundDiv d.mantissa (10 ^ (d.scale - scale)), scale⟩

def add (a b : Decimal) : Decimal :=
  let scale := max a.scale b.scale
  ⟨(a.rescale scale).mantissa + (b.rescale scale).mantissa, scale⟩

-- What a column `Decimal(precision, scale)` keeps of a number.
def column (precision scale : Nat) (d : Decimal) : Option Decimal :=
  if (d.rescale scale).mantissa.natAbs < 10 ^ precision then some (d.rescale scale) else none

end Decimal

structure NodeInstance where
  id : Uuid
  flowId : Uuid
  resourceMeter : TaskUsedResource
  clusterId : Uuid
  deriving DecidableEq, Repr

structure FlowInstance where
  id : Uuid
  userId : Uuid
  deriving DecidableEq, Repr

structure Usage where
  cpu : Int64
  memory : Int64
  storage : Int64
  cpuTime : Int64
  wallTime : Int64
  deriving DecidableEq, Repr

namespace Usage

def zero : Usage := ⟨0, 0, 0, 0, 0⟩

def add (u v : Usage) : Usage :=
  ⟨u.cpu + v.cpu, u.memory + v.memory, u.storage + v.storage, u.cpuTime + v.cpuTime,
    u.wallTime + v.wallTime⟩

def fits (a b : Int64) : Prop := -2 ^ 63 ≤ a.toInt + b.toInt ∧ a.toInt + b.toInt < 2 ^ 63

def Fits (u v : Usage) : Prop :=
  fits u.cpu v.cpu ∧ fits u.memory v.memory ∧ fits u.storage v.storage ∧
    fits u.cpuTime v.cpuTime ∧ fits u.wallTime v.wallTime

instance (a b : Int64) : Decidable (fits a b) :=
  inferInstanceAs (Decidable (-2 ^ 63 ≤ a.toInt + b.toInt ∧ a.toInt + b.toInt < 2 ^ 63))

instance (u v : Usage) : Decidable (u.Fits v) :=
  inferInstanceAs (Decidable (fits u.cpu v.cpu ∧ fits u.memory v.memory ∧
    fits u.storage v.storage ∧ fits u.cpuTime v.cpuTime ∧ fits u.wallTime v.wallTime))

end Usage

structure FlowInstanceBilling extends Usage where
  id : Uuid
  flowInstanceId : Uuid
  totalPrice : Decimal
  userId : Uuid
  deriving DecidableEq, Repr

structure NodeInstanceBilling extends Usage where
  id : Uuid
  nodeInstanceId : Uuid
  flowInstanceId : Uuid
  price : Decimal
  formula : List (String × String)
  deriving DecidableEq, Repr

-- Debug builds panic where release builds wrap around.
def FlowInstanceBilling.addUp (checked : Bool) (b : FlowInstanceBilling) (n : NodeInstanceBilling) :
    Outcome String FlowInstanceBilling :=
  if checked = true ∧ ¬b.toUsage.Fits n.toUsage then .panic
  else .ok { b with toUsage := b.toUsage.add n.toUsage, totalPrice := b.totalPrice.add n.price }

namespace Recording

inductive Answer where
  | arrived
  | refused
  | lost
  deriving DecidableEq, Repr

structure Books where
  flowBills : List FlowInstanceBilling
  nodeBills : List NodeInstanceBilling
  sent : List (Uuid × FlowInstanceBilling × List NodeInstanceBilling)
  ids : Nat → Uuid
  calls : Nat

-- What the other tables hold may differ from one call to the next.
structure Env where
  answer : Nat → Answer
  nodeInstance : Nat → Uuid → Option NodeInstance
  flowInstance : Nat → Uuid → Option FlowInstance
  settings : Nat → Uuid → Option ClusterIdSettings

abbrev Act (α : Type) := Effect Env Books String α

inductive Access where
  | readBill (n : NodeInstanceBilling)
  | openBill (n : NodeInstanceBilling)
  | insertNode (n : NodeInstanceBilling)
  | save (n : NodeInstanceBilling)
  | other
  deriving DecidableEq, Repr

abbrev Steps (α : Type) := Prog Access Env Books String α

-- A request may be refused, or its answer may be lost on the way back.
def call {α : Type} (m : Act α) : Act α := do
  let env ← .read
  let d ← .get
  .modify fun d => { d with calls := d.calls + 1 }
  match env.answer d.calls with
  | .arrived => m
  | .refused => .throw "connection refused"
  | .lost => do
    let _ ← m
    .throw "connection lost"

def orFail {α : Type} (message : String) : Option α → Act α
  | some a => pure a
  | none => .throw message

def newV4 : Act Uuid := do
  let d ← .get
  .modify fun d => { d with ids := fun n => d.ids (n + 1) }
  pure (d.ids 0)

def NodeInstanceRepo.getById (id : Uuid) : Act NodeInstance := call do
  let env ← .read
  let d ← .get
  orFail "No such Node Instance" (env.nodeInstance d.calls id)

def FlowInstanceRepo.getById (id : Uuid) : Act FlowInstance := call do
  let env ← .read
  let d ← .get
  orFail "No such Flow Instance" (env.flowInstance d.calls id)

def ClusterIdSettingsRepo.getByClusterId (id : Uuid) : Act ClusterIdSettings := call do
  let env ← .read
  let d ← .get
  orFail "No such cluster" (env.settings d.calls id)

namespace FlowBillRepo

def find (d : Books) (flowInstanceId : Uuid) : Option FlowInstanceBilling :=
  (d.flowBills.find? (·.flowInstanceId = flowInstanceId)).map
    fun b => { b with totalPrice := b.totalPrice.rescale 2 }

def getByFlowInstanceId (flowInstanceId : Uuid) : Act FlowInstanceBilling := call do
  let d ← .get
  orFail "No such Flow Instence" (find d flowInstanceId)

def clashes (d : Books) (b : FlowInstanceBilling) : Bool :=
  d.flowBills.any fun e => e.flowInstanceId = b.flowInstanceId || e.id = b.id

def insertRow (b : FlowInstanceBilling) : Act FlowInstanceBilling := do
  let d ← .get
  let totalPrice ← orFail "numeric field overflow" (b.totalPrice.column 12 2)
  if clashes d b then .throw "None of the records are inserted" else do
    .modify fun d => { d with flowBills := d.flowBills ++ [{ b with totalPrice := totalPrice }] }
    pure b

def insert (b : FlowInstanceBilling) : Act FlowInstanceBilling := call (insertRow b)

def overwrite (d : Books) (b : FlowInstanceBilling) : List FlowInstanceBilling :=
  d.flowBills.map fun e =>
    if e.id = b.id then { e with toUsage := b.toUsage, totalPrice := b.totalPrice } else e

-- `insert_or_update` queues the statement that `save_changed` executes in a transaction.
def execute (b : FlowInstanceBilling) : Act Unit := do
  let d ← .get
  let totalPrice ← orFail "numeric field overflow" (b.totalPrice.column 12 2)
  let b := { b with totalPrice := totalPrice }
  if d.flowBills.any (·.id = b.id) then .modify fun d => { d with flowBills := overwrite d b }
  else if clashes d b then .throw "duplicate key value violates unique constraint"
  else .modify fun d => { d with flowBills := d.flowBills ++ [b] }

def insertOrUpdateAndSave (b : FlowInstanceBilling) : Act Unit := call (execute b)

end FlowBillRepo

namespace NodeBillRepo

def clashes (d : Books) (b : NodeInstanceBilling) : Bool :=
  d.nodeBills.any fun e => e.nodeInstanceId = b.nodeInstanceId || e.id = b.id

def insertRow (b : NodeInstanceBilling) : Act NodeInstanceBilling := do
  let d ← .get
  let price ← orFail "numeric field overflow" (b.price.column 20 10)
  if clashes d b then .throw "None of the records are inserted" else do
    .modify fun d => { d with nodeBills := d.nodeBills ++ [{ b with price := price }] }
    pure b

def insert (b : NodeInstanceBilling) : Act NodeInstanceBilling := call (insertRow b)

def getAllByFlowInstanceId (flowInstanceId : Uuid) : Act (List NodeInstanceBilling) := call do
  let d ← .get
  pure ((d.nodeBills.filter (·.flowInstanceId = flowInstanceId)).map
    fun b => { b with price := b.price.rescale 2 })

end NodeBillRepo

def UserWebhookService.sendMessage (userId : Uuid) (b : FlowInstanceBilling)
    (ns : List NodeInstanceBilling) : Act Unit :=
  call (.modify fun d => { d with sent := d.sent ++ [(userId, b, ns)] })

def report (userId flowInstanceId : Uuid) : Steps Unit := do
  let flowBill ← Prog.atom .other (FlowBillRepo.getByFlowInstanceId flowInstanceId)
  let nodeBills ← Prog.atom .other (NodeBillRepo.getAllByFlowInstanceId flowInstanceId)
  Prog.atom .other (UserWebhookService.sendMessage userId flowBill nodeBills)

def openBill (userId flowInstanceId : Uuid) : Act FlowInstanceBilling := do
  let id ← newV4
  FlowBillRepo.insert ⟨.zero, id, flowInstanceId, ⟨0, 0⟩, userId⟩

def flowBillFor (userId : Uuid) (n : NodeInstanceBilling) : Steps FlowInstanceBilling := do
  match ← Prog.attempt (Prog.atom (.readBill n)
    (FlowBillRepo.getByFlowInstanceId n.flowInstanceId)) with
  | .ok el => pure el
  | .error _ => Prog.atom (.openBill n) (openBill userId n.flowInstanceId)

def charge (checked : Bool) (userId : Uuid) (n : NodeInstanceBilling) : Steps Unit := do
  let flowBill ← flowBillFor userId n
  let flowBill ← Prog.done (flowBill.addUp checked n)
  let _ ← Prog.atom (.insertNode n) (NodeBillRepo.insert n)
  Prog.atom (.save n) (FlowBillRepo.insertOrUpdateAndSave flowBill)
  report userId n.flowInstanceId

section Service

variable {F : Type} {mentions : String → List String} (fl : Floats F) (ev : Evaluator F mentions)
  (checked : Bool)

def metered (meter : TaskUsedResource) : Usage :=
  ⟨fl.toI64 (fl.ofU64 meter.cpu), fl.toI64 (fl.ofU64 meter.maxMemory),
    fl.toI64 (fl.ofU64 meter.storage), fl.toI64 (fl.ofU64 meter.cpuTime),
    fl.toI64 (fl.ofU64 meter.wallTime)⟩

def recordBill (nodeInstanceId : Uuid) : Steps Unit := do
  let nodeInstance ← Prog.atom .other (NodeInstanceRepo.getById nodeInstanceId)
  let flowInstance ← Prog.atom .other (FlowInstanceRepo.getById nodeInstance.flowId)
  let settings ← Prog.atom .other (ClusterIdSettingsRepo.getByClusterId nodeInstance.clusterId)
  let priced ← Prog.done (calculate fl ev nodeInstance.resourceMeter settings)
  let id ← Prog.atom .other newV4
  charge checked flowInstance.userId
    ⟨metered fl nodeInstance.resourceMeter, id, nodeInstanceId, nodeInstance.flowId, priced.1,
      priced.2⟩

abbrev Calls := Pool Access Env Books String

def start (env : Env) (nodeInstanceId : Uuid) : Thread Access Env Books String :=
  ⟨env, recordBill fl ev checked nodeInstanceId⟩

end Service

end Recording

end Kuintessence.Billing
