import Kuintessence.Lib.Phases
import Kuintessence.Storage.Depot

namespace Kuintessence.Realtime

structure ViewRealtimeCommand where
  reqId : Uuid
  nodeId : Uuid
  metaId : Uuid
  startRow : Int
  rowsPerPage : Int
  regex : String
  deriving DecidableEq, Repr

structure WsReqInfo where
  requestId : Uuid
  clientId : Uuid
  deriving DecidableEq, Repr

structure Delivery where
  answered : Nat
  clientId : Uuid
  content : String
  deriving DecidableEq, Repr

-- `commands` are those the agents were sent, each with the client that asked for it.
structure Board where
  infos : List (String × WsReqInfo)
  commands : List (Uuid × ViewRealtimeCommand)
  deliveries : List Delivery
  ids : Nat → Uuid
  calls : Nat

structure Env where
  fails : Nat → Bool
  keys : Nat → Order String

abbrev Act (α : Type) := Effect Env Board String α

inductive Access where
  | send (clientId : Uuid) (cmd : ViewRealtimeCommand)
  | take (answered : Nat)
  | lookUp (answered : Nat)
  | other
  deriving DecidableEq, Repr

abbrev Steps (α : Type) := Prog Access Env Board String α

def call : Act Nat := do
  let env ← .read
  let s ← .get
  .modify (fun s => { s with calls := s.calls + 1 })
  if env.fails s.calls then .throw "external call failed" else pure s.calls

def orFail {α : Type} (message : String) : Option α → Act α
  | some a => pure a
  | none => .throw message

def key (reqId clientId : Uuid) : String :=
  Storage.uuidText reqId ++ "_" ++ Storage.uuidText clientId

def reqIdKeyRegex (reqId : Uuid) : String := Storage.uuidText reqId ++ "_" ++ "*"

def clientIdKeyRegex (clientId : Uuid) : String := "*_" ++ Storage.uuidText clientId

def sendObject (clientId : Uuid) (cmd : ViewRealtimeCommand) : Act Unit := do
  let _ ← call
  .modify (fun s => { s with commands := s.commands ++ [(clientId, cmd)] })

def newV4 : Act Uuid := do
  let s ← .get
  .modify (fun s => { s with ids := fun n => s.ids (n + 1) })
  pure (s.ids 0)

def sendContentToSession (delivery : Delivery) : Act Unit := do
  let _ ← call
  .modify (fun s => { s with deliveries := s.deliveries ++ [delivery] })

namespace WsReqInfoRepo

def queryKeys (regex : String) : Act (List String) := do
  let env ← .read
  let k ← call
  let s ← .get
  pure ((env.keys k).on ((Assoc.keys s.infos).filter (glob regex)))

def get (key : String) : Act WsReqInfo := do
  let _ ← call
  let s ← .get
  orFail "response is nil" (Assoc.get s.infos key)

def insertWithLease (key : String) (entity : WsReqInfo) : Act Unit := do
  let _ ← call
  .modify (fun s => { s with infos := Assoc.insert s.infos key entity })

-- `DEL` without a key is an error.
def del (keys : List String) : Act Unit := do
  let _ ← call
  if keys.isEmpty then .throw "wrong number of arguments for 'del' command"
  else .modify (fun s => { s with infos := Storage.deleteKeys s.infos keys })

def getOneByKeyRegex (answered : Nat) (regex : String) : Steps (Option WsReqInfo) := do
  let keys ← Prog.atom (.lookUp answered) (queryKeys regex)
  match keys.head? with
  | none => pure none
  | some key => do
    let info ← Prog.atom (.lookUp answered) (get key)
    pure (some info)

def deleteAllByKeyRegex (regex : String) : Steps Unit := do
  let keys ← Prog.atom .other (queryKeys regex)
  Prog.atom .other (del keys)

end WsReqInfoRepo

namespace RealtimeService

def nameRequest (cmd : ViewRealtimeCommand) : Steps Uuid :=
  if cmd.reqId = 0 then Prog.atom .other newV4 else pure cmd.reqId

def requestRealtimeFile (clientId : Uuid) (cmd : ViewRealtimeCommand) : Steps Unit := do
  Prog.atom (.send clientId cmd) (sendObject clientId cmd)
  let reqId ← nameRequest cmd
  Prog.atom .other (WsReqInfoRepo.insertWithLease (key reqId clientId) ⟨reqId, clientId⟩)

def getClientId (answered : Nat) (requestId : Uuid) : Steps Uuid := do
  match ← WsReqInfoRepo.getOneByKeyRegex answered (reqIdKeyRegex requestId) with
  | none => .done (.err "No such req id")
  | some info => pure info.clientId

def sendRealtime (answered : Nat) (requestId : Uuid) (fileContent : String) : Steps Unit := do
  let clientId ← getClientId answered requestId
  Prog.atom .other (sendContentToSession ⟨answered, clientId, fileContent⟩)

end RealtimeService

-- The agent that was sent the command of that number answers it.
def answer (answered : Nat) (content : String) : Steps Unit := do
  match ← Prog.atom (.take answered) (do let s ← .get; pure s.commands[answered]?) with
  | none => pure ()
  | some (_, cmd) => RealtimeService.sendRealtime answered cmd.reqId content

def expire (key : String) : Steps Unit :=
  Prog.atom .other (.modify fun s => { s with infos := Storage.deleteKeys s.infos [key] })

inductive Job where
  | request (clientId : Uuid) (cmd : ViewRealtimeCommand)
  | answer (answered : Nat) (content : String)
  | closeSession (clientId : Uuid)
  | expire (key : String)

namespace Job

def prog : Job → Steps Unit
  | .request clientId cmd => RealtimeService.requestRealtimeFile clientId cmd
  | .answer answered content => Realtime.answer answered content
  | .closeSession clientId => WsReqInfoRepo.deleteAllByKeyRegex (clientIdKeyRegex clientId)
  | .expire key => Realtime.expire key

end Job

abbrev Calls := Pool Access Env Board String

def start (env : Env) (job : Job) : Thread Access Env Board String := ⟨env, job.prog⟩

def empty (ids : Nat → Uuid) : Calls := ⟨⟨[], [], [], ids, 0⟩, []⟩

end Kuintessence.Realtime
