import Kuintessence.Lib.Decimal
import Kuintessence.Lib.Effect
import Kuintessence.Lib.Machine
import Kuintessence.Lib.Text
import Kuintessence.Protocol.Task
import Kuintessence.Transfer.Download

namespace Kuintessence.Ranges

open Transfer (Bytes slice)

structure Range where
  start : UInt64
  stop : UInt64
  deriving DecidableEq, Repr

def Range.text (range : Range) : List Char :=
  Nat.toDigits 10 range.start.toNat ++ '-' :: Nat.toDigits 10 range.stop.toNat

structure StorageServer where
  id : Uuid
  defaultBucket : String
  deriving DecidableEq, Repr

-- The answers of what the service asks, by the number of the call. A range is the text of its header.
structure Env where
  uuid : Protocol.UuidText
  checked : Bool
  defaultFileStorageServer : Nat → Except String StorageServer
  getObject : Nat → (bucket key : String) → Option (List Char) → Except String (Option Bytes)
  headObject : Nat → (bucket key : String) → Except String (Option Int64)

abbrev Act := Effect Env Nat String

def call {α : Type} (ask : Env → Nat → Except String α) : Act α := do
  let env ← Effect.read
  let n ← Effect.get
  Effect.modify (· + 1)
  Effect.lift (Outcome.ofExcept (ask env n))

namespace MinioServerBrokerService

def key (uuid : Protocol.UuidText) (storageServer : StorageServer) (metaId : Uuid) : String :=
  "storage-" ++ uuid.text storageServer.id ++ "/" ++ uuid.text metaId

def rangeHeader (range : Range) : List Char := "bytes=".toList ++ range.text

def getContent (storageServer : StorageServer) (metaId : Uuid) (range : Option Range) :
    Act Bytes := do
  let output ← call fun env n => env.getObject n storageServer.defaultBucket
    (key env.uuid storageServer metaId) (range.map rangeHeader)
  match output with
  | some bytes => pure bytes
  | none => Effect.throw "return empty body!"

def rangelyGetFile (storageServer : StorageServer) (metaId : Uuid) (range : List Range) :
    Act (List Bytes) := Effect.mapEach (fun r => getContent storageServer metaId (some r)) range

def getFileSize (storageServer : StorageServer) (metaId : Uuid) : Act UInt64 := do
  let output ← call fun env n => env.headObject n storageServer.defaultBucket
    (key env.uuid storageServer metaId)
  match output with
  | some contentLength => pure contentLength.toUInt64
  | none => Effect.throw "No Content Length."

def getBytes (storageServer : StorageServer) (metaId : Uuid) : Act Bytes :=
  getContent storageServer metaId none

end MinioServerBrokerService

namespace StorageServerDownloadDispatcherService

def getBytes (metaId : Uuid) : Act Bytes := do
  let storageServer ← call Env.defaultFileStorageServer
  MinioServerBrokerService.getBytes storageServer metaId

def rangelyGetFile (metaId : Uuid) (ranges : List Range) : Act (List Bytes) := do
  let storageServer ← call Env.defaultFileStorageServer
  MinioServerBrokerService.rangelyGetFile storageServer metaId ranges

def getFileSize (metaId : Uuid) : Act UInt64 := do
  let storageServer ← call Env.defaultFileStorageServer
  MinioServerBrokerService.getFileSize storageServer metaId

end StorageServerDownloadDispatcherService

-- The bytes that go out for a range, and the size its `Content-Range` gives.
structure Part where
  range : Range
  size : UInt64
  bytes : Bytes
  deriving DecidableEq, Repr

def contentRange (range : Range) (size : UInt64) : List Char :=
  "bytes ".toList ++ range.text ++ '/' :: Nat.toDigits 10 size.toNat

inductive HttpResponse where
  | failed (status : Nat) (body : String)
  | ok (body : Bytes)
  | single (part : Part) (contentSize : Nat)
  | multipart (id : String) (parts : List Part) (contentLength : UInt64)
  deriving DecidableEq, Repr

def utf8 (text : List Char) : Bytes := (String.ofList text).toUTF8.data.toList

def payloadHead (id : String) (range : Range) (size : UInt64) : Bytes :=
  utf8 ("--".toList ++ id.toList ++ "\nContent-Type: application/octet-stream\nContent-Range: ".toList ++
    contentRange range size ++ ['\n'])

def payloadTail (id : String) : Bytes := utf8 ("\n--".toList ++ id.toList ++ ['\n'])

-- `count` parts are still to be sent.
def serverEvents (id : String) : Nat → List Part → List Bytes
  | _, [] => []
  | count, part :: map =>
    let count := count - 1
    let payload := payloadHead id part.range part.size ++ part.bytes ++ utf8 ['\n']
    (if count = 0 then payload ++ payloadTail id else payload) :: serverEvents id count map

namespace HttpResponse

def status : HttpResponse → Nat
  | .failed status _ => status
  | .ok _ => 200
  | .single _ _ => 206
  | .multipart _ _ _ => 206

def headers : HttpResponse → List (String × List Char)
  | .failed _ _ => []
  | .ok _ => []
  | .single part contentSize => [("Content-Type", "application/octet-stream".toList),
      ("CONTENT-RANGE", contentRange part.range part.size), ("CONTENT-SIZE", Nat.toDigits 10 contentSize)]
  | .multipart id _ contentLength =>
      [("Content-Type", "multipart/byteranges; boundary=".toList ++ id.toList),
        ("CONTENT-LENGTH", Nat.toDigits 10 contentLength.toNat)]

-- What is sent, piece by piece.
def chunks : HttpResponse → List Bytes
  | .failed _ body => [utf8 body.toList]
  | .ok body => [body]
  | .single part _ => [part.bytes]
  | .multipart id parts _ => serverEvents id parts.length parts

end HttpResponse

def parseRange (range : List Char) : Option Range :=
  match range.splitOn '-' with
  | start :: stop :: _ => do
    let start ← Decimal.unsigned 64 start
    let stop ← Decimal.unsigned 64 stop
    some ⟨.ofNat start, .ofNat stop⟩
  | _ => none

-- The ranges after `bytes=`.
def newRanges (ranges : List Char) : Option (List Range) := do
  let ranges ← Decimal.strip "bytes=".toList ranges
  (Text.splitAll [',', ' '] ranges).mapM parseRange

def partialContent (checked : Bool) (id : String) (size : UInt64) (map : List (Range × Bytes)) :
    Outcome String HttpResponse :=
  if map.length = 1 then do
    let (range, body) ← .unwrap map.head?
    let span ← u64 checked ((range.stop.toNat : Int) - range.start.toNat)
    let contentSize ← u64 checked ((span + 1 : Nat) : Int)
    .ok (.single ⟨range, size, body⟩ contentSize)
  else .ok (.multipart id (map.map fun m => ⟨m.1, size, m.2⟩) size)

def invalidRange : HttpResponse := .failed 400 "RANGE header is invalid"

def internalServerError : HttpResponse := .failed 500 ""

def answerWhole (id : Uuid) : Act HttpResponse := do
  match ← Effect.attempt (StorageServerDownloadDispatcherService.getBytes id) with
  | .ok x => pure (.ok x)
  | .error _ => pure internalServerError

def answerSized (id : Uuid) (newRanges : List Range) (results : List Bytes) : Act HttpResponse := do
  let env ← Effect.read
  match ← Effect.attempt (StorageServerDownloadDispatcherService.getFileSize id) with
  | .ok size =>
    Effect.lift (partialContent env.checked (env.uuid.text id) size (newRanges.zip results))
  | .error _ => pure internalServerError

def answerRanges (id : Uuid) (newRanges : List Range) : Act HttpResponse := do
  match ← Effect.attempt (StorageServerDownloadDispatcherService.rangelyGetFile id newRanges) with
  | .ok results => answerSized id newRanges results
  | .error _ => pure internalServerError

def answerParsed (id : Uuid) : Option (List Range) → Act HttpResponse
  | none => pure invalidRange
  | some newRanges => answerRanges id newRanges

-- The second argument is what the request has under `Range`, read as a text.
def answer : Option Uuid → Option (Except String (List Char)) → Act HttpResponse
  | none, _ => pure internalServerError
  | some id, none => answerWhole id
  | some _, some (.error _) => pure invalidRange
  | some id, some (.ok ranges) => answerParsed id (newRanges ranges)

def getRangelyDownloadFile (id : String) (header : Option (Except String (List Char))) :
    Act HttpResponse := do
  let env ← Effect.read
  answer (env.uuid.parse id) header

open MinioServerBrokerService (key rangeHeader)

-- A range is cut at the end of the file; one that ends before it starts is ignored.
def served (file : Bytes) (range : Range) : Bytes :=
  if range.stop < range.start then file else slice file range.start.toNat range.stop.toNat

structure Stores (env : Env) (metaId : Uuid) (file : Bytes) : Prop where
  whole : ∀ k n server body, env.defaultFileStorageServer k = .ok server →
    env.getObject n server.defaultBucket (key env.uuid server metaId) none = .ok (some body) →
      body = file
  ranged : ∀ k n server range body, env.defaultFileStorageServer k = .ok server →
    env.getObject n server.defaultBucket (key env.uuid server metaId) (some (rangeHeader range)) =
      .ok (some body) → body = served file range
  size : ∀ k n server length, env.defaultFileStorageServer k = .ok server →
    env.headObject n server.defaultBucket (key env.uuid server metaId) = .ok (some length) →
      length.toInt = file.length

structure Part.Exact (file : Bytes) (part : Part) : Prop where
  size : part.size.toNat = file.length
  ordered : part.range.start ≤ part.range.stop
  inside : part.range.stop.toNat < file.length
  bytes : part.bytes = slice file part.range.start.toNat part.range.stop.toNat

def HttpResponse.Sound (file : Bytes) (requested : List Range) : HttpResponse → Prop
  | .failed status _ => 400 ≤ status
  | .ok body => body = file
  | .single part contentSize =>
    requested = [part.range] ∧ part.Exact file ∧ contentSize = part.bytes.length
  | .multipart id parts contentLength =>
    requested = parts.map Part.range ∧ (∀ part ∈ parts, part.Exact file) ∧
      contentLength.toNat = (HttpResponse.multipart id parts contentLength).chunks.flatten.length

def Sound (file : Bytes) (requested : List Range) (answer : Outcome String HttpResponse) : Prop :=
  ∃ response, answer = .ok response ∧ response.Sound file requested

def requested : Option (Except String (List Char)) → Option (List Range)
  | some (.ok ranges) => newRanges ranges
  | _ => none

-- The store has an answer for each of the ranges.
def Answers (env : Env) (server : StorageServer) (metaId : Uuid) : Nat → List Range → Prop
  | _, [] => True
  | n, range :: ranges =>
    (∃ body, env.getObject n server.defaultBucket (key env.uuid server metaId)
      (some (rangeHeader range)) = .ok (some body)) ∧ Answers env server metaId (n + 1) ranges

def Available (env : Env) (metaId : Uuid) (n : Nat) (ranges : List Range) : Prop :=
  ∃ server server' length, env.defaultFileStorageServer n = .ok server ∧
    Answers env server metaId (n + 1) ranges ∧
    env.defaultFileStorageServer (n + 1 + ranges.length) = .ok server' ∧
    env.headObject (n + 1 + ranges.length + 1) server'.defaultBucket (key env.uuid server' metaId) =
      .ok (some length)

-- What several parts come to, with the texts around them.
def multipartLength (id : String) (size : Nat) (ranges : List Range) : Nat :=
  (ranges.map fun range => (payloadHead id range (.ofNat size)).length +
    (range.stop.toNat + 1 - range.start.toNat) + (utf8 ['\n']).length).sum + (payloadTail id).length

def Deliverable (id : String) (file : Bytes) (ranges : List Range) : Prop :=
  (∀ range ∈ ranges, range.start ≤ range.stop ∧ range.stop.toNat < file.length) ∧
    (ranges.length = 1 ∨ multipartLength id file.length ranges = file.length)

section Asking

variable {env : Env} {n n' : Nat} {metaId : Uuid} {file : Bytes} {server : StorageServer}
variable {range : Range} {ranges : List Range}

theorem call_ok_iff {α : Type} {ask : Env → Nat → Except String α} {a : α} :
    call ask env n = (.ok a, n') ↔ ask env n = .ok a ∧ n' = n + 1 := by
  change (Outcome.ofExcept (ask env n), n + 1) = _ ↔ _
  rw [Prod.mk.injEq, Outcome.ofExcept_ok_iff, @eq_comm _ (n + 1)]

theorem panicless_call {α : Type} (ask : Env → Nat → Except String α) : Effect.Panicless (call ask) :=
  fun env n => Outcome.ofExcept_ne_panic (ask env n)

theorem panicless_getContent (server : StorageServer) (metaId : Uuid) (range : Option Range) :
    Effect.Panicless (MinioServerBrokerService.getContent server metaId range) := by
  refine (panicless_call _).bind fun output => ?_
  cases output with
  | some bytes => exact Effect.panicless_pure bytes
  | none => exact Effect.panicless_throw _

theorem panicless_getBytes (metaId : Uuid) :
    Effect.Panicless (StorageServerDownloadDispatcherService.getBytes metaId) :=
  (panicless_call _).bind fun server => panicless_getContent server metaId none

theorem panicless_rangelyGetFile (metaId : Uuid) (ranges : List Range) :
    Effect.Panicless (StorageServerDownloadDispatcherService.rangelyGetFile metaId ranges) :=
  (panicless_call _).bind fun server =>
    Effect.Panicless.mapEach (fun range => panicless_getContent server metaId (some range)) ranges

theorem panicless_getFileSize (metaId : Uuid) :
    Effect.Panicless (StorageServerDownloadDispatcherService.getFileSize metaId) := by
  refine (panicless_call _).bind fun server => (panicless_call _).bind fun output => ?_
  cases output with
  | some contentLength => exact Effect.panicless_pure _
  | none => exact Effect.panicless_throw _

theorem getContent_ok_iff {range : Option Range} {body : Bytes} :
    MinioServerBrokerService.getContent server metaId range env n = (.ok body, n') ↔
      env.getObject n server.defaultBucket (key env.uuid server metaId) (range.map rangeHeader) =
        .ok (some body) ∧ n' = n + 1 := by
  rw [MinioServerBrokerService.getContent, Effect.bound_ok_iff]
  constructor
  · rintro ⟨output, m, hcall, h⟩
    obtain ⟨hget, rfl⟩ := call_ok_iff.mp hcall
    cases output with
    | none => cases h
    | some bytes =>
      cases h
      exact ⟨hget, rfl⟩
  · rintro ⟨hget, rfl⟩
    exact ⟨some body, n + 1, call_ok_iff.mpr ⟨hget, rfl⟩, rfl⟩

theorem getFileSize_ok_iff {size : UInt64} :
    StorageServerDownloadDispatcherService.getFileSize metaId env n = (.ok size, n') ↔
      ∃ server length, env.defaultFileStorageServer n = .ok server ∧
        env.headObject (n + 1) server.defaultBucket (key env.uuid server metaId) =
          .ok (some length) ∧ size = length.toUInt64 ∧ n' = n + 2 := by
  rw [StorageServerDownloadDispatcherService.getFileSize, Effect.bound_ok_iff]
  constructor
  · rintro ⟨server, m, hcall, h⟩
    obtain ⟨hserver, rfl⟩ := call_ok_iff.mp hcall
    rw [MinioServerBrokerService.getFileSize, Effect.bound_ok_iff] at h
    obtain ⟨output, m, hhead, h⟩ := h
    obtain ⟨hlength, rfl⟩ := call_ok_iff.mp hhead
    cases output with
    | none => cases h
    | some length =>
      cases h
      exact ⟨server, length, hserver, hlength, rfl, rfl⟩
  · rintro ⟨server, length, hserver, hlength, rfl, rfl⟩
    refine ⟨server, n + 1, call_ok_iff.mpr ⟨hserver, rfl⟩, ?_⟩
    rw [MinioServerBrokerService.getFileSize, Effect.bound_ok_iff]
    exact ⟨some length, n + 2, call_ok_iff.mpr ⟨hlength, rfl⟩, rfl⟩

variable (h : Stores env metaId file)
include h

theorem rangelyGetFile_of_server {k : Nat} (hserver : env.defaultFileStorageServer k = .ok server)
    {results : List Bytes} :
    MinioServerBrokerService.rangelyGetFile server metaId ranges env n = (.ok results, n') ↔
      Answers env server metaId n ranges ∧ results = ranges.map (served file) ∧
        n' = n + ranges.length := by
  induction ranges generalizing n results with
  | nil =>
    constructor
    · intro hrun
      cases hrun
      exact ⟨trivial, rfl, rfl⟩
    · rintro ⟨-, rfl, rfl⟩
      rfl
  | cons range ranges ih =>
    have hrun : MinioServerBrokerService.rangelyGetFile server metaId (range :: ranges) env n =
        (MinioServerBrokerService.getContent server metaId (some range) >>= fun b =>
          MinioServerBrokerService.rangelyGetFile server metaId ranges >>= fun bs =>
            pure (b :: bs)) env n := rfl
    rw [hrun, Effect.bound_ok_iff]
    constructor
    · rintro ⟨body, m, hbody, hrest⟩
      obtain ⟨hget, rfl⟩ := getContent_ok_iff.mp hbody
      obtain ⟨bodies, m, hbodies, hpure⟩ := Effect.bound_ok_iff.mp hrest
      cases hpure
      obtain ⟨hanswers, rfl, rfl⟩ := ih.mp hbodies
      refine ⟨⟨⟨body, hget⟩, hanswers⟩, ?_, ?_⟩
      · rw [List.map_cons, h.ranged k n server range body hserver hget]
      · rw [List.length_cons]
        omega
    · rintro ⟨⟨⟨body, hget⟩, hanswers⟩, rfl, rfl⟩
      have hbody := h.ranged k n server range body hserver hget
      have hcount : n + (range :: ranges).length = n + 1 + ranges.length := by
        rw [List.length_cons]
        omega
      have hbodies := (@ih (n + 1) (ranges.map (served file))).mpr ⟨hanswers, rfl, hcount⟩
      refine ⟨body, n + 1, getContent_ok_iff.mpr ⟨hget, rfl⟩, ?_⟩
      refine Effect.bound_ok_iff.mpr ⟨_, _, hbodies, ?_⟩
      rw [List.map_cons, hbody]
      rfl

theorem rangelyGetFile_ok_iff {results : List Bytes} :
    StorageServerDownloadDispatcherService.rangelyGetFile metaId ranges env n = (.ok results, n') ↔
      ∃ server, env.defaultFileStorageServer n = .ok server ∧
        Answers env server metaId (n + 1) ranges ∧ results = ranges.map (served file) ∧
          n' = n + 1 + ranges.length := by
  rw [StorageServerDownloadDispatcherService.rangelyGetFile, Effect.bound_ok_iff]
  constructor
  · rintro ⟨server, m, hcall, hrun⟩
    obtain ⟨hserver, rfl⟩ := call_ok_iff.mp hcall
    exact ⟨server, hserver, (rangelyGetFile_of_server h hserver).mp hrun⟩
  · rintro ⟨server, hserver, hrun⟩
    exact ⟨server, n + 1, call_ok_iff.mpr ⟨hserver, rfl⟩,
      (rangelyGetFile_of_server h hserver).mpr hrun⟩

theorem getBytes_eq {body : Bytes}
    (hrun : StorageServerDownloadDispatcherService.getBytes metaId env n = (.ok body, n')) :
    body = file := by
  rw [StorageServerDownloadDispatcherService.getBytes, Effect.bound_ok_iff] at hrun
  obtain ⟨server, m, hcall, hrun⟩ := hrun
  obtain ⟨hserver, rfl⟩ := call_ok_iff.mp hcall
  obtain ⟨hget, -⟩ := getContent_ok_iff.mp hrun
  exact h.whole n (n + 1) server body hserver hget

theorem Stores.size_toNat {k : Nat} (hserver : env.defaultFileStorageServer k = .ok server)
    {length : Int64} (hhead : env.headObject n server.defaultBucket (key env.uuid server metaId) =
      .ok (some length)) : length.toUInt64.toNat = file.length := by
  have hlength := h.size k n server length hserver hhead
  have hnonneg : 0 ≤ length := by
    rw [Int64.le_iff_toInt_le, hlength]
    exact Int.natCast_nonneg _
  rw [Int64.toNat_toUInt64_of_le hnonneg, Int64.toNatClampNeg, hlength, Int.toNat_natCast]

end Asking

section Delivering

variable {checked : Bool} {id : String} {size : UInt64} {file : Bytes} {range : Range}
variable {ranges : List Range} {parts : List Part}

theorem serverEvents_length (hne : parts ≠ []) :
    (serverEvents id parts.length parts).flatten.length = (parts.map fun part =>
      (payloadHead id part.range part.size).length + part.bytes.length + (utf8 ['\n']).length).sum +
        (payloadTail id).length := by
  induction parts with
  | nil => exact absurd rfl hne
  | cons part parts ih =>
    rw [List.map_cons, List.sum_cons, List.length_cons, serverEvents, Nat.add_sub_cancel]
    by_cases hlast : parts = []
    · subst hlast
      rw [List.length_nil, if_pos rfl, serverEvents, List.flatten_cons, List.flatten_nil,
        List.append_nil, List.length_append, List.length_append, List.length_append, List.map_nil,
        List.sum_nil, Nat.add_zero]
    · rw [if_neg (List.length_eq_zero_iff.not.mpr hlast), List.flatten_cons, List.length_append,
        List.length_append, List.length_append, ih hlast]
      omega

theorem served_of_le (h : range.start ≤ range.stop) :
    served file range = slice file range.start.toNat range.stop.toNat :=
  if_neg (UInt64.not_lt.mpr h)

theorem exact_served_iff (hsize : size.toNat = file.length) :
    (⟨range, size, served file range⟩ : Part).Exact file ↔
      range.start ≤ range.stop ∧ range.stop.toNat < file.length :=
  ⟨fun h => ⟨h.ordered, h.inside⟩, fun h => ⟨hsize, h.1, h.2, served_of_le h.1⟩⟩

theorem Part.Exact.length {part : Part} (h : part.Exact file) :
    part.bytes.length = part.range.stop.toNat + 1 - part.range.start.toNat := by
  have hinside := h.inside
  rw [h.bytes, slice, List.length_take, List.length_drop]
  omega

def servedParts (file : Bytes) (size : UInt64) (ranges : List Range) : List Part :=
  ranges.map fun range => ⟨range, size, served file range⟩

theorem zip_served (file : Bytes) (size : UInt64) (ranges : List Range) :
    (ranges.zip (ranges.map (served file))).map (fun m => (⟨m.1, size, m.2⟩ : Part)) =
      servedParts file size ranges := by
  induction ranges with
  | nil => rfl
  | cons range ranges ih =>
    rw [List.map_cons, List.zip_cons_cons, List.map_cons, ih, servedParts, servedParts, List.map_cons]

theorem sound_single_iff (hsize : size.toNat = file.length) :
    Sound file [range] (partialContent checked id size [(range, served file range)]) ↔
      range.start ≤ range.stop ∧ range.stop.toNat < file.length := by
  have hrun : partialContent checked id size [(range, served file range)] =
      (u64 checked ((range.stop.toNat : Int) - range.start.toNat) >>= fun span =>
        u64 checked ((span + 1 : Nat) : Int) >>= fun contentSize =>
          .ok (.single ⟨range, size, served file range⟩ contentSize)) := rfl
  rw [hrun]
  constructor
  · rintro ⟨response, hok, hsound⟩
    obtain ⟨span, -, hok⟩ := Outcome.bind_ok_iff.mp hok
    obtain ⟨contentSize, -, hok⟩ := Outcome.bind_ok_iff.mp hok
    cases hok
    exact (exact_served_iff hsize).mp hsound.2.1
  · intro h
    have hle : range.start.toNat ≤ range.stop.toNat := UInt64.le_iff_toNat_le.mp h.1
    have hspan : (u64 checked ((range.stop.toNat : Int) - range.start.toNat) :
        Outcome String Nat) = .ok (range.stop.toNat - range.start.toNat) :=
      u64_sub hle range.stop.toNat_lt
    have hsizes : (u64 checked ((range.stop.toNat - range.start.toNat + 1 : Nat) : Int) :
        Outcome String Nat) = .ok (range.stop.toNat - range.start.toNat + 1) := by
      have := size.toNat_lt
      exact u64_of_nat (by omega)
    have hexact := (exact_served_iff hsize).mpr h
    rw [hspan, Outcome.ok_bind, hsizes, Outcome.ok_bind]
    refine ⟨_, rfl, rfl, hexact, ?_⟩
    rw [hexact.length]
    exact (Nat.sub_add_comm hle).symm

theorem multipart_length (hsize : size.toNat = file.length) (hne : ranges ≠ [])
    (h : ∀ range ∈ ranges, range.start ≤ range.stop ∧ range.stop.toNat < file.length) :
    (serverEvents id (servedParts file size ranges).length
      (servedParts file size ranges)).flatten.length = multipartLength id file.length ranges := by
  have hparts : servedParts file size ranges ≠ [] := List.map_eq_nil_iff.not.mpr hne
  have hof : UInt64.ofNat file.length = size := by
    rw [← hsize, UInt64.ofNat_toNat]
  rw [serverEvents_length hparts, multipartLength, servedParts, List.map_map, hof]
  congr 2
  refine List.map_congr_left fun range hrange => ?_
  have hexact := ((exact_served_iff hsize).mpr (h range hrange)).length
  rw [Function.comp_apply, hexact]

theorem sound_multipart_iff (hsize : size.toNat = file.length) (hne : ranges ≠ []) :
    Sound file ranges (.ok (.multipart id (servedParts file size ranges) size)) ↔
      (∀ range ∈ ranges, range.start ≤ range.stop ∧ range.stop.toNat < file.length) ∧
        multipartLength id file.length ranges = file.length := by
  have hall : (∀ part ∈ servedParts file size ranges, part.Exact file) ↔
      ∀ range ∈ ranges, range.start ≤ range.stop ∧ range.stop.toNat < file.length := by
    rw [servedParts, List.forall_mem_map]
    exact forall₂_congr fun range _ => exact_served_iff hsize
  have hranges : ranges = (servedParts file size ranges).map Part.range := by
    rw [servedParts, List.map_map]
    exact (List.map_id ranges).symm
  constructor
  · rintro ⟨response, hok, hsound⟩
    cases hok
    obtain ⟨-, hexact, hlength⟩ := hsound
    have h := hall.mp hexact
    rw [HttpResponse.chunks, multipart_length hsize hne h, hsize] at hlength
    exact ⟨h, hlength.symm⟩
  · rintro ⟨h, hlength⟩
    refine ⟨_, rfl, hranges, hall.mpr h, ?_⟩
    rw [HttpResponse.chunks, multipart_length hsize hne h, hsize, hlength]

theorem sound_partialContent_iff (hsize : size.toNat = file.length) (hne : ranges ≠ []) :
    Sound file ranges (partialContent checked id size (ranges.zip (ranges.map (served file)))) ↔
      Deliverable id file ranges := by
  have hlength : (ranges.zip (ranges.map (served file))).length = ranges.length := by
    rw [List.length_zip, List.length_map, Nat.min_self]
  by_cases hone : ranges.length = 1
  · obtain ⟨range, rfl⟩ := List.length_eq_one_iff.mp hone
    rw [Deliverable, and_iff_left (.inl hone), List.forall_mem_singleton]
    exact sound_single_iff hsize
  · rw [partialContent, if_neg (by rw [hlength]; exact hone), zip_served,
      sound_multipart_iff hsize hne, Deliverable, or_iff_right hone]

end Delivering

section Answering

variable {env : Env} {file : Bytes} {metaId : Uuid} {n : Nat} {id : String} {text : List Char}
variable {ranges : List Range} {header : Option (Except String (List Char))}

theorem newRanges_ne_nil (h : newRanges text = some ranges) : ranges ≠ [] := by
  obtain ⟨rest, -, h⟩ := Option.bind_eq_some_iff.mp h
  obtain ⟨first, others, hsplit⟩ :=
    List.exists_cons_of_ne_nil (Text.splitFrom_ne_nil [',', ' '] rest 0)
  rw [Text.splitAll, hsplit, List.mapM_cons] at h
  obtain ⟨range, -, h⟩ := Option.bind_eq_some_iff.mp h
  obtain ⟨ranges', -, h⟩ := Option.bind_eq_some_iff.mp h
  cases h
  exact List.cons_ne_nil _ _

theorem sound_failed {requests : List Range} {status : Nat} {body : String} (h : 400 ≤ status) :
    Sound file requests (.ok (.failed status body)) := ⟨_, rfl, h⟩

theorem download_eq : getRangelyDownloadFile id header env n =
    answer (env.uuid.parse id) header env n := rfl

theorem sound_answerWhole (h : Stores env metaId file) :
    Sound file [] (answerWhole metaId env n).1 := by
  obtain ⟨body, m, hbytes, hattempt⟩ | ⟨-, e, m, hattempt⟩ :=
    (panicless_getBytes metaId).attempt_cases env n
  · have hrun : answerWhole metaId env n = (.ok (.ok body), m) := Effect.bind_of_ok hattempt _
    rw [hrun]
    exact ⟨_, rfl, getBytes_eq h hbytes⟩
  · have hrun : answerWhole metaId env n = (.ok internalServerError, m) :=
      Effect.bind_of_ok hattempt _
    rw [hrun]
    exact sound_failed (by decide)

theorem sound_answerSized_iff (h : Stores env metaId file) (hne : ranges ≠ []) :
    Sound file ranges (answerSized metaId ranges (ranges.map (served file)) env n).1 ↔
      ∀ server length, env.defaultFileStorageServer n = .ok server →
        env.headObject (n + 1) server.defaultBucket (key env.uuid server metaId) =
          .ok (some length) → Deliverable (env.uuid.text metaId) file ranges := by
  obtain ⟨size, m, hsize, hattempt⟩ | ⟨hnone, e, m, hattempt⟩ :=
    (panicless_getFileSize metaId).attempt_cases env n
  · obtain ⟨server, length, hserver, hlength, rfl, rfl⟩ := getFileSize_ok_iff.mp hsize
    have hrun : answerSized metaId ranges (ranges.map (served file)) env n =
        (partialContent env.checked (env.uuid.text metaId) length.toUInt64
          (ranges.zip (ranges.map (served file))), n + 2) := Effect.bind_of_ok hattempt _
    rw [hrun, sound_partialContent_iff (h.size_toNat hserver hlength) hne]
    exact ⟨fun hdeliver _ _ _ _ => hdeliver, fun hall => hall server length hserver hlength⟩
  · have hrun : answerSized metaId ranges (ranges.map (served file)) env n =
        (.ok internalServerError, m) := Effect.bind_of_ok hattempt _
    rw [hrun]
    refine iff_of_true (sound_failed (by decide)) fun server length hserver hlength => ?_
    exact absurd (getFileSize_ok_iff.mpr ⟨server, length, hserver, hlength, rfl, rfl⟩) (hnone _ _)

theorem sound_answerRanges_iff (h : Stores env metaId file) (hne : ranges ≠ []) :
    Sound file ranges (answerRanges metaId ranges env n).1 ↔
      (Available env metaId n ranges → Deliverable (env.uuid.text metaId) file ranges) := by
  obtain ⟨results, m, hresults, hattempt⟩ | ⟨hnone, e, m, hattempt⟩ :=
    (panicless_rangelyGetFile metaId ranges).attempt_cases env n
  · obtain ⟨server, hserver, hanswers, rfl, rfl⟩ := (rangelyGetFile_ok_iff h).mp hresults
    have hrun : answerRanges metaId ranges env n = answerSized metaId ranges
        (ranges.map (served file)) env (n + 1 + ranges.length) := Effect.bind_of_ok hattempt _
    rw [hrun, sound_answerSized_iff h hne]
    constructor
    · rintro hall ⟨-, server', length, -, -, hserver', hlength⟩
      exact hall server' length hserver' hlength
    · intro hdeliver server' length hserver' hlength
      exact hdeliver ⟨server, server', length, hserver, hanswers, hserver', hlength⟩
  · have hrun : answerRanges metaId ranges env n = (.ok internalServerError, m) :=
      Effect.bind_of_ok hattempt _
    rw [hrun]
    refine iff_of_true (sound_failed (by decide)) ?_
    rintro ⟨server, -, -, hserver, hanswers, -, -⟩
    exact absurd ((rangelyGetFile_ok_iff h).mpr ⟨server, hserver, hanswers, rfl, rfl⟩) (hnone _ _)

end Answering

theorem ranges_sound_iff (env : Env) (n : Nat) (id : String)
    (header : Option (Except String (List Char))) (file : Bytes)
    (h : ∀ metaId, env.uuid.parse id = some metaId → Stores env metaId file) :
    Sound file ((requested header).getD []) (getRangelyDownloadFile id header env n).1 ↔
      ∀ metaId ranges, env.uuid.parse id = some metaId → requested header = some ranges →
        Available env metaId n ranges → Deliverable (env.uuid.text metaId) file ranges := by
  rw [download_eq]
  cases hid : env.uuid.parse id with
  | none => exact iff_of_true (sound_failed (by decide)) nofun
  | some metaId =>
    match header with
    | none => exact iff_of_true (sound_answerWhole (h metaId hid)) nofun
    | some (.error e) => exact iff_of_true (sound_failed (by decide)) nofun
    | some (.ok text) =>
      rw [answer, requested]
      cases hranges : newRanges text with
      | none => exact iff_of_true (sound_failed (by decide)) nofun
      | some ranges =>
        rw [Option.getD_some, answerParsed,
          sound_answerRanges_iff (h metaId hid) (newRanges_ne_nil hranges)]
        constructor
        · rintro hdeliver _ _ hmeta hrange
          cases hmeta
          cases hrange
          exact hdeliver
        · intro hall
          exact hall metaId ranges rfl rfl

theorem mem_text {c : Char} {range : Range} (h : c ∈ range.text) : c = '-' ∨ c.isDigit = true := by
  obtain h | h := List.mem_append.mp h
  · exact .inr (Decimal.isDigit_of_mem h)
  · obtain h | h := List.mem_cons.mp h
    · exact .inl h
    · exact .inr (Decimal.isDigit_of_mem h)

theorem parseRange_text (range : Range) : parseRange range.text = some range := by
  have hdash : ∀ n : UInt64, '-' ∉ Nat.toDigits 10 n.toNat := fun n h =>
    absurd (Decimal.isDigit_of_mem h) (by decide)
  rw [parseRange, Range.text, List.splitOn_append_cons_self_of_not_mem (hdash range.start),
    List.splitOn_eq_singleton (hdash range.stop)]
  change (Decimal.unsigned 64 _).bind _ = _
  rw [Decimal.unsigned_toDigits range.start.toNat_lt, Option.bind_some]
  change (Decimal.unsigned 64 _).bind _ = _
  rw [Decimal.unsigned_toDigits range.stop.toNat_lt, Option.bind_some, UInt64.ofNat_toNat,
    UInt64.ofNat_toNat]

-- What is sent to the store is read as the one range.
theorem newRanges_rangeHeader (range : Range) : newRanges (rangeHeader range) = some [range] := by
  have hcomma : ¬ [',', ' '] <:+: range.text := by
    intro hoccurs
    obtain h | h := mem_text (hoccurs.subset List.mem_cons_self)
    · exact absurd h (by decide)
    · exact absurd h (by decide)
  rw [newRanges, rangeHeader, Decimal.strip_append]
  change (Text.splitAll [',', ' '] range.text).mapM parseRange = _
  rw [Text.splitAll_of_not_infix hcomma, List.mapM_cons, parseRange_text]
  rfl

-- A store that follows the semantics of ranges, with one file in it.
def objectOf (file : Bytes) : Option (Option (List Range)) → Except String (Option Bytes)
  | some (some [range]) =>
    if range.start ≤ range.stop ∧ file.length ≤ range.start.toNat then .error "InvalidRange"
    else .ok (some (served file range))
  | _ => .ok (some file)

def holding (checked : Bool) (file : Bytes) : Env where
  uuid := .hyphenated
  checked := checked
  defaultFileStorageServer _ := .ok ⟨7, "files"⟩
  getObject _ _ _ range := objectOf file (range.map newRanges)
  headObject _ _ _ := .ok (some (Int64.ofNat file.length))

theorem getObject_holding {checked : Bool} {file : Bytes} {n : Nat} {bucket key : String}
    (range : Range) : (holding checked file).getObject n bucket key (some (rangeHeader range)) =
      if range.start ≤ range.stop ∧ file.length ≤ range.start.toNat then .error "InvalidRange"
      else .ok (some (served file range)) := by
  change objectOf file (some (newRanges (rangeHeader range))) = _
  rw [newRanges_rangeHeader, objectOf]

theorem stores_holding (checked : Bool) {file : Bytes} (hfile : file.length < 2 ^ 63)
    (metaId : Uuid) : Stores (holding checked file) metaId file where
  whole k n server body _ hget := by
    cases hget
    rfl
  ranged k n server range body _ hget := by
    rw [getObject_holding] at hget
    split at hget
    · cases hget
    · cases hget
      rfl
  size k n server length _ hhead := by
    cases hhead
    exact Int64.toInt_ofNat_of_lt hfile

theorem available_holding {checked : Bool} {file : Bytes} {ranges : List Range} (metaId : Uuid)
    (n : Nat) (h : ∀ range ∈ ranges, ¬ (range.start ≤ range.stop ∧ file.length ≤ range.start.toNat)) :
    Available (holding checked file) metaId n ranges := by
  have hanswers : ∀ n, Answers (holding checked file) ⟨7, "files"⟩ metaId n ranges := by
    induction ranges with
    | nil => exact fun _ => trivial
    | cons range ranges ih =>
      rw [List.forall_mem_cons] at h
      intro n
      refine ⟨⟨served file range, ?_⟩, ih h.2 (n + 1)⟩
      rw [getObject_holding, if_neg h.1]
  exact ⟨⟨7, "files"⟩, ⟨7, "files"⟩, _, rfl, hanswers _, rfl, rfl⟩

def five : Bytes := [1, 2, 3, 4, 5]

theorem ranges_sound_inside : Sound five [⟨1, 3⟩]
    (getRangelyDownloadFile (Protocol.UuidText.hyphenated.text 9) (some (.ok "bytes=1-3".toList))
      (holding true five) 0).1 := by
  have hranges : requested (some (.ok "bytes=1-3".toList)) = some [⟨1, 3⟩] := by decide +kernel
  have hsound := ranges_sound_iff (holding true five) 0 (Protocol.UuidText.hyphenated.text 9)
    (some (.ok "bytes=1-3".toList)) five fun metaId _ => stores_holding true (by decide) metaId
  rw [hranges, Option.getD_some] at hsound
  refine hsound.mpr fun metaId ranges _ hrequested _ => ?_
  cases hrequested
  exact ⟨by decide, .inl rfl⟩

def SoundOnFive (text : String) : Prop :=
  Sound five ((requested (some (.ok text.toList))).getD []) (getRangelyDownloadFile
    (Protocol.UuidText.hyphenated.text 9) (some (.ok text.toList)) (holding true five) 0).1

theorem not_soundOnFive {text : String} {ranges : List Range}
    (hranges : newRanges text.toList = some ranges)
    (hserved : ∀ range ∈ ranges, ¬ (range.start ≤ range.stop ∧ five.length ≤ range.start.toNat))
    (hnot : ∀ id, ¬ Deliverable id five ranges) : ¬ SoundOnFive text := by
  have hrequested : requested (some (.ok text.toList)) = some ranges := hranges
  have hid := Protocol.UuidText.hyphenated.parse_text 9
  have hstores := @stores_holding true five (by decide) 9
  have hiff := @sound_answerRanges_iff (holding true five) five 9 0 ranges hstores
    (newRanges_ne_nil hranges)
  rw [SoundOnFive, hrequested, Option.getD_some, download_eq]
  change ¬ Sound five ranges (answer (Protocol.UuidText.hyphenated.parse _) _ _ _).1
  rw [hid, answer, hranges, answerParsed, hiff]
  exact fun hdeliver => hnot _ (hdeliver (available_holding 9 0 hserved))

-- A range that ends behind the file, one that ends before it starts, and several at once.
theorem ranges_unsound : ¬ SoundOnFive "bytes=0-9" ∧ ¬ SoundOnFive "bytes=3-1" ∧
    ¬ SoundOnFive "bytes=0-0, 1-1, 2-2" := by
  refine ⟨?_, ?_, ?_⟩
  · have hranges : newRanges "bytes=0-9".toList = some [⟨0, 9⟩] := by decide +kernel
    refine not_soundOnFive hranges (by decide) fun id hdeliver => ?_
    exact absurd (hdeliver.1 _ List.mem_cons_self) (by decide)
  · have hranges : newRanges "bytes=3-1".toList = some [⟨3, 1⟩] := by decide +kernel
    refine not_soundOnFive hranges (by decide) fun id hdeliver => ?_
    exact absurd (hdeliver.1 _ List.mem_cons_self) (by decide)
  · have hranges : newRanges "bytes=0-0, 1-1, 2-2".toList = some [⟨0, 0⟩, ⟨1, 1⟩, ⟨2, 2⟩] := by
      decide +kernel
    refine not_soundOnFive hranges (by decide) fun id hdeliver => ?_
    have hbreak : (utf8 ['\n']).length = 1 := by decide +kernel
    have hlength := hdeliver.2.resolve_left (by decide)
    rw [multipartLength, hbreak] at hlength
    simp [five] at hlength
    omega

end Kuintessence.Ranges
