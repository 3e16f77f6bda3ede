import Kuintessence.Agent.Collecting

namespace Kuintessence.Agent.Collection

structure ResponseBase (α : Type) where
  status : Int32
  message : String
  content : Option α
  deriving DecidableEq, Repr

-- The status code of an answer, and its body when that is a `ResponseBase`.
structure Reply (α : Type) where
  code : UInt16
  body : Option (ResponseBase α)
  deriving DecidableEq, Repr

def Reply.successful {α : Type} (reply : Reply α) : Bool :=
  decide (200 ≤ reply.code ∧ reply.code < 300) &&
    (match reply.body with
    | some body => decide (body.status = 200)
    | none => false)

-- What reading the source gives, and what the server answers to each request.
structure Outside where
  loaded : Except String String
  url : Except String Unit
  prepare : String → Except String (Reply Dto.PreparePartialUploadResponse)
  mime : Except String Unit
  partialUpload : String → Except String (Reply (List Nat))
  uploadText : String → Except String (Reply String)

def unable {α : Type} : Except String α → Outcome String Unit
  | .ok _ => .ok ()
  | .error e => .err ("Unable to upload, because of " ++ e)

def sendPart (w : Outside) (output : String) (response : Dto.PreparePartialUploadResponse) :
    Outcome String Unit :=
  if response.result = .flashUpload then .ok ()
  else do
    unable w.mime
    unable (w.partialUpload output)

-- Neither the status of an answer nor the `status` of its body is looked at.
def saveFile (w : Outside) (output : String) : Dto.CollectTo → Outcome String Unit
  | .file _ _ => do
    .expect w.url
    let reply ← .ofExcept (w.prepare output)
    let body ← .okOr "error decoding response body" reply.body
    let response ← .unwrap body.content
    sendPart w output response
  | .text _ => do
    .expect w.url
    unable (w.uploadText output)

def runSubTask (checked : Bool) (regex : String → Option (String → List String)) (w : Outside)
    (subTask : SubTask) : Outcome String Unit :=
  match subTask.taskType with
  | .collectedOut _ rule collectTo optional =>
    match w.loaded with
    | .ok input => do
      let output ← collected checked regex input rule
      saveFile w output collectTo
    | .error e =>
      if optional then .ok ()
      else .err ("Unable to collect " ++ toString subTask.id ++ ", file not found. " ++ e)
  | _ => .err ("Unable to run " ++ toString subTask.id ++ ", mismatch task type.")

def enqueueWith (inner : SubTask → Op Unit) (id : Uuid) : Op Unit := do
  let subTask ← op (SubTasks.getById id)
  let result ← Prog.attempt (inner subTask)
  match result with
  | .ok () => do
    op (SubTasks.update { subTask with status := .completed })
    op saveChanged
    send (.subTaskReport id .completed)
  | .error e => do
    op (SubTasks.update { subTask with
      status := .failed, failedReason := "Failed to collect value. Because of " ++ e })
    op saveChanged
    send (.subTaskReport id .failed)
    fail e

def enqueue (checked : Bool) (regex : String → Option (String → List String)) (w : Outside)
    (id : Uuid) : Op Unit :=
  enqueueWith (fun subTask => .done (runSubTask checked regex w subTask)) id

theorem enqueueSubTask_eq : enqueueSubTask = enqueueWith innerRunSubTask := rfl

def answered {α : Type} (failure : Option String) (a : α) : Except String α :=
  match failure with
  | some e => .error e
  | none => .ok a

-- The two calls of a collection, as one environment answers them.
structure Answers (env : Env) (n : Nat) (w : Outside) : Prop where
  loaded : w.loaded = answered (env.fails n) (env.text n)
  saved : ∀ output collectTo,
    saveFile w output collectTo = .ofExcept (answered (env.fails (n + 1)) ())

theorem exec_call {α : Type} (answer : Env → Nat → α) (events : List Event) (env : Env)
    (s : State) : (Prog.exec (op (call answer events)) env s).1 =
      .ofExcept (answered (env.fails s.calls) (answer env s.calls)) := by
  change (call answer events env s).1 = _
  rw [call]
  cases env.fails s.calls with
  | none => rfl
  | some e => rfl

theorem innerRunSubTask_eq {env : Env} {s : State} {w : Outside} (h : Answers env s.calls w)
    (subTask : SubTask) : (Prog.exec (innerRunSubTask subTask) env s).1 =
      runSubTask true env.regex w subTask := by
  cases htype : subTask.taskType with
  | collectedOut source rule collectTo optional =>
    rw [innerRunSubTask, runSubTask, htype, h.loaded]
    cases hfails : env.fails s.calls with
    | some e =>
      have hread : (Prog.exec (Prog.attempt (op (call (fun env n => env.text n) []))) env s) =
          (.ok (.error e), { s with calls := s.calls + 1 }) := by
        rw [Prog.exec_attempt, op, Prog.exec_atom, Effect.attempt, call, hfails]
      dsimp only
      rw [Prog.exec_bind, Effect.bind_of_ok hread]
      cases optional with
      | true => rfl
      | false => rfl
    | none =>
      have hread : (Prog.exec (Prog.attempt (op (call (fun env n => env.text n) []))) env s) =
          (.ok (.ok (env.text s.calls)), { s with calls := s.calls + 1, trace := s.trace ++ [] }) := by
        rw [Prog.exec_attempt, op, Prog.exec_atom, Effect.attempt, call, hfails]
      dsimp only
      rw [Prog.exec_bind, Effect.bind_of_ok hread, answered]
      dsimp only
      have hregex (t : State) : Prog.exec (op (do let env ← Effect.read; pure env.regex)) env t =
          ((.ok env.regex : Outcome String _), t) := rfl
      rw [collected_checked, Prog.exec_bind, Effect.bind_of_ok (hregex _), Prog.exec_bind]
      cases hcollect : collect env.regex (env.text s.calls) rule with
      | ok output =>
        have hdone (t : State) : Prog.exec (.done (.ok output) : Op String) env t =
            (.ok output, t) := rfl
        rw [Effect.bind_of_ok (hdone _), Outcome.ok_bind, h.saved]
        exact exec_call _ _ env _
      | err e => rfl
      | panic => rfl
  | softwareDeployment status => rw [innerRunSubTask, runSubTask, htype]; rfl
  | usecaseExecution name arguments environments stdIn files =>
    rw [innerRunSubTask, runSubTask, htype]; rfl
  | unknown => rw [innerRunSubTask, runSubTask, htype]; rfl

-- The server has taken the output.
def Accepted (w : Outside) (output : String) : Dto.CollectTo → Prop
  | .file _ _ => ∃ reply body response, w.prepare output = .ok reply ∧ reply.successful = true ∧
      reply.body = some body ∧ body.content = some response ∧
      (response.result = .flashUpload ∨
        ∃ part, w.partialUpload output = .ok part ∧ part.successful = true)
  | .text _ => ∃ reply, w.uploadText output = .ok reply ∧ reply.successful = true

-- When the answers that the code takes for a success are successful and nothing is unwrapped
-- that is not there.
def Heeded (w : Outside) (output : String) : Dto.CollectTo → Prop
  | .file _ _ => w.url = .ok () ∧ ∀ reply body, w.prepare output = .ok reply →
      reply.body = some body → ∃ response, body.content = some response ∧
        (response.result = .flashUpload → reply.successful = true) ∧
        (response.result ≠ .flashUpload → w.mime = .ok () →
          ∀ part, w.partialUpload output = .ok part →
            reply.successful = true ∧ part.successful = true)
  | .text _ => w.url = .ok () ∧ ∀ reply, w.uploadText output = .ok reply → reply.successful = true

section Saving

variable {w : Outside} {output : String}

theorem unable_ne_panic {α : Type} (r : Except String α) : unable r ≠ .panic := by
  cases r with
  | ok a => exact Outcome.ok_ne_panic ()
  | error e => exact Outcome.err_ne_panic _

theorem unable_ok_iff {α : Type} {r : Except String α} : unable r = .ok () ↔ ∃ a, r = .ok a := by
  cases r with
  | ok a => exact ⟨fun _ => ⟨a, rfl⟩, fun _ => rfl⟩
  | error e => exact ⟨nofun, nofun⟩

theorem sendPart_ne_panic (w : Outside) (output : String)
    (response : Dto.PreparePartialUploadResponse) : sendPart w output response ≠ .panic := by
  rw [sendPart]
  split
  · exact Outcome.ok_ne_panic ()
  · exact Outcome.bind_ne_panic (unable_ne_panic w.mime) fun _ => unable_ne_panic _

theorem sendPart_ok_iff {response : Dto.PreparePartialUploadResponse} :
    sendPart w output response = .ok () ↔ response.result = .flashUpload ∨
      w.mime = .ok () ∧ ∃ part, w.partialUpload output = .ok part := by
  rw [sendPart]
  split
  · next hflash => exact iff_of_true rfl (.inl hflash)
  · next hflash =>
    rw [Outcome.then_ok_iff, unable_ok_iff, unable_ok_iff, or_iff_right hflash]
    exact and_congr_left fun _ => ⟨fun ⟨_, h⟩ => h, fun h => ⟨(), h⟩⟩

theorem accepted_file_iff {id : Uuid} {path : String}
    {reply : Reply Dto.PreparePartialUploadResponse}
    {body : ResponseBase Dto.PreparePartialUploadResponse}
    {response : Dto.PreparePartialUploadResponse} (hprepare : w.prepare output = .ok reply)
    (hbody : reply.body = some body) (hcontent : body.content = some response) :
    Accepted w output (.file id path) ↔ reply.successful = true ∧
      (response.result = .flashUpload ∨
        ∃ part, w.partialUpload output = .ok part ∧ part.successful = true) := by
  constructor
  · rintro ⟨other, other', other'', hprepare', hsuccess, hbody', hcontent', hrest⟩
    cases hprepare.symm.trans hprepare'
    cases hbody.symm.trans hbody'
    cases hcontent.symm.trans hcontent'
    exact ⟨hsuccess, hrest⟩
  · exact fun ⟨hsuccess, hrest⟩ =>
      ⟨reply, body, response, hprepare, hsuccess, hbody, hcontent, hrest⟩

theorem saveFile_text_iff (id : Uuid) :
    saveFile w output (.text id) ≠ .panic ∧
        (saveFile w output (.text id) = .ok () → Accepted w output (.text id)) ↔
      Heeded w output (.text id) := by
  rw [saveFile, Outcome.then_ne_panic_iff, Outcome.then_ok_iff, Outcome.expect_ne_panic_iff,
    Outcome.expect_ok_iff, unable_ok_iff, Heeded, Accepted]
  constructor
  · rintro ⟨⟨hurl, -⟩, hsaved⟩
    refine ⟨hurl, fun reply hreply => ?_⟩
    obtain ⟨other, hother, hsuccess⟩ := hsaved ⟨hurl, reply, hreply⟩
    cases hreply.symm.trans hother
    exact hsuccess
  · rintro ⟨hurl, hreply⟩
    exact ⟨⟨hurl, fun _ => unable_ne_panic _⟩,
      fun ⟨_, reply, heq⟩ => ⟨reply, heq, hreply reply heq⟩⟩

theorem saveFile_file_iff (id : Uuid) (path : String) :
    saveFile w output (.file id path) ≠ .panic ∧
        (saveFile w output (.file id path) = .ok () → Accepted w output (.file id path)) ↔
      Heeded w output (.file id path) := by
  rw [Heeded]
  cases hurl : w.url with
  | error e =>
    refine iff_of_false (fun h => h.1 ?_) fun h => nomatch h.1
    rw [saveFile, hurl]
    rfl
  | ok =>
    rw [and_iff_right rfl]
    cases hprepare : w.prepare output with
    | error e =>
      have hsave : saveFile w output (.file id path) = .err e := by
        rw [saveFile, hurl, hprepare]
        rfl
      rw [hsave]
      exact iff_of_true ⟨Outcome.err_ne_panic e, nofun⟩ nofun
    | ok reply =>
      cases hbody : reply.body with
      | none =>
        have hsave : saveFile w output (.file id path) = .err "error decoding response body" := by
          rw [saveFile, hurl, hprepare]
          change (Outcome.okOr _ reply.body >>= _) = _
          rw [hbody]
          rfl
        rw [hsave]
        refine iff_of_true ⟨Outcome.err_ne_panic _, nofun⟩ fun other body hother hnone => ?_
        cases hother
        cases hbody.symm.trans hnone
      | some body =>
        have hsave : saveFile w output (.file id path) = (Outcome.unwrap body.content >>=
            sendPart w output) := by
          rw [saveFile, hurl, hprepare]
          change (Outcome.okOr _ reply.body >>= _) = _
          rw [hbody]
          rfl
        have hunique {P : Reply Dto.PreparePartialUploadResponse →
            ResponseBase Dto.PreparePartialUploadResponse → Prop} :
            (∀ r b, (.ok reply : Except String _) = .ok r → r.body = some b → P r b) ↔
              P reply body := by
          constructor
          · exact fun h => h reply body rfl hbody
          · intro h r b hr hb
            cases hr
            cases hbody.symm.trans hb
            exact h
        rw [hsave, hunique]
        cases hcontent : body.content with
        | none => exact iff_of_false (fun h => h.1 rfl) fun ⟨_, h, _⟩ => nomatch h
        | some response =>
          change sendPart w output response ≠ .panic ∧ (sendPart w output response = .ok () → _) ↔ _
          rw [and_iff_right (sendPart_ne_panic w output response), sendPart_ok_iff,
            accepted_file_iff hprepare hbody hcontent]
          constructor
          · intro h
            refine ⟨response, rfl, fun hflash => (h (.inl hflash)).1,
              fun hflash hmime part hpart => ?_⟩
            obtain ⟨hsuccess, hrest⟩ := h (.inr ⟨hmime, part, hpart⟩)
            obtain ⟨other, hother, hsuccess'⟩ := hrest.resolve_left hflash
            cases hpart.symm.trans hother
            exact ⟨hsuccess, hsuccess'⟩
          · rintro ⟨other, hother, hflash, hpart⟩ hsent
            cases hother
            by_cases hresult : response.result = .flashUpload
            · exact ⟨hflash hresult, .inl hresult⟩
            · obtain ⟨hmime, part, heq⟩ := hsent.resolve_left hresult
              obtain ⟨hsuccess, hsuccess'⟩ := hpart hresult hmime part heq
              exact ⟨hsuccess, .inr ⟨part, heq, hsuccess'⟩⟩

theorem saveFile_iff (collectTo : Dto.CollectTo) :
    saveFile w output collectTo ≠ .panic ∧
        (saveFile w output collectTo = .ok () → Accepted w output collectTo) ↔
      Heeded w output collectTo := by
  cases collectTo with
  | file id path => exact saveFile_file_iff id path
  | text id => exact saveFile_text_iff id

end Saving

-- The source was read and the server took what was collected, or there was nothing to collect.
def Delivered (checked : Bool) (regex : String → Option (String → List String)) (w : Outside)
    (rule : Dto.CollectRule) (collectTo : Dto.CollectTo) (optional : Bool) : Prop :=
  (∃ input output, w.loaded = .ok input ∧ collected checked regex input rule = .ok output ∧
    Accepted w output collectTo) ∨ (∃ e, w.loaded = .error e) ∧ optional = true

structure Regular (checked : Bool) (regex : String → Option (String → List String)) (w : Outside)
    (rule : Dto.CollectRule) (collectTo : Dto.CollectTo) : Prop where
  counted : ∀ input, w.loaded = .ok input → checked = true → ∀ n, rule = .bottomLines n →
    n.toNat ≤ (lines input).length
  saved : ∀ input output, w.loaded = .ok input → collected checked regex input rule = .ok output →
    Heeded w output collectTo

def Completed (subTask : SubTask) (s t : State) : Prop :=
  t.subTasks = Rows.put SubTask.id { subTask with status := .completed } s.subTasks ∧
    t.trace = s.trace ++ [.subTaskReport subTask.id .completed]

def Failed (subTask : SubTask) (s t : State) : Prop :=
  ∃ reason, t.subTasks =
      Rows.put SubTask.id { subTask with status := .failed, failedReason := reason } s.subTasks ∧
    t.trace = s.trace ++ [.subTaskReport subTask.id .failed]

structure Settles (delivered : Prop) (subTask : SubTask) (s : State)
    (result : Outcome String Unit × State) : Prop where
  returns : result.1 ≠ .panic
  marked : Completed subTask s result.2 ∧ delivered ∨ Failed subTask s result.2

section Settling

variable {checked : Bool} {regex : String → Option (String → List String)} {w : Outside}
  {rule : Dto.CollectRule} {source : Dto.CollectFrom} {collectTo : Dto.CollectTo}
  {optional : Bool} {env : Env} {s : State} {subTask : SubTask}

theorem collected_ne_panic_iff {input : String} : collected checked regex input rule ≠ .panic ↔
    (checked = true → ∀ n, rule = .bottomLines n → n.toNat ≤ (lines input).length) := by
  cases rule with
  | regex exp =>
    refine iff_of_true ?_ fun _ _ h => by cases h
    rw [collected]
    split
    · exact Outcome.ok_ne_panic _
    · exact Outcome.err_ne_panic _
  | topLines n => exact iff_of_true (Outcome.ok_ne_panic _) fun _ _ h => by cases h
  | bottomLines n =>
    by_cases hle : n.toNat ≤ (lines input).length
    · refine iff_of_true ?_ fun _ m hm => ?_
      · rw [collected, bottomLines_of_le hle]
        exact Outcome.ok_ne_panic _
      · cases hm
        exact hle
    · have hgt := Nat.not_le.mp hle
      cases checked with
      | false =>
        refine iff_of_true ?_ fun h => absurd h Bool.false_ne_true
        rw [collected, bottomLines_of_gt hgt]
        exact Outcome.ok_ne_panic _
      | true =>
        refine iff_of_false (fun h => h ?_) fun h => hle (h rfl n rfl)
        rw [collected, bottomLines, usizeSub_of_gt hgt]
        rfl

theorem runSubTask_iff (htype : subTask.taskType = .collectedOut source rule collectTo optional) :
    runSubTask checked regex w subTask ≠ .panic ∧
        (runSubTask checked regex w subTask = .ok () →
          Delivered checked regex w rule collectTo optional) ↔
      Regular checked regex w rule collectTo := by
  rw [runSubTask, htype]
  cases hloaded : w.loaded with
  | error e =>
    refine iff_of_true ⟨?_, ?_⟩ ⟨fun _ h => ?_, fun _ _ h => ?_⟩
    · dsimp only
      split
      · exact Outcome.ok_ne_panic ()
      · exact Outcome.err_ne_panic _
    · intro h
      cases optional with
      | true => exact .inr ⟨⟨e, hloaded⟩, rfl⟩
      | false => cases h
    · cases hloaded.symm.trans h
    · cases hloaded.symm.trans h
  | ok input =>
    have hrule : collected checked regex input rule ≠ .panic ↔ _ := collected_ne_panic_iff
    have hcounted (h : collected checked regex input rule ≠ .panic) (input' : String)
        (hinput : w.loaded = .ok input') : checked = true → ∀ n, rule = .bottomLines n →
          n.toNat ≤ (lines input').length := by
      cases hloaded.symm.trans hinput
      exact hrule.mp h
    dsimp only
    cases houtput : collected checked regex input rule with
    | panic =>
      exact iff_of_false (fun h => h.1 rfl) fun h => hrule.mpr (h.counted input hloaded) houtput
    | err e =>
      refine iff_of_true ⟨Outcome.err_ne_panic e, nofun⟩
        ⟨hcounted (by rw [houtput]; exact Outcome.err_ne_panic e), fun input' output hinput hok => ?_⟩
      cases hloaded.symm.trans hinput
      cases houtput.symm.trans hok
    | ok output =>
      have hdelivered : Delivered checked regex w rule collectTo optional ↔
          Accepted w output collectTo := by
        constructor
        · rintro (⟨input', output', hinput, hok, haccepted⟩ | ⟨⟨e, he⟩, -⟩)
          · cases hloaded.symm.trans hinput
            cases houtput.symm.trans hok
            exact haccepted
          · cases hloaded.symm.trans he
        · exact fun h => .inl ⟨input, output, hloaded, houtput, h⟩
      rw [Outcome.ok_bind, hdelivered, saveFile_iff]
      constructor
      · intro h
        refine ⟨hcounted (by rw [houtput]; exact Outcome.ok_ne_panic output),
          fun input' output' hinput hok => ?_⟩
        cases hloaded.symm.trans hinput
        cases houtput.symm.trans hok
        exact h
      · exact fun h => h.saved input output hloaded houtput

theorem exec_updateRow {row : SubTask} (h : ∃ x ∈ s.subTasks, x.id = row.id) :
    Prog.exec (op (SubTasks.update row)) env s =
      ((.ok () : Outcome String Unit), { s with subTasks := Rows.put SubTask.id row s.subTasks }) := by
  obtain ⟨x, hx, hid⟩ := h
  have hany : (s.subTasks.any fun y => y.id = row.id) = true :=
    List.any_eq_true.mpr ⟨x, hx, decide_eq_true hid⟩
  have hreplace : Rows.replace SubTask.id row s.subTasks =
      some (Rows.put SubTask.id row s.subTasks) := if_pos hany
  have hget : (Effect.get : Act State) env s = (.ok s, s) := rfl
  have hlift : (Effect.lift (.okOr "No Such id" (Rows.replace SubTask.id row s.subTasks)) :
      Act (List SubTask)) env s = (.ok (Rows.put SubTask.id row s.subTasks), s) := by
    rw [hreplace]
    rfl
  rw [op, Prog.exec_atom, SubTasks.update, Effect.bind_of_ok hget, Effect.bind_of_ok hlift]
  rfl

theorem exec_saveChanged (h : ∀ n, env.fails n = none) : Prog.exec (op saveChanged) env s =
    ((.ok () : Outcome String Unit), { s with calls := s.calls + 1, trace := s.trace ++ [] }) := by
  change call (fun _ _ => ()) [] env s = _
  rw [call, h]

def settled (s : State) (row : SubTask) (event : Event) : State :=
  { s with
    subTasks := Rows.put SubTask.id row s.subTasks
    calls := s.calls + 1
    trace := s.trace ++ [] ++ [event] }

theorem exec_settle (row : SubTask) (hold : ∃ x ∈ s.subTasks, x.id = row.id)
    (hcalls : ∀ n, env.fails n = none) (event : Event) (next : Unit → Op Unit) :
    Prog.exec (op (SubTasks.update row) >>= fun _ => op saveChanged >>= fun _ =>
      send event >>= next) env s = Prog.exec (next ()) env (settled s row event) := by
  have hsend (t : State) : Prog.exec (send event) env t =
      ((.ok () : Outcome String Unit), { t with trace := t.trace ++ [event] }) := rfl
  rw [Prog.exec_bind, Effect.bind_of_ok (exec_updateRow hold), Prog.exec_bind,
    Effect.bind_of_ok (exec_saveChanged hcalls), Prog.exec_bind, Effect.bind_of_ok (hsend _)]
  rfl

theorem exec_getRow (hrow : Rows.find SubTask.id subTask.id s.subTasks = some subTask) : Prog.exec (op (SubTasks.getById subTask.id)) env s =
    ((.ok subTask : Outcome String SubTask), s) := by
  change (Effect.lift (.okOr "No such task id." (Rows.find SubTask.id subTask.id s.subTasks)) :
    Act SubTask) env s = _
  rw [hrow]
  rfl

theorem exists_row (hrow : Rows.find SubTask.id subTask.id s.subTasks = some subTask)
    {row : SubTask} (hid : row.id = subTask.id) :
    ∃ x ∈ s.subTasks, x.id = row.id :=
  ⟨subTask, List.mem_of_find?_eq_some hrow, hid.symm⟩

theorem enqueueWith_ok (hrow : Rows.find SubTask.id subTask.id s.subTasks = some subTask)
    (hcalls : ∀ n, env.fails n = none) : Prog.exec (enqueueWith (fun _ => .done (.ok ())) subTask.id) env s =
    (.ok (), settled s { subTask with status := .completed }
      (.subTaskReport subTask.id .completed)) := by
  rw [enqueueWith, Prog.exec_bind, Effect.bind_of_ok (exec_getRow hrow)]
  exact exec_settle { subTask with status := .completed } (exists_row hrow rfl) hcalls _ pure

theorem enqueueWith_err (hrow : Rows.find SubTask.id subTask.id s.subTasks = some subTask)
    (hcalls : ∀ n, env.fails n = none) (e : String) :
    Prog.exec (enqueueWith (fun _ => .done (.err e)) subTask.id) env s =
      (.err e, settled s { subTask with
        status := .failed, failedReason := "Failed to collect value. Because of " ++ e }
        (.subTaskReport subTask.id .failed)) := by
  rw [enqueueWith, Prog.exec_bind, Effect.bind_of_ok (exec_getRow hrow)]
  exact exec_settle { subTask with
    status := .failed, failedReason := "Failed to collect value. Because of " ++ e }
    (exists_row hrow rfl) hcalls _ fun _ => fail e

theorem enqueueWith_panic (hrow : Rows.find SubTask.id subTask.id s.subTasks = some subTask) : Prog.exec (enqueueWith (fun _ => .done .panic) subTask.id) env s =
    (.panic, s) := by
  rw [enqueueWith, Prog.exec_bind, Effect.bind_of_ok (exec_getRow hrow)]
  rfl

theorem settles_ok_iff {delivered : Prop} {o : Outcome String Unit} (ho : o ≠ .panic) :
    Settles delivered subTask s
        (o, settled s { subTask with status := .completed }
          (.subTaskReport subTask.id .completed)) ↔ delivered := by
  constructor
  · rintro ⟨-, ⟨-, h⟩ | ⟨reason, -, htrace⟩⟩
    · exact h
    · rw [settled, List.append_nil] at htrace
      cases List.append_cancel_left htrace
  · intro h
    refine ⟨ho, .inl ⟨⟨rfl, ?_⟩, h⟩⟩
    rw [settled, List.append_nil]

theorem settles_err {delivered : Prop} (e reason : String) : Settles delivered subTask s
    (.err e, settled s { subTask with status := .failed, failedReason := reason }
      (.subTaskReport subTask.id .failed)) := by
  refine ⟨Outcome.err_ne_panic e, .inr ⟨reason, rfl, ?_⟩⟩
  rw [settled, List.append_nil]

end Settling

theorem enqueue_settles_iff (checked : Bool) (regex : String → Option (String → List String))
    (w : Outside) (env : Env) (s : State) (subTask : SubTask) (source : Dto.CollectFrom)
    (rule : Dto.CollectRule) (collectTo : Dto.CollectTo) (optional : Bool)
    (htype : subTask.taskType = .collectedOut source rule collectTo optional)
    (hrow : Rows.find SubTask.id subTask.id s.subTasks = some subTask)
    (hcalls : ∀ n, env.fails n = none) :
    Settles (Delivered checked regex w rule collectTo optional) subTask s
        (Prog.exec (enqueue checked regex w subTask.id) env s) ↔
      Regular checked regex w rule collectTo := by
  have hrun : Prog.exec (enqueue checked regex w subTask.id) env s =
      Prog.exec (enqueueWith (fun _ => .done (runSubTask checked regex w subTask)) subTask.id)
        env s := by
    rw [enqueue, enqueueWith, enqueueWith, Prog.exec_bind, Prog.exec_bind,
      Effect.bind_of_ok (exec_getRow hrow), Effect.bind_of_ok (exec_getRow hrow)]
  rw [hrun, ← runSubTask_iff htype]
  cases runSubTask checked regex w subTask with
  | ok =>
    rw [enqueueWith_ok hrow hcalls, settles_ok_iff (Outcome.ok_ne_panic ())]
    exact ⟨fun h => ⟨Outcome.ok_ne_panic (), fun _ => h⟩, fun h => h.2 rfl⟩
  | err e =>
    rw [enqueueWith_err hrow hcalls]
    exact iff_of_true (settles_err e _) ⟨Outcome.err_ne_panic e, nofun⟩
  | panic =>
    rw [enqueueWith_panic hrow]
    exact iff_of_false (fun h => h.returns rfl) fun h => h.1 rfl

def idleJob : Job :=
  { state := .completed
    exitStatusCode := 0
    errorOutput := ""
    resourceUsed := ⟨0, 0, 0, 0, 0, 0, 0, 0, 0⟩ }

def calm : Env where
  fails _ := none
  jobId _ := ""
  job _ := idleJob
  installedHash _ := none
  installed _ := ""
  text _ := ""
  loadScript _ _ := ""
  deployers := []
  regex _ := none
  now := 0

def collecting (rule : Dto.CollectRule) (collectTo : Dto.CollectTo) : SubTask :=
  { id := 1
    parentId := 2
    status := .running
    taskType := .collectedOut .stdout rule collectTo false }

def holding (subTask : SubTask) : State := ⟨[], [subTask], [], 1, 0, 0, 0, []⟩

def success {α : Type} (content : Option α) : Reply α := ⟨200, some ⟨200, "Ok", content⟩⟩

def answers : Outside where
  loaded := .ok "done\n"
  url := .ok ()
  prepare _ := .ok (success (some ⟨.normal, 3⟩))
  mime := .ok ()
  partialUpload _ := .ok (success none)
  uploadText _ := .ok (success (some "3"))

def refusing : Outside :=
  { answers with
    prepare := fun _ => .ok ⟨200, some ⟨500, "interval error", none⟩⟩
    uploadText := fun _ => .ok ⟨404, none⟩ }

def readAll (text : String) : Option (String → List String) := some fun _ => [text]

theorem collecting_settles :
    Settles (Delivered true readAll answers (.bottomLines 1) (.file 3 "out") false)
      (collecting (.bottomLines 1) (.file 3 "out"))
      (holding (collecting (.bottomLines 1) (.file 3 "out")))
      (Prog.exec (enqueue true readAll answers 1) calm
        (holding (collecting (.bottomLines 1) (.file 3 "out")))) := by
  refine (enqueue_settles_iff true readAll answers calm _
    (collecting (.bottomLines 1) (.file 3 "out")) .stdout (.bottomLines 1) (.file 3 "out") false
    rfl (by decide +kernel) fun _ => rfl).mpr ⟨fun input hinput _ n hn => ?_,
      fun input output _ _ => ⟨rfl, fun reply body hreply hbody => ?_⟩⟩
  · cases hinput
    cases hn
    decide +kernel
  · cases hreply
    cases hbody
    refine ⟨⟨.normal, 3⟩, rfl, nofun, fun _ _ part hpart => ?_⟩
    cases hpart
    decide

-- A refused text, a refused file, and more lines than there are.
theorem collecting_unsettled :
    ¬Settles (Delivered true readAll refusing (.topLines 1) (.text 3) false)
      (collecting (.topLines 1) (.text 3)) (holding (collecting (.topLines 1) (.text 3)))
      (Prog.exec (enqueue true readAll refusing 1) calm
        (holding (collecting (.topLines 1) (.text 3)))) ∧
    ¬Settles (Delivered true readAll refusing (.topLines 1) (.file 3 "out") false)
      (collecting (.topLines 1) (.file 3 "out"))
      (holding (collecting (.topLines 1) (.file 3 "out")))
      (Prog.exec (enqueue true readAll refusing 1) calm
        (holding (collecting (.topLines 1) (.file 3 "out")))) ∧
    ¬Settles (Delivered true readAll answers (.bottomLines 2) (.text 3) false)
      (collecting (.bottomLines 2) (.text 3)) (holding (collecting (.bottomLines 2) (.text 3)))
      (Prog.exec (enqueue true readAll answers 1) calm
        (holding (collecting (.bottomLines 2) (.text 3)))) := by
  refine ⟨fun h => ?_, fun h => ?_, fun h => ?_⟩
  · have hevent : (Prog.exec (enqueue true readAll refusing 1) calm
        (holding (collecting (.topLines 1) (.text 3)))).2.trace = [.subTaskReport 1 .completed] := by
      decide +kernel
    obtain ⟨-, ⟨input, output, -, -, reply, hreply, hsuccess⟩ | ⟨⟨e, he⟩, -⟩⟩ | ⟨reason, -, htrace⟩ :=
      h.marked
    · cases hreply
      cases hsuccess
    · cases he
    · rw [hevent] at htrace
      cases htrace
  · exact h.returns (by decide +kernel)
  · exact h.returns (by decide +kernel)

end Kuintessence.Agent.Collection
