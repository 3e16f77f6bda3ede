import Kuintessence.Storage.Keys
import Kuintessence.Storage.Realtime

namespace Kuintessence.Realtime

inductive Call where
  | asking (clientId : Uuid) (cmd : ViewRealtimeCommand)
  | naming (clientId : Uuid)
  | noting (clientId reqId : Uuid)
  | taking (answered : Nat) (content : String)
  | looking (answered : Nat) (reqId : Uuid) (content : String)
  | fetching (answered : Nat) (key : String) (content : String)
  | delivering (delivery : Delivery)
  | dropping
  | clearing
  | lost
  | returned

namespace Call

def tag : Call → Option Access
  | .asking clientId cmd => some (.send clientId cmd)
  | .taking answered _ => some (.take answered)
  | .looking answered _ _ | .fetching answered _ _ => some (.lookUp answered)
  | .naming _ | .noting _ _ | .delivering _ | .dropping | .clearing => some .other
  | .lost | .returned => none

-- The answer that a call has still to deliver.
def pending : Call → Option (Nat × String)
  | .taking answered content => some (answered, content)
  | .looking answered _ content => some (answered, content)
  | .fetching answered _ content => some (answered, content)
  | .delivering delivery => some (delivery.answered, delivery.content)
  | _ => none

end Call

inductive Turn : Call → Board → Board → Call → Prop where
  | send (c : Uuid) (cmd : ViewRealtimeCommand) (s : Board) (k : Nat) :
      Turn (.asking c cmd) s { s with commands := s.commands ++ [(c, cmd)], calls := k }
        (if cmd.reqId = 0 then .naming c else .noting c cmd.reqId)
  | name (c : Uuid) (s : Board) (ids : Nat → Uuid) :
      Turn (.naming c) s { s with ids := ids } (.noting c (s.ids 0))
  | note (c reqId : Uuid) (s : Board) (k : Nat) :
      Turn (.noting c reqId) s
        { s with infos := Assoc.insert s.infos (key reqId c) ⟨reqId, c⟩, calls := k } .returned
  | take {answered : Nat} (content : String) {s : Board} {c : Uuid} {cmd : ViewRealtimeCommand}
      (h : s.commands[answered]? = some (c, cmd)) :
      Turn (.taking answered content) s s (.looking answered cmd.reqId content)
  | miss {answered : Nat} (content : String) {s : Board} (h : s.commands[answered]? = none) :
      Turn (.taking answered content) s s .lost
  | look (answered : Nat) {reqId : Uuid} (content : String) {s : Board} {found : String} (k : Nat)
      (hglob : glob (reqIdKeyRegex reqId) found = true) (h : found ∈ Assoc.keys s.infos) :
      Turn (.looking answered reqId content) s { s with calls := k }
        (.fetching answered found content)
  | absent (answered : Nat) {reqId : Uuid} (content : String) {s : Board} (k : Nat)
      (h : ∀ found ∈ Assoc.keys s.infos, glob (reqIdKeyRegex reqId) found = false) :
      Turn (.looking answered reqId content) s { s with calls := k } .lost
  | fetch (answered : Nat) {found : String} (content : String) {s : Board} {info : WsReqInfo}
      (k : Nat) (h : Assoc.get s.infos found = some info) :
      Turn (.fetching answered found content) s { s with calls := k }
        (.delivering ⟨answered, info.clientId, content⟩)
  | gone (answered : Nat) {found : String} (content : String) {s : Board} (k : Nat)
      (h : Assoc.get s.infos found = none) :
      Turn (.fetching answered found content) s { s with calls := k } .lost
  | deliver (delivery : Delivery) (s : Board) (k : Nat) :
      Turn (.delivering delivery) s
        { s with deliveries := s.deliveries ++ [delivery], calls := k } .returned
  | list (s : Board) (k : Nat) : Turn .dropping s { s with calls := k } .clearing
  | drop {s : Board} {infos : List (String × WsReqInfo)} (k : Nat) (h : infos ⊆ s.infos) :
      Turn .clearing s { s with infos := infos, calls := k } .returned

def turns (env : Env) : Phases Call Access Env Board where
  allowed := fun r => r = env
  tag := Call.tag
  move := Turn

def first : Job → Call
  | .request clientId cmd => .asking clientId cmd
  | .answer answered content => .taking answered content
  | .closeSession _ => .dropping
  | .expire _ => .clearing

section Conforming

variable {env : Env}

-- One step whose result is known.
theorem conforms_known {α : Type} {tag : Access} {m : Act α} {x : Call}
    {Q : Outcome String α → Call → Prop} (htag : x.tag = some tag)
    (h : ∀ s, ∃ o t y, m env s = (o, t) ∧ Turn x s t y ∧ Q o y) :
    Prog.Conforms (turns env) (Prog.atom tag m) x Q := by
  refine Prog.conforms_atom htag fun r hr s => ?_
  cases hr
  obtain ⟨o, t, y, hm, hmove, hQ⟩ := h s
  rw [hm]
  exact ⟨y, hmove, hQ⟩

variable (hfails : ∀ k, env.fails k = false)

include hfails

theorem run_call (s : Board) : call env s = (.ok s.calls, { s with calls := s.calls + 1 }) := by
  change (if env.fails s.calls then (.throw "external call failed" : Act Nat) else pure s.calls)
    env { s with calls := s.calls + 1 } = _
  rw [hfails]
  rfl

theorem run_queryKeys (regex : String) (s : Board) : WsReqInfoRepo.queryKeys regex env s =
    (.ok ((env.keys s.calls).on ((Assoc.keys s.infos).filter (glob regex))),
      { s with calls := s.calls + 1 }) :=
  Effect.bind_of_ok (run_call hfails s) _

theorem conforms_request (clientId : Uuid) (cmd : ViewRealtimeCommand) :
    Prog.Conforms (turns env) (RealtimeService.requestRealtimeFile clientId cmd)
      (.asking clientId cmd) fun _ z => z.tag = none := by
  have hnote (reqId : Uuid) : Prog.Conforms (turns env)
      (Prog.atom .other (WsReqInfoRepo.insertWithLease (key reqId clientId) ⟨reqId, clientId⟩))
      (.noting clientId reqId) fun _ z => z.tag = none :=
    conforms_known rfl fun s =>
      ⟨_, _, _, Effect.bind_of_ok (run_call hfails s) _, .note clientId reqId s _, rfl⟩
  refine Prog.Conforms.bind (conforms_known rfl fun s =>
    ⟨_, _, _, Effect.bind_of_ok (run_call hfails s) _, .send clientId cmd s _, ?_⟩)
  refine Prog.Conforms.bind ?_
  rw [RealtimeService.nameRequest]
  split
  · exact conforms_known rfl fun s => ⟨_, _, _, rfl, .name clientId s _, hnote _⟩
  · exact hnote cmd.reqId

theorem conforms_sendRealtime (answered : Nat) (reqId : Uuid) (content : String) :
    Prog.Conforms (turns env) (RealtimeService.sendRealtime answered reqId content)
      (.looking answered reqId content) fun _ z => z.tag = none := by
  refine Prog.Conforms.bind (Prog.Conforms.bind (Prog.Conforms.bind ?_))
  refine conforms_known rfl fun s => ?_
  have hquery := run_queryKeys hfails (reqIdKeyRegex reqId) s
  cases hhead : ((env.keys s.calls).on
      ((Assoc.keys s.infos).filter (glob (reqIdKeyRegex reqId)))).head? with
  | none =>
    refine ⟨_, _, _, hquery, .absent answered content _ fun found hfound => ?_, ?_⟩
    · by_contra hglob
      have hmem := (env.keys s.calls).mem_on.mpr
        (List.mem_filter.mpr ⟨hfound, by simpa using hglob⟩)
      rw [List.head?_eq_none_iff.mp hhead] at hmem
      cases hmem
    · rw [Prog.Sequel, hhead]
      exact rfl
  | some found =>
    have hmem := List.mem_filter.mp ((Order.mem_on _).mp (List.mem_of_mem_head? hhead))
    refine ⟨_, _, _, hquery, .look answered content _ hmem.2 hmem.1, ?_⟩
    rw [Prog.Sequel, hhead]
    refine Prog.Conforms.bind (conforms_known rfl fun t => ?_)
    cases hget : Assoc.get t.infos found with
    | none =>
      have hrun : WsReqInfoRepo.get found env t =
          (.err "response is nil", { t with calls := t.calls + 1 }) := by
        refine (Effect.bind_of_ok (run_call hfails t) _).trans ?_
        change orFail "response is nil" (Assoc.get t.infos found) env _ = _
        rw [hget]
        rfl
      exact ⟨_, _, _, hrun, .gone answered content _ hget, rfl⟩
    | some info =>
      have hrun : WsReqInfoRepo.get found env t = (.ok info, { t with calls := t.calls + 1 }) := by
        refine (Effect.bind_of_ok (run_call hfails t) _).trans ?_
        change orFail "response is nil" (Assoc.get t.infos found) env _ = _
        rw [hget]
        rfl
      refine ⟨_, _, _, hrun, .fetch answered content _ hget, ?_⟩
      exact conforms_known rfl fun u =>
        ⟨_, _, _, Effect.bind_of_ok (run_call hfails u) _, .deliver _ u _, rfl⟩

theorem conforms_answer (answered : Nat) (content : String) :
    Prog.Conforms (turns env) (answer answered content) (.taking answered content)
      fun _ z => z.tag = none := by
  refine Prog.Conforms.bind (conforms_known rfl fun s => ?_)
  cases hcommand : s.commands[answered]? with
  | none =>
    refine ⟨.ok none, s, _, ?_, .miss content hcommand, rfl⟩
    rw [← hcommand]
    rfl
  | some command =>
    obtain ⟨c, cmd⟩ := command
    refine ⟨.ok (some (c, cmd)), s, _, ?_, .take content hcommand, ?_⟩
    · rw [← hcommand]
      rfl
    · exact conforms_sendRealtime hfails answered cmd.reqId content

theorem conforms_job (job : Job) :
    Prog.Conforms (turns env) job.prog (first job) fun _ z => z.tag = none := by
  cases job with
  | request clientId cmd => exact conforms_request hfails clientId cmd
  | answer answered content => exact conforms_answer hfails answered content
  | closeSession clientId =>
    refine Prog.Conforms.bind (conforms_known rfl fun s =>
      ⟨_, _, _, run_queryKeys hfails _ s, .list s _, ?_⟩)
    refine conforms_known rfl fun t => ?_
    have hrun := run_call hfails t
    generalize (env.keys s.calls).on _ = keys
    cases keys with
    | nil => exact ⟨_, _, _, Effect.bind_of_ok hrun _, .drop _ (List.Subset.refl _), rfl⟩
    | cons key keys =>
      exact ⟨_, _, _, Effect.bind_of_ok hrun _, .drop _ (fun _ he => List.mem_of_mem_filter he), rfl⟩
  | expire key =>
    exact conforms_known rfl fun s => ⟨_, _, _, rfl, .drop s.calls (fun _ he => List.mem_of_mem_filter he), rfl⟩

end Conforming

section Keys

theorem glob_reqIdKeyRegex {reqId reqId' clientId : Uuid} :
    glob (reqIdKeyRegex reqId) (key reqId' clientId) = true ↔ reqId = reqId' := by
  have hplain : ∀ c ∈ (Storage.uuidText reqId ++ "_").toList, Glob.isPlain c = true := by
    intro c hc
    rw [String.toList_append, List.mem_append] at hc
    obtain hc | hc := hc
    · exact Storage.MultipartService.uuidText_plain hc
    · exact List.all_eq_true.mp (by decide +kernel) c hc
  rw [reqIdKeyRegex, glob_plain hplain]
  constructor
  · rintro ⟨rest, hrest⟩
    rw [key, String.toList_append, String.toList_append, String.toList_append] at hrest
    have hshape : (Storage.uuidText reqId).toList ++ '_' :: rest =
        (Storage.uuidText reqId').toList ++ '_' :: (Storage.uuidText clientId).toList := by
      simpa using hrest
    exact Storage.uuid_before hshape
  · rintro rfl
    have hkey : (key reqId clientId).toList =
        (Storage.uuidText reqId ++ "_").toList ++ (Storage.uuidText clientId).toList :=
      String.toList_append
    rw [hkey]
    exact List.prefix_append _ _

end Keys

def answers (moves : List (Move Job)) : List (Nat × String) :=
  moves.filterMap fun
    | .spawn (.answer answered content) => some (answered, content)
    | _ => none

-- The identifiers are not nil and not shared, and a request's record is there while it is answered.
def Board.Admits (s : Board) : Access → Prop
  | .send clientId cmd => cmd.reqId ≠ 0 ∧
      ∀ e ∈ s.commands, e.2.reqId = cmd.reqId → e.1 = clientId
  | .take answered => answered < s.commands.length
  | .lookUp answered => ∀ e ∈ s.commands[answered]?,
      (Assoc.get s.infos (key e.2.reqId e.1)).isSome = true
  | .other => True

def Addressed (p : Calls) : Move Job → Prop
  | .spawn _ => True
  | .go i => ∀ tag ∈ p.tag i, p.state.Admits tag

instance (s : Board) (tag : Access) : Decidable (s.Admits tag) :=
  match tag with
  | .send clientId cmd => inferInstanceAs (Decidable (cmd.reqId ≠ 0 ∧
      ∀ e ∈ s.commands, e.2.reqId = cmd.reqId → e.1 = clientId))
  | .take answered => inferInstanceAs (Decidable (answered < s.commands.length))
  | .lookUp answered => inferInstanceAs (Decidable (∀ e ∈ s.commands[answered]?,
      (Assoc.get s.infos (key e.2.reqId e.1)).isSome = true))
  | .other => .isTrue trivial

instance (p : Calls) (move : Move Job) : Decidable (Addressed p move) :=
  match move with
  | .spawn _ => .isTrue trivial
  | .go i => inferInstanceAs (Decidable (∀ tag ∈ p.tag i, p.state.Admits tag))

def Delivery.AsAsked (d : Delivery) (s : Board) : Prop :=
  ∃ e ∈ s.commands[d.answered]?, e.1 = d.clientId

structure Answered (asked : List (Nat × String)) (p : Calls) : Prop where
  own : ∀ d ∈ p.state.deliveries, d.AsAsked p.state
  every : (∀ i, p.tag i = none) →
    (p.state.deliveries.map fun d => (d.answered, d.content)).Perm asked

section Invariant

-- What a call that goes on as it should relies on.
def Fits (s : Board) : Call → Prop
  | .noting clientId reqId => ∃ cmd, (clientId, cmd) ∈ s.commands ∧ cmd.reqId = reqId
  | .looking answered reqId _ => ∃ e, s.commands[answered]? = some e ∧ e.2.reqId = reqId
  | .fetching answered found _ => ∃ e, s.commands[answered]? = some e ∧ found = key e.2.reqId e.1
  | .delivering delivery => delivery.AsAsked s
  | .naming _ | .lost => False
  | _ => True

structure Sound (asked : List (Nat × String)) (s : Board) (cs : List Call) : Prop where
  apart : ∀ e ∈ s.commands, ∀ e' ∈ s.commands, e.2.reqId = e'.2.reqId → e.1 = e'.1
  noted : ∀ e ∈ s.infos, e.1 = key e.2.requestId e.2.clientId ∧
    ∃ cmd, (e.2.clientId, cmd) ∈ s.commands ∧ cmd.reqId = e.2.requestId
  own : ∀ d ∈ s.deliveries, d.AsAsked s
  fits : ∀ c ∈ cs, Fits s c
  counted : ((s.deliveries.map fun d => (d.answered, d.content)) ++
    cs.filterMap Call.pending).Perm asked

variable {asked : List (Nat × String)} {s t : Board} {cs : List Call} {c c' : Call} {i : Nat}

theorem kept_at {more : List (Uuid × ViewRealtimeCommand)} (ht : t.commands = s.commands ++ more)
    {answered : Nat} {e : Uuid × ViewRealtimeCommand} (h : s.commands[answered]? = some e) :
    t.commands[answered]? = some e := by
  rw [ht, List.getElem?_append_left (List.getElem?_eq_some_iff.mp h).1]
  exact h

theorem Delivery.AsAsked.mono {d : Delivery} {more : List (Uuid × ViewRealtimeCommand)}
    (h : d.AsAsked s) (ht : t.commands = s.commands ++ more) : d.AsAsked t := by
  obtain ⟨e, he, hclient⟩ := h
  exact ⟨e, kept_at ht he, hclient⟩

theorem Fits.mono {more : List (Uuid × ViewRealtimeCommand)} (h : Fits s c)
    (ht : t.commands = s.commands ++ more) : Fits t c := by
  cases c with
  | noting clientId reqId =>
    obtain ⟨cmd, hcmd, hid⟩ := h
    exact ⟨cmd, ht ▸ List.mem_append_left _ hcmd, hid⟩
  | looking answered reqId content =>
    obtain ⟨e, he, hid⟩ := h
    exact ⟨e, kept_at ht he, hid⟩
  | fetching answered found content =>
    obtain ⟨e, he, hfound⟩ := h
    exact ⟨e, kept_at ht he, hfound⟩
  | delivering delivery => exact Delivery.AsAsked.mono h ht
  | _ => exact h

theorem Sound.replace (h : Sound asked s cs) (more : List (Uuid × ViewRealtimeCommand))
    (hc : cs[i]? = some c) (ht : t.commands = s.commands ++ more)
    (hapart : ∀ e ∈ t.commands, ∀ e' ∈ t.commands, e.2.reqId = e'.2.reqId → e.1 = e'.1)
    (hnoted : ∀ e ∈ t.infos, e ∈ s.infos ∨ e.1 = key e.2.requestId e.2.clientId ∧
      ∃ cmd, (e.2.clientId, cmd) ∈ t.commands ∧ cmd.reqId = e.2.requestId)
    (hfits : Fits t c') (hown : ∀ d ∈ t.deliveries, d ∈ s.deliveries ∨ d.AsAsked t)
    (hcounted : ((t.deliveries.map fun d => (d.answered, d.content)) ++ c'.pending.toList).Perm
      ((s.deliveries.map fun d => (d.answered, d.content)) ++ c.pending.toList)) :
    Sound asked t (cs.set i c') := by
  refine ⟨hapart, fun e he => ?_, fun d hd => ?_, fun x hx => ?_, ?_⟩
  · obtain he | he := hnoted e he
    · obtain ⟨hkey, cmd, hcmd, hid⟩ := h.noted e he
      exact ⟨hkey, cmd, ht ▸ List.mem_append_left _ hcmd, hid⟩
    · exact he
  · obtain hd | hd := hown d hd
    · exact (h.own d hd).mono ht
    · exact hd
  · obtain hx | rfl := List.mem_or_eq_of_mem_set hx
    · exact (h.fits x hx).mono ht
    · exact hfits
  · obtain ⟨rest, hold, hnew⟩ := exists_perm_filterMap_set Call.pending hc
    have hsplit := (h.counted.symm.trans (hold.append_left _)).symm
    refine List.Perm.trans ?_ hsplit
    refine ((hnew c').append_left _).trans ?_
    rw [← List.append_assoc, ← List.append_assoc]
    exact hcounted.append_right rest

theorem Sound.still (h : Sound asked s cs) (hc : cs[i]? = some c)
    (hcommands : t.commands = s.commands) (hinfos : t.infos ⊆ s.infos)
    (hdeliveries : t.deliveries = s.deliveries) (hpending : c'.pending = c.pending)
    (hfits : Fits t c') : Sound asked t (cs.set i c') := by
  refine h.replace [] hc ?_ ?_ (fun e he => .inl (hinfos he)) hfits ?_ ?_
  · rw [hcommands, List.append_nil]
  · rw [hcommands]
    exact h.apart
  · rw [hdeliveries]
    exact fun d hd => .inl hd
  · rw [hdeliveries, hpending]

theorem Sound.found (h : Sound asked s cs) {answered : Nat} {e : Uuid × ViewRealtimeCommand}
    (he : s.commands[answered]? = some e) {info : String × WsReqInfo} (hinfo : info ∈ s.infos)
    (hglob : glob (reqIdKeyRegex e.2.reqId) info.1 = true) :
    e.2.reqId = info.2.requestId ∧ e.1 = info.2.clientId := by
  obtain ⟨hkey, cmd, hcmd, hid⟩ := h.noted info hinfo
  rw [hkey, glob_reqIdKeyRegex] at hglob
  exact ⟨hglob, h.apart e (List.mem_of_getElem? he) (info.2.clientId, cmd) hcmd
    (hglob.trans hid.symm)⟩

theorem Sound.turn (h : Sound asked s cs) (hc : cs[i]? = some c) (hturn : Turn c s t c')
    (hok : ∀ tag ∈ c.tag, s.Admits tag) : Sound asked t (cs.set i c') := by
  have hfits := h.fits c (List.mem_of_getElem? hc)
  cases hturn with
  | send clientId cmd k =>
    obtain ⟨hnil, hnew⟩ := hok _ rfl
    rw [if_neg hnil]
    refine h.replace [(clientId, cmd)] hc rfl (fun e he e' he' hid => ?_) (fun e he => .inl he)
      ⟨cmd, List.mem_append_right _ List.mem_cons_self, rfl⟩ (fun d hd => .inl hd) (.refl _)
    obtain he | he := List.mem_append.mp he
    · obtain he' | he' := List.mem_append.mp he'
      · exact h.apart e he e' he' hid
      · rw [List.mem_singleton.mp he'] at hid ⊢
        exact hnew e he hid
    · rw [List.mem_singleton.mp he] at hid ⊢
      obtain he' | he' := List.mem_append.mp he'
      · exact (hnew e' he' hid.symm).symm
      · rw [List.mem_singleton.mp he']
  | name clientId ids => exact hfits.elim
  | note clientId reqId k =>
    refine h.replace [] hc (List.append_nil _).symm h.apart (fun e he => ?_) trivial
      (fun d hd => .inl hd) (.refl _)
    obtain he | rfl := Assoc.mem_of_mem_insert he
    · exact .inl he
    · exact .inr ⟨rfl, hfits⟩
  | take content he => exact h.still hc rfl (List.Subset.refl _) rfl rfl ⟨_, he, rfl⟩
  | miss content hnone =>
    have hlt := hok _ rfl
    rw [List.getElem?_eq_none_iff] at hnone
    exact absurd hlt (Nat.not_lt.mpr hnone)
  | look answered content k hglob hfound =>
    obtain ⟨e, he, rfl⟩ := hfits
    obtain ⟨info, hinfo, rfl⟩ := List.mem_map.mp hfound
    obtain ⟨hid, hclient⟩ := h.found he hinfo hglob
    refine h.still hc rfl (List.Subset.refl _) rfl rfl ⟨e, he, ?_⟩
    rw [hid, hclient]
    exact (h.noted info hinfo).1
  | absent answered content k hnone =>
    obtain ⟨e, he, rfl⟩ := hfits
    have hsome := hok _ rfl e he
    obtain ⟨info, hinfo⟩ := Option.isSome_iff_exists.mp hsome
    have habsent := hnone _ (Assoc.mem_keys_of_mem (Assoc.mem_of_get hinfo))
    rw [glob_reqIdKeyRegex.mpr rfl] at habsent
    cases habsent
  | fetch answered content k hget =>
    obtain ⟨e, he, rfl⟩ := hfits
    obtain ⟨-, hclient⟩ := h.found he (Assoc.mem_of_get hget) (glob_reqIdKeyRegex.mpr rfl)
    exact h.still hc rfl (List.Subset.refl _) rfl rfl ⟨e, he, hclient⟩
  | gone answered content k hnone =>
    obtain ⟨e, he, rfl⟩ := hfits
    have hsome := hok _ rfl e he
    rw [hnone] at hsome
    cases hsome
  | deliver delivery k =>
    refine h.replace [] hc (List.append_nil _).symm h.apart (fun e he => .inl he) trivial
      (fun d hd => ?_) ?_
    · obtain hd | hd := List.mem_append.mp hd
      · exact .inl hd
      · rw [List.mem_singleton.mp hd]
        exact .inr hfits
    · rw [List.map_append, List.append_assoc]
      exact .refl _
  | list k => exact h.still hc rfl (List.Subset.refl _) rfl rfl trivial
  | drop k hsub => exact h.still hc rfl hsub rfl rfl trivial

end Invariant

section Runs

variable {env : Env} {asked : List (Nat × String)} {p : Calls} {cs : List Call}

structure Underway (env : Env) (asked : List (Nat × String)) (p : Calls) (cs : List Call) :
    Prop where
  follows : Pool.Follows (turns env) p cs
  sound : Sound asked p.state cs

theorem Sound.spawn {s : Board} (h : Sound asked s cs) (job : Job) :
    Sound (asked ++ answers [.spawn job]) s (cs ++ [first job]) := by
  refine ⟨h.apart, h.noted, h.own, fun c hc => ?_, ?_⟩
  · obtain hc | hc := List.mem_append.mp hc
    · exact h.fits c hc
    · rw [List.mem_singleton.mp hc]
      cases job <;> trivial
  · have hlast : [first job].filterMap Call.pending = answers [.spawn job] := by cases job <;> rfl
    rw [List.filterMap_append, hlast, ← List.append_assoc]
    exact h.counted.append_right _

theorem Underway.step (hfails : ∀ k, env.fails k = false) (h : Underway env asked p cs)
    {move : Move Job} (hok : Addressed p move) :
    ∃ cs', Underway env (asked ++ answers [move]) (p.step (start env) move) cs' := by
  cases move with
  | spawn job =>
    have hfollows : Pool.Follows (turns env) (p.step (start env) (.spawn job)) (cs ++ [first job]) :=
      h.follows.spawn (x := start env job) rfl (conforms_job hfails job)
    exact ⟨_, hfollows, h.sound.spawn job⟩
  | go i =>
    have hasked : asked ++ answers [.go i] = asked := List.append_nil asked
    rw [hasked]
    obtain ⟨c, c', hc, hturn, hfollows⟩ | ⟨hsame, -⟩ := h.follows.go i
    · refine ⟨cs.set i c', hfollows, h.sound.turn hc hturn fun tag htag => hok tag ?_⟩
      rw [h.follows.tag, hc]
      exact htag
    · exact ⟨cs, by rw [Pool.step, hsame]; exact h⟩

theorem Underway.answered (h : Underway env asked p cs) : Answered asked p := by
  refine ⟨h.sound.own, fun hdone => ?_⟩
  have hnone : cs.filterMap Call.pending = [] := by
    refine List.filterMap_eq_nil_iff.mpr fun c hc => ?_
    obtain ⟨i, hi⟩ := List.getElem?_of_mem hc
    have htag := h.follows.tag i
    rw [hdone i, hi] at htag
    cases c with
    | lost => rfl
    | returned => rfl
    | _ => cases htag
  have hcounted := h.sound.counted
  rw [hnone, List.append_nil] at hcounted
  exact hcounted

theorem answers_reach_askers {ids : Nat → Uuid} {moves : List (Move Job)}
    (hfails : ∀ k, env.fails k = false)
    (h : Along (Pool.step (start env)) Addressed (empty ids) moves) :
    Answered (answers moves) (run (Pool.step (start env)) (empty ids) moves) := by
  have hrun : ∃ cs, Underway env (answers moves) (run (Pool.step (start env)) (empty ids) moves)
      cs := by
    induction moves using List.reverseRecOn with
    | nil =>
      refine ⟨[], ⟨rfl, fun i x y hx => absurd hx (by simp [empty, run])⟩, ?_⟩
      exact ⟨fun _ he => absurd he List.not_mem_nil, fun _ he => absurd he List.not_mem_nil,
        fun _ hd => absurd hd List.not_mem_nil, fun _ hc => absurd hc List.not_mem_nil, .refl _⟩
    | append_singleton moves move ih =>
      have hsplit : answers (moves ++ [move]) = answers moves ++ answers [move] :=
        List.filterMap_append
      rw [along_append] at h
      obtain ⟨cs, hcs⟩ := ih h.1
      rw [hsplit, run_append]
      exact hcs.step hfails h.2.1
  obtain ⟨cs, hcs⟩ := hrun
  exact hcs.answered

end Runs

section Samples

def upEnv : Env := ⟨fun _ => false, fun _ => .asIs _⟩

def view (reqId : Uuid) : ViewRealtimeCommand := ⟨reqId, 41, 42, 0, 10, ""⟩

-- Two requests; then the agent of the second answers.
def twoRequests (first second : Uuid) : List (Move Job) :=
  [.spawn (.request 1 (view first)), .go 0, .go 0, .go 0, .spawn (.request 2 (view second)),
    .go 1, .go 1, .go 1, .spawn (.answer 1 "rows"), .go 2, .go 2, .go 2, .go 2]

def ended (moves : List (Move Job)) : Calls :=
  run (Pool.step (start upEnv)) (empty fun n => 500 + n) moves

theorem answers_reach_askers_sample :
    Answered [(1, "rows")] (ended (twoRequests 7 8)) := by
  have halong : Along (Pool.step (start upEnv)) Addressed (empty fun n => 500 + n)
      (twoRequests 7 8) := by
    decide +kernel
  exact answers_reach_askers (fun _ => rfl) halong

-- A nil identifier reaches the agent, whose answer then finds no client; a shared one finds the
-- other client.
theorem answers_astray :
    (∀ i < 3, (ended (twoRequests 0 0)).tag i = none) ∧
      (ended (twoRequests 0 0)).state.deliveries = [] ∧
      (ended (twoRequests 7 7)).state.deliveries = [⟨1, 1, "rows"⟩] ∧
      (ended (twoRequests 7 7)).state.commands[1]? = some (2, view 7) := by
  decide +kernel

end Samples

end Kuintessence.Realtime
