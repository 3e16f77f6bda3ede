import Kuintessence.Lib.Phases
import Kuintessence.Storage.Assembly

namespace Kuintessence.Storage

open Effect

-- What a step of an upload does to the multipart record and to the file it becomes.
inductive Access where
  | other
  | lookUp
  | save
  | handOver
  deriving DecidableEq, Repr

-- The depot with a note of the ids that were merged and that were handed over.
structure Desk where
  depot : Depot
  merged : List Uuid
  handed : List Uuid

abbrev Steps (α : Type) := Prog Access Env Desk Exception α

def onDepot {α : Type} (m : Act α) : Effect Env Desk Exception α := fun env s =>
  ((m env s.depot).1, { s with depot := (m env s.depot).2 })

def noteMerged (id : Uuid) (m : Act Unit) : Effect Env Desk Exception Unit := do
  onDepot m
  .modify fun s => { s with merged := s.merged ++ [id] }

def noteHanded (id : Uuid) (m : Act Unit) : Effect Env Desk Exception Unit := do
  .modify fun s => { s with handed := s.handed ++ [id] }
  onDepot m

namespace Stepwise

def readParts (metaId : Uuid) : List Nat → Bytes → Steps Bytes
  | [], content => pure content
  | nth :: nths, content => do
    let part ← Prog.atom .other (onDepot (CacheService.readPart metaId nth))
    readParts metaId nths (content ++ part)

def merge (metaId : Uuid) (multipart : Multipart) : Steps Unit := do
  let content ← readParts metaId (List.range multipart.parts.length) []
  let env ← Prog.atom .other (onDepot .read)
  let completedHash := MultipartService.toUppercase (env.blake3 content)
  if completedHash ≠ multipart.hash then
    .done (.err (.differentHashs metaId multipart.hash completedHash))
  else do
    Prog.atom .other (noteMerged metaId (CacheService.writeNormal metaId content))
    Prog.atom .other (onDepot (CacheService.removeMultipartDir metaId))

def completePart (part : Part) : Steps (List Nat) := do
  Prog.atom .other (onDepot (CacheService.writePart part))
  let found ← Prog.atom .lookUp
    (onDepot (MultipartRepo.getOneByKeyRegex (MultipartService.idKeyRegex part.metaId)))
  match found with
  | none => .done (.err (.multipartNotFound part.metaId))
  | some multipart =>
    if part.nth < multipart.parts.length then do
      let multipart := { multipart with parts := multipart.parts.set part.nth true }
      Prog.atom .save (onDepot (MultipartRepo.write
        (MultipartService.idHashKey part.metaId multipart.hash) multipart))
      let unfinished := MultipartService.unfinishedParts multipart.parts
      if unfinished.isEmpty then do
        merge part.metaId multipart
        pure []
      else pure unfinished
    else .done (.err (.noSuchPart part.metaId part.nth))

def partialUpload (part : Part) : Steps Unit := do
  let result ← Prog.attempt (completePart part)
  match result with
  | .ok [] =>
    Prog.atom .handOver (noteHanded part.metaId (FileMoveService.doRegisteredMoves part.metaId))
  | .ok _ => pure ()
  | .error (.differentHashs _ origin completed) => do
    let _ ← Prog.attempt (Prog.atom .other (onDepot
      (FileMoveService.setAllMovesWithSameMetaIdAsFailed part.metaId
        s!"Original hash: {origin}. Completed hash: {completed}")))
    pure ()
  | .error _ => pure ()

end Stepwise

section Sequential

-- One call alone does what the call in one piece does.
def Refines {α : Type} (p : Steps α) (m : Act α) : Prop :=
  ∀ env s, (p.exec env s).1 = (m env s.depot).1 ∧ (p.exec env s).2.depot = (m env s.depot).2

variable {α β : Type} {p : Steps α} {m : Act α} {f : α → Steps β} {g : α → Act β}

theorem Refines.bind (h : Refines p m) (hf : ∀ a, Refines (f a) (g a)) :
    Refines (p >>= f) (m >>= g) := by
  intro env s
  obtain ⟨hout, hdepot⟩ := h env s
  rw [Prog.exec_bind]
  change (Effect.bind _ _ env s).1 = (Effect.bind m g env s.depot).1 ∧
    (Effect.bind _ _ env s).2.depot = (Effect.bind m g env s.depot).2
  unfold Effect.bind
  revert hout hdepot
  generalize p.exec env s = out
  generalize m env s.depot = out'
  obtain ⟨o, t⟩ := out
  obtain ⟨o', t'⟩ := out'
  rintro rfl rfl
  cases o with
  | ok a => exact hf a env t
  | err e => exact ⟨rfl, rfl⟩
  | panic => exact ⟨rfl, rfl⟩

theorem Refines.attempt (h : Refines p m) : Refines (Prog.attempt p) m.attempt := by
  intro env s
  obtain ⟨hout, hdepot⟩ := h env s
  rw [Prog.exec_attempt]
  unfold Effect.attempt
  revert hout hdepot
  generalize p.exec env s = out
  generalize m env s.depot = out'
  obtain ⟨o, t⟩ := out
  obtain ⟨o', t'⟩ := out'
  rintro rfl rfl
  cases o <;> exact ⟨rfl, rfl⟩

theorem refines_pure (a : α) : Refines (pure a) (pure a) := fun _ _ => ⟨rfl, rfl⟩

theorem refines_throw (e : Exception) : Refines (.done (.err e) : Steps α) (.throw e) :=
  fun _ _ => ⟨rfl, rfl⟩

theorem refines_onDepot (tag : Access) (m : Act α) : Refines (Prog.atom tag (onDepot m)) m :=
  fun _ _ => ⟨rfl, rfl⟩

theorem refines_noteMerged (tag : Access) (id : Uuid) (m : Act Unit) :
    Refines (Prog.atom tag (noteMerged id m)) m := by
  intro env s
  change (Effect.bind (onDepot m) _ env s).1 = _ ∧ (Effect.bind (onDepot m) _ env s).2.depot = _
  unfold Effect.bind onDepot
  generalize m env s.depot = out
  obtain ⟨o, t⟩ := out
  cases o <;> exact ⟨rfl, rfl⟩

theorem refines_noteHanded (tag : Access) (id : Uuid) (m : Act Unit) :
    Refines (Prog.atom tag (noteHanded id m)) m := fun _ _ => ⟨rfl, rfl⟩

theorem refines_readParts (metaId : Uuid) (nths : List Nat) (content : Bytes) :
    Refines (Stepwise.readParts metaId nths content)
      (mapEach (CacheService.readPart metaId) nths >>= fun parts =>
        pure (content ++ parts.flatten)) := by
  induction nths generalizing content with
  | nil =>
    intro env s
    refine ⟨?_, rfl⟩
    change Outcome.ok content = .ok (content ++ [])
    rw [List.append_nil]
  | cons nth nths ih =>
    have heq : (mapEach (CacheService.readPart metaId) (nth :: nths) >>= fun parts =>
        pure (content ++ parts.flatten) : Act Bytes) = CacheService.readPart metaId nth >>=
          fun part => mapEach (CacheService.readPart metaId) nths >>= fun parts =>
            pure (content ++ part ++ parts.flatten) := by
      simp [mapEach, List.append_assoc]
    rw [heq]
    exact (refines_onDepot _ _).bind fun part => ih (content ++ part)

theorem read_comm {ρ σ ε γ δ : Type} (n : Effect ρ σ ε γ) (k : ρ → γ → Effect ρ σ ε δ) :
    (Effect.read >>= fun r => n >>= fun a => k r a) =
      n >>= fun a => Effect.read >>= fun r => k r a := by
  funext r s
  change Effect.bind n _ r s = Effect.bind n _ r s
  unfold Effect.bind
  generalize n r s = out
  obtain ⟨o, t⟩ := out
  cases o <;> rfl

theorem refines_ite {c : Prop} [Decidable c] {q : Steps α} {n : Act α} (h : Refines p m)
    (h' : Refines q n) : Refines (if c then p else q) (if c then m else n) := by
  split
  · exact h
  · exact h'

theorem refines_merge (metaId : Uuid) (multipart : Multipart) :
    Refines (Stepwise.merge metaId multipart) (MultipartService.merge metaId multipart) := by
  have heq : MultipartService.merge metaId multipart =
      ((mapEach (CacheService.readPart metaId) (List.range multipart.parts.length) >>= fun parts =>
        pure ([] ++ parts.flatten)) >>= fun content => Effect.read >>= fun env =>
          let completedHash := MultipartService.toUppercase (env.blake3 content)
          if completedHash ≠ multipart.hash then
            .throw (.differentHashs metaId multipart.hash completedHash)
          else do
            CacheService.writeNormal metaId content
            CacheService.removeMultipartDir metaId : Act Unit) := by
    rw [MultipartService.merge, read_comm]
    simp
  rw [heq]
  refine (refines_readParts _ _ _).bind fun content => (refines_onDepot _ _).bind fun env => ?_
  refine refines_ite (refines_throw _) ?_
  exact (refines_noteMerged _ _ _).bind fun _ => refines_onDepot _ _

theorem refines_completePart (part : Part) :
    Refines (Stepwise.completePart part) (MultipartService.completePart part) := by
  refine (refines_onDepot _ _).bind fun _ => (refines_onDepot _ _).bind fun found => ?_
  cases found with
  | none => exact refines_throw _
  | some multipart =>
    refine refines_ite ((refines_onDepot _ _).bind fun _ => ?_) (refines_throw _)
    exact refines_ite ((refines_merge _ _).bind fun _ => refines_pure _) (refines_pure _)

theorem refines_partialUpload (part : Part) :
    Refines (Stepwise.partialUpload part) (partialUpload part) := by
  refine (refines_completePart part).attempt.bind fun result => ?_
  cases result with
  | ok unfinished =>
    cases unfinished with
    | nil => exact refines_noteHanded _ _ _
    | cons nth nths => exact refines_pure _
  | error e =>
    cases e with
    | differentHashs id origin completed =>
      exact (refines_onDepot _ _).attempt.bind fun _ => refines_pure _
    | _ => exact refines_pure _

end Sequential

inductive Stage where
  | fresh
  | written
  | looked (m : Multipart)
  | joining (m : Multipart) (content : Bytes) (nths : List Nat)
  | joined (content : Bytes)
  | stored
  | ready
  | differing
  | returned

structure Caller where
  part : Part
  stage : Stage

def Caller.tag (c : Caller) : Option Access :=
  match c.stage with
  | .written => some .lookUp
  | .looked _ => some .save
  | .ready => some .handOver
  | .returned => none
  | _ => some .other

def Desk.called (s : Desk) (k : Nat) : Desk := { s with depot := { s.depot with calls := k } }

def Multipart.marked (m : Multipart) (nth : Nat) : Multipart :=
  { m with parts := m.parts.set nth true }

inductive Moves (env : Env) : Caller → Desk → Desk → Caller → Prop where
  | write (p : Part) (s : Desk) (k : Nat) : Moves env ⟨p, .fresh⟩ s
      { s with depot := { s.depot with
        calls := k
        parts := Assoc.insert s.depot.parts (p.metaId, p.nth) p.content } } ⟨p, .written⟩
  | find (p : Part) (s : Desk) (k : Nat) {key : String} {m : Multipart}
      (hkey : glob (MultipartService.idKeyRegex p.metaId) key = true)
      (hget : Assoc.get s.depot.multiparts key = some m) (hnth : p.nth < m.parts.length) :
      Moves env ⟨p, .written⟩ s (s.called k) ⟨p, .looked m⟩
  | refuse (p : Part) (s : Desk) (k : Nat)
      (h : (∀ e ∈ s.depot.multiparts, glob (MultipartService.idKeyRegex p.metaId) e.1 = false) ∨
        ∃ key m, glob (MultipartService.idKeyRegex p.metaId) key = true ∧
          Assoc.get s.depot.multiparts key = some m ∧ ¬p.nth < m.parts.length) :
      Moves env ⟨p, .written⟩ s (s.called k) ⟨p, .returned⟩
  | save (p : Part) (s : Desk) (k : Nat) (m : Multipart) : Moves env ⟨p, .looked m⟩ s
      { s with depot := { s.depot with
        calls := k
        multiparts := Assoc.insert s.depot.multiparts (MultipartService.idHashKey p.metaId m.hash)
          (m.marked p.nth) } }
      ⟨p, if MultipartService.unfinishedParts (m.marked p.nth).parts = [] then
        .joining (m.marked p.nth) [] (List.range m.parts.length) else .returned⟩
  | read (p : Part) (s : Desk) (k : Nat) {m : Multipart} {content part : Bytes} {nth : Nat}
      {nths : List Nat} (h : Assoc.get s.depot.parts (p.metaId, nth) = some part) :
      Moves env ⟨p, .joining m content (nth :: nths)⟩ s (s.called k)
        ⟨p, .joining m (content ++ part) nths⟩
  | miss (p : Part) (s : Desk) (k : Nat) {m : Multipart} {content : Bytes} {nth : Nat}
      {nths : List Nat} (h : Assoc.get s.depot.parts (p.metaId, nth) = none) :
      Moves env ⟨p, .joining m content (nth :: nths)⟩ s (s.called k) ⟨p, .returned⟩
  | agree (p : Part) (s : Desk) {m : Multipart} {content : Bytes}
      (h : MultipartService.toUppercase (env.blake3 content) = m.hash) :
      Moves env ⟨p, .joining m content []⟩ s s ⟨p, .joined content⟩
  | differ (p : Part) (s : Desk) {m : Multipart} {content : Bytes}
      (h : MultipartService.toUppercase (env.blake3 content) ≠ m.hash) :
      Moves env ⟨p, .joining m content []⟩ s s ⟨p, .differing⟩
  | store (p : Part) (s : Desk) (k : Nat) (content : Bytes) : Moves env ⟨p, .joined content⟩ s
      { s with
        depot := { s.depot with
          calls := k, normal := Assoc.insert s.depot.normal p.metaId content }
        merged := s.merged ++ [p.metaId] } ⟨p, .stored⟩
  | drop (p : Part) (s : Desk) (k : Nat)
      (h : (s.depot.parts.any fun e => e.1.1 == p.metaId) = true) : Moves env ⟨p, .stored⟩ s
      { s with depot := { s.depot with
        calls := k, parts := s.depot.parts.filter fun e => e.1.1 != p.metaId } } ⟨p, .ready⟩
  | gone (p : Part) (s : Desk) (k : Nat)
      (h : ¬(s.depot.parts.any fun e => e.1.1 == p.metaId) = true) :
      Moves env ⟨p, .stored⟩ s (s.called k) ⟨p, .returned⟩
  | hand (p : Part) (s : Desk) {d : Depot} (h : ∀ e ∈ d.multiparts, e ∈ s.depot.multiparts) :
      Moves env ⟨p, .ready⟩ s { s with depot := d, handed := s.handed ++ [p.metaId] }
        ⟨p, .returned⟩
  | fail (p : Part) (s t : Desk) : Moves env ⟨p, .differing⟩ s t ⟨p, .returned⟩

-- Handing a file over may drop its record and never writes one.
def fewerFrame : Frame Depot where
  rel s t := ∀ e ∈ t.multiparts, e ∈ s.multiparts
  refl _ := fun _ he => he
  trans h h' := fun e he => h e (h' e he)

section Fewer

variable {α : Type}

theorem fewer_modify {f : Depot → Depot} (h : ∀ d, (f d).multiparts = d.multiparts) :
    Keeps fewerFrame (modify f : Act Unit) := keeps_modify fun d _ he => h d ▸ he

theorem fewer_call : Keeps fewerFrame call := by
  refine keeps_read.bind fun env => keeps_get.bind fun d => Keeps.bind ?_ fun _ => ?_
  · exact fewer_modify fun _ => rfl
  split
  · exact Effect.keeps_throw _
  · exact keeps_pure _

theorem fewer_orFail (message : String) (o : Option α) :
    Keeps fewerFrame (orFail message o) := by
  cases o with
  | none => exact Effect.keeps_throw _
  | some a => exact keeps_pure a

theorem fewer_queryKeys {ν : Type} (entries : List (String × ν)) (regex : String) :
    Keeps fewerFrame (queryKeys entries regex) :=
  keeps_read.bind fun _ => fewer_call.bind fun _ => keeps_pure _

theorem fewer_getUser (regex : String) :
    Keeps fewerFrame (MoveRegistrationRepo.getUserByKeyRegex regex) := by
  refine keeps_get.bind fun _ => (fewer_queryKeys _ _).bind fun keys => ?_
  split
  · exact keeps_pure _
  · exact (fewer_orFail _ _).bind fun _ => keeps_pure _

theorem fewer_removeMoves (regex : String) :
    Keeps fewerFrame (MoveRegistrationRepo.removeAllByKeyRegex regex) := by
  refine keeps_get.bind fun _ => (fewer_queryKeys _ _).bind fun keys => ?_
  split
  · exact Effect.keeps_throw _
  · exact fewer_modify fun _ => rfl

theorem fewer_remove (metaId : Uuid) : Keeps fewerFrame (MultipartService.remove metaId) := by
  have hdelete : Keeps fewerFrame
      (MultipartRepo.deleteByKeyRegex (MultipartService.idKeyRegex metaId)) := by
    refine keeps_get.bind fun d => (fewer_queryKeys _ _).bind fun keys =>
      (fewer_orFail _ _).bind fun key => keeps_modify fun d e he => ?_
    exact List.mem_of_mem_filter he
  have hdir : Keeps fewerFrame (CacheService.removeMultipartDir metaId) := by
    refine fewer_call.bind fun _ => keeps_get.bind fun d => ?_
    split
    · exact fewer_modify fun _ => rfl
    · exact Effect.keeps_throw _
  exact hdelete.bind fun _ => hdir.attempt.bind fun _ => keeps_pure _

theorem fewer_createSnapshot (snapshot : Snapshot) :
    Keeps fewerFrame (SnapshotService.create snapshot) := by
  have hchange : Keeps fewerFrame (CacheService.changeNormalToSnapshot snapshot.metaId) :=
    (fewer_call.bind fun _ => keeps_get.bind fun _ => fewer_orFail _ _).bind fun _ =>
      fewer_modify fun _ => rfl
  exact hchange.bind fun _ => fewer_call.bind fun _ => fewer_modify fun _ => rfl

theorem fewer_doMove (info : MoveRegistration) : Keeps fewerFrame (FileMoveService.doMove info) := by
  unfold FileMoveService.doMove
  split
  · have hnew : Keeps fewerFrame newV4 := by
      refine keeps_get.bind fun _ => Keeps.bind ?_ fun _ => keeps_pure _
      exact fewer_modify fun _ => rfl
    refine Keeps.bind (hnew.bind fun _ => (fewer_orFail _ _).bind fun _ => keeps_pure _) fun _ => ?_
    exact (fewer_createSnapshot _).bind fun _ => (fewer_remove _).bind fun _ => fewer_removeMoves _
  · exact (fewer_getUser _).bind fun _ => (fewer_orFail _ _).bind fun _ =>
      fewer_call.bind fun _ => fewer_modify fun _ => rfl

theorem fewer_doRegisteredMoves (metaId : Uuid) :
    Keeps fewerFrame (FileMoveService.doRegisteredMoves metaId) :=
  (keeps_get.bind fun _ => (fewer_queryKeys _ _).bind fun _ => keeps_pure _).bind fun _ =>
    Keeps.each fewer_doMove _

end Fewer

def uploads (env : Env) : Phases Caller Access Env Desk where
  allowed := fun r => r = env
  tag := Caller.tag
  move := Moves env

-- The stage in which each outcome of the part's completion leaves the call.
inductive Ends (p : Part) : Outcome Exception (List Nat) → Caller → Prop where
  | complete : Ends p (.ok []) ⟨p, .ready⟩
  | partially (nth : Nat) (nths : List Nat) : Ends p (.ok (nth :: nths)) ⟨p, .returned⟩
  | differs (id : Uuid) (origin completed : String) :
      Ends p (.err (.differentHashs id origin completed)) ⟨p, .differing⟩
  | notFound (id : Uuid) : Ends p (.err (.multipartNotFound id)) ⟨p, .returned⟩
  | noPart (id : Uuid) (nth : Nat) : Ends p (.err (.noSuchPart id nth)) ⟨p, .returned⟩
  | fails (message : String) : Ends p (.err (.anyhow message)) ⟨p, .returned⟩

section Conforming

variable {env : Env}

-- One step of the services whose result is known.
theorem conforms_known {α : Type} {tag : Access} {m : Act α} {x : Caller}
    {Q : Outcome Exception α → Caller → Prop} (htag : x.tag = some tag)
    (h : ∀ s, ∃ o d y, m env s.depot = (o, d) ∧ Moves env x s { s with depot := d } y ∧ Q o y) :
    Prog.Conforms (uploads env) (Prog.atom tag (onDepot m)) x Q := by
  refine Prog.conforms_atom htag fun r hr s => ?_
  cases hr
  obtain ⟨o, d, y, hm, hmove, hQ⟩ := h s
  refine ⟨y, ?_, ?_⟩
  · change Moves env x s { s with depot := (m env s.depot).2 } y
    rw [hm]
    exact hmove
  · change Q (m env s.depot).1 y
    rw [hm]
    exact hQ

variable {p : Part} (hfails : ∀ k, env.fails k = false)

include hfails

theorem conforms_readParts {m : Multipart} {content : Bytes} {nths : List Nat}
    {Q : Outcome Exception Bytes → Caller → Prop}
    (hok : ∀ content, Q (.ok content) ⟨p, .joining m content []⟩)
    (herr : ∀ e, Q (.err (.anyhow e)) ⟨p, .returned⟩) :
    Prog.Conforms (uploads env) (Stepwise.readParts p.metaId nths content)
      ⟨p, .joining m content nths⟩ Q := by
  induction nths generalizing content with
  | nil => exact Prog.conforms_pure (hok content)
  | cons nth nths ih =>
    refine Prog.Conforms.bind (conforms_known rfl fun s => ?_)
    cases hget : Assoc.get s.depot.parts (p.metaId, nth) with
    | none => exact ⟨_, _, _, run_missPart hfails hget, .miss p s _ hget, herr _⟩
    | some part => exact ⟨_, _, _, run_readPart hfails hget, .read p s _ hget, ih⟩

theorem conforms_merge (m : Multipart) {Q : Outcome Exception Unit → Caller → Prop}
    (hok : Q (.ok ()) ⟨p, .ready⟩) (herr : ∀ e, Q (.err (.anyhow e)) ⟨p, .returned⟩)
    (hdiffer : ∀ completed, Q (.err (.differentHashs p.metaId m.hash completed)) ⟨p, .differing⟩) :
    Prog.Conforms (uploads env) (Stepwise.merge p.metaId m)
      ⟨p, .joining m [] (List.range m.parts.length)⟩ Q := by
  refine Prog.Conforms.bind (conforms_readParts hfails (fun content => ?_) herr)
  have hdrop : Prog.Conforms (uploads env)
      (Prog.atom .other (onDepot (CacheService.removeMultipartDir p.metaId))) ⟨p, .stored⟩ Q := by
    refine conforms_known rfl fun s => ?_
    by_cases hany : (s.depot.parts.any fun e => e.1.1 == p.metaId) = true
    · exact ⟨_, _, _, run_removeMultipartDir hfails hany, .drop p s _ hany, hok⟩
    · exact ⟨_, _, _, run_missMultipartDir hfails hany, .gone p s _ hany, herr _⟩
  have hstore : Prog.Conforms (uploads env) (Prog.atom .other
      (noteMerged p.metaId (CacheService.writeNormal p.metaId content)) >>= fun _ =>
        Prog.atom .other (onDepot (CacheService.removeMultipartDir p.metaId)))
      ⟨p, .joined content⟩ Q := by
    refine Prog.Conforms.bind (Prog.conforms_atom rfl fun r hr s => ?_)
    cases hr
    have hrun : noteMerged p.metaId (CacheService.writeNormal p.metaId content) env s =
        (.ok (), { s with
          depot := { s.depot with
            calls := s.depot.calls + 1
            normal := Assoc.insert s.depot.normal p.metaId content }
          merged := s.merged ++ [p.metaId] }) := by
      have hwrite : onDepot (CacheService.writeNormal p.metaId content) env s = (.ok (), { s with
          depot := { s.depot with
            calls := s.depot.calls + 1
            normal := Assoc.insert s.depot.normal p.metaId content } }) := by
        rw [onDepot, run_writeNormal hfails]
      exact bind_of_ok hwrite _
    refine ⟨⟨p, .stored⟩, ?_, ?_⟩
    · rw [hrun]
      exact .store p s _ content
    · rw [hrun]
      exact hdrop
  refine Prog.Conforms.bind (Prog.conforms_atom rfl fun r hr s => ?_)
  cases hr
  by_cases hhash : MultipartService.toUppercase (env.blake3 content) = m.hash
  · refine ⟨⟨p, .joined content⟩, .agree p s hhash, ?_⟩
    change Prog.Conforms (uploads env) (if _ then _ else _) _ Q
    rw [if_neg (not_not.mpr hhash)]
    exact hstore
  · refine ⟨⟨p, .differing⟩, .differ p s hhash, ?_⟩
    change Prog.Conforms (uploads env) (if _ then _ else _) _ Q
    rw [if_pos hhash]
    exact hdiffer _

theorem conforms_save {m : Multipart} :
    Prog.Conforms (uploads env) (do
      Prog.atom .save (onDepot (MultipartRepo.write
        (MultipartService.idHashKey p.metaId m.hash) (m.marked p.nth)))
      let unfinished := MultipartService.unfinishedParts (m.marked p.nth).parts
      if unfinished.isEmpty then do
        Stepwise.merge p.metaId (m.marked p.nth)
        pure []
      else pure unfinished : Steps (List Nat)) ⟨p, .looked m⟩ (Ends p) := by
  refine Prog.Conforms.bind (conforms_known rfl fun s =>
    ⟨_, _, _, run_writeMultipart hfails _ _ _, .save p s _ m, ?_⟩)
  have hlength : (m.marked p.nth).parts.length = m.parts.length := List.length_set
  refine Prog.Conforms.ite (fun hempty => ?_) fun hopen => ?_
  · rw [if_pos (List.isEmpty_iff.mp hempty), ← hlength]
    refine Prog.Conforms.bind (conforms_merge hfails _ ?_ (fun e => .fails e) fun c => ?_)
    · exact Ends.complete
    · exact .differs _ _ c
  · obtain ⟨nth, nths, hcons⟩ := List.exists_cons_of_ne_nil
      fun hnil => hopen (List.isEmpty_iff.mpr hnil)
    rw [hcons, if_neg (List.cons_ne_nil nth nths)]
    exact Ends.partially nth nths

theorem conforms_completePart :
    Prog.Conforms (uploads env) (Stepwise.completePart p) ⟨p, .fresh⟩ (Ends p) := by
  refine Prog.Conforms.bind (conforms_known rfl fun s =>
    ⟨_, _, _, run_writePart hfails p _, .write p s _, ?_⟩)
  refine Prog.Conforms.bind (conforms_known rfl fun s => ?_)
  have hget := run_getOne hfails (MultipartService.idKeyRegex p.metaId) s.depot
  cases hfound : ((env.keys s.depot.calls).on ((Assoc.keys s.depot.multiparts).filter
      (glob (MultipartService.idKeyRegex p.metaId)))).head?.bind
        (Assoc.get s.depot.multiparts) with
  | none =>
    have hnone := head_eq_none hfound
    refine ⟨_, _, _, hget, .refuse p s _ (.inl fun e he => ?_), ?_⟩
    · by_contra hglob
      have hin : e.1 ∈ (Assoc.keys s.depot.multiparts).filter
          (glob (MultipartService.idKeyRegex p.metaId)) :=
        List.mem_filter.mpr ⟨List.mem_map_of_mem he, by simpa using hglob⟩
      rw [hnone] at hin
      cases hin
    · rw [hfound]
      exact Ends.notFound p.metaId
  | some m =>
    obtain ⟨key, hhead, hrecord⟩ := Option.bind_eq_some_iff.mp hfound
    have hglob := (List.mem_filter.mp ((Order.mem_on _).mp (List.mem_of_mem_head? hhead))).2
    by_cases hnth : p.nth < m.parts.length
    · refine ⟨_, _, _, hget, .find p s _ hglob hrecord hnth, ?_⟩
      rw [hfound]
      change Prog.Conforms (uploads env) (if _ then _ else _) _ _
      rw [if_pos hnth]
      exact conforms_save hfails
    · refine ⟨_, _, _, hget, .refuse p s _ (.inr ⟨key, m, hglob, hrecord, hnth⟩), ?_⟩
      rw [hfound]
      change Prog.Conforms (uploads env) (if _ then _ else _) _ _
      rw [if_neg hnth]
      exact Ends.noPart p.metaId p.nth

theorem conforms_partialUpload :
    Prog.Conforms (uploads env) (Stepwise.partialUpload p) ⟨p, .fresh⟩
      fun _ y => (uploads env).tag y = none := by
  refine Prog.Conforms.bind (Prog.Conforms.attempt ((conforms_completePart hfails).mono ?_))
  intro o y hends
  cases hends with
  | complete =>
    refine Prog.conforms_atom rfl fun r hr s => ?_
    cases hr
    exact ⟨⟨p, .returned⟩, .hand p s (fewer_doRegisteredMoves p.metaId env s.depot), rfl⟩
  | partially nth nths => exact rfl
  | differs id origin completed =>
    refine Prog.Conforms.bind (Prog.Conforms.attempt (Prog.conforms_atom rfl fun r hr s => ?_))
    refine ⟨⟨p, .returned⟩, .fail p s _, ?_⟩
    generalize (onDepot _ r s).1 = result
    cases result with
    | ok _ => exact rfl
    | err _ => exact rfl
    | panic => exact rfl
  | notFound id => exact rfl
  | noPart id nth => exact rfl
  | fails message => exact rfl

end Conforming

end Kuintessence.Storage
