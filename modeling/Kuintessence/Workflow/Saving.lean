import Kuintessence.Lib.Run
import Kuintessence.Model.Repository

namespace Kuintessence

namespace SeaOrm

-- `executed` are the statements that were sent to the database, in order.
structure DbRepository (S D : Type) where
  db : D
  statements : List S
  canDrop : Bool
  executed : List S
  drained : canDrop = true → statements = []

-- The answers in one transaction. `execute n` answers the n-th statement, `rollback n` a rollback
-- after n statements; a commit that fails may have been carried out.
structure Replies (S D ε : Type) where
  begin : Option ε
  execute : Nat → S → D → Except ε D
  rollback : Nat → Option ε
  commit : Option ε
  landed : Bool

variable {S D ε : Type}

-- The statements that were sent, and the tables or the error of the last of them.
def executeAll (r : Replies S D ε) (n : Nat) (db : D) : List S → List S × Except ε D
  | [] => ([], .ok db)
  | s :: ss =>
    match r.execute n s db with
    | .error e => ([s], .error e)
    | .ok db => (s :: (executeAll r (n + 1) db ss).1, (executeAll r (n + 1) db ss).2)

namespace DbRepository

def push (q : DbRepository S D) (s : S) : DbRepository S D :=
  { q with statements := q.statements ++ [s], canDrop := false, drained := nofun }

def sent (q : DbRepository S D) (ss : List S) : DbRepository S D :=
  { q with executed := q.executed ++ ss }

def clear (q : DbRepository S D) (db : D) (ss : List S) : DbRepository S D :=
  { db := db
    statements := []
    canDrop := true
    executed := q.executed ++ ss
    drained := fun _ => rfl }

def saveChanged (r : Replies S D ε) (q : DbRepository S D) : Except ε Bool × DbRepository S D :=
  if q.canDrop then (.ok false, q)
  else
    match r.begin with
    | some e => (.error e, q)
    | none =>
      let sent := (executeAll r 0 q.db q.statements).1
      match (executeAll r 0 q.db q.statements).2 with
      | .error e =>
        match r.rollback sent.length with
        | some e => (.error e, q.sent sent)
        | none => (.error e, q.clear q.db sent)
      | .ok db =>
        match r.commit with
        | some e => (.error e, { q.sent sent with db := if r.landed then db else q.db })
        | none => (.ok true, q.clear db sent)

end DbRepository

inductive Operation (S D ε : Type) where
  | push (statement : S)
  | saveChanged (replies : Replies S D ε)

def Operation.pushed : Operation S D ε → Option S
  | .push s => some s
  | .saveChanged _ => none

def step (q : DbRepository S D) : Operation S D ε → DbRepository S D
  | .push s => q.push s
  | .saveChanged r => (q.saveChanged r).2

-- All the statements are applied or none; after the save they are out of the queue, and nothing
-- that follows sends one of them again.
structure Settles (r : Replies S D ε) (q : DbRepository S D) : Prop where
  atomic : (q.saveChanged r).2.db = q.db ∨
    (executeAll r 0 q.db q.statements).2 = .ok (q.saveChanged r).2.db
  empty : (q.saveChanged r).2.statements = []
  final : ∀ ops : List (Operation S D ε),
    (∀ op ∈ ops, ∀ s ∈ op.pushed, s ∉ q.statements) →
    ∀ s ∈ (run step (q.saveChanged r).2 ops).executed.drop (q.saveChanged r).2.executed.length,
      s ∉ q.statements

-- No step of the save but the execution of a statement fails.
structure Replies.Clean (r : Replies S D ε) (q : DbRepository S D) : Prop where
  begin : r.begin = none
  commit : ∀ db, (executeAll r 0 q.db q.statements).2 = .ok db → r.commit = none
  rollback : ∀ e, (executeAll r 0 q.db q.statements).2 = .error e →
    r.rollback (executeAll r 0 q.db q.statements).1.length = none

section

variable {r : Replies S D ε} {q : DbRepository S D} {s : S}

theorem mem_of_sent {n : Nat} {db : D} {ss : List S} (h : s ∈ (executeAll r n db ss).1) :
    s ∈ ss := by
  induction ss generalizing n db with
  | nil => exact h
  | cons s' ss ih =>
    rw [executeAll] at h
    split at h
    · exact List.mem_cons.mpr (.inl (List.mem_singleton.mp h))
    · obtain rfl | h := List.mem_cons.mp h
      · exact List.mem_cons_self
      · exact List.mem_cons_of_mem s' (ih h)

-- The ways in which a save ends.
inductive Ends (r : Replies S D ε) (q : DbRepository S D) : DbRepository S D → Prop where
  | idle : q.canDrop = true → Ends r q q
  | unopened (e : ε) : q.canDrop = false → r.begin = some e → Ends r q q
  | stuck (e e' : ε) : q.canDrop = false → r.begin = none →
      (executeAll r 0 q.db q.statements).2 = .error e →
      r.rollback (executeAll r 0 q.db q.statements).1.length = some e' →
      Ends r q (q.sent (executeAll r 0 q.db q.statements).1)
  | undone (e : ε) : q.canDrop = false → r.begin = none →
      (executeAll r 0 q.db q.statements).2 = .error e →
      r.rollback (executeAll r 0 q.db q.statements).1.length = none →
      Ends r q (q.clear q.db (executeAll r 0 q.db q.statements).1)
  | uncommitted (db : D) (e : ε) : q.canDrop = false → r.begin = none →
      (executeAll r 0 q.db q.statements).2 = .ok db → r.commit = some e →
      Ends r q { q.sent (executeAll r 0 q.db q.statements).1 with
        db := if r.landed then db else q.db }
  | done (db : D) : q.canDrop = false → r.begin = none →
      (executeAll r 0 q.db q.statements).2 = .ok db → r.commit = none →
      Ends r q (q.clear db (executeAll r 0 q.db q.statements).1)

theorem saveChanged_ends (r : Replies S D ε) (q : DbRepository S D) :
    Ends r q (q.saveChanged r).2 := by
  unfold DbRepository.saveChanged
  split
  · next hdrop => exact .idle hdrop
  next hdrop =>
  have hdrop : q.canDrop = false := Bool.eq_false_iff.mpr hdrop
  split
  · next e hbegin => exact .unopened e hdrop hbegin
  next hbegin =>
  dsimp only
  split
  · next e hout =>
    split
    · next e' hrollback => exact .stuck e e' hdrop hbegin hout hrollback
    · next hrollback => exact .undone e hdrop hbegin hout hrollback
  · next db hout =>
    split
    · next e hcommit => exact .uncommitted db e hdrop hbegin hout hcommit
    · next hcommit => exact .done db hdrop hbegin hout hcommit

theorem saveChanged_atomic (r : Replies S D ε) (q : DbRepository S D) :
    (q.saveChanged r).2.db = q.db ∨
      (executeAll r 0 q.db q.statements).2 = .ok (q.saveChanged r).2.db := by
  have hends := saveChanged_ends r q
  generalize (q.saveChanged r).2 = q' at hends ⊢
  cases hends with
  | idle => exact .inl rfl
  | unopened => exact .inl rfl
  | stuck => exact .inl rfl
  | undone => exact .inl rfl
  | uncommitted db e _ _ hout _ =>
    change (if r.landed then db else q.db) = q.db ∨
      _ = Except.ok (if r.landed then db else q.db)
    split
    · exact .inr hout
    · exact .inl rfl
  | done db _ _ hout _ => exact .inr hout

theorem saveChanged_empty_iff (r : Replies S D ε) (q : DbRepository S D) :
    (q.saveChanged r).2.statements = [] ↔ q.statements = [] ∨ r.Clean q := by
  have hends := saveChanged_ends r q
  generalize (q.saveChanged r).2 = q' at hends ⊢
  cases hends with
  | idle hdrop => exact ⟨.inl, fun _ => q.drained hdrop⟩
  | unopened e _ hbegin =>
    exact ⟨.inl, fun h => h.resolve_right fun hclean => nomatch hbegin.symm.trans hclean.begin⟩
  | stuck e e' _ _ hout hrollback =>
    exact ⟨.inl, fun h => h.resolve_right fun hclean =>
      nomatch hrollback.symm.trans (hclean.rollback e hout)⟩
  | undone e _ hbegin hout hrollback =>
    refine ⟨fun _ => .inr ⟨hbegin, fun db hdb => ?_, fun _ _ => hrollback⟩, fun _ => rfl⟩
    rw [hout] at hdb
    cases hdb
  | uncommitted db e _ _ hout hcommit =>
    exact ⟨.inl, fun h => h.resolve_right fun hclean =>
      nomatch hcommit.symm.trans (hclean.commit db hout)⟩
  | done db _ hbegin hout hcommit =>
    refine ⟨fun _ => .inr ⟨hbegin, fun _ _ => hcommit, fun e he => ?_⟩, fun _ => rfl⟩
    rw [hout] at he
    cases he

theorem step_sends (q : DbRepository S D) (op : Operation S D ε) : ∃ new,
    (step q op).executed = q.executed ++ new ∧ (∀ s ∈ new, s ∈ q.statements) ∧
      ∀ s ∈ (step q op).statements, s ∈ q.statements ∨ s ∈ op.pushed := by
  cases op with
  | push s =>
    refine ⟨[], (List.append_nil _).symm, by simp, fun s' hs' => ?_⟩
    exact (List.mem_append.mp hs').imp_right fun h =>
      congrArg some (List.mem_singleton.mp h).symm
  | saveChanged r =>
    change ∃ new, (q.saveChanged r).2.executed = _ ∧ _
    have hends := saveChanged_ends r q
    change ∃ new, _ ∧ _ ∧ ∀ s ∈ (q.saveChanged r).2.statements, _
    generalize (q.saveChanged r).2 = q' at hends ⊢
    have hsent : ∀ s ∈ (executeAll r 0 q.db q.statements).1, s ∈ q.statements := fun s => mem_of_sent
    cases hends with
    | idle => exact ⟨[], (List.append_nil _).symm, by simp, fun s => .inl⟩
    | unopened => exact ⟨[], (List.append_nil _).symm, by simp, fun s => .inl⟩
    | stuck => exact ⟨_, rfl, hsent, fun s => .inl⟩
    | undone => exact ⟨_, rfl, hsent, nofun⟩
    | uncommitted => exact ⟨_, rfl, hsent, fun s => .inl⟩
    | done => exact ⟨_, rfl, hsent, nofun⟩

theorem run_spares {old : List S} (q : DbRepository S D) (hq : ∀ s ∈ q.statements, s ∉ old)
    (ops : List (Operation S D ε)) (hops : ∀ op ∈ ops, ∀ s ∈ op.pushed, s ∉ old) :
    ∃ new, (run step q ops).executed = q.executed ++ new ∧ ∀ s ∈ new, s ∉ old := by
  induction ops generalizing q with
  | nil => exact ⟨[], (List.append_nil _).symm, by simp⟩
  | cons op ops ih =>
    obtain ⟨new, hexecuted, hnew, hstatements⟩ := step_sends q op
    have hq' : ∀ s ∈ (step q op).statements, s ∉ old := fun s hs =>
      (hstatements s hs).elim (hq s) (hops op List.mem_cons_self s)
    obtain ⟨later, hlater, hspared⟩ :=
      ih (step q op) hq' fun op' hop' => hops op' (List.mem_cons_of_mem op hop')
    refine ⟨new ++ later, ?_, fun s hs => ?_⟩
    · rw [← List.append_assoc, ← hexecuted]
      exact hlater
    · exact (List.mem_append.mp hs).elim (fun h => hq s (hnew s h)) (hspared s)

theorem saveChanged_settles_iff (r : Replies S D ε) (q : DbRepository S D) :
    Settles r q ↔ q.statements = [] ∨ r.Clean q := by
  rw [← saveChanged_empty_iff]
  refine ⟨fun h => h.empty, fun hempty => ⟨saveChanged_atomic r q, hempty, fun ops hops => ?_⟩⟩
  have hnone : ∀ s ∈ (q.saveChanged r).2.statements, s ∉ q.statements := by
    rw [hempty]
    simp
  obtain ⟨new, hexecuted, hnew⟩ := run_spares _ hnone ops hops
  rw [hexecuted, List.drop_left]
  exact hnew

end

def queued : DbRepository String (List String) := ⟨[], ["update"], false, [], nofun⟩

-- The connection is lost at the commit.
def losing : Replies String (List String) String where
  begin := none
  execute := fun _ s db => .ok (db ++ [s])
  rollback := fun _ => none
  commit := some "connection closed"
  landed := true

theorem saveChanged_repeats : ¬∀ (r : Replies String (List String) String)
    (q : DbRepository String (List String)), Settles r q := by
  intro h
  have hagain := (h losing queued).final [.saveChanged losing] (by simp [Operation.pushed])
  exact hagain "update" (by decide) (by decide)

section Tables

variable {env : Env} {w : World}

def reply (lost : Bool) : Option Unit := if lost then some () else none

-- The environment of the orchestrator seen from a save that makes its calls from `n` on.
def replies (env : Env) (n count : Nat) : Replies Statement Tables Unit where
  begin := reply (env.fails n)
  execute := fun k s db =>
    if env.fails (n + 1 + k) then .error ()
    else match db.execute (env.stamp (n + 1 + k)) s with
      | some db => .ok db
      | none => .error ()
  rollback := fun k => reply (env.fails (n + 1 + k))
  commit := reply (env.fails (n + 1 + count))
  landed := false

def tablesOf (out : Except Unit Tables) : Option Tables :=
  match out with
  | .ok db => some db
  | .error _ => none

theorem executeAll_refines (env : Env) {w : World} (n count k : Nat) (ss : List Statement) (db : Tables)
    (hcalls : w.calls = n + 1 + k) : Kuintessence.executeAll db ss env w =
      (.ok (tablesOf (executeAll (replies env n count) k db ss).2),
        { w with calls := w.calls + (executeAll (replies env n count) k db ss).1.length }) := by
  induction ss generalizing db k w with
  | nil => rfl
  | cons s ss ih =>
    rw [Kuintessence.executeAll, Effect.bind_of_ok (rfl : Effect.read env w = (.ok env, w)),
      Effect.bind_of_ok (rfl : Effect.get env w = (.ok w, w)), Effect.bind_of_ok attempt_eq, executeAll]
    cases hfails : env.fails w.calls with
    | true =>
      have hexecute : (replies env n count).execute k s db = .error () := by
        simp [replies, ← hcalls, hfails]
      rw [hexecute]
      rfl
    | false =>
      rw [Bool.not_false, if_pos rfl]
      cases htables : db.execute (env.stamp w.calls) s with
      | none =>
        have hexecute : (replies env n count).execute k s db = .error () := by
          simp [replies, ← hcalls, hfails, htables]
        rw [hexecute]
        rfl
      | some db' =>
        have hexecute : (replies env n count).execute k s db = .ok db' := by
          simp [replies, ← hcalls, hfails, htables]
        rw [hexecute]
        have hrest := ih (w := { w with calls := w.calls + 1 }) (k + 1) db' (by simp [hcalls]; omega)
        refine hrest.trans ?_
        simp [Nat.add_assoc, Nat.add_comm 1]

theorem length_sent {r : Replies S D ε} {n : Nat} {db db' : D} {ss : List S}
    (h : (executeAll r n db ss).2 = .ok db') : (executeAll r n db ss).1.length = ss.length := by
  induction ss generalizing n db with
  | nil => rfl
  | cons s ss ih =>
    rw [executeAll] at h ⊢
    split at h
    · cases h
    · exact congrArg (· + 1) (ih h)

def viewed (w : World) (hw : w.canDrop = true → w.statements = []) :
    DbRepository Statement Tables := ⟨w.db, w.statements, w.canDrop, [], hw⟩

-- The save of the orchestrator is the save of the repository above.
structure Refines (got : Anyhow Bool × World)
    (out : Except Unit Bool × DbRepository Statement Tables) : Prop where
  db : got.2.db = out.2.db
  statements : got.2.statements = out.2.statements
  canDrop : got.2.canDrop = out.2.canDrop
  result : ∀ b, got.1 = .ok b ↔ out.1 = .ok b

theorem saveChanged_refines (hw : w.canDrop = true → w.statements = []) :
    Refines (Kuintessence.saveChanged env w)
      ((viewed w hw).saveChanged (replies env w.calls w.statements.length)) := by
  rw [Kuintessence.saveChanged, Effect.bind_of_ok (rfl : Effect.get env w = (.ok w, w)),
    DbRepository.saveChanged, viewed]
  dsimp only
  by_cases hdrop : w.canDrop = true
  · rw [if_pos hdrop, if_pos hdrop]
    exact ⟨rfl, rfl, rfl, fun b => ⟨fun h => by cases h; rfl, fun h => by cases h; rfl⟩⟩
  rw [if_neg hdrop, if_neg hdrop]
  cases hbegin : env.fails w.calls with
  | true =>
    have hreply : (replies env w.calls w.statements.length).begin = some () := by
      simp [replies, reply, hbegin]
    rw [Effect.bind_of_err (call_lost hbegin), hreply]
    exact ⟨rfl, rfl, rfl, fun b => by simp⟩
  | false =>
    have hreply : (replies env w.calls w.statements.length).begin = none := by
      simp [replies, reply, hbegin]
    have hexecute := executeAll_refines env (w := { w with calls := w.calls + 1 }) w.calls
      w.statements.length 0 w.statements w.db rfl
    have hlength : ∀ db, (executeAll (replies env w.calls w.statements.length) 0 w.db
        w.statements).2 = .ok db → (executeAll (replies env w.calls w.statements.length) 0 w.db
        w.statements).1.length = w.statements.length := fun db => length_sent
    rw [Effect.bind_of_ok (call_ok hbegin), Effect.bind_of_ok hexecute, hreply]
    dsimp only
    generalize executeAll (replies env w.calls w.statements.length) 0 w.db w.statements = ran
      at hlength
    obtain ⟨sent, out⟩ := ran
    let t : World := { w with calls := w.calls + 1 + sent.length }
    cases out with
    | error e =>
      change Refines ((call >>= fun _ => Effect.modify clearStatements >>= fun _ =>
        fail "statement failed") env t) _
      cases hrollback : env.fails t.calls with
      | true =>
        have hreply : (replies env w.calls w.statements.length).rollback sent.length = some () := by
          simp [replies, reply, ← hrollback, t]
        rw [Effect.bind_of_err (call_lost hrollback)]
        dsimp only
        rw [hreply]
        exact ⟨rfl, rfl, rfl, fun b => by simp⟩
      | false =>
        have hreply : (replies env w.calls w.statements.length).rollback sent.length = none := by
          simp [replies, reply, ← hrollback, t]
        rw [Effect.bind_of_ok (call_ok hrollback)]
        dsimp only
        rw [hreply]
        exact ⟨rfl, rfl, rfl, fun b => ⟨nofun, nofun⟩⟩
    | ok db =>
      change Refines ((call >>= fun _ => Effect.modify
        (fun w => clearStatements { w with db := db }) >>= fun _ => pure true) env t) _
      have hsent : sent.length = w.statements.length := hlength db rfl
      cases hcommit : env.fails t.calls with
      | true =>
        have hreply : (replies env w.calls w.statements.length).commit = some () := by
          simp [replies, reply, ← hcommit, t, hsent]
        rw [Effect.bind_of_err (call_lost hcommit)]
        dsimp only
        rw [hreply]
        exact ⟨rfl, rfl, rfl, fun b => by simp⟩
      | false =>
        have hreply : (replies env w.calls w.statements.length).commit = none := by
          simp [replies, reply, ← hcommit, t, hsent]
        rw [Effect.bind_of_ok (call_ok hcommit)]
        dsimp only
        rw [hreply]
        exact ⟨rfl, rfl, rfl, fun b => ⟨fun h => by cases h; rfl, fun h => by cases h; rfl⟩⟩

end Tables

end SeaOrm

end Kuintessence
