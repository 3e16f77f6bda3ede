import Kuintessence.Lib.Run
import Kuintessence.Storage.Keys

namespace Kuintessence.Text

structure TextStorage where
  key : Option Uuid
  value : String
  deriving DecidableEq, Repr

structure Store where
  texts : List (String × String)
  ids : Nat → Uuid
  calls : Nat

structure Env where
  fails : Nat → Bool
  keys : Nat → Order String

abbrev Act (α : Type) := Effect Env Store String α

def textKey (id : Uuid) : String := "text_" ++ Storage.uuidText id

def query : Act Nat := do
  let env ← .read
  let s ← .get
  .modify (fun s => { s with calls := s.calls + 1 })
  if env.fails s.calls then .throw "connection failed" else pure s.calls

def orFail {α : Type} (message : String) : Option α → Act α
  | some a => pure a
  | none => .throw message

def queryKeys (regex : String) : Act (List String) := do
  let env ← .read
  let k ← query
  let s ← .get
  pure ((env.keys k).on ((Assoc.keys s.texts).filter (glob regex)))

-- A missing key is no string.
def values (keys : List String) : Act (List String) :=
  if keys.isEmpty then pure []
  else do
    let _ ← query
    let s ← .get
    orFail "response is nil" (keys.mapM (Assoc.get s.texts))

def set (id : Uuid) (value : String) : Act Unit := do
  let _ ← query
  .modify (fun s => { s with texts := Assoc.insert s.texts (textKey id) value })

namespace TextRepo

def getByIds (ids : List Uuid) : Act (List (Uuid × String)) := do
  let values ← values (ids.map textKey)
  pure (ids.zip values)

def textAlreadyUuid (text : String) : Act (Option Uuid) := do
  let keys ← queryKeys "text_*"
  let values ← values keys
  match (keys.zip values).find? (fun kv => kv.2 == text) with
  | none => pure none
  | some kv => do
    let id ← orFail "invalid uuid"
      (Protocol.UuidText.hyphenated.parse (String.ofList (kv.1.toList.drop "text_".length)))
    pure (some id)

def newV4 : Act Uuid := do
  let s ← .get
  .modify (fun s => { s with ids := fun n => s.ids (n + 1) })
  pure (s.ids 0)

def update (entity : TextStorage) : Act TextStorage := do
  let key ← orFail "No such text key!" entity.key
  set key entity.value
  pure entity

def insert (entity : TextStorage) : Act TextStorage := do
  let alreadyKey ← textAlreadyUuid entity.value
  let fresh ← newV4
  let key := (entity.key.or alreadyKey).getD fresh
  set key entity.value
  pure ⟨some key, ""⟩

def deleteById (id : Uuid) : Act Bool := do
  let _ ← query
  .modify (fun s => { s with texts := s.texts.filter (fun e => e.1 != textKey id) })
  pure true

def delete (entity : TextStorage) : Act Bool := do
  let key ← orFail "No such text key!" entity.key
  let _ ← deleteById key
  pure true

end TextRepo

namespace TextStorageService

def uploadText (txt : TextStorage) : Act String := do
  let txt ← TextRepo.insert txt
  let key ← orFail "Unreachable error!" txt.key
  pure (Storage.uuidText key)

def getByIds (ids : List Uuid) : Act (List (Uuid × String)) := TextRepo.getByIds ids

end TextStorageService

inductive Operation where
  | insert (entity : TextStorage)
  | update (entity : TextStorage)
  | delete (entity : TextStorage)
  | getByIds (ids : List Uuid)
  deriving DecidableEq, Repr

namespace Operation

def serve (env : Env) (s : Store) : Operation → Store
  | .insert entity => (TextStorageService.uploadText entity env s).2
  | .update entity => (TextRepo.update entity env s).2
  | .delete entity => (TextRepo.delete entity env s).2
  | .getByIds ids => (TextStorageService.getByIds ids env s).2

-- Another text is put under the key, or it is deleted.
def Replaces (key : Uuid) (value : String) : Operation → Prop
  | .insert entity => entity.key = some key ∧ entity.value ≠ value
  | .update entity => entity.key = some key ∧ entity.value ≠ value
  | .delete entity => entity.key = some key
  | .getByIds _ => False

end Operation

-- Each operation with the client that asks for it.
def step (env : Env) (s : Store) (op : Uuid × Operation) : Store := op.2.serve env s

def Readable (key : Uuid) (value : String) (s : Store) : Prop :=
  ∀ env : Env, env.fails s.calls = false →
    (TextStorageService.getByIds [key] env s).1 = .ok [(key, value)]

section Results

open Effect

variable {env : Env} {s : Store}

theorem eq_of_mem_zip {α β : Type} {f : α → Option β} {l : List α} {l' : List β}
    (h : l.mapM f = some l') {a : α} {b : β} (hmem : (a, b) ∈ l.zip l') : f a = some b := by
  induction l generalizing l' with
  | nil =>
    rw [List.zip_nil_left] at hmem
    cases hmem
  | cons x l ih =>
    rw [List.mapM_cons] at h
    cases hx : f x with
    | none =>
      rw [hx] at h
      cases h
    | some y =>
      cases hl : l.mapM f with
      | none =>
        rw [hx, hl] at h
        cases h
      | some ys =>
        rw [hx, hl] at h
        cases h
        rw [List.zip_cons_cons] at hmem
        cases hmem with
        | head => exact hx
        | tail _ hmem => exact ih hl hmem

theorem textKey_inj {id id' : Uuid} (h : textKey id = textKey id') : id = id' :=
  Storage.uuidText_inj ((String.append_right_inj _).mp h)

theorem wp_query {Q : Nat → Store → Prop} {E : Store → Prop}
    (hok : Q s.calls { s with calls := s.calls + 1 }) (hfail : E { s with calls := s.calls + 1 }) :
    wp query env Q E s := by
  change wp (if env.fails s.calls then (.throw "connection failed" : Act Nat) else pure s.calls)
    env _ _ { s with calls := s.calls + 1 }
  split
  · exact hfail
  · exact hok

theorem wp_orFail {α : Type} {message : String} {o : Option α} {Q : α → Store → Prop}
    {E : Store → Prop} (hsome : ∀ a, o = some a → Q a s) (hnone : E s) :
    wp (orFail message o) env Q E s := by
  cases o with
  | none => exact hnone
  | some a => exact hsome a rfl

theorem wp_set {id : Uuid} {value : String} {Q : Unit → Store → Prop} {E : Store → Prop}
    (hok : Q () { s with
      calls := s.calls + 1, texts := Assoc.insert s.texts (textKey id) value })
    (hfail : E { s with calls := s.calls + 1 }) : wp (set id value) env Q E s := by
  rw [set, wp_bind]
  exact wp_query hok hfail

-- What a lookup tells of the store, which keeps all but the number of calls.
def Looked (s t : Store) : Prop := t.texts = s.texts ∧ t.ids = s.ids

theorem Looked.of_looked {t u : Store} (h : Looked t u) (ht : Looked s t) : Looked s u :=
  ⟨h.1.trans ht.1, h.2.trans ht.2⟩

theorem wp_values (keys : List String) :
    wp (values keys) env (fun found t => Looked s t ∧ keys.mapM (Assoc.get s.texts) = some found)
      (Looked s) s := by
  rw [values]
  split
  · next hnil =>
    rw [List.isEmpty_iff.mp hnil]
    exact ⟨⟨rfl, rfl⟩, rfl⟩
  · rw [wp_bind]
    refine wp_query ?_ ⟨rfl, rfl⟩
    rw [wp_bind, wp_get]
    exact wp_orFail (fun found hfound => ⟨⟨rfl, rfl⟩, hfound⟩) ⟨rfl, rfl⟩

theorem wp_queryKeys (regex : String) :
    wp (queryKeys regex) env (fun keys t => Looked s t ∧ ∀ key ∈ keys, key ∈ Assoc.keys s.texts)
      (Looked s) s := by
  rw [queryKeys, wp_bind, wp_read, wp_bind]
  refine wp_query ?_ ⟨rfl, rfl⟩
  rw [wp_bind, wp_get, wp_pure]
  exact ⟨⟨rfl, rfl⟩, fun key hkey =>
    List.mem_of_mem_filter ((env.keys s.calls).mem_on.mp hkey)⟩

def Named (s : Store) : Prop := ∀ key ∈ Assoc.keys s.texts, ∃ id, key = textKey id

theorem parse_textKey (id : Uuid) : Protocol.UuidText.hyphenated.parse
    (String.ofList ((textKey id).toList.drop "text_".length)) = some id := by
  have hdrop : (textKey id).toList.drop "text_".length = (Storage.uuidText id).toList := by
    rw [textKey, String.toList_append]
    exact List.drop_left' rfl
  rw [hdrop, String.ofList_toList]
  exact Protocol.UuidText.parse_text _ id

theorem wp_textAlreadyUuid (h : Named s) (text : String) :
    wp (TextRepo.textAlreadyUuid text) env (fun found t => Looked s t ∧
      ∀ id, found = some id → Assoc.get s.texts (textKey id) = some text) (Looked s) s := by
  rw [TextRepo.textAlreadyUuid, wp_bind]
  refine wp_mono (wp_queryKeys "text_*") ?_ fun _ ht => ht
  rintro keys t ⟨ht, hkeys⟩
  rw [wp_bind]
  refine wp_mono (wp_values keys) ?_ fun u hu => hu.of_looked ht
  rintro found u ⟨hu, hfound⟩
  replace hu := hu.of_looked ht
  rw [ht.1] at hfound
  split
  · exact ⟨hu, fun id hid => absurd hid.symm (Option.some_ne_none id)⟩
  · next kv hkv =>
    rw [wp_bind]
    refine wp_orFail (fun id hid => ⟨hu, fun id' hid' => ?_⟩) hu
    obtain rfl := Option.some.inj hid'
    have hmem := List.mem_of_find?_eq_some hkv
    have hvalue := List.find?_some hkv
    rw [beq_iff_eq] at hvalue
    have hget := eq_of_mem_zip hfound hmem
    obtain ⟨key, hkey⟩ := h _ (hkeys _ (List.of_mem_zip hmem).1)
    rw [hkey, parse_textKey] at hid
    rw [← Option.some.inj hid, ← hkey, hget, hvalue]

-- The text `value` is kept under `key`, which no later identifier equals.
structure Held (key : Uuid) (value : String) (s : Store) : Prop where
  named : Named s
  get : Assoc.get s.texts (textKey key) = some value
  fresh : ∀ n, s.ids n ≠ key

variable {key : Uuid} {value : String}

theorem Held.looked {t : Store} (h : Held key value s) (ht : Looked s t) : Held key value t := by
  refine ⟨?_, ?_, ?_⟩
  · rw [Named, ht.1]
    exact h.named
  · rw [ht.1]
    exact h.get
  · rw [ht.2]
    exact h.fresh

theorem Held.insert (h : Held key value s) {id : Uuid} {text : String}
    (hid : id = key → text = value) {k : Nat} {ids : Nat → Uuid} (hids : ∀ n, ids n ≠ key) :
    Held key value ⟨Assoc.insert s.texts (textKey id) text, ids, k⟩ := by
  refine ⟨fun other hother => ?_, ?_, hids⟩
  · obtain hother | rfl := Assoc.mem_keys_insert.mp hother
    · exact h.named other hother
    · exact ⟨id, rfl⟩
  · rw [Assoc.get_insert]
    split
    · next heq => rw [hid (textKey_inj heq).symm]
    · exact h.get

theorem Held.calls (h : Held key value s) {k : Nat} {ids : Nat → Uuid} (hids : ∀ n, ids n ≠ key) :
    Held key value ⟨s.texts, ids, k⟩ :=
  ⟨h.named, h.get, hids⟩

theorem Held.wp_insert (h : Held key value s) {entity : TextStorage}
    (hkeeps : ¬(Operation.insert entity).Replaces key value) :
    wp (TextRepo.insert entity) env (fun _ t => Held key value t) (Held key value) s := by
  rw [TextRepo.insert, wp_bind]
  refine wp_mono (wp_textAlreadyUuid h.named entity.value) ?_ fun t ht => h.looked ht
  rintro found t ⟨ht, hfound⟩
  have hheld := h.looked ht
  rw [wp_bind, TextRepo.newV4, wp_bind, wp_get, wp_bind, wp_modify, wp_pure]
  have hids : ∀ n, t.ids (n + 1) ≠ key := fun n => hheld.fresh (n + 1)
  dsimp only
  rw [wp_bind]
  refine wp_set (hheld.insert (fun heq => ?_) hids) (hheld.calls hids)
  cases hkey : entity.key with
  | some chosen =>
    rw [hkey] at heq
    obtain rfl : chosen = key := heq
    by_contra hne
    exact hkeeps ⟨hkey, hne⟩
  | none =>
    rw [hkey] at heq
    cases found with
    | some id =>
      obtain rfl : id = key := heq
      have hget := hfound id rfl
      rw [h.get] at hget
      exact (Option.some.inj hget).symm
    | none => exact absurd heq (hheld.fresh 0)

theorem Held.wp_update (h : Held key value s) {entity : TextStorage}
    (hkeeps : ¬(Operation.update entity).Replaces key value) :
    wp (TextRepo.update entity) env (fun _ t => Held key value t) (Held key value) s := by
  rw [TextRepo.update, wp_bind]
  refine wp_orFail (fun chosen hchosen => ?_) h
  rw [wp_bind]
  refine wp_set (h.insert (fun heq => ?_) h.fresh) (h.calls h.fresh)
  by_contra hne
  exact hkeeps ⟨heq ▸ hchosen, hne⟩

theorem Held.wp_delete (h : Held key value s) {entity : TextStorage}
    (hkeeps : ¬(Operation.delete entity).Replaces key value) :
    wp (TextRepo.delete entity) env (fun _ t => Held key value t) (Held key value) s := by
  rw [TextRepo.delete, wp_bind]
  refine wp_orFail (fun chosen hchosen => ?_) h
  have hne : chosen ≠ key := fun heq => hkeeps (heq ▸ hchosen)
  rw [wp_bind, TextRepo.deleteById, wp_bind]
  refine wp_query ?_ (h.calls h.fresh)
  rw [wp_bind, wp_modify]
  refine ⟨fun other hother => ?_, ?_, h.fresh⟩
  · obtain ⟨e, he, rfl⟩ := List.mem_map.mp hother
    exact h.named e.1 (Assoc.mem_keys_of_mem (List.mem_of_mem_filter he))
  · have hother : (textKey key != textKey chosen) = true :=
      bne_iff_ne.mpr fun heq => hne (textKey_inj heq).symm
    have hget := Assoc.get_filter s.texts (fun k => k != textKey chosen) (textKey key)
    rw [if_pos hother, h.get] at hget
    exact hget

theorem wp_getByIds (ids : List Uuid) :
    wp (TextRepo.getByIds ids) env (fun _ t => Looked s t) (Looked s) s := by
  rw [TextRepo.getByIds, wp_bind]
  exact wp_mono (wp_values _) (fun _ _ ht => ht.1) fun _ ht => ht

theorem Held.step (h : Held key value s) {op : Uuid × Operation}
    (hkeeps : ¬op.2.Replaces key value) : Held key value (Text.step env s op) := by
  obtain ⟨client, op⟩ := op
  cases op with
  | insert entity =>
    refine wp_final.mp ?_
    rw [TextStorageService.uploadText, wp_bind]
    refine wp_mono (h.wp_insert hkeeps) (fun txt t ht => ?_) fun _ ht => ht
    rw [wp_bind]
    exact wp_orFail (fun _ _ => ht) ht
  | update entity => exact wp_final.mp (h.wp_update hkeeps)
  | delete entity => exact wp_final.mp (h.wp_delete hkeeps)
  | getByIds ids =>
    exact wp_final.mp (wp_mono (wp_getByIds ids) (fun _ _ ht => h.looked ht) fun _ ht => h.looked ht)

theorem Held.readable (h : Held key value s) : Readable key value s := by
  intro env hfine
  have hquery : query env s = (.ok s.calls, { s with calls := s.calls + 1 }) := by
    change (if env.fails s.calls then (.throw "connection failed" : Act Nat) else pure s.calls)
      env { s with calls := s.calls + 1 } = _
    rw [hfine]
    rfl
  have hone : [textKey key].mapM (Assoc.get s.texts) = some [value] := by
    rw [List.mapM_cons, h.get, List.mapM_nil]
    rfl
  have hvalues : values [textKey key] env s = (.ok [value], { s with calls := s.calls + 1 }) := by
    refine (bind_of_ok hquery _).trans ?_
    change orFail "response is nil" ([textKey key].mapM (Assoc.get s.texts)) env _ = _
    rw [hone]
    rfl
  exact congrArg Prod.fst (bind_of_ok hvalues _)

theorem wp_insertNew (hnamed : Named s) (hinj : Function.Injective s.ids)
    (hunused : ∀ n, Assoc.get s.texts (textKey (s.ids n)) = none) :
    wp (TextRepo.insert ⟨none, value⟩) env
      (fun txt t => ∃ id, txt.key = some id ∧ Held id value t) (fun _ => True) s := by
  rw [TextRepo.insert, wp_bind]
  refine wp_mono (wp_textAlreadyUuid hnamed value) ?_ fun _ _ => trivial
  rintro found t ⟨ht, hfound⟩
  rw [wp_bind, TextRepo.newV4, wp_bind, wp_get, wp_bind, wp_modify, wp_pure]
  have hfresh : ∀ n, t.ids (n + 1) ≠ found.getD (t.ids 0) := by
    intro n heq
    rw [ht.2] at heq
    cases found with
    | none => exact absurd (hinj heq) (Nat.succ_ne_zero n)
    | some id =>
      have hget := hfound id rfl
      obtain rfl : s.ids (n + 1) = id := heq
      rw [hunused] at hget
      cases hget
  dsimp only
  rw [wp_bind]
  refine wp_set ⟨_, rfl, ⟨fun other hother => ?_, ?_, hfresh⟩⟩ trivial
  · obtain hother | rfl := Assoc.mem_keys_insert.mp hother
    · rw [ht.1] at hother
      exact hnamed other hother
    · exact ⟨_, rfl⟩
  · exact (Assoc.get_insert _ _ _ _).trans (if_pos rfl)

theorem held_inserted (hnamed : Named s) (hinj : Function.Injective s.ids)
    (hunused : ∀ n, Assoc.get s.texts (textKey (s.ids n)) = none) {t : Store}
    (hinsert : TextStorageService.uploadText ⟨none, value⟩ env s = (.ok (Storage.uuidText key), t)) :
    Held key value t := by
  have hupload : wp (TextStorageService.uploadText ⟨none, value⟩) env
      (fun name u => ∃ id, name = Storage.uuidText id ∧ Held id value u) (fun _ => True) s := by
    rw [TextStorageService.uploadText, wp_bind]
    refine wp_mono (wp_insertNew hnamed hinj hunused) ?_ fun _ _ => trivial
    rintro txt u ⟨id, hid, hheld⟩
    rw [hid, wp_bind]
    exact ⟨id, rfl, hheld⟩
  obtain ⟨id, hname, hheld⟩ := (wp_of_eq hinsert).mp hupload
  have hsame : textKey key = textKey id := congrArg ("text_" ++ ·) hname
  rw [textKey_inj hsame]
  exact hheld

theorem inserted_stays_readable {t : Store} {ops : List (Uuid × Operation)} (hnamed : Named s)
    (hinj : Function.Injective s.ids)
    (hunused : ∀ n, Assoc.get s.texts (textKey (s.ids n)) = none)
    (hinsert : TextStorageService.uploadText ⟨none, value⟩ env s = (.ok (Storage.uuidText key), t))
    (hops : ∀ op ∈ ops, ¬op.2.Replaces key value) :
    Readable key value (run (Text.step env) t ops) := by
  have hheld := held_inserted hnamed hinj hunused hinsert
  have hstep : ∀ u op, Held key value u → ¬op.2.Replaces key value →
      Held key value (Text.step env u op) := fun u op hu hop => hu.step hop
  have hrun : Held key value (run (Text.step env) t ops) :=
    run_invariant hstep hheld (Along.of_forall fun _ op hop => hops op hop)
  exact hrun.readable

end Results

section Samples

def upEnv : Env := ⟨fun _ => false, fun _ => .asIs _⟩

def emptyStore : Store := ⟨[], fun n => 500 + n, 0⟩

-- Two clients insert the same text without a key.
def sharedStore : Store :=
  run (step upEnv) emptyStore [(1, .insert ⟨none, "x"⟩), (2, .insert ⟨none, "x"⟩)]

theorem inserted_stays_readable_sample :
    Readable 500 "x" (run (step upEnv) (TextStorageService.uploadText ⟨none, "x"⟩ upEnv emptyStore).2
      [(2, .insert ⟨none, "x"⟩), (2, .insert ⟨some 7, "y"⟩), (3, .update ⟨some 7, "z"⟩),
        (3, .delete ⟨some 7, ""⟩)]) := by
  have hinsert : TextStorageService.uploadText ⟨none, "x"⟩ upEnv emptyStore =
      (.ok (Storage.uuidText 500),
        (TextStorageService.uploadText ⟨none, "x"⟩ upEnv emptyStore).2) :=
    Prod.ext (by decide +kernel) rfl
  exact inserted_stays_readable (fun _ h => absurd h List.not_mem_nil)
    (fun _ _ h => Nat.add_left_cancel h) (fun _ => rfl) hinsert
    (by simp [Operation.Replaces])

theorem shared_text_replaced :
    (TextStorageService.uploadText ⟨none, "x"⟩ upEnv emptyStore).1 =
        .ok (Storage.uuidText 500) ∧
      (TextStorageService.uploadText ⟨none, "x"⟩ upEnv
        (TextStorageService.uploadText ⟨none, "x"⟩ upEnv emptyStore).2).1 =
          .ok (Storage.uuidText 500) ∧
      ¬Readable 500 "x" (step upEnv sharedStore (2, .update ⟨some 500, "y"⟩)) ∧
      ¬Readable 500 "x" (step upEnv sharedStore (2, .delete ⟨some 500, ""⟩)) := by
  refine ⟨by decide +kernel, by decide +kernel, fun h => ?_, fun h => ?_⟩
  · exact absurd (h upEnv rfl) (by decide +kernel)
  · exact absurd (h upEnv rfl) (by decide +kernel)

end Samples

end Kuintessence.Text
