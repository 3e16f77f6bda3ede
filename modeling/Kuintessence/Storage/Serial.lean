import Kuintessence.Storage.Overlap

namespace Kuintessence.Storage

open Effect

-- An upload and the contents of its parts.
structure Upload where
  id : Uuid
  hash : String
  n : Nat
  content : Nat → Bytes

namespace Upload

def key (u : Upload) : String := MultipartService.idHashKey u.id u.hash

def names (u : Upload) (key : String) : Bool := glob (MultipartService.idKeyRegex u.id) key

def whole (u : Upload) : Bytes := (List.range u.n).flatMap u.content

structure Has (u : Upload) (part : Part) : Prop where
  id : part.metaId = u.id
  nth : part.nth < u.n
  content : part.content = u.content part.nth

end Upload

abbrev Calls := Pool Access Env Desk Exception

def start (env : Env) (part : Part) : Thread Access Env Desk Exception :=
  ⟨env, Stepwise.partialUpload part⟩

def delivered (moves : List (Move Part)) : List Part :=
  moves.filterMap fun
    | .spawn part => some part
    | .go _ => none

-- A record is looked up only while no other call has still to save it, and before it is complete.
def Serial (u : Upload) (p : Calls) : Move Part → Prop
  | .spawn _ => True
  | .go i => p.tag i = some .lookUp →
      (∀ j < p.threads.length, j = i ∨ p.tag j ≠ some .save) ∧
      ∀ e ∈ p.state.depot.multiparts, u.names e.1 = true →
        MultipartService.unfinishedParts e.2.parts ≠ []

instance (u : Upload) (p : Calls) (m : Move Part) : Decidable (Serial u p m) :=
  match m with
  | .spawn _ => .isTrue trivial
  | .go i => inferInstanceAs (Decidable (p.tag i = some .lookUp →
      (∀ j < p.threads.length, j = i ∨ p.tag j ≠ some .save) ∧
      ∀ e ∈ p.state.depot.multiparts, u.names e.1 = true →
        MultipartService.unfinishedParts e.2.parts ≠ []))

-- Once all calls have returned.
structure Intact (u : Upload) (sent : List Part) (p : Calls) : Prop where
  kept : (∀ i, p.tag i = none) → u.id ∈ p.state.merged ∨
    ∃ m, Assoc.get p.state.depot.multiparts u.key = some m ∧
      ∀ part ∈ sent, m.parts[part.nth]? = some true
  handed : (∀ i, p.tag i = none) → (∀ nth < u.n, ∃ part ∈ sent, part.nth = nth) →
    p.state.handed.count u.id = 1

section Invariant

variable (u : Upload) (s : Desk)

def Kept (nth : Nat) : Prop := Assoc.get s.depot.parts (u.id, nth) = some (u.content nth)

-- A call while parts are still missing.
def Waits (m : Multipart) (c : Caller) : Prop :=
  match c.stage with
  | .fresh => True
  | .written => Kept u s c.part.nth
  | .looked m' => m' = m ∧ Kept u s c.part.nth
  | .returned => m.parts[c.part.nth]? = some true
  | _ => False

def Caller.isLooked (c : Caller) : Bool :=
  match c.stage with
  | .looked _ => true
  | _ => false

structure Open (m : Multipart) (cs : List Caller) : Prop where
  keys : (Assoc.keys s.depot.multiparts).filter u.names = [u.key]
  record : Assoc.get s.depot.multiparts u.key = some m
  hash : m.hash = u.hash
  length : m.parts.length = u.n
  unfinished : MultipartService.unfinishedParts m.parts ≠ []
  unhanded : u.id ∉ s.handed
  disk : ∀ nth, m.parts[nth]? = some true → Kept u s nth
  has : ∀ c ∈ cs, u.Has c.part
  callers : ∀ c ∈ cs, Waits u s m c
  alone : ∀ (i j : Nat) (c d : Caller), cs[i]? = some c → cs[j]? = some d → c.isLooked = true →
    d.isLooked = true → i = j

-- The call that received the last missing part.
def Leads (c : Caller) : Prop :=
  match c.stage with
  | .joining m content nths => m.hash = u.hash ∧ (∀ nth < u.n, Kept u s nth) ∧
      content ++ nths.flatMap u.content = u.whole ∧ (∀ nth ∈ nths, nth < u.n) ∧ u.id ∉ s.handed
  | .joined _ => (∀ nth < u.n, Kept u s nth) ∧ u.id ∉ s.handed
  | .stored => (∀ nth < u.n, Kept u s nth) ∧ u.id ∈ s.merged ∧ u.id ∉ s.handed
  | .ready => u.id ∈ s.merged ∧ u.id ∉ s.handed
  | .returned => u.id ∈ s.merged ∧ s.handed.count u.id = 1
  | _ => False

def Caller.isIdle (c : Caller) : Bool :=
  match c.stage with
  | .fresh | .written | .returned => true
  | _ => false

structure Sealed (j : Nat) (cs : List Caller) : Prop where
  full : ∀ e ∈ s.depot.multiparts, u.names e.1 = true →
    MultipartService.unfinishedParts e.2.parts = []
  has : ∀ c ∈ cs, u.Has c.part
  others : ∀ (i : Nat) (c : Caller), i ≠ j → cs[i]? = some c → c.isIdle = true
  leader : ∃ c, cs[j]? = some c ∧ Leads u s c

inductive Standing (cs : List Caller) : Prop where
  | opened {m : Multipart} (h : Open u s m cs)
  | closed {j : Nat} (h : Sealed u s j cs)

end Invariant

section Opened

variable {u : Upload} {env : Env} {s t : Desk} {m : Multipart} {cs : List Caller} {i : Nat}
  {c c' : Caller}

theorem kept_write {p : Part} (hp : u.Has p) {k nth : Nat} (h : Kept u s nth) :
    Kept u { s with depot := { s.depot with
      calls := k
      parts := Assoc.insert s.depot.parts (p.metaId, p.nth) p.content } } nth := by
  rw [Kept, Assoc.get_insert]
  split
  · next heq =>
    have hnth : nth = p.nth := (Prod.ext_iff.mp heq).2
    rw [hp.content, hnth]
  · exact h

theorem kept_written {p : Part} (hp : u.Has p) {k : Nat} :
    Kept u { s with depot := { s.depot with
      calls := k
      parts := Assoc.insert s.depot.parts (p.metaId, p.nth) p.content } } p.nth := by
  rw [Kept, Assoc.get_insert, if_pos (by rw [hp.id]), hp.content]

theorem Waits.mono (h : Waits u s m c) (hkept : ∀ nth, Kept u s nth → Kept u t nth) :
    Waits u t m c := by
  obtain ⟨p, stage⟩ := c
  cases stage with
  | fresh => trivial
  | written => exact hkept p.nth h
  | looked m' => exact ⟨h.1, hkept p.nth h.2⟩
  | returned => exact h
  | _ => exact h.elim

theorem Waits.rerecord {m' : Multipart} (h : Waits u s m c) (hnot : c.isLooked = false)
    (hkept : ∀ nth, Kept u s nth → Kept u t nth)
    (hmark : ∀ nth : Nat, m.parts[nth]? = some true → m'.parts[nth]? = some true) : Waits u t m' c := by
  obtain ⟨p, stage⟩ := c
  cases stage with
  | fresh => trivial
  | written => exact hkept p.nth h
  | looked m' => cases hnot
  | returned => exact hmark p.nth h
  | _ => exact h.elim

theorem Waits.idle (h : Waits u s m c) (hnot : c.isLooked = false) : c.isIdle = true := by
  obtain ⟨p, stage⟩ := c
  cases stage with
  | fresh => rfl
  | written => rfl
  | looked m' => cases hnot
  | returned => rfl
  | _ => exact h.elim

theorem has_set (h : ∀ d ∈ cs, u.Has d.part) (hc : cs[i]? = some c) (hpart : c'.part = c.part) :
    ∀ d ∈ cs.set i c', u.Has d.part := by
  intro d hd
  obtain hd | rfl := List.mem_or_eq_of_mem_set hd
  · exact h d hd
  · exact hpart ▸ h c (List.mem_of_getElem? hc)

-- A step that leaves the record as it is.
theorem Open.step (h : Open u s m cs) (hc : cs[i]? = some c) (hpart : c'.part = c.part)
    (hrecord : t.depot.multiparts = s.depot.multiparts) (hhanded : t.handed = s.handed)
    (hkept : ∀ nth, Kept u s nth → Kept u t nth) (hwaits : Waits u t m c')
    (halone : c'.isLooked = true → ∀ (j : Nat) (d : Caller), j ≠ i → cs[j]? = some d →
      d.isLooked = false) : Open u t m (cs.set i c') where
  keys := hrecord ▸ h.keys
  record := hrecord ▸ h.record
  hash := h.hash
  length := h.length
  unfinished := h.unfinished
  unhanded := hhanded ▸ h.unhanded
  disk := fun nth hnth => hkept nth (h.disk nth hnth)
  has := has_set h.has hc hpart
  callers := by
    intro d hd
    obtain hd | rfl := List.mem_or_eq_of_mem_set hd
    · exact (h.callers d hd).mono hkept
    · exact hwaits
  alone := by
    have hlt := (List.getElem?_eq_some_iff.mp hc).1
    intro j j' d d' hd hd' hlooked hlooked'
    obtain rfl | hj := eq_or_ne i j
    · obtain rfl | hj' := eq_or_ne i j'
      · rfl
      · rw [List.getElem?_set_self hlt] at hd
        rw [List.getElem?_set_ne hj'] at hd'
        cases hd
        rw [halone hlooked j' d' hj'.symm hd'] at hlooked'
        cases hlooked'
    · rw [List.getElem?_set_ne hj] at hd
      obtain rfl | hj' := eq_or_ne i j'
      · rw [List.getElem?_set_self hlt] at hd'
        cases hd'
        rw [halone hlooked' j d hj.symm hd] at hlooked
        cases hlooked
      · rw [List.getElem?_set_ne hj'] at hd'
        exact h.alone j j' d d' hd hd' hlooked hlooked'

theorem Open.found (h : Open u s m cs) {key : String} {m' : Multipart} (hkey : u.names key = true)
    (hget : Assoc.get s.depot.multiparts key = some m') : m' = m := by
  have hin : key ∈ (Assoc.keys s.depot.multiparts).filter u.names :=
    List.mem_filter.mpr ⟨Assoc.mem_keys_of_mem (Assoc.mem_of_get hget), hkey⟩
  rw [h.keys, List.mem_singleton] at hin
  rw [hin, h.record] at hget
  exact (Option.some_inj.mp hget).symm

theorem Open.key_eq (h : Open u s m cs) (hc : u.Has c.part) :
    MultipartService.idHashKey c.part.metaId m.hash = u.key := by
  rw [hc.id, h.hash]
  rfl

theorem Open.rekey (h : Open u s m cs) (m' : Multipart) :
    (Assoc.keys (Assoc.insert s.depot.multiparts u.key m')).filter u.names = [u.key] :=
  keys_rewritten h.keys

theorem unfinishedParts_nil {parts : List Bool} (h : MultipartService.unfinishedParts parts = [])
    (nth : Nat) (hnth : nth < parts.length) : parts[nth]? = some true := by
  have hnot := List.filter_eq_nil_iff.mp h nth (List.mem_range.mpr hnth)
  rw [List.getElem?_eq_getElem hnth] at hnot ⊢
  simpa using hnot

theorem marked_mono {nth nth' : Nat} (h : m.parts[nth']? = some true) :
    (m.marked nth).parts[nth']? = some true := by
  have hlt := (List.getElem?_eq_some_iff.mp h).1
  rw [Multipart.marked, List.getElem?_set]
  split
  · next heq => rw [if_pos (heq ▸ hlt)]
  · exact h

theorem Open.disk_marked (h : Open u s m cs) {nth nth' : Nat} (hkept : Kept u s nth)
    (hmark : (m.marked nth).parts[nth']? = some true) : Kept u s nth' := by
  rw [Multipart.marked, List.getElem?_set] at hmark
  split at hmark
  · next heq => exact heq ▸ hkept
  · exact h.disk nth' hmark

-- Saving the record that one of the calls looked up, while others are missing parts too.
theorem Open.save (h : Open u s m cs) (hc : cs[i]? = some c) (hlooked : c.isLooked = true)
    (hkept : Kept u s c.part.nth) {k : Nat}
    (hopen : MultipartService.unfinishedParts (m.marked c.part.nth).parts ≠ []) :
    Open u { s with depot := { s.depot with
      calls := k
      multiparts := Assoc.insert s.depot.multiparts
        (MultipartService.idHashKey c.part.metaId m.hash) (m.marked c.part.nth) } }
      (m.marked c.part.nth) (cs.set i ⟨c.part, .returned⟩) := by
  have hhas := h.has c (List.mem_of_getElem? hc)
  have hlt := (List.getElem?_eq_some_iff.mp hc).1
  rw [h.key_eq hhas]
  exact
    { keys := h.rekey _
      record := by rw [Assoc.get_insert, if_pos rfl]
      hash := h.hash
      length := List.length_set.trans h.length
      unfinished := hopen
      unhanded := h.unhanded
      disk := fun nth hnth => h.disk_marked hkept hnth
      has := has_set h.has hc rfl
      callers := by
        intro d hd
        obtain ⟨j, hd⟩ := List.getElem?_of_mem hd
        obtain rfl | hj := eq_or_ne i j
        · rw [List.getElem?_set_self hlt] at hd
          cases hd
          change (m.parts.set c.part.nth true)[c.part.nth]? = some true
          rw [List.getElem?_set_self (h.length ▸ hhas.nth)]
        · rw [List.getElem?_set_ne hj] at hd
          have hwaits := h.callers d (List.mem_of_getElem? hd)
          have hnot : d.isLooked = false := by
            by_contra hlook
            exact hj (h.alone i j c d hc hd hlooked (by simpa using hlook))
          exact hwaits.rerecord hnot (fun _ hk => hk) fun _ hmark => marked_mono hmark
      alone := by
        intro j j' d d' hd hd' hlook hlook'
        obtain rfl | hj := eq_or_ne i j
        · rw [List.getElem?_set_self hlt] at hd
          cases hd
          cases hlook
        · obtain rfl | hj' := eq_or_ne i j'
          · rw [List.getElem?_set_self hlt] at hd'
            cases hd'
            cases hlook'
          · rw [List.getElem?_set_ne hj] at hd
            rw [List.getElem?_set_ne hj'] at hd'
            exact h.alone j j' d d' hd hd' hlook hlook' }

-- Saving the record that is complete with it.
theorem Open.finish (h : Open u s m cs) (hc : cs[i]? = some c) (hlooked : c.isLooked = true)
    (hkept : Kept u s c.part.nth) {k : Nat}
    (hwhole : MultipartService.unfinishedParts (m.marked c.part.nth).parts = []) :
    Sealed u { s with depot := { s.depot with
      calls := k
      multiparts := Assoc.insert s.depot.multiparts
        (MultipartService.idHashKey c.part.metaId m.hash) (m.marked c.part.nth) } } i
      (cs.set i ⟨c.part, .joining (m.marked c.part.nth) [] (List.range m.parts.length)⟩) := by
  have hhas := h.has c (List.mem_of_getElem? hc)
  have hlt := (List.getElem?_eq_some_iff.mp hc).1
  have hlength : (m.marked c.part.nth).parts.length = u.n := List.length_set.trans h.length
  rw [h.key_eq hhas]
  refine ⟨fun e he hname => ?_, has_set h.has hc rfl, fun j d hj hd => ?_,
    ⟨_, List.getElem?_set_self hlt, ?_⟩⟩
  · have hentry := Assoc.get_of_filter (h.rekey _) he hname
    rw [Assoc.get_insert, if_pos rfl, Option.some_inj] at hentry
    rw [← hentry]
    exact hwhole
  · rw [List.getElem?_set_ne hj.symm] at hd
    have hwaits := h.callers d (List.mem_of_getElem? hd)
    have hnot : d.isLooked = false := by
      by_contra hlook
      exact hj (h.alone i j c d hc hd hlooked (by simpa using hlook)).symm
    exact hwaits.idle hnot
  · refine ⟨h.hash, fun nth hnth => ?_, ?_, fun nth hnth => ?_, h.unhanded⟩
    · exact h.disk_marked hkept (unfinishedParts_nil hwhole nth (by rw [hlength]; exact hnth))
    · rw [List.nil_append, h.length]
      rfl
    · rw [← h.length]
      exact List.mem_range.mp hnth

theorem Open.move (h : Open u s m cs) (hc : cs[i]? = some c) (hmove : Moves env c s t c')
    (halone : c.tag = some .lookUp → ∀ (j : Nat) (d : Caller), j ≠ i → cs[j]? = some d →
      d.isLooked = false) : Standing u t (cs.set i c') := by
  have hhas := h.has c (List.mem_of_getElem? hc)
  have hwaits := h.callers c (List.mem_of_getElem? hc)
  cases hmove with
  | write p s k =>
    exact .opened (h.step hc rfl rfl rfl (fun _ => kept_write hhas) (kept_written hhas)
      fun hlooked => nomatch hlooked)
  | find p s k hkey hget hnth =>
    have hid : p.metaId = u.id := hhas.id
    rw [hid] at hkey
    have hm := h.found hkey hget
    exact .opened (h.step hc rfl rfl rfl (fun _ hk => hk) ⟨hm, hwaits⟩ fun _ => halone rfl)
  | refuse p s k hrefuse =>
    have hid : p.metaId = u.id := hhas.id
    rw [hid] at hrefuse
    obtain hnone | ⟨key, m', hkey, hget, hnth⟩ := hrefuse
    · have hfalse := hnone _ (Assoc.mem_of_get h.record)
      have hkey := MultipartService.glob_idHashKey u.id u.hash
      exact absurd (hfalse.symm.trans hkey) Bool.false_ne_true
    · have hm := h.found hkey hget
      exact absurd (h.length ▸ hhas.nth) (hm ▸ hnth)
  | save p s k m' =>
    obtain ⟨rfl, hkept⟩ := hwaits
    split
    · next hwhole => exact .closed (h.finish hc rfl hkept hwhole)
    · next hopen => exact .opened (h.save hc rfl hkept hopen)
  | _ => exact hwaits.elim

end Opened

section Closed

variable {u : Upload} {env : Env} {s t : Desk} {cs : List Caller} {i j : Nat} {c c' : Caller}

theorem Leads.mono (h : Leads u s c) (hkept : ∀ nth, Kept u s nth → Kept u t nth)
    (hmerged : t.merged = s.merged) (hhanded : t.handed = s.handed) : Leads u t c := by
  obtain ⟨p, stage⟩ := c
  cases stage with
  | joining m content nths =>
    obtain ⟨hhash, hdisk, hcontent, hnths, hnot⟩ := h
    exact ⟨hhash, fun nth hnth => hkept nth (hdisk nth hnth), hcontent, hnths, hhanded ▸ hnot⟩
  | joined content => exact ⟨fun nth hnth => hkept nth (h.1 nth hnth), hhanded ▸ h.2⟩
  | stored =>
    exact ⟨fun nth hnth => hkept nth (h.1 nth hnth), hmerged ▸ h.2.1, hhanded ▸ h.2.2⟩
  | ready => exact ⟨hmerged ▸ h.1, hhanded ▸ h.2⟩
  | returned => exact ⟨hmerged ▸ h.1, hhanded ▸ h.2⟩
  | _ => exact h.elim

-- A step of the leading call.
theorem Sealed.lead (h : Sealed u s j cs) (hc : cs[j]? = some c) (hpart : c'.part = c.part)
    (hrecord : ∀ e ∈ t.depot.multiparts, e ∈ s.depot.multiparts) (hleads : Leads u t c') :
    Sealed u t j (cs.set j c') where
  full := fun e he => h.full e (hrecord e he)
  has := has_set h.has hc hpart
  others := fun i d hi hd => h.others i d hi (List.getElem?_set_ne hi.symm ▸ hd)
  leader := ⟨c', List.getElem?_set_self (List.getElem?_eq_some_iff.mp hc).1, hleads⟩

-- A step of another one.
theorem Sealed.follow (h : Sealed u s j cs) (hi : i ≠ j) (hc : cs[i]? = some c)
    (hpart : c'.part = c.part) (hidle : c'.isIdle = true)
    (hrecord : t.depot.multiparts = s.depot.multiparts) (hmerged : t.merged = s.merged)
    (hhanded : t.handed = s.handed) (hkept : ∀ nth, Kept u s nth → Kept u t nth) :
    Sealed u t j (cs.set i c') where
  full := hrecord ▸ h.full
  has := has_set h.has hc hpart
  others := by
    intro k d hk hd
    obtain rfl | hne := eq_or_ne i k
    · rw [List.getElem?_set_self (List.getElem?_eq_some_iff.mp hc).1] at hd
      cases hd
      exact hidle
    · exact h.others k d hk (List.getElem?_set_ne hne ▸ hd)
  leader := by
    obtain ⟨d, hd, hleads⟩ := h.leader
    exact ⟨d, (List.getElem?_set_ne hi).trans hd, hleads.mono hkept hmerged hhanded⟩

theorem Kept.any {nth : Nat} (h : Kept u s nth) :
    (s.depot.parts.any fun e => e.1.1 == u.id) = true := by
  have hmem := Assoc.mem_of_get h
  exact List.any_eq_true.mpr ⟨_, hmem, beq_self_eq_true u.id⟩

theorem Sealed.move_leader
    (hhash : MultipartService.toUppercase (env.blake3 u.whole) = u.hash) (h : Sealed u s j cs)
    (hc : cs[j]? = some c) (hleads : Leads u s c) (hmove : Moves env c s t c') :
    Sealed u t j (cs.set j c') := by
  have hhas := h.has c (List.mem_of_getElem? hc)
  cases hmove with
  | read p s k hget =>
    obtain ⟨hm, hdisk, hcontent, hnths, hnot⟩ := hleads
    have hid : p.metaId = u.id := hhas.id
    have hnth := hdisk _ (hnths _ List.mem_cons_self)
    rw [hid] at hget
    have hpart := Option.some_inj.mp (hget.symm.trans hnth)
    refine h.lead hc rfl (fun _ he => he) ⟨hm, hdisk, ?_, fun i hi => hnths i ?_, hnot⟩
    · rw [hpart, List.append_assoc, ← List.flatMap_cons]
      exact hcontent
    · exact List.mem_cons_of_mem _ hi
  | miss p s k hget =>
    obtain ⟨hm, hdisk, hcontent, hnths, hnot⟩ := hleads
    have hid : p.metaId = u.id := hhas.id
    have hnth := hdisk _ (hnths _ List.mem_cons_self)
    rw [hid] at hget
    cases hget.symm.trans hnth
  | agree p s hagree =>
    exact h.lead hc rfl (fun _ he => he) ⟨hleads.2.1, hleads.2.2.2.2⟩
  | differ p s hdiffer =>
    obtain ⟨hm, hdisk, hcontent, hnths, hnot⟩ := hleads
    rw [List.flatMap_nil, List.append_nil] at hcontent
    rw [hcontent, hm] at hdiffer
    exact absurd hhash hdiffer
  | store p s k content =>
    refine h.lead hc rfl (fun _ he => he) ⟨hleads.1, ?_, hleads.2⟩
    have hid : p.metaId = u.id := hhas.id
    rw [hid]
    exact List.mem_append_right _ (List.mem_singleton_self _)
  | drop p s k hany => exact h.lead hc rfl (fun _ he => he) hleads.2
  | gone p s k hnone =>
    have hid : p.metaId = u.id := hhas.id
    rw [hid] at hnone
    exact absurd (hleads.1 _ hhas.nth).any hnone
  | hand p s hfewer =>
    refine h.lead hc rfl hfewer ⟨hleads.1, ?_⟩
    have hid : p.metaId = u.id := hhas.id
    rw [hid, List.count_append, List.count_eq_zero.mpr hleads.2, List.count_singleton_self]
  | _ => exact hleads.elim

theorem Sealed.move (hhash : MultipartService.toUppercase (env.blake3 u.whole) = u.hash)
    (h : Sealed u s j cs) (hc : cs[i]? = some c) (hmove : Moves env c s t c')
    (hopen : c.tag = some .lookUp → ∀ e ∈ s.depot.multiparts, u.names e.1 = true →
      MultipartService.unfinishedParts e.2.parts ≠ []) : Sealed u t j (cs.set i c') := by
  obtain rfl | hi := eq_or_ne i j
  · obtain ⟨d, hd, hleads⟩ := h.leader
    rw [hc] at hd
    cases hd
    exact h.move_leader hhash hc hleads hmove
  · have hidle := h.others i c hi hc
    have hhas := h.has c (List.mem_of_getElem? hc)
    cases hmove with
    | write p s k => exact h.follow hi hc rfl rfl rfl rfl rfl fun _ => kept_write hhas
    | find p s k hkey hget hnth =>
      have hid : p.metaId = u.id := hhas.id
      rw [hid] at hkey
      have hmem := Assoc.mem_of_get hget
      exact absurd (h.full _ hmem hkey) (hopen rfl _ hmem hkey)
    | refuse p s k hrefuse => exact h.follow hi hc rfl rfl rfl rfl rfl fun _ hk => hk
    | _ => cases hidle

end Closed

section Runs

variable {u : Upload} {env : Env} {s t : Desk} {cs : List Caller} {c c' : Caller} {part : Part}
  {sent : List Part} {p : Calls}

theorem Moves.part_eq (h : Moves env c s t c') : c'.part = c.part := by
  cases h <;> rfl

theorem Standing.spawn (h : Standing u s cs) (hpart : u.Has part) :
    Standing u s (cs ++ [⟨part, .fresh⟩]) := by
  have hhas (hcs : ∀ d ∈ cs, u.Has d.part) : ∀ d ∈ cs ++ [⟨part, .fresh⟩], u.Has d.part := by
    intro d hd
    obtain hd | hd := List.mem_append.mp hd
    · exact hcs d hd
    · rw [List.mem_singleton.mp hd]
      exact hpart
  have hold {i : Nat} {d : Caller} (hd : (cs ++ [⟨part, .fresh⟩])[i]? = some d) :
      cs[i]? = some d ∨ d = ⟨part, .fresh⟩ := by
    obtain hlt | hge := Nat.lt_or_ge i cs.length
    · exact .inl ((List.getElem?_append_left hlt).symm.trans hd)
    · rw [List.getElem?_append_right hge, List.getElem?_singleton] at hd
      split at hd
      · cases hd
        exact .inr rfl
      · cases hd
  cases h with
  | opened h =>
    refine .opened { h with has := hhas h.has, callers := fun d hd => ?_, alone := ?_ }
    · obtain hd | hd := List.mem_append.mp hd
      · exact h.callers d hd
      · rw [List.mem_singleton.mp hd]
        trivial
    · intro i j d d' hd hd' hlook hlook'
      obtain hd | rfl := hold hd
      · obtain hd' | rfl := hold hd'
        · exact h.alone i j d d' hd hd' hlook hlook'
        · cases hlook'
      · cases hlook
  | @closed j h =>
    refine .closed (j := j) { h with has := hhas h.has, others := fun i d hi hd => ?_, leader := ?_ }
    · obtain hd | rfl := hold hd
      · exact h.others i d hi hd
      · rfl
    · obtain ⟨d, hd, hleads⟩ := h.leader
      have hlt := (List.getElem?_eq_some_iff.mp hd).1
      exact ⟨d, (List.getElem?_append_left hlt).trans hd, hleads⟩

-- The calls of the pool with the parts they were made for.
structure Underway (u : Upload) (env : Env) (sent : List Part) (p : Calls) (cs : List Caller) :
    Prop where
  follows : Pool.Follows (uploads env) p cs
  standing : Standing u p.state cs
  parts : cs.map Caller.part = sent

theorem Underway.looked (h : Underway u env sent p cs) {i : Nat} (hc : cs[i]? = some c)
    (hserial : Serial u p (.go i)) (htag : c.tag = some .lookUp) {j : Nat} {d : Caller}
    (hj : j ≠ i) (hd : cs[j]? = some d) : d.isLooked = false := by
  have hi := h.follows.tag i
  have hj' := h.follows.tag j
  rw [hc] at hi
  rw [hd] at hj'
  obtain ⟨hnone, -⟩ := hserial (hi.trans htag)
  have hlt : j < p.threads.length := h.follows.length ▸ (List.getElem?_eq_some_iff.mp hd).1
  have hsave : d.tag ≠ some .save := by
    obtain heq | hne := hnone j hlt
    · exact absurd heq hj
    · exact fun hsave => hne (hj'.trans hsave)
  obtain ⟨q, stage⟩ := d
  cases stage with
  | looked m => exact absurd rfl hsave
  | _ => rfl

theorem Underway.step (hhash : MultipartService.toUppercase (env.blake3 u.whole) = u.hash)
    (hfails : ∀ k, env.fails k = false) (h : Underway u env sent p cs) {move : Move Part}
    (hparts : ∀ part, move = .spawn part → u.Has part) (hserial : Serial u p move) :
    ∃ cs', Underway u env (sent ++ delivered [move]) (p.step (start env) move) cs' := by
  cases move with
  | spawn part =>
    have hstanding : Standing u p.state (cs ++ [⟨part, .fresh⟩]) :=
      h.standing.spawn (hparts part rfl)
    have hfollows : Pool.Follows (uploads env) (p.step (start env) (.spawn part))
        (cs ++ [⟨part, .fresh⟩]) :=
      h.follows.spawn (x := start env part) rfl (conforms_partialUpload hfails)
    have hmap : (cs ++ [(⟨part, .fresh⟩ : Caller)]).map Caller.part =
        sent ++ delivered [.spawn part] := by
      rw [List.map_append, h.parts]
      rfl
    exact ⟨_, hfollows, hstanding, hmap⟩
  | go i =>
    have hsent : sent ++ delivered [.go i] = sent := List.append_nil sent
    rw [hsent]
    obtain ⟨c, c', hc, hmove, hfollows⟩ | ⟨hsame, -⟩ := h.follows.go i
    · have htag := h.follows.tag i
      rw [hc] at htag
      refine ⟨cs.set i c', hfollows, ?_, ?_⟩
      · cases h.standing with
        | opened hopen =>
          exact hopen.move hc hmove fun hlook j d hj hd => h.looked hc hserial hlook hj hd
        | closed hclosed =>
          exact .closed (hclosed.move hhash hc hmove fun hlook =>
            (hserial (htag.trans hlook)).2)
      · rw [List.map_set, hmove.part_eq, ← h.parts]
        refine List.ext_getElem? fun j => ?_
        rw [List.getElem?_set]
        split
        · next heq =>
          subst heq
          rw [List.getElem?_map, hc]
          simp [(List.getElem?_eq_some_iff.mp hc).1]
        · rfl
    · exact ⟨cs, by rw [Pool.step, hsame]; exact h⟩

theorem Underway.returned (h : Underway u env sent p cs) (hdone : ∀ i, p.tag i = none)
    (hc : c ∈ cs) : c.stage = .returned := by
  obtain ⟨i, hi⟩ := List.getElem?_of_mem hc
  have htag := h.follows.tag i
  rw [hdone i, hi] at htag
  obtain ⟨q, stage⟩ := c
  cases stage with
  | returned => rfl
  | _ => cases htag

theorem Underway.intact (h : Underway u env sent p cs) : Intact u sent p := by
  have hleader {j : Nat} (hclosed : Sealed u p.state j cs) (hdone : ∀ i, p.tag i = none) :
      u.id ∈ p.state.merged ∧ p.state.handed.count u.id = 1 := by
    obtain ⟨⟨q, stage⟩, hc, hleads⟩ := hclosed.leader
    cases h.returned hdone (List.mem_of_getElem? hc)
    exact hleads
  have hmarked {m : Multipart} (hopen : Open u p.state m cs) (hdone : ∀ i, p.tag i = none) :
      ∀ part ∈ sent, m.parts[part.nth]? = some true := by
    intro part hpart
    rw [← h.parts] at hpart
    obtain ⟨⟨q, stage⟩, hc, rfl⟩ := List.mem_map.mp hpart
    have hwaits := hopen.callers _ hc
    cases h.returned hdone hc
    exact hwaits
  refine ⟨fun hdone => ?_, fun hdone hall => ?_⟩
  · cases h.standing with
    | opened hopen => exact .inr ⟨_, hopen.record, hmarked hopen hdone⟩
    | closed hclosed => exact .inl (hleader hclosed hdone).1
  · cases h.standing with
    | opened hopen =>
      refine absurd (List.filter_eq_nil_iff.mpr fun nth hnth hfalse => ?_) hopen.unfinished
      obtain ⟨part, hpart, rfl⟩ := hall nth (hopen.length ▸ List.mem_range.mp hnth)
      rw [hmarked hopen hdone part hpart] at hfalse
      cases hfalse
    | closed hclosed => exact (hleader hclosed hdone).2

theorem underway_created {hashAlgorithm : HashAlgorithm} {d d₀ : Depot} (hn : 0 < u.n)
    (hcreate : MultipartService.create u.id u.hash hashAlgorithm u.n env d = (.ok (), d₀)) :
    Underway u env [] ⟨⟨d₀, [], []⟩, []⟩ [] := by
  have hd := receiving_created hcreate
  refine ⟨⟨rfl, fun i x y hx => nomatch hx⟩, .opened
    { keys := hd.keys
      record := hd.record
      hash := rfl
      length := by simp [flags]
      unfinished := ?_
      unhanded := List.not_mem_nil
      disk := fun nth hnth => ?_
      has := fun c hc => absurd hc List.not_mem_nil
      callers := fun c hc => absurd hc List.not_mem_nil
      alone := fun i j c d hc => nomatch hc }, rfl⟩
  · rw [unfinishedParts_flags]
    exact List.ne_nil_of_mem (mem_missing.mpr ⟨hn, fun part hpart => absurd hpart List.not_mem_nil⟩)
  · have hmem := List.mem_of_getElem? hnth
    simp [flags, lastSent] at hmem

theorem parts_kept {hashAlgorithm : HashAlgorithm} {d d₀ : Depot} {moves : List (Move Part)}
    (hfails : ∀ k, env.fails k = false) (hn : 0 < u.n)
    (hhash : MultipartService.toUppercase (env.blake3 u.whole) = u.hash)
    (hcreate : MultipartService.create u.id u.hash hashAlgorithm u.n env d = (.ok (), d₀))
    (hparts : ∀ part ∈ delivered moves, u.Has part)
    (h : Along (Pool.step (start env)) (Serial u) ⟨⟨d₀, [], []⟩, []⟩ moves) :
    Intact u (delivered moves) (run (Pool.step (start env)) ⟨⟨d₀, [], []⟩, []⟩ moves) := by
  have hrun : ∃ cs, Underway u env (delivered moves)
      (run (Pool.step (start env)) ⟨⟨d₀, [], []⟩, []⟩ moves) cs := by
    induction moves using List.reverseRecOn with
    | nil => exact ⟨[], underway_created hn hcreate⟩
    | append_singleton moves move ih =>
      have hsplit : delivered (moves ++ [move]) = delivered moves ++ delivered [move] :=
        List.filterMap_append
      rw [along_append] at h
      obtain ⟨cs, hcs⟩ := ih (fun part hpart => hparts part
        (hsplit ▸ List.mem_append_left _ hpart)) h.1
      rw [hsplit, run_append]
      refine hcs.step hhash hfails (fun part hpart => hparts part ?_) h.2.1
      rw [hsplit, hpart]
      exact List.mem_append_right _ List.mem_cons_self
  obtain ⟨cs, hcs⟩ := hrun
  exact hcs.intact

end Runs

section Samples

def pairUpload : Upload := ⟨9, "AB", 2, fun nth => if nth = 0 then [65] else [66]⟩

def pairDepot : Depot := (MultipartService.create 9 "AB" .blake3 2 upEnv emptyDepot).2

def pairStart : Calls := ⟨⟨pairDepot, [], []⟩, []⟩

-- Both parts are on disk, and the calls go on.
def bothWritten : List (Move Part) :=
  [.spawn ⟨9, 0, [65]⟩, .spawn ⟨9, 1, [66]⟩, .go 0, .go 1]

theorem pair_created : MultipartService.create pairUpload.id pairUpload.hash .blake3 pairUpload.n
    upEnv emptyDepot = (.ok (), pairDepot) :=
  Prod.ext (by decide +kernel) rfl

theorem pair_has {moves : List (Move Part)}
    (h : delivered moves = [⟨9, 0, [65]⟩, ⟨9, 1, [66]⟩]) :
    ∀ part ∈ delivered moves, pairUpload.Has part := by
  intro part hpart
  rw [h, List.mem_cons, List.mem_singleton] at hpart
  obtain rfl | rfl := hpart
  · exact ⟨rfl, by decide, rfl⟩
  · exact ⟨rfl, by decide, rfl⟩

theorem parts_kept_sample :
    let moves := bothWritten ++
      [.go 0, .go 0, .go 1, .go 1, .go 1, .go 1, .go 1, .go 1, .go 1, .go 1]
    Intact pairUpload (delivered moves) (run (Pool.step (start upEnv)) pairStart moves) := by
  intro moves
  exact parts_kept (fun _ => rfl) (by decide) (by decide +kernel) pair_created (pair_has rfl)
    (by decide +kernel)

-- Both calls look the record up before one of them has saved it.
theorem part_forgotten : ¬∀ (u : Upload) (env : Env) (hashAlgorithm : HashAlgorithm)
    (d d₀ : Depot) (moves : List (Move Part)), (∀ k, env.fails k = false) → 0 < u.n →
      MultipartService.toUppercase (env.blake3 u.whole) = u.hash →
      MultipartService.create u.id u.hash hashAlgorithm u.n env d = (.ok (), d₀) →
      (∀ part ∈ delivered moves, u.Has part) →
      Intact u (delivered moves) (run (Pool.step (start env)) ⟨⟨d₀, [], []⟩, []⟩ moves) := by
  intro h
  have hintact := h pairUpload upEnv .blake3 emptyDepot pairDepot
    (bothWritten ++ [.go 0, .go 1, .go 0, .go 1]) (fun _ => rfl) (by decide) (by decide +kernel)
    pair_created (pair_has rfl)
  have hdone : ∀ i, (run (Pool.step (start upEnv)) pairStart
      (bothWritten ++ [.go 0, .go 1, .go 0, .go 1])).tag i = none := by
    intro i
    obtain hlt | hge := Nat.lt_or_ge i 2
    · revert i
      decide +kernel
    · have hlength : (run (Pool.step (start upEnv)) pairStart
          (bothWritten ++ [.go 0, .go 1, .go 0, .go 1])).threads.length = 2 := by decide +kernel
      rw [Pool.tag, List.getElem?_eq_none_iff.mpr (hlength ▸ hge)]
  obtain hmerged | ⟨m, hget, hmarked⟩ := hintact.kept hdone
  · revert hmerged
    decide +kernel
  · have hrecord : Assoc.get (run (Pool.step (start upEnv)) pairStart
        (bothWritten ++ [.go 0, .go 1, .go 0, .go 1])).state.depot.multiparts pairUpload.key =
          some ⟨9, "AB", .blake3, [false, true]⟩ := by decide +kernel
    cases hget.symm.trans hrecord
    cases hmarked ⟨9, 0, [65]⟩ (by decide)

end Samples

end Kuintessence.Storage
