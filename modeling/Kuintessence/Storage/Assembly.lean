import Kuintessence.Lib.Run
import Kuintessence.Storage.Endpoints

namespace Kuintessence.Storage

open Effect

namespace MultipartService

def idStem (id : Uuid) : String := "multipart_" ++ uuidText id ++ "_"

theorem uuidText_plain {id : Uuid} {c : Char} (h : c ∈ (uuidText id).toList) :
    Glob.isPlain c = true := by
  have hdigit : ∀ d < 16, Glob.isPlain (Hex.digit d) = true := by decide
  change c ∈ (String.ofList (Hex.group [8, 4, 4, 4] (Hex.write 32 id))).toList at h
  rw [String.toList_ofList] at h
  obtain rfl | h := Hex.mem_group h
  · decide
  · obtain ⟨d, hd, rfl⟩ := Hex.mem_write _ _ h
    exact hdigit d hd

theorem glob_idKeyRegex {id : Uuid} {key : String} :
    glob (idKeyRegex id) key = true ↔ (idStem id).toList <+: key.toList := by
  have hkey : idKeyRegex id = idStem id ++ "*" := by
    change "multipart_" ++ uuidText id ++ "_*" = "multipart_" ++ uuidText id ++ "_" ++ "*"
    simp only [String.append_assoc]
    rfl
  rw [hkey]
  refine glob_plain fun c hc => ?_
  rw [idStem, String.toList_append, String.toList_append, List.mem_append, List.mem_append] at hc
  obtain (hc | hc) | hc := hc
  · exact List.all_eq_true.mp (by decide +kernel) c hc
  · exact uuidText_plain hc
  · exact List.all_eq_true.mp (by decide +kernel) c hc

theorem glob_idHashKey (id : Uuid) (hash : String) :
    glob (idKeyRegex id) (idHashKey id hash) = true := by
  have hkey : idHashKey id hash = idStem id ++ hash := rfl
  rw [glob_idKeyRegex, hkey, String.toList_append]
  exact List.prefix_append _ _

end MultipartService

section Sent

def lastSent (sent : List Part) (nth : Nat) : Option Bytes :=
  (sent.reverse.find? fun part => part.nth = nth).map Part.content

def missing (n : Nat) (sent : List Part) : List Nat :=
  (List.range n).filter fun nth => ∀ part ∈ sent, part.nth ≠ nth

def assembled (n : Nat) (sent : List Part) : Bytes :=
  (List.range n).flatMap fun nth => (lastSent sent nth).getD []

def flags (n : Nat) (sent : List Part) : List Bool :=
  (List.range n).map fun nth => (lastSent sent nth).isSome

variable {n nth : Nat} {sent : List Part} {part : Part}

theorem lastSent_append : lastSent (sent ++ [part]) nth =
    if part.nth = nth then some part.content else lastSent sent nth := by
  rw [lastSent, List.reverse_append, List.reverse_singleton, List.singleton_append,
    List.find?_cons]
  by_cases h : part.nth = nth
  · simp [h]
  · simp [h, lastSent]

theorem lastSent_isSome : (lastSent sent nth).isSome = true ↔ ∃ part ∈ sent, part.nth = nth := by
  simp [lastSent]

theorem mem_missing : nth ∈ missing n sent ↔ nth < n ∧ ∀ part ∈ sent, part.nth ≠ nth := by
  simp [missing]

theorem missing_append_ne (h : missing n (sent ++ [part]) ≠ []) : missing n sent ≠ [] := by
  obtain ⟨nth, hnth⟩ := List.exists_mem_of_ne_nil _ h
  obtain ⟨hlt, hnot⟩ := mem_missing.mp hnth
  exact List.ne_nil_of_mem (mem_missing.mpr ⟨hlt, fun q hq => hnot q (List.mem_append_left _ hq)⟩)

theorem flags_append : (flags n sent).set part.nth true = flags n (sent ++ [part]) := by
  refine List.ext_getElem (by simp [flags]) fun i hi hi' => ?_
  rw [List.getElem_set]
  simp only [flags, List.getElem_map, List.getElem_range, lastSent_append]
  split
  · rfl
  · rfl

theorem unfinishedParts_flags :
    MultipartService.unfinishedParts (flags n sent) = missing n sent := by
  rw [MultipartService.unfinishedParts, missing, flags, List.length_map, List.length_range]
  refine List.filter_congr fun i hi => ?_
  have hlt := List.mem_range.mp hi
  rw [List.getElem?_map, List.getElem?_range hlt, Option.map_some, Bool.eq_iff_iff, beq_iff_eq,
    Option.some_inj, decide_eq_true_eq, ← Bool.not_eq_true, lastSent_isSome]
  simp

end Sent

section Undisturbed

variable {env : Env} (hfails : ∀ k, env.fails k = false)

include hfails

theorem run_call (d : Depot) : call env d = (.ok d.calls, { d with calls := d.calls + 1 }) := by
  change (if env.fails d.calls then (fail "external call failed" : Act Nat) else pure d.calls)
    env { d with calls := d.calls + 1 } = _
  rw [hfails]
  rfl

theorem run_writePart (part : Part) (d : Depot) : CacheService.writePart part env d =
    (.ok (), { d with
      calls := d.calls + 1
      parts := Assoc.insert d.parts (part.metaId, part.nth) part.content }) :=
  bind_of_ok (run_call hfails d) _

theorem run_getOne (regex : String) (d : Depot) : MultipartRepo.getOneByKeyRegex regex env d =
    (.ok (((env.keys d.calls).on ((Assoc.keys d.multiparts).filter (glob regex))).head?.bind
      (Assoc.get d.multiparts)), { d with calls := d.calls + 1 }) := by
  have hkeys : queryKeys d.multiparts regex env d =
      (.ok ((env.keys d.calls).on ((Assoc.keys d.multiparts).filter (glob regex))),
        { d with calls := d.calls + 1 }) := bind_of_ok (run_call hfails d) _
  exact bind_of_ok hkeys _

theorem run_getMultipart {regex key : String} (d : Depot)
    (h : (Assoc.keys d.multiparts).filter (glob regex) = [key]) :
    MultipartRepo.getOneByKeyRegex regex env d =
      (.ok (Assoc.get d.multiparts key), { d with calls := d.calls + 1 }) := by
  have hone : (env.keys d.calls).on [key] = [key] :=
    List.perm_singleton.mp ((env.keys d.calls).perm [key])
  rw [run_getOne hfails, h, hone]
  rfl

theorem run_writeMultipart (key : String) (entity : Multipart) (d : Depot) :
    MultipartRepo.write key entity env d = (.ok (), { d with
      calls := d.calls + 1, multiparts := Assoc.insert d.multiparts key entity }) :=
  bind_of_ok (run_call hfails d) _

theorem run_writeNormal (id : Uuid) (content : Bytes) (d : Depot) :
    CacheService.writeNormal id content env d = (.ok (), { d with
      calls := d.calls + 1, normal := Assoc.insert d.normal id content }) :=
  bind_of_ok (run_call hfails d) _

theorem run_readPart {id : Uuid} {nth : Nat} {content : Bytes} {d : Depot}
    (h : Assoc.get d.parts (id, nth) = some content) :
    CacheService.readPart id nth env d = (.ok content, { d with calls := d.calls + 1 }) := by
  refine (bind_of_ok (run_call hfails d) _).trans ?_
  change orFail _ (Assoc.get d.parts (id, nth)) env _ = _
  rw [h]
  rfl

theorem run_missPart {id : Uuid} {nth : Nat} {d : Depot}
    (h : Assoc.get d.parts (id, nth) = none) : CacheService.readPart id nth env d =
      (.err (.anyhow "No such file or directory"), { d with calls := d.calls + 1 }) := by
  refine (bind_of_ok (run_call hfails d) _).trans ?_
  change orFail _ (Assoc.get d.parts (id, nth)) env _ = _
  rw [h]
  rfl

theorem run_readParts {id : Uuid} {content : Nat → Bytes} {nths : List Nat} {d : Depot}
    (h : ∀ nth ∈ nths, Assoc.get d.parts (id, nth) = some (content nth)) :
    mapEach (CacheService.readPart id) nths env d =
      (.ok (nths.map content), { d with calls := d.calls + nths.length }) := by
  induction nths generalizing d with
  | nil => rfl
  | cons nth nths ih =>
    have hrest := @ih { d with calls := d.calls + 1 }
      fun i hi => h i (List.mem_cons_of_mem nth hi)
    refine (bind_of_ok (run_readPart hfails (h nth List.mem_cons_self)) _).trans ?_
    refine (bind_of_ok hrest _).trans ?_
    rw [List.map_cons, List.length_cons, Nat.add_comm nths.length, ← Nat.add_assoc]
    rfl

theorem run_removeMultipartDir {id : Uuid} {d : Depot}
    (h : (d.parts.any fun e => e.1.1 == id) = true) :
    CacheService.removeMultipartDir id env d = (.ok (), { d with
      calls := d.calls + 1, parts := d.parts.filter fun e => e.1.1 != id }) := by
  refine (bind_of_ok (run_call hfails d) _).trans ?_
  change (if (d.parts.any fun e => e.1.1 == id) = true then _ else _ : Act Unit) env _ = _
  rw [h]
  rfl

theorem run_missMultipartDir {id : Uuid} {d : Depot}
    (h : ¬(d.parts.any fun e => e.1.1 == id) = true) :
    CacheService.removeMultipartDir id env d =
      (.err (.anyhow "No such file or directory"), { d with calls := d.calls + 1 }) := by
  refine (bind_of_ok (run_call hfails d) _).trans ?_
  change (if (d.parts.any fun e => e.1.1 == id) = true then _ else _ : Act Unit) env _ = _
  rw [if_neg h]
  rfl

end Undisturbed

-- The record and the parts of an upload for which the parts were sent, not all of them yet.
structure Receiving (id : Uuid) (hash : String) (hashAlgorithm : HashAlgorithm) (n : Nat)
    (sent : List Part) (d : Depot) : Prop where
  keys : (Assoc.keys d.multiparts).filter (glob (MultipartService.idKeyRegex id)) =
    [MultipartService.idHashKey id hash]
  record : Assoc.get d.multiparts (MultipartService.idHashKey id hash) =
    some ⟨id, hash, hashAlgorithm, flags n sent⟩
  parts : ∀ nth content, lastSent sent nth = some content →
    Assoc.get d.parts (id, nth) = some content

-- What the call for the last of the parts answers.
structure Answers (env : Env) (id : Uuid) (hash : String) (n : Nat) (sent : List Part)
    (out : Outcome Exception (List Nat) × Depot) : Prop where
  waits : missing n sent ≠ [] → out.1 = .ok (missing n sent)
  merges : missing n sent = [] →
    MultipartService.toUppercase (env.blake3 (assembled n sent)) = hash →
      out.1 = .ok [] ∧ Assoc.get out.2.normal id = some (assembled n sent)
  differs : missing n sent = [] →
    MultipartService.toUppercase (env.blake3 (assembled n sent)) ≠ hash →
      out.1 = .err (.differentHashs id hash
        (MultipartService.toUppercase (env.blake3 (assembled n sent))))

section Upload

variable {env : Env} {id : Uuid} {hash : String} {hashAlgorithm : HashAlgorithm} {n : Nat}
  {sent : List Part} {part : Part} {d d₀ : Depot}

theorem keys_rewritten {v : Multipart}
    (h : (Assoc.keys d.multiparts).filter (glob (MultipartService.idKeyRegex id)) =
      [MultipartService.idHashKey id hash]) :
    (Assoc.keys (Assoc.insert d.multiparts (MultipartService.idHashKey id hash) v)).filter
      (glob (MultipartService.idKeyRegex id)) = [MultipartService.idHashKey id hash] := by
  have hmem : MultipartService.idHashKey id hash ∈ Assoc.keys d.multiparts :=
    List.mem_of_mem_filter (h ▸ List.mem_singleton_self _)
  rw [Assoc.keys_insert, if_pos hmem, h]

theorem wp_call (d : Depot) : wp call env
    (fun k t => k = d.calls ∧ env.fails d.calls = false ∧ t = { d with calls := d.calls + 1 })
    (fun t => env.fails d.calls = true ∧ t = { d with calls := d.calls + 1 }) d := by
  change wp (if env.fails d.calls then (fail "external call failed" : Act Nat) else pure d.calls)
    env _ _ { d with calls := d.calls + 1 }
  split
  · next h => exact ⟨h, rfl⟩
  · next h => exact ⟨rfl, by simpa using h, rfl⟩

theorem head_eq_none {entries : List (String × Multipart)} {regex : String} {o : Order String}
    (h : ((o.on ((Assoc.keys entries).filter (glob regex))).head?.bind (Assoc.get entries)) = none) :
    (Assoc.keys entries).filter (glob regex) = [] := by
  rw [Option.bind_eq_none_iff] at h
  refine List.eq_nil_iff_forall_not_mem.mpr fun key hkey => ?_
  obtain ⟨first, rest, hon⟩ := List.exists_cons_of_ne_nil (List.ne_nil_of_mem (o.mem_on.mpr hkey))
  have hfirst : first ∈ (Assoc.keys entries).filter (glob regex) :=
    o.mem_on.mp (hon ▸ List.mem_cons_self)
  rw [hon] at h
  exact Assoc.get_eq_none_iff.mp (h first rfl) (List.mem_of_mem_filter hfirst)

theorem wp_getMultipart (regex : String) (d : Depot) :
    wp (MultipartRepo.getOneByKeyRegex regex) env (fun found t => t.multiparts = d.multiparts ∧
      (found = none → (Assoc.keys d.multiparts).filter (glob regex) = [])) (fun _ => True) d := by
  rw [MultipartRepo.getOneByKeyRegex, wp_bind, wp_get, wp_bind, queryKeys, wp_bind, wp_read, wp_bind]
  refine wp_mono (wp_call d) ?_ fun _ _ => trivial
  rintro k _ ⟨-, -, rfl⟩
  exact ⟨rfl, head_eq_none⟩

theorem receiving_created
    (h : MultipartService.create id hash hashAlgorithm n env d = (.ok (), d₀)) :
    Receiving id hash hashAlgorithm n [] d₀ := by
  have hreturns : wp (MultipartService.create id hash hashAlgorithm n) env
      (fun _ t => Receiving id hash hashAlgorithm n [] t) (fun _ => True) d := by
    rw [MultipartService.create, wp_bind]
    refine wp_mono (wp_getMultipart _ d) ?_ fun _ _ => trivial
    rintro found t ⟨ht, -⟩
    cases found with
    | some _ => exact trivial
    | none =>
      dsimp only
      rw [wp_bind]
      refine wp_mono (wp_getMultipart _ t) ?_ fun _ _ => trivial
      rintro found u ⟨hu, hnone⟩
      cases found with
      | some _ => exact trivial
      | none =>
        dsimp only
        rw [MultipartRepo.write, wp_bind]
        refine wp_mono (wp_call u) ?_ fun _ _ => trivial
        rintro k _ ⟨-, -, rfl⟩
        have hempty : (Assoc.keys u.multiparts).filter
            (glob (MultipartService.idKeyRegex id)) = [] := hu ▸ hnone rfl
        have hglob := MultipartService.glob_idHashKey id hash
        refine ⟨?_, ?_, fun nth content hlast => nomatch hlast⟩
        · change (Assoc.keys (Assoc.insert u.multiparts _ _)).filter _ = _
          have hnew : MultipartService.idHashKey id hash ∉ Assoc.keys u.multiparts := by
            intro hmem
            have hin := List.mem_filter.mpr ⟨hmem, hglob⟩
            rw [hempty] at hin
            cases hin
          rw [Assoc.keys_insert, if_neg hnew, List.filter_append, hempty, List.nil_append,
            List.filter_cons_of_pos hglob, List.filter_nil]
        · change Assoc.get (Assoc.insert u.multiparts _ _) _ = _
          rw [Assoc.get_insert, if_pos rfl]
          simp [flags, lastSent, List.map_const']
  exact (wp_of_eq h).mp hreturns

theorem Receiving.receive (h : Receiving id hash hashAlgorithm n sent d) (hid : part.metaId = id) :
    Receiving id hash hashAlgorithm n (sent ++ [part]) { d with
      parts := Assoc.insert d.parts (part.metaId, part.nth) part.content
      multiparts := Assoc.insert d.multiparts (MultipartService.idHashKey id hash)
        ⟨id, hash, hashAlgorithm, flags n (sent ++ [part])⟩ } where
  keys := keys_rewritten h.keys
  record := by rw [Assoc.get_insert, if_pos rfl]
  parts := by
    intro nth content hlast
    rw [lastSent_append] at hlast
    rw [Assoc.get_insert, hid]
    by_cases hnth : part.nth = nth
    · rw [if_pos hnth] at hlast
      cases hlast
      rw [if_pos (by rw [hnth])]
    · rw [if_neg hnth] at hlast
      rw [if_neg fun heq => hnth (Prod.ext_iff.mp heq).2.symm]
      exact h.parts nth content hlast

theorem Receiving.calls (h : Receiving id hash hashAlgorithm n sent d) (k : Nat) :
    Receiving id hash hashAlgorithm n sent { d with calls := k } := ⟨h.keys, h.record, h.parts⟩

theorem Receiving.any (h : Receiving id hash hashAlgorithm n sent d) (hsent : sent ≠ []) :
    (d.parts.any fun e => e.1.1 == id) = true := by
  obtain ⟨part, hpart⟩ := List.exists_mem_of_ne_nil _ hsent
  obtain ⟨content, hcontent⟩ := Option.isSome_iff_exists.mp
    (lastSent_isSome.mpr ⟨part, hpart, rfl⟩)
  have hmem : (id, part.nth) ∈ Assoc.keys d.parts := by
    by_contra hnot
    have hget := h.parts part.nth content hcontent
    rw [Assoc.get_eq_none_iff.mpr hnot] at hget
    cases hget
  obtain ⟨e, he, hkey⟩ := List.mem_map.mp hmem
  exact List.any_eq_true.mpr ⟨e, he, by rw [hkey]; exact beq_self_eq_true id⟩

-- The call up to the point where it knows what is still missing.
theorem run_completePart (hfails : ∀ k, env.fails k = false)
    (h : Receiving id hash hashAlgorithm n sent d) (hid : part.metaId = id) (hnth : part.nth < n) :
    ∃ t, Receiving id hash hashAlgorithm n (sent ++ [part]) t ∧
      MultipartService.completePart part env d =
        (if (missing n (sent ++ [part])).isEmpty then do
          MultipartService.merge id ⟨id, hash, hashAlgorithm, flags n (sent ++ [part])⟩
          pure []
        else pure (missing n (sent ++ [part])) : Act (List Nat)) env t := by
  subst hid
  refine ⟨_, (h.receive rfl).calls (d.calls + 3), ?_⟩
  refine (bind_of_ok (run_writePart hfails part d) _).trans ?_
  let u : Depot := { d with
    calls := d.calls + 1
    parts := Assoc.insert d.parts (part.metaId, part.nth) part.content }
  have hget : MultipartRepo.getOneByKeyRegex (MultipartService.idKeyRegex part.metaId) env u =
      (.ok (some ⟨part.metaId, hash, hashAlgorithm, flags n sent⟩),
        { u with calls := u.calls + 1 }) := by
    rw [run_getMultipart hfails u h.keys]
    exact congrArg (fun record => (Outcome.ok record, _)) h.record
  refine (bind_of_ok hget _).trans ?_
  dsimp only
  rw [if_pos (by simpa [flags] using hnth), flags_append]
  refine (bind_of_ok (run_writeMultipart hfails _ _ _) _).trans ?_
  rw [unfinishedParts_flags]

theorem run_merge (hfails : ∀ k, env.fails k = false)
    (h : Receiving id hash hashAlgorithm n sent d) (hall : missing n sent = [])
    (hsent : sent ≠ []) :
    (MultipartService.toUppercase (env.blake3 (assembled n sent)) = hash →
      ∃ t, MultipartService.merge id ⟨id, hash, hashAlgorithm, flags n sent⟩ env d = (.ok (), t) ∧
        Assoc.get t.normal id = some (assembled n sent)) ∧
    (MultipartService.toUppercase (env.blake3 (assembled n sent)) ≠ hash →
      ∃ t, MultipartService.merge id ⟨id, hash, hashAlgorithm, flags n sent⟩ env d =
        (.err (.differentHashs id hash
          (MultipartService.toUppercase (env.blake3 (assembled n sent)))), t)) := by
  have hparts : ∀ nth ∈ List.range n, Assoc.get d.parts (id, nth) =
      some ((lastSent sent nth).getD []) := by
    intro nth hnth
    have hsome : (lastSent sent nth).isSome = true := by
      rw [lastSent_isSome]
      by_contra hnone
      have hmem : nth ∈ missing n sent := mem_missing.mpr
        ⟨List.mem_range.mp hnth, fun part hpart heq => hnone ⟨part, hpart, heq⟩⟩
      rw [hall] at hmem
      cases hmem
    obtain ⟨content, hcontent⟩ := Option.isSome_iff_exists.mp hsome
    rw [hcontent]
    exact h.parts nth content hcontent
  have hread : MultipartService.merge id ⟨id, hash, hashAlgorithm, flags n sent⟩ env d =
      (if MultipartService.toUppercase (env.blake3 (assembled n sent)) ≠ hash then
        .throw (.differentHashs id hash
          (MultipartService.toUppercase (env.blake3 (assembled n sent))))
      else do
        CacheService.writeNormal id (assembled n sent)
        CacheService.removeMultipartDir id : Act Unit) env { d with calls := d.calls + n } := by
    rw [MultipartService.merge]
    refine (bind_of_ok (show Effect.read env d = (.ok env, d) from rfl) _).trans ?_
    have hlength : (flags n sent).length = n := by simp [flags]
    rw [hlength]
    refine (bind_of_ok (run_readParts hfails hparts) _).trans ?_
    rw [List.length_range]
    rfl
  refine ⟨fun heq => ?_, fun hne => ?_⟩
  · rw [hread, if_neg (not_not.mpr heq)]
    refine ⟨_, (bind_of_ok (run_writeNormal hfails _ _ _) _).trans
      (run_removeMultipartDir hfails ?_), ?_⟩
    · exact h.any hsent
    · change Assoc.get (Assoc.insert d.normal id _) id = _
      rw [Assoc.get_insert, if_pos rfl]
  · rw [hread, if_pos hne]
    exact ⟨_, rfl⟩

def upload (env : Env) (d : Depot) (part : Part) : Depot :=
  (MultipartService.completePart part env d).2

theorem Receiving.step (hfails : ∀ k, env.fails k = false)
    (h : Receiving id hash hashAlgorithm n sent d) (hid : part.metaId = id) (hnth : part.nth < n)
    (hopen : missing n (sent ++ [part]) ≠ []) :
    MultipartService.completePart part env d = (.ok (missing n (sent ++ [part])), upload env d part) ∧
      Receiving id hash hashAlgorithm n (sent ++ [part]) (upload env d part) := by
  obtain ⟨t, ht, heq⟩ := run_completePart hfails h hid hnth
  rw [if_neg (by simpa using hopen)] at heq
  rw [upload, heq]
  exact ⟨rfl, ht⟩

theorem receiving_run (hfails : ∀ k, env.fails k = false)
    (h : Receiving id hash hashAlgorithm n [] d) (hsent : ∀ p ∈ sent, p.metaId = id ∧ p.nth < n)
    (hopen : missing n sent ≠ []) :
    Receiving id hash hashAlgorithm n sent (run (upload env) d sent) := by
  induction sent using List.reverseRecOn with
  | nil => exact h
  | append_singleton sent part ih =>
    obtain ⟨hid, hnth⟩ := hsent part (by simp)
    have hprev := ih (fun p hp => hsent p (List.mem_append_left _ hp)) (missing_append_ne hopen)
    rw [run_append]
    exact (hprev.step hfails hid hnth hopen).2

theorem completePart_answers (hfails : ∀ k, env.fails k = false)
    (hcreate : MultipartService.create id hash hashAlgorithm n env d = (.ok (), d₀))
    (hsent : ∀ p ∈ sent ++ [part], p.metaId = id ∧ p.nth < n) (hopen : missing n sent ≠ []) :
    Answers env id hash n (sent ++ [part])
      (MultipartService.completePart part env (run (upload env) d₀ sent)) := by
  have hrun := receiving_run hfails (receiving_created hcreate)
    (fun p hp => hsent p (List.mem_append_left _ hp)) hopen
  obtain ⟨hid, hnth⟩ := hsent part (by simp)
  obtain ⟨t, ht, heq⟩ := run_completePart hfails hrun hid hnth
  refine ⟨fun hmissing => ?_, fun hall hhash => ?_, fun hall hhash => ?_⟩
  · rw [heq, if_neg (by simpa using hmissing)]
    rfl
  · obtain ⟨u, hmerge, hnormal⟩ := (run_merge hfails ht hall (by simp)).1 hhash
    rw [heq, if_pos (by simpa using hall), bind_of_ok hmerge]
    exact ⟨rfl, hnormal⟩
  · obtain ⟨u, hmerge⟩ := (run_merge hfails ht hall (by simp)).2 hhash
    rw [heq, if_pos (by simpa using hall)]
    change (Effect.bind _ _ env t).1 = _
    rw [Effect.bind, hmerge]

theorem completePart_answers_sample : ∃ d₀,
    MultipartService.create 9 "AB" .blake3 2 upEnv emptyDepot = (.ok (), d₀) ∧
    Answers upEnv 9 "AB" 2 [⟨9, 1, [67]⟩, ⟨9, 1, [66]⟩, ⟨9, 0, [65]⟩]
      (MultipartService.completePart ⟨9, 0, [65]⟩ upEnv
        (run (upload upEnv) d₀ [⟨9, 1, [67]⟩, ⟨9, 1, [66]⟩])) := by
  have hcreate : ∃ d₀, MultipartService.create 9 "AB" .blake3 2 upEnv emptyDepot = (.ok (), d₀) :=
    ⟨_, Prod.ext (by decide +kernel) rfl⟩
  obtain ⟨d₀, hcreate⟩ := hcreate
  have hsent : ∀ p ∈ [(⟨9, 1, [67]⟩ : Part), ⟨9, 1, [66]⟩] ++ [⟨9, 0, [65]⟩],
      p.metaId = 9 ∧ p.nth < 2 := by decide
  have hopen : missing 2 [⟨9, 1, [67]⟩, ⟨9, 1, [66]⟩] ≠ [] := by decide
  exact ⟨d₀, hcreate, completePart_answers (fun _ => rfl) hcreate hsent hopen⟩

end Upload

end Kuintessence.Storage
