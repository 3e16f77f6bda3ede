import Kuintessence.Lib.Decimal
import Kuintessence.Storage.Endpoints
import Kuintessence.Storage.Keys

namespace Kuintessence.Storage

namespace SnapshotRepo

def deleteByKeyRegex (regex : String) : Act Snapshot := do
  let d ← .get
  let keys ← queryKeys d.snapshots (anyUserKeyRegex regex)
  let key ← orFail "No such snapshot with key regex" keys.head?
  let _ ← call
  let record ← orFail "response was nil" (Assoc.get d.snapshots key)
  let _ ← call
  .modify (fun d => { d with snapshots := deleteKeys d.snapshots [key] })
  pure record

end SnapshotRepo

namespace CacheService

def readSnapshot (metaId : Uuid) : Act Bytes := do
  let _ ← call
  let d ← .get
  orFail "No such file or directory" (Assoc.get d.snapshotFiles metaId)

def removeSnapshot (metaId : Uuid) : Act Unit := do
  let _ ← readSnapshot metaId
  .modify (fun d => { d with snapshotFiles := d.snapshotFiles.filter (fun e => e.1 != metaId) })

end CacheService

namespace SnapshotService

def idKeyRegex (id : Uuid) : String := s!"snapshot_{uuidText id}_*_*_*_*_*"

-- The file goes with the last record of its hash.
def remove (id : Uuid) : Act Unit := do
  let deletedRecord ← SnapshotRepo.deleteByKeyRegex (idKeyRegex id)
  let sameMetaIdSnapshot ← SnapshotRepo.getOneByKeyRegex
    (hashKeyRegex deletedRecord.hash deletedRecord.hashAlgorithm)
  match sameMetaIdSnapshot with
  | none => CacheService.removeSnapshot deletedRecord.metaId
  | some _ => pure ()

def read (id : Uuid) : Act Bytes := do
  let snapshot ← SnapshotRepo.getOneByKeyRegex (idKeyRegex id)
  let snapshot ← orFail "No such snapshot with id" snapshot
  CacheService.readSnapshot snapshot.metaId

section Keys

variable {hash : String}

def keyOf (record : Snapshot) : String := uuidText record.userId ++ "_" ++ completeKey record

def Alphanumeric (hash : String) : Prop := ∀ c ∈ hash.toList, c.isAlphanum = true

theorem Alphanumeric.no_underscore (h : Alphanumeric hash) : '_' ∉ hash.toList :=
  fun hin => absurd (h '_' hin) (by decide)

theorem Alphanumeric.plain (h : Alphanumeric hash) {c : Char} (hc : c ∈ hash.toList) :
    Glob.isPlain c = true := by
  have halnum := h c hc
  rw [Glob.isPlain, decide_eq_true_eq]
  refine ⟨?_, ?_, ?_, ?_⟩
  all_goals
    rintro rfl
    exact absurd halnum (by decide)

-- What stands behind the last underscore.
theorem last_part {start start' xs ys : List Char} (hxs : '_' ∉ xs) (hys : '_' ∉ ys)
    (h : start ++ '_' :: xs = start' ++ '_' :: ys) : xs = ys := by
  obtain ⟨mid, -, hmid⟩ | ⟨mid, -, hmid⟩ := List.append_eq_append_iff.mp h
  · cases mid with
    | nil => exact (List.cons.inj hmid).2
    | cons c mid =>
      rw [(List.cons.inj hmid).2] at hxs
      exact absurd (List.mem_append_right _ List.mem_cons_self) hxs
  · cases mid with
    | nil => exact (List.cons.inj hmid).2.symm
    | cons c mid =>
      rw [(List.cons.inj hmid).2] at hys
      exact absurd (List.mem_append_right _ List.mem_cons_self) hys

def snapshotWord : List Char := ['s', 'n', 'a', 'p', 's', 'h', 'o', 't']

def algorithmWord : List Char := ['b', 'l', 'a', 'k', 'e', '3']

theorem words_toList : "_".toList = ['_'] ∧ "snapshot_".toList = snapshotWord ++ ['_'] ∧
    "blake3".toList = algorithmWord := by
  decide

theorem suffix_part {us xs ys : List Char} (h : '_' :: ys <:+ xs) : '_' :: ys <:+ us ++ '_' :: xs :=
  (h.trans (List.suffix_cons _ _)).trans (List.suffix_append _ _)

theorem keyOf_toList (record : Snapshot) : (keyOf record).toList =
    (uuidText record.userId).toList ++ '_' :: (snapshotWord ++ '_' :: ((uuidText record.id).toList ++
      '_' :: ((uuidText record.nodeId).toList ++ '_' :: ((uuidText record.fileId).toList ++
        '_' :: ((toString record.timestamp).toList ++ '_' :: (algorithmWord ++
          '_' :: record.hash.toList)))))) := by
  obtain ⟨id, metaId, nodeId, fileId, timestamp, fileName, size, hash, ⟨⟩, userId⟩ := record
  change (uuidText userId ++ "_" ++ ("snapshot_" ++ uuidText id ++ "_" ++ uuidText nodeId ++ "_" ++
    uuidText fileId ++ "_" ++ (toString timestamp ++ "_" ++ "blake3" ++ "_" ++ hash))).toList = _
  obtain ⟨hbreak, hsnapshot, halgorithm⟩ := words_toList
  simp only [String.toList_append, List.append_assoc, hbreak, hsnapshot, halgorithm,
    List.cons_append, List.nil_append]

def fixedPieces : List (List Char) := [[], '_' :: (snapshotWord ++ ['_']), ['_'], ['_'], ['_']]

def hashPieces (hash : String) : List (List Char) :=
  fixedPieces ++ ['_' :: (algorithmWord ++ '_' :: hash.toList)]

theorem hashKeyRegex_toList (hash : String) :
    (anyUserKeyRegex (hashKeyRegex hash .blake3)).toList = Glob.starred (hashPieces hash) := by
  have hstars : "*_".toList ++ "snapshot_*_*_*_*_".toList =
      '*' :: '_' :: (snapshotWord ++ '_' :: '*' :: '_' :: '*' :: '_' :: '*' :: '_' :: '*' :: ['_']) := by
    decide
  obtain ⟨hbreak, -, halgorithm⟩ := words_toList
  change ("*_" ++ ("snapshot_*_*_*_*_" ++ "blake3" ++ "_" ++ hash)).toList = _
  rw [String.toList_append, String.toList_append, String.toList_append, String.toList_append, hbreak,
    halgorithm, List.append_assoc, List.append_assoc, ← List.append_assoc, hstars]
  simp only [hashPieces, fixedPieces, Glob.starred, List.cons_append, List.nil_append, List.append_assoc]

theorem plain_hashPieces (h : Alphanumeric hash) {cs : List Char} (hcs : cs ∈ hashPieces hash)
    {c : Char} (hc : c ∈ cs) : Glob.isPlain c = true := by
  have hfixed : fixedPieces.all (fun piece => piece.all Glob.isPlain) = true := by decide
  obtain hcs | hcs := List.mem_append.mp (hcs : cs ∈ fixedPieces ++ [_])
  · exact List.all_eq_true.mp (List.all_eq_true.mp hfixed cs hcs) c hc
  · rw [List.mem_singleton.mp hcs, List.mem_cons, List.mem_append, List.mem_cons] at hc
    obtain rfl | hc | rfl | hc := hc
    · rfl
    · exact List.all_eq_true.mp (by decide) c hc
    · rfl
    · exact h.plain hc

theorem glob_hashKeyRegex_iff (hhash : Alphanumeric hash) {record : Snapshot}
    (hrecord : Alphanumeric record.hash) :
    glob (anyUserKeyRegex (hashKeyRegex hash .blake3)) (keyOf record) = true ↔
      record.hash = hash := by
  rw [glob_starred (hashKeyRegex_toList hash) fun cs hcs c hc => plain_hashPieces hhash hcs hc]
  constructor
  · intro h
    have hend : '_' :: hash.toList <:+ (keyOf record).toList :=
      (List.suffix_append ('_' :: algorithmWord) _).trans
        (Glob.Fits.suffix h)
    have hown : '_' :: record.hash.toList <:+ (keyOf record).toList := by
      rw [keyOf_toList]
      iterate 6 refine suffix_part ?_
      exact List.suffix_append _ _
    obtain ⟨start, hstart⟩ := hend
    obtain ⟨start', hstart'⟩ := hown
    exact String.toList_inj.mp (last_part hrecord.no_underscore hhash.no_underscore
      (hstart'.trans hstart.symm))
  · rintro rfl
    rw [keyOf_toList]
    exact ⟨(uuidText record.userId).toList, _, rfl, (uuidText record.id).toList, _,
      by simp only [List.append_assoc, List.cons_append, List.nil_append],
      (uuidText record.nodeId).toList, _, rfl, (uuidText record.fileId).toList, _, rfl,
      (toString record.timestamp).toList, _, rfl, rfl⟩

def Quiet (piece : List Char) : Prop := ∀ c ∈ piece, c ≠ '_' ∧ c ≠ 's'

theorem quiet_uuidText (id : Uuid) : Quiet (uuidText id).toList := by
  have hdigit : ∀ d < 16, Hex.digit d ≠ '_' ∧ Hex.digit d ≠ 's' := by decide
  intro c hc
  change c ∈ (String.ofList (Hex.group [8, 4, 4, 4] (Hex.write 32 id))).toList at hc
  rw [String.toList_ofList] at hc
  obtain rfl | hc := Hex.mem_group hc
  · decide
  · obtain ⟨d, hd, rfl⟩ := Hex.mem_write _ _ hc
    exact hdigit d hd

theorem timestamp_toList (timestamp : Int64) :
    (toString timestamp).toList = Decimal.shown timestamp.toInt := by
  change (Int.repr timestamp.toInt).toList = _
  cases timestamp.toInt with
  | ofNat n => exact String.toList_ofList
  | negSucc n =>
    rw [Int.repr, String.toList_append, Nat.repr, String.toList_ofList, String.toList_ofList]
    rfl

theorem quiet_timestamp (timestamp : Int64) : Quiet (toString timestamp).toList := by
  intro c hc
  rw [timestamp_toList] at hc
  obtain rfl | hdigit := Decimal.mem_shown hc
  · decide
  · refine ⟨?_, ?_⟩
    all_goals
      rintro rfl
      exact absurd hdigit (by decide)

-- A stretch that starts with an `s` does not start in a quiet piece.
theorem skip_quiet {piece xs ys : List Char} (hpiece : Quiet piece)
    (h : 's' :: ys = piece ++ '_' :: xs ∨ '_' :: 's' :: ys <:+ piece ++ '_' :: xs) :
    's' :: ys = xs ∨ '_' :: 's' :: ys <:+ xs := by
  obtain heq | ⟨start, hstart⟩ := h
  · cases piece with
    | nil => cases heq
    | cons c piece => exact absurd (List.cons.inj heq).1.symm (hpiece c List.mem_cons_self).2
  · exact (after_separator (fun hin => (hpiece _ hin).1 rfl) hstart.symm).imp_left Eq.symm

def idPieces (id : Uuid) : List (List Char) :=
  [[], '_' :: (snapshotWord ++ '_' :: ((uuidText id).toList ++ ['_'])), ['_'], ['_'], ['_'], ['_'], []]

theorem idKeyRegex_toList (id : Uuid) :
    (anyUserKeyRegex (idKeyRegex id)).toList = Glob.starred (idPieces id) := by
  have hstart : "*_".toList = ['*', '_'] := by decide
  have hend : "_*_*_*_*_*".toList =
      ['_', '*', '_', '*', '_', '*', '_', '*', '_', '*'] := by decide
  obtain ⟨-, hsnapshot, -⟩ := words_toList
  change ("*_" ++ ("snapshot_" ++ uuidText id ++ "_*_*_*_*_*")).toList = _
  simp only [String.toList_append, hstart, hend, hsnapshot, idPieces, Glob.starred, List.cons_append,
    List.nil_append, List.append_assoc]

theorem plain_idPieces {id : Uuid} {cs : List Char} (hcs : cs ∈ idPieces id) {c : Char}
    (hc : c ∈ cs) : Glob.isPlain c = true := by
  have hword : snapshotWord.all Glob.isPlain = true := by decide
  simp only [idPieces, List.mem_cons, List.not_mem_nil, or_false] at hcs
  obtain rfl | rfl | hcs := hcs
  · cases hc
  · rw [List.mem_cons, List.mem_append, List.mem_cons, List.mem_append, List.mem_singleton] at hc
    obtain rfl | hc | rfl | hc | rfl := hc
    · rfl
    · exact List.all_eq_true.mp hword c hc
    · rfl
    · exact MultipartService.uuidText_plain hc
    · rfl
  · have hrest : ([['_'], ['_'], ['_'], ['_'], []] : List (List Char)).all
        (fun piece => piece.all Glob.isPlain) = true := by decide
    exact List.all_eq_true.mp (List.all_eq_true.mp hrest cs (by simpa using hcs)) c hc

-- The word stands at one place of a key only.
theorem after_word {user id node file time hash start rest : List Char} (huser : '_' ∉ user)
    (hid : Quiet id) (hnode : Quiet node) (hfile : Quiet file) (htime : Quiet time)
    (hhash : '_' ∉ hash)
    (h : user ++ '_' :: (snapshotWord ++ '_' :: (id ++ '_' :: (node ++ '_' :: (file ++
      '_' :: (time ++ '_' :: (algorithmWord ++ '_' :: hash)))))) =
        start ++ '_' :: (snapshotWord ++ '_' :: rest)) :
    id ++ '_' :: (node ++ '_' :: (file ++ '_' :: (time ++ '_' :: (algorithmWord ++ '_' :: hash)))) =
      rest := by
  obtain heq | ⟨before, hbefore⟩ := after_separator huser h
  · exact (List.cons.inj (List.append_cancel_left heq)).2
  · have hword : '_' ∉ snapshotWord := by decide
    have hall : algorithmWord.all (fun c => c != '_' && c != 's') = true := by decide
    have halgorithm : Quiet algorithmWord := fun c hc => by
      simpa using List.all_eq_true.mp hall c hc
    have hparts := (after_separator hword hbefore.symm).imp_left Eq.symm
    have hlast := skip_quiet halgorithm (skip_quiet htime (skip_quiet hfile (skip_quiet hnode
      (skip_quiet hid hparts))))
    have hin : '_' ∈ hash := by
      obtain heq | hsuffix := hlast
      · rw [← heq]
        simp
      · exact hsuffix.subset List.mem_cons_self
    exact absurd hin hhash

theorem glob_idKeyRegex {id : Uuid} {record : Snapshot} (hrecord : Alphanumeric record.hash)
    (h : glob (anyUserKeyRegex (idKeyRegex id)) (keyOf record) = true) : record.id = id := by
  rw [glob_starred (idKeyRegex_toList id) fun cs hcs c hc => plain_idPieces hcs hc] at h
  obtain ⟨start, _, hkey, _, rest, rfl, -⟩ := h
  rw [keyOf_toList, List.nil_append, List.cons_append, List.append_assoc, List.cons_append] at hkey
  have hrest := after_word (uuidText_no_underscore _) (quiet_uuidText _) (quiet_uuidText _)
    (quiet_uuidText _) (quiet_timestamp _) hrecord.no_underscore hkey
  rw [List.append_assoc] at hrest
  exact uuid_before hrest

end Keys

end SnapshotService

end Kuintessence.Storage
