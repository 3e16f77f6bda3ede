import Kuintessence.Storage.Assembly

namespace Kuintessence.Storage

theorem uuidText_no_underscore (id : Uuid) : '_' ∉ (uuidText id).toList := by
  have hdigit : ∀ d < 16, Hex.digit d ≠ '_' := by decide
  intro h
  change '_' ∈ (String.ofList (Hex.group [8, 4, 4, 4] (Hex.write 32 id))).toList at h
  rw [String.toList_ofList] at h
  obtain h | h := Hex.mem_group h
  · exact absurd h (by decide)
  · obtain ⟨d, hd, h⟩ := Hex.mem_write _ _ h
    exact hdigit d hd h

theorem uuidText_inj {id id' : Uuid} (h : uuidText id = uuidText id') : id = id' := by
  have hid := congrArg Protocol.UuidText.hyphenated.parse h
  rw [uuidText, uuidText, Protocol.UuidText.parse_text, Protocol.UuidText.parse_text] at hid
  exact Option.some.inj hid

theorem takeWhile_stop {xs ys : List Char} (h : '_' ∉ xs) :
    (xs ++ '_' :: ys).takeWhile (· ≠ '_') = xs := by
  have hxs : ∀ x ∈ xs, decide (x ≠ '_') = true := by
    intro x hx
    rw [decide_eq_true_eq]
    rintro rfl
    exact h hx
  rw [List.takeWhile_append_of_pos hxs, List.takeWhile_cons_of_neg (by decide), List.append_nil]

-- What stands before the first underscore of a key.
theorem uuid_before {id id' : Uuid} {xs ys : List Char}
    (h : (uuidText id).toList ++ '_' :: xs = (uuidText id').toList ++ '_' :: ys) : id = id' := by
  have htake := congrArg (List.takeWhile (· ≠ '_')) h
  rw [takeWhile_stop (uuidText_no_underscore id), takeWhile_stop (uuidText_no_underscore id')] at htake
  exact uuidText_inj (String.toList_inj.mp htake)

-- A separator in front of `ys` is the first one of the key or lies in its last part.
theorem after_separator {us start xs ys : List Char} (hus : '_' ∉ us)
    (h : us ++ '_' :: xs = start ++ '_' :: ys) : xs = ys ∨ '_' :: ys <:+ xs := by
  obtain ⟨mid, -, hmid⟩ | ⟨mid, hstart, hmid⟩ := List.append_eq_append_iff.mp h
  · cases mid with
    | nil => exact .inl (List.cons.inj hmid).2
    | cons c mid => exact .inr ⟨mid, (List.cons.inj hmid).2.symm⟩
  · cases mid with
    | nil => exact .inl (List.cons.inj hmid).2.symm
    | cons c mid =>
      obtain ⟨rfl, -⟩ := List.cons.inj hmid
      rw [hstart] at hus
      exact absurd (List.mem_append_right _ List.mem_cons_self) hus

namespace MultipartService

theorem glob_id_iff {id id' : Uuid} {hash : String} :
    glob (idKeyRegex id) (idHashKey id' hash) = true ↔ id = id' := by
  constructor
  · intro h
    obtain ⟨rest, hrest⟩ := glob_idKeyRegex.mp h
    have hkey : idHashKey id' hash = "multipart_" ++ uuidText id' ++ "_" ++ hash := rfl
    rw [hkey, idStem] at hrest
    simp only [String.toList_append, List.append_assoc] at hrest
    exact uuid_before (List.append_cancel_left hrest)
  · rintro rfl
    exact glob_idHashKey id hash

theorem glob_hash_iff {hash : String} (hplain : ∀ c ∈ hash.toList, Glob.isPlain c = true) {id : Uuid}
    {hash' : String} : glob (hashKeyRegex hash) (idHashKey id hash') = true ↔
      hash' = hash ∨ '_' :: hash.toList <:+ hash'.toList := by
  have hpattern : (hashKeyRegex hash).toList =
      Glob.starred ["multipart_".toList, '_' :: hash.toList] := by
    change ("multipart_*_" ++ hash).toList = _
    rw [String.toList_append]
    rfl
  have hkey : (idHashKey id hash').toList =
      "multipart_".toList ++ ((uuidText id).toList ++ '_' :: hash'.toList) := by
    change ("multipart_" ++ uuidText id ++ "_" ++ hash').toList = _
    simp only [String.toList_append, List.append_assoc]
    rfl
  rw [glob_starred hpattern]
  · rw [hkey]
    constructor
    · rintro ⟨start, rest, htext, rfl⟩
      exact (after_separator (uuidText_no_underscore id) (List.append_cancel_left htext)).imp_left
        fun heq => String.toList_inj.mp heq
    · rintro (rfl | ⟨before, hbefore⟩)
      · exact ⟨(uuidText id).toList, _, rfl, rfl⟩
      · refine ⟨(uuidText id).toList ++ '_' :: before, _, ?_, rfl⟩
        rw [← hbefore, List.append_assoc]
        rfl
  · intro cs hcs c hc
    simp only [List.mem_cons, List.not_mem_nil, or_false] at hcs
    obtain rfl | rfl := hcs
    · exact List.all_eq_true.mp (by decide +kernel) c hc
    · obtain rfl | hc := List.mem_cons.mp hc
      · decide
      · exact hplain c hc

end MultipartService

end Kuintessence.Storage
