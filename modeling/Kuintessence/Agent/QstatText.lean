import Kuintessence.Agent.Qstat

namespace Kuintessence.Agent.Pbs

open Decimal Text

def PBSJob.value (item : PBSJob) : Key → List Char
  | .jobState => item.jobState.toList
  | .jobName => item.jobName.toList
  | .jobOwner => item.jobOwner.toList
  | .exitStatus => shown item.exitStatus.toInt
  | .walltime => item.resourcesUsed.walltime.toList
  | .cput => item.resourcesUsed.cput.toList
  | .ncpus => shown item.resourcesUsed.ncpus.toInt
  | .mem => item.resourcesUsed.mem.toList
  | .stime => item.stime.toList
  | .mtime => item.mtime.toList
  | .nodect => shown item.nodect.toInt
  | .errorPath => item.errorPath.toList

-- An attribute as `qstat` has it: a name and a value.
abbrev Entry := List Char × List Char

def PBSJob.entry (item : PBSJob) (key : Key) : Entry := (key.name.toList, item.value key)

def line (e : Entry) : List Char := "    ".toList ++ (e.1 ++ (" = ".toList ++ e.2))

-- A record printed as text: its attributes among others, in whatever order.
structure Printed where
  id : List Char
  item : PBSJob
  others : List Entry
  order : List Entry
  perm : order.Perm (keys.map item.entry ++ others)
  named : ∀ e ∈ others, e.1 ≠ [] ∧ (∀ c ∈ e.1, isBlank c = false) ∧
    ∀ key : Key, e.1 ≠ key.name.toList
  whole : '\n' ∉ id ∧ ∀ e ∈ order, '\n' ∉ e.2

-- What is read of a value.
def readValue (key : Key) (value : List Char) : List Char := erase key.text (trimEnd value)

def heardOf (key : Key) (value : List Char) : Option (List Char) :=
  if value.all isBlank then none else some (readValue key value)

def PBSJob.heard (item : PBSJob) (key : Key) : Option (List Char) := heardOf key (item.value key)

section

variable {key : Key} {name value : List Char}

theorem mem_keys (key : Key) : key ∈ keys := by
  cases key <;> decide

theorem name_blankless (key : Key) :
    key.name.toList ≠ [] ∧ ∀ c ∈ key.name.toList, isBlank c = false := by
  cases key <;> exact ⟨by decide, List.forall_iff_forall_mem.mp (by decide)⟩

theorem name_injective {key key' : Key} (h : key.name.toList = key'.name.toList) : key = key' := by
  cases key <;> cases key' <;> first | rfl | exact absurd h (by decide)

theorem space_not_mem (h : ∀ c ∈ name, isBlank c = false) : ' ' ∉ name :=
  fun hmem => Bool.noConfusion (h ' ' hmem)

theorem trimStart_line (hne : name ≠ []) (hname : ∀ c ∈ name, isBlank c = false)
    (rest : List Char) : trimStart ("    ".toList ++ (name ++ rest)) = name ++ rest := by
  obtain ⟨c, cs, rfl⟩ := List.exists_cons_of_ne_nil hne
  have hblank : ∀ c ∈ "    ".toList, isBlank c = true := List.all_eq_true.mp rfl
  rw [trimStart, List.dropWhile_append_of_pos hblank, List.cons_append,
    List.dropWhile_cons_of_neg (by rw [hname c List.mem_cons_self]; decide)]

theorem trim_line (hne : name ≠ []) (hname : ∀ c ∈ name, isBlank c = false) (value : List Char) :
    trim (line (name, value)) = if value.all isBlank then name ++ " =".toList
      else name ++ (" = ".toList ++ trimEnd value) := by
  rw [trim, line, trimStart_line hne hname, trimEnd_append, trimEnd_append, List.all_append]
  split
  · next h => simp [isBlank] at h
  · split
    · rfl
    · rfl

theorem text_prefix_iff (hname : ' ' ∉ name) (rest : List Char) :
    key.text <+: name ++ (" = ".toList ++ rest) ↔ key.name.toList = name := by
  have hkey : ' ' ∉ key.name.toList := space_not_mem (name_blankless key).2
  have htext : key.text = key.name.toList ++ ' ' :: ['=', ' '] := rfl
  have hline : name ++ (" = ".toList ++ rest) = name ++ ' ' :: (['=', ' '] ++ rest) := rfl
  rw [htext, hline, word_prefix_iff hkey hname, and_iff_left (List.prefix_append _ _)]

theorem text_not_prefix (hname : ' ' ∉ name) : ¬ key.text <+: name ++ " =".toList := by
  have hkey : ' ' ∉ key.name.toList := space_not_mem (name_blankless key).2
  have htext : key.text = key.name.toList ++ ' ' :: ['=', ' '] := rfl
  have hline : name ++ " =".toList = name ++ ' ' :: ['='] := rfl
  rw [htext, hline, word_prefix_iff hkey hname]
  exact fun h => absurd h.2 (by decide)

theorem erase_text (key : Key) (value : List Char) :
    erase key.text (key.name.toList ++ (" = ".toList ++ value)) = erase key.text value := by
  rw [← List.append_assoc]
  exact erase_prefix (List.append_ne_nil_of_right_ne_nil _ (by decide)) value

theorem attributeOf_key (key : Key) (value : List Char) :
    attributeOf (line (key.name.toList, value)) = (heardOf key value).map fun v => (key, v) := by
  have hname := (name_blankless key).2
  rw [attributeOf, trim_line (name_blankless key).1 hname, heardOf]
  split
  · have hnone : (keys.find? fun k => k.text.isPrefixOf (key.name.toList ++ " =".toList)) = none :=
      List.find?_eq_none.mpr fun k _ hpre =>
        text_not_prefix (space_not_mem hname) (List.isPrefixOf_iff_prefix.mp hpre)
    rw [hnone]
    rfl
  · have hsome : (keys.find? fun k => k.text.isPrefixOf
        (key.name.toList ++ (" = ".toList ++ trimEnd value))) = some key := by
      have hkey : ∀ k : Key, k.text.isPrefixOf
          (key.name.toList ++ (" = ".toList ++ trimEnd value)) = decide (k = key) := by
        intro k
        rw [Bool.eq_iff_iff, List.isPrefixOf_iff_prefix, text_prefix_iff (space_not_mem hname),
          decide_eq_true_iff]
        exact ⟨name_injective, fun h => congrArg (fun k : Key => k.name.toList) h⟩
      simp only [hkey]
      cases key <;> rfl
    rw [hsome, Option.map_some, Option.map_some, erase_text, readValue]

theorem attributeOf_other (hne : name ≠ []) (hname : ∀ c ∈ name, isBlank c = false)
    (hkeys : ∀ key : Key, name ≠ key.name.toList) (value : List Char) :
    attributeOf (line (name, value)) = none := by
  rw [attributeOf, trim_line hne hname, Option.map_eq_none_iff, List.find?_eq_none]
  intro key _ hpre
  rw [List.isPrefixOf_iff_prefix] at hpre
  split at hpre
  · exact text_not_prefix (space_not_mem hname) hpre
  · exact hkeys key ((text_prefix_iff (space_not_mem hname) _).mp hpre).symm

theorem heading_not_prefix (e : Entry) : ¬ heading <+: line e := by
  have hheading : heading = 'J' :: "ob Id: ".toList := rfl
  have hline : line e = ' ' :: ("   ".toList ++ (e.1 ++ (" = ".toList ++ e.2))) := rfl
  rw [hheading, hline, List.cons_prefix_cons]
  exact fun h => absurd h.1 (by decide)

theorem newline_not_mem_line {e : Entry} (hname : ∀ c ∈ e.1, isBlank c = false)
    (hvalue : '\n' ∉ e.2) : '\n' ∉ line e := by
  have hnewline : '\n' ∉ e.1 := fun hmem => Bool.noConfusion (hname '\n' hmem)
  simp [line, hnewline, hvalue]

end

variable {p : Printed} {key key' : Key}

theorem Printed.mem_order_iff {e : Entry} :
    e ∈ p.order ↔ (∃ key, p.item.entry key = e) ∨ e ∈ p.others := by
  rw [p.perm.mem_iff, List.mem_append, List.mem_map]
  exact or_congr_left ⟨fun ⟨key, _, h⟩ => ⟨key, h⟩, fun ⟨key, h⟩ => ⟨key, mem_keys key, h⟩⟩

def Printed.block (p : Printed) : Block where
  id := p.id
  lines := p.order.map line
  whole := by
    refine ⟨p.whole.1, List.forall_mem_map.mpr fun e he => ⟨?_, heading_not_prefix e⟩⟩
    refine newline_not_mem_line ?_ (p.whole.2 e he)
    obtain ⟨key, rfl⟩ | hother := Printed.mem_order_iff.mp he
    · exact (name_blankless key).2
    · exact (p.named e hother).2.1

def valuesOf (key : Key) (attributes : List (Key × List Char)) : List (List Char) :=
  attributes.filterMap fun a => if a.1 = key then some a.2 else none

theorem Printed.valuesOf_attributes (p : Printed) (key : Key) :
    valuesOf key p.block.attributes = (p.item.heard key).toList := by
  have hattributes : p.block.attributes = p.order.filterMap fun e => attributeOf (line e) := by
    rw [Block.attributes, Printed.block, List.filterMap_map]
    rfl
  have hothers : (p.others.filterMap fun e => (attributeOf (line e)).bind fun a =>
      if a.1 = key then some a.2 else none) = [] := by
    refine List.filterMap_eq_nil_iff.mpr fun e he => ?_
    obtain ⟨hne, hname, hkeys⟩ := p.named e he
    rw [attributeOf_other hne hname hkeys]
    rfl
  have hentry : ∀ k : Key, ((attributeOf (line (p.item.entry k))).bind fun a =>
      if a.1 = key then some a.2 else none) = if k = key then p.item.heard key else none := by
    intro k
    rw [PBSJob.entry, attributeOf_key]
    split
    · next h =>
      rw [h, ← PBSJob.heard]
      cases p.item.heard key <;> simp
    · next h => cases heardOf k (p.item.value k) <;> simp [h]
  have hperm := p.perm.filterMap fun e => (attributeOf (line e)).bind fun a =>
    if a.1 = key then some a.2 else none
  rw [List.filterMap_append, hothers, List.append_nil, List.filterMap_map] at hperm
  have hkeys : (keys.filterMap fun k => (attributeOf (line (p.item.entry k))).bind fun a =>
      if a.1 = key then some a.2 else none) = (p.item.heard key).toList := by
    simp only [hentry]
    cases key <;> cases p.item.heard _ <;> rfl
  have hvalues : (valuesOf key p.block.attributes).Perm (p.item.heard key).toList := by
    rw [valuesOf, hattributes, List.filterMap_filterMap, ← hkeys]
    exact hperm
  cases hheard : p.item.heard key with
  | none =>
    rw [hheard] at hvalues
    exact List.perm_nil.mp hvalues
  | some v =>
    rw [hheard] at hvalues
    exact List.perm_singleton.mp hvalues

theorem Printed.lastOf_attributes (p : Printed) (key : Key) :
    lastOf key p.block.attributes = p.item.heard key := by
  have hvalues := p.valuesOf_attributes key
  rw [valuesOf] at hvalues
  rw [lastOf, hvalues]
  cases p.item.heard key <;> rfl

-- The line of one key stands before the line of the other.
def Printed.Precedes (p : Printed) (key key' : Key) : Prop :=
  [p.item.entry key, p.item.entry key'].Sublist p.order

instance (p : Printed) (key key' : Key) : Decidable (p.Precedes key key') :=
  inferInstanceAs (Decidable (List.Sublist _ _))

theorem pair_sublist {α : Type} {a b : α} {xs : List α} (ha : a ∈ xs) (hb : b ∈ xs) (hne : a ≠ b) :
    [a, b].Sublist xs ∨ [b, a].Sublist xs := by
  obtain ⟨s, t, rfl⟩ := List.append_of_mem ha
  obtain hs | ht := List.mem_append.mp hb
  · exact .inr (List.cons_sublist_iff.mpr ⟨s, a :: t, rfl, hs,
      List.singleton_sublist.mpr List.mem_cons_self⟩)
  · obtain h | ht := List.mem_cons.mp ht
    · exact absurd h.symm hne
    · exact .inl (List.cons_sublist_iff.mpr ⟨s ++ [a], t, by simp, by simp,
        List.singleton_sublist.mpr ht⟩)

theorem Printed.precedes_or (p : Printed) (hne : key ≠ key') :
    p.Precedes key key' ∨ p.Precedes key' key := by
  refine pair_sublist (Printed.mem_order_iff.mpr (.inl ⟨key, rfl⟩))
    (Printed.mem_order_iff.mpr (.inl ⟨key', rfl⟩)) fun h => ?_
  exact hne (name_injective (congrArg Prod.fst h))

theorem Printed.precedes_attributes {v v' : List Char} (h : p.Precedes key key')
    (hv : p.item.heard key = some v) (hv' : p.item.heard key' = some v') :
    [(key, v), (key', v')].Sublist p.block.attributes := by
  have hsub := (h.map line).filterMap attributeOf
  have hpair : ([p.item.entry key, p.item.entry key'].map line).filterMap attributeOf =
      [(key, v), (key', v')] := by
    rw [PBSJob.heard] at hv hv'
    simp [PBSJob.entry, attributeOf_key, hv, hv']
  rw [hpair] at hsub
  exact hsub

theorem valuesOf_append (key : Key) (as bs : List (Key × List Char)) :
    valuesOf key (as ++ bs) = valuesOf key as ++ valuesOf key bs := List.filterMap_append

theorem valuesOf_cons_self (v : List Char) (as : List (Key × List Char)) :
    valuesOf key ((key, v) :: as) = v :: valuesOf key as :=
  List.filterMap_cons_some (if_pos rfl)

theorem valuesOf_cons_other (hne : key' ≠ key) (v : List Char) (as : List (Key × List Char)) :
    valuesOf key ((key', v) :: as) = valuesOf key as :=
  List.filterMap_cons_none (if_neg hne)

theorem mem_valuesOf {v : List Char} {as : List (Key × List Char)} :
    v ∈ valuesOf key as ↔ (key, v) ∈ as := by
  rw [valuesOf, List.mem_filterMap]
  constructor
  · rintro ⟨⟨k, w⟩, hmem, h⟩
    by_cases hk : k = key
    · rw [if_pos hk] at h
      cases h
      exact hk ▸ hmem
    · rw [if_neg hk] at h
      cases h
  · exact fun h => ⟨(key, v), h, if_pos rfl⟩

-- What stands before the line of a key, of another key.
theorem Printed.attributes_split {v' : List Char} (hne : key ≠ key')
    (hv' : p.item.heard key' = some v') :
    ∃ pre post, p.block.attributes = pre ++ (key', v') :: post ∧ valuesOf key' pre = [] ∧
      valuesOf key' post = [] ∧
      valuesOf key pre = (if p.Precedes key key' then p.item.heard key else none).toList := by
  have hself := p.valuesOf_attributes key'
  have hother := p.valuesOf_attributes key
  rw [hv', Option.toList_some] at hself
  have hcut : ∀ pre post, p.block.attributes = pre ++ (key', v') :: post →
      valuesOf key' pre = [] ∧ valuesOf key' post = [] ∧
        valuesOf key pre ++ valuesOf key post = (p.item.heard key).toList := by
    intro pre post h
    rw [h, valuesOf_append, valuesOf_cons_self] at hself
    rw [h, valuesOf_append, valuesOf_cons_other (Ne.symm hne)] at hother
    have hlength := congrArg List.length hself
    rw [List.length_append, List.length_cons, List.length_singleton] at hlength
    exact ⟨List.length_eq_zero_iff.mp (by omega), List.length_eq_zero_iff.mp (by omega), hother⟩
  cases hv : p.item.heard key with
  | none =>
    have hmem : (key', v') ∈ p.block.attributes :=
      mem_valuesOf.mp (hself ▸ List.mem_singleton_self v')
    obtain ⟨pre, post, h⟩ := List.append_of_mem hmem
    obtain ⟨hpre, hpost, hvalues⟩ := hcut pre post h
    rw [hv, Option.toList_none] at hvalues
    rw [ite_self]
    exact ⟨pre, post, h, hpre, hpost, (List.append_eq_nil_iff.mp hvalues).1⟩
  | some v =>
    have hsingle : ∀ {as bs : List (List Char)}, as ++ bs = (some v).toList → v ∈ as → as = [v] := by
      intro as bs h hmem
      obtain ⟨c, cs, rfl⟩ := List.exists_cons_of_ne_nil (List.ne_nil_of_mem hmem)
      rw [Option.toList_some, List.cons_append, List.cons_eq_cons, List.append_eq_nil_iff] at h
      rw [h.1, h.2.1]
    by_cases hprecedes : p.Precedes key key'
    · obtain ⟨r, t, hr, hmem, hsub⟩ :=
        List.cons_sublist_iff.mp (Printed.precedes_attributes hprecedes hv hv')
      obtain ⟨s, post, rfl⟩ := List.append_of_mem (List.singleton_sublist.mp hsub)
      rw [← List.append_assoc] at hr
      obtain ⟨hpre, hpost, hvalues⟩ := hcut _ _ hr
      rw [if_pos hprecedes]
      refine ⟨r ++ s, post, hr, hpre, hpost, ?_⟩
      exact hsingle (hv ▸ hvalues) (mem_valuesOf.mpr (List.mem_append_left s hmem))
    · have hbehind := (p.precedes_or hne).resolve_left hprecedes
      obtain ⟨r, t, hr, hmem, hsub⟩ :=
        List.cons_sublist_iff.mp (Printed.precedes_attributes hbehind hv' hv)
      obtain ⟨pre, s, rfl⟩ := List.append_of_mem hmem
      rw [List.append_assoc, List.cons_append] at hr
      obtain ⟨hpre, hpost, hvalues⟩ := hcut _ _ hr
      rw [if_neg hprecedes]
      refine ⟨pre, s ++ t, hr, hpre, hpost, ?_⟩
      have hafter : v ∈ valuesOf key (s ++ t) :=
        mem_valuesOf.mpr (List.mem_append_right s (List.singleton_sublist.mp hsub))
      have hlength := congrArg List.length hvalues
      rw [hv, List.length_append, Option.toList_some, List.length_singleton] at hlength
      have hpos := List.length_pos_of_mem hafter
      exact List.length_eq_zero_iff.mp (by omega)

def exitAfter (exitStatus : Int32) (as : List (Key × List Char)) : Int32 :=
  ((valuesOf .exitStatus as).getLast?.map exitStatusOf).getD exitStatus

theorem stateRead_append (exitStatus : Int32) (as bs : List (Key × List Char)) :
    stateRead exitStatus (as ++ bs) =
      (stateRead (exitAfter exitStatus as) bs).or (stateRead exitStatus as) := by
  induction as generalizing exitStatus with
  | nil => exact (Option.or_none).symm
  | cons a as ih =>
    obtain ⟨k, v⟩ := a
    rw [List.cons_append, stateRead, stateRead]
    by_cases hstate : k = .jobState
    · have hexit : k ≠ .exitStatus := by
        rw [hstate]
        decide
      rw [if_pos hstate, if_pos hstate, ih, Option.or_assoc, exitAfter, exitAfter,
        valuesOf_cons_other hexit]
    · rw [if_neg hstate, if_neg hstate]
      by_cases hexit : k = .exitStatus
      · rw [if_pos hexit, if_pos hexit, ih, exitAfter, exitAfter, hexit, valuesOf_cons_self,
          List.getLast?_cons]
        cases (valuesOf .exitStatus as).getLast? <;> rfl
      · rw [if_neg hexit, if_neg hexit, ih, exitAfter, exitAfter, valuesOf_cons_other hexit]

theorem stateRead_of_valuesOf {as : List (Key × List Char)} (h : valuesOf .jobState as = [])
    (exitStatus : Int32) : stateRead exitStatus as = none := by
  induction as generalizing exitStatus with
  | nil => rfl
  | cons a as ih =>
    obtain ⟨k, v⟩ := a
    by_cases hstate : k = .jobState
    · rw [hstate, valuesOf_cons_self] at h
      cases h
    · rw [valuesOf_cons_other hstate] at h
      rw [stateRead, if_neg hstate]
      split
      · exact ih h _
      · exact ih h _

section

variable {m : Machine} {checked : Bool} {item : PBSJob} {j : Job}

theorem shown_blankless {i : Int} {c : Char} (h : c ∈ shown i) : isBlank c = false := by
  obtain rfl | hdigit := mem_shown h
  · decide
  · exact isBlank_of_isDigit hdigit

theorem shown_ne_nil (i : Int) : shown i ≠ [] := by
  cases i with
  | ofNat n => exact Nat.toDigits_ne_nil
  | negSucc n => exact List.cons_ne_nil _ _

theorem space_mem_text (key : Key) : ' ' ∈ key.text :=
  List.mem_append_right _ (by decide)

theorem text_ne_nil (key : Key) : key.text ≠ [] := List.ne_nil_of_mem (space_mem_text key)

theorem heardOf_shown (key : Key) (i : Int) : heardOf key (shown i) = some (shown i) := by
  obtain ⟨c, cs, hshown⟩ := List.exists_cons_of_ne_nil (shown_ne_nil i)
  have hall : ¬ (shown i).all isBlank = true := by
    intro hall
    rw [hshown, List.all_cons, shown_blankless (hshown ▸ List.mem_cons_self)] at hall
    cases hall
  have htrim : trimEnd (shown i) = shown i :=
    trimEnd_eq_self_iff.mpr fun c hc => shown_blankless (List.mem_of_getLast? hc)
  have herase : erase key.text (shown i) = shown i :=
    (erase_eq_self_iff (text_ne_nil key)).mpr fun hoccurs =>
      space_not_mem (fun c hc => shown_blankless hc) (hoccurs.subset (space_mem_text key))
  rw [heardOf, if_neg hall, readValue, htrim, herase]

theorem exitStatusOf_shown (n : Int32) : exitStatusOf (shown n.toInt) = n := by
  rw [exitStatusOf, signed_shown ⟨n.le_toInt, n.toInt_lt⟩, Option.getD_some, Int32.ofInt_toInt]

theorem countOf_shown (n : Int64) : countOf (shown n.toInt) = n.toUInt64 ↔ 0 ≤ n.toInt := by
  have hlt : n.toInt < 2 ^ 64 := Int.lt_trans n.toInt_lt (by decide)
  have hnat : n.toUInt64.toNat = n.toBitVec.toNat := rfl
  have hint : n.toInt = n.toBitVec.toInt := rfl
  have hcond := BitVec.toInt_eq_toNat_cond n.toBitVec
  have ht := n.toBitVec.isLt
  rw [countOf, unsigned_shown hlt, ← UInt64.toNat_inj, hnat]
  by_cases h : 0 ≤ n.toInt
  · have hsmall : n.toInt.toNat < 2 ^ 64 := by omega
    rw [if_pos h, Option.getD_some, UInt64.toNat_ofNat_of_lt' hsmall]
    split at hcond <;> omega
  · rw [if_neg h, Option.getD_none]
    refine iff_of_false (fun hzero => ?_) h
    have hzero : 0 = n.toBitVec.toNat := hzero
    split at hcond <;> omega

end

-- The letter that is read, and the exit status that is known by then.
def Printed.stateKnown (p : Printed) : Option (String × Int32) :=
  (p.item.heard .jobState).map fun l =>
    (String.ofList l, if p.Precedes .exitStatus .jobState then p.item.exitStatus else 0)

def Printed.stateShown (p : Printed) : JobState :=
  (p.stateKnown.map fun q => stateOf failedBoth q.1 q.2).getD .unknown

section

variable {m : Machine} {checked : Bool} {temp j : Job} {attributes : List (Key × List Char)}

theorem Printed.stateRead_attributes (p : Printed) :
    stateRead 0 p.block.attributes = p.stateKnown := by
  cases hheard : p.item.heard .jobState with
  | none =>
    have hvalues := p.valuesOf_attributes .jobState
    rw [hheard, Option.toList_none] at hvalues
    rw [stateRead_of_valuesOf hvalues, Printed.stateKnown, hheard]
    rfl
  | some l =>
    obtain ⟨pre, post, hcut, -, hpost, hexit⟩ :=
      @Printed.attributes_split p .exitStatus .jobState l (by decide) hheard
    have hknown : exitAfter 0 pre =
        if p.Precedes .exitStatus .jobState then p.item.exitStatus else 0 := by
      have hshown : p.item.heard .exitStatus = some (shown p.item.exitStatus.toInt) :=
        heardOf_shown _ _
      rw [exitAfter, hexit, hshown]
      split
      · exact exitStatusOf_shown _
      · rfl
    rw [hcut, stateRead_append, hknown, stateRead, if_pos rfl, stateRead_of_valuesOf hpost,
      Printed.stateKnown, hheard]
    rfl

theorem Job.set_endTime (temp : Job) (n : Nat) (key : Key) (value : List Char) :
    (temp.set m failedBoth false n key value).resourceUsed.endTime = if key = .mtime then
      if ended temp.state then parseTime m value else temp.resourceUsed.endTime
      else temp.resourceUsed.endTime := by
  cases key <;> rfl

theorem Job.readAll_endTime_kept (hnone : valuesOf .mtime attributes = [])
    (h : temp.readAll m checked failedBoth false attributes = .ok j) :
    j.resourceUsed.endTime = temp.resourceUsed.endTime := by
  induction attributes generalizing temp with
  | nil =>
    cases h
    rfl
  | cons a attributes ih =>
    obtain ⟨k, v⟩ := a
    obtain ⟨n, -, h⟩ := Job.readAll_cons.mp h
    by_cases hk : k = .mtime
    · rw [hk, valuesOf_cons_self] at hnone
      cases hnone
    · rw [valuesOf_cons_other hk] at hnone
      rw [ih hnone h, Job.set_endTime, if_neg hk]

theorem Printed.readAll_endTime {p : Printed}
    (h : p.block.job m checked failedBoth false = .ok j) :
    j.resourceUsed.endTime = if p.Precedes .jobState .mtime then
      if ended p.stateShown then ((p.item.heard .mtime).map (parseTime m)).getD 0 else 0
      else 0 := by
  cases hheard : p.item.heard .mtime with
  | none =>
    have hvalues := p.valuesOf_attributes .mtime
    rw [hheard, Option.toList_none] at hvalues
    rw [Job.readAll_endTime_kept hvalues h, Option.map_none, Option.getD_none, ite_self,
      ite_self]
    rfl
  | some v =>
    obtain ⟨pre, post, hcut, hpre, hpost, hstate⟩ :=
      @Printed.attributes_split p .jobState .mtime v (by decide) hheard
    have hrun : Outcome.foldEach
        (fun temp a => Job.read m checked failedBoth false temp a.1 a.2) (Job.fresh p.id)
        (pre ++ (.mtime, v) :: post) = .ok j := by
      rw [← hcut]
      exact h
    rw [Outcome.foldEach_append] at hrun
    obtain ⟨j₁, hbefore, hrun⟩ := Outcome.bind_ok_iff.mp hrun
    obtain ⟨n, -, hafter⟩ := Job.readAll_cons.mp hrun
    rw [Job.readAll_endTime_kept hpost hafter, Job.set_endTime, if_pos rfl,
      Job.readAll_endTime_kept hpre hbefore, Option.map_some, Option.getD_some]
    have hj₁ : j₁.state = ((stateRead 0 pre).map fun q =>
        stateOf failedBoth q.1 q.2).getD .unknown := Job.readAll_state hbefore
    by_cases hprecedes : p.Precedes .jobState .mtime
    · rw [if_pos hprecedes] at hstate
      have hrest : valuesOf .jobState ((.mtime, v) :: post) = [] := by
        have hvalues := p.valuesOf_attributes .jobState
        rw [hcut, valuesOf_append, hstate] at hvalues
        exact List.append_right_eq_self.mp hvalues
      have hread : stateRead 0 pre = p.stateKnown := by
        rw [← p.stateRead_attributes, hcut, stateRead_append, stateRead_of_valuesOf hrest,
          Option.none_or]
      have hshown : j₁.state = p.stateShown := by
        rw [hj₁, hread, Printed.stateShown]
      rw [if_pos hprecedes, hshown]
      rfl
    · rw [if_neg hprecedes, Option.toList_none] at hstate
      have hunknown : j₁.state = .unknown := by
        rw [hj₁, stateRead_of_valuesOf hstate]
        rfl
      rw [if_neg hprecedes, hunknown]
      rfl

theorem Printed.heard_field {β : Type} (q : Job → β) (key : Key) (g : List Char → β)
    (hset : ∀ temp n k value, q (Job.set m failedBoth false temp n k value) =
      if k = key then g value else q temp)
    (h : p.block.job m checked failedBoth false = .ok j) :
    q j = ((p.item.heard key).map g).getD (q (Job.fresh p.id)) := by
  obtain ⟨hnone, hsome⟩ := Job.readAll_field (g := fun _ value => g value) hset h
  rw [p.lastOf_attributes] at hnone hsome
  cases hheard : p.item.heard key with
  | none => exact hnone hheard
  | some v =>
    obtain ⟨_, -, hq⟩ := hsome v hheard
    exact hq

-- What a value is converted to, where its line is read at all.
def PBSJob.measured (item : PBSJob) (m : Machine) (checked : Bool) (key : Key) :
    Outcome String Nat := (item.heard key).elim (.ok 0) (measure m checked key)

theorem Printed.measured_field (q : Job → UInt64) (key : Key)
    (hset : ∀ temp n k value, q (Job.set m failedBoth false temp n k value) =
      if k = key then .ofNat n else q temp)
    (hfresh : q (Job.fresh p.id) = .ofNat 0) (h : p.block.job m checked failedBoth false = .ok j) :
    ∃ n, p.item.measured m checked key = .ok n ∧ q j = .ofNat n := by
  obtain ⟨hnone, hsome⟩ := Job.readAll_field (g := fun n _ => UInt64.ofNat n) hset h
  rw [p.lastOf_attributes] at hnone hsome
  rw [PBSJob.measured]
  cases hheard : p.item.heard key with
  | none => exact ⟨0, rfl, (hnone hheard).trans hfresh⟩
  | some v => exact hsome v hheard

theorem Job.readAll_kept {β : Type} (q : Job → β)
    (hset : ∀ temp n k value, q (Job.set m failedBoth false temp n k value) = q temp)
    (h : temp.readAll m checked failedBoth false attributes = .ok j) : q j = q temp := by
  induction attributes generalizing temp with
  | nil =>
    cases h
    rfl
  | cons a attributes ih =>
    obtain ⟨n, -, h⟩ := Job.readAll_cons.mp h
    rw [ih h, hset]

theorem Job.readAll_ok (h : ∀ a ∈ attributes, ∃ n, measure m checked a.1 a.2 = .ok n) :
    ∃ j, temp.readAll m checked failedBoth false attributes = .ok j := by
  induction attributes generalizing temp with
  | nil => exact ⟨temp, rfl⟩
  | cons a attributes ih =>
    obtain ⟨⟨n, hn⟩, hrest⟩ := List.forall_mem_cons.mp h
    obtain ⟨j, hj⟩ := @ih (temp.set m failedBoth false n a.1 a.2) hrest
    exact ⟨j, Job.readAll_cons.mpr ⟨n, hn, hj⟩⟩

theorem Printed.job_ok
    (h : ∀ key : Key, ∃ n, p.item.measured m checked key = .ok n) :
    ∃ j, p.block.job m checked failedBoth false = .ok j := by
  refine Job.readAll_ok fun a ha => ?_
  obtain ⟨key, v⟩ := a
  obtain ⟨n, hn⟩ := h key
  have hheard : v ∈ (p.item.heard key).toList := by
    rw [← p.valuesOf_attributes key]
    exact mem_valuesOf.mpr ha
  rw [Option.mem_toList] at hheard
  rw [PBSJob.measured, hheard] at hn
  exact ⟨n, hn⟩

theorem Job.eq_iff {j j' : Job} : j = j' ↔ (j.id = j'.id ∧ j.name = j'.name ∧ j.owner = j'.owner) ∧
    (j.state = j'.state ∧ j.exitStatusCode = j'.exitStatusCode ∧ j.errorOutput = j'.errorOutput) ∧
    (j.resourceUsed.cpu = j'.resourceUsed.cpu ∧ j.resourceUsed.node = j'.resourceUsed.node) ∧
    (j.resourceUsed.avgMemory = j'.resourceUsed.avgMemory ∧
      j.resourceUsed.maxMemory = j'.resourceUsed.maxMemory ∧
      j.resourceUsed.storage = j'.resourceUsed.storage) ∧
    (j.resourceUsed.wallTime = j'.resourceUsed.wallTime ∧
      j.resourceUsed.cpuTime = j'.resourceUsed.cpuTime) ∧
    (j.resourceUsed.startTime = j'.resourceUsed.startTime ∧
      j.resourceUsed.endTime = j'.resourceUsed.endTime) := by
  constructor
  · rintro rfl
    exact ⟨⟨rfl, rfl, rfl⟩, ⟨rfl, rfl, rfl⟩, ⟨rfl, rfl⟩, ⟨rfl, rfl, rfl⟩, ⟨rfl, rfl⟩, rfl, rfl⟩
  · rintro ⟨⟨h₁, h₂, h₃⟩, ⟨h₄, h₅, h₆⟩, ⟨h₇, h₈⟩, ⟨h₉, h₁₀, h₁₁⟩, ⟨h₁₂, h₁₃⟩, h₁₄, h₁₅⟩
    obtain ⟨⟨_, _, _, ⟨_, _, _, _, _, _, _, _, _⟩⟩, _, _, _⟩ := j
    obtain ⟨⟨_, _, _, ⟨_, _, _, _, _, _, _, _, _⟩⟩, _, _, _⟩ := j'
    cases h₁; cases h₂; cases h₃; cases h₄; cases h₅; cases h₆; cases h₇; cases h₈
    cases h₉; cases h₁₀; cases h₁₁; cases h₁₂; cases h₁₃; cases h₁₄; cases h₁₅
    rfl

def letters : List String := ["R", "E", "F", "S", "U", "Q", "H"]

theorem stateOf_eq_unknown_iff {failed : Int32 → Bool} {letter : String} {exitStatus : Int32} :
    stateOf failed letter exitStatus = .unknown ↔ letter ∉ letters := by
  unfold stateOf
  cases failed exitStatus <;> split <;> simp_all [letters]

def Kept (key : Key) (value : List Char) : Prop :=
  (∀ c ∈ value.getLast?, isBlank c = false) ∧ ¬ key.text <:+: value

instance (key : Key) (value : List Char) : Decidable (Kept key value) :=
  @instDecidableAnd _ _ (Option.decidableForallMem _) inferInstance

theorem heardOf_kept_iff {key : Key} {value : List Char} :
    (heardOf key value).getD [] = value ↔ Kept key value := by
  rw [Kept, ← trimEnd_eq_self_iff, heardOf]
  split
  · next h =>
    have hnil : trimEnd value = [] :=
      List.rdropWhile_eq_nil_iff.mpr fun c hc => List.all_eq_true.mp h c hc
    rw [Option.getD_none, hnil]
    refine ⟨fun heq => ⟨heq, ?_⟩, fun h => h.1⟩
    rw [← heq]
    exact fun hoccurs => text_ne_nil key (List.infix_nil.mp hoccurs)
  · exact erase_trimEnd_eq_iff (text_ne_nil key)

theorem stateOf_exit_eq_iff {letter : String} {e e' : Int32} (h : letter = "E" ∨ letter = "F") :
    stateOf failedBoth letter e = stateOf failedBoth letter e' ↔ failedBoth e = failedBoth e' := by
  unfold stateOf
  obtain rfl | rfl := h
  · cases failedBoth e <;> cases failedBoth e' <;> simp
  · cases failedBoth e <;> cases failedBoth e' <;> simp

theorem stateOf_exit_eq {letter : String} (h : ¬(letter = "E" ∨ letter = "F")) (e e' : Int32) :
    stateOf failedBoth letter e = stateOf failedBoth letter e' := by
  unfold stateOf
  split <;> simp_all

theorem heardOf_letter {letter : String} (h : letter ∈ letters) :
    heardOf .jobState letter.toList = some letter.toList := by
  have hall : ∀ l ∈ letters, heardOf .jobState l.toList = some l.toList := by decide +kernel
  exact hall letter h

theorem Printed.stateShown_eq_iff (p : Printed) :
    p.stateShown = stateOf failedBoth p.item.jobState p.item.exitStatus ↔
      (∀ l ∈ p.item.heard .jobState, String.ofList l ∈ letters → p.item.jobState ∈ letters) ∧
      (p.item.jobState = "E" ∨ p.item.jobState = "F" → failedBoth p.item.exitStatus = true →
        p.Precedes .exitStatus .jobState) := by
  by_cases hletter : p.item.jobState ∈ letters
  · have hheard : p.item.heard .jobState = some p.item.jobState.toList := heardOf_letter hletter
    rw [Printed.stateShown, Printed.stateKnown, hheard, Option.map_some, Option.map_some,
      Option.getD_some, String.ofList_toList]
    refine Iff.trans ?_ (and_iff_right fun _ _ _ => hletter).symm
    by_cases hends : p.item.jobState = "E" ∨ p.item.jobState = "F"
    · rw [stateOf_exit_eq_iff hends]
      have hzero : failedBoth 0 = false := by decide
      split
      · next h => exact iff_of_true rfl fun _ _ => h
      · next h => simp [hzero, h, hends]
    · exact iff_of_true (stateOf_exit_eq hends _ _) fun h => absurd h hends
  · have hends : ¬(p.item.jobState = "E" ∨ p.item.jobState = "F") := by
      rintro (h | h)
      · exact hletter (h ▸ by decide)
      · exact hletter (h ▸ by decide)
    rw [stateOf_eq_unknown_iff.mpr hletter, Printed.stateShown, Printed.stateKnown]
    refine Iff.trans ?_ (and_iff_left fun h => absurd h hends).symm
    cases p.item.heard .jobState with
    | none => exact iff_of_true rfl nofun
    | some l => simp [stateOf_eq_unknown_iff, hletter]

-- What keeps the text form to the record.
structure Printed.Alike (m : Machine) (checked : Bool) (p : Printed) : Prop where
  name : Kept .jobName (p.item.value .jobName)
  owner : Kept .jobOwner (p.item.value .jobOwner)
  letter : ∀ l ∈ p.item.heard .jobState, String.ofList l ∈ letters → p.item.jobState ∈ letters
  exitStatus : p.item.jobState = "E" ∨ p.item.jobState = "F" →
    failedBoth p.item.exitStatus = true → p.Precedes .exitStatus .jobState
  errorOutput : ((p.item.heard .errorPath).map fun v => m.contents (afterColon v)).getD "" =
    m.contents (afterColon (p.item.value .errorPath))
  ncpus : 0 ≤ p.item.resourcesUsed.ncpus.toInt
  nodect : 0 ≤ p.item.nodect.toInt
  memory : measure m checked .mem (p.item.value .mem) = .ok 0
  memoryRead : p.item.measured m checked .mem = .ok 0
  storage : ((p.item.heard .errorPath).map fun v => m.size (afterColon v)).getD 0 =
    m.size (erase "/STDERR".toList (afterColon (p.item.value .errorPath)))
  wallTime : p.item.measured m checked .walltime =
    measure m checked .walltime (p.item.value .walltime)
  cpuTime : p.item.measured m checked .cput = measure m checked .cput (p.item.value .cput)
  startTime : ((p.item.heard .stime).map (parseTime m)).getD 0 =
    parseTime m (p.item.value .stime)
  endTime : p.item.jobState = "E" ∨ p.item.jobState = "F" →
    (if p.Precedes .jobState .mtime then ((p.item.heard .mtime).map (parseTime m)).getD 0 else 0) =
      parseTime m (p.item.value .mtime)

theorem getD_ofList {o : Option (List Char)} {s : String} :
    (o.map String.ofList).getD "" = s ↔ o.getD [] = s.toList := by
  cases o with
  | none =>
    rw [Option.map_none, Option.getD_none, Option.getD_none, ← String.toList_inj]
    rfl
  | some l =>
    rw [Option.map_some, Option.getD_some, Option.getD_some, ← String.toList_inj,
      String.toList_ofList]

theorem measure_lt {n : Nat} {v : List Char} (h : measure m checked key v = .ok n) :
    n < 2 ^ 64 := by
  cases key with
  | walltime => exact parseDuration_lt h
  | cput => exact parseDuration_lt h
  | mem => exact parseMemory_lt h
  | _ =>
    cases h
    exact Nat.two_pow_pos 64

theorem measured_lt {item : PBSJob} {n : Nat} (h : item.measured m checked key = .ok n) :
    n < 2 ^ 64 := by
  rw [PBSJob.measured] at h
  cases hheard : item.heard key with
  | none =>
    rw [hheard] at h
    cases h
    exact Nat.two_pow_pos 64
  | some v =>
    rw [hheard] at h
    exact measure_lt h

theorem ofNat_eq_iff {a b : Nat} (ha : a < 2 ^ 64) (hb : b < 2 ^ 64) :
    UInt64.ofNat a = UInt64.ofNat b ↔ a = b := by
  rw [← UInt64.toNat_inj, UInt64.toNat_ofNat_of_lt' ha, UInt64.toNat_ofNat_of_lt' hb]

theorem Printed.endTime_eq_iff {p : Printed}
    (hstate : p.stateShown = stateOf failedBoth p.item.jobState p.item.exitStatus) :
    (if p.Precedes .jobState .mtime then
      if ended p.stateShown then ((p.item.heard .mtime).map (parseTime m)).getD 0 else 0
      else 0) = (if p.item.jobState = "F" ∨ p.item.jobState = "E" then
        parseTime m (p.item.value .mtime) else 0) ↔
      (p.item.jobState = "E" ∨ p.item.jobState = "F" →
        (if p.Precedes .jobState .mtime then ((p.item.heard .mtime).map (parseTime m)).getD 0
          else 0) = parseTime m (p.item.value .mtime)) := by
  have hended : ended p.stateShown = true ↔ p.item.jobState = "E" ∨ p.item.jobState = "F" := by
    rw [hstate]
    unfold stateOf
    cases failedBoth p.item.exitStatus <;> split <;> simp_all [ended]
  by_cases hends : p.item.jobState = "E" ∨ p.item.jobState = "F"
  · rw [if_pos (hended.mpr hends), if_pos hends.symm]
    exact ⟨fun heq _ => heq, fun heq => heq hends⟩
  · have hstill : ¬ ended p.stateShown = true := fun htrue => hends (hended.mp htrue)
    rw [if_neg hstill, ite_self, if_neg fun hletter => hends (Or.symm hletter)]
    exact iff_of_true rfl fun h => absurd h hends

-- The job that the text form gives.
def Printed.jobShown (m : Machine) (maxMemory wallTime cpuTime : Nat) (p : Printed) : Job where
  id := String.ofList p.id
  name := ((p.item.heard .jobName).map String.ofList).getD ""
  owner := ((p.item.heard .jobOwner).map String.ofList).getD ""
  state := p.stateShown
  exitStatusCode := p.item.exitStatus
  errorOutput := ((p.item.heard .errorPath).map fun v => m.contents (afterColon v)).getD ""
  resourceUsed := {
    cpu := countOf (shown p.item.resourcesUsed.ncpus.toInt)
    avgMemory := .ofNat 0
    maxMemory := .ofNat maxMemory
    storage := ((p.item.heard .errorPath).map fun v => m.size (afterColon v)).getD 0
    wallTime := .ofNat wallTime
    cpuTime := .ofNat cpuTime
    node := countOf (shown p.item.nodect.toInt)
    startTime := ((p.item.heard .stime).map (parseTime m)).getD 0
    endTime := if p.Precedes .jobState .mtime then
      if ended p.stateShown then ((p.item.heard .mtime).map (parseTime m)).getD 0 else 0
      else 0
  }

theorem Printed.job_eq {p : Printed} (h : p.block.job m checked failedBoth false = .ok j) :
    ∃ maxMemory wallTime cpuTime, p.item.measured m checked .mem = .ok maxMemory ∧
      p.item.measured m checked .walltime = .ok wallTime ∧
      p.item.measured m checked .cput = .ok cpuTime ∧
      j = p.jobShown m maxMemory wallTime cpuTime := by
  have hexit := heard_field (fun j : Job => j.exitStatusCode) .exitStatus exitStatusOf
    (fun _ _ k _ => by cases k <;> rfl) h
  have hncpus := heard_field (fun j : Job => j.resourceUsed.cpu) .ncpus countOf
    (fun _ _ k _ => by cases k <;> rfl) h
  have hnodect := heard_field (fun j : Job => j.resourceUsed.node) .nodect countOf
    (fun _ _ k _ => by cases k <;> rfl) h
  have hshown : ∀ key i, p.item.value key = shown i → p.item.heard key = some (shown i) := by
    intro key i hvalue
    rw [PBSJob.heard, hvalue, heardOf_shown]
  rw [hshown _ _ rfl, Option.map_some, Option.getD_some] at hexit hncpus hnodect
  rw [exitStatusOf_shown] at hexit
  have hstate : j.state = p.stateShown := by
    rw [Job.readAll_state h, Printed.stateShown, ← p.stateRead_attributes]
    rfl
  have hid : j.id = String.ofList p.id :=
    Job.readAll_kept (fun j : Job => j.id) (fun _ _ k _ => by cases k <;> rfl) h
  have havg : j.resourceUsed.avgMemory = .ofNat 0 := Job.readAll_avgMemory_kept h
  obtain ⟨maxMemory, hmem, hmaxMemory⟩ := measured_field (fun j : Job => j.resourceUsed.maxMemory)
    .mem (fun _ _ k _ => by cases k <;> rfl) rfl h
  obtain ⟨wallTime, hwall, hwallTime⟩ := measured_field (fun j : Job => j.resourceUsed.wallTime)
    .walltime (fun _ _ k _ => by cases k <;> rfl) rfl h
  obtain ⟨cpuTime, hcpu, hcpuTime⟩ := measured_field (fun j : Job => j.resourceUsed.cpuTime)
    .cput (fun _ _ k _ => by cases k <;> rfl) rfl h
  refine ⟨maxMemory, wallTime, cpuTime, hmem, hwall, hcpu, Job.eq_iff.mpr
    ⟨⟨hid, ?_, ?_⟩, ⟨hstate, hexit, ?_⟩, ⟨hncpus, hnodect⟩, ⟨havg, hmaxMemory, ?_⟩,
      ⟨hwallTime, hcpuTime⟩, ?_, Printed.readAll_endTime h⟩⟩
  · exact heard_field (fun j : Job => j.name) .jobName String.ofList
      (fun _ _ k _ => by cases k <;> rfl) h
  · exact heard_field (fun j : Job => j.owner) .jobOwner String.ofList
      (fun _ _ k _ => by cases k <;> rfl) h
  · exact heard_field (fun j : Job => j.errorOutput) .errorPath
      (fun v => m.contents (afterColon v)) (fun _ _ k _ => by cases k <;> rfl) h
  · exact heard_field (fun j : Job => j.resourceUsed.storage) .errorPath
      (fun v => m.size (afterColon v)) (fun _ _ k _ => by cases k <;> rfl) h
  · exact heard_field (fun j : Job => j.resourceUsed.startTime) .stime (parseTime m)
      (fun _ _ k _ => by cases k <;> rfl) h

theorem Printed.jobShown_eq_iff {p : Printed} {memory maxMemory wallTime cpuTime wall cpu : Nat}
    (hmemory : measure m checked .mem (p.item.value .mem) = .ok memory)
    (hwall : measure m checked .walltime (p.item.value .walltime) = .ok wall)
    (hcpu : measure m checked .cput (p.item.value .cput) = .ok cpu)
    (hmax : p.item.measured m checked .mem = .ok maxMemory)
    (hwallTime : p.item.measured m checked .walltime = .ok wallTime)
    (hcpuTime : p.item.measured m checked .cput = .ok cpuTime)
    (hjson : jobOf m checked failedBoth (String.ofList p.id) p.item = .ok j) :
    p.jobShown m maxMemory wallTime cpuTime = j ↔ p.Alike m checked := by
  obtain ⟨_, h, hjson⟩ := Outcome.bind_ok_iff.mp hjson
  cases h.symm.trans hmemory
  obtain ⟨_, h, hjson⟩ := Outcome.bind_ok_iff.mp hjson
  cases h.symm.trans hmemory
  obtain ⟨_, h, hjson⟩ := Outcome.bind_ok_iff.mp hjson
  cases h.symm.trans hwall
  obtain ⟨_, h, hjson⟩ := Outcome.bind_ok_iff.mp hjson
  cases h.symm.trans hcpu
  cases hjson
  have hlt := measure_lt hmemory
  have hsame : ∀ {key a b}, measure m checked key (p.item.value key) = .ok b →
      p.item.measured m checked key = .ok a → (UInt64.ofNat a = .ofNat b ↔
        p.item.measured m checked key = measure m checked key (p.item.value key)) := by
    intro key a b hb ha
    rw [ofNat_eq_iff (measured_lt ha) (measure_lt hb), ha, hb, Outcome.ok.injEq]
  rw [Job.eq_iff]
  constructor
  · rintro ⟨⟨-, hname, howner⟩, ⟨hstate, -, herror⟩, ⟨hncpus, hnodect⟩, ⟨havg, hmaxEq, hstorage⟩,
      ⟨hwallEq, hcpuEq⟩, hstart, hend⟩
    have hzero := (ofNat_eq_iff (Nat.two_pow_pos 64) hlt).mp havg
    have hmaxZero := (ofNat_eq_iff (measured_lt hmax) hlt).mp hmaxEq
    obtain ⟨hletter, hexit⟩ := p.stateShown_eq_iff.mp hstate
    exact {
      name := heardOf_kept_iff.mp (getD_ofList.mp hname)
      owner := heardOf_kept_iff.mp (getD_ofList.mp howner)
      letter := hletter
      exitStatus := hexit
      errorOutput := herror
      ncpus := (countOf_shown _).mp hncpus
      nodect := (countOf_shown _).mp hnodect
      memory := by rw [hmemory, ← hzero]
      memoryRead := by rw [hmax, hmaxZero, ← hzero]
      storage := hstorage
      wallTime := (hsame hwall hwallTime).mp hwallEq
      cpuTime := (hsame hcpu hcpuTime).mp hcpuEq
      startTime := hstart
      endTime := (Printed.endTime_eq_iff hstate).mp hend }
  · intro halike
    have hstate := p.stateShown_eq_iff.mpr ⟨halike.letter, halike.exitStatus⟩
    cases hmemory.symm.trans halike.memory
    cases hmax.symm.trans halike.memoryRead
    exact ⟨⟨rfl, getD_ofList.mpr (heardOf_kept_iff.mpr halike.name),
        getD_ofList.mpr (heardOf_kept_iff.mpr halike.owner)⟩, ⟨hstate, rfl, halike.errorOutput⟩,
      ⟨(countOf_shown _).mpr halike.ncpus, (countOf_shown _).mpr halike.nodect⟩,
      ⟨rfl, rfl, halike.storage⟩,
      ⟨(hsame hwall hwallTime).mpr halike.wallTime, (hsame hcpu hcpuTime).mpr halike.cpuTime⟩,
      halike.startTime, (Printed.endTime_eq_iff hstate).mpr halike.endTime⟩

-- The text form of a record gives the job that the record is.
theorem getPbsJobAlternative_printed_iff (m : Machine) (checked : Bool) (p : Printed) (j : Job)
    (h : getPbsJob m checked (.ok [(String.ofList p.id, p.item)]) = .ok j) :
    getPbsJobAlternative m checked (.ok p.block.text) = .ok j ↔ p.Alike m checked := by
  have hjson : jobOf m checked failedBoth (String.ofList p.id) p.item = .ok j := h
  obtain ⟨memory, hmemory, hrest⟩ := Outcome.bind_ok_iff.mp hjson
  obtain ⟨_, -, hrest⟩ := Outcome.bind_ok_iff.mp hrest
  obtain ⟨wall, hwall, hrest⟩ := Outcome.bind_ok_iff.mp hrest
  obtain ⟨cpu, hcpu, -⟩ := Outcome.bind_ok_iff.mp hrest
  rw [getPbsJobAlternative_text]
  constructor
  · intro htext
    obtain ⟨maxMemory, wallTime, cpuTime, hmax, hwallTime, hcpuTime, hshown⟩ :=
      Printed.job_eq htext
    exact (Printed.jobShown_eq_iff hmemory hwall hcpu hmax hwallTime hcpuTime hjson).mp hshown.symm
  · intro halike
    obtain ⟨j', htext⟩ : ∃ j', p.block.job m checked failedBoth false = .ok j' := by
      refine Printed.job_ok fun key => ?_
      cases key with
      | mem => exact ⟨0, halike.memoryRead⟩
      | walltime => exact ⟨wall, halike.wallTime.trans hwall⟩
      | cput => exact ⟨cpu, halike.cpuTime.trans hcpu⟩
      | _ =>
        rw [PBSJob.measured]
        refine ⟨0, ?_⟩
        cases p.item.heard _ <;> rfl
    obtain ⟨maxMemory, wallTime, cpuTime, hmax, hwallTime, hcpuTime, rfl⟩ := Printed.job_eq htext
    rw [htext, (Printed.jobShown_eq_iff hmemory hwall hcpu hmax hwallTime hcpuTime hjson).mpr halike]

def idle : PBSJob := { sample "F" 1 with resourcesUsed := ⟨"00:00:01", "0kb", 4, "00:00:01"⟩ }

def inOrder : Printed where
  id := "1".toList
  item := idle
  others := [("queue".toList, "batch".toList)]
  order := ([.exitStatus, .jobState, .jobName, .jobOwner, .walltime, .cput, .ncpus, .mem, .stime,
    .mtime].map idle.entry) ++ ("queue".toList, "batch".toList) ::
      ([.nodect, .errorPath].map idle.entry)
  perm := by decide +kernel
  named := by
    intro e he
    cases List.mem_singleton.mp he
    exact ⟨by decide, List.forall_iff_forall_mem.mp (by decide), fun key => by cases key <;> decide⟩
  whole := by decide +kernel

theorem getPbsJobAlternative_inOrder :
    getPbsJobAlternative bare true (.ok inOrder.block.text) = .ok { sampleJob .failed with
      resourceUsed := ⟨4, 0, 0, 0, 1, 1, 1, 0, 0⟩ } := by
  refine (getPbsJobAlternative_printed_iff bare true inOrder _ (by decide +kernel)).mpr ?_
  exact {
    name := by decide +kernel
    owner := by decide +kernel
    letter := fun _ _ _ => by decide
    exitStatus := fun _ _ => by decide +kernel
    errorOutput := by decide +kernel
    ncpus := by decide
    nodect := by decide
    memory := by decide +kernel
    memoryRead := by decide +kernel
    storage := by decide +kernel
    wallTime := by decide +kernel
    cpuTime := by decide +kernel
    startTime := by decide +kernel
    endTime := fun _ => by decide +kernel }

def stateFirst : Printed where
  id := "1".toList
  item := sample "F" 1
  others := []
  order := keys.map (sample "F" 1).entry
  perm := by rw [List.append_nil]
  named := nofun
  whole := by decide +kernel

-- A failed job whose state is printed before its exit status.
theorem getPbsJobAlternative_stateFirst :
    getPbsJob bare true (.ok [("1", sample "F" 1)]) = .ok (sampleJob .failed) ∧
      getPbsJobAlternative bare true (.ok stateFirst.block.text) = .ok { sampleJob .completed with
        resourceUsed := ⟨4, 0, 2048, 0, 1, 1, 1, 0, 0⟩ } := by
  decide +kernel

end

end Kuintessence.Agent.Pbs
