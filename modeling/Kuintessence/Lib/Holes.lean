import Mathlib.Algebra.BigOperators.Group.Finset.Basic
import Mathlib.Data.List.Infix

namespace Kuintessence

namespace Holes

variable {α : Type} [DecidableEq α] (pat : List α)

def replaceFirst (new : List α) : List α → List α
  | [] => []
  | c :: s =>
    if pat <+: c :: s then new ++ (c :: s).drop pat.length else c :: replaceFirst new s

def replaceEach (texts : List (List α)) (s : List α) : List α :=
  texts.foldl (fun s new => replaceFirst pat new s) s

-- `skip` counts the letters of a hole that are still to be passed over.
def fillFrom (value : Nat → List α) : Nat → Nat → List α → List α
  | _, _, [] => []
  | skip + 1, n, _ :: s => fillFrom value skip n s
  | 0, n, c :: s =>
    if pat <+: c :: s then value n ++ fillFrom value (pat.length - 1) (n + 1) s
    else c :: fillFrom value 0 n s

def fill (value : Nat → List α) (s : List α) : List α := fillFrom pat value 0 0 s

def countFrom : Nat → List α → Nat
  | _, [] => 0
  | skip + 1, _ :: s => countFrom skip s
  | 0, c :: s => if pat <+: c :: s then countFrom (pat.length - 1) s + 1 else countFrom 0 s

def count (s : List α) : Nat := countFrom pat 0 s

def Free (s : List α) : Prop := ¬ pat <:+: s

instance (s : List α) : Decidable (Free pat s) := inferInstanceAs (Decidable (¬ _))

-- No end of a hole is the beginning of another.
structure Unbordered : Prop where
  ne_nil : pat ≠ []
  borders : ∀ k < pat.length, 0 < k → ¬ pat.drop k <+: pat

-- Between two texts it completes no hole.
structure Plain (t : List α) : Prop where
  ne_nil : t ≠ []
  apart : ∀ c ∈ t, c ∉ pat

variable {pat} {s p r t : List α} {value value' : Nat → List α}

omit [DecidableEq α] in
theorem Free.of_infix (h : Free pat s) (hp : p <:+: s) : Free pat p := fun hin => h (hin.trans hp)

omit [DecidableEq α] in
theorem free_cons_iff {c : α} : Free pat (c :: s) ↔ ¬ pat <+: c :: s ∧ Free pat s := by
  rw [Free, List.infix_cons_iff, not_or, Free]

omit [DecidableEq α] in
theorem Unbordered.free_nil (h : Unbordered pat) : Free pat [] := by
  intro hin
  exact h.ne_nil (List.infix_nil.mp hin)

omit [DecidableEq α] in
theorem Unbordered.not_prefix (h : Unbordered pat) (hr : Free pat r) (hne : r ≠ []) :
    ¬ pat <+: r ++ (pat ++ s) := by
  intro hpre
  obtain hlt | hle := Nat.lt_or_ge r.length pat.length
  · obtain ⟨t, ht⟩ := List.prefix_of_prefix_length_le (List.prefix_append r _) hpre hlt.le
    have hdrop : pat.drop r.length = t := by rw [← ht, List.drop_left]
    have htail : t <+: pat ++ s := by
      rw [← ht] at hpre
      obtain ⟨u, hu⟩ := hpre
      rw [List.append_assoc] at hu
      exact ⟨u, ht ▸ List.append_cancel_left hu⟩
    have hlen : t.length ≤ pat.length := by rw [← hdrop, List.length_drop]; exact Nat.sub_le _ _
    have htpat := List.prefix_of_prefix_length_le htail (List.prefix_append pat s) hlen
    exact h.borders r.length hlt (List.length_pos_of_ne_nil hne) (hdrop ▸ htpat)
  · exact hr (List.prefix_of_prefix_length_le hpre (List.prefix_append r _) hle).isInfix

-- Every text either has no hole or is cut at its first one.
omit [DecidableEq α] in
theorem Unbordered.free_or_hole (h : Unbordered pat) (s : List α) :
    Free pat s ∨ ∃ p r, Free pat p ∧ s = p ++ (pat ++ r) := by
  classical
  induction s with
  | nil => exact .inl h.free_nil
  | cons c s ih =>
    by_cases hpre : pat <+: c :: s
    · obtain ⟨r, hr⟩ := hpre
      exact .inr ⟨[], r, h.free_nil, hr.symm⟩
    · obtain hs | ⟨p, r, hp, rfl⟩ := ih
      · exact .inl (free_cons_iff.mpr ⟨hpre, hs⟩)
      · refine .inr ⟨c :: p, r, free_cons_iff.mpr ⟨fun hcp => hpre ?_, hp⟩, rfl⟩
        exact hcp.trans (List.prefix_append (c :: p) (pat ++ r))

omit [DecidableEq α] in
theorem Unbordered.induction (h : Unbordered pat) {P : List α → Prop}
    (free : ∀ s, Free pat s → P s) (hole : ∀ p r, Free pat p → P r → P (p ++ (pat ++ r)))
    (s : List α) : P s := by
  induction hn : s.length using Nat.strong_induction_on generalizing s with
  | _ n ih =>
    obtain hs | ⟨p, r, hp, rfl⟩ := h.free_or_hole s
    · exact free s hs
    · have hpos := List.length_pos_of_ne_nil h.ne_nil
      have hlt : r.length < n := by
        rw [← hn, List.length_append, List.length_append]
        omega
      exact hole p r hp (ih r.length hlt r rfl)

section Equations

theorem replaceFirst_free (hs : Free pat s) (new : List α) : replaceFirst pat new s = s := by
  induction s with
  | nil => rfl
  | cons c s ih =>
    obtain ⟨hpre, hs⟩ := free_cons_iff.mp hs
    rw [replaceFirst, if_neg hpre, ih hs]

theorem Unbordered.replaceFirst_hole (h : Unbordered pat) (hp : Free pat p) (new r : List α) :
    replaceFirst pat new (p ++ (pat ++ r)) = p ++ (new ++ r) := by
  induction p with
  | nil =>
    obtain ⟨c, q, hpat⟩ := List.exists_cons_of_ne_nil h.ne_nil
    have hpre : pat <+: c :: (q ++ r) := ⟨r, by rw [hpat, List.cons_append]⟩
    rw [List.nil_append, List.nil_append, hpat, List.cons_append, replaceFirst, ← hpat,
      if_pos hpre, hpat, ← List.cons_append, List.drop_left]
  | cons c p ih =>
    have hpre := h.not_prefix (s := r) hp (List.cons_ne_nil c p)
    rw [List.cons_append] at hpre ⊢
    rw [replaceFirst, if_neg hpre, ih (free_cons_iff.mp hp).2, List.cons_append]

theorem fillFrom_free (hs : Free pat s) (n : Nat) : fillFrom pat value 0 n s = s := by
  induction s with
  | nil => rfl
  | cons c s ih =>
    obtain ⟨hpre, hs⟩ := free_cons_iff.mp hs
    rw [fillFrom, if_neg hpre, ih hs]

theorem fillFrom_skip (l r : List α) (n : Nat) :
    fillFrom pat value l.length n (l ++ r) = fillFrom pat value 0 n r := by
  induction l with
  | nil => rfl
  | cons c l ih => rw [List.length_cons, List.cons_append, fillFrom, ih]

theorem Unbordered.fillFrom_hole (h : Unbordered pat) (hp : Free pat p) (n : Nat) (r : List α) :
    fillFrom pat value 0 n (p ++ (pat ++ r)) = p ++ (value n ++ fillFrom pat value 0 (n + 1) r) := by
  induction p with
  | nil =>
    obtain ⟨c, q, hpat⟩ := List.exists_cons_of_ne_nil h.ne_nil
    have hpre : pat <+: c :: (q ++ r) := ⟨r, by rw [hpat, List.cons_append]⟩
    have hlen : pat.length - 1 = q.length := by rw [hpat, List.length_cons, Nat.add_sub_cancel]
    rw [List.nil_append, List.nil_append, hpat, List.cons_append, fillFrom, ← hpat, if_pos hpre,
      hlen, fillFrom_skip]
  | cons c p ih =>
    have hpre := h.not_prefix (s := r) hp (List.cons_ne_nil c p)
    rw [List.cons_append] at hpre ⊢
    rw [fillFrom, if_neg hpre, ih (free_cons_iff.mp hp).2, List.cons_append]

theorem countFrom_free (hs : Free pat s) : count pat s = 0 := by
  induction s with
  | nil => rfl
  | cons c s ih =>
    obtain ⟨hpre, hs⟩ := free_cons_iff.mp hs
    rw [count, countFrom, if_neg hpre]
    exact ih hs

theorem countFrom_skip (l r : List α) : countFrom pat l.length (l ++ r) = count pat r := by
  induction l with
  | nil => rfl
  | cons c l ih => rw [List.length_cons, List.cons_append, countFrom, ih]

theorem Unbordered.count_hole (h : Unbordered pat) (hp : Free pat p) (r : List α) :
    count pat (p ++ (pat ++ r)) = count pat r + 1 := by
  induction p with
  | nil =>
    obtain ⟨c, q, hpat⟩ := List.exists_cons_of_ne_nil h.ne_nil
    have hpre : pat <+: c :: (q ++ r) := ⟨r, by rw [hpat, List.cons_append]⟩
    have hlen : pat.length - 1 = q.length := by rw [hpat, List.length_cons, Nat.add_sub_cancel]
    rw [List.nil_append, hpat, List.cons_append, count, countFrom, ← hpat, if_pos hpre, hlen,
      countFrom_skip]
  | cons c p ih =>
    have hpre := h.not_prefix (s := r) hp (List.cons_ne_nil c p)
    rw [List.cons_append] at hpre ⊢
    rw [count, countFrom, if_neg hpre]
    exact ih (free_cons_iff.mp hp).2

end Equations

section Replacing

theorem replaceEach_free (hs : Free pat s) (texts : List (List α)) :
    replaceEach pat texts s = s := by
  induction texts with
  | nil => rfl
  | cons new texts ih => rw [replaceEach, List.foldl_cons, replaceFirst_free hs]; exact ih

-- Before each hole that is still to come, the filled part has no hole.
def Clean (pat : List α) (value : Nat → List α) (s : List α) : Prop :=
  ∀ p r, s = p ++ (pat ++ r) → Free pat (fill pat value p)

theorem Unbordered.replaceEach_from (h : Unbordered pat) (more : List (List α)) (filled : List α)
    (n : Nat) (hclean : ∀ p r, s = p ++ (pat ++ r) → Free pat (filled ++ fillFrom pat value 0 n p))
    (hmore : more ≠ [] → Free pat (filled ++ fillFrom pat value 0 n s)) :
    replaceEach pat ((List.range' n (count pat s)).map value ++ more) (filled ++ s) =
      filled ++ fillFrom pat value 0 n s := by
  induction s using h.induction generalizing filled n with
  | free s hs =>
    rw [countFrom_free hs, List.range'_zero, List.map_nil, List.nil_append, fillFrom_free hs]
    rw [fillFrom_free hs] at hmore
    cases more with
    | nil => rfl
    | cons new more => exact replaceEach_free (hmore (List.cons_ne_nil new more)) _
  | hole p r hp ih =>
    have hfirst : Free pat (filled ++ p) := by
      have hfree := hclean p r rfl
      rwa [fillFrom_free hp] at hfree
    have hrest := ih (filled ++ p ++ value n) (n + 1) (fun p' r' hr => ?_) (fun hne => ?_)
    · rw [h.count_hole hp, List.range'_succ, List.map_cons, List.cons_append, replaceEach,
        List.foldl_cons, ← List.append_assoc filled, h.replaceFirst_hole hfirst,
        ← List.append_assoc (filled ++ p), h.fillFrom_hole hp]
      rw [replaceEach] at hrest
      rw [hrest]
      simp only [List.append_assoc]
    · have hfree := hclean (p ++ (pat ++ p')) r' (by rw [hr]; simp only [List.append_assoc])
      rw [h.fillFrom_hole hp] at hfree
      simpa only [List.append_assoc] using hfree
    · have hfree := hmore hne
      rw [h.fillFrom_hole hp] at hfree
      simpa only [List.append_assoc] using hfree

theorem Unbordered.replaceEach_eq_fill (h : Unbordered pat) {more : List (List α)}
    (hclean : Clean pat value s) (hmore : more ≠ [] → Free pat (fill pat value s)) :
    replaceEach pat ((List.range (count pat s)).map value ++ more) s = fill pat value s := by
  have hfrom := h.replaceEach_from more [] 0 (fun p r hs => hclean p r hs) hmore
  rwa [← List.range_eq_range'] at hfrom

end Replacing

section Plain

omit [DecidableEq α] in
theorem infix_of_not_mem {c : α} (hc : c ∉ pat) (hin : pat <:+: s ++ c :: r) :
    pat <:+: s ∨ pat <:+: r := by
  obtain ⟨u, v, huv⟩ := hin
  rw [List.append_assoc] at huv
  obtain ⟨w, rfl, hw⟩ | ⟨w, -, hw⟩ := List.append_eq_append_iff.mp huv
  · obtain ⟨x, rfl, -⟩ | ⟨x, rfl, hx⟩ := List.append_eq_append_iff.mp hw
    · exact .inl ⟨u, x, by rw [List.append_assoc]⟩
    · cases x with
      | nil => exact .inl ⟨u, [], by simp⟩
      | cons d x =>
        cases hx
        exact absurd (by simp) hc
  · cases w with
    | nil =>
      cases hpat : pat with
      | nil => exact .inl (List.nil_infix)
      | cons d q =>
        rw [hpat] at hw
        cases hw
        exact absurd (hpat ▸ List.mem_cons_self) hc
    | cons d w =>
      cases hw
      exact .inr ⟨w, v, List.append_assoc w pat v⟩

omit [DecidableEq α] in
theorem Plain.free (ht : Plain pat t) (hs : Free pat s) (hr : Free pat r) :
    Free pat (s ++ (t ++ r)) := by
  obtain ⟨hne, hapart⟩ := ht
  induction t generalizing s with
  | nil => exact absurd rfl hne
  | cons c t ih =>
    intro hin
    obtain hin | hin := infix_of_not_mem (hapart c List.mem_cons_self) hin
    · exact hs hin
    · cases t with
      | nil => exact hr hin
      | cons d t =>
        have hnil : Free pat [] := hs.of_infix List.nil_infix
        exact ih (s := []) hnil (List.cons_ne_nil d t)
          (fun e he => hapart e (List.mem_cons_of_mem c he)) hin

theorem Unbordered.fillFrom_holes (h : Unbordered pat) (n : Nat)
    (hvalue : ∀ i < count pat s, value (n + i) = pat) : fillFrom pat value 0 n s = s := by
  induction s using h.induction generalizing n with
  | free s hs => exact fillFrom_free hs n
  | hole p r hp ih =>
    rw [h.count_hole hp] at hvalue
    have hfirst := hvalue 0 (Nat.succ_pos _)
    rw [Nat.add_zero] at hfirst
    rw [h.fillFrom_hole hp, hfirst, ih (n + 1) fun i hi => ?_]
    rw [Nat.add_assoc, Nat.add_comm 1]
    exact hvalue (i + 1) (Nat.succ_lt_succ hi)

theorem Unbordered.fillFrom_congr (h : Unbordered pat) (n : Nat)
    (hvalue : ∀ i < count pat s, value (n + i) = value' (n + i)) :
    fillFrom pat value 0 n s = fillFrom pat value' 0 n s := by
  induction s using h.induction generalizing n with
  | free s hs => rw [fillFrom_free hs, fillFrom_free hs]
  | hole p r hp ih =>
    rw [h.count_hole hp] at hvalue
    have hfirst := hvalue 0 (Nat.succ_pos _)
    rw [Nat.add_zero] at hfirst
    rw [h.fillFrom_hole hp, h.fillFrom_hole hp, hfirst, ih (n + 1) fun i hi => ?_]
    rw [Nat.add_assoc, Nat.add_comm 1]
    exact hvalue (i + 1) (Nat.succ_lt_succ hi)

-- Plain texts are filled in from the left, whatever their numbers are.
theorem Unbordered.replaceEach_plain (h : Unbordered pat) {texts : List (List α)}
    (value : Nat → List α) (hplain : ∀ t ∈ texts, Plain pat t) (filled : List α) (n : Nat)
    (hfilled : ∀ p, Free pat p → Free pat (filled ++ p))
    (hvalue : ∀ i, value (n + i) = (texts[i]?).getD pat) :
    replaceEach pat texts (filled ++ s) = filled ++ fillFrom pat value 0 n s := by
  induction s using h.induction generalizing filled n texts with
  | free s hs => rw [fillFrom_free hs, replaceEach_free (hfilled s hs)]
  | hole p r hp ih =>
    have hfirst := hvalue 0
    rw [Nat.add_zero] at hfirst
    have hlater : ∀ i, value (n + 1 + i) = (texts[i + 1]?).getD pat := by
      intro i
      rw [Nat.add_assoc, Nat.add_comm 1]
      exact hvalue (i + 1)
    cases texts with
    | nil =>
      rw [h.fillFrom_holes n fun i _ => hvalue i]
      rfl
    | cons t texts =>
      have ht := hplain t List.mem_cons_self
      have hrest := ih (fun t' ht' => hplain t' (List.mem_cons_of_mem t ht')) (filled ++ p ++ t)
        (n + 1) (fun q hq => ?_) hlater
      · rw [h.fillFrom_hole hp, hfirst, replaceEach, List.foldl_cons, ← List.append_assoc filled,
          h.replaceFirst_hole (hfilled p hp), ← List.append_assoc (filled ++ p)]
        rw [replaceEach] at hrest
        rw [hrest]
        simp only [List.append_assoc, List.getElem?_cons_zero, Option.getD_some]
      · rw [List.append_assoc]
        exact ht.free (hfilled p hp) hq

theorem Unbordered.length_fillFrom (h : Unbordered pat) (value : Nat → List α) (n : Nat) :
    (fillFrom pat value 0 n s).length + count pat s * pat.length =
      s.length + ∑ i ∈ Finset.range (count pat s), (value (n + i)).length := by
  induction s using h.induction generalizing n with
  | free s hs => rw [fillFrom_free hs, countFrom_free hs]; simp
  | hole p r hp ih =>
    have hrest := ih (n + 1)
    have hsum : ∀ i, value (n + (i + 1)) = value (n + 1 + i) := by
      intro i
      rw [Nat.add_assoc, Nat.add_comm 1]
    rw [h.fillFrom_hole hp, h.count_hole hp, Finset.sum_range_succ']
    simp only [hsum, List.length_append, Nat.add_zero, Nat.add_mul, Nat.one_mul]
    omega

end Plain

section Numbered

def sizeAt (numbers : List Nat) (size : Nat → Nat) (m : Nat) : Nat :=
  if m ∈ numbers then size m else 0

def sizeLeft (numbers : List Nat) (size : Nat → Nat) (c i : Nat) : Nat :=
  ((numbers.map size)[i]?).getD c

variable {numbers : List Nat} {size : Nat → Nat} {c : Nat}

theorem sizeLeft_pos (hc : 0 < c) (hsize : ∀ m ∈ numbers, 0 < size m) (i : Nat) :
    0 < sizeLeft numbers size c i := by
  rw [sizeLeft]
  cases hi : (numbers.map size)[i]? with
  | none => exact hc
  | some l =>
    obtain ⟨m, hm, rfl⟩ := List.mem_map.mp (List.mem_of_getElem? hi)
    exact hsize m hm

theorem exists_rest (hsorted : numbers.Pairwise (· < ·)) {n : Nat} (hlow : ∀ m ∈ numbers, n ≤ m)
    (hn : n ∈ numbers) :
    ∃ rest, numbers = n :: rest ∧ rest.Pairwise (· < ·) ∧ ∀ m ∈ rest, n + 1 ≤ m := by
  cases numbers with
  | nil => cases hn
  | cons a rest =>
    obtain ⟨hfirst, hrest⟩ := List.pairwise_cons.mp hsorted
    obtain rfl | hmem := List.mem_cons.mp hn
    · exact ⟨rest, rfl, hrest, hfirst⟩
    · exact absurd (hlow a List.mem_cons_self) (Nat.not_le.mpr (hfirst n hmem))

theorem shift (n i : Nat) : n + (i + 1) = n + 1 + i := by rw [Nat.add_assoc, Nat.add_comm 1]

theorem exists_beyond (hsorted : numbers.Pairwise (· < ·)) (k n : Nat)
    (hlow : ∀ m ∈ numbers, n ≤ m) (hall : ∀ i < k, n + i ∈ numbers) :
    ∃ rest, numbers = List.range' n k ++ rest ∧ ∀ m ∈ rest, n + k ≤ m := by
  induction k generalizing n numbers with
  | zero => exact ⟨numbers, rfl, hlow⟩
  | succ k ih =>
    obtain ⟨later, rfl, hlater, hlow'⟩ := exists_rest hsorted hlow (hall 0 (Nat.succ_pos k))
    obtain ⟨rest, rfl, hrest⟩ := ih hlater (n + 1) hlow' fun i hi => by
      have hmem := hall (i + 1) (Nat.succ_lt_succ hi)
      rw [shift] at hmem
      have hne : n + 1 + i ≠ n := by omega
      exact (List.mem_cons.mp hmem).resolve_left hne
    refine ⟨rest, by rw [List.range'_succ, List.cons_append], fun m hm => ?_⟩
    rw [shift]
    exact hrest m hm

-- Texts taken from the left weigh at least those that stand at their own numbers.
theorem sum_numbered (hc : 0 < c) (hsize : ∀ m ∈ numbers, 0 < size m) (k n : Nat)
    (hsorted : numbers.Pairwise (· < ·)) (hlow : ∀ m ∈ numbers, n ≤ m) :
    ∑ i ∈ Finset.range k, sizeAt numbers size (n + i) ≤
        ∑ i ∈ Finset.range k, sizeLeft numbers size c i ∧
      (∑ i ∈ Finset.range k, sizeAt numbers size (n + i) =
          ∑ i ∈ Finset.range k, sizeLeft numbers size c i →
        ∀ i < k, n + i ∈ numbers) := by
  induction k generalizing n numbers with
  | zero => exact ⟨le_rfl, fun _ i hi => absurd hi (Nat.not_lt_zero i)⟩
  | succ k ih =>
    have htail : ∑ i ∈ Finset.range k, sizeAt numbers size (n + (i + 1)) =
        ∑ i ∈ Finset.range k, sizeAt numbers size (n + 1 + i) :=
      Finset.sum_congr rfl fun i _ => by rw [shift]
    rw [Finset.sum_range_succ', htail]
    by_cases hn : n ∈ numbers
    · obtain ⟨rest, rfl, hrest, hlow'⟩ := exists_rest hsorted hlow hn
      obtain ⟨hle, heq⟩ := ih (fun m hm => hsize m (List.mem_cons_of_mem n hm)) (n + 1) hrest hlow'
      have hat : ∀ i, sizeAt (n :: rest) size (n + 1 + i) = sizeAt rest size (n + 1 + i) := by
        intro i
        have hne : n + 1 + i ≠ n := by omega
        simp only [sizeAt, List.mem_cons, hne, false_or]
      have hzero : sizeAt (n :: rest) size (n + 0) = size n := if_pos List.mem_cons_self
      have hleft : ∑ i ∈ Finset.range (k + 1), sizeLeft (n :: rest) size c i =
          ∑ i ∈ Finset.range k, sizeLeft rest size c i + size n := Finset.sum_range_succ' _ k
      rw [hzero, hleft, Finset.sum_congr rfl fun i _ => hat i]
      refine ⟨Nat.add_le_add_right hle _, fun hsum i hi => ?_⟩
      cases i with
      | zero => exact List.mem_cons_self
      | succ i =>
        rw [shift]
        exact List.mem_cons_of_mem n (heq (Nat.add_right_cancel hsum) i (Nat.lt_of_succ_lt_succ hi))
    · have hlow' : ∀ m ∈ numbers, n + 1 ≤ m := by
        intro m hm
        obtain hlt | rfl := Nat.lt_or_eq_of_le (hlow m hm)
        · exact hlt
        · exact absurd hm hn
      obtain ⟨hle, -⟩ := ih hsize (n + 1) hsorted hlow'
      have hzero : sizeAt numbers size (n + 0) = 0 := if_neg hn
      have hpos := sizeLeft_pos hc hsize k
      rw [Finset.sum_range_succ (sizeLeft _ size c), hzero]
      exact ⟨by omega, fun hsum => by omega⟩

end Numbered

section Filling

variable {numbers : List Nat} {text : Nat → List α}

def valueAt (numbers : List Nat) (text : Nat → List α) (n : Nat) : List α :=
  if n ∈ numbers then text n else []

-- Plain texts stand at their own holes exactly where every hole has a number.
theorem Unbordered.replaceEach_plain_iff (h : Unbordered pat)
    (hsorted : numbers.Pairwise (· < ·)) (hplain : ∀ n ∈ numbers, Plain pat (text n)) :
    replaceEach pat (numbers.map text) s = fill pat (valueAt numbers text) s ↔
      ∀ n < count pat s, n ∈ numbers := by
  have hlow : ∀ m ∈ numbers, 0 ≤ m := fun m _ => Nat.zero_le m
  have htexts : ∀ t ∈ numbers.map text, Plain pat t := by
    intro t ht
    obtain ⟨n, hn, rfl⟩ := List.mem_map.mp ht
    exact hplain n hn
  have hfrom := h.replaceEach_plain (s := s) (fun i => ((numbers.map text)[i]?).getD pat) htexts
    [] 0 (fun p hp => hp) (fun i => by rw [Nat.zero_add])
  rw [List.nil_append, List.nil_append] at hfrom
  rw [hfrom, fill]
  constructor
  · intro heq n hn
    have hl := h.length_fillFrom (s := s) (fun i => ((numbers.map text)[i]?).getD pat) 0
    have hr := h.length_fillFrom (s := s) (valueAt numbers text) 0
    rw [heq] at hl
    have hsum := Nat.add_left_cancel (hl.symm.trans hr)
    have hpos : 0 < pat.length := List.length_pos_of_ne_nil h.ne_nil
    have hsize : ∀ m ∈ numbers, 0 < (text m).length :=
      fun m hm => List.length_pos_of_ne_nil (hplain m hm).ne_nil
    have hat : ∀ i, (valueAt numbers text (0 + i)).length =
        sizeAt numbers (fun m => (text m).length) (0 + i) := by
      intro i
      rw [valueAt, sizeAt, apply_ite List.length, List.length_nil]
    have hleft : ∀ i, (((numbers.map text)[0 + i]?).getD pat).length =
        sizeLeft numbers (fun m => (text m).length) pat.length i := by
      intro i
      rw [Nat.zero_add, sizeLeft, List.getElem?_map, List.getElem?_map]
      cases numbers[i]? with
      | none => rfl
      | some m => rfl
    rw [Finset.sum_congr rfl fun i _ => hat i, Finset.sum_congr rfl fun i _ => hleft i] at hsum
    have hmem := (sum_numbered hpos hsize (count pat s) 0 hsorted hlow).2 hsum.symm n hn
    rwa [Nat.zero_add] at hmem
  · intro hall
    obtain ⟨rest, hnumbers, -⟩ := exists_beyond hsorted (count pat s) 0 hlow
      fun i hi => by rw [Nat.zero_add]; exact hall i hi
    refine h.fillFrom_congr 0 fun i hi => ?_
    have hget : numbers[i]? = some i := by
      rw [hnumbers, List.getElem?_append_left (by rw [List.length_range']; exact hi),
        List.getElem?_range' hi, Nat.one_mul, Nat.zero_add]
    rw [Nat.zero_add, List.getElem?_map, hget, valueAt, if_pos (hall i hi)]
    rfl

theorem Unbordered.free_plain (h : Unbordered pat) (n : Nat)
    (hplain : ∀ i < count pat s, Plain pat (value (n + i))) :
    Free pat (fillFrom pat value 0 n s) := by
  induction s using h.induction generalizing n with
  | free s hs => rwa [fillFrom_free hs]
  | hole p r hp ih =>
    rw [h.count_hole hp] at hplain
    rw [h.fillFrom_hole hp]
    refine (hplain 0 (Nat.succ_pos _)).free hp (ih (n + 1) fun i hi => ?_)
    rw [← shift]
    exact hplain (i + 1) (Nat.succ_lt_succ hi)

theorem Unbordered.count_append_le (h : Unbordered pat) (r : List α) :
    count pat s ≤ count pat (s ++ (pat ++ r)) := by
  induction s using h.induction with
  | free s hs => rw [countFrom_free hs]; exact Nat.zero_le _
  | hole p q hp ih =>
    have happend : p ++ (pat ++ q) ++ (pat ++ r) = p ++ (pat ++ (q ++ (pat ++ r))) := by
      simp only [List.append_assoc]
    rw [happend, h.count_hole hp, h.count_hole hp]
    exact Nat.succ_le_succ ih

end Filling

end Holes

end Kuintessence
