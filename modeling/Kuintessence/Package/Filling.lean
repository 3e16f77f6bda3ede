import Kuintessence.Lib.Holes
import Kuintessence.Package.Material

namespace Kuintessence

-- `str::replacen` with the count 1.
def replaceOne (s pat new : String) : String :=
  String.ofList (Holes.replaceFirst pat.toList new.toList s.toList)

namespace Package

abbrev hole : List Char := placeholder.toList

theorem hole_unbordered : Holes.Unbordered hole :=
  ⟨by decide +kernel, by decide +kernel⟩

namespace FormatFill

variable (f : FormatFill (Option String))

def filled (o : Order (Nat × Option String)) : String :=
  (HashMap.sortByKey (f.placeholderFillMap.iter o)).foldl
    (fun format placeholderFill => replaceOne format placeholder (placeholderFill.2.getD ""))
    f.format

def text (n : Nat) : String := ((f.placeholderFillMap.get n).getD none).getD ""

-- The format with the text of each number at the placeholder of that number.
def placed : String :=
  String.ofList (Holes.fill hole (fun n => (f.text n).toList) f.format.toList)

def placeholders : Nat := Holes.count hole f.format.toList

structure Aligned : Prop where
  numbered : ∀ n < f.placeholders, n ∈ Assoc.keys f.placeholderFillMap.entries
  clean : Holes.Clean hole (fun n => (f.text n).toList) f.format.toList
  spent : (∃ n ∈ Assoc.keys f.placeholderFillMap.entries, f.placeholders ≤ n) →
    Holes.Free hole f.placed.toList

def Plain : Prop :=
  ∀ n ∈ Assoc.keys f.placeholderFillMap.entries, Holes.Plain hole (f.text n).toList

variable {f} (o : Order (Nat × Option String))

theorem filled_toList : (f.filled o).toList =
    Holes.replaceEach hole
      ((Assoc.keys f.placeholderFillMap.entries).map fun n => (f.text n).toList) f.format.toList := by
  have htexts : (Assoc.keys f.placeholderFillMap.entries).map (fun n => (f.text n).toList) =
      f.placeholderFillMap.entries.map fun e => (e.2.getD "").toList := by
    rw [Assoc.keys, List.map_map]
    refine List.map_congr_left fun e he => ?_
    rw [Function.comp_apply, text, HashMap.mem_entries_iff.mp he]
    rfl
  rw [filled, HashMap.sortByKey_iter, htexts, Holes.replaceEach]
  generalize f.placeholderFillMap.entries = entries
  generalize f.format = format
  induction entries generalizing format with
  | nil => rfl
  | cons e entries ih =>
    rw [List.foldl_cons, ih, List.map_cons, List.foldl_cons, replaceOne, String.toList_ofList]

theorem filled_eq_placed_iff : f.filled o = f.placed ↔
    Holes.replaceEach hole
        ((Assoc.keys f.placeholderFillMap.entries).map fun n => (f.text n).toList) f.format.toList =
      Holes.fill hole (fun n => (f.text n).toList) f.format.toList := by
  rw [← filled_toList o, placed, ← String.toList_inj, String.toList_ofList]

theorem Aligned.filled_eq (h : f.Aligned) : f.filled o = f.placed := by
  obtain ⟨rest, hkeys, hrest⟩ := Holes.exists_beyond f.placeholderFillMap.sorted f.placeholders 0
    (fun n _ => Nat.zero_le n) (fun n hn => by rw [Nat.zero_add]; exact h.numbered n hn)
  have hmore : rest.map (fun n => (f.text n).toList) ≠ [] →
      Holes.Free hole (Holes.fill hole (fun n => (f.text n).toList) f.format.toList) := by
    intro hne
    obtain ⟨n, hn⟩ := List.exists_mem_of_ne_nil rest fun hnil => hne (by rw [hnil, List.map_nil])
    have hfree := h.spent ⟨n, by rw [hkeys]; exact List.mem_append_right _ hn,
      Nat.zero_add f.placeholders ▸ hrest n hn⟩
    rwa [placed, String.toList_ofList] at hfree
  rw [filled_eq_placed_iff, hkeys, List.map_append, ← List.range_eq_range']
  exact hole_unbordered.replaceEach_eq_fill h.clean hmore

theorem Plain.filled_iff (h : f.Plain) : f.filled o = f.placed ↔
    ∀ n < f.placeholders, n ∈ Assoc.keys f.placeholderFillMap.entries := by
  rw [filled_eq_placed_iff]
  have hvalue : (fun n => (f.text n).toList) =
      Holes.valueAt (Assoc.keys f.placeholderFillMap.entries) fun n => (f.text n).toList := by
    funext n
    rw [Holes.valueAt]
    split
    · rfl
    · next hn =>
      rw [text, HashMap.get, Assoc.get_eq_none_iff.mpr hn]
      rfl
  nth_rewrite 2 [hvalue]
  exact hole_unbordered.replaceEach_plain_iff f.placeholderFillMap.sorted h

theorem Plain.aligned (h : f.Plain)
    (hall : ∀ n < f.placeholders, n ∈ Assoc.keys f.placeholderFillMap.entries) : f.Aligned where
  numbered := hall
  clean := by
    intro p r hp
    refine hole_unbordered.free_plain 0 fun i hi => ?_
    rw [Nat.zero_add]
    refine h i (hall i (Nat.lt_of_lt_of_le hi ?_))
    rw [placeholders, hp]
    exact hole_unbordered.count_append_le r
  spent := by
    intro _
    rw [placed, String.toList_ofList]
    refine hole_unbordered.free_plain 0 fun i hi => ?_
    rw [Nat.zero_add]
    exact h i (hall i hi)

theorem filled_iff_aligned (f : FormatFill (Option String)) (o : Order (Nat × Option String)) :
    (f.Aligned → f.filled o = f.placed) ∧ (f.Plain → (f.filled o = f.placed ↔ f.Aligned)) := by
  refine ⟨fun h => h.filled_eq o, fun hplain => ⟨fun h => ?_, fun h => h.filled_eq o⟩⟩
  exact hplain.aligned ((hplain.filled_iff o).mp h)

def sampleFill (fills : List (Nat × Option String)) : FormatFill (Option String) :=
  ⟨"-u " ++ placeholder ++ " " ++ placeholder ++ " p", .ofList fills⟩

theorem both_filled :
    (sampleFill [(0, some "a"), (1, some "b")]).filled (.asIs _) = "-u a b p" := by
  have hplain : (sampleFill [(0, some "a"), (1, some "b")]).Plain := by
    intro n hn
    have hn : n ∈ [0, 1] := hn
    simp only [List.mem_cons, List.not_mem_nil, or_false] at hn
    obtain rfl | rfl := hn
    · exact ⟨List.cons_ne_nil 'a' [], List.forall_mem_singleton.mpr (by decide +kernel)⟩
    · exact ⟨List.cons_ne_nil 'b' [], List.forall_mem_singleton.mpr (by decide +kernel)⟩
  have haligned := hplain.aligned (by decide +kernel)
  rw [(filled_iff_aligned _ (.asIs _)).1 haligned]
  decide +kernel

theorem lone_second_shifts : ¬ ∀ (f : FormatFill (Option String)) o, f.filled o = f.placed := by
  intro h
  have heq := h (sampleFill [(1, some "a")]) (.asIs _)
  revert heq
  decide +kernel

end FormatFill

end Package

end Kuintessence
