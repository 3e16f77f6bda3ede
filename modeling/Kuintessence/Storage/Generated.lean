import Kuintessence.Engine.Batches
import Kuintessence.Storage.Undisturbed
import Kuintessence.Workflow.Completion

namespace Kuintessence.Storage

open Effect

-- The scheduler registers its moves with these values.
def registrationOf (move : Kuintessence.MoveRegistration) : MoveRegistration :=
  ⟨move.id, move.metaId, move.fileName, move.hash, .blake3, move.size, .storageServer none, false,
    none, move.userId⟩

def insertMove (moves : List (String × MoveRegistration))
    (move : Uuid × Kuintessence.MoveRegistration) : List (String × MoveRegistration) :=
  Assoc.insert moves (uuidText move.1 ++ "_" ++ FileMoveService.key move.2.id move.2.metaId)
    (registrationOf move.2)

-- The file service shares its redis and its queue with the scheduler.
def Depot.shared (d : Depot) (files : Files) : Depot :=
  { d with
    moves := files.moves.foldl insertMove d.moves
    uploads := d.uploads ++ files.uploads.map fun upload => ⟨upload.1, upload.2⟩ }

def Retrievable (env : Kuintessence.Env) (d : Depot) (f : FileInput) : Prop :=
  ∃ content : String, f.hash = env.blake3 content ∧ f.size = content.utf8ByteSize ∧
    ∃ server, Assoc.get d.objects (server, f.fileMetadataId) = some content.toUTF8.toList

-- No content is kept under the id, neither in the cache nor on a storage server.
structure Blank (id : Uuid) (d : Depot) : Prop where
  uncached : Uncached id d
  objects : ∀ server, Assoc.get d.objects (server, id) = none

theorem not_retrievable {senv : Env} {env : Kuintessence.Env} {d : Depot} {f : FileInput}
    (h : Blank f.fileMetadataId d) {qs : List Request}
    (hqs : ∀ q ∈ qs, q.handsIn f.fileMetadataId = false) :
    ¬Retrievable env (run (step senv) d qs) f := by
  rintro ⟨content, -, -, server, hget⟩
  rw [(run_undisturbed senv d hqs).objects h.uncached, h.objects server] at hget
  cases hget

section Supplied

variable {env : Kuintessence.Env} {ids : Nat → Uuid} {w : World}

def Supplied (ids : Nat → Uuid) (i : Input) : Prop :=
  ∃ f n, i = .file f ∧ f.fileMetadataId = ids n

theorem wp_storeFile (h : Tail ids w.ids) (fileName content : String) :
    wp (storeFile fileName content) env (fun i _ => Supplied ids i) (fun _ => True) w := by
  obtain ⟨n, hn⟩ := h
  unfold storeFile
  rw [wp_bind, wp_read, wp_bind]
  have hdraw : wp (gen Kuintessence.newV4) env (fun id _ => id = ids n) (fun _ => True) w := by
    change w.ids 0 = ids n
    rw [hn]
    rfl
  refine wp_mono hdraw (fun id t hid => ?_) (fun _ he => he)
  refine wp_bind_any fun _ _ => wp_bind_any fun _ _ => wp_bind_any fun _ _ => ?_
  rw [wp_pure]
  exact ⟨_, n, rfl, hid⟩

theorem wp_storeFiles (h : Tail ids w.ids) (fileName : World → String) (texts : List String) :
    wp (mapEach (fun text => do
      let w ← .get
      storeFile (fileName w) text) texts) env (fun inputs _ => ∀ i ∈ inputs, Supplied ids i)
      (fun _ => True) w := by
  have hall := @wp_mapEach _ _ _ _ _ env w (fun text => do
      let w ← .get
      storeFile (fileName w) text) (fun _ => True)
    (fun _ inputs t => Tail ids t.ids ∧ ∀ i ∈ inputs, Supplied ids i) texts
    (fun pre text post inputs _ t ht => by
      obtain ⟨htail, hinputs⟩ := ht
      rw [wp_bind, wp_get]
      have hcalm := (keeps_storeFile (fileName t) text).wp env t
      refine wp_mono (wp_and (wp_storeFile htail (fileName t) text) hcalm)
        (fun i u hu => ⟨htail.trans hu.2.ids, ?_⟩) (fun _ _ => trivial)
      intro j hj
      rcases List.mem_append.mp hj with hj | hj
      · exact hinputs j hj
      · rw [List.mem_singleton.mp hj]
        exact hu.1)
    ⟨h, by simp⟩
  exact wp_mono hall (fun _ _ hq => hq.2) (fun _ he => he)

theorem wp_matchRegexFiles (h : Tail ids w.ids) (b : BatchStrategy) (regexToMatch : String)
    (fillCount : Nat) (filler : Filler) {slot : NodeInputSlot} {contents : Option (RVec FileInput)}
    {name : Option String} {isBatch : Bool} (hslot : slot.kind = .file contents name isBatch) :
    wp (matchRegexInputs b regexToMatch fillCount filler slot) env
      (fun inputs _ => ∀ i ∈ inputs, Supplied ids i) (fun _ => True) w := by
  unfold matchRegexInputs
  rw [wp_bind, wp_read, hslot]
  dsimp only
  have hlift {α : Type} (o : Anyhow α) {Q : α → World → Prop} {t : World} (hQ : ∀ a, Q a t) :
      wp (.lift o : Svc α) env Q (fun _ => True) t := by
    rw [wp_lift]
    exact ⟨fun a _ => hQ a, fun _ => trivial⟩
  rw [wp_bind]
  refine hlift _ fun found => ?_
  rw [wp_bind]
  refine hlift _ fun file => ?_
  rw [wp_bind]
  have hread := (keeps_getFileText file.fileMetadataId).wp env w
  refine wp_mono hread (fun content t ht => ?_) (fun _ _ => trivial)
  rw [wp_bind, wp_get, wp_bind]
  refine hlift _ fun texts => ?_
  rw [wp_bind]
  exact hlift _ fun pattern => wp_storeFiles (h.trans ht.ids) _ texts

end Supplied

theorem generated_retrievable_iff (senv : Env) (env : Kuintessence.Env)
    {relations : List NodeRelation} {b : BatchStrategy} {slot : NodeInputSlot}
    {regexToMatch : String} {fillCount : Nat} {filler : Filler}
    {contents : Option (RVec FileInput)} {name : Option String} {isBatch : Bool}
    {w w' : World} {inputs : List Input} {d : Depot} {qs : List Request}
    (hkind : b.kind = .matchRegex regexToMatch fillCount filler)
    (hslot : slot.kind = .file contents name isBatch)
    (hreturns : getBatchInputs relations b slot env w = (.ok inputs, w'))
    (hfresh : ∀ n, Blank (w.ids n) d) (hqs : ∀ q ∈ qs, ∀ n, q.handsIn (w.ids n) = false) :
    (∀ i ∈ inputs, ∃ f, i = .file f ∧ Retrievable env (run (step senv) (d.shared w'.files) qs) f) ↔
      fillCount = 0 := by
  rw [getBatchInputs, hkind] at hreturns
  have hlength := (wp_of_eq hreturns).mp (wp_matchRegexInputs b regexToMatch fillCount filler slot)
  have hsupplied := (wp_of_eq hreturns).mp
    (wp_matchRegexFiles (.refl w.ids) b regexToMatch fillCount filler hslot)
  rw [← hlength]
  constructor
  · intro hall
    cases inputs with
    | nil => rfl
    | cons i inputs =>
      obtain ⟨f, n, rfl, hid⟩ := hsupplied i List.mem_cons_self
      obtain ⟨g, hg, hretrievable⟩ := hall _ List.mem_cons_self
      cases hg
      have hblank : Blank f.fileMetadataId (d.shared w'.files) := by
        rw [hid]
        exact ⟨(hfresh n).uncached, (hfresh n).objects⟩
      have hquiet : ∀ q ∈ qs, q.handsIn f.fileMetadataId = false := by
        rw [hid]
        exact fun q hq => hqs q hq n
      exact absurd hretrievable (not_retrievable hblank hquiet)
  · intro hnil i hi
    rw [List.length_eq_zero_iff.mp hnil] at hi
    cases hi

section Samples

def numbered (fillCount : Nat) : BatchStrategy :=
  ⟨"s", some "out\x7b\x7d", .matchRegex "#" fillCount (.autoNumber 0 1)⟩

def templateSlot : NodeInputSlot :=
  { descriptor := "s", kind := .file (some (.single { fileMetadataId := 9 })) none false }

def templateEnv : Kuintessence.Env := { sampleEnv [] with fileText := fun _ _ => some "#" }

def templateWorld : World := (World.start sampleIds sampleFiles).open (some 5)

def generate (fillCount : Nat) : Anyhow (List Input) × World :=
  getBatchInputs [] (numbered fillCount) templateSlot templateEnv templateWorld

theorem emptyDepot_blank (id : Uuid) : Blank id emptyDepot :=
  ⟨by simp [Uncached, emptyDepot], fun _ => rfl⟩

theorem generated_retrievable_sample :
    (∀ i ∈ [Input.file ⟨100, "out0", "0", 1⟩], ∃ f, i = .file f ∧ Retrievable templateEnv
      (run (step upEnv) (emptyDepot.shared (generate 1).2.files) [.deliver ⟨101, 5⟩]) f) ↔
        1 = 0 := by
  have hreturns : generate 1 = (.ok [.file ⟨100, "out0", "0", 1⟩], (generate 1).2) :=
    Prod.ext (by decide +kernel) rfl
  exact generated_retrievable_iff upEnv templateEnv rfl rfl hreturns
    (fun n => emptyDepot_blank _) (by simp [Request.handsIn])

theorem generated_lost :
    (generate 1).1 = .ok [.file ⟨100, "out0", "0", 1⟩] ∧ (generate 1).2.files.uploads = [(101, 5)] ∧
      ¬Retrievable templateEnv (run (step upEnv) (emptyDepot.shared (generate 1).2.files)
        [.deliver ⟨101, 5⟩]) ⟨100, "out0", "0", 1⟩ := by
  refine ⟨by decide +kernel, by decide +kernel, ?_⟩
  have hblank : Blank 100 (emptyDepot.shared (generate 1).2.files) :=
    ⟨(emptyDepot_blank 100).uncached, (emptyDepot_blank 100).objects⟩
  exact not_retrievable hblank (by simp [Request.handsIn])

end Samples

end Kuintessence.Storage
