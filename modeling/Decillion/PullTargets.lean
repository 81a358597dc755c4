import Decillion.PullResults

/-!
Pulls one after another into one destination. The directory of a model is the destination with
the identifier, in which a slash has become two underscores, so models whose identifiers are
written alike share a file, and the identifier of two dots leads out of the destination.
-/
namespace Decillion.PullTargets

open ByteText JsonValues JsonText JsonStrings Primitives PyErrors PyValues Dictionaries HostSystem
open AccessRequests ShardVault PathJoins RaisingPrograms TelepathNodes TelepathAnswers TelepathPulls
open PulledFiles ScriptedPeers PullRuns PullResults

section Names

theorem flatName_toList (modelId : String) : (flatName modelId).toList =
    modelId.toList.flatMap (fun c => if c = '/' then ['_', '_'] else [c]) := by
  rw [flatName, chars_eq, String.toList_ofList]

theorem flatName_noSlash (modelId : String) : '/' ∉ (flatName modelId).toList := by
  rw [flatName_toList, List.mem_flatMap]
  rintro ⟨c, -, hc⟩
  split at hc
  · exact absurd hc (by decide)
  · rename_i hne
    exact hne (List.mem_singleton.mp hc).symm

theorem flatName_ne_empty {modelId : String} (h : modelId ≠ "") : flatName modelId ≠ "" := by
  intro hempty
  have hlist := congrArg String.toList hempty
  rw [flatName_toList, String.toList_empty, List.flatMap_eq_nil_iff] at hlist
  apply h
  rw [← String.toList_inj, String.toList_empty]
  by_contra hne
  obtain ⟨c, rest, hcons⟩ := List.exists_cons_of_ne_nil hne
  have hfirst := hlist c (by rw [hcons]; exact List.mem_cons_self)
  split at hfirst
  · simp at hfirst
  · simp at hfirst

/-- The directory of a model is the destination itself or a directory in it. -/
theorem targetDirectory_eq {destination : Path} {modelId : String} (hempty : modelId ≠ "")
    (hdots : flatName modelId ≠ "..") :
    targetDirectory destination modelId =
      if flatName modelId = "." then destination else destination ++ [flatName modelId] := by
  split
  · rename_i hdot
    rw [targetDirectory, hdot]
    rfl
  · rename_i hdot
    exact locate_name destination _ (flatName_noSlash modelId) (flatName_ne_empty hempty) hdot hdots

theorem targetDirectory_inj {destination : Path} {a b : String} (ha : a ≠ "") (hb : b ≠ "")
    (hadots : flatName a ≠ "..") (hbdots : flatName b ≠ "..")
    (h : targetDirectory destination a = targetDirectory destination b) :
    flatName a = flatName b := by
  rw [targetDirectory_eq ha hadots, targetDirectory_eq hb hbdots] at h
  split at h
  · rename_i hdot
    split at h
    · rename_i hdot'
      rw [hdot, hdot']
    · simp at h
  · split at h
    · simp at h
    · simpa using h

theorem inside_targetDirectory (destination : Path) {modelId : String} (hempty : modelId ≠ "")
    (hdots : flatName modelId ≠ "..") : destination <+: targetDirectory destination modelId := by
  rw [targetDirectory_eq hempty hdots]
  split
  · exact List.prefix_refl _
  · exact List.prefix_append _ _

end Names

variable {σ F : Type} [FloatText F] [FloatTime F] [FloatNumber F] [FloatConversion F]

/-- A call of `pull_model` that has returned. -/
structure Pull (σ F : Type) where
  peer : String
  modelId : String
  before : World σ F
  result : Members F
  after : World σ F

variable (node : Node F) (network : Network σ) (machine : Machine) (destination : Path)

/-- The calls come one after another; between them only the files stay as they are. -/
def Chain : Files → List (Pull σ F) → Files → Prop
  | files, [], files' => files' = files
  | files, p :: rest, files' => p.before.files = files ∧
      pullModel node network machine p.peer p.modelId destination p.before =
        (.ok p.result, p.after) ∧
      Chain p.after.files rest files'

/-- `VaultStore.add_file` takes the identifier. -/
def Accepted (modelId : String) : Prop := modelId ≠ "" ∧ modelId.length ≤ 512

/-- The files of the calls are inside the destination, and the path that the latest pull of a
model has returned still leads to what this pull has stored. -/
def Kept (find : String → Path) (pulls : List (Pull σ F)) (files' : Files) : Prop :=
  (∀ p ∈ pulls, destination <+: targetFile destination p.modelId ∧
    destination <+: temporaryFile destination p.modelId) ∧
  ∀ earlier p later, pulls = earlier ++ p :: later → (∀ q ∈ later, q.modelId ≠ p.modelId) →
    ∃ text content, p.result.lookup "path" = some (.str text) ∧
      p.after.files (targetFile destination p.modelId) = some content ∧
      files' (find text) = some content

/-- The identifier is not written like another one or as two dots, and the peer sends no other
path. -/
def Plain (pulls : List (Pull σ F)) (p : Pull σ F) : Prop :=
  flatName p.modelId ≠ ".." ∧
  (∀ q ∈ pulls, flatName q.modelId = flatName p.modelId → q.modelId = p.modelId) ∧
  ∀ members w value, openSession node network p.peer p.modelId 1000000 3600 p.before =
    (.ok (.obj members), w) → members.lookup "path" = some value →
      value = .str (machine.spell (targetFile destination p.modelId))

theorem later_keeps {files files' : Files} {later : List (Pull σ F)} {path : Path}
    (hchain : Chain node network machine destination files later files')
    (hpath : ∀ q ∈ later, path ≠ targetFile destination q.modelId ∧
      path ≠ temporaryFile destination q.modelId) : files' path = files path := by
  induction later generalizing files with
  | nil => rw [hchain]
  | cons q rest ih =>
    obtain ⟨hbefore, hpull, hrest⟩ := hchain
    obtain ⟨_, _, _, _, _, _, -, -, -, -, -, -, -, hfiles⟩ :=
      pull_ok node network machine q.peer q.modelId destination hpull
    obtain ⟨htarget, htemporary⟩ := hpath q List.mem_cons_self
    rw [ih hrest (fun r hr => hpath r (List.mem_cons_of_mem _ hr)), hfiles,
      Function.update_of_ne htarget, Function.update_of_ne htemporary, hbefore]

theorem chain_append {files files' : Files} {earlier later : List (Pull σ F)}
    (h : Chain node network machine destination files (earlier ++ later) files') :
    ∃ files₁, Chain node network machine destination files₁ later files' := by
  induction earlier generalizing files with
  | nil => exact ⟨files, h⟩
  | cons p rest ih => exact ih h.2.2

/-- A model whose directory is not that of another one has its files to itself. -/
theorem apart {a b : String} (hdirectory : targetDirectory destination a ≠
    targetDirectory destination b) : targetFile destination a ≠ targetFile destination b ∧
      targetFile destination a ≠ temporaryFile destination b := by
  constructor
  · intro heq
    exact hdirectory (List.append_inj' heq rfl).1
  · intro heq
    exact absurd (List.append_inj' heq rfl).2 (by decide)

/-- Pulls of plain identifiers, one after another, keep out of each other's way. -/
theorem pulls_kept (find : String → Path) {files files' : Files} {pulls : List (Pull σ F)}
    (hfind : ∀ p ∈ pulls, find (machine.spell (targetFile destination p.modelId)) =
      targetFile destination p.modelId)
    (hchain : Chain node network machine destination files pulls files')
    (haccepted : ∀ p ∈ pulls, Accepted p.modelId)
    (hplain : ∀ p ∈ pulls, Plain node network machine destination pulls p) :
    Kept destination find pulls files' := by
  constructor
  · intro p hp
    have hinside := inside_targetDirectory destination (haccepted p hp).1
      (hplain p hp).1
    exact ⟨hinside.trans (List.prefix_append _ _), hinside.trans (List.prefix_append _ _)⟩
  · rintro earlier p later rfl hlatest
    have hp : p ∈ earlier ++ p :: later := by simp
    obtain ⟨hdots, hname, hpath⟩ := hplain p hp
    obtain ⟨files₁, _, hpull, hlater⟩ := chain_append node network machine destination hchain
    obtain ⟨initial, w₀, _, _, _, _, hopen, hcount, -⟩ :=
      pull_ok node network machine p.peer p.modelId destination hpull
    obtain ⟨members, rfl⟩ := obj_of_item hcount
    obtain ⟨content, hcontent, hlookup⟩ :=
      pull_lookup node network machine p.peer p.modelId destination hopen hpull
    have htext : p.result.lookup "path" =
        some (.str (machine.spell (targetFile destination p.modelId))) := by
      rw [hlookup]
      cases hmember : members.lookup "path" with
      | none => rfl
      | some value =>
        rw [hpath members w₀ value hopen hmember]
        rfl
    refine ⟨_, content, htext, hcontent, ?_⟩
    rw [hfind p hp, later_keeps node network machine destination hlater, hcontent]
    intro q hq
    have hmem : q ∈ earlier ++ p :: later := by simp [hq]
    apply apart
    intro heq
    exact hlatest q hq (hname q hmem (targetDirectory_inj (haccepted p hp).1
      (haccepted q hmem).1 hdots (hplain q hmem).1 heq).symm)

section Samples

theorem dots_mem : ".." ∈ sampleModels := List.mem_cons_of_mem _ List.mem_cons_self

theorem nothing_mem : ([] : Members WholeFloat) ∈ sampleExtras := List.mem_cons_self

/-- The pull of a model from the start. -/
def samplePull (modelId : String) (result : Members WholeFloat)
    (after : World (Script WholeFloat) WholeFloat) : Pull (Script WholeFloat) WholeFloat :=
  ⟨samplePeer.pub, modelId, sampleWorld samplePeer.pub (sampleScript []), result, after⟩

/-- A pull of a model of the peer, with the session it opens. -/
def Served (p : Pull (Script WholeFloat) WholeFloat) : Prop :=
  p.modelId ∈ sampleIds ∧
    openSession sampleClient sampleNetwork p.peer p.modelId 1000000 3600 p.before =
      (.ok (.obj (sessionMembers p.modelId)), asked p.before [])

/-- The models of the peer are pulled one after another, in any order and any number of times. -/
theorem sample_chain (ids : List String) (hids : ∀ modelId ∈ ids, modelId ∈ sampleIds)
    (files : Files) : ∃ pulls files',
      pulls.map (fun p => p.modelId) = ids ∧
      Chain sampleClient sampleNetwork sampleMachine ["d"] files pulls files' ∧
      ∀ p ∈ pulls, Served p := by
  induction ids generalizing files with
  | nil => exact ⟨[], files, rfl, rfl, fun _ hp => absurd hp List.not_mem_nil⟩
  | cons modelId rest ih =>
    have hmodel := hids modelId List.mem_cons_self
    let before : World (Script WholeFloat) WholeFloat :=
      { sampleWorld samplePeer.pub [] with files := files }
    have hstart := sample_holding modelId []
    have hholding : Holding modelId 0 before :=
      ⟨hstart.knows, hstart.limits, hstart.count, hstart.used, hstart.missing⟩
    obtain ⟨hopen, result, after, hpull, -⟩ := sample_returned hmodel hholding rfl
    obtain ⟨pulls, files', hnames, hchain, hserved⟩ :=
      ih (fun other hother => hids other (List.mem_cons_of_mem _ hother)) after.files
    refine ⟨⟨samplePeer.pub, modelId, before, result, after⟩ :: pulls, files', ?_,
      ⟨rfl, hpull, hchain⟩, ?_⟩
    · rw [List.map_cons, hnames]
    · rintro p hp
      rcases List.mem_cons.mp hp with rfl | hp
      · exact ⟨hmodel, hopen⟩
      · exact hserved p hp

theorem sampleIds_plain : ∀ modelId ∈ sampleIds, Accepted modelId ∧ flatName modelId ≠ ".." ∧
    (∀ other ∈ sampleIds, flatName other = flatName modelId → other = modelId) ∧
    locate [] (sampleMachine.spell (targetFile ["d"] modelId)) = targetFile ["d"] modelId := by
  unfold Accepted
  decide +kernel

/-- Two models are pulled, and the first one once more. -/
theorem pulls_kept_sample : ∃ pulls files',
    pulls.map (fun p => p.modelId) = ["m", "n", "m"] ∧
    Chain sampleClient sampleNetwork sampleMachine ["d"] (fun _ => none) pulls files' ∧
    Kept ["d"] (locate []) pulls files' := by
  obtain ⟨pulls, files', hnames, hchain, hserved⟩ :=
    sample_chain ["m", "n", "m"] (by decide) (fun _ => none)
  refine ⟨pulls, files', hnames, hchain, ?_⟩
  refine pulls_kept sampleClient sampleNetwork sampleMachine ["d"] (locate []) ?_ hchain ?_ ?_
  · intro p hp
    exact (sampleIds_plain p.modelId (hserved p hp).1).2.2.2
  · intro p hp
    exact (sampleIds_plain p.modelId (hserved p hp).1).1
  · intro p hp
    obtain ⟨hmodel, hopened⟩ := hserved p hp
    obtain ⟨-, hdots, hnames, -⟩ := sampleIds_plain p.modelId hmodel
    refine ⟨hdots, fun q hq => hnames q.modelId (hserved q hq).1, ?_⟩
    intro members w value hopen hvalue
    rw [hopened] at hopen
    obtain rfl := Json.obj.inj (Except.ok.inj (Prod.mk.inj hopen).1)
    have hnone : (sessionMembers p.modelId).lookup "path" = none := rfl
    rw [hnone] at hvalue
    cases hvalue

/-- Two dots are an identifier that is accepted; its file lies outside the destination. -/
theorem pulled_outside : ∃ result after,
    Chain sampleNode (scripted samplePeer noAnswer) sampleMachine ["d"] (fun _ => none)
      [samplePull ".." result after] after.files ∧
    Accepted ".." ∧ after.files ["model.bin"] ≠ none ∧
    ¬ Kept ["d"] (locate []) [samplePull ".." result after] after.files := by
  have htarget : targetFile ["d"] ".." = ["model.bin"] := by decide
  have houtside : ¬ ["d"] <+: targetFile ["d"] ".." := by decide
  obtain ⟨result, after, hpull⟩ := sample_pulled dots_mem nothing_mem
  refine ⟨result, after, ⟨rfl, hpull, rfl⟩, ⟨by decide, by decide⟩, ?_, ?_⟩
  · obtain ⟨content, hcontent, -⟩ :=
      pull_lookup _ _ _ _ _ _ (sample_opened dots_mem nothing_mem) hpull
    rw [← htarget, hcontent]
    simp
  · rintro ⟨hinside, -⟩
    exact houtside (hinside _ List.mem_cons_self).1

end Samples

end Decillion.PullTargets
