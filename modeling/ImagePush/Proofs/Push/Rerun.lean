import ImagePush.Proofs.Artifact.RoundTrip
import ImagePush.Proofs.Push.Merge

/-!
# Pushing again through files

A successful push gives a record, which is written to a file and may be pushed again from there, any number
of times. Every such file is read as the record that was written. All runs push the same names, and apart
from the digest of the latest run the data of the image stay what they were in the first file
(`rerun_through_files`). What a run preserves is that the record still carries the image of the first one
(`Carries`).
-/

namespace ImagePush.Push

/-! ### Runs on files -/

/-- A run on the record in a file: how it is made, the record, and what comes of it. -/
structure Pass where
  script : Script
  ownScratch : Bool
  config : Config
  /-- What happened before the run. -/
  before : History
  artifact : Artifact
  events : History
  result : Pushed

namespace Pass

/-- The questions of the run with the answers. -/
def log (x : Pass) : List Reply :=
  x.script.replies x.before x.events

/-- The record of the pushed image. -/
def record (x : Pass) : Artifact :=
  x.result.image.record

/-- The run reads its record from the content of a file, and it succeeds. -/
structure Succeeds (x : Pass) (content : List UInt8) : Prop where
  reads : Artifact.ofBytes content = .ok x.artifact
  runs : x.script.run x.ownScratch x.config x.artifact x.before = (.ok x.result, x.before ++ x.events)

end Pass

/-- Successful runs of which the first one reads the content of a file, and each other one the file that the
one before wrote. -/
def Chain : List UInt8 → List Pass → Prop
  | _, [] => True
  | content, x :: xs => x.Succeeds content ∧ Chain x.record.toBytes xs

/-! ### The image in a file -/

/-- The strings that a record lists as its tags. -/
def tagsIn (a : Artifact) : List String :=
  match a.value? Artifact.tagsKey with
  | some (.strings tags) => tags
  | some (.list vs) => vs.filterMap StateValue.string?
  | _ => []

/-- The members of the object that a record has as its data. -/
def dataIn (a : Artifact) : KeyMap StateValue :=
  match a.value? Artifact.dataKey with
  | some (.map members) => members
  | _ => []

/-- Data as they are read: in order, of normal values that are nested no deeper than a record allows. -/
structure LoadedData (data : KeyMap StateValue) : Prop where
  sorted : KeyMap.Sorted data
  normal : ∀ p ∈ data, p.2.Normal
  ordered : ∀ p ∈ data, p.2.Ordered
  depth_le : ∀ p ∈ data, p.2.toJson.depth + 1 ≤ Artifact.valueDepth

/-- Data as they are read and written: there are no finite doubles in them either. -/
structure SteadyData (data : KeyMap StateValue) : Prop extends LoadedData data where
  noFiniteFloat : ∀ p ∈ data, p.2.NoFiniteFloat

/-- A record that carries the image of the first one: it is as well known, the names are the same, and so
are the data but for the digest. -/
structure Carries (first a : Artifact) : Prop where
  image : a.isImage = true
  id_eq : a.id = first.id
  tags_eq : (ImageState.ofArtifact a).tags = tagsIn first
  data_eq : ∀ k, k ≠ ImageState.digestKey → (ImageState.ofArtifact a).data.get? k = (dataIn first).get? k
  steady : SteadyData (ImageState.ofArtifact a).data

theorem loadedData_nil : LoadedData [] :=
  ⟨.nil, by simp, by simp, by simp⟩

/-- What holds of all data and of a string holds when the string has joined them. -/
theorem forall_insert_string {P : StateValue → Prop} {data : KeyMap StateValue} {k text : String}
    (hdata : ∀ p ∈ data, P p.2) (hstring : P (.string text)) : ∀ p ∈ data.insert k (.string text), P p.2 := by
  intro p hp
  rcases KeyMap.mem_insert hp with rfl | hp
  · exact hstring
  · exact hdata p hp

theorem LoadedData.insert_string {data : KeyMap StateValue} (hdata : LoadedData data) (k text : String) :
    LoadedData (data.insert k (.string text)) where
  sorted := hdata.sorted.insert k _
  normal := forall_insert_string hdata.normal trivial
  ordered := forall_insert_string hdata.ordered trivial
  depth_le := by
    refine forall_insert_string (P := fun v => v.toJson.depth + 1 ≤ Artifact.valueDepth) hdata.depth_le ?_
    show 1 ≤ Artifact.valueDepth
    decide

theorem SteadyData.insert_string {data : KeyMap StateValue} (hdata : SteadyData data) (k text : String) :
    SteadyData (data.insert k (.string text)) :=
  ⟨hdata.toLoadedData.insert_string k text, forall_insert_string hdata.noFiniteFloat trivial⟩

theorem tags_ofArtifact (a : Artifact) : (ImageState.ofArtifact a).tags = tagsIn a := by
  unfold tagsIn ImageState.ofArtifact
  cases a.value? Artifact.tagsKey with
  | none => rfl
  | some v => cases v <;> rfl

/-- What is read as the data of an image is what the record has as an object. -/
theorem data_ofArtifact {a : Artifact} (ha : Artifact.LoadedState a.state) :
    (ImageState.ofArtifact a).data = dataIn a := by
  unfold dataIn ImageState.ofArtifact
  cases hvalue : a.value? Artifact.dataKey with
  | none => rfl
  | some v =>
    cases v with
    | entries ps =>
      -- pairs are never read
      exact absurd (StateValue.everywhere_entries.1 (ha.normal _ (KeyMap.mem_of_get? hvalue))).1 id
    | _ => rfl

/-- The data of a record that is read are as they are read themselves. -/
theorem loadedData_ofArtifact {a : Artifact} (ha : Artifact.LoadedState a.state) :
    LoadedData (ImageState.ofArtifact a).data := by
  rw [data_ofArtifact ha]
  unfold dataIn
  split
  · next members hvalue =>
    have hmem := KeyMap.mem_of_get? hvalue
    have hnormal := StateValue.everywhere_map.1 (ha.normal _ hmem)
    have hordered := StateValue.everywhere_map.1 (ha.ordered _ hmem)
    have hdepth : (StateValue.map members).toJson.depth ≤ 124 + 1 := ha.depth_le _ hmem
    rw [StateValue.toJson, StateValue.toJsonMembers_eq, Json.depth_object_le] at hdepth
    refine ⟨hordered.1, hnormal.2, hordered.2, fun p hp => ?_⟩
    exact Nat.succ_le_succ (hdepth (p.1, p.2.toJson) (List.mem_map_of_mem hp))
  · exact loadedData_nil

/-- A record that is read carries the image it is read with. -/
theorem carries_self {a : Artifact} (ha : Artifact.LoadedState a.state) (himage : a.isImage = true)
    (hfloat : ∀ v, a.value? Artifact.dataKey = some v → v.NoFiniteFloat) : Carries a a := by
  have hdata := data_ofArtifact ha
  refine ⟨himage, rfl, tags_ofArtifact a, fun k _ => by rw [hdata], loadedData_ofArtifact ha, ?_⟩
  rw [hdata]
  unfold dataIn
  split
  · next members hvalue => exact (StateValue.everywhere_map.1 (hfloat _ hvalue)).2
  · simp

section

variable (dir : Option Directory) (a : Artifact) (digest : String)

/-- What holds of lists of strings and of the data with the digest holds of the state of a pushed image. -/
theorem forall_state_pushed {P : StateValue → Prop} (hstrings : ∀ tags, P (.strings tags))
    (hmap : P (.map ((ImageState.ofArtifact a).data.insert ImageState.digestKey (.string digest)))) :
    ∀ p ∈ (pushed dir a digest).image.record.state, P p.2 := by
  rw [state_pushed]
  exact List.forall_mem_cons.2 ⟨hstrings _, List.forall_mem_singleton.2 hmap⟩

/-- The record of a pushed image survives its text if the data of the image were read, and if no finite double
is left in it. -/
theorem storable_pushed (hdata : LoadedData (ImageState.ofArtifact a).data)
    (hfloat : ∀ p ∈ (pushed dir a digest).image.record.state, p.2.NoFiniteFloat) :
    (pushed dir a digest).image.record.Storable := by
  have hinserted := hdata.insert_string ImageState.digestKey digest
  refine ⟨KeyMap.sorted_ofList _, forall_state_pushed dir a digest (fun _ => trivial) ?_, hfloat,
    forall_state_pushed dir a digest (P := fun v => v.toJson.depth ≤ Artifact.valueDepth) (fun tags => ?_) ?_⟩
  · exact StateValue.everywhere_map.2 ⟨hinserted.sorted, hinserted.ordered⟩
  · have hdepth : (StateValue.strings tags).toJson.depth ≤ 0 + 1 := by
      rw [StateValue.toJson, Json.depth_array_le]
      intro v hv
      obtain ⟨t, -, rfl⟩ := List.mem_map.1 hv
      exact Nat.le_refl 0
    exact Nat.le_trans hdepth (by decide)
  · show _ ≤ 124 + 1
    rw [StateValue.toJson, StateValue.toJsonMembers_eq, Json.depth_object_le]
    intro m hm
    obtain ⟨p, hp, rfl⟩ := List.mem_map.1 hm
    exact Nat.le_of_succ_le_succ (hinserted.depth_le p hp)

end

section

variable {first a : Artifact} (hcarries : Carries first a) (dir : Option Directory) (digest : String)

include hcarries

theorem Carries.next : Carries first (pushed dir a digest).image.record := by
  have hstate := ofArtifact_pushed dir a digest
  refine ⟨rfl, hcarries.id_eq, ?_, fun k hk => ?_, ?_⟩
  · rw [hstate]
    exact hcarries.tags_eq
  · rw [hstate]
    exact (KeyMap.get?_insert_of_ne hk _ _).trans (hcarries.data_eq k hk)
  · rw [hstate]
    exact hcarries.steady.insert_string _ _

/-- The record of a pushed image is read back from its file as it was written. -/
theorem Carries.ofBytes_pushed :
    Artifact.ofBytes (pushed dir a digest).image.record.toBytes = .ok (pushed dir a digest).image.record := by
  have hsteady := hcarries.steady.insert_string ImageState.digestKey digest
  have hfloat : ∀ p ∈ (pushed dir a digest).image.record.state, p.2.NoFiniteFloat :=
    forall_state_pushed dir a digest (fun _ => trivial)
      (StateValue.everywhere_map.2 ⟨trivial, hsteady.noFiniteFloat⟩)
  rw [Artifact.ofBytes_toBytes (storable_pushed dir a digest hcarries.steady.toLoadedData hfloat)]
  refine congrArg Except.ok (Artifact.norm_eq (forall_state_pushed dir a digest (fun _ => trivial) ?_))
  exact StateValue.everywhere_map.2 ⟨trivial, hsteady.normal⟩

end

/-! ### Chains of runs -/

/-- What holds of a successful run whose record carries the image of the first one. -/
structure Steady (first : Artifact) (x : Pass) : Prop where
  /-- The file that is written is read as the record. -/
  readable : Artifact.ofBytes x.record.toBytes = .ok x.record
  image : x.record.isImage = true
  /-- The names of the first record are pushed, in order. -/
  pushes_eq : pushes x.log = takenNames x.config.platform (first.id :: tagsIn first)
  id_eq : x.record.id = first.id
  files_eq : x.record.files = []
  tags_eq : x.record.value? Artifact.tagsKey = some (.strings (tagsIn first))
  /-- The data are those of the first record, with the digest that the run was told. -/
  data_eq : ∃ (data : KeyMap StateValue) (answer : Outcome String),
    x.record.value? Artifact.dataKey = some (.map data) ∧
    (∀ k, k ≠ ImageState.digestKey → data.get? k = (dataIn first).get? k) ∧
    lookups x.log = [(first.id, answer)] ∧ data.get? ImageState.digestKey = some (.string (told answer))

theorem Carries.steady_of_runs {first : Artifact} {x : Pass} (hcarries : Carries first x.artifact)
    (hruns : x.script.run x.ownScratch x.config x.artifact x.before = (.ok x.result, x.before ++ x.events)) :
    Steady first x ∧ Carries first x.record := by
  obtain ⟨es, hes, hcourse⟩ := run_course x.script hruns (by simp)
  obtain rfl : x.events = es := List.append_cancel_left hes
  obtain ⟨dir, answer, hresult, hlookups⟩ := hcourse.pushed_eq
  have hnames : namesOf x.artifact = first.id :: tagsIn first := by
    rw [namesOf, hcarries.tags_eq, hcarries.id_eq]
  have hrecord : x.record = (pushed dir x.artifact (told answer)).image.record := by rw [Pass.record, hresult]
  have hnext := hcarries.next dir (told answer)
  rw [← hrecord] at hnext
  refine ⟨⟨?_, hnext.image, ?_, hnext.id_eq, ?_, ?_, ?_⟩, hnext⟩
  · rw [hrecord]
    exact hcarries.ofBytes_pushed dir (told answer)
  · rw [← hnames]
    exact (hcourse.ok_iff.1 ⟨x.result, rfl⟩).pushes_eq
  · rw [hrecord]
    rfl
  · rw [hrecord, Artifact.value?, state_pushed, hcarries.tags_eq]
    rfl
  · refine ⟨(ImageState.ofArtifact x.artifact).data.insert ImageState.digestKey (.string (told answer)),
      answer, ?_, fun k hk => ?_, ?_, KeyMap.get?_insert_self _ _ _⟩
    · rw [hrecord, Artifact.value?, state_pushed]
      rfl
    · rw [KeyMap.get?_insert_of_ne hk]
      exact hcarries.data_eq k hk
    · rw [← hcarries.id_eq]
      exact hlookups

/-- Every run of a chain whose first record carries the image is steady. -/
theorem steady_of_chain {first : Artifact} (passes : List Pass) :
    ∀ {content : List UInt8} {a : Artifact}, Artifact.ofBytes content = .ok a → Carries first a →
      Chain content passes → ∀ x ∈ passes, Steady first x := by
  induction passes with
  | nil =>
    intro content a _ _ _ x hx
    cases hx
  | cons x xs ih =>
    rintro content a hread hcarries ⟨⟨hreads, hruns⟩, hchain⟩
    obtain rfl : x.artifact = a := Except.ok.inj (hreads.symm.trans hread)
    obtain ⟨hsteady, hnext⟩ := hcarries.steady_of_runs hruns
    exact List.forall_mem_cons.2 ⟨hsteady, ih hsteady.readable hnext hchain⟩

/-- **An image may be pushed again through files any number of times.** If a file holds a known image without
finite doubles in its data, then after each of any number of successful runs the file that is written is read
again as a known image, the names that were pushed are those of the first file, and the record has the id, the
tags and the data of the first file, with the digest that this run was told. -/
theorem rerun_through_files {content : List UInt8} {a : Artifact} (hread : Artifact.ofBytes content = .ok a)
    (himage : a.isImage = true) (hfloat : ∀ v, a.value? Artifact.dataKey = some v → v.NoFiniteFloat)
    {passes : List Pass} (hchain : Chain content passes) : ∀ x ∈ passes, Steady a x :=
  steady_of_chain passes hread (carries_self (Artifact.loadedState_of_ofBytes hread) himage hfloat) hchain

/-- A record with a digest of long ago, and a tag that is no string. -/
def tagged : Artifact where
  builderId := Artifact.tagBuilder
  id := "sha256:1"
  state :=
    [(Artifact.tagsKey, .list [.string "a", .null]),
      (Artifact.dataKey, .map [("Digest", .string "old"), ("Size", .unsigned 9223372036854775808)])]

/-- A run on the record, which is told a digest. -/
def firstPass : Pass where
  script := willing (.ok "sha256:2")
  ownScratch := false
  config := {}
  before := []
  artifact := tagged
  events := headline tagged :: pushEvents none "" ["sha256:1", "a"] ++ [.request none (.digest "sha256:1")]
  result := pushed none tagged "sha256:2"

/-- A run on what the first one wrote, which is told nothing. -/
def secondPass : Pass where
  script := willing (.error (.failed (.io .notText)))
  ownScratch := false
  config := {}
  before := firstPass.events
  artifact := firstPass.record
  events := headline firstPass.record :: pushEvents none "" ["sha256:1", "a"] ++
    [.request none (.digest "sha256:1"),
      .notice (.message "Unable to determine digest for source image, ignoring it for now")]
  result := pushed none firstPass.record ""

theorem rerun_through_files_twice :
    Artifact.ofBytes tagged.toBytes = .ok tagged ∧ Chain tagged.toBytes [firstPass, secondPass] ∧
      Steady tagged secondPass := by
  have hstorable : tagged.Storable := by
    have hkeys : Artifact.tagsKey < Artifact.dataKey := by decide
    have hdata : KeyMap.Sorted
        [("Digest", StateValue.string "old"), ("Size", .unsigned 9223372036854775808)] :=
      List.pairwise_pair.2 (by decide)
    refine ⟨List.pairwise_pair.2 hkeys, ?_, ?_, ?_⟩
    · simp [tagged, StateValue.Ordered, StateValue.Everywhere, StateValue.EverywhereInItems,
        StateValue.EverywhereInMembers, StateValue.KeysIncrease, hdata]
    · simp [tagged, StateValue.NoFiniteFloat, StateValue.Everywhere, StateValue.EverywhereInItems,
        StateValue.EverywhereInMembers, StateValue.NotFinite]
    · decide
  have hfloat : ∀ v, tagged.value? Artifact.dataKey = some v → v.NoFiniteFloat := fun v hv =>
    hstorable.noFiniteFloat _ (KeyMap.mem_of_get? hv)
  have hread : Artifact.ofBytes tagged.toBytes = .ok tagged := Artifact.ofBytes_toBytes hstorable
  have hcarries := carries_self (Artifact.loadedState_of_ofBytes hread) rfl hfloat
  have hchain : Chain tagged.toBytes [firstPass, secondPass] :=
    ⟨⟨hread, rfl⟩, ⟨hcarries.ofBytes_pushed none "sha256:2", rfl⟩, trivial⟩
  exact ⟨hread, hchain, rerun_through_files hread rfl hfloat hchain secondPass (by simp)⟩

end ImagePush.Push
