import ImagePush.Proofs.Artifact.Nesting
import ImagePush.Proofs.Push.Shapes

/-!
# Artifacts that are stored before they are pushed

An artifact that is written to a file and read back carries the normal forms of its values. Their shapes may differ
from those that were written, but the tags that they list are the same, and so are the data up to normal forms,
unless these were pairs (`tagsOf_norm`, `dataOf_norm`). Hence the image that is read back is pushed as the one that
was written (`stored_then_pushed`).
-/

namespace ImagePush

/-! ### Normal forms in the image state -/

namespace ImageState

open StateValue (ofItems)

/-- The strings of a list do not depend on its constructor. -/
theorem tagsOf_ofItems (vs : List StateValue) : tagsOf (ofItems vs) = vs.filterMap StateValue.string? := by
  rcases StateValue.ofItems_cases vs with ⟨texts, rfl, heq⟩ | ⟨-, heq⟩
  · rw [heq, List.filterMap_map]
    exact (List.filterMap_some (l := texts)).symm
  · rw [heq]
    rfl

theorem dataOf_ofItems (vs : List StateValue) : dataOf (ofItems vs) = [] := by
  rcases StateValue.ofItems_cases vs with ⟨texts, -, heq⟩ | ⟨-, heq⟩ <;>
  · rw [heq]
    rfl

/-- **The normal form of a value lists the same tags.** -/
theorem tagsOf_norm (v : StateValue) : tagsOf v.norm = tagsOf v := by
  cases v with
  | unsigned n => rw [StateValue.norm]; split <;> rfl
  | float x => rw [StateValue.norm]; split <;> rfl
  | list vs =>
    rw [StateValue.norm, tagsOf_ofItems, StateValue.normItems_eq, List.filterMap_map]
    exact List.filterMap_congr fun v _ => StateValue.string?_norm v
  | entries ps =>
    -- A pair is read back as a list of two, which is no tag.
    rw [StateValue.norm_entries, tagsOf_ofItems, StateValue.normPairs_eq, List.filterMap_map]
    exact List.filterMap_eq_nil_iff.2 fun p _ => StateValue.string?_ofItems _
  | _ => rfl

/-- **The normal form of a value stands for the normal forms of its data**, unless the value is pairs. -/
theorem dataOf_norm {v : StateValue} (hentries : ∀ ps, v ≠ .entries ps) :
    dataOf v.norm = (dataOf v).mapValues StateValue.norm := by
  cases v with
  | unsigned n => rw [StateValue.norm]; split <;> rfl
  | float x => rw [StateValue.norm]; split <;> rfl
  | list vs => exact dataOf_ofItems _
  | map ms => exact StateValue.normMembers_eq ms
  | entries ps => exact absurd rfl (hentries ps)
  | _ => rfl

/-- Pairs stand for no data once they are read back as a list. -/
theorem dataOf_norm_entries (ps : List (StateValue × StateValue)) : dataOf (StateValue.entries ps).norm = [] := by
  rw [StateValue.norm_entries, dataOf_ofItems]

end ImageState

namespace Artifact

theorem value?_norm (a : Artifact) (k : String) : a.norm.value? k = (a.value? k).map StateValue.norm :=
  KeyMap.get?_mapValues StateValue.norm k a.state

end Artifact

/-! ### Pushes of images with the same names -/

namespace Push

variable {m : Type → Type} [Monad m] [LawfulMonad m] {α : Type}

/-- Whether a step succeeds, and how it fails. -/
def settled (step : m (Outcome α)) : m (Outcome Unit) :=
  (·.map fun _ => ()) <$> step

/-- A session takes no notice of what a step within it gives. -/
theorem settled_withinSession (p : Peers m) (server : String) (step : m (Outcome α)) :
    settled (withinSession p server step) = withinSession p server (settled step) := by
  unfold withinSession settled
  simp only [map_bind, bind_map_left]
  refine bind_congr fun outcome => ?_
  cases outcome with
  | ok a =>
    refine (map_bind _ _ _).trans (bind_congr fun closed => ?_)
    cases closed <;> exact map_pure _ _
  | error halt =>
    cases halt with
    | failed e =>
      refine (map_bind _ _ _).trans (bind_congr fun closed => ?_)
      cases closed <;> exact map_pure _ _
    | abandoned => exact (map_bind _ _ _).trans (bind_congr fun _ => map_pure _ _)

/-- A scratch directory takes no notice of what a step with it gives. -/
theorem settled_withScratch (w : Workplace m) (step : Directory → m (Outcome α)) :
    settled (withScratch w step) = withScratch w fun dir => settled (step dir) := by
  unfold withScratch settled
  refine (map_bind _ _ _).trans (bind_congr fun _ => (map_bind _ _ _).trans (bind_congr fun made => ?_))
  cases made with
  | error e => exact map_pure _ _
  | ok dir =>
    simp only [map_bind, bind_map_left]
    refine bind_congr fun outcome => ?_
    cases outcome with
    | ok a => exact (map_bind _ _ _).trans (bind_congr fun _ => map_pure _ _)
    | error halt =>
      cases halt with
      | failed e => exact (map_bind _ _ _).trans (bind_congr fun _ => map_pure _ _)
      | abandoned => exact (map_bind _ _ _).trans (bind_congr fun _ => map_pure _ _)

section

variable {a b : Artifact} (hid : a.id = b.id)
  (htags : (ImageState.ofArtifact a).tags = (ImageState.ofArtifact b).tags)
include hid htags

theorem settled_pushArtifact (p : Peers m) (platform : String) :
    settled (pushArtifact p platform a) = settled (pushArtifact p platform b) := by
  unfold pushArtifact settled
  simp only [ImageState.names, hid, htags, map_bind]
  refine bind_congr fun _ => bind_congr fun pushes => ?_
  cases pushes with
  | error h => rfl
  | ok _ =>
    simp only [map_bind]
    refine bind_congr fun lookup => ?_
    cases lookup with
    | error h => rfl
    | ok digest => simp [Except.map]

theorem settled_loginAndPush (p : Peers m) (c : Config) :
    settled (loginAndPush p c a) = settled (loginAndPush p c b) := by
  have hpush := settled_pushArtifact hid htags p c.platform
  by_cases hwants : c.wantsLogin
  · simp only [loginAndPush, if_pos hwants]
    unfold settled
    simp only [map_bind]
    refine bind_congr fun given => ?_
    cases given with
    | error h => rfl
    | ok given =>
      simp only [map_bind]
      refine bind_congr fun opened => ?_
      cases opened with
      | error h => rfl
      | ok _ =>
        show settled (withinSession _ _ _) = settled (withinSession _ _ _)
        rw [settled_withinSession, settled_withinSession, hpush]
  · simp only [loginAndPush, if_neg hwants, hpush]

/-- **Images of the same step with the same id and the same tags are pushed alike**: the same is asked and told,
and it ends the same way. Their data only count for what is handed on. -/
theorem settled_run (w : Workplace m) (own : Bool) (c : Config) (hbuilder : a.builderId = b.builderId) :
    settled (run w own c a) = settled (run w own c b) := by
  have himage : a.isImage = b.isImage := by rw [Artifact.isImage, hbuilder, ← Artifact.isImage]
  have hpush := fun dir => settled_loginAndPush hid htags (w.peers dir) c
  unfold run
  rw [himage, hbuilder]
  by_cases hknown : b.isImage
  · cases own with
    | true => simp [hknown, settled_withScratch, hpush]
    | false => simp [hknown, hpush]
  · simp [hknown]

end

end Push

/-! ### What is read back -/

/-- An artifact and what is read back of it. -/
structure ReadBack (a b : Artifact) : Prop where
  builderId_eq : b.builderId = a.builderId
  id_eq : b.id = a.id
  files_eq : b.files = a.files
  keys_eq : b.state.map Prod.fst = a.state.map Prod.fst
  tags_eq : (ImageState.ofArtifact b).tags = (ImageState.ofArtifact a).tags
  names_eq : (ImageState.ofArtifact b).names b.id = (ImageState.ofArtifact a).names a.id
  data_eq : (∀ ps, a.value? Artifact.dataKey ≠ some (.entries ps)) →
    (ImageState.ofArtifact b).data = (ImageState.ofArtifact a).data.mapValues StateValue.norm
  /-- Data that were kept as pairs are lost. -/
  data_eq_nil : ∀ ps, a.value? Artifact.dataKey = some (.entries ps) → (ImageState.ofArtifact b).data = []

theorem tags_ofArtifact_norm (a : Artifact) :
    (ImageState.ofArtifact a.norm).tags = (ImageState.ofArtifact a).tags := by
  simp only [ImageState.ofArtifact, Artifact.value?_norm, Option.map_map, Function.comp_def, ImageState.tagsOf_norm]

theorem data_ofArtifact_norm {a : Artifact} (hentries : ∀ ps, a.value? Artifact.dataKey ≠ some (.entries ps)) :
    (ImageState.ofArtifact a.norm).data = (ImageState.ofArtifact a).data.mapValues StateValue.norm := by
  simp only [ImageState.ofArtifact, Artifact.value?_norm]
  cases hkept : a.value? Artifact.dataKey with
  | none => rfl
  | some v => exact ImageState.dataOf_norm fun ps hv => hentries ps (by rw [hkept, hv])

theorem readBack_norm (a : Artifact) : ReadBack a a.norm where
  builderId_eq := rfl
  id_eq := rfl
  files_eq := rfl
  keys_eq := by simp [Artifact.norm, Function.comp_def]
  tags_eq := tags_ofArtifact_norm a
  names_eq := congrArg (a.id :: ·) (tags_ofArtifact_norm a)
  data_eq := data_ofArtifact_norm
  data_eq_nil := by
    intro ps hkept
    simp [ImageState.ofArtifact, Artifact.value?_norm, hkept, ImageState.dataOf_norm_entries]

/-- **Storing an artifact does not change what is pushed.** An artifact in which no finite double occurs is read back
from its file with the same tags and with the normal forms of its data, and is pushed as before, unless it is
nested deeper than the reader allows, when it is refused. -/
theorem stored_then_pushed :
    (∀ a : Artifact, KeyMap.Sorted a.state → (∀ p ∈ a.state, p.2.Ordered) → (∀ p ∈ a.state, p.2.NoFiniteFloat) →
      a.toJson.depth ≤ Json.maxDepth →
      ∃ b, Artifact.ofBytes a.toBytes = .ok b ∧ ReadBack a b ∧
        ∀ {m : Type → Type} [Monad m] [LawfulMonad m] (w : Push.Workplace m) (own : Bool) (c : Config),
          Push.settled (Push.run w own c b) = Push.settled (Push.run w own c a)) ∧
    ∀ a : Artifact, Json.maxDepth < a.toJson.depth → ∃ e, Artifact.ofBytes a.toBytes = .error (.text e) := by
  refine ⟨fun a hsorted hordered hfloat hdepth => ?_, fun a => Artifact.ofBytes_toBytes_error⟩
  have hread := Artifact.ofBytes_toBytes ⟨hsorted, hordered, hfloat, Artifact.depth_toJson_le.1 hdepth⟩
  have hback := readBack_norm a
  refine ⟨a.norm, hread, hback, ?_⟩
  intro m _ _ w own c
  exact Push.settled_run hback.id_eq hback.tags_eq w own c hback.builderId_eq

/-- An artifact of which every value is read back in another shape. -/
def shifting : Artifact where
  builderId := Artifact.importBuilder
  id := "app"
  state :=
    [(Artifact.tagsKey, .list [.string "v1", .entries [(.string "a", .string "b")], .string "v2"]),
      (Artifact.dataKey, .map [("Labels", .list [.string "x"]), ("Size", .unsigned 5)])]

/-- Null within some lists. -/
def boxed : Nat → StateValue
  | 0 => .null
  | n + 1 => .list [boxed n]

/-- An artifact with a value within some lists. -/
def boxing (n : Nat) : Artifact where
  builderId := Artifact.importBuilder
  id := "app"
  state := [("deep", boxed n)]

theorem depth_boxed (n : Nat) : (boxed n).toJson.depth = n := by
  induction n with
  | zero => rfl
  | succ n ih => simp [boxed, StateValue.toJson, StateValue.toJsonItems, Json.depth, Json.depthOfItems, ih]

/-- The record and its state take a level each. -/
theorem depth_boxing (n : Nat) : (boxing n).toJson.depth = n + 2 := by
  simp [Artifact.toJson, boxing, StateValue.toJsonMembers, Json.depth, Json.depthOfMembers, depth_boxed]

theorem stored_then_pushed_shifting :
    (∃ b, Artifact.ofBytes shifting.toBytes = .ok b ∧ ReadBack shifting b ∧
      (ImageState.ofArtifact b).tags = ["v1", "v2"] ∧
      (ImageState.ofArtifact b).data = [("Labels", .strings ["x"]), ("Size", .integer 5)]) ∧
    ∃ e, Artifact.ofBytes (boxing 126).toBytes = .error (.text e) := by
  have hsorted : KeyMap.Sorted shifting.state := List.pairwise_pair.2 (by decide)
  have hdata : KeyMap.Sorted [("Labels", StateValue.list [.string "x"]), ("Size", .unsigned 5)] :=
    List.pairwise_pair.2 (by decide)
  have hordered : ∀ p ∈ shifting.state, p.2.Ordered := by
    simp [shifting, StateValue.Ordered, StateValue.Everywhere, StateValue.EverywhereInItems,
      StateValue.EverywhereInMembers, StateValue.EverywhereInPairs, StateValue.KeysIncrease, hdata]
  have hfloat : ∀ p ∈ shifting.state, p.2.NoFiniteFloat := by
    simp [shifting, StateValue.NoFiniteFloat, StateValue.Everywhere, StateValue.EverywhereInItems,
      StateValue.EverywhereInMembers, StateValue.EverywhereInPairs, StateValue.NotFinite]
  obtain ⟨b, hread, hback, -⟩ := stored_then_pushed.1 shifting hsorted hordered hfloat (by decide)
  have hmap : ∀ ps, shifting.value? Artifact.dataKey ≠ some (.entries ps) := fun ps => by
    show some (StateValue.map _) ≠ _
    simp
  have hdeep : Json.maxDepth < (boxing 126).toJson.depth := by
    rw [depth_boxing]
    decide
  refine ⟨⟨b, hread, hback, ?_, ?_⟩, stored_then_pushed.2 (boxing 126) hdeep⟩
  · rw [hback.tags_eq]
    rfl
  · rw [hback.data_eq hmap]
    rfl

end ImagePush
