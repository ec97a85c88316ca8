import ImagePush.Proofs.KeyMap
import ImagePush.Proofs.Push.Outcome

/-!
# The image that a push hands on

A push that succeeds hands on the image under the name of the importing step, with the tags it was pushed under
and with its data, among which the digest that the engine told takes the place of any other one. Nothing else of
the artifact is carried over (`hands_on_what_was_pushed`). What is handed on stands for the image state of the
artifact with this digest (`ofArtifact_pushed`).
-/

namespace ImagePush

namespace ImageState

/-- The image state that named values stand for, whoever carries them. -/
def ofValues (value? : String → Option StateValue) : ImageState where
  tags := ((value? Artifact.tagsKey).map tagsOf).getD []
  data := ((value? Artifact.dataKey).map dataOf).getD []

theorem ofArtifact_eq (a : Artifact) : ofArtifact a = ofValues a.value? := rfl

/-- The state of an image has the tags and the data under their names, and nothing else. -/
theorem toState_eq (s : ImageState) :
    s.toState = [(Artifact.tagsKey, .strings s.tags), (Artifact.dataKey, .map s.data)] := by
  have hkeys : Artifact.tagsKey < Artifact.dataKey := by decide
  exact KeyMap.ofList_of_sorted (List.pairwise_pair.2 hkeys)

/-- An image state is what the values of its state stand for. -/
theorem ofValues_toState (s : ImageState) : ofValues s.toState.get? = s := by
  have hkeys : Artifact.tagsKey ≠ Artifact.dataKey := by decide
  rw [toState_eq]
  simp [ofValues, KeyMap.get?, hkeys, tagsOf, dataOf]

end ImageState

namespace Push

/-! ### The digest of a push -/

/-- The image whose digest was looked up in a reply, and the answer. -/
def Reply.lookup? : Reply → Option (String × Outcome String)
  | .request _ (.digest id) answer => some (id, answer)
  | _ => none

/-- The images whose digests were looked up, each with the answer, in order. -/
def lookups (log : List Reply) : List (String × Outcome String) :=
  log.filterMap Reply.lookup?

/-- The digest of an image, or the empty string if the engine does not tell. -/
def told : Outcome String → String
  | .ok digest => digest
  | .error _ => ""

theorem lookups_append (l₁ l₂ : List Reply) : lookups (l₁ ++ l₂) = lookups l₁ ++ lookups l₂ :=
  List.filterMap_append

section

variable {dir : Option Directory} {c : Config} {a : Artifact} {p : Pushed} {es : History} {log : List Reply}

theorem ArtifactCourse.pushed_eq {platform : String}
    (hcourse : ArtifactCourse dir platform a (.ok p) es log) :
    ∃ answer, p = Push.pushed dir a (told answer) ∧ lookups log = [(a.id, answer)] := by
  cases hcourse with
  | @pushed es₁ es₂ l₁ l₂ digest hnames hdigest =>
    have hnone : lookups l₁ = [] := by
      cases hnames
      simp [lookups, taken, List.filterMap_map, Function.comp_def, Reply.lookup?]
    rw [lookups_append, hnone, List.nil_append]
    cases hdigest with
    | found => exact ⟨.ok digest, rfl, rfl⟩
    | @missing e => exact ⟨.error (.failed e), rfl, rfl⟩

theorem SessionCourse.pushed_eq (hcourse : SessionCourse dir c a (.ok p) es log) :
    ∃ answer, p = Push.pushed dir a (told answer) ∧ lookups log = [(a.id, answer)] := by
  cases hcourse with
  | without hwants hpush => exact hpush.pushed_eq
  | @within _ _ _ _ _ _ l₁ l₂ l₃ l₄ hwants hgiven hopen hpush hclose =>
    have hgivenNone : lookups l₁ = [] := by cases hgiven <;> rfl
    have hopenNone : lookups l₂ = [] := by cases hopen; rfl
    have hcloseNone : lookups l₄ = [] := by cases hclose <;> rfl
    rw [lookups_append, lookups_append, lookups_append, hgivenNone, hopenNone, hcloseNone, List.append_nil]
    exact hpush.pushed_eq

/-- A push that succeeds looks the digest up once and keeps what it is told. -/
theorem Course.pushed_eq {own : Bool} (hcourse : Course own c a (.ok p) es log) :
    ∃ dir answer, p = Push.pushed dir a (told answer) ∧ lookups log = [(a.id, answer)] := by
  cases hcourse with
  | shared himage hown hsession => exact ⟨none, hsession.pushed_eq⟩
  | @scratch path _ _ _ l l' himage hown hsession hremove =>
    have hnone : lookups l' = [] := by cases hremove <;> rfl
    rw [List.cons_append, show lookups (.makeScratch (.ok path) :: (l ++ l')) = lookups (l ++ l') from rfl,
      lookups_append, hnone, List.append_nil]
    exact ⟨some path, hsession.pushed_eq⟩

end

/-! ### The state of a pushed image -/

section

variable (dir : Option Directory) (a : Artifact) (digest : String)

/-- The state of a pushed image has the tags and the data under their names, and nothing else. -/
theorem state_pushed :
    (pushed dir a digest).image.record.state =
      [(Artifact.tagsKey, .strings (ImageState.ofArtifact a).tags),
        (Artifact.dataKey,
          .map ((ImageState.ofArtifact a).data.insert ImageState.digestKey (.string digest)))] :=
  ImageState.toState_eq ((ImageState.ofArtifact a).setDigest digest)

/-- The record of a pushed image stands for the image state that was pushed, with the digest. -/
theorem ofArtifact_pushed :
    ImageState.ofArtifact (pushed dir a digest).image.record = (ImageState.ofArtifact a).setDigest digest :=
  (ImageState.ofArtifact_eq _).trans (ImageState.ofValues_toState ((ImageState.ofArtifact a).setDigest digest))

end

/-! ### What is handed on -/

/-- The names that were to be pushed, in order. -/
def pushedNames (log : List Reply) : List String :=
  (pushes log).map Prod.fst

/-- The image that a push of an artifact hands on, by the questions of the push and the answers. -/
structure HandsOn (a : Artifact) (log : List Reply) (p : Pushed) : Prop where
  builderId_eq : p.image.builderId = Artifact.importBuilder
  id_eq : p.image.id = a.id
  keep_eq : p.keep = true
  forceOverride_eq : p.forceOverride = false
  files_eq : p.image.record.files = []
  /-- The digest is looked up once, and the state has the tags and the data under their names, and nothing else.
  The tags are the names that were pushed behind the id. The data have the digest that was told, and under any
  other key what the artifact has. The image and its record stand for the same image state, which is that of the
  artifact with the digest. -/
  state : ∃ (answer : Outcome String) (data : KeyMap StateValue), lookups log = [(a.id, answer)] ∧
    p.image.state = [(Artifact.tagsKey, .strings (pushedNames log).tail), (Artifact.dataKey, .map data)] ∧
    data.get? ImageState.digestKey = some (.string (told answer)) ∧
    (∀ k, k ≠ ImageState.digestKey → data.get? k = (ImageState.ofArtifact a).data.get? k) ∧
    ((ImageState.ofArtifact a).data.Sorted → data.Sorted) ∧
    ImageState.ofValues p.image.value? = (ImageState.ofArtifact a).setDigest (told answer) ∧
    ImageState.ofArtifact p.image.record = (ImageState.ofArtifact a).setDigest (told answer)

/-- The names that an engine took are those that were pushed. -/
theorem pushedNames_of_taken {log : List Reply} {platform : String} {names : List String}
    (hpushes : pushes log = takenNames platform names) : pushedNames log = names := by
  simp [pushedNames, hpushes, takenNames, Function.comp_def]

theorem Course.handsOn {own : Bool} {c : Config} {a : Artifact} {p : Pushed} {es : History}
    {log : List Reply} (hcourse : Course own c a (.ok p) es log) : HandsOn a log p := by
  obtain ⟨dir, answer, rfl, hlookups⟩ := hcourse.pushed_eq
  have hnames : pushedNames log = namesOf a := pushedNames_of_taken (hcourse.ok_iff.1 ⟨_, rfl⟩).pushes_eq
  refine ⟨rfl, rfl, rfl, rfl, rfl, answer, ((ImageState.ofArtifact a).setDigest (told answer)).data, hlookups,
    ?_, ?_, fun k hk => ?_, fun hsorted => ?_, ?_, ?_⟩
  · rw [hnames]
    exact state_pushed dir a (told answer)
  · exact KeyMap.get?_insert_self _ _ _
  · exact KeyMap.get?_insert_of_ne hk _ _
  · exact hsorted.insert _ _
  · exact ofArtifact_pushed dir a (told answer)
  · exact ofArtifact_pushed dir a (told answer)

/-- **A push that succeeds hands on the image with the tags it was pushed under and the digest that was told**,
whatever the answers are. -/
theorem hands_on_what_was_pushed (s : Script) (own : Bool) (c : Config) (a : Artifact) {p : Pushed}
    {h h' : History} (hrun : s.run own c a h = (.ok p, h')) :
    ∃ es, h' = h ++ es ∧ HandsOn a (s.replies h es) p := by
  obtain ⟨es, hes, hcourse⟩ := run_course s hrun (by simp)
  exact ⟨es, hes, hcourse.handsOn⟩

/-- An engine that takes everything and answers the question for a digest as given. -/
def willing (digest : Outcome String) : Script where
  answer _ _ r :=
    match r with
    | .digest _ => digest
    | .login _ _ _ | .logout _ | .push _ _ | .remove _ => .ok ()
  credentials _ _ := .error .abandoned
  makeScratch _ := .error .notText
  dropScratch _ _ := .ok ()

/-- An artifact with a number for its digest, in pairs of which some have no string for a key, and with a value
and a file that no push looks at. -/
def numbered : Artifact where
  builderId := Artifact.tagBuilder
  id := "app"
  state :=
    [(Artifact.tagsKey, .list [.string "v1", .integer 7, .string "v1"]),
      (Artifact.dataKey,
        .entries [(.string "Size", .unsigned 5), (.null, .string "lost"), (.string "Digest", .integer 3)]),
      ("retries", .null)]
  files := ["image.tar"]

/-- What happens when it is pushed by a willing engine. -/
def numberedEvents : History :=
  headline numbered :: pushEvents none "" ["app", "v1", "v1"] ++ [.request none (.digest "app")]

theorem hands_on_what_was_pushed_numbered :
    (willing (.ok "app@sha256:2")).run false {} numbered [] =
        (.ok (pushed none numbered "app@sha256:2"), numberedEvents) ∧
      ∃ es, numberedEvents = [] ++ es ∧
        HandsOn numbered ((willing (.ok "app@sha256:2")).replies [] es) (pushed none numbered "app@sha256:2") :=
  ⟨rfl, hands_on_what_was_pushed (willing (.ok "app@sha256:2")) false {} numbered rfl⟩

end Push

end ImagePush
