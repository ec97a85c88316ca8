import ImagePush.Proofs.Artifact.RoundTrip
import ImagePush.Proofs.Program.Secrets
import ImagePush.Proofs.Push.Merge

/-!
# What a program records

A program loads its settings and its artifact, pushes, and records the image that comes of it, in a file or on
standard output. If an input cannot be used (`Refused`), it has only looked around by then, and nothing is pushed.
If a stage of the push fails, nothing is recorded. The exit code is zero exactly if the push succeeded and its
record was taken (`records_only_what_was_pushed`).
-/

namespace ImagePush.Program

open CommandLine (Args)
open Push

/-! ### Records and other texts -/

/-- The text of a record on standard output. -/
def recordText (record : Artifact) : String :=
  String.ofList record.pretty ++ "\n"

/-- The record of a pushed image: the step that it comes from, its id and its state, but no files. -/
def recordOf (p : Pushed) : Artifact where
  builderId := p.image.builderId
  id := p.image.id
  state := p.image.state
  files := []

/-- The record that comes of pushing an artifact, by the digest that was told. It has the id and the tags of the
artifact, and its data with this digest. -/
def pushRecord (a : Artifact) (digest : String) : Artifact where
  builderId := "packer.post-processor.docker-import"
  id := a.id
  state :=
    [("docker_tags", .strings (ImageState.ofArtifact a).tags),
      ("generated_data", .map ((ImageState.ofArtifact a).data.insert "Digest" (.string digest)))]
  files := []

theorem recordOf_pushed (dir : Option Directory) (a : Artifact) (digest : String) :
    recordOf (pushed dir a digest) = pushRecord a digest :=
  congrArg (Artifact.mk _ a.id · []) (state_pushed dir a digest)

/-- The act that records an artifact, in the file that is named or on standard output. -/
def recording (record : Artifact) : Option String → Act
  | some path => .write path record.toBytes
  | none => .print (recordText record)

/-- The act writes a file, or prints the record of any artifact. -/
def Records : Act → Prop
  | .write _ _ => True
  | .print text => ∃ record, text = recordText record
  | _ => False

/-- Acts of which none writes a file or prints a record. -/
def Unrecorded (acts : List Act) : Prop :=
  ∀ act ∈ acts, ¬ Records act

/-- An act that looks around: a file is read, or a text other than a record is printed. -/
inductive IsLook : Act → Prop where
  | read (path : String) : IsLook (.read path)
  | print {text : String} (htext : ∀ record, text ≠ recordText record) : IsLook (.print text)

/-- The act that prints an error. -/
def complaint (e : PushError) : Act :=
  .printError ("❌ ERROR: " ++ e.message ++ "\n")

theorem IsLook.not_records {act : Act} (hlook : IsLook act) : ¬ Records act := by
  cases hlook with
  | read path => exact id
  | print htext => exact fun ⟨record, heq⟩ => htext record heq

theorem Unrecorded.append {acts more : List Act} (hacts : Unrecorded acts) (hmore : Unrecorded more) :
    Unrecorded (acts ++ more) :=
  List.forall_mem_append.2 ⟨hacts, hmore⟩

theorem unrecorded_of_looks {acts : List Act} (hlooks : ∀ act ∈ acts, IsLook act) : Unrecorded acts :=
  fun act hmem => (hlooks act hmem).not_records

theorem unrecorded_complaint (e : PushError) : Unrecorded [complaint e] := by
  simp [Unrecorded, complaint, Records]

/-- A record begins with a brace. -/
theorem head?_recordText (record : Artifact) : (recordText record).toList.head? = some '\x7b' := by
  simp [recordText, Artifact.pretty, Json.pretty, Artifact.toJson, Json.prettyAt]

/-- A text that begins otherwise is none of a record. -/
theorem isLook_print {text : String} (htext : text.toList.head? ≠ some '\x7b') : IsLook (.print text) := by
  refine .print fun record => ?_
  rintro rfl
  exact htext (head?_recordText record)

/-- What a console shows begins with the mark of its kind. -/
theorem isLook_shown (console : Console) {text : String} (htext : text.toList.head? ≠ some '\x7b') :
    IsLook (.print (console.unlessQuiet text)) := by
  unfold Console.unlessQuiet
  split
  · exact isLook_print (by simp)
  · exact isLook_print htext

section

variable (console : Console) (text : String)

theorem isLook_info : IsLook (.print (console.info text)) :=
  isLook_shown console (by simp [ToString.toString])

theorem isLook_detail : IsLook (.print (console.detail text)) := by
  unfold Console.detail
  split
  · exact isLook_shown console (by simp [ToString.toString])
  · exact isLook_print (by simp)

end

/-! ### Before the push -/

/-- What is shown of the settings. -/
def showing (console : Console) (c : Config) : List Act :=
  .print (console.detail s!"Configuration: {c.diagnostic}") ::
    if mayPrompt c then
      [.print (console.warning "Login requested without a password; docker may prompt for one")]
    else []

/-- What is done before the artifact is read. -/
def opening (args : Args) (c : Config) : List Act :=
  heading args :: loading args ++ showing (consoleOf args) c

/-- What is done before the push. -/
def beforePush (args : Args) (c : Config) (a : Artifact) : List Act :=
  opening args c ++ [.read args.artifact, .print ((consoleOf args).info s!"Input: {a.description}")]

/-- The artifact in the file that the arguments name. -/
def Script.artifact (s : Script) (args : Args) (h : List Act) : Except PushError Artifact :=
  match s.readFile h args.artifact with
  | .error e => .error (.io e)
  | .ok content => Artifact.ofBytes content

/-- The settings and the artifact are loaded, each from its file as it is when it is read. -/
structure Loads (s : Script) (args : Args) (h : List Act) (c : Config) (a : Artifact) : Prop where
  settings : s.settings args (h ++ [heading args]) = .ok c
  artifact : s.artifact args (h ++ opening args c) = .ok a

/-- An input cannot be used, for this reason; of several reasons the first one counts. -/
inductive Refused (s : Script) (args : Args) (h : List Act) : PushError → Prop where
  /-- The file with the settings cannot be read or decoded. -/
  | settings {e : PushError} (hfile : s.fileSettings args (h ++ [heading args]) = .error e) : Refused s args h e
  /-- The file with the artifact cannot be read or decoded. -/
  | artifact {c : Config} {e : PushError} (hsettings : s.settings args (h ++ [heading args]) = .ok c)
      (hfile : s.artifact args (h ++ opening args c) = .error e) : Refused s args h e
  /-- A login through the cloud is wanted, but no server is given. -/
  | server {c : Config} {a : Artifact} (hloads : Loads s args h c a) (hcloud : c.cloudLogin = true)
      (hserver : c.server = "") : Refused s args h (.configuration .noServer)
  /-- The artifact does not come from a step whose images can be pushed. -/
  | unknown {c : Config} {a : Artifact} (hloads : Loads s args h c a)
      (hserver : c.cloudLogin = true → c.server ≠ "") (himage : a.isImage = false) :
      Refused s args h (.unknownArtifact a.builderId)

/-- All inputs can be used. -/
structure Admitted (s : Script) (args : Args) (h : List Act) (c : Config) (a : Artifact) : Prop
    extends Loads s args h c a where
  server : c.cloudLogin = true → c.server ≠ ""
  image : a.isImage = true

theorem refused_or_admitted (s : Script) (args : Args) (h : List Act) :
    (∃ e, Refused s args h e) ∨ ∃ c a, Admitted s args h c a := by
  cases hfile : s.fileSettings args (h ++ [heading args]) with
  | error e => exact .inl ⟨e, .settings hfile⟩
  | ok given =>
    obtain ⟨c, hsettings⟩ : ∃ c, s.settings args (h ++ [heading args]) = .ok c := by
      rw [Script.settings, hfile]
      exact ⟨_, rfl⟩
    cases hartifact : s.artifact args (h ++ opening args c) with
    | error e => exact .inl ⟨e, .artifact hsettings hartifact⟩
    | ok a =>
      have hloads : Loads s args h c a := ⟨hsettings, hartifact⟩
      by_cases hserver : c.cloudLogin = true → c.server ≠ ""
      · cases himage : a.isImage with
        | true => exact .inr ⟨c, a, hloads, hserver, himage⟩
        | false => exact .inl ⟨_, .unknown hloads hserver himage⟩
      · simp only [Classical.not_imp, not_not] at hserver
        exact .inl ⟨_, .server hloads hserver.1 hserver.2⟩

section

variable {s : Script} {args : Args} {h : List Act} {c : Config} {a : Artifact}

theorem looks_loading (args : Args) : ∀ act ∈ heading args :: loading args, IsLook act := by
  refine List.forall_mem_cons.2 ⟨isLook_shown _ (by simp [ToString.toString]), ?_⟩
  unfold loading
  split
  · simp
  · exact List.forall_mem_singleton.2 (.read _)

theorem looks_showing (console : Console) (c : Config) : ∀ act ∈ showing console c, IsLook act := by
  refine List.forall_mem_cons.2 ⟨isLook_detail _ _, ?_⟩
  split
  · exact List.forall_mem_singleton.2 (isLook_shown _ (by simp [ToString.toString]))
  · simp

theorem looks_opening (args : Args) (c : Config) : ∀ act ∈ opening args c, IsLook act :=
  List.forall_mem_append.2 ⟨looks_loading args, looks_showing _ c⟩

theorem looks_beforePush (args : Args) (c : Config) (a : Artifact) : ∀ act ∈ beforePush args c a, IsLook act := by
  refine List.forall_mem_append.2 ⟨looks_opening args c, List.forall_mem_cons.2 ⟨.read _, ?_⟩⟩
  exact List.forall_mem_singleton.2 (isLook_info _ _)

/-! ### The stages of a program -/

/-- What a program does once its inputs are loaded. -/
def pushAndRecord (s : Script) (args : Args) (c : Config) (a : Artifact) :
    StateM (List Act) (Except PushError Unit) := do
  match ← Program.push s.host (consoleOf args) c a with
  | .error e => return .error e
  | .ok p =>
    match ← writeRecord s.host (consoleOf args) p.image.record args.output with
    | .error e => return .error e
    | .ok _ =>
      report s.host (consoleOf args) p.image.record
      return .ok ()

theorem print_apply (s : Script) (text : String) (h : List Act) :
    s.host.print text h = ((), h ++ [.print text]) := rfl

theorem readArtifact_apply (s : Script) (args : Args) (h : List Act) :
    readArtifact s.host args.artifact h = (s.artifact args h, h ++ [.read args.artifact]) := by
  have hfile : s.host.readFile args.artifact h = (s.readFile h args.artifact, h ++ [.read args.artifact]) := rfl
  refine (bind_of_eq hfile).trans ?_
  unfold Script.artifact
  cases s.readFile h args.artifact <;> rfl

/-- A program whose settings are loaded goes on with the artifact. -/
theorem run_of_settings (hsettings : s.settings args (h ++ [heading args]) = .ok c) :
    Program.run s.host args h = (do
      match ← readArtifact s.host args.artifact with
      | .error e => return .error e
      | .ok a =>
        s.host.print ((consoleOf args).info s!"Input: {a.description}")
        pushAndRecord s args c a : StateM (List Act) (Except PushError Unit)) (h ++ opening args c) := by
  have hload : loadConfig s.host args (h ++ [heading args]) = (.ok c, h ++ heading args :: loading args) := by
    rw [loadConfig_apply, hsettings, List.append_assoc]
    rfl
  refine (bind_of_eq (print_apply s _ h)).trans ((bind_of_eq hload).trans ?_)
  refine (bind_of_eq (print_apply s _ _)).trans ?_
  unfold opening showing
  cases hprompt : mayPrompt c with
  | true =>
    simp only [if_true]
    refine (bind_of_eq (print_apply s _ _)).trans ?_
    simp only [List.append_assoc]
    rfl
  | false =>
    simp only [Bool.false_eq_true, if_false, List.append_assoc]
    rfl

theorem run_of_loads (hloads : Loads s args h c a) :
    Program.run s.host args h = pushAndRecord s args c a (h ++ beforePush args c a) := by
  have hread : readArtifact s.host args.artifact (h ++ opening args c) =
      (.ok a, h ++ opening args c ++ [.read args.artifact]) := by
    rw [readArtifact_apply, hloads.artifact]
  rw [run_of_settings hloads.settings]
  refine (bind_of_eq hread).trans ((bind_of_eq (print_apply s _ _)).trans ?_)
  simp only [beforePush, List.append_assoc]
  rfl

/-- A push of an artifact that is not known does nothing. -/
theorem pushTelling_of_unknown (s : Script) (shown : Notice → Act) (c : Config) {a : Artifact}
    (himage : a.isImage = false) (h : List Act) :
    s.pushTelling shown c a h = (.error (.unknownArtifact a.builderId), h) := by
  refine s.pushTelling_eq shown c a ?_
  unfold Push.run
  rw [himage]
  rfl

/-- A push of a program with settings that can be used. -/
theorem program_push_of_server (hserver : c.cloudLogin = true → c.server ≠ "") (a : Artifact) (h : List Act) :
    Program.push s.host (consoleOf args) c a h =
      s.alone.pushTelling (Script.shownOn (consoleOf args)) c.withDefaults a h := by
  have hprepare : c.prepare = .ok c.withDefaults := by
    refine if_neg ?_
    simpa using hserver
  rw [s.program_push_eq, hprepare]

/-- A push that fails is not recorded. -/
theorem pushAndRecord_of_error {h' : List Act} {e : PushError}
    (hpush : Program.push s.host (consoleOf args) c a h = (.error e, h')) :
    pushAndRecord s args c a h = (.error e, h') :=
  bind_of_eq hpush

/-- What a program has done when an input turns out to be of no use. -/
inductive LookedAround (args : Args) : List Act → Prop where
  /-- The file with the settings was read at most. -/
  | forSettings : LookedAround args (heading args :: loading args)
  | forArtifact (c : Config) : LookedAround args (opening args c ++ [.read args.artifact])
  | forBoth (c : Config) (a : Artifact) : LookedAround args (beforePush args c a)

theorem LookedAround.looks {looks : List Act} (hlooked : LookedAround args looks) : ∀ act ∈ looks, IsLook act := by
  cases hlooked with
  | forSettings => exact looks_loading args
  | forArtifact c => exact List.forall_mem_append.2 ⟨looks_opening args c, List.forall_mem_singleton.2 (.read _)⟩
  | forBoth c a => exact looks_beforePush args c a

/-- **An input that cannot be used ends a program with its error**, before anything but looks was done. -/
theorem run_of_refused {e : PushError} (hrefused : Refused s args h e) :
    ∃ looks, Program.run s.host args h = (.error e, h ++ looks) ∧ LookedAround args looks := by
  cases hrefused with
  | settings hfile =>
    have hload : loadConfig s.host args (h ++ [heading args]) = (.error e, h ++ heading args :: loading args) := by
      rw [loadConfig_apply, Script.settings, hfile, List.append_assoc]
      rfl
    exact ⟨_, (bind_of_eq (print_apply s _ h)).trans (bind_of_eq hload), .forSettings⟩
  | @artifact c _ hsettings hfile =>
    have hread : readArtifact s.host args.artifact (h ++ opening args c) =
        (.error e, h ++ (opening args c ++ [.read args.artifact])) := by
      rw [readArtifact_apply, hfile, List.append_assoc]
    refine ⟨opening args c ++ [.read args.artifact], ?_, .forArtifact c⟩
    rw [run_of_settings hsettings]
    exact bind_of_eq hread
  | @server c a hloads hcloud hserver =>
    have hprepare : c.prepare = .error .noServer := by
      refine if_pos ?_
      simp [hcloud, hserver]
    refine ⟨beforePush args c a, ?_, .forBoth c a⟩
    rw [run_of_loads hloads]
    refine pushAndRecord_of_error ?_
    rw [s.program_push_eq, hprepare]
    rfl
  | @unknown c a hloads hserver himage =>
    refine ⟨beforePush args c a, ?_, .forBoth c a⟩
    rw [run_of_loads hloads]
    refine pushAndRecord_of_error ?_
    rw [program_push_of_server hserver, pushTelling_of_unknown _ _ _ himage]

/-! ### Recording -/

/-- What comes of recording an artifact. -/
def Script.stored (s : Script) (h : List Act) (record : Artifact) : Option String → Except PushError Unit
  | some path => (s.writeFile h path record.toBytes).mapError .io
  | none => .ok ()

theorem writeRecord_of_error {s : Script} {h : List Act} {record : Artifact} {output : Option String}
    {e : PushError} (hstored : s.stored h record output = .error e) (console : Console) :
    writeRecord s.host console record output h = (.error e, h ++ [recording record output]) := by
  cases output with
  | none => cases hstored
  | some path =>
    have hwrite : s.host.writeFile path record.toBytes h =
        (s.writeFile h path record.toBytes, h ++ [.write path record.toBytes]) := rfl
    rw [Script.stored] at hstored
    cases hwritten : s.writeFile h path record.toBytes with
    | error f =>
      rw [hwritten] at hwrite hstored
      cases hstored
      exact bind_of_eq hwrite
    | ok _ =>
      rw [hwritten] at hstored
      cases hstored

/-- What is told behind a record that was taken. -/
def telling (console : Console) : Option String → List Act
  | some path => [.print (console.detail s!"Artifact written to {path}")]
  | none => []

theorem writeRecord_of_ok {s : Script} {h : List Act} {record : Artifact} {output : Option String}
    (hstored : s.stored h record output = .ok ()) (console : Console) :
    writeRecord s.host console record output h =
      (.ok (), h ++ recording record output :: telling console output) := by
  cases output with
  | none => rfl
  | some path =>
    have hwrite : s.host.writeFile path record.toBytes h =
        (s.writeFile h path record.toBytes, h ++ [.write path record.toBytes]) := rfl
    rw [Script.stored] at hstored
    cases hwritten : s.writeFile h path record.toBytes with
    | error f =>
      rw [hwritten] at hstored
      cases hstored
    | ok _ =>
      rw [hwritten] at hwrite
      refine (bind_of_eq hwrite).trans ((bind_of_eq (print_apply s _ _)).trans ?_)
      rw [List.append_assoc]
      rfl

/-- What is done to report a push that took so long. -/
def reporting (console : Console) (record : Artifact) (seconds : Nat) : List Act :=
  [.clock,
    .print (console.summary "Pushed"
      [("Image", record.id), ("Tags", tagsText record), ("Elapsed", durationText seconds)]),
    .print (console.success "Push completed")]

theorem report_apply (s : Script) (console : Console) (h : List Act) (record : Artifact) :
    report s.host console record h = ((), h ++ reporting console record (s.elapsed h)) := by
  have hclock : s.host.elapsed h = (s.elapsed h, h ++ [.clock]) := rfl
  refine (bind_of_eq hclock).trans ((bind_of_eq (print_apply s _ _)).trans ?_)
  simp [print_apply, reporting]

/-- What is done behind a record that was taken. -/
def closing (console : Console) (record : Artifact) (output : Option String) (seconds : Nat) : List Act :=
  telling console output ++ reporting console record seconds

theorem unrecorded_closing (console : Console) (record : Artifact) (output : Option String) (seconds : Nat) :
    Unrecorded (closing console record output seconds) := by
  refine Unrecorded.append (unrecorded_of_looks ?_) ?_
  · cases output with
    | none => simp [telling]
    | some path => exact List.forall_mem_singleton.2 (isLook_detail _ _)
  · have hsummary : IsLook (.print (console.summary "Pushed"
        [("Image", record.id), ("Tags", tagsText record), ("Elapsed", durationText seconds)])) :=
      isLook_shown _ (by simp [ToString.toString])
    have hsuccess : IsLook (.print (console.success "Push completed")) :=
      isLook_shown _ (by simp [ToString.toString])
    intro act hmem
    simp only [reporting, List.mem_cons, List.not_mem_nil, or_false] at hmem
    rcases hmem with rfl | rfl | rfl
    · exact id
    · exact hsummary.not_records
    · exact hsuccess.not_records

/-- How a program ends behind its push, by what came of the push: the exit code and what is done. -/
inductive Concludes (s : Script) (args : Args) (h : List Act) :
    Except PushError Pushed → Nat → List Act → Prop where
  /-- The push failed. -/
  | failed (e : PushError) : Concludes s args h (.error e) 1 [complaint e]
  /-- The push succeeded, but its record was not taken. -/
  | unwritten {p : Pushed} {e : PushError} (hstored : s.stored h (recordOf p) args.output = .error e) :
      Concludes s args h (.ok p) 1 [recording (recordOf p) args.output, complaint e]
  /-- The record was taken, and the push is reported. -/
  | recorded {p : Pushed} (seconds : Nat) (hstored : s.stored h (recordOf p) args.output = .ok ()) :
      Concludes s args h (.ok p) 0 (recording (recordOf p) args.output ::
        closing (consoleOf args) (recordOf p) args.output seconds)

theorem runToEnd_of_error {e : PushError} {h' : List Act} (hrun : Program.run s.host args h = (.error e, h')) :
    runToEnd s.host args h = (1, h' ++ [complaint e]) :=
  bind_of_eq hrun

theorem runToEnd_of_ok {h' : List Act} (hrun : Program.run s.host args h = (.ok (), h')) :
    runToEnd s.host args h = (0, h') :=
  bind_of_eq hrun

theorem runToEnd_of_push {out : Except PushError Pushed} {h₁ h₂ : List Act}
    (hrun : Program.run s.host args h = pushAndRecord s args c a h₁)
    (hpush : Program.push s.host (consoleOf args) c a h₁ = (out, h₂)) :
    ∃ code after, runToEnd s.host args h = (code, h₂ ++ after) ∧ Concludes s args h₂ out code after := by
  cases out with
  | error e =>
    rw [pushAndRecord_of_error hpush] at hrun
    exact ⟨1, _, runToEnd_of_error hrun, .failed e⟩
  | ok p =>
    cases hstored : s.stored h₂ (recordOf p) args.output with
    | error e =>
      have hall : pushAndRecord s args c a h₁ = (.error e, h₂ ++ [recording (recordOf p) args.output]) :=
        (bind_of_eq hpush).trans (bind_of_eq (writeRecord_of_error hstored _))
      refine ⟨1, _, ?_, .unwritten hstored⟩
      rw [runToEnd_of_error (hrun.trans hall), List.append_assoc]
      rfl
    | ok _ =>
      have hreport := report_apply s (consoleOf args)
        (h₂ ++ recording (recordOf p) args.output :: telling (consoleOf args) args.output) (recordOf p)
      generalize s.elapsed _ = seconds at hreport
      have hall : pushAndRecord s args c a h₁ = (.ok (), h₂ ++ recording (recordOf p) args.output ::
          closing (consoleOf args) (recordOf p) args.output seconds) := by
        refine (bind_of_eq hpush).trans
          ((bind_of_eq (writeRecord_of_ok hstored _)).trans ((bind_of_eq hreport).trans ?_))
        rw [List.append_assoc]
        rfl
      exact ⟨0, _, runToEnd_of_ok (hrun.trans hall), .recorded seconds hstored⟩

end

/-! ### The push in between -/

section

variable (s : Script) (args : Args) (h : List Act) (c : Config) (a : Artifact)

/-- The push of a program, with what was done before. -/
def Script.pushOf : Except PushError Pushed × List Act :=
  s.alone.pushTelling (Script.shownOn (consoleOf args)) c.withDefaults a (h ++ beforePush args c a)

/-- What is done for events of the push of a program. -/
def Script.pushActs (es : History) : List Act :=
  s.alone.acts (Script.shownOn (consoleOf args)) c.withDefaults es

/-- The questions among the events of the push of a program, with the answers. -/
def Script.pushLog (es : History) : List Reply :=
  (s.alone.answers (Script.shownOn (consoleOf args)) c.withDefaults (h ++ beforePush args c a)).replies [] es

/-- A push of a program records nothing itself. -/
theorem unrecorded_pushActs (es : History) : Unrecorded (s.pushActs args c es) := by
  intro act hmem
  obtain ⟨e, -, rfl⟩ := List.mem_map.1 hmem
  cases e with
  | notice n =>
    cases n with
    | message text => exact (isLook_info _ _).not_records
    | headline text => exact (isLook_shown _ (by simp [ToString.toString])).not_records
    | problem text => exact id
  | exchange | request | makeScratch | dropScratch => exact id

/-- The push of a program fails with the error of a stage, and succeeds if no stage fails. Then its record is that of
the artifact, with the digest that was told. -/
theorem pushOf_course (himage : a.isImage = true) :
    ∃ es, (s.pushOf args h c a).2 = h ++ beforePush args c a ++ s.pushActs args c es ∧
      (∀ e, (s.pushOf args h c a).1 = .error e ↔ e ∈ failures (s.pushLog args h c a es)) ∧
      ((∃ p, (s.pushOf args h c a).1 = .ok p) ↔ failures (s.pushLog args h c a es) = []) ∧
      ∀ p, (s.pushOf args h c a).1 = .ok p → ∃ answer, lookups (s.pushLog args h c a es) = [(a.id, answer)] ∧
        recordOf p = pushRecord a (told answer) := by
  obtain ⟨es, hes, hcourse⟩ := s.alone.push_course (Script.shownOn (consoleOf args)) c.withDefaults
    (h ++ beforePush args c a) a
  have hfailures : failures (s.pushLog args h c a es) =
      errorsOf ((s.pushOf args h c a).1.mapError Halt.failed) := hcourse.failures_eq himage
  change Course _ _ _ ((s.pushOf args h c a).1.mapError _) _ _ at hcourse
  refine ⟨es, hes, ?_, ?_, fun p hp => ?_⟩
  · rw [hfailures]
    cases (s.pushOf args h c a).1 with
    | error e => simp [Except.mapError, errorsOf, eq_comm]
    | ok p => simp [Except.mapError, errorsOf]
  · rw [hfailures]
    cases (s.pushOf args h c a).1 <;> simp [Except.mapError, errorsOf]
  · rw [hp] at hcourse
    obtain ⟨dir, answer, rfl, hlookups⟩ := hcourse.pushed_eq
    exact ⟨answer, hlookups, recordOf_pushed dir a (told answer)⟩

end

/-! ### The whole program -/

/-- The course of a program whose inputs can be used, by its exit code, the events of its push and what is done
behind it. -/
structure PushesAndRecords (s : Script) (args : Args) (h : List Act) (c : Config) (a : Artifact) (code : Nat)
    (es : History) (after : List Act) : Prop where
  push_eq : (s.pushOf args h c a).2 = h ++ beforePush args c a ++ s.pushActs args c es
  /-- Nothing is recorded until the push is over. -/
  unrecorded : Unrecorded (beforePush args c a ++ s.pushActs args c es)
  /-- The push fails with the error of a stage. -/
  error_iff : ∀ e, (s.pushOf args h c a).1 = .error e ↔ e ∈ failures (s.pushLog args h c a es)
  /-- If a stage of the push fails, its error is printed, and nothing is recorded at all. -/
  failed : ∀ e ∈ failures (s.pushLog args h c a es),
    code = 1 ∧ after = [complaint e] ∧ Unrecorded (beforePush args c a ++ s.pushActs args c es ++ after)
  /-- If none fails, the record of the pushed image is recorded, and nothing else. It is that of the artifact with the
  digest that the engine told when it was asked for it. -/
  pushed : failures (s.pushLog args h c a es) = [] → ∃ p answer rest, (s.pushOf args h c a).1 = .ok p ∧
    lookups (s.pushLog args h c a es) = [(a.id, answer)] ∧ recordOf p = pushRecord a (told answer) ∧
    after = recording (recordOf p) args.output :: rest ∧ Unrecorded rest
  /-- If the record is not taken, the reason is printed. -/
  unwritten : ∀ p e, (s.pushOf args h c a).1 = .ok p →
    s.stored (s.pushOf args h c a).2 (recordOf p) args.output = .error e →
    code = 1 ∧ after = [recording (recordOf p) args.output, complaint e]

section

variable {s : Script} {args : Args} {h : List Act} {c : Config} {a : Artifact}

/-- A program whose command line gives arguments runs with them to its end. -/
theorem runProgram_of_parse {words : List CommandLine.Word} (hparse : CommandLine.parse words.tail = .ok args) :
    s.runProgram words h = runToEnd s.host args h := by
  show Program.start s.host words h = _
  unfold Program.start
  rw [hparse]

theorem Loads.unique {c' : Config} {a' : Artifact} (hloads : Loads s args h c a)
    (hloads' : Loads s args h c' a') : c = c' ∧ a = a' := by
  obtain rfl : c = c' := Except.ok.inj (hloads.settings.symm.trans hloads'.settings)
  exact ⟨rfl, Except.ok.inj (hloads.artifact.symm.trans hloads'.artifact)⟩

theorem Refused.not_admitted {e : PushError} (hrefused : Refused s args h e) (hadmitted : Admitted s args h c a) :
    False := by
  have hsettings := hadmitted.settings
  cases hrefused with
  | settings hfile =>
    rw [Script.settings, hfile] at hsettings
    cases hsettings
  | artifact hsettings' hfile =>
    obtain rfl := Except.ok.inj (hsettings'.symm.trans hsettings)
    cases hfile.symm.trans hadmitted.artifact
  | server hloads hcloud hserver =>
    obtain ⟨rfl, rfl⟩ := hloads.unique hadmitted.toLoads
    exact hadmitted.server hcloud hserver
  | unknown hloads hserver himage =>
    obtain ⟨rfl, rfl⟩ := hloads.unique hadmitted.toLoads
    exact absurd (himage.symm.trans hadmitted.image) (by simp)

theorem runToEnd_looked {e : PushError} (hrefused : Refused s args h e) :
    ∃ looks, runToEnd s.host args h = (1, h ++ (looks ++ [complaint e])) ∧ LookedAround args looks := by
  obtain ⟨looks, hrun, hlooked⟩ := run_of_refused hrefused
  refine ⟨looks, ?_, hlooked⟩
  rw [runToEnd_of_error hrun, List.append_assoc]

theorem runToEnd_of_refused {e : PushError} (hrefused : Refused s args h e) :
    ∃ looks, runToEnd s.host args h = (1, h ++ (looks ++ [complaint e])) ∧ ∀ act ∈ looks, IsLook act := by
  obtain ⟨looks, hrun, hlooked⟩ := runToEnd_looked hrefused
  exact ⟨looks, hrun, hlooked.looks⟩

theorem runToEnd_of_admitted (hadmitted : Admitted s args h c a) :
    ∃ code es after,
      runToEnd s.host args h = (code, h ++ (beforePush args c a ++ s.pushActs args c es ++ after)) ∧
      PushesAndRecords s args h c a code es after ∧ (code = 0 ∨ code = 1) ∧
      (code = 0 ↔ ∃ p, (s.pushOf args h c a).1 = .ok p ∧
        s.stored (s.pushOf args h c a).2 (recordOf p) args.output = .ok ()) := by
  obtain ⟨es, hes, herror, hok, hrecord⟩ := pushOf_course s args h c a hadmitted.image
  have hpush : Program.push s.host (consoleOf args) c a (h ++ beforePush args c a) =
      ((s.pushOf args h c a).1, (s.pushOf args h c a).2) := program_push_of_server hadmitted.server a _
  obtain ⟨code, after, hrun, hend⟩ := runToEnd_of_push (run_of_loads hadmitted.toLoads) hpush
  have hbefore : Unrecorded (beforePush args c a ++ s.pushActs args c es) :=
    (unrecorded_of_looks (looks_beforePush args c a)).append (unrecorded_pushActs s args c es)
  refine ⟨code, es, after, ?_, ?_⟩
  · rw [hrun, hes]
    simp only [List.append_assoc]
  have herror' := herror
  generalize hout : (s.pushOf args h c a).1 = out at hend herror hok hrecord
  cases hend with
  | failed e =>
    refine ⟨⟨hes, hbefore, herror', fun e' he' => ?_, fun hnone => ?_, fun p e' hp => ?_⟩, .inr rfl, by simp⟩
    · obtain rfl : e = e' := by simpa using (herror e').2 he'
      exact ⟨rfl, rfl, hbefore.append (unrecorded_complaint e)⟩
    · obtain ⟨p, hp⟩ := hok.2 hnone
      cases hp
    · cases hout.symm.trans hp
  | @unwritten p e hstored =>
    refine ⟨⟨hes, hbefore, herror', fun e' he' => ?_, fun _ => ?_, fun p' e' hp hstored' => ?_⟩, .inr rfl, ?_⟩
    · cases (herror e').2 he'
    · obtain ⟨answer, hlookups, hanswer⟩ := hrecord p rfl
      exact ⟨p, answer, _, hout, hlookups, hanswer, rfl, unrecorded_complaint e⟩
    · obtain rfl := Except.ok.inj (hout.symm.trans hp)
      obtain rfl := Except.error.inj (hstored.symm.trans hstored')
      exact ⟨rfl, rfl⟩
    · refine iff_of_false (by simp) ?_
      rintro ⟨p', hp, hstored'⟩
      obtain rfl := Except.ok.inj hp
      cases hstored.symm.trans hstored'
  | @recorded p seconds hstored =>
    refine ⟨⟨hes, hbefore, herror', fun e' he' => ?_, fun _ => ?_, fun p' e' hp hstored' => ?_⟩, .inl rfl, ?_⟩
    · cases (herror e').2 he'
    · obtain ⟨answer, hlookups, hanswer⟩ := hrecord p rfl
      exact ⟨p, answer, _, hout, hlookups, hanswer, rfl, unrecorded_closing _ _ _ seconds⟩
    · obtain rfl := Except.ok.inj (hout.symm.trans hp)
      cases hstored.symm.trans hstored'
    · exact iff_of_true rfl ⟨p, rfl, hstored⟩

end

/-- **A program records only what it has pushed.** If an input cannot be used, it only looks around, prints exactly
the reason and exits with code 1. Otherwise it pushes; if a stage of the push fails, it exits with code 1, and
nothing is recorded. It exits with code 0 exactly if the push succeeded and the record of the pushed image was
taken, and nothing else is recorded then. -/
theorem records_only_what_was_pushed (s : Script) {words : List CommandLine.Word} {args : Args}
    (hparse : CommandLine.parse words.tail = .ok args) (h : List Act) :
    ∃ code acts, s.runProgram words h = (code, h ++ acts) ∧ (code = 0 ∨ code = 1) ∧
      ((∃ e, Refused s args h e) ∨ ∃ c a, Admitted s args h c a) ∧
      (∀ e, Refused s args h e → code = 1 ∧ Unrecorded acts ∧
        ∃ looks, acts = looks ++ [complaint e] ∧ ∀ act ∈ looks, IsLook act) ∧
      (∀ c a, Admitted s args h c a → ∃ es after,
        acts = beforePush args c a ++ s.pushActs args c es ++ after ∧
        PushesAndRecords s args h c a code es after) ∧
      (code = 0 ↔ ∃ c a p, Admitted s args h c a ∧ (s.pushOf args h c a).1 = .ok p ∧
        s.stored (s.pushOf args h c a).2 (recordOf p) args.output = .ok ()) := by
  rw [runProgram_of_parse hparse]
  rcases refused_or_admitted s args h with ⟨e, hrefused⟩ | ⟨c, a, hadmitted⟩
  · obtain ⟨looks, hrun, hlooks⟩ := runToEnd_of_refused hrefused
    refine ⟨1, _, hrun, .inr rfl, .inl ⟨e, hrefused⟩, fun e' hrefused' => ?_, fun c a hadmitted => ?_, ?_⟩
    · obtain ⟨looks', hrun', hlooks'⟩ := runToEnd_of_refused hrefused'
      have hsame := List.append_cancel_left (congrArg Prod.snd (hrun.symm.trans hrun'))
      refine ⟨rfl, ?_, looks', hsame, hlooks'⟩
      exact (unrecorded_of_looks hlooks).append (unrecorded_complaint e)
    · exact (hrefused.not_admitted hadmitted).elim
    · refine iff_of_false (by simp) ?_
      rintro ⟨c, a, p, hadmitted, -⟩
      exact hrefused.not_admitted hadmitted
  · obtain ⟨code, es, after, hrun, hcourse, hcode, hzero⟩ := runToEnd_of_admitted hadmitted
    refine ⟨code, _, hrun, hcode, .inr ⟨c, a, hadmitted⟩, fun e hrefused => ?_, fun c' a' hadmitted' => ?_, ?_⟩
    · exact (hrefused.not_admitted hadmitted).elim
    · obtain ⟨rfl, rfl⟩ := hadmitted.unique hadmitted'.toLoads
      exact ⟨es, after, rfl, hcourse⟩
    · rw [hzero]
      constructor
      · rintro ⟨p, hp, hstored⟩
        exact ⟨c, a, p, hadmitted, hp, hstored⟩
      · rintro ⟨c', a', p, hadmitted', hp, hstored⟩
        obtain ⟨rfl, rfl⟩ := hadmitted.unique hadmitted'.toLoads
        exact ⟨p, hp, hstored⟩

theorem storable_threeNames : threeNames.Storable where
  sorted := List.pairwise_singleton _ _
  ordered := by simp [threeNames, StateValue.Ordered, StateValue.Everywhere, StateValue.KeysIncrease]
  noFiniteFloat := by simp [threeNames, StateValue.NoFiniteFloat, StateValue.Everywhere, StateValue.NotFinite]
  depth_le := List.forall_mem_singleton.2 (by decide)

/-- The record of the image, when the engine tells no digest. -/
def threeNamesRecord : Artifact where
  builderId := "packer.post-processor.docker-import"
  id := "app"
  state := [("docker_tags", .strings ["v1", "v2"]), ("generated_data", .map [("Digest", .string "")])]
  files := []

/-- Surroundings in which everything succeeds, with an artifact to be read and a scratch directory. -/
def hosted (dir : Directory) : Script :=
  { stocked with
    start := fun _ _ => .ok { code := some 0 }
    makeScratch := fun _ => .ok dir }

/-- The settings of a call with a password. -/
def settingsWith (password : String) : Config :=
  { login := true, password := password }

/-- A call whose third name is refused prints why and records nothing. The same call records the image, and nothing
else, where all names are taken. -/
theorem records_only_what_was_pushed_two_calls :
    CommandLine.parse (callWith "hunter2").tail = .ok (argsWith "hunter2") ∧
      (Admitted stocked (argsWith "hunter2") [] (settingsWith "hunter2") threeNames ∧
        ∃ acts, stocked.runProgram (callWith "hunter2") [] = (1, [] ++ acts) ∧ Unrecorded acts ∧
          ∃ before, acts = before ++ [.printError
            "❌ ERROR: `docker --config /tmp/docker-push push v2` failed with exit code 1: \n"]) ∧
      Admitted (hosted "/tmp/docker-push") (argsWith "hunter2") [] (settingsWith "hunter2") threeNames ∧
        ∃ acts, (hosted "/tmp/docker-push").runProgram (callWith "hunter2") [] = (0, [] ++ acts) ∧
          ∃ before after, acts = before ++ .print (recordText threeNamesRecord) :: after ∧
            Unrecorded before ∧ Unrecorded after := by
  have hparse : CommandLine.parse (callWith "hunter2").tail = .ok (argsWith "hunter2") := by with_unfolding_all rfl
  have hrefusing : Admitted stocked (argsWith "hunter2") [] (settingsWith "hunter2") threeNames :=
    ⟨⟨rfl, Artifact.ofBytes_toBytes storable_threeNames⟩, by simp [settingsWith], rfl⟩
  have htaking : Admitted (hosted "/tmp/docker-push") (argsWith "hunter2") [] (settingsWith "hunter2") threeNames :=
    ⟨⟨rfl, Artifact.ofBytes_toBytes storable_threeNames⟩, by simp [settingsWith], rfl⟩
  refine ⟨hparse, ⟨hrefusing, ?_⟩, htaking, ?_⟩
  · obtain ⟨code, acts, hrun, -, -, -, hcourse, -⟩ := records_only_what_was_pushed stocked hparse []
    obtain ⟨es, after, rfl, hes⟩ := hcourse _ _ hrefusing
    have hcommand : (engineOf (settingsWith "hunter2").withDefaults (some "/tmp/docker-push")).describe
        (.ofRequest (.push "v2" "")) = "docker --config /tmp/docker-push push v2" := by
      simp only [Engine.describe, Engine.allArgs, Engine.configDir, engineOf, Option.map_some, Directory.shown_named]
      rfl
    have herror : (stocked.pushOf (argsWith "hunter2") [] (settingsWith "hunter2") threeNames).1 =
        .error (.command ((engineOf (settingsWith "hunter2").withDefaults (some "/tmp/docker-push")).describe
        (.ofRequest (.push "v2" ""))) 1 "") := by
      with_unfolding_all rfl
    rw [hcommand] at herror
    obtain ⟨rfl, rfl, hunrecorded⟩ := hes.failed _ ((hes.error_iff _).1 herror)
    exact ⟨_, hrun, hunrecorded, _, rfl⟩
  · obtain ⟨code, acts, hrun, -, -, -, hcourse, hzero⟩ :=
      records_only_what_was_pushed (hosted "/tmp/docker-push") hparse []
    obtain ⟨es, after, rfl, hes⟩ := hcourse _ _ htaking
    have hpushed : ((hosted "/tmp/docker-push").pushOf (argsWith "hunter2") [] (settingsWith "hunter2") threeNames).1 =
        .ok (pushed (some "/tmp/docker-push") threeNames "") := by with_unfolding_all rfl
    obtain rfl : code = 0 := hzero.2 ⟨_, _, _, htaking, hpushed, rfl⟩
    have hnone : failures ((hosted "/tmp/docker-push").pushLog (argsWith "hunter2") [] (settingsWith "hunter2")
        threeNames es) = [] := by
      refine List.eq_nil_iff_forall_not_mem.2 fun e he => ?_
      cases hpushed.symm.trans ((hes.error_iff e).2 he)
    obtain ⟨p, answer, rest, hp, -, -, rfl, hrest⟩ := hes.pushed hnone
    obtain rfl := Except.ok.inj (hpushed.symm.trans hp)
    exact ⟨_, hrun, _, rest, rfl, hes.unrecorded, hrest⟩

end ImagePush.Program
