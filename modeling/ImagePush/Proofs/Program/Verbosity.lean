import ImagePush.Proofs.Program.Names
import ImagePush.Proofs.Program.Quiet

/-!
# How much a program prints

Two calls of a program that differ only in how much they print do the same otherwise: they run the same processes,
write the same files and print the same errors, but for the names of scratch directories (`calls_alike`). What is
the same at every step is all that is done apart from the output (`SameEffects`).
-/

namespace ImagePush.Program

open CommandLine (Args)
open Push

/-! ### What is done apart from the output -/

/-- Whether something is printed to standard output. -/
def Act.isOutput : Act → Bool
  | .print _ => true
  | _ => false

/-- What is done apart from the output. -/
def effects (acts : List Act) : List Act :=
  acts.filter fun act => !act.isOutput

/-- What was done is the same in two runs, apart from the output and the names of scratch directories. -/
def SameEffects (d d' : Directory) (h k : List Act) : Prop :=
  List.Forall₂ (SameAct d d') (effects h) (effects k)

theorem effects_append (h k : List Act) : effects (h ++ k) = effects h ++ effects k :=
  List.filter_append ..

section

variable {d d' : Directory}

theorem SameAct.isOutput_eq {act act' : Act} (hact : SameAct d d' act act') : act.isOutput = act'.isOutput := by
  cases hact <;> rfl

theorem SameEffects.add {h k : List Act} (hsame : SameEffects d d' h k) {act act' : Act}
    (hact : SameAct d d' act act') : SameEffects d d' (h ++ [act]) (k ++ [act']) := by
  unfold SameEffects
  rw [effects_append, effects_append]
  refine List.rel_append hsame ?_
  unfold effects
  rw [List.filter_singleton, List.filter_singleton, hact.isOutput_eq]
  cases act'.isOutput with
  | true => exact .nil
  | false => exact .cons hact .nil

theorem SameEffects.print {h k : List Act} (hsame : SameEffects d d' h k) (text text' : String) :
    SameEffects d d' (h ++ [.print text]) (k ++ [.print text']) := by
  unfold SameEffects
  rw [effects_append, effects_append]
  exact List.rel_append hsame .nil

end

/-! ### What can be told apart -/

/-- A process that is run. -/
def Act.process? : Act → Option Engine.Invocation
  | .start i => some i
  | _ => none

/-- A file that is written. -/
def Act.written? : Act → Option (String × List UInt8)
  | .write path content => some (path, content)
  | _ => none

/-- All that is printed to standard error. -/
def printedErrors (acts : List Act) : String :=
  String.join (acts.filterMap Act.printedError?)

/-- Two runs that differ in their output and in the names of scratch directories at most. They do the same
otherwise, in the same order; in particular they run the same processes on the same input, write the same files and
print the same errors. -/
structure SameButOutput (d d' : Directory) (h k : List Act) : Prop where
  effects : SameEffects d d' h k
  processes : List.Forall₂ (SameProcess d d') (h.filterMap Act.process?) (k.filterMap Act.process?)
  written_eq : h.filterMap Act.written? = k.filterMap Act.written?
  errors : Text.SameBut d.shown d'.shown (printedErrors h) (printedErrors k)

section

variable {d d' : Directory} {h k : List Act}

theorem filterMap_effects {α : Type} {view : Act → Option α} (hview : ∀ text, view (.print text) = none)
    (acts : List Act) : (effects acts).filterMap view = acts.filterMap view := by
  unfold effects
  rw [List.filterMap_filter]
  congr 1
  funext act
  cases act with
  | print text => exact (hview text).symm
  | _ => rfl

/-- What is seen of acts other than the output is the same if it is the same for each act. -/
theorem SameEffects.filterMap {α : Type} {R : α → α → Prop} {view : Act → Option α}
    (hview : ∀ text, view (.print text) = none)
    (hact : ∀ ⦃act act'⦄, SameAct d d' act act' → Option.Rel R (view act) (view act'))
    (hsame : SameEffects d d' h k) : List.Forall₂ R (h.filterMap view) (k.filterMap view) := by
  rw [← filterMap_effects hview h, ← filterMap_effects hview k]
  exact List.rel_filterMap hact hsame

theorem rel_of_refl {α : Type} {R : α → α → Prop} (hrefl : ∀ a, R a a) (o : Option α) : Option.Rel R o o := by
  cases o with
  | none => exact .none
  | some a => exact .some (hrefl a)

theorem SameEffects.sameButOutput (hsame : SameEffects d d' h k) : SameButOutput d d' h k where
  effects := hsame
  processes := by
    refine hsame.filterMap (fun _ => rfl) fun _ _ hact => ?_
    cases hact with
    | refl act => exact rel_of_refl SameProcess.refl _
    | start hprocess => exact .some hprocess
    | printError | dropScratch => exact .none
  written_eq := by
    refine List.forall₂_eq_eq_eq ▸ hsame.filterMap (fun _ => rfl) fun _ _ hact => ?_
    cases hact with
    | refl act => exact rel_of_refl (fun _ => rfl) _
    | start | printError | dropScratch => exact .none
  errors := by
    refine Text.sameBut_join (hsame.filterMap (fun _ => rfl) fun _ _ hact => ?_)
    cases hact with
    | refl act => exact rel_of_refl Text.sameBut_refl _
    | printError htext => exact .some htext
    | start | dropScratch => exact .none

end

/-! ### Surroundings that do not look at the output -/

/-- Two surroundings that answer the same whatever is printed to standard output. Their scratch directories have
names of their own, which the engine does not let on. -/
structure AgreeButOutput (d d' : Directory) (s t : Script) : Prop where
  environment : s.environment = t.environment
  readFile : ∀ h k path, SameEffects d d' h k → s.readFile h path = t.readFile k path
  writeFile : ∀ h k path content, SameEffects d d' h k → s.writeFile h path content = t.writeFile k path content
  start : ∀ h k i j, SameEffects d d' h k → SameProcess d d' i j → s.start h i = t.start k j
  cloud : ∀ h k access server, SameEffects d d' h k → s.cloud h access server = t.cloud k access server
  makeScratch : ∀ h k, SameEffects d d' h k → s.makeScratch h = .ok d ∧ t.makeScratch k = .ok d' ∨
    ∃ e, s.makeScratch h = .error e ∧ t.makeScratch k = .error e
  dropScratch : ∀ h k, SameEffects d d' h k → s.dropScratch h d = t.dropScratch k d'

/-- Two command lines that differ in how much is printed only. -/
def SameButVerbosity (args args' : Args) : Prop :=
  { args with verbose := false, quiet := false } = { args' with verbose := false, quiet := false }

section

variable {d d' : Directory} {s t : Script}

/-- Two steps that do one act each, the same but for names, and with the same answer. -/
theorem lockstep_of_sameAct {α β : Type} {Q : α → β → Prop} {first : StateM (List Act) α}
    {second : StateM (List Act) β} {act act' : Act} (hact : SameAct d d' act act')
    (hfirst : ∀ h, (first h).2 = h ++ [act]) (hsecond : ∀ k, (second k).2 = k ++ [act'])
    (hanswer : ∀ h k, SameEffects d d' h k → Q (first h).1 (second k).1) :
    Lockstep (SameEffects d d') Q first second :=
  lockstep_of_acts (fun _ _ hsame => hsame.add hact) hfirst hsecond hanswer

theorem print_lockstep_any (text text' : String) :
    Lockstep (SameEffects d d') Eq (s.host.print text) (t.host.print text') :=
  lockstep_of_acts (fun _ _ hsame => hsame.print text text') (fun _ => rfl) (fun _ => rfl) fun _ _ _ => rfl

theorem notice_lockstep (console console' : Console) (n : Notice) :
    Lockstep (SameEffects d d') Eq (Script.tell (Script.shownOn console) n)
      (Script.tell (Script.shownOn console') n) := by
  cases n with
  | message | headline =>
    exact lockstep_of_acts (fun _ _ hsame => hsame.print _ _) (fun _ => rfl) (fun _ => rfl) fun _ _ _ => rfl
  | problem text => exact lockstep_of_sameAct (.refl _) (fun _ => rfl) (fun _ => rfl) fun _ _ _ => rfl

theorem complaint_lockstep {text text' : String} (htext : Text.SameBut d.shown d'.shown text text') :
    Lockstep (SameEffects d d') Eq (s.host.printError (Console.problem text))
      (t.host.printError (Console.problem text')) :=
  lockstep_of_sameAct (.printError ((htext.behind _).before _)) (fun _ => rfl) (fun _ => rfl) fun _ _ _ => rfl

end

/-! ### Pushes -/

section

variable {d d' : Directory} {s t : Script} (hagree : AgreeButOutput d d' s t) (console console' : Console) (c : Config)

include hagree

theorem start_agrees {dir dir' : Option Directory} (hdir : SameDir d d' dir dir') (r : Request) :
    Lockstep (SameEffects d d') (Settled (SameError d d') Eq)
      (((s.alone.setup c).workplace s.alone.host (Script.tell (Script.shownOn console))).ask dir r)
      (((t.alone.setup c).workplace t.alone.host (Script.tell (Script.shownOn console'))).ask dir' r) := by
  have hprocess := sameProcess_invocationOf hdir c r
  rw [s.alone.ask_of_engine _ c rfl, t.alone.ask_of_engine _ c rfl]
  refine lockstep_of_sameAct (.start hprocess) (fun _ => rfl) (fun _ => rfl) fun h k hsame => ?_
  show Settled _ _ (((engineOf c dir).result r (s.start h _)).mapError _) _
  rw [hagree.start h k _ _ hsame hprocess]
  exact (agree_result hdir c r _).settled

theorem workplaces_alike :
    Alike (SameEffects d d') (SameDir d d') (SameError d d') Eq
      ((s.alone.setup c).workplace s.alone.host (Script.tell (Script.shownOn console)))
      ((t.alone.setup c).workplace t.alone.host (Script.tell (Script.shownOn console'))) where
  errors := tolerates_sameError
  usual := .usual
  notify := notice_lockstep console console'
  problem text {_ _} hef := complaint_lockstep (s := s) (t := t) (hef.message.behind text)
  exchange server := by
    rw [s.alone.exchange_eq, t.alone.exchange_eq]
    refine lockstep_of_sameAct (.refl (.exchange server)) (fun _ => rfl) (fun _ => rfl) fun h k hsame => ?_
    show Settled _ _ (((s.cloud h c.cloud server).mapError PushError.registry).mapError _) _
    rw [hagree.cloud h k c.cloud server hsame]
    exact (agree_refl tolerates_sameError _).settled
  ask r hdir _ := start_agrees hagree console console' c hdir r
  login := by
    rintro dir dir' server given _ hdir rfl
    exact start_agrees hagree console console' c hdir _
  makeScratch := by
    refine lockstep_of_sameAct (.refl .makeScratch) (fun _ => rfl) (fun _ => rfl) fun h k hsame => ?_
    show Made _ (s.makeScratch h) (t.makeScratch k)
    rcases hagree.makeScratch h k hsame with ⟨hs, ht⟩ | ⟨e, hs, ht⟩
    · rw [hs, ht]
      exact .ok .scratch
    · rw [hs, ht]
      exact .error e
  dropScratch := by
    rintro dir dir' ⟨⟩
    exact lockstep_of_sameAct .dropScratch (fun _ => rfl) (fun _ => rfl) hagree.dropScratch

theorem push_lockstep_any (a : Artifact) :
    Lockstep (SameEffects d d') (Agree (SameError d d') fun p q => p.image = q.image)
      (Program.push s.host console c a) (Program.push t.host console' c a) := by
  rw [s.program_push_eq, t.program_push_eq]
  cases c.prepare with
  | error f => exact .pure (.error (.refl _))
  | ok c =>
    -- whether there is a scratch directory at all is up to the environment, which is the same
    have hown : s.alone.ownScratch = t.alone.ownScratch := by
      rw [Script.ownScratch, Script.ownScratch, Script.alone, Script.alone, hagree.environment]
    exact (pushTelling_lockstep (workplaces_alike hagree console console' c) ⟨rfl, rfl, rfl, rfl, rfl⟩ hown a).mono
      fun _ _ => .mono fun _ _ hpushed => hpushed.image

end

/-! ### Programs -/

section

variable {d d' : Directory} {s t : Script} {args args' : Args}

theorem SameButVerbosity.fields (hargs : SameButVerbosity args args') :
    args.artifact = args'.artifact ∧ args.config = args'.config ∧ args.output = args'.output ∧
      args.applyTo = args'.applyTo := by
  unfold SameButVerbosity at hargs
  simp only [CommandLine.Args.mk.injEq] at hargs
  refine ⟨hargs.1, hargs.2.1, hargs.2.2.1, funext fun c => ?_⟩
  simp only [CommandLine.Args.applyTo, hargs]

theorem settings_eq_of_sameEffects (hagree : AgreeButOutput d d' s t) (hargs : SameButVerbosity args args')
    {h k : List Act} (hsame : SameEffects d d' h k) : s.settings args h = t.settings args' k := by
  obtain ⟨-, hconfig, -, hlayer⟩ := hargs.fields
  have hfile : s.fileSettings args h = t.fileSettings args' k := by
    unfold Script.fileSettings
    rw [hconfig]
    cases args'.config with
    | none => rfl
    | some path => simp only [hagree.readFile h k path hsame]
  rw [Script.settings, Script.settings, hfile, hagree.environment, hlayer]

/-- Both programs do the same, whatever they print. -/
theorem calls_lockstep (hagree : AgreeButOutput d d' s t) (hargs : SameButVerbosity args args') :
    ProgramsAlike (SameEffects d d') (SameError d d') Eq s t args args' := by
  obtain ⟨hartifact, hconfig, houtput, -⟩ := hargs.fields
  refine ⟨tolerates_sameError, houtput, fun h => h ▸ rfl, fun h => h ▸ rfl, fun _ => print_lockstep_any _ _,
    fun hef => complaint_lockstep hef.message, ?_, ?_, ?_, ?_, ?_⟩
  -- the settings, the artifact, the push, the file for the record and the report, in this order
  · intro h k hsame
    rw [loadConfig_apply, loadConfig_apply, settings_eq_of_sameEffects hagree hargs hsame, loading, loading, hconfig]
    refine ⟨agree_refl tolerates_sameError _, ?_⟩
    cases args'.config with
    | none => simpa using hsame
    | some path => exact hsame.add (.refl _)
  · rw [hartifact]
    refine .same (lockstep_of_sameAct (.refl _) (fun _ => rfl) (fun _ => rfl) fun h k hsame =>
      hagree.readFile h k _ hsame) fun content => ?_
    cases content with
    | error e => exact .pure (.error (.refl _))
    | ok content => exact .pure (agree_refl tolerates_sameError _)
  · rintro c _ a rfl
    exact push_lockstep_any hagree _ _ c a
  · exact fun path content => lockstep_of_sameAct (.refl _) (fun _ => rfl) (fun _ => rfl) fun h k hsame =>
      hagree.writeFile h k path content hsame
  · intro record
    have hclock : Lockstep (SameEffects d d') (fun _ _ => True) s.host.elapsed t.host.elapsed :=
      lockstep_of_sameAct (.refl .clock) (fun _ => rfl) (fun _ => rfl) fun _ _ _ => trivial
    exact hclock.bind fun _ _ _ => .same (print_lockstep_any _ _) fun _ => print_lockstep_any _ _

end

/-- **How much a program prints changes nothing else.** Two calls that differ in that only, in surroundings that do
not look at standard output, end with the same exit code and do the same otherwise: the same processes are run on
the same input, the same files are written and the same errors are printed, but for the names of scratch
directories. A quiet call prints nothing to standard output if it fails or if a file is named for the record. If
not, it prints exactly the record of the image that was pushed, and if no finite double is left in this record, what
was printed is read as the record with its values in their normal forms. -/
theorem calls_alike (s : Script) {words : List CommandLine.Word} {args : Args}
    (hwords : CommandLine.parse words.tail = .ok args) :
    (∀ d d' t (words' : List CommandLine.Word) args' h k, AgreeButOutput d d' s t →
      CommandLine.parse words'.tail = .ok args' → SameButVerbosity args args' → SameEffects d d' h k →
      (s.runProgram words h).1 = (t.runProgram words' k).1 ∧
        SameButOutput d d' (s.runProgram words h).2 (t.runProgram words' k).2) ∧
    (args.quiet = true → ∀ h, ∃ code acts, s.runProgram words h = (code, h ++ acts) ∧
      PrintsRecordOnly s args h code acts) := by
  refine ⟨fun d d' t words' args' h k hagree hwords' hargs hsame => ?_, fun hquiet h => ?_⟩
  · obtain ⟨hcode, heffects⟩ := start_lockstep (calls_lockstep hagree hargs) hwords hwords' h k hsame
    exact ⟨hcode, heffects.sameButOutput⟩
  · rw [runProgram_of_parse hwords]
    exact quiet_runToEnd hquiet s h

theorem agree_hosted (d d' : Directory) : AgreeButOutput d d' (hosted d) (hosted d') where
  environment := rfl
  readFile _ _ _ _ := rfl
  writeFile _ _ _ _ _ := rfl
  start _ _ _ _ _ _ := rfl
  cloud _ _ _ _ _ := rfl
  makeScratch _ _ _ := .inl ⟨rfl, rfl⟩
  dropScratch _ _ _ := rfl

/-- The words of a call with an option that says how much is printed. -/
def callAt (option : String) : List CommandLine.Word :=
  ["docker-push", "--artifact", "image.json", option].map Text.Utf8.ofString

/-- The arguments of a quiet call. -/
def quietArgs : Args :=
  { artifact := "image.json", quiet := true }

/-- A verbose call and a quiet one push alike, and the quiet one prints the record of the image. -/
theorem calls_alike_verbose_and_quiet :
    AgreeButOutput "/tmp/first" "/tmp/second" (hosted "/tmp/first") (hosted "/tmp/second") ∧
      CommandLine.parse (callAt "--verbose").tail = .ok { artifact := "image.json", verbose := true } ∧
      CommandLine.parse (callAt "--quiet").tail = .ok quietArgs ∧
      SameButOutput "/tmp/first" "/tmp/second" ((hosted "/tmp/first").runProgram (callAt "--verbose") []).2
        ((hosted "/tmp/second").runProgram (callAt "--quiet") []).2 ∧
      ∃ acts, (hosted "/tmp/second").runProgram (callAt "--quiet") [] = (0, [] ++ acts) ∧
        printed acts = recordText threeNamesRecord ∧
        Artifact.parse (printed acts).toList = .ok threeNamesRecord := by
  have hverbose : CommandLine.parse (callAt "--verbose").tail =
      .ok { artifact := "image.json", verbose := true } := by
    with_unfolding_all rfl
  have hquiet : CommandLine.parse (callAt "--quiet").tail = .ok quietArgs := by with_unfolding_all rfl
  have hagree := agree_hosted "/tmp/first" "/tmp/second"
  have hadmitted : Admitted (hosted "/tmp/second") quietArgs [] {} threeNames :=
    ⟨⟨rfl, Artifact.ofBytes_toBytes storable_threeNames⟩, by simp, rfl⟩
  have hpushed : ((hosted "/tmp/second").pushOf quietArgs [] {} threeNames).1 =
      .ok (pushed (some "/tmp/second") threeNames "") := by with_unfolding_all rfl
  have hfloat : ∀ q ∈ threeNamesRecord.state, q.2.NoFiniteFloat := by
    simp [threeNamesRecord, StateValue.NoFiniteFloat, StateValue.Everywhere, StateValue.EverywhereInMembers,
      StateValue.NotFinite]
  refine ⟨hagree, hverbose, hquiet, ?_, ?_⟩
  · exact ((calls_alike (hosted "/tmp/first") hverbose).1 _ _ _ _ _ [] [] hagree hquiet rfl .nil).2
  · obtain ⟨code, acts, hrun, hprints⟩ := (calls_alike (hosted "/tmp/second") hquiet).2 rfl []
    obtain ⟨code', es, after, hrun', -, -, hcode⟩ := runToEnd_of_admitted hadmitted
    obtain rfl : code = code' := by
      rw [runProgram_of_parse hquiet] at hrun
      exact congrArg Prod.fst (hrun.symm.trans hrun')
    obtain rfl : code = 0 := hcode.2 ⟨_, hpushed, rfl⟩
    obtain ⟨c, a, p, hadmitted', hpushed', hprinted, hread⟩ := hprints.record rfl rfl
    -- the inputs and their push are known here, so that the record is
    obtain ⟨rfl, rfl⟩ := hadmitted.unique hadmitted'.toLoads
    obtain rfl := Except.ok.inj (hpushed.symm.trans hpushed')
    exact ⟨acts, hrun, hprinted, hread hfloat⟩

end ImagePush.Program
