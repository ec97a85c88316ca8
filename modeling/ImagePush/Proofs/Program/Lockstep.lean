import ImagePush.Proofs.Program.Acts

/-!
# Programs in lockstep

Two programs on scripted hosts that do the same at every step, as far as a relation between what was done tells, end
with the same exit code (`start_lockstep`). Their settings, their errors and what they print need not be equal: what
the relation must not tell apart is up to those who use it (`ProgramsAlike`).
-/

namespace ImagePush.Program

open CommandLine (Args)
open Push

/-! ### Results -/

/-- Two results: both are related errors, or they are related. -/
inductive Agree {α β : Type} (E : PushError → PushError → Prop) (Q : α → β → Prop) :
    Except PushError α → Except PushError β → Prop where
  | ok {a : α} {b : β} (hab : Q a b) : Agree E Q (.ok a) (.ok b)
  | error {e f : PushError} (hef : E e f) : Agree E Q (.error e) (.error f)

section

variable {α β : Type} {E : PushError → PushError → Prop} {Q : α → β → Prop}

theorem Agree.settled {first : Except PushError α} {second : Except PushError β} (hagree : Agree E Q first second) :
    Settled E Q (first.mapError Halt.failed) (second.mapError Halt.failed) := by
  cases hagree with
  | ok hab => exact .ok hab
  | error hef => exact .failed hef

theorem Agree.mono {Q' : α → β → Prop} (hsub : ∀ a b, Q a b → Q' a b) {first : Except PushError α}
    {second : Except PushError β} (hagree : Agree E Q first second) : Agree E Q' first second := by
  cases hagree with
  | ok hab => exact .ok (hsub _ _ hab)
  | error hef => exact .error hef

theorem Agree.map {γ : Type} {first second : Except PushError α} (hagree : Agree E Eq first second) (f : α → γ) :
    Agree E Eq (first.map f) (second.map f) := by
  cases hagree with
  | ok hab => exact .ok (congrArg f hab)
  | error hef => exact .error hef

theorem agree_refl (herrors : Tolerates E) (result : Except PushError α) : Agree E Eq result result := by
  cases result with
  | ok a => exact .ok rfl
  | error e => exact .error (herrors.same e)

theorem Agree.eq {first second : Except PushError α} (hagree : Agree Eq Eq first second) : first = second := by
  cases hagree with
  | ok hab => rw [hab]
  | error hef => rw [hef]

end

/-! ### Steps -/

section

variable {α β : Type} {R : List Act → List Act → Prop} {Q : α → β → Prop}

/-- Two steps that do one act each, which the relation does not tell apart. -/
theorem lockstep_of_acts {act act' : Act} {first : StateM (List Act) α} {second : StateM (List Act) β}
    (hacts : ∀ h k, R h k → R (h ++ [act]) (k ++ [act'])) (hfirst : ∀ h, (first h).2 = h ++ [act])
    (hsecond : ∀ k, (second k).2 = k ++ [act']) (hanswer : ∀ h k, R h k → Q (first h).1 (second k).1) :
    Lockstep R Q first second := by
  intro h k hsame
  rw [hfirst, hsecond]
  exact ⟨hanswer h k hsame, hacts h k hsame⟩

/-- Two steps that are done only sometimes, and those behind them. -/
theorem optional_lockstep {wanted : Bool} {first second : StateM (List Act) Unit}
    {rest : Unit → StateM (List Act) α} {rest' : Unit → StateM (List Act) β}
    (hfirst : Lockstep R Eq first second) (hrest : ∀ u, Lockstep R Q (rest u) (rest' u)) :
    Lockstep R Q (if wanted = true then do rest (← first) else rest ())
      (if wanted = true then do rest' (← second) else rest' ()) := by
  split
  · exact .same hfirst hrest
  · exact hrest ()

end

/-! ### Pushes -/

/-- Pushes at workplaces that do the same come to results that agree. -/
theorem pushTelling_lockstep {R : List Act → List Act → Prop} {D : Option Directory → Option Directory → Prop}
    {E : PushError → PushError → Prop} {Q : Registry.Credentials → Registry.Credentials → Prop} {s t : Script}
    {shown shown' : Notice → Act} {c d : Config}
    (halike : Alike R D E Q ((s.setup c).workplace s.host (Script.tell shown))
      ((t.setup d).workplace t.host (Script.tell shown')))
    (hconfig : SameButCredentials Q c d) (hown : s.ownScratch = t.ownScratch) (a : Artifact) :
    Lockstep R (Agree E (SamePushed D)) (s.pushTelling shown c a) (t.pushTelling shown' d a) := by
  show Lockstep R _ (Setup.push _ _ _ a) (Setup.push _ _ _ a)
  unfold Setup.push
  rw [s.ownScratch_eq, t.ownScratch_eq, hown]
  refine .bind (run_lockstep halike hconfig _ a) ?_
  rintro _ _ (hpushed | hef)
  · exact .pure (.ok hpushed)
  · exact .pure (.error hef)

/-! ### Programs -/

/-- Two programs that do the same at every step, as far as the relation tells, with errors and settings that are
related. -/
structure ProgramsAlike (R : List Act → List Act → Prop) (E : PushError → PushError → Prop)
    (V : Config → Config → Prop) (s t : Script) (args args' : Args) : Prop where
  errors : Tolerates E
  output : args.output = args'.output
  diagnostic : ∀ {c d}, V c d → c.diagnostic = d.diagnostic
  mayPrompt : ∀ {c d}, V c d → mayPrompt c = mayPrompt d
  print : ∀ shown : Console → String,
    Lockstep R Eq (s.host.print (shown (consoleOf args))) (t.host.print (shown (consoleOf args')))
  complain : ∀ {e f}, E e f →
    Lockstep R Eq (s.host.printError (Console.problem e.message)) (t.host.printError (Console.problem f.message))
  loadConfig : Lockstep R (Agree E V) (loadConfig s.host args) (loadConfig t.host args')
  readArtifact : Lockstep R (Agree E Eq) (readArtifact s.host args.artifact) (readArtifact t.host args'.artifact)
  push : ∀ {c d} a, V c d → Lockstep R (Agree E fun p q => p.image = q.image)
    (Program.push s.host (consoleOf args) c a) (Program.push t.host (consoleOf args') d a)
  writeFile : ∀ path content, Lockstep R Eq (s.host.writeFile path content) (t.host.writeFile path content)
  report : ∀ record,
    Lockstep R Eq (report s.host (consoleOf args) record) (report t.host (consoleOf args') record)

section

variable {R : List Act → List Act → Prop} {E : PushError → PushError → Prop} {V : Config → Config → Prop}
  {s t : Script} {args args' : Args} (halike : ProgramsAlike R E V s t args args')

include halike

theorem writeRecord_lockstep (record : Artifact) :
    Lockstep R (Agree E Eq) (writeRecord s.host (consoleOf args) record args.output)
      (writeRecord t.host (consoleOf args') record args'.output) := by
  rw [halike.output]
  cases args'.output with
  | some path =>
    refine .same (halike.writeFile path record.toBytes) fun written => ?_
    cases written with
    | error e => exact .pure (.error (halike.errors.same _))
    | ok _ =>
      exact .same (halike.print fun console => console.detail s!"Artifact written to {path}") fun _ => .pure (.ok rfl)
  | none => exact .same (halike.print fun _ => String.ofList record.pretty ++ "\n") fun _ => .pure (.ok rfl)

theorem run_lockstep : Lockstep R (Agree E Eq) (Program.run s.host args) (Program.run t.host args') := by
  unfold Program.run
  refine .same (halike.print fun console => console.heading "Docker Push") fun _ => .bind halike.loadConfig ?_
  rintro _ _ (hsettings | hef)
  · dsimp only
    rw [halike.diagnostic hsettings, halike.mayPrompt hsettings]
    refine .same (halike.print fun console => console.detail _) fun _ => ?_
    refine optional_lockstep (halike.print fun console => console.warning _) fun _ => .bind halike.readArtifact ?_
    rintro _ _ (rfl | hef)
    · refine .same (halike.print fun console => console.info _) fun _ => .bind (halike.push _ hsettings) ?_
      rintro _ _ (himage | hef)
      · dsimp only
        rw [himage]
        refine .bind (writeRecord_lockstep halike _) ?_
        rintro _ _ (_ | hef)
        · exact .same (halike.report _) fun _ => .pure (.ok rfl)
        · exact .pure (.error hef)
      · exact .pure (.error hef)
    · exact .pure (.error hef)
  · exact .pure (.error hef)

/-- **Programs that do the same at every step exit with the same code.** -/
theorem start_lockstep {words words' : List CommandLine.Word} (hwords : CommandLine.parse words.tail = .ok args)
    (hwords' : CommandLine.parse words'.tail = .ok args') :
    Lockstep R Eq (Program.start s.host words) (Program.start t.host words') := by
  unfold Program.start
  rw [hwords, hwords']
  refine .bind (run_lockstep halike) ?_
  rintro _ _ (_ | hef)
  · exact .pure rfl
  · exact .same (halike.complain hef) fun _ => .pure rfl

end

end ImagePush.Program
