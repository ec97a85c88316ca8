import ImagePush.Proofs.Program.Inputs
import ImagePush.Proofs.Program.Lockstep
import ImagePush.Proofs.Program.Scratch

/-!
# Secrets of a push

Two runs whose surroundings and settings differ in secrets only, the password of the login and the keys for the
cloud, differ in nothing that can be seen from outside: they run the same processes with the same arguments,
print and tell the same, and come to the same end. Only what the login reads differs, and that is the password
(`secrets_do_not_leak`).

A value is veiled by putting the same text in the place of every secret, if there is one; what is the same
when veiled differs in secrets only.
-/

namespace ImagePush

/-! ### Veils -/

namespace Text

theorem shownSecret_shownSecret (secret : String) : shownSecret (shownSecret secret) = shownSecret secret := by
  by_cases hempty : secret.isEmpty = true
  · simp [shownSecret, hempty]
  · have hshown : shownSecret secret = redacted := by simp [shownSecret, hempty]
    rw [hshown]
    decide

theorem isEmpty_shownSecret (secret : String) : (shownSecret secret).isEmpty = secret.isEmpty := by
  by_cases hempty : secret.isEmpty = true
  · simp [shownSecret, hempty]
  · have hshown : shownSecret secret = redacted := by simp [shownSecret, hempty]
    rw [hshown, Bool.eq_false_iff.2 hempty]
    decide

theorem shownSecret_eq_iff {secret secret' : String} :
    shownSecret secret = shownSecret secret' ↔ secret.isEmpty = secret'.isEmpty := by
  constructor
  · intro hsame
    rw [← isEmpty_shownSecret secret, hsame, isEmpty_shownSecret]
  · intro hsame
    unfold shownSecret
    rw [hsame]

end Text

/-- Credentials without the password. -/
def Registry.Credentials.veiled (c : Credentials) : Credentials :=
  { c with password := Text.shownSecret c.password }

/-- Access to the cloud without the secret key and the token. -/
def CloudAccess.veiled (a : CloudAccess) : CloudAccess :=
  { a with
    secretKey := Text.shownSecret a.secretKey
    token := Text.shownSecret a.token }

/-- Settings without secrets. -/
def Config.veiled (c : Config) : Config :=
  { c with
    password := Text.shownSecret c.password
    cloud := c.cloud.veiled }

/-- Settings without the password, if there is one, and without secrets of the cloud. -/
def Config.withoutPassword (c : Config) : Config :=
  { c with
    password := ""
    cloud := c.cloud.veiled }

/-- A process without what it reads. -/
def Engine.Invocation.veiled (i : Engine.Invocation) : Engine.Invocation :=
  { i with input := i.input.map fun _ => Text.redacted }

namespace Config

theorem diagnostic_veiled (c : Config) : c.veiled.diagnostic = c.diagnostic := by
  simp only [diagnostic, cloudDiagnostic, veiled, CloudAccess.veiled, Text.shownSecret_shownSecret]

theorem prepare_veiled (c : Config) : c.veiled.prepare = c.prepare.map veiled := by
  unfold prepare withDefaults
  show (if c.cloudLogin && c.server.isEmpty then _ else _) = _
  by_cases hserver : (c.cloudLogin && c.server.isEmpty) = true
  · rw [if_pos hserver, if_pos hserver]
    rfl
  · rw [if_neg hserver, if_neg hserver]
    show Except.ok (if c.executable.isEmpty then _ else _) = _
    by_cases hempty : c.executable.isEmpty = true
    · rw [if_pos hempty, if_pos hempty]
      rfl
    · rw [if_neg hempty, if_neg hempty]
      rfl

theorem mayPrompt_veiled (c : Config) : Program.mayPrompt c.veiled = Program.mayPrompt c := by
  simp only [Program.mayPrompt, veiled, Text.isEmpty_shownSecret]

variable {c d : Config}

/-- Settings are the same when veiled if they agree on everything but the secrets, and on which secrets there
are. -/
theorem veiled_eq_iff : c.veiled = d.veiled ↔
    c.executable = d.executable ∧ c.login = d.login ∧ c.username = d.username ∧
      c.password.isEmpty = d.password.isEmpty ∧ c.server = d.server ∧ c.cloudLogin = d.cloudLogin ∧
      c.platform = d.platform ∧ c.cloud.veiled = d.cloud.veiled := by
  simp only [veiled, Config.mk.injEq, Text.shownSecret_eq_iff]

theorem diagnostic_eq_of_veiled (hveiled : c.veiled = d.veiled) : c.diagnostic = d.diagnostic := by
  rw [← diagnostic_veiled c, hveiled, diagnostic_veiled]

theorem mayPrompt_eq_of_veiled (hveiled : c.veiled = d.veiled) :
    Program.mayPrompt c = Program.mayPrompt d := by
  rw [← mayPrompt_veiled c, hveiled, mayPrompt_veiled]

theorem prepare_eq_of_veiled (hveiled : c.veiled = d.veiled) : c.prepare.map veiled = d.prepare.map veiled := by
  rw [← prepare_veiled, hveiled, prepare_veiled]

end Config

/-! ### The login -/

namespace Engine

variable {p q : String} (server username : String)

/-- What a login reads, apart from the password itself. -/
theorem redacted_login (hempty : p.isEmpty = q.isEmpty) :
    (Command.ofRequest (.login server username p)).input.map (fun _ => Text.redacted) =
      (Command.ofRequest (.login server username q)).input.map fun _ => Text.redacted := by
  rw [Command.input_login, Command.input_login, hempty]
  cases q.isEmpty <;> rfl

/-- The result of a login does not tell the password, not even if the login failed. -/
theorem result_login (e : Engine) (hempty : p.isEmpty = q.isEmpty) (ended : Except IoError Ending) :
    e.result (.login server username p) ended = e.result (.login server username q) ended := by
  simp only [result, checked, succeeded, describe, allArgs, Command.args_login server username hempty]

end Engine

namespace Program

open Push

/-! ### What can be seen of a run -/

/-- An act without what a process reads. -/
def Act.veiled : Act → Act
  | .start i => .start i.veiled
  | act => act

/-- What is done, without what the processes read. -/
def veiled (acts : List Act) : List Act :=
  acts.map Act.veiled

/-- What was done is the same in two runs, apart from what the processes read. -/
def Matches (h k : List Act) : Prop :=
  veiled h = veiled k

/-- The command line of a process: its executable and its arguments. -/
def Act.commandLine? : Act → Option (String × List String)
  | .start i => some (i.executable, i.args)
  | _ => none

/-- A process as diagnostics show it. -/
def Act.diagnostic? : Act → Option String
  | .start i => some (Engine.Command.diagnostic ⟨i.args, i.input⟩)
  | _ => none

/-- What the caller is told. -/
def Act.told? : Act → Option Notice
  | .notice n => some n
  | _ => none

/-- What is printed to standard output. -/
def Act.printed? : Act → Option String
  | .print text => some text
  | _ => none

/-- What is printed to standard error. -/
def Act.printedError? : Act → Option String
  | .printError text => some text
  | _ => none

/-- Two runs that look the same from outside: they differ at most in what their processes read. -/
structure LooksSame (h k : List Act) : Prop where
  matching : Matches h k
  commandLines_eq : h.filterMap Act.commandLine? = k.filterMap Act.commandLine?
  diagnostics_eq : h.filterMap Act.diagnostic? = k.filterMap Act.diagnostic?
  told_eq : h.filterMap Act.told? = k.filterMap Act.told?
  printed_eq : String.join (h.filterMap Act.printed?) = String.join (k.filterMap Act.printed?)
  printedErrors_eq : String.join (h.filterMap Act.printedError?) = String.join (k.filterMap Act.printedError?)

theorem diagnostic_veiled (act : Act) : act.veiled.diagnostic? = act.diagnostic? := by
  cases act with
  | start i => exact congrArg some (Engine.Command.diagnostic_congr rfl (by simp [Engine.Invocation.veiled]))
  | _ => rfl

/-- A view of acts that does not tell what processes read. -/
theorem view_eq {α : Type} {view : Act → Option α} (hview : ∀ act, view act.veiled = view act)
    {h k : List Act} (hmatches : Matches h k) : h.filterMap view = k.filterMap view := by
  have hsame : ∀ h, (veiled h).filterMap view = h.filterMap view := by
    intro h
    unfold veiled
    rw [List.filterMap_map]
    exact List.filterMap_congr fun act _ => hview act
  rw [← hsame h, hmatches, hsame]

theorem Matches.looksSame {h k : List Act} (hmatches : Matches h k) : LooksSame h k where
  matching := hmatches
  commandLines_eq := view_eq (fun act => by cases act <;> rfl) hmatches
  diagnostics_eq := view_eq diagnostic_veiled hmatches
  told_eq := view_eq (fun act => by cases act <;> rfl) hmatches
  printed_eq := congrArg String.join (view_eq (fun act => by cases act <;> rfl) hmatches)
  printedErrors_eq := congrArg String.join (view_eq (fun act => by cases act <;> rfl) hmatches)

/-! ### Surroundings that differ in secrets only -/

/-- Two surroundings that answer the same to what looks the same, apart from the passwords that are handed out;
the requests go to the engine. In particular the engine does not let on what it reads, and scratch directories
get the same names at the same time. -/
structure AgreeButSecrets (s t : Script) : Prop where
  engine : s.driver = none ∧ t.driver = none
  sharedDir : s.sharedDir = t.sharedDir
  start : ∀ h k i j, Matches h k → i.veiled = j.veiled → s.start h i = t.start k j
  cloud : ∀ h k access access' server, Matches h k → access.veiled = access'.veiled →
    (s.cloud h access server).map Registry.Credentials.veiled =
      (t.cloud k access' server).map Registry.Credentials.veiled
  exchange : ∀ h k server, Matches h k →
    (s.exchange.map fun given => (given h server).map Registry.Credentials.veiled) =
      t.exchange.map fun given => (given k server).map Registry.Credentials.veiled
  makeScratch : ∀ h k, Matches h k → s.makeScratch h = t.makeScratch k
  dropScratch : ∀ h k dir, Matches h k → s.dropScratch h dir = t.dropScratch k dir
  writeFile : ∀ h k path content, Matches h k → s.writeFile h path content = t.writeFile k path content
  elapsed : ∀ h k, Matches h k → s.elapsed h = t.elapsed k

/-- Acts that look the same are added. -/
theorem Matches.add {h k : List Act} (hmatches : Matches h k) {act act' : Act} (hact : act.veiled = act'.veiled) :
    Matches (h ++ [act]) (k ++ [act']) := by
  unfold Matches veiled
  rw [List.map_append, List.map_append]
  exact congrArg₂ _ hmatches (congrArg (fun act => [act]) hact)

/-- Two steps that do one act each; these look the same, and the answers are related. -/
theorem lockstep_of_veiled {α β : Type} {Q : α → β → Prop} {first : StateM (List Act) α}
    {second : StateM (List Act) β} (act act' : Act) (hact : act.veiled = act'.veiled)
    (hfirst : ∀ h, (first h).2 = h ++ [act]) (hsecond : ∀ k, (second k).2 = k ++ [act'])
    (hanswer : ∀ h k, Matches h k → Q (first h).1 (second k).1) : Lockstep Matches Q first second :=
  lockstep_of_acts (fun _ _ hmatches => hmatches.add hact) hfirst hsecond hanswer

theorem map_mapError {ε ε' α β : Type} (result : Except ε α) (f : α → β) (g : ε → ε') :
    (result.mapError g).map f = (result.map f).mapError g := by
  cases result <;> rfl

/-- Results that are the same when veiled are the same error, or the same apart from secrets. -/
theorem cases_of_map_eq {ε α β : Type} {veil : α → β} {first second : Except ε α}
    (hsame : first.map veil = second.map veil) :
    (∃ e, first = .error e ∧ second = .error e) ∨
      ∃ a b, first = .ok a ∧ second = .ok b ∧ veil a = veil b := by
  cases first with
  | ok a =>
    cases second with
    | ok b => exact .inr ⟨a, b, rfl, rfl, Except.ok.inj hsame⟩
    | error e => cases hsame
  | error e =>
    cases second with
    | ok b => cases hsame
    | error f => exact .inl ⟨e, rfl, congrArg Except.error (Except.error.inj hsame).symm⟩

theorem agree_of_map_eq {α β : Type} {veil : α → β} {first second : Except PushError α}
    (hsame : first.map veil = second.map veil) : Agree Eq (fun a b => veil a = veil b) first second := by
  rcases cases_of_map_eq hsame with ⟨e, rfl, rfl⟩ | ⟨a, b, rfl, rfl, hab⟩
  · exact .error rfl
  · exact .ok hab

theorem engineOf_eq {c d : Config} (hveiled : c.veiled = d.veiled) (dir : Option Directory) :
    engineOf c dir = engineOf d dir := by
  unfold engineOf
  rw [(Config.veiled_eq_iff.1 hveiled).1]

section

variable {s t : Script} (hagree : AgreeButSecrets s t) {c d : Config} (hveiled : c.veiled = d.veiled)
variable (shown : Notice → Act)

include hagree

theorem handedOut_veiled {h k : List Act} (hmatches : Matches h k)
    (hcloud : c.cloud.veiled = d.cloud.veiled) (server : String) :
    (s.handedOut c h server).map Registry.Credentials.veiled =
      (t.handedOut d k server).map Registry.Credentials.veiled := by
  have hexchange := hagree.exchange h k server hmatches
  have hanswer := hagree.cloud h k c.cloud d.cloud server hmatches hcloud
  unfold Script.handedOut
  cases hs : s.exchange with
  | some given =>
    cases ht : t.exchange with
    | some given' => simpa [hs, ht] using hexchange
    | none => simp [hs, ht] at hexchange
  | none =>
    cases ht : t.exchange with
    | some given' => simp [hs, ht] at hexchange
    | none =>
      dsimp only
      rw [map_mapError, hanswer, map_mapError]

include hveiled

theorem alike_workplaces :
    Alike Matches Eq Eq (fun given given' => given.veiled = given'.veiled)
      ((s.setup c).workplace s.host (Script.tell shown)) ((t.setup d).workplace t.host (Script.tell shown)) where
  errors := tolerates_eq
  usual := rfl
  notify n := lockstep_of_veiled (shown n) (shown n) rfl (fun _ => rfl) (fun _ => rfl) fun _ _ _ => rfl
  problem := by
    rintro text e _ rfl
    exact lockstep_of_veiled (shown _) (shown _) rfl (fun _ => rfl) (fun _ => rfl) fun _ _ _ => rfl
  exchange server := by
    have hcloud := (Config.veiled_eq_iff.1 hveiled).2.2.2.2.2.2.2
    rw [s.exchange_eq, t.exchange_eq]
    exact lockstep_of_veiled (.exchange server) (.exchange server) rfl (fun _ => rfl) (fun _ => rfl)
      fun h k hmatches => (agree_of_map_eq (handedOut_veiled hagree hmatches hcloud server)).settled
  ask := by
    rintro dir _ r rfl -
    have hengine := engineOf_eq hveiled dir
    have hprocess : invocationOf c dir r = invocationOf d dir r := by rw [invocationOf, hengine]; rfl
    rw [s.ask_of_engine shown c hagree.engine.1, t.ask_of_engine shown d hagree.engine.2, hengine, hprocess]
    refine lockstep_of_veiled (.start (invocationOf d dir r)) (.start (invocationOf d dir r)) rfl (fun _ => rfl)
      (fun _ => rfl) fun h k hmatches => ?_
    rw [hagree.start h k _ _ hmatches rfl]
    exact Script.settled_mapError _
  login := by
    rintro dir _ server given given' rfl hgiven
    obtain ⟨husername, hempty⟩ : given.username = given'.username ∧
        given.password.isEmpty = given'.password.isEmpty := by
      simpa [Registry.Credentials.veiled, Text.shownSecret_eq_iff] using hgiven
    have hengine := engineOf_eq hveiled dir
    -- The passwords differ, so that the two processes are the same only when veiled.
    have hprocess : (invocationOf c dir (.login server given'.username given.password)).veiled =
        (invocationOf d dir (.login server given'.username given'.password)).veiled := by
      simp only [invocationOf, hengine, Engine.invocation, Engine.Invocation.veiled, Engine.allArgs,
        Engine.Command.args_login _ _ hempty, Engine.redacted_login _ _ hempty]
    rw [s.ask_of_engine shown c hagree.engine.1, t.ask_of_engine shown d hagree.engine.2, hengine, husername]
    refine lockstep_of_veiled (.start _) (.start _) (congrArg Act.start hprocess) (fun _ => rfl) (fun _ => rfl)
      fun h k hmatches => ?_
    rw [hagree.start h k _ _ hmatches hprocess, Engine.result_login _ _ _ hempty]
    exact Script.settled_mapError _
  makeScratch := by
    refine lockstep_of_veiled .makeScratch .makeScratch rfl (fun _ => rfl) (fun _ => rfl) fun h k hmatches => ?_
    show Made Eq (s.makeScratch h) (t.makeScratch k)
    rw [hagree.makeScratch h k hmatches]
    exact made_eq _
  dropScratch := by
    rintro dir _ heq
    obtain rfl := Option.some.inj heq
    exact lockstep_of_veiled (.dropScratch dir) (.dropScratch dir) rfl (fun _ => rfl) (fun _ => rfl)
      fun h k hmatches => hagree.dropScratch h k dir hmatches

theorem push_lockstep (a : Artifact) :
    Lockstep Matches (Agree Eq (SamePushed Eq)) (s.pushTelling shown c a) (t.pushTelling shown d a) := by
  obtain ⟨-, hlogin, husername, hempty, hserver, hcloud, hplatform, -⟩ := Config.veiled_eq_iff.1 hveiled
  have hconfig : SameButCredentials (fun given given' => given.veiled = given'.veiled) c d := by
    refine ⟨hlogin, hcloud, hserver, hplatform, ?_⟩
    simp only [Registry.Credentials.veiled, husername, Text.shownSecret_eq_iff.2 hempty]
  have hown : s.ownScratch = t.ownScratch := by
    rw [Script.ownScratch, Script.ownScratch, hagree.engine.1, hagree.engine.2, hagree.sharedDir]
  exact pushTelling_lockstep (alike_workplaces hagree hveiled shown) hconfig hown a

end

/-! ### Programs that differ in secrets only -/

/-- Two calls of a program that differ in secrets only. The password may come from the file, the command line
or the environment, as long as both calls have one or neither has. -/
structure SameCall (s t : Script) (args args' : CommandLine.Args) : Prop where
  arguments : { args with loginPassword := none } = { args' with loginPassword := none }
  environment : ∀ name, name ≠ Config.passwordVariable →
    s.environment.value? name = t.environment.value? name
  file : ∀ h k, Matches h k →
    (s.fileSettings args h).map Config.withoutPassword = (t.fileSettings args' k).map Config.withoutPassword
  password : ∀ h k c d, Matches h k → s.settings args h = .ok c → t.settings args' k = .ok d →
    c.password.isEmpty = d.password.isEmpty
  artifact : ∀ h k, Matches h k → s.readFile h args.artifact = t.readFile k args'.artifact

section

variable {s t : Script} {args args' : CommandLine.Args}

/-- Laying the command line and the environment over settings keeps all but the password apart from it. -/
theorem layers_veiled {c d : Config} (hcall : SameCall s t args args')
    (hfile : c.withoutPassword = d.withoutPassword)
    (hpassword : ((args.applyTo c).fillFrom s.environment).password.isEmpty =
      ((args'.applyTo d).fillFrom t.environment).password.isEmpty) :
    ((args.applyTo c).fillFrom s.environment).veiled = ((args'.applyTo d).fillFrom t.environment).veiled := by
  have husername : s.environment.text? Config.usernameVariable =
      t.environment.text? Config.usernameVariable := by
    simp only [Environment.text?, hcall.environment Config.usernameVariable (by decide)]
  have harguments := hcall.arguments
  simp only [CommandLine.Args.mk.injEq] at harguments
  simp only [Config.withoutPassword, CloudAccess.veiled, Config.mk.injEq, CloudAccess.mk.injEq] at hfile
  rw [Config.veiled_eq_iff]
  refine ⟨?_, ?_, ?_, hpassword, ?_, ?_, ?_, ?_⟩ <;>
    simp only [Config.fillFrom, CommandLine.Args.applyTo, CloudAccess.veiled, harguments, hfile, husername]

/-- The settings of the two calls differ in secrets only. -/
theorem settings_veiled {h k : List Act} (hcall : SameCall s t args args') (hmatches : Matches h k) :
    (s.settings args h).map Config.veiled = (t.settings args' k).map Config.veiled := by
  have hpassword := hcall.password h k
  unfold Script.settings at hpassword ⊢
  rcases cases_of_map_eq (hcall.file h k hmatches) with ⟨e, hs, ht⟩ | ⟨c, d, hs, ht, hfile⟩
  · rw [hs, ht]
    rfl
  · rw [hs, ht] at hpassword ⊢
    have hempty := hpassword _ _ hmatches rfl rfl
    exact congrArg Except.ok (layers_veiled hcall hfile hempty)

end

/-! ### Steps of two programs -/

section

variable {s t : Script} {args args' : CommandLine.Args}

theorem print_lockstep (text : String) : Lockstep Matches Eq (s.host.print text) (t.host.print text) :=
  lockstep_of_veiled (.print text) (.print text) rfl (fun _ => rfl) (fun _ => rfl) fun _ _ _ => rfl

theorem printError_lockstep (text : String) :
    Lockstep Matches Eq (s.host.printError text) (t.host.printError text) :=
  lockstep_of_veiled (.printError text) (.printError text) rfl (fun _ => rfl) (fun _ => rfl) fun _ _ _ => rfl

/-- Both calls load settings that differ in secrets only. -/
theorem loadConfig_lockstep (hcall : SameCall s t args args') :
    Lockstep Matches (Agree Eq fun c d => c.veiled = d.veiled) (loadConfig s.host args)
      (loadConfig t.host args') := by
  intro h k hmatches
  have hconfig : args.config = args'.config := (CommandLine.Args.mk.inj hcall.arguments).2.1
  rw [loadConfig_apply, loadConfig_apply]
  refine ⟨agree_of_map_eq (settings_veiled hcall hmatches), ?_⟩
  unfold Matches veiled loading
  rw [hconfig, List.map_append, List.map_append]
  exact congrArg (· ++ _) hmatches

theorem readArtifact_lockstep (hcall : SameCall s t args args') :
    Lockstep Matches (Agree Eq Eq) (readArtifact s.host args.artifact) (readArtifact t.host args'.artifact) := by
  have hartifact : args.artifact = args'.artifact := (CommandLine.Args.mk.inj hcall.arguments).1
  refine .same (lockstep_of_veiled (.read args.artifact) (.read args'.artifact) (by rw [hartifact])
    (fun _ => rfl) (fun _ => rfl) hcall.artifact) fun content => ?_
  cases content with
  | error e => exact .pure (.error rfl)
  | ok content => exact .pure (agree_refl tolerates_eq _)

/-- The surroundings of two programs, which set their pushes up by the environment. -/
theorem agree_alone (hagree : AgreeButSecrets s t) (hcall : SameCall s t args args') :
    AgreeButSecrets s.alone t.alone :=
  { hagree with
    engine := ⟨rfl, rfl⟩
    sharedDir := congrArg (Option.map Directory.mk) (hcall.environment configDirVariable (by decide))
    exchange := fun _ _ _ _ => rfl }

theorem program_push_lockstep (hagree : AgreeButSecrets s t) (hcall : SameCall s t args args')
    (console : Console) {c d : Config} (hveiled : c.veiled = d.veiled) (a : Artifact) :
    Lockstep Matches (Agree Eq (SamePushed Eq)) (Program.push s.host console c a)
      (Program.push t.host console d a) := by
  rw [s.program_push_eq, t.program_push_eq]
  rcases cases_of_map_eq (Config.prepare_eq_of_veiled hveiled) with ⟨f, hc, hd⟩ | ⟨c', d', hc, hd, hprepared⟩
  · rw [hc, hd]
    exact .pure (.error rfl)
  · rw [hc, hd]
    exact push_lockstep (agree_alone hagree hcall) hprepared _ a

/-- Both programs do the same, apart from secrets. -/
theorem programs_alike (hagree : AgreeButSecrets s t) (hcall : SameCall s t args args') :
    ProgramsAlike Matches Eq (fun c d => c.veiled = d.veiled) s t args args' := by
  obtain ⟨-, -, houtput, -, -, -, -, -, -, -, -, hverbose, hquiet⟩ := CommandLine.Args.mk.inj hcall.arguments
  have hconsole : consoleOf args = consoleOf args' := by
    rw [consoleOf, hverbose, hquiet]
    rfl
  refine ⟨tolerates_eq, houtput, Config.diagnostic_eq_of_veiled, Config.mayPrompt_eq_of_veiled, ?_, ?_,
    loadConfig_lockstep hcall, readArtifact_lockstep hcall, ?_, ?_, ?_⟩
  · intro shown
    rw [hconsole]
    exact print_lockstep _
  · rintro e _ rfl
    exact printError_lockstep _
  · intro c d a hveiled
    rw [hconsole]
    exact (program_push_lockstep hagree hcall _ hveiled a).mono fun _ _ => .mono fun _ _ hpushed => hpushed.image
  · exact fun path content => lockstep_of_veiled (.write path content) (.write path content) rfl (fun _ => rfl)
      (fun _ => rfl) fun h k hmatches => hagree.writeFile h k path content hmatches
  · intro record
    rw [hconsole]
    exact .same (lockstep_of_veiled .clock .clock rfl (fun _ => rfl) (fun _ => rfl) hagree.elapsed) fun _ =>
      .same (print_lockstep _) fun _ => print_lockstep _

end

/-! ### Nothing leaks -/

/-- **Secrets do not leak.** Pushes whose surroundings and settings differ in secrets only end alike, with the
same error or the same image, and look the same, down to the arguments of each process and to each notice. So
do calls of the program, down to all that they print. The processes differ at most in what they read, and only
the login reads: exactly the password. -/
theorem secrets_do_not_leak {s t : Script} (hagree : AgreeButSecrets s t) :
    (∀ c d a h k, c.veiled = d.veiled → Matches h k →
      (s.push c a h).1 = (t.push d a k).1 ∧ LooksSame (s.push c a h).2 (t.push d a k).2 ∧
        OnlyPasswordRead s (· = c) h (s.push c a h).2 ∧ OnlyPasswordRead t (· = d) k (t.push d a k).2) ∧
      ∀ (words words' : List CommandLine.Word) args args' h k, CommandLine.parse words.tail = .ok args →
        CommandLine.parse words'.tail = .ok args' → SameCall s t args args' → Matches h k →
        (s.runProgram words h).1 = (t.runProgram words' k).1 ∧
          LooksSame (s.runProgram words h).2 (t.runProgram words' k).2 ∧
          OnlyPasswordRead s.alone (Configures s args (h ++ [heading args])) h (s.runProgram words h).2 ∧
          OnlyPasswordRead t.alone (Configures t args' (k ++ [heading args'])) k (t.runProgram words' k).2 := by
  constructor
  · intro c d a h k hveiled hmatches
    obtain ⟨hresult, hlooks⟩ := push_lockstep hagree hveiled .notice a h k hmatches
    exact ⟨(Agree.mono (fun _ _ hpushed => hpushed.eq) hresult).eq, hlooks.looksSame,
      push_inputs s _ (by simp) c a h, push_inputs t _ (by simp) d a k⟩
  · intro words words' args args' h k hwords hwords' hcall hmatches
    obtain ⟨hcode, hlooks⟩ := start_lockstep (programs_alike hagree hcall) hwords hwords' h k hmatches
    exact ⟨hcode, hlooks.looksSame, runProgram_inputs s hwords h, runProgram_inputs t hwords' k⟩

/-- The surroundings in which all but the name `v2` can be pushed, with an artifact to be read. -/
def stocked : Script :=
  { obliging with readFile := fun _ _ => .ok threeNames.toBytes }

theorem agree_stocked : AgreeButSecrets stocked stocked where
  engine := ⟨rfl, rfl⟩
  sharedDir := rfl
  start _ _ i j _ hprocess := by
    have hargs : i.args = j.args := (Engine.Invocation.mk.inj hprocess).2.1
    show Except.ok _ = Except.ok _
    rw [hargs]
  cloud _ _ _ _ _ _ _ := rfl
  exchange _ _ _ _ := rfl
  makeScratch _ _ _ := rfl
  dropScratch _ _ _ _ := rfl
  writeFile _ _ _ _ _ := rfl
  elapsed _ _ _ := rfl

/-- The words of a call with a password. -/
def callWith (password : String) : List CommandLine.Word :=
  ["docker-push", "--verbose", "--artifact", "image.json", "--login", "--login-password", password].map
    Text.Utf8.ofString

/-- The arguments of a call with a password. -/
def argsWith (password : String) : CommandLine.Args :=
  { artifact := "image.json", login := true, loginPassword := some password, verbose := true }

theorem sameCall_argsWith : SameCall stocked stocked (argsWith "hunter2") (argsWith "letmein") where
  arguments := rfl
  environment _ _ := rfl
  file _ _ _ := rfl
  password := by
    rintro _ _ c d - hc hd
    cases hc
    cases hd
    decide
  artifact _ _ _ := rfl

/-- Neither of two passwords can be seen, in a push and in a call of the program that show all there is. -/
theorem secrets_do_not_leak_two_passwords :
    AgreeButSecrets stocked stocked ∧
      (stocked.push { login := true, password := "hunter2" } threeNames []).1 =
        (stocked.push { login := true, password := "letmein" } threeNames []).1 ∧
      LooksSame (stocked.runProgram (callWith "hunter2") []).2 (stocked.runProgram (callWith "letmein") []).2 := by
  refine ⟨agree_stocked, ?_, ?_⟩
  · exact ((secrets_do_not_leak agree_stocked).1 { login := true, password := "hunter2" }
      { login := true, password := "letmein" } threeNames [] [] (by decide) rfl).1
  · exact ((secrets_do_not_leak agree_stocked).2 (callWith "hunter2") (callWith "letmein") (argsWith "hunter2")
      (argsWith "letmein") [] [] (by with_unfolding_all rfl) (by with_unfolding_all rfl) sameCall_argsWith rfl).2.1

end Program

end ImagePush
