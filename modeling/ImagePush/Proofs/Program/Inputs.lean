import ImagePush.Proofs.Engine.Command
import ImagePush.Proofs.Program.Acts
import ImagePush.Proofs.Push.Session

/-!
# What the processes read

Of all processes that a push runs, only the login has an input, and that is exactly the password: the one that
is configured, or the one that was handed out for the server. Programs run no processes but those of their
pushes (`runProgram_inputs`).
-/

namespace ImagePush

namespace Push

/-! ### Questions and events -/

theorem mem_requests_of_mem (s : Script) {dir : Option Directory} {r : Request} {h es : History}
    (hmem : .request dir r ∈ es) : r ∈ requests (s.replies h es) := by
  obtain ⟨before, after, rfl⟩ := List.append_of_mem hmem
  rw [Script.replies_append, requests_append]
  exact List.mem_append_right _ List.mem_cons_self

theorem exchange_of_mem_replies (s : Script) {server : String} {answer : Outcome Registry.Credentials}
    {h es : History} (hmem : Reply.exchange server answer ∈ s.replies h es) :
    ∃ before after, es = before ++ .exchange server :: after ∧ s.credentials (h ++ before) server = answer := by
  induction es generalizing h with
  | nil => exact absurd hmem List.not_mem_nil
  | cons e es ih =>
    rcases List.mem_append.1 hmem with hfirst | hlater
    · cases e with
      | exchange server' =>
        obtain ⟨rfl, rfl⟩ := Reply.exchange.inj (List.mem_singleton.1 hfirst)
        exact ⟨[], es, rfl, by rw [List.append_nil]⟩
      | notice | request | makeScratch | dropScratch => simp [Script.reply?] at hfirst
    · obtain ⟨before, after, rfl, hanswer⟩ := ih hlater
      exact ⟨e :: before, after, rfl, by rw [List.append_assoc] at hanswer; exact hanswer⟩

/-- The only login of a push is that with the credentials that are due. -/
theorem Course.given_of_login {own : Bool} {c : Config} {a : Artifact} {out : Outcome Pushed} {es : History}
    {log : List Reply} (hcourse : Course own c a out es log) {server username password : String}
    (hmem : .login server username password ∈ requests log) :
    ∃ given, Given c log given ∧ Request.login server username password = loginOf c given := by
  obtain ⟨opening, work, closing, hrequests, hopening, hwork, -, hclosing⟩ := hcourse.bracketed.session
  rw [hrequests] at hmem
  rcases List.mem_append.1 hmem with hmem | hmem
  · rcases List.mem_append.1 hmem with hmem | hmem
    · rcases hopening with ⟨given, hdue, rfl⟩ | ⟨-, rfl⟩
      · exact ⟨given, hdue.2.2.2, List.mem_singleton.1 hmem⟩
      · exact absurd hmem List.not_mem_nil
    · simpa using hwork _ hmem
  · rcases hclosing with ⟨-, rfl⟩ | ⟨-, rfl⟩
    · simp at hmem
    · exact absurd hmem List.not_mem_nil

end Push

namespace Program

open Push

/-- The credentials for the login of a push that did these acts behind `h`: those that were handed out for the
server, or those that are configured. -/
def Known (s : Script) (c : Config) (h acts : List Act) (given : Registry.Credentials) : Prop :=
  if c.cloudLogin = true then
    ∃ before after, acts = before ++ .exchange c.server :: after ∧
      s.handedOut c (h ++ before) c.server = .ok given
  else given = ⟨c.username, c.password⟩

/-- A process is that of the login and reads exactly the password, if there is one, or it is that of another
request and reads nothing. -/
def ReadsPassword (s : Script) (c : Config) (h acts : List Act) (i : Engine.Invocation) : Prop :=
  (∃ dir given, Known s c h acts given ∧ i = invocationOf c dir (loginOf c given) ∧
    i.input = if given.password.isEmpty then none else some given.password) ∨
  ∃ dir r, (∀ server username password, r ≠ .login server username password) ∧
    i = invocationOf c dir r ∧ i.input = none

theorem Known.append_right {s : Script} {c : Config} {h acts : List Act} {given : Registry.Credentials}
    (hknown : Known s c h acts given) (more : List Act) : Known s c h (acts ++ more) given := by
  unfold Known at hknown ⊢
  split_ifs at hknown ⊢ with hcloud
  · obtain ⟨before, after, rfl, hgiven⟩ := hknown
    exact ⟨before, after ++ more, by simp, hgiven⟩
  · exact hknown

theorem Known.behind {s : Script} {c : Config} {h acts : List Act} {given : Registry.Credentials}
    (more : List Act) (hknown : Known s c (h ++ more) acts given) : Known s c h (more ++ acts) given := by
  unfold Known at hknown ⊢
  split_ifs at hknown ⊢ with hcloud
  · obtain ⟨before, after, rfl, hgiven⟩ := hknown
    exact ⟨more ++ before, after, by simp, by rw [← List.append_assoc]; exact hgiven⟩
  · exact hknown

theorem ReadsPassword.append_right {s : Script} {c : Config} {h acts : List Act} {i : Engine.Invocation}
    (hreads : ReadsPassword s c h acts i) (more : List Act) : ReadsPassword s c h (acts ++ more) i := by
  rcases hreads with ⟨dir, given, hknown, hi⟩ | hother
  · exact .inl ⟨dir, given, hknown.append_right more, hi⟩
  · exact .inr hother

theorem ReadsPassword.behind {s : Script} {c : Config} {h acts : List Act} {i : Engine.Invocation}
    (more : List Act) (hreads : ReadsPassword s c (h ++ more) acts i) :
    ReadsPassword s c h (more ++ acts) i := by
  rcases hreads with ⟨dir, given, hknown, hi⟩ | hother
  · exact .inl ⟨dir, given, hknown.behind more, hi⟩
  · exact .inr hother

/-- Between these acts and those after them, processes read nothing but the password of a push with one of the
settings. -/
def OnlyPasswordRead (s : Script) (settings : Config → Prop) (h after : List Act) : Prop :=
  ∃ acts, after = h ++ acts ∧ ∀ i, .start i ∈ acts → ∃ c, settings c ∧ ReadsPassword s c h acts i

namespace OnlyPasswordRead

variable {s : Script} {settings : Config → Prop}

theorem refl (h : List Act) : OnlyPasswordRead s settings h h :=
  ⟨[], (List.append_nil h).symm, fun _ hmem => absurd hmem List.not_mem_nil⟩

/-- An act that runs no process. -/
theorem act (h : List Act) {act : Act} (hact : ∀ i, act ≠ .start i) :
    OnlyPasswordRead s settings h (h ++ [act]) :=
  ⟨[act], rfl, fun i hmem => absurd (List.mem_singleton.1 hmem).symm (hact i)⟩

theorem trans {h mid after : List Act} (hfirst : OnlyPasswordRead s settings h mid)
    (hrest : OnlyPasswordRead s settings mid after) : OnlyPasswordRead s settings h after := by
  obtain ⟨acts, rfl, hreads⟩ := hfirst
  obtain ⟨more, rfl, hreads'⟩ := hrest
  refine ⟨acts ++ more, List.append_assoc .., fun i hmem => ?_⟩
  rcases List.mem_append.1 hmem with hmem | hmem
  · obtain ⟨c, hc, hi⟩ := hreads i hmem
    exact ⟨c, hc, hi.append_right more⟩
  · obtain ⟨c, hc, hi⟩ := hreads' i hmem
    exact ⟨c, hc, hi.behind acts⟩

theorem mono {settings' : Config → Prop} (hsub : ∀ c, settings c → settings' c) {h after : List Act}
    (honly : OnlyPasswordRead s settings h after) : OnlyPasswordRead s settings' h after := by
  obtain ⟨acts, hacts, hreads⟩ := honly
  refine ⟨acts, hacts, fun i hmem => ?_⟩
  obtain ⟨c, hc, hi⟩ := hreads i hmem
  exact ⟨c, hsub c hc, hi⟩

theorem bind {α β : Type} {first : StateM (List Act) β} {rest : β → StateM (List Act) α} {h : List Act}
    (hfirst : OnlyPasswordRead s settings h (first h).2)
    (hrest : OnlyPasswordRead s settings (first h).2 (rest (first h).1 (first h).2).2) :
    OnlyPasswordRead s settings h ((do rest (← first) : StateM (List Act) α) h).2 :=
  hfirst.trans hrest

end OnlyPasswordRead

/-! ### The processes of a push -/

theorem known_of_given {s : Script} {shown : Notice → Act} {c : Config} {h : List Act} {es : History}
    {given : Registry.Credentials} (hgiven : Given c ((s.answers shown c h).replies [] es) given) :
    Known s c h (s.acts shown c es) given := by
  unfold Given at hgiven
  unfold Known
  split_ifs at hgiven ⊢ with hcloud
  · obtain ⟨before, after, rfl, hanswer⟩ := exchange_of_mem_replies _ hgiven
    have hout : (s.handedOut c (h ++ s.acts shown c before) c.server).mapError Halt.failed = .ok given := hanswer
    refine ⟨s.acts shown c before, s.acts shown c after, s.acts_append shown c _ _, ?_⟩
    cases hresult : s.handedOut c (h ++ s.acts shown c before) c.server with
    | ok found =>
      rw [hresult] at hout
      cases hout
      rfl
    | error e =>
      rw [hresult] at hout
      cases hout
  · exact hgiven

/-- The processes of a push read nothing but the password. -/
theorem push_inputs (s : Script) (shown : Notice → Act) (hshown : ∀ n i, shown n ≠ .start i) (c : Config)
    (a : Artifact) (h : List Act) : OnlyPasswordRead s (· = c) h (s.pushTelling shown c a h).2 := by
  obtain ⟨es, hes, hcourse⟩ := s.push_course shown c h a
  refine ⟨s.acts shown c es, hes, fun i hstart => ⟨c, rfl, ?_⟩⟩
  obtain ⟨dir, r, hmem, rfl⟩ : ∃ dir r, Event.request dir r ∈ es ∧ i = invocationOf c dir r := by
    obtain ⟨e, hmem, hact⟩ := List.mem_map.1 hstart
    cases e with
    | notice n => exact absurd hact (hshown n i)
    | request dir r =>
      refine ⟨dir, r, hmem, ?_⟩
      unfold Script.act at hact
      split_ifs at hact
      exact (Act.start.inj hact).symm
    | exchange | makeScratch | dropScratch => cases hact
  by_cases hlogin : ∃ server username password, r = .login server username password
  · obtain ⟨server, username, password, rfl⟩ := hlogin
    obtain ⟨given, hgiven, hsame⟩ := hcourse.given_of_login (mem_requests_of_mem (s.answers shown c h) hmem)
    rw [hsame]
    exact .inl ⟨dir, given, known_of_given hgiven, rfl, Engine.Command.input_login ..⟩
  · have hother : ∀ server username password, r ≠ .login server username password :=
      fun server username password hsame => hlogin ⟨server, username, password, hsame⟩
    exact .inr ⟨dir, r, hother, rfl, Engine.Command.input_ofRequest hother⟩

/-! ### The processes of a program -/

/-- A step of a program whose processes read nothing but the password of a push with one of the given
settings. -/
def Feeds {α : Type} (s : Script) (settings : Config → Prop) (step : StateM (List Act) α) : Prop :=
  ∀ h, OnlyPasswordRead s settings h (step h).2

namespace Feeds

variable {s : Script} {settings : Config → Prop} {α β : Type}

theorem pure (a : α) : Feeds s settings (pure a) :=
  fun h => .refl h

theorem single {step : StateM (List Act) α} (act : Act) (hstep : ∀ h, (step h).2 = h ++ [act])
    (hact : ∀ i, act ≠ .start i) : Feeds s settings step := by
  intro h
  rw [hstep]
  exact .act h hact

theorem bind {first : StateM (List Act) β} {rest : β → StateM (List Act) α} (hfirst : Feeds s settings first)
    (hrest : ∀ b, Feeds s settings (rest b)) : Feeds s settings (do rest (← first)) :=
  fun h => (hfirst h).bind (hrest _ _)

end Feeds

/-- The settings in the file that the arguments name, if any. -/
def Script.fileSettings (s : Script) (args : CommandLine.Args) (h : List Act) : Except PushError Config :=
  match args.config with
  | none => .ok {}
  | some path =>
    match s.readFile h path with
    | .error e => .error (.io e)
    | .ok content => Config.ofBytes content

/-- The settings from the file, the command line and the environment. -/
def Script.settings (s : Script) (args : CommandLine.Args) (h : List Act) : Except PushError Config :=
  (s.fileSettings args h).map fun c => (args.applyTo c).fillFrom s.environment

/-- The acts of loading the settings. -/
def loading (args : CommandLine.Args) : List Act :=
  match args.config with
  | none => []
  | some path => [.read path]

theorem loadConfig_apply (s : Script) (args : CommandLine.Args) (h : List Act) :
    loadConfig s.host args h = (s.settings args h, h ++ loading args) := by
  have hread : readConfig s.host args.config h = (s.fileSettings args h, h ++ loading args) := by
    unfold readConfig Script.fileSettings loading
    cases args.config with
    | none => exact Prod.ext rfl (List.append_nil h).symm
    | some path =>
      have hfile : s.host.readFile path h = (s.readFile h path, h ++ [.read path]) := rfl
      refine (bind_of_eq hfile).trans ?_
      dsimp only
      cases s.readFile h path <;> rfl
  unfold loadConfig Script.settings
  refine (bind_of_eq hread).trans ?_
  cases s.fileSettings args h <;> rfl

/-- The settings of a push of a program that loads its settings behind these acts. -/
def Configures (s : Script) (args : CommandLine.Args) (h : List Act) (c : Config) : Prop :=
  ∃ loaded, s.settings args h = .ok loaded ∧ loaded.prepare = .ok c

/-- What a program prints before anything else. -/
def heading (args : CommandLine.Args) : Act :=
  .print ((consoleOf args).heading "Docker Push")

section

variable (s : Script) (settings : Config → Prop)

theorem print_feeds (text : String) : Feeds s.alone settings (s.host.print text) :=
  .single (.print text) (fun _ => rfl) (by simp)

theorem printError_feeds (text : String) : Feeds s.alone settings (s.host.printError text) :=
  .single (.printError text) (fun _ => rfl) (by simp)

theorem readFile_feeds (path : String) : Feeds s.alone settings (s.host.readFile path) :=
  .single (.read path) (fun _ => rfl) (by simp)

theorem loadConfig_feeds (args : CommandLine.Args) : Feeds s.alone settings (loadConfig s.host args) := by
  intro h
  rw [loadConfig_apply]
  unfold loading
  split
  · rw [List.append_nil]
    exact .refl h
  · exact .act h (by simp)

theorem readArtifact_feeds (path : String) : Feeds s.alone settings (readArtifact s.host path) := by
  refine .bind (readFile_feeds s settings path) fun content => ?_
  cases content <;> exact .pure _

theorem writeRecord_feeds (console : Console) (record : Artifact) (output : Option String) :
    Feeds s.alone settings (writeRecord s.host console record output) := by
  cases output with
  | some path =>
    refine .bind (.single (.write path record.toBytes) (fun _ => rfl) (by simp)) fun written => ?_
    cases written with
    | error e => exact .pure _
    | ok _ => exact .bind (print_feeds s settings _) fun _ => .pure _
  | none => exact .bind (print_feeds s settings _) fun _ => .pure _

theorem report_feeds (console : Console) (record : Artifact) :
    Feeds s.alone settings (report s.host console record) :=
  .bind (.single .clock (fun _ => rfl) (by simp)) fun _ =>
    .bind (print_feeds s settings _) fun _ => print_feeds s settings _

theorem push_feeds (console : Console) {c : Config} (hprepare : ∀ d, c.prepare = .ok d → settings d)
    (a : Artifact) : Feeds s.alone settings (Program.push s.host console c a) := by
  rw [s.program_push_eq]
  cases hprepared : c.prepare with
  | error f => exact .pure _
  | ok d =>
    refine fun h => (push_inputs s.alone _ (Script.shownOn_ne_start console) d a h).mono fun e he => ?_
    rw [he]
    exact hprepare d hprepared

end

theorem optional_feeds {α : Type} {s : Script} {settings : Config → Prop} {wanted : Bool}
    {first : StateM (List Act) Unit} {rest : Unit → StateM (List Act) α} (hfirst : Feeds s settings first)
    (hrest : ∀ u, Feeds s settings (rest u)) :
    Feeds s settings (if wanted = true then do rest (← first) else rest ()) := by
  split
  · exact .bind hfirst hrest
  · exact hrest ()

theorem run_inputs (s : Script) (args : CommandLine.Args) (h : List Act) :
    OnlyPasswordRead s.alone (Configures s args (h ++ [heading args])) h (Program.run s.host args h).2 := by
  -- The settings are those that are loaded right behind the heading, so that the history is followed until then.
  have hheading : s.host.print ((consoleOf args).heading "Docker Push") h = ((), h ++ [heading args]) := rfl
  refine .bind (print_feeds s _ _ h) ?_
  rw [hheading]
  refine .bind (loadConfig_feeds s _ args _) ?_
  rw [loadConfig_apply]
  cases hloaded : s.settings args (h ++ [heading args]) with
  | error e => exact .refl _
  | ok c =>
    refine Feeds.bind (print_feeds s _ _) (fun _ => optional_feeds (print_feeds s _ _) fun _ =>
      .bind (readArtifact_feeds s _ args.artifact) fun read => ?_) _
    cases read with
    | error e => exact .pure _
    | ok a =>
      refine .bind (print_feeds s _ _) fun _ =>
        .bind (push_feeds s _ _ (fun d hd => ⟨c, hloaded, hd⟩) a) fun pushed => ?_
      cases pushed with
      | error e => exact .pure _
      | ok p =>
        refine .bind (writeRecord_feeds s _ _ _ _) fun written => ?_
        cases written with
        | error e => exact .pure _
        | ok _ => exact .bind (report_feeds s _ _ _) fun _ => .pure _

/-- Only the login of a push of a program has an input, and that is exactly the password. -/
theorem runProgram_inputs (s : Script) {words : List CommandLine.Word} {args : CommandLine.Args}
    (hparse : CommandLine.parse words.tail = .ok args) (h : List Act) :
    OnlyPasswordRead s.alone (Configures s args (h ++ [heading args])) h (s.runProgram words h).2 := by
  show OnlyPasswordRead _ _ h (Program.start s.host words h).2
  unfold Program.start
  rw [hparse]
  refine .bind (run_inputs s args h) ?_
  cases (Program.run s.host args h).1 with
  | ok _ => exact .refl _
  | error e => exact Feeds.bind (printError_feeds s _ _) (fun _ => .pure _) _

end Program

end ImagePush
