import ImagePush.Proofs.Push.Courses
import Mathlib.Data.List.Basic

/-!
# The session of a push

A push that is not given up asks the cloud and the engine in one shape only: the cloud first, then the
login, then everything that needs the session, and the logout at the end. Each of these is asked once or not
at all, and `Bracketed` says when. The answers are arbitrary, so that the shape is kept on every way out.
-/

namespace ImagePush.Push

/-! ### What the replies of a push tell -/

/-- The engine is at hand: it does without a scratch directory, or that was created. -/
def Acquired (own : Bool) (log : List Reply) : Prop :=
  own = true → ∃ path, Reply.makeScratch (.ok path) ∈ log

/-- The credentials for a login: those that the cloud gave if it is to be asked, otherwise those that are
configured. -/
def Given (c : Config) (log : List Reply) (given : Registry.Credentials) : Prop :=
  if c.cloudLogin = true then Reply.exchange c.server (.ok given) ∈ log
  else given = ⟨c.username, c.password⟩

/-- A login succeeded. -/
def LoggedIn (log : List Reply) : Prop :=
  ∃ dir server username password,
    Reply.request dir (.login server username password) (.ok ()) ∈ log

/-- The question in a reply that goes to the cloud or to the engine. -/
def Reply.call? : Reply → Option (String ⊕ Request)
  | .exchange server _ => some (.inl server)
  | .request _ r _ => some (.inr r)
  | _ => none

/-- The questions to the cloud and to the engine, in order. -/
def calls (log : List Reply) : List (String ⊕ Request) :=
  log.filterMap Reply.call?

/-- The cloud is to be asked for credentials. -/
def ExchangeDue (own : Bool) (c : Config) (a : Artifact) (log : List Reply) : Prop :=
  a.isImage = true ∧ Acquired own log ∧ c.cloudLogin = true

/-- A session is wanted, with the credentials that are configured or with those of the cloud. -/
def SessionWanted (c : Config) : Prop :=
  c.login = true ∨ c.cloudLogin = true

/-- A login is to take place with these credentials: nothing has failed before. -/
def LoginDue (own : Bool) (c : Config) (a : Artifact) (log : List Reply)
    (given : Registry.Credentials) : Prop :=
  a.isImage = true ∧ Acquired own log ∧ SessionWanted c ∧ Given c log given

/-- The shape of the questions of a push, given its events and its questions with their answers. -/
structure Bracketed (own : Bool) (c : Config) (a : Artifact) (es : History) (log : List Reply) : Prop where
  /-- Nothing happens to an artifact that is not known. -/
  unknown : a.isImage = false → es = []
  /-- The cloud is asked before the engine. -/
  exchange_first : calls log = (exchanges log).map .inl ++ (requests log).map .inr
  /-- The cloud is asked once, and only if it has to be. -/
  exchange_once : (ExchangeDue own c a log ∧ exchanges log = [c.server]) ∨
    (¬ ExchangeDue own c a log ∧ exchanges log = [])
  /-- The engine is not asked if the cloud gives nothing. -/
  exchange_failed : ∀ server halt, Reply.exchange server (.error halt) ∈ log → requests log = []
  /-- The engine is asked for a login if one is due, for the pushes and the digest if the login succeeded
  or none was wanted, and for a logout if the login succeeded. -/
  session : ∃ opening work closing, requests log = opening ++ work ++ closing ∧
    ((∃ given, LoginDue own c a log given ∧ opening = [loginOf c given]) ∨
      ((∀ given, ¬ LoginDue own c a log given) ∧ opening = [])) ∧
    (∀ r ∈ work, (∃ name, r = .push name c.platform) ∨ r = .digest a.id) ∧
    (work ≠ [] → ¬ SessionWanted c ∨ LoggedIn log) ∧
    ((LoggedIn log ∧ closing = [.logout c.server]) ∨ (¬ LoggedIn log ∧ closing = []))

theorem sessionWanted_iff {c : Config} : SessionWanted c ↔ c.wantsLogin = true := by
  simp [SessionWanted, Config.wantsLogin]

theorem not_sessionWanted {c : Config} (hwants : c.wantsLogin = false) : ¬ SessionWanted c := by
  simp [sessionWanted_iff, hwants]

/-! ### Replies put together -/

theorem requests_append (l₁ l₂ : List Reply) : requests (l₁ ++ l₂) = requests l₁ ++ requests l₂ :=
  List.filterMap_append

theorem exchanges_append (l₁ l₂ : List Reply) : exchanges (l₁ ++ l₂) = exchanges l₁ ++ exchanges l₂ :=
  List.filterMap_append

theorem calls_append (l₁ l₂ : List Reply) : calls (l₁ ++ l₂) = calls l₁ ++ calls l₂ :=
  List.filterMap_append

theorem loggedIn_append {l₁ l₂ : List Reply} : LoggedIn (l₁ ++ l₂) ↔ LoggedIn l₁ ∨ LoggedIn l₂ := by
  simp only [LoggedIn, List.mem_append, exists_or]

/-- A login that succeeded was asked for. -/
theorem LoggedIn.mem_requests {log : List Reply} (hlogged : LoggedIn log) :
    ∃ server username password, Request.login server username password ∈ requests log := by
  obtain ⟨dir, server, username, password, hmem⟩ := hlogged
  exact ⟨server, username, password, List.mem_filterMap.2 ⟨_, hmem, rfl⟩⟩

/-- Replies that ask neither the cloud nor the engine. -/
theorem quiet_of_calls_eq_nil {log : List Reply} (hcalls : calls log = []) :
    requests log = [] ∧ exchanges log = [] ∧ ¬ LoggedIn log := by
  have hnone : ∀ reply ∈ log, reply.call? = none := List.filterMap_eq_nil_iff.1 hcalls
  refine ⟨List.filterMap_eq_nil_iff.2 fun reply hmem => ?_,
    List.filterMap_eq_nil_iff.2 fun reply hmem => ?_, ?_⟩
  · cases reply with
    | request dir r answer => exact absurd (hnone _ hmem) (by simp [Reply.call?])
    | _ => rfl
  · cases reply with
    | exchange server answer => exact absurd (hnone _ hmem) (by simp [Reply.call?])
    | _ => rfl
  · rintro ⟨dir, server, username, password, hmem⟩
    exact absurd (hnone _ hmem) (by simp [Reply.call?])

/-- Replies of the engine to pushes and to the look-up of the digest, and no others. -/
def IsWork (platform id : String) (log : List Reply) : Prop :=
  ∀ reply ∈ log, ∃ dir r answer, reply = .request dir r answer ∧
    ((∃ name, r = .push name platform) ∨ r = .digest id)

namespace IsWork

variable {platform id : String} {log : List Reply}

theorem append {log' : List Reply} (hwork : IsWork platform id log) (hwork' : IsWork platform id log') :
    IsWork platform id (log ++ log') := by
  intro reply hmem
  rcases List.mem_append.1 hmem with hmem | hmem
  · exact hwork reply hmem
  · exact hwork' reply hmem

theorem exchanges_eq (hwork : IsWork platform id log) : exchanges log = [] := by
  refine List.filterMap_eq_nil_iff.2 fun reply hmem => ?_
  obtain ⟨dir, r, answer, rfl, -⟩ := hwork reply hmem
  rfl

theorem calls_eq (hwork : IsWork platform id log) : calls log = (requests log).map .inr := by
  unfold calls requests
  rw [List.map_filterMap]
  refine List.filterMap_congr fun reply hmem => ?_
  obtain ⟨dir, r, answer, rfl, -⟩ := hwork reply hmem
  rfl

theorem mem_requests (hwork : IsWork platform id log) :
    ∀ r ∈ requests log, (∃ name, r = .push name platform) ∨ r = .digest id := by
  intro r hmem
  obtain ⟨reply, hreply, hr⟩ := List.mem_filterMap.1 hmem
  obtain ⟨dir, r', answer, rfl, hkind⟩ := hwork reply hreply
  obtain rfl : r' = r := Option.some.inj hr
  exact hkind

theorem not_loggedIn (hwork : IsWork platform id log) : ¬ LoggedIn log := by
  intro hlogged
  obtain ⟨server, username, password, hmem⟩ := hlogged.mem_requests
  simpa using hwork.mem_requests _ hmem

end IsWork

theorem NamesCourse.isWork {dir : Option Directory} {platform : String} {names : List String}
    {out : Outcome Unit} {es : History} {log : List Reply}
    (hcourse : NamesCourse dir platform names out es log) (id : String) : IsWork platform id log := by
  have htaken : ∀ names, IsWork platform id (taken dir platform names) := by
    intro names reply hmem
    obtain ⟨name, -, rfl⟩ := List.mem_map.1 hmem
    exact ⟨dir, _, _, rfl, .inl ⟨name, rfl⟩⟩
  cases hcourse with
  | all => exact htaken names
  | refused before hnames =>
    refine (htaken before).append fun reply hmem => ?_
    obtain rfl := List.mem_singleton.1 hmem
    exact ⟨dir, _, _, rfl, .inl ⟨_, rfl⟩⟩

theorem ArtifactCourse.isWork {dir : Option Directory} {platform : String} {a : Artifact}
    {out : Outcome Pushed} {es : History} {log : List Reply}
    (hcourse : ArtifactCourse dir platform a out es log) : IsWork platform a.id log := by
  cases hcourse with
  | refused hnames => exact hnames.isWork a.id
  | pushed hnames hdigest =>
    refine (hnames.isWork a.id).append fun reply hmem => ?_
    cases hdigest with
    | found | missing =>
      obtain rfl := List.mem_singleton.1 hmem
      exact ⟨dir, _, _, rfl, .inr rfl⟩

/-! ### The shape of a session -/

/-- The cloud is asked for the credentials of some servers, then the engine is asked for something. -/
structure Asks (log : List Reply) (cloud : List String) (engine : List Request) : Prop where
  calls_eq : calls log = cloud.map .inl ++ engine.map .inr
  exchanges_eq : exchanges log = cloud
  requests_eq : requests log = engine

theorem Asks.append {l₁ l₂ : List Reply} {cloud : List String} {engine₁ engine₂ : List Request}
    (h₁ : Asks l₁ cloud engine₁) (h₂ : Asks l₂ [] engine₂) :
    Asks (l₁ ++ l₂) cloud (engine₁ ++ engine₂) where
  calls_eq := by
    rw [calls_append, h₁.calls_eq, h₂.calls_eq, List.map_nil, List.nil_append, List.map_append,
      List.append_assoc]
  exchanges_eq := by rw [exchanges_append, h₁.exchanges_eq, h₂.exchanges_eq, List.append_nil]
  requests_eq := by rw [requests_append, h₁.requests_eq, h₂.requests_eq]

theorem IsWork.asks {platform id : String} {log : List Reply} (hwork : IsWork platform id log) :
    Asks log [] (requests log) :=
  ⟨by rw [hwork.calls_eq]; rfl, hwork.exchanges_eq, rfl⟩

/-- The servers whose credentials are to be fetched from the cloud. -/
def cloudServers (c : Config) : List String :=
  if c.cloudLogin = true then [c.server] else []

theorem CredentialsCourse.asks {c : Config} {out : Outcome Registry.Credentials} {es : History}
    {log : List Reply} (hcourse : CredentialsCourse c out es log) : Asks log (cloudServers c) [] := by
  cases hcourse with
  | configured hcloud =>
    have hservers : cloudServers c = [] := by simp [cloudServers, hcloud]
    rw [hservers]
    exact ⟨rfl, rfl, rfl⟩
  | cloud hcloud | failed hcloud =>
    have hservers : cloudServers c = [c.server] := by simp [cloudServers, hcloud]
    rw [hservers]
    exact ⟨rfl, rfl, rfl⟩

theorem CredentialsCourse.given {c : Config} {given : Registry.Credentials} {es : History}
    {log : List Reply} (hcourse : CredentialsCourse c (.ok given) es log) : Given c log given := by
  cases hcourse with
  | configured hcloud => simp [Given, hcloud]
  | cloud hcloud => simp [Given, hcloud]

theorem CredentialsCourse.not_given {c : Config} {e : PushError} {es : History} {log : List Reply}
    (hcourse : CredentialsCourse c (.error (.failed e)) es log) (given : Registry.Credentials) :
    ¬ Given c log given := by
  cases hcourse with
  | failed hcloud => simp [Given, hcloud]

theorem CredentialsCourse.not_mem_failed {c : Config} {given : Registry.Credentials} {es : History}
    {log : List Reply} (hcourse : CredentialsCourse c (.ok given) es log) (server : String) (halt : Halt) :
    Reply.exchange server (.error halt) ∉ log := by
  cases hcourse <;> simp

theorem CredentialsCourse.not_loggedIn {c : Config} {out : Outcome Registry.Credentials} {es : History}
    {log : List Reply} (hcourse : CredentialsCourse c out es log) : ¬ LoggedIn log := by
  intro hlogged
  obtain ⟨server, username, password, hmem⟩ := hlogged.mem_requests
  rw [hcourse.asks.requests_eq] at hmem
  exact absurd hmem List.not_mem_nil

theorem OpeningCourse.asks {dir : Option Directory} {c : Config} {given : Registry.Credentials}
    {out : Outcome Unit} {es : History} {log : List Reply}
    (hcourse : OpeningCourse dir c given out es log) : Asks log [] [loginOf c given] := by
  cases hcourse <;> exact ⟨rfl, rfl, rfl⟩

theorem OpeningCourse.loggedIn_iff {dir : Option Directory} {c : Config} {given : Registry.Credentials}
    {out : Outcome Unit} {es : History} {log : List Reply}
    (hcourse : OpeningCourse dir c given out es log) : LoggedIn log ↔ out = .ok () := by
  cases hcourse with
  | opened =>
    refine iff_of_true ⟨dir, c.server, given.username, given.password, ?_⟩ rfl
    exact List.mem_singleton_self _
  | refused =>
    refine iff_of_false ?_ (by simp)
    rintro ⟨dir', server, username, password, hmem⟩
    simp [loginOf] at hmem

theorem ClosingCourse.asks {dir : Option Directory} {server : String} {es : History} {log : List Reply}
    (hcourse : ClosingCourse dir server es log) : Asks log [] [.logout server] := by
  cases hcourse <;> exact ⟨rfl, rfl, rfl⟩

/-- The cloud is not asked in replies of the engine. -/
theorem not_mem_exchange_of_exchanges_eq_nil {log : List Reply} (hnone : exchanges log = [])
    (server : String) (answer : Outcome Registry.Credentials) : Reply.exchange server answer ∉ log := by
  intro hmem
  have hserver : server ∈ exchanges log := List.mem_filterMap.2 ⟨_, hmem, rfl⟩
  rw [hnone] at hserver
  exact absurd hserver List.not_mem_nil

/-- The credentials that a login takes are not changed by what happens after the cloud was asked. -/
theorem CredentialsCourse.given_append {c : Config} {given : Registry.Credentials} {es : History}
    {log rest : List Reply} (hcourse : CredentialsCourse c (.ok given) es log)
    (hnone : exchanges rest = []) :
    Given c (log ++ rest) given ∧ ∀ server halt, Reply.exchange server (.error halt) ∉ log ++ rest := by
  have hmem : ∀ server answer, Reply.exchange server answer ∈ log ++ rest ↔
      Reply.exchange server answer ∈ log := by
    intro server answer
    simp [not_mem_exchange_of_exchanges_eq_nil hnone]
  constructor
  · have hgiven := hcourse.given
    unfold Given at hgiven ⊢
    rwa [hmem]
  · intro server halt
    rw [hmem]
    exact hcourse.not_mem_failed server halt

/-- The shape of the questions of a session. -/
structure SessionShape (c : Config) (a : Artifact) (log : List Reply) : Prop where
  exchange_first : calls log = (exchanges log).map .inl ++ (requests log).map .inr
  exchanges_eq : exchanges log = cloudServers c
  exchange_failed : ∀ server halt, Reply.exchange server (.error halt) ∈ log → requests log = []
  session : ∃ opening work closing, requests log = opening ++ work ++ closing ∧
    ((∃ given, (SessionWanted c ∧ Given c log given) ∧ opening = [loginOf c given]) ∨
      ((∀ given, ¬ (SessionWanted c ∧ Given c log given)) ∧ opening = [])) ∧
    (∀ r ∈ work, (∃ name, r = .push name c.platform) ∨ r = .digest a.id) ∧
    (work ≠ [] → ¬ SessionWanted c ∨ LoggedIn log) ∧
    ((LoggedIn log ∧ closing = [.logout c.server]) ∨ (¬ LoggedIn log ∧ closing = []))

theorem Asks.exchange_first {log : List Reply} {cloud : List String} {engine : List Request}
    (hasks : Asks log cloud engine) :
    calls log = (exchanges log).map .inl ++ (requests log).map .inr := by
  rw [hasks.exchanges_eq, hasks.requests_eq]
  exact hasks.calls_eq

theorem SessionCourse.shape {dir : Option Directory} {c : Config} {a : Artifact} {out : Outcome Pushed}
    {es : History} {log : List Reply} (hcourse : SessionCourse dir c a out es log) :
    SessionShape c a log := by
  cases hcourse with
  | without hwants hpush =>
    have hwork := hpush.isWork
    have hcloud : c.cloudLogin = false := by
      simp only [Config.wantsLogin, Bool.or_eq_false_iff] at hwants
      exact hwants.2
    have hunwanted := not_sessionWanted hwants
    refine ⟨hwork.asks.exchange_first, ?_, fun server halt hmem => ?_,
      [], requests log, [], by simp, .inr ⟨?_, rfl⟩, hwork.mem_requests, fun _ => .inl hunwanted,
      .inr ⟨hwork.not_loggedIn, rfl⟩⟩
    · simp [hwork.exchanges_eq, cloudServers, hcloud]
    · exact absurd hmem (not_mem_exchange_of_exchanges_eq_nil hwork.exchanges_eq _ _)
    · exact fun given hdue => hunwanted hdue.1
  | noCredentials hwants hgiven =>
    have hasks := hgiven.asks
    refine ⟨hasks.exchange_first, hasks.exchanges_eq, fun _ _ _ => hasks.requests_eq,
      [], [], [], hasks.requests_eq, .inr ⟨?_, rfl⟩, by simp, by simp,
      .inr ⟨hgiven.not_loggedIn, rfl⟩⟩
    exact fun given hdue => hgiven.not_given given hdue.2
  | @notOpened given es₁ es₂ log₁ log₂ e hwants hgiven hopen =>
    have hasks := hgiven.asks.append hopen.asks
    obtain ⟨hgiven', hnone⟩ := hgiven.given_append hopen.asks.exchanges_eq
    have hlogged : ¬ LoggedIn (log₁ ++ log₂) := by
      rw [loggedIn_append, hopen.loggedIn_iff]
      simp [hgiven.not_loggedIn]
    exact ⟨hasks.exchange_first, hasks.exchanges_eq, fun server halt hfailed => absurd hfailed (hnone _ _),
      [loginOf c given], [], [], hasks.requests_eq, .inl ⟨given, ⟨sessionWanted_iff.2 hwants, hgiven'⟩, rfl⟩, by simp, by simp,
      .inr ⟨hlogged, rfl⟩⟩
  | @within given out es₁ es₂ es₃ es₄ log₁ log₂ log₃ log₄ hwants hgiven hopen hpush hclose =>
    have hwork := hpush.isWork
    have hengine := hopen.asks.append (hwork.asks.append hclose.asks)
    have hasks := hgiven.asks.append hengine
    obtain ⟨hgiven', hnone⟩ := hgiven.given_append hengine.exchanges_eq
    have hlogged : LoggedIn (log₁ ++ (log₂ ++ (log₃ ++ log₄))) := by
      simp only [loggedIn_append, hopen.loggedIn_iff, true_or, or_true]
    simp only [List.append_assoc]
    exact ⟨hasks.exchange_first, hasks.exchanges_eq, fun server halt hfailed => absurd hfailed (hnone _ _),
      [loginOf c given], requests log₃, [.logout c.server], hasks.requests_eq,
      .inl ⟨given, ⟨sessionWanted_iff.2 hwants, hgiven'⟩, rfl⟩, hwork.mem_requests, fun _ => .inr hlogged,
      .inl ⟨hlogged, rfl⟩⟩

/-! ### The shape of a whole push -/

/-- The shape of a session is that of the push around it, which asks nothing more of the cloud and the
engine. -/
theorem SessionShape.bracketed {own : Bool} {c : Config} {a : Artifact} {es : History}
    {before log after : List Reply} (himage : a.isImage = true)
    (hacquired : Acquired own (before ++ log ++ after)) (hbefore : calls before = [])
    (hafter : calls after = []) (hshape : SessionShape c a log) :
    Bracketed own c a es (before ++ log ++ after) := by
  obtain ⟨hreq, hexch, hlogin⟩ := quiet_of_calls_eq_nil hbefore
  obtain ⟨hreq', hexch', hlogin'⟩ := quiet_of_calls_eq_nil hafter
  have hrequests : requests (before ++ log ++ after) = requests log := by
    simp [requests_append, hreq, hreq']
  have hexchanges : exchanges (before ++ log ++ after) = exchanges log := by
    simp [exchanges_append, hexch, hexch']
  have hcalls : calls (before ++ log ++ after) = calls log := by
    simp [calls_append, hbefore, hafter]
  have hlogged : LoggedIn (before ++ log ++ after) ↔ LoggedIn log := by
    simp [loggedIn_append, hlogin, hlogin']
  have hmem : ∀ server answer, Reply.exchange server answer ∈ before ++ log ++ after ↔
      Reply.exchange server answer ∈ log := by
    intro server answer
    simp [not_mem_exchange_of_exchanges_eq_nil hexch, not_mem_exchange_of_exchanges_eq_nil hexch']
  have hdue : ∀ given, LoginDue own c a (before ++ log ++ after) given ↔
      SessionWanted c ∧ Given c log given := by
    intro given
    simp only [LoginDue, Given, hmem, himage, hacquired, true_and]
  refine ⟨fun hunknown => absurd (himage.symm.trans hunknown) (by simp), ?_, ?_, ?_, ?_⟩
  · rw [hcalls, hexchanges, hrequests]
    exact hshape.exchange_first
  · rw [hexchanges, hshape.exchanges_eq]
    by_cases hcloud : c.cloudLogin = true
    · exact .inl ⟨⟨himage, hacquired, hcloud⟩, by simp [cloudServers, hcloud]⟩
    · exact .inr ⟨fun hasked => hcloud hasked.2.2, by simp [cloudServers, hcloud]⟩
  · intro server halt hfailed
    rw [hrequests]
    exact hshape.exchange_failed server halt ((hmem _ _).1 hfailed)
  · simp only [hdue, hlogged, hrequests]
    exact hshape.session

theorem Course.bracketed {own : Bool} {c : Config} {a : Artifact} {out : Outcome Pushed} {es : History}
    {log : List Reply} (hcourse : Course own c a out es log) : Bracketed own c a es log := by
  cases hcourse with
  | unknown himage =>
    refine ⟨fun _ => rfl, rfl, .inr ⟨?_, rfl⟩, by simp, [], [], [], rfl, .inr ⟨?_, rfl⟩, by simp,
      by simp, .inr ⟨by simp [LoggedIn], rfl⟩⟩
    · rintro ⟨hknown, -⟩
      simp [himage] at hknown
    · rintro given ⟨hknown, -⟩
      simp [himage] at hknown
  | noScratch himage hown =>
    have hnone : ∀ {e}, ¬ Acquired own [.makeScratch (.error e)] := by
      intro e hacquired
      simpa using hacquired hown
    refine ⟨by simp [himage], rfl, .inr ⟨fun hdue => hnone hdue.2.1, rfl⟩, by simp, [], [], [], rfl,
      .inr ⟨fun given hdue => hnone hdue.2.1, rfl⟩, by simp, by simp,
      .inr ⟨by simp [LoggedIn], rfl⟩⟩
  | @shared out es log himage hown hsession =>
    have hbracketed : Bracketed own c a es ([] ++ log ++ []) :=
      hsession.shape.bracketed himage (by simp [Acquired, hown]) rfl rfl
    simpa using hbracketed
  | @scratch path out es es' log log' himage hown hsession hremove =>
    have hafter : calls log' = [] := by cases hremove <;> rfl
    show Bracketed own c a _ ([.makeScratch (.ok path)] ++ log ++ log')
    exact hsession.shape.bracketed himage (fun _ => ⟨path, by simp⟩) rfl hafter

/-- **Every push that is not given up keeps its session closed**: whatever the answers are, its questions
have the shape of `Bracketed`. -/
theorem session_bracketed (s : Script) (own : Bool) (c : Config) (a : Artifact) (h : History)
    (hdone : (s.run own c a h).1 ≠ .error .abandoned) :
    ∃ es, (s.run own c a h).2 = h ++ es ∧ Bracketed own c a es (s.replies h es) := by
  obtain ⟨es, hes, hcourse⟩ := run_course s rfl hdone
  exact ⟨es, hes, hcourse.bracketed⟩

/-- A workplace whose engine refuses the name `v2` and every logout. -/
def stubborn : Script where
  answer _ _
    | .push name _ => if name = "v2" then .error (.failed (.io (.other "denied"))) else .ok ()
    | .logout _ => .error (.failed (.io (.other "gone")))
    | .digest id => .ok id
    | .login _ _ _ => .ok ()
    | .remove _ => .ok ()
  credentials _ _ := .ok ⟨"AWS", "token"⟩
  makeScratch _ := .ok "/tmp/docker-push"
  dropScratch _ _ := .ok ()

/-- An image with three names. -/
def threeNames : Artifact where
  builderId := Artifact.tagBuilder
  id := "app"
  state := [(Artifact.tagsKey, .strings ["v1", "v2"])]

/-- Settings for a session with the credentials that are configured. -/
def plainSession : Config :=
  { login := true, username := "user", password := "hunter2", server := "registry" }

/-- Settings for a session with the credentials of the cloud. -/
def cloudSession : Config :=
  { cloudLogin := true, username := "user", password := "hunter2", server := "registry" }

/-- The session is closed although the second tag is refused, whoever gave the credentials for it. -/
theorem session_bracketed_refused :
    ((stubborn.run true plainSession threeNames []).1 ≠ .error .abandoned ∧
      ∃ es, (stubborn.run true plainSession threeNames []).2 = [] ++ es ∧
        Bracketed true plainSession threeNames es (stubborn.replies [] es) ∧
        requests (stubborn.replies [] es) = [.login "registry" "user" "hunter2", .push "app" "",
          .push "v1" "", .push "v2" "", .logout "registry"]) ∧
    (stubborn.run true cloudSession threeNames []).1 ≠ .error .abandoned ∧
      ∃ es, (stubborn.run true cloudSession threeNames []).2 = [] ++ es ∧
        Bracketed true cloudSession threeNames es (stubborn.replies [] es) ∧
        requests (stubborn.replies [] es) = [.login "registry" "AWS" "token", .push "app" "",
          .push "v1" "", .push "v2" "", .logout "registry"] := by
  have hplain : (stubborn.run true plainSession threeNames []).1 ≠ .error .abandoned := by
    intro habandoned
    cases habandoned
  have hcloud : (stubborn.run true cloudSession threeNames []).1 ≠ .error .abandoned := by
    intro habandoned
    cases habandoned
  obtain ⟨es, hes, hbracketed⟩ := session_bracketed stubborn true plainSession threeNames [] hplain
  obtain ⟨fs, hfs, hbracketed'⟩ := session_bracketed stubborn true cloudSession threeNames [] hcloud
  refine ⟨⟨hplain, es, hes, hbracketed, ?_⟩, hcloud, fs, hfs, hbracketed', ?_⟩
  · obtain rfl : _ = es := hes
    rfl
  · obtain rfl : _ = fs := hfs
    rfl

end ImagePush.Push
