import ImagePush.Push.Script

/-!
# Questions and answers of a push

The events of a scripted push tell what was asked, but not what was answered. `Script.replies` goes through
the events that follow a history and puts beside every question what the script answers at that point.
-/

namespace ImagePush.Push

/-- What is asked during a push, with the answer. -/
inductive Reply where
  | exchange (server : String) (answer : Outcome Registry.Credentials)
  | request (dir : Option Directory) (r : Request) (answer : Outcome r.Result)
  | makeScratch (answer : Except IoError Directory)
  | dropScratch (dir : Directory) (answer : Except IoError Unit)

namespace Script

variable (s : Script)

/-- What a script answers to an event, if that is a question. -/
def reply? (h : History) : Event → Option Reply
  | .notice _ => none
  | .exchange server => some (.exchange server (s.credentials h server))
  | .request dir r => some (.request dir r (s.answer h dir r))
  | .makeScratch => some (.makeScratch (s.makeScratch h))
  | .dropScratch dir => some (.dropScratch dir (s.dropScratch h dir))

/-- The questions among the events that follow a history, with the answers. -/
def replies : History → History → List Reply
  | _, [] => []
  | h, e :: es => (s.reply? h e).toList ++ replies (h ++ [e]) es

@[simp]
theorem replies_nil (h : History) : s.replies h [] = [] := rfl

@[simp]
theorem replies_notice (h : History) (n : Notice) (es : History) :
    s.replies h (.notice n :: es) = s.replies (h ++ [.notice n]) es := rfl

@[simp]
theorem replies_exchange (h : History) (server : String) (es : History) :
    s.replies h (.exchange server :: es) =
      .exchange server (s.credentials h server) :: s.replies (h ++ [.exchange server]) es := rfl

@[simp]
theorem replies_request (h : History) (dir : Option Directory) (r : Request) (es : History) :
    s.replies h (.request dir r :: es) =
      .request dir r (s.answer h dir r) :: s.replies (h ++ [.request dir r]) es := rfl

@[simp]
theorem replies_makeScratch (h : History) (es : History) :
    s.replies h (.makeScratch :: es) =
      .makeScratch (s.makeScratch h) :: s.replies (h ++ [.makeScratch]) es := rfl

@[simp]
theorem replies_dropScratch (h : History) (dir : Directory) (es : History) :
    s.replies h (.dropScratch dir :: es) =
      .dropScratch dir (s.dropScratch h dir) :: s.replies (h ++ [.dropScratch dir]) es := rfl

theorem replies_append (h es fs : History) :
    s.replies h (es ++ fs) = s.replies h es ++ s.replies (h ++ es) fs := by
  induction es generalizing h with
  | nil => simp
  | cons e es ih => simp [replies, ih]

/-! ### One step of a scripted push -/

variable (dir : Option Directory) (h : History)

@[simp]
theorem notify_apply (n : Notice) :
    (s.workplace.peers dir).notify n h = ((), h ++ [.notice n]) := rfl

@[simp]
theorem exchange_apply (server : String) :
    (s.workplace.peers dir).exchange server h = (s.credentials h server, h ++ [.exchange server]) := rfl

@[simp]
theorem ask_apply (r : Request) :
    (s.workplace.peers dir).ask r h = (s.answer h dir r, h ++ [.request dir r]) := rfl

@[simp]
theorem workplace_notify_apply (n : Notice) : s.workplace.notify n h = ((), h ++ [.notice n]) := rfl

@[simp]
theorem makeScratch_apply : s.workplace.makeScratch h = (s.makeScratch h, h ++ [.makeScratch]) := rfl

@[simp]
theorem dropScratch_apply (path : Directory) :
    s.workplace.dropScratch path h = (s.dropScratch h path, h ++ [.dropScratch path]) := rfl

end Script

/-- A step behind one whose run is known. -/
theorem bind_of_eq {σ α β : Type} {first : StateM σ β} {rest : β → StateM σ α} {h h' : σ} {mid : β}
    (hfirst : first h = (mid, h')) : (do rest (← first)) h = rest mid h' :=
  congrArg (fun p : β × σ => rest p.1 p.2) hfirst

/-! ### What a list of replies tells -/

/-- The request to the engine in a reply. -/
def Reply.request? : Reply → Option Request
  | .request _ r _ => some r
  | _ => none

/-- The server whose credentials the cloud was asked for in a reply. -/
def Reply.exchange? : Reply → Option String
  | .exchange server _ => some server
  | _ => none

/-- The name that was to be pushed in a reply, the platform and the answer. -/
def Reply.push? : Reply → Option (String × String × Outcome Unit)
  | .request _ (.push name platform) answer => some (name, platform, answer)
  | _ => none

/-- The requests to the engine, in order. -/
def requests (log : List Reply) : List Request :=
  log.filterMap Reply.request?

/-- The servers whose credentials the cloud was asked for, in order. -/
def exchanges (log : List Reply) : List String :=
  log.filterMap Reply.exchange?

/-- The names that were to be pushed, each with its platform and the answer, in order. -/
def pushes (log : List Reply) : List (String × String × Outcome Unit) :=
  log.filterMap Reply.push?

end ImagePush.Push
