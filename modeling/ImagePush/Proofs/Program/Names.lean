import ImagePush.Proofs.Program.Lockstep
import Mathlib.Data.List.Forall2

/-!
# Names of scratch directories

Two runs get scratch directories of two names. The name stands before the command of each process of the engine,
and the error of a command that fails repeats it; apart from that, the engine that ends alike answers alike
(`agree_result`).
-/

namespace ImagePush

/-! ### Texts -/

namespace Text

/-- The text of pieces, with the name in each gap. -/
def filled (name : String) (pieces : List (Option String)) : String :=
  String.join (pieces.map fun piece => piece.getD name)

/-- Two texts that are the same but for some gaps, in which each has a name of its own. -/
def SameBut (name name' t t' : String) : Prop :=
  ∃ pieces, t = filled name pieces ∧ t' = filled name' pieces

section

variable {name name' : String}

theorem sameBut_refl (t : String) : SameBut name name' t t :=
  ⟨[some t], by simp [filled], by simp [filled]⟩

theorem sameBut_name : SameBut name name' name name' :=
  ⟨[none], by simp [filled], by simp [filled]⟩

theorem SameBut.append {t t' u u' : String} (ht : SameBut name name' t t') (hu : SameBut name name' u u') :
    SameBut name name' (t ++ u) (t' ++ u') := by
  obtain ⟨pieces, rfl, rfl⟩ := ht
  obtain ⟨more, rfl, rfl⟩ := hu
  exact ⟨pieces ++ more, by simp [filled], by simp [filled]⟩

theorem SameBut.behind {t t' : String} (u : String) (ht : SameBut name name' t t') :
    SameBut name name' (u ++ t) (u ++ t') :=
  (sameBut_refl u).append ht

theorem SameBut.before {t t' : String} (ht : SameBut name name' t t') (u : String) :
    SameBut name name' (t ++ u) (t' ++ u) :=
  ht.append (sameBut_refl u)

theorem sameBut_join {ts us : List String} (hsame : List.Forall₂ (SameBut name name') ts us) :
    SameBut name name' (String.join ts) (String.join us) := by
  induction hsame with
  | nil => exact sameBut_refl _
  | cons htext _ ih =>
    rw [String.join_cons, String.join_cons]
    exact htext.append ih

end

end Text

namespace Program

open Push

section

variable (d d' : Directory)

/-- The directories in which two engines keep their configuration: the usual one, or scratch directories. -/
inductive SameDir : Option Directory → Option Directory → Prop where
  | usual : SameDir none none
  | scratch : SameDir (some d) (some d')

/-- Two processes that are the same but for the names of their scratch directories. -/
structure SameProcess (i j : Engine.Invocation) : Prop where
  executable : i.executable = j.executable
  args : i.args = j.args ∨ ∃ rest, i.args = "--config" :: d.shown :: rest ∧ j.args = "--config" :: d'.shown :: rest
  input : i.input = j.input

/-- Two errors that are the same but for the names of scratch directories in the command that failed. -/
inductive SameError : PushError → PushError → Prop where
  | refl (e : PushError) : SameError e e
  /-- The command that failed names the directory. -/
  | command {text text' : String} (htext : Text.SameBut d.shown d'.shown text text') (code : Int) (stderr : String) :
      SameError (.command text code stderr) (.command text' code stderr)
  /-- A failed login repeats its cause. -/
  | login {e f : PushError} (hef : SameError e f) : SameError (.login e) (.login f)

/-- Two acts that are the same but for the names of scratch directories. -/
inductive SameAct : Act → Act → Prop where
  | refl (act : Act) : SameAct act act
  | start {i j : Engine.Invocation} (hprocess : SameProcess d d' i j) : SameAct (.start i) (.start j)
  | printError {text text' : String} (htext : Text.SameBut d.shown d'.shown text text') :
      SameAct (.printError text) (.printError text')
  | dropScratch : SameAct (.dropScratch d) (.dropScratch d')

end

variable {d d' : Directory}

theorem SameProcess.refl (i : Engine.Invocation) : SameProcess d d' i i :=
  ⟨rfl, .inl rfl, rfl⟩

theorem tolerates_sameError : Tolerates (SameError d d') where
  same := .refl
  login := .login

theorem SameError.message {e f : PushError} (hef : SameError d d' e f) : Text.SameBut d.shown d'.shown e.message f.message := by
  induction hef with
  | refl e => exact Text.sameBut_refl _
  | command htext code stderr => exact (((htext.behind _).before _).before _).before _ |>.before _
  | login _ ih => exact ih.behind _

/-! ### The engine -/

section

variable {dir dir' : Option Directory} (hdir : SameDir d d' dir dir') (c : Config)

include hdir

theorem sameProcess_invocationOf (r : Request) :
    SameProcess d d' (invocationOf c dir r) (invocationOf c dir' r) := by
  cases hdir with
  | usual => exact ⟨rfl, .inl rfl, rfl⟩
  | scratch => exact ⟨rfl, .inr ⟨_, rfl, rfl⟩, rfl⟩

theorem sameBut_describe (command : Engine.Command) :
    Text.SameBut d.shown d'.shown ((engineOf c dir).describe command) ((engineOf c dir').describe command) := by
  cases hdir with
  | usual => exact Text.sameBut_refl _
  | scratch =>
    refine .behind _ ?_
    show Text.SameBut d.shown d'.shown (String.intercalate " " ("--config" :: d.shown :: command.args))
      (String.intercalate " " ("--config" :: d'.shown :: command.args))
    rw [String.intercalate_cons_cons, String.intercalate_cons_cons]
    refine .behind _ ?_
    cases command.args with
    | nil =>
      rw [String.intercalate_singleton, String.intercalate_singleton]
      exact Text.sameBut_name
    | cons arg args =>
      rw [String.intercalate_cons_cons, String.intercalate_cons_cons]
      exact (Text.sameBut_name.before _).before _

theorem agree_succeeded (command : Engine.Command) (o : Engine.Output) :
    Agree (SameError d d') Eq ((engineOf c dir).succeeded command o) ((engineOf c dir').succeeded command o) := by
  unfold Engine.succeeded
  split
  · exact .ok rfl
  · exact .error (.command (sameBut_describe hdir c command) _ _)

theorem agree_checked (command : Engine.Command) (ended : Except IoError Engine.Ending) :
    Agree (SameError d d') Eq ((engineOf c dir).checked command ended) ((engineOf c dir').checked command ended) := by
  unfold Engine.checked
  split
  · exact .error (.refl _)
  · exact agree_succeeded hdir c command _

theorem agree_streamed (command : Engine.Command) (ended : Except IoError Engine.Ending) :
    Agree (SameError d d') Eq ((engineOf c dir).streamed command ended)
      ((engineOf c dir').streamed command ended) := by
  unfold Engine.streamed
  split
  · exact .error (.refl _)
  · split
    · exact .error (.refl _)
    · exact agree_succeeded hdir c command _

/-- **The engine answers alike when its processes end alike**, but for the names of scratch directories. -/
theorem agree_result (r : Request) (ended : Except IoError Engine.Ending) :
    Agree (SameError d d') Eq ((engineOf c dir).result r ended) ((engineOf c dir').result r ended) := by
  cases r with
  | push name platform => exact (agree_streamed hdir c _ ended).map fun _ => _
  | login | logout | digest | remove => exact (agree_checked hdir c _ ended).map fun _ => _

end

end Program

end ImagePush
