import ImagePush.Engine.Process
import ImagePush.Proofs.Text.Lines

/-!
# Ends of processes

A command either follows the exit code of its process (`FollowsExit`), or its output was no text: all commands but a
push follow it whatever is written, a push exactly if what is written is text (`push_follows_exit_iff`). For text the
two ways to take the output differ in the ends of lines only (`streamed_as_checked`).
-/

namespace ImagePush.Engine

open Text

/-! ### What an exit code tells -/

theorem Ending.exitCode_eq_zero_iff {ending : Ending} : ending.exitCode = 0 ↔ ending.code = some 0 := by
  unfold Ending.exitCode
  cases ending.code with
  | none => simp
  | some n => simp

/-- What a command gives follows from the exit code of its process: it succeeds with code zero, and fails with any
other code. -/
structure FollowsExit {α : Type} (command : String) (ending : Ending) (given : Except PushError α) : Prop where
  ok_iff : (∃ x, given = .ok x) ↔ ending.code = some 0
  error_of_ne : ending.code ≠ some 0 → ∃ stderr, given = .error (.command command ending.exitCode stderr)

section

variable {α : Type} {command : String} {ending : Ending}

theorem followsExit_ok (hzero : ending.code = some 0) (x : α) : FollowsExit command ending (.ok x) := by
  constructor
  · exact ⟨fun _ => hzero, fun _ => ⟨x, rfl⟩⟩
  · intro hne
    exact absurd hzero hne

theorem followsExit_command (hne : ending.code ≠ some 0) (stderr : String) :
    FollowsExit (α := α) command ending (.error (.command command ending.exitCode stderr)) := by
  constructor
  · constructor
    · rintro ⟨x, hx⟩
      cases hx
    · intro hzero
      exact absurd hzero hne
  · intro _
    exact ⟨stderr, rfl⟩

/-- An error of input or output says nothing about an exit code. -/
theorem not_followsExit_io {f : IoError} : ¬ FollowsExit (α := α) command ending (.error (.io f)) := by
  intro h
  by_cases hzero : ending.code = some 0
  · obtain ⟨x, hx⟩ := h.ok_iff.2 hzero
    cases hx
  · obtain ⟨stderr, hstderr⟩ := h.error_of_ne hzero
    cases hstderr

end

section

variable {e : Engine} {c : Command} {o : Output} {ending : Ending}

theorem succeeded_of_zero (hcode : o.exitCode = 0) : e.succeeded c o = .ok o := by
  rw [succeeded, Output.success, hcode]
  rfl

theorem succeeded_of_ne_zero (hcode : o.exitCode ≠ 0) :
    e.succeeded c o = .error (.command (e.describe c) o.exitCode o.stderr) := by
  have hfails : ¬ o.success = true := by
    rw [Output.success, beq_iff_eq]
    exact hcode
  rw [succeeded, if_neg hfails]

theorem followsExit_succeeded (hcode : o.exitCode = ending.exitCode) :
    FollowsExit (e.describe c) ending (e.succeeded c o) := by
  by_cases hzero : ending.code = some 0
  · rw [succeeded_of_zero (hcode.trans (Ending.exitCode_eq_zero_iff.2 hzero))]
    exact followsExit_ok hzero o
  · have hne : o.exitCode ≠ 0 := by
      rw [hcode]
      exact mt Ending.exitCode_eq_zero_iff.1 hzero
    rw [succeeded_of_ne_zero hne, hcode]
    exact followsExit_command hzero o.stderr

theorem FollowsExit.map {α β : Type} {command : String} {given : Except PushError α}
    (h : FollowsExit command ending given) (f : α → β) : FollowsExit command ending (given.map f) := by
  constructor
  · rw [← h.ok_iff]
    constructor
    · rintro ⟨y, hy⟩
      obtain ⟨x, hx, -⟩ := map_eq_ok.1 hy
      exact ⟨x, hx⟩
    · rintro ⟨x, rfl⟩
      exact ⟨f x, rfl⟩
  · intro hne
    obtain ⟨stderr, rfl⟩ := h.error_of_ne hne
    exact ⟨stderr, rfl⟩

/-- What a process writes does not matter, if it is mended where it is no text. -/
theorem followsExit_checked : FollowsExit (e.describe c) ending (e.checked c (.ok ending)) :=
  followsExit_succeeded (o := plain ending) rfl

theorem followsExit_result {r : Request} (hr : ∀ name platform, r ≠ .push name platform) :
    FollowsExit (e.describe (.ofRequest r)) ending (e.result r (.ok ending)) := by
  cases r with
  | push name platform => exact absurd rfl (hr name platform)
  | login | logout | digest | remove => exact followsExit_checked.map _

end

/-! ### Output read line by line -/

section

variable {e : Engine} {c : Command} {ending : Ending}

theorem lined_of_text {out err : List Char} (hout : ending.stdout = Utf8.encode out)
    (herr : ending.stderr = Utf8.encode err) :
    lined ending = .ok ⟨.ofList (Lines.normal out), .ofList (Lines.normal err), ending.exitCode⟩ := by
  rw [lined, Lines.textOf_eq_ok_iff.2 ⟨out, hout, rfl⟩, Lines.textOf_eq_ok_iff.2 ⟨err, herr, rfl⟩]

theorem lined_of_not_text (h : ¬ (Utf8.IsText ending.stdout ∧ Utf8.IsText ending.stderr)) :
    ∃ fault, lined ending = .error (.malformed fault) ∧
      (Lines.textOf ending.stdout = .error fault ∨ Lines.textOf ending.stderr = .error fault) := by
  unfold lined
  cases hout : Lines.textOf ending.stdout with
  | error fault => exact ⟨fault, rfl, .inl rfl⟩
  | ok out =>
    cases herr : Lines.textOf ending.stderr with
    | error fault => exact ⟨fault, rfl, .inr rfl⟩
    | ok err =>
      obtain ⟨s, hs, -⟩ := Lines.textOf_eq_ok_iff.1 hout
      obtain ⟨s', hs', -⟩ := Lines.textOf_eq_ok_iff.1 herr
      exact absurd ⟨⟨s, hs⟩, ⟨s', hs'⟩⟩ h

theorem streamed_of_lined {o : Output} (h : lined ending = .ok o) : e.streamed c (.ok ending) = e.succeeded c o := by
  simp only [streamed, h]

theorem streamed_of_fault {f : IoError} (h : lined ending = .error f) :
    e.streamed c (.ok ending) = .error (.io f) := by
  simp only [streamed, h]

theorem followsExit_streamed (hout : Utf8.IsText ending.stdout) (herr : Utf8.IsText ending.stderr) :
    FollowsExit (e.describe c) ending (e.streamed c (.ok ending)) := by
  obtain ⟨out, hout⟩ := hout
  obtain ⟨err, herr⟩ := herr
  rw [streamed_of_lined (lined_of_text hout herr)]
  exact followsExit_succeeded rfl

end

/-- **A push follows the exit code of its process exactly if the process writes text**; if it does not, the push fails
whatever the code. All other requests follow the exit code whatever is written. -/
theorem push_follows_exit_iff (e : Engine) (name platform : String) (ending : Ending) :
    (FollowsExit (e.describe (.ofRequest (.push name platform))) ending
        (e.result (.push name platform) (.ok ending)) ↔
      Utf8.IsText ending.stdout ∧ Utf8.IsText ending.stderr) ∧
    (¬ (Utf8.IsText ending.stdout ∧ Utf8.IsText ending.stderr) →
      ∃ fault, e.result (.push name platform) (.ok ending) = .error (.io (.malformed fault)) ∧
        (Lines.textOf ending.stdout = .error fault ∨ Lines.textOf ending.stderr = .error fault)) ∧
    ∀ r : Request, (∀ name platform, r ≠ .push name platform) →
      FollowsExit (e.describe (.ofRequest r)) ending (e.result r (.ok ending)) := by
  have hfails : ¬ (Utf8.IsText ending.stdout ∧ Utf8.IsText ending.stderr) →
      ∃ fault, e.result (.push name platform) (.ok ending) = .error (.io (.malformed fault)) ∧
        (Lines.textOf ending.stdout = .error fault ∨ Lines.textOf ending.stderr = .error fault) := by
    intro h
    obtain ⟨fault, hlined, hfault⟩ := lined_of_not_text h
    exact ⟨fault, congrArg (Except.map fun _ => ()) (streamed_of_fault hlined), hfault⟩
  refine ⟨?_, hfails, fun r hr => followsExit_result hr⟩
  constructor
  · intro h
    by_contra htext
    obtain ⟨fault, hresult, -⟩ := hfails htext
    rw [hresult] at h
    exact not_followsExit_io h
  · rintro ⟨hout, herr⟩
    exact (followsExit_streamed hout herr).map _

/-- A process that succeeds and writes one line that is no text. -/
def stray : Ending where
  stdout := [0xFF, 0x0A]

/-- No text begins with the byte. -/
theorem decode_stray (rest : List UInt8) : Utf8.decode (0xFF :: rest) = .error ⟨0, some 1⟩ := by
  rw [Utf8.decode, Utf8.decodeFrom]
  rfl

theorem push_follows_exit_text_only :
    FollowsExit "docker push app" ⟨Utf8.ofString "\u00e9\r\n", [], some 1⟩
        (Engine.result ⟨"docker", none⟩ (.push "app" "") (.ok ⟨Utf8.ofString "\u00e9\r\n", [], some 1⟩)) ∧
      (∃ fault, Engine.result ⟨"docker", none⟩ (.push "app" "") (.ok stray) = .error (.io (.malformed fault)) ∧
        (Lines.textOf stray.stdout = .error fault ∨ Lines.textOf stray.stderr = .error fault)) ∧
      FollowsExit "docker rmi app" stray (Engine.result ⟨"docker", none⟩ (.remove "app") (.ok stray)) := by
  refine ⟨?_, ?_, ?_⟩
  · exact (push_follows_exit_iff ⟨"docker", none⟩ "app" "" ⟨Utf8.ofString "\u00e9\r\n", [], some 1⟩).1.2
      ⟨Utf8.isText_ofString _, ⟨[], rfl⟩⟩
  · exact (push_follows_exit_iff ⟨"docker", none⟩ "app" "" stray).2.1
      fun h => Utf8.not_isText_of_decode (decode_stray _) h.1
  · exact (push_follows_exit_iff ⟨"docker", none⟩ "app" "" stray).2.2 (.remove "app") nofun

/-- A push that the engine completed fails if the engine writes a line that is no text. -/
theorem completed_push_fails :
    stray.code = some 0 ∧
      Engine.result ⟨"docker", none⟩ (.push "app" "") (.ok stray) = .error (.io (.malformed ⟨0, some 1⟩)) ∧
      ¬ ∀ (e : Engine) (name platform : String) (ending : Ending),
        FollowsExit (e.describe (.ofRequest (.push name platform))) ending
          (e.result (.push name platform) (.ok ending)) := by
  have htext : Lines.textOf stray.stdout = .error ⟨0, some 1⟩ := by
    show Lines.join [[0xFF]] = _
    rw [Lines.join, decode_stray]
    rfl
  have hlined : lined stray = .error (.malformed ⟨0, some 1⟩) := by
    rw [lined, htext]
  have hresult : Engine.result ⟨"docker", none⟩ (.push "app" "") (.ok stray) =
      .error (.io (.malformed ⟨0, some 1⟩)) :=
    congrArg (Except.map fun _ => ()) (streamed_of_fault hlined)
  refine ⟨rfl, hresult, ?_⟩
  intro h
  have hstray := h ⟨"docker", none⟩ "app" "" stray
  rw [hresult] at hstray
  exact not_followsExit_io hstray

/-! ### Both ways to take the output -/

/-- A process that writes text. -/
def Ending.ofText (out err : String) (code : Option Nat) : Ending :=
  ⟨Utf8.ofString out, Utf8.ofString err, code⟩

section

variable (e : Engine) (c : Command) (out err : String) (code : Option Nat)

theorem checked_ofText :
    e.checked c (.ok (.ofText out err code)) =
      e.succeeded c ⟨out, err, (Ending.ofText out err code).exitCode⟩ := by
  have hplain : plain (.ofText out err code) = ⟨out, err, (Ending.ofText out err code).exitCode⟩ := by
    simp only [plain, Ending.ofText, Utf8.ofString, Utf8.decodeLossy_encode, String.ofList_toList]
  rw [← hplain]
  rfl

theorem streamed_ofText :
    e.streamed c (.ok (.ofText out err code)) =
      e.succeeded c ⟨Lines.closeLines out, Lines.closeLines err, (Ending.ofText out err code).exitCode⟩ :=
  streamed_of_lined (lined_of_text rfl rfl)

theorem succeeded_eq_ok_iff (exitCode : Int) :
    e.succeeded c ⟨out, err, exitCode⟩ = .ok ⟨out, err, 0⟩ ↔ exitCode = 0 := by
  constructor
  · intro h
    by_contra hne
    rw [succeeded_of_ne_zero hne] at h
    cases h
  · rintro rfl
    exact succeeded_of_zero rfl

end

/-- **Of text, what is read line by line is what is taken as it is**, up to the ends of lines: both commands succeed
with code zero, and with any other code both fail with the code and the diagnostics. If there is no process, both fail
with the same error. -/
theorem streamed_as_checked (e : Engine) (args : List String) :
    (∀ (out err : String) (code : Option Nat),
      (e.streamed ⟨args, none⟩ (.ok (.ofText out err code)) =
          .ok ⟨Lines.closeLines out, Lines.closeLines err, 0⟩ ↔
        e.checked ⟨args, none⟩ (.ok (.ofText out err code)) = .ok ⟨out, err, 0⟩) ∧
      (e.checked ⟨args, none⟩ (.ok (.ofText out err code)) = .ok ⟨out, err, 0⟩ ↔ code = some 0) ∧
      (code ≠ some 0 →
        e.streamed ⟨args, none⟩ (.ok (.ofText out err code)) =
            .error (.command (e.describe ⟨args, none⟩) (Ending.ofText out err code).exitCode
              (Lines.closeLines err)) ∧
          e.checked ⟨args, none⟩ (.ok (.ofText out err code)) =
            .error (.command (e.describe ⟨args, none⟩) (Ending.ofText out err code).exitCode err))) ∧
    ∀ f : IoError, e.streamed ⟨args, none⟩ (.error f) = .error (.io f) ∧
      e.checked ⟨args, none⟩ (.error f) = .error (.io f) := by
  constructor
  · intro out err code
    have hzero : (Ending.ofText out err code).exitCode = 0 ↔ code = some 0 := Ending.exitCode_eq_zero_iff
    rw [checked_ofText, streamed_ofText, succeeded_eq_ok_iff, succeeded_eq_ok_iff]
    refine ⟨Iff.rfl, hzero, ?_⟩
    intro hne
    exact ⟨succeeded_of_ne_zero (mt hzero.1 hne), succeeded_of_ne_zero (mt hzero.1 hne)⟩
  · intro f
    exact ⟨rfl, rfl⟩

/-- A push that is killed while it writes. -/
theorem streamed_as_checked_killed :
    Engine.streamed ⟨"docker", none⟩ ⟨["push", "app"], none⟩ (.ok (.ofText "" "a\r\nb" none)) =
        .error (.command "docker push app" (-1) "a\nb\n") ∧
      Engine.checked ⟨"docker", none⟩ ⟨["push", "app"], none⟩ (.ok (.ofText "" "a\r\nb" none)) =
        .error (.command "docker push app" (-1) "a\r\nb") := by
  exact ((streamed_as_checked ⟨"docker", none⟩ ["push", "app"]).1 "" "a\r\nb" none).2.2 nofun

end ImagePush.Engine
