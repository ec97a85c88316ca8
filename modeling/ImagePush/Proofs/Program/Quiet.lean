import ImagePush.Proofs.Program.Record
import ImagePush.Proofs.Push.Rerun

/-!
# What a quiet program prints

A quiet program prints nothing to standard output but the record of the image that it has pushed, and that only if
no file is named for it (`quiet_runToEnd`). What it prints is then read as this record.
-/

namespace ImagePush.Program

open CommandLine (Args)
open Push

/-! ### Standard output -/

/-- All that is printed to standard output. -/
def printed (acts : List Act) : String :=
  String.join (acts.filterMap Act.printed?)

/-- Nothing is printed to standard output, or empty texts only. -/
def Mute (acts : List Act) : Prop :=
  ∀ text, .print text ∈ acts → text = ""

theorem printed_append (acts more : List Act) : printed (acts ++ more) = printed acts ++ printed more := by
  simp [printed]

theorem mute_append {acts more : List Act} : Mute (acts ++ more) ↔ Mute acts ∧ Mute more := by
  simp [Mute, or_imp, forall_and]

theorem mute_cons {act : Act} {acts : List Act} :
    Mute (act :: acts) ↔ (∀ text, .print text = act → text = "") ∧ Mute acts := by
  simp [Mute, or_imp, forall_and]

@[simp] theorem mute_nil : Mute [] := by
  simp [Mute]

theorem Mute.printed_eq {acts : List Act} (hmute : Mute acts) : printed acts = "" := by
  induction acts with
  | nil => rfl
  | cons act acts ih =>
    obtain ⟨hact, hacts⟩ := mute_cons.1 hmute
    rw [← List.singleton_append, printed_append, ih hacts]
    cases act with
    | print text => rw [hact text rfl]; rfl
    | _ => rfl

/-! ### A quiet console -/

theorem consoleOf_quiet {args : Args} (hquiet : args.quiet = true) : consoleOf args = .silent :=
  if_pos hquiet

section

variable (text : String)

@[simp] theorem unlessQuiet_silent : Console.silent.unlessQuiet text = "" := rfl

@[simp] theorem detail_silent : Console.silent.detail text = "" := rfl

end

variable {s : Script} {args : Args} {h : List Act} {c : Config} {a : Artifact}

section

variable (hquiet : args.quiet = true)

include hquiet

theorem mute_loading : Mute (heading args :: loading args) := by
  refine mute_cons.2 ⟨?_, ?_⟩
  · simp [heading, consoleOf_quiet hquiet, Console.heading]
  · unfold loading
    cases args.config <;> simp [mute_cons]

theorem mute_opening (c : Config) : Mute (opening args c) := by
  refine mute_append.2 ⟨mute_loading hquiet, ?_⟩
  rw [consoleOf_quiet hquiet]
  unfold showing
  split <;> simp [mute_cons, Console.warning]

theorem mute_beforePush (c : Config) (a : Artifact) : Mute (beforePush args c a) := by
  refine mute_append.2 ⟨mute_opening hquiet c, ?_⟩
  simp [mute_cons, consoleOf_quiet hquiet, Console.info]

theorem LookedAround.mute {looks : List Act} (hlooked : LookedAround args looks) : Mute looks := by
  cases hlooked with
  | forSettings => exact mute_loading hquiet
  | forArtifact c => exact mute_append.2 ⟨mute_opening hquiet c, by simp [mute_cons]⟩
  | forBoth c a => exact mute_beforePush hquiet c a

theorem mute_pushActs (s : Script) (c : Config) (es : History) : Mute (s.pushActs args c es) := by
  intro text hmem
  obtain ⟨e, -, hact⟩ := List.mem_map.1 hmem
  rw [consoleOf_quiet hquiet] at hact
  cases e with
  | notice n =>
    cases n with
    | message | headline => exact (Act.print.inj hact).symm
    | problem => cases hact
  | request dir r => cases hact
  | exchange | makeScratch | dropScratch => cases hact

theorem mute_closing (record : Artifact) (output : Option String) (seconds : Nat) :
    Mute (closing (consoleOf args) record output seconds) := by
  rw [consoleOf_quiet hquiet]
  refine mute_append.2 ⟨?_, by simp [reporting, mute_cons, Console.summary, Console.success]⟩
  cases output <;> simp [telling, mute_cons]

end

theorem mute_complaint (e : PushError) : Mute [complaint e] := by
  simp [mute_cons, complaint]

/-! ### The record on standard output -/

/-- **What is printed of a record that was pushed from a file is read as the record**, with its values in their
normal forms, if no finite double is left in it. -/
theorem parse_recordText {p : Pushed} (hadmitted : Admitted s args h c a)
    (hpushed : (s.pushOf args h c a).1 = .ok p) (hfloat : ∀ q ∈ (recordOf p).state, q.2.NoFiniteFloat) :
    Artifact.parse (recordText (recordOf p)).toList = .ok (recordOf p).norm := by
  have hloaded : Artifact.LoadedState a.state := by
    have hartifact := hadmitted.artifact
    unfold Script.artifact at hartifact
    split at hartifact
    · cases hartifact
    · exact Artifact.loadedState_of_ofBytes hartifact
  obtain ⟨es, -, hcourse⟩ := s.alone.push_course (Script.shownOn (consoleOf args)) c.withDefaults
    (h ++ beforePush args c a) a
  change Course _ _ _ ((s.pushOf args h c a).1.mapError _) _ _ at hcourse
  rw [hpushed] at hcourse
  obtain ⟨dir, answer, rfl, -⟩ := Course.pushed_eq hcourse
  have hstorable := storable_pushed dir a (told answer) (loadedData_ofArtifact hloaded) hfloat
  have hblank : Json.Blanks ['\n'] := by simp [Json.Blanks, Json.isBlank]
  have htext : (recordText (recordOf (pushed dir a (told answer)))).toList =
      (recordOf (pushed dir a (told answer))).pretty ++ ['\n'] := by
    simp [recordText]
  rw [htext]
  exact Artifact.parse_spells_before hstorable (Json.spells_pretty _) hblank

/-- Standard output holds nothing but the record of the pushed image, and that only if the program ends well and
no file is named for it. -/
structure PrintsRecordOnly (s : Script) (args : Args) (h : List Act) (code : Nat) (acts : List Act) : Prop where
  nothing : code ≠ 0 ∨ args.output ≠ none → printed acts = ""
  record : code = 0 → args.output = none → ∃ c a p, Admitted s args h c a ∧ (s.pushOf args h c a).1 = .ok p ∧
    printed acts = recordText (recordOf p) ∧
    ((∀ q ∈ (recordOf p).state, q.2.NoFiniteFloat) →
      Artifact.parse (printed acts).toList = .ok (recordOf p).norm)

theorem printsRecordOnly_of_mute {code : Nat} {acts : List Act} (hmute : Mute acts) (hcode : code ≠ 0) :
    PrintsRecordOnly s args h code acts :=
  ⟨fun _ => hmute.printed_eq, fun hzero => absurd hzero hcode⟩

theorem printed_recording_none (record : Artifact) : printed [recording record none] = recordText record := by
  simp [printed, recording, Act.printed?]

theorem mute_recording (record : Artifact) (path : String) : Mute [recording record (some path)] := by
  simp [mute_cons, recording]

/-- What a quiet program prints behind a push, during which it has printed nothing. -/
theorem printsRecordOnly_of_concludes (hquiet : args.quiet = true) (hadmitted : Admitted s args h c a)
    {h' before after : List Act} {code : Nat} (hbefore : Mute before)
    (hend : Concludes s args h' (s.pushOf args h c a).1 code after) :
    PrintsRecordOnly s args h code (before ++ after) := by
  generalize hout : (s.pushOf args h c a).1 = out at hend
  cases hend with
  | failed e => exact printsRecordOnly_of_mute (mute_append.2 ⟨hbefore, mute_complaint e⟩) (by simp)
  | @unwritten p e hstored =>
    -- only a file may refuse a record
    obtain ⟨path, hpath⟩ : ∃ path, args.output = some path := by
      cases houtput : args.output with
      | none =>
        rw [houtput] at hstored
        cases hstored
      | some path => exact ⟨path, rfl⟩
    rw [hpath]
    have hrest : Mute [recording (recordOf p) (some path), complaint e] :=
      mute_append.2 ⟨mute_recording _ path, mute_complaint e⟩
    exact printsRecordOnly_of_mute (mute_append.2 ⟨hbefore, hrest⟩) (by simp)
  | @recorded p seconds hstored =>
    have hclosing := mute_closing hquiet (recordOf p) args.output seconds
    have hall : printed (before ++ recording (recordOf p) args.output ::
        closing (consoleOf args) (recordOf p) args.output seconds) =
          printed [recording (recordOf p) args.output] := by
      rw [printed_append, hbefore.printed_eq, String.empty_append, ← List.singleton_append, printed_append,
        hclosing.printed_eq, String.append_empty]
    refine ⟨fun houtput => ?_, fun _ houtput => ⟨c, a, p, hadmitted, hout, ?_, fun hfloat => ?_⟩⟩
    · obtain ⟨path, hpath⟩ := Option.ne_none_iff_exists'.1 (houtput.resolve_left (by simp))
      rw [hall, hpath]
      exact (mute_recording _ path).printed_eq
    · rw [hall, houtput, printed_recording_none]
    · rw [hall, houtput, printed_recording_none]
      exact parse_recordText hadmitted hout hfloat

/-- **A quiet program prints nothing but the record of the image that it has pushed.** -/
theorem quiet_runToEnd (hquiet : args.quiet = true) (s : Script) (h : List Act) :
    ∃ code acts, runToEnd s.host args h = (code, h ++ acts) ∧ PrintsRecordOnly s args h code acts := by
  rcases refused_or_admitted s args h with ⟨e, hrefused⟩ | ⟨c, a, hadmitted⟩
  · obtain ⟨looks, hrun, hlooked⟩ := runToEnd_looked hrefused
    refine ⟨1, _, hrun, printsRecordOnly_of_mute ?_ (by simp)⟩
    exact mute_append.2 ⟨hlooked.mute hquiet, mute_complaint e⟩
  · obtain ⟨es, hes, -⟩ := pushOf_course s args h c a hadmitted.image
    have hpush : Program.push s.host (consoleOf args) c a (h ++ beforePush args c a) =
        ((s.pushOf args h c a).1, (s.pushOf args h c a).2) := program_push_of_server hadmitted.server a _
    obtain ⟨code, after, hrun, hend⟩ := runToEnd_of_push (run_of_loads hadmitted.toLoads) hpush
    have hbefore : Mute (beforePush args c a ++ s.pushActs args c es) :=
      mute_append.2 ⟨mute_beforePush hquiet c a, mute_pushActs hquiet s c es⟩
    refine ⟨code, beforePush args c a ++ s.pushActs args c es ++ after, ?_,
      printsRecordOnly_of_concludes hquiet hadmitted hbefore hend⟩
    rw [hrun, hes]
    simp only [List.append_assoc]

end ImagePush.Program
