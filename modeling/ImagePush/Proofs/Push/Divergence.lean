import ImagePush.Proofs.Push.Replies

/-!
# Pushes that go apart

A push learns about its workplace from the answers to its questions only. Two pushes with the same input go
the same way until a question is answered differently, and that question belongs to both of their histories
(`run_parallel`).
-/

namespace ImagePush.Push

/-- Two histories that go apart behind a question, which two scripts answer differently. -/
def Apart (s t : Script) (h h₁ h₂ : History) : Prop :=
  ∃ before e es fs, h₁ = h ++ before ++ e :: es ∧ h₂ = h ++ before ++ e :: fs ∧
    s.reply? (h ++ before) e ≠ t.reply? (h ++ before) e

theorem Apart.append {s t : Script} {h h₁ h₂ : History} (happart : Apart s t h h₁ h₂) (es fs : History) :
    Apart s t h (h₁ ++ es) (h₂ ++ fs) := by
  obtain ⟨before, e, es', fs', rfl, rfl, hne⟩ := happart
  exact ⟨before, e, es' ++ es, fs' ++ fs, by simp, by simp, hne⟩

theorem Apart.behind {s t : Script} {h h₁ h₂ : History} (es : History) (happart : Apart s t (h ++ es) h₁ h₂) :
    Apart s t h h₁ h₂ := by
  obtain ⟨before, e, es', fs', rfl, rfl, hne⟩ := happart
  exact ⟨es ++ before, e, es', fs', by simp, by simp, by rwa [List.append_assoc] at hne⟩

/-- A step that only adds events. -/
def Grows {α : Type} (step : StateM History α) : Prop :=
  ∀ h, ∃ es, (step h).2 = h ++ es

/-- Two steps, one for each script, that go the same way until a question is answered differently. -/
structure Parallel {α : Type} (s t : Script) (first second : StateM History α) : Prop where
  first_grows : Grows first
  second_grows : Grows second
  parts : ∀ h, first h = second h ∨ Apart s t h (first h).2 (second h).2

namespace Parallel

variable {s t : Script} {dir : Option Directory} {α β : Type}

theorem pure (a : α) : Parallel s t (pure a) (pure a) :=
  ⟨fun h => ⟨[], (List.append_nil h).symm⟩, fun h => ⟨[], (List.append_nil h).symm⟩, fun _ => .inl rfl⟩

theorem bind {first second : StateM History β} {rest rest' : β → StateM History α}
    (hfirst : Parallel s t first second) (hrest : ∀ mid, Parallel s t (rest mid) (rest' mid)) :
    Parallel s t (do rest (← first)) (do rest' (← second)) := by
  refine ⟨fun h => ?_, fun h => ?_, fun h => ?_⟩
  · obtain ⟨es, hes⟩ := hfirst.first_grows h
    obtain ⟨fs, hfs⟩ := (hrest (first h).1).first_grows (first h).2
    exact ⟨es ++ fs, hfs.trans (by rw [hes, List.append_assoc])⟩
  · obtain ⟨es, hes⟩ := hfirst.second_grows h
    obtain ⟨fs, hfs⟩ := (hrest (second h).1).second_grows (second h).2
    exact ⟨es ++ fs, hfs.trans (by rw [hes, List.append_assoc])⟩
  · -- Once apart, both sides only add events; otherwise the rest starts from one history.
    rcases hfirst.parts h with hsame | happart
    · obtain ⟨es, hes⟩ := hfirst.first_grows h
      rcases (hrest (first h).1).parts (first h).2 with hsame' | happart
      · exact .inl (hsame'.trans (by rw [hsame]; rfl))
      · refine .inr (Apart.behind es ?_)
        rw [← hes]
        show Apart s t (first h).2 (rest (first h).1 (first h).2).2 (rest' (second h).1 (second h).2).2
        rwa [← hsame]
    · obtain ⟨es, hes⟩ := (hrest (first h).1).first_grows (first h).2
      obtain ⟨fs, hfs⟩ := (hrest (second h).1).second_grows (second h).2
      have hall := happart.append es fs
      rw [← hes, ← hfs] at hall
      exact .inr hall

/-- A question, by what is learnt from the answer. -/
theorem question {first second : StateM History α} {e : Event}
    (hfirst : ∀ h, (first h).2 = h ++ [e]) (hsecond : ∀ h, (second h).2 = h ++ [e])
    (hanswer : ∀ h, s.reply? h e = t.reply? h e → (first h).1 = (second h).1) :
    Parallel s t first second := by
  refine ⟨fun h => ⟨[e], hfirst h⟩, fun h => ⟨[e], hsecond h⟩, fun h => ?_⟩
  by_cases hreply : s.reply? h e = t.reply? h e
  · exact .inl (Prod.ext (hanswer h hreply) ((hfirst h).trans (hsecond h).symm))
  · refine .inr ⟨[], e, [], [], ?_, ?_, ?_⟩
    · rw [hfirst h, List.append_nil]
    · rw [hsecond h, List.append_nil]
    · rwa [List.append_nil]

theorem notify (n : Notice) :
    Parallel s t ((s.workplace.peers dir).notify n) ((t.workplace.peers dir).notify n) :=
  .question (fun _ => rfl) (fun _ => rfl) fun _ _ => rfl

theorem workplace_notify (n : Notice) : Parallel s t (s.workplace.notify n) (t.workplace.notify n) :=
  .question (fun _ => rfl) (fun _ => rfl) fun _ _ => rfl

theorem exchange (server : String) :
    Parallel s t ((s.workplace.peers dir).exchange server) ((t.workplace.peers dir).exchange server) :=
  .question (fun _ => rfl) (fun _ => rfl) fun h hreply => by simpa [Script.reply?] using hreply

theorem ask (r : Request) :
    Parallel s t ((s.workplace.peers dir).ask r) ((t.workplace.peers dir).ask r) :=
  .question (fun _ => rfl) (fun _ => rfl) fun h hreply => by simpa [Script.reply?] using hreply

theorem makeScratch : Parallel s t s.workplace.makeScratch t.workplace.makeScratch :=
  .question (fun _ => rfl) (fun _ => rfl) fun h hreply => by simpa [Script.reply?] using hreply

theorem dropScratch (path : Directory) :
    Parallel s t (s.workplace.dropScratch path) (t.workplace.dropScratch path) :=
  .question (fun _ => rfl) (fun _ => rfl) fun h hreply => by simpa [Script.reply?] using hreply

theorem closeLater (hback : s.background = t.background) (server : String) :
    Parallel s t ((s.workplace.peers dir).closeLater server)
      ((t.workplace.peers dir).closeLater server) := by
  change Parallel s t (if s.background then _ else _) (if t.background then _ else _)
  rw [← hback]
  by_cases hlive : s.background = true
  · rw [if_pos hlive]
    exact .question (fun _ => rfl) (fun _ => rfl) fun _ _ => rfl
  · rw [if_neg hlive]
    exact .pure ()

end Parallel

/-! ### Every run -/

section

variable (s t : Script) (dir : Option Directory)

theorem pushNames_parallel (platform : String) (names : List String) :
    Parallel s t (pushNames (s.workplace.peers dir) platform names)
      (pushNames (t.workplace.peers dir) platform names) := by
  induction names with
  | nil => exact .pure _
  | cons name rest ih =>
    refine .bind (.notify _) fun _ => .bind (.ask _) fun answer => ?_
    match answer with
    | .ok () => exact ih
    | .error e => exact .pure _

theorem lookUpDigest_parallel (id : String) :
    Parallel s t (lookUpDigest (s.workplace.peers dir) id) (lookUpDigest (t.workplace.peers dir) id) := by
  refine .bind (.ask _) fun answer => ?_
  match answer with
  | .ok digest => exact .pure _
  | .error (.failed e) => exact .bind (.notify _) fun _ => .pure _
  | .error .abandoned => exact .pure _

theorem pushArtifact_parallel (platform : String) (a : Artifact) :
    Parallel s t (pushArtifact (s.workplace.peers dir) platform a)
      (pushArtifact (t.workplace.peers dir) platform a) := by
  refine .bind (.notify _) fun _ => .bind (pushNames_parallel s t dir platform _) fun pushedAll => ?_
  match pushedAll with
  | .error e => exact .pure _
  | .ok () =>
    refine .bind (lookUpDigest_parallel s t dir a.id) fun found => ?_
    match found with
    | .error e => exact .pure _
    | .ok digest => exact .pure _

theorem closeSession_parallel (server : String) :
    Parallel s t (closeSession (s.workplace.peers dir) server)
      (closeSession (t.workplace.peers dir) server) := by
  refine .bind (.notify _) fun _ => .bind (.ask _) fun answer => ?_
  match answer with
  | .ok () => exact .pure _
  | .error (.failed e) => exact .bind (.notify _) fun _ => .pure _
  | .error .abandoned => exact .pure _

theorem credentials_parallel (c : Config) :
    Parallel s t (credentials (s.workplace.peers dir) c) (credentials (t.workplace.peers dir) c) := by
  unfold credentials
  by_cases hcloud : c.cloudLogin = true
  · rw [if_pos hcloud, if_pos hcloud]
    exact .bind (.notify _) fun _ => .exchange _
  · rw [if_neg hcloud, if_neg hcloud]
    exact .pure _

theorem openSession_parallel (server : String) (given : Registry.Credentials) :
    Parallel s t (openSession (s.workplace.peers dir) server given)
      (openSession (t.workplace.peers dir) server given) := by
  refine .bind (.notify _) fun _ => .bind (.ask _) fun answer => ?_
  match answer with
  | .ok () => exact .pure _
  | .error (.failed e) => exact .pure _
  | .error .abandoned => exact .pure _

theorem removeScratch_parallel (path : Directory) :
    Parallel s t (removeScratch s.workplace path) (removeScratch t.workplace path) := by
  refine .bind (.workplace_notify _) fun _ => .bind (.dropScratch _) fun answer => ?_
  match answer with
  | .ok () => exact .pure _
  | .error e => exact .workplace_notify _

theorem withScratch_parallel {α : Type} {first second : Directory → StateM History (Outcome α)}
    (hsteps : ∀ path, Parallel s t (first path) (second path)) :
    Parallel s t (withScratch s.workplace first) (withScratch t.workplace second) := by
  refine .bind (.workplace_notify _) fun _ => .bind .makeScratch fun made => ?_
  match made with
  | .error e => exact .pure _
  | .ok path =>
    refine .bind (hsteps path) fun mid => ?_
    match mid with
    | .error .abandoned => exact .bind (.dropScratch _) fun _ => .pure _
    | .error (.failed e) | .ok x => exact .bind (removeScratch_parallel s t path) fun _ => .pure _

end

section

variable {s t : Script} (hback : s.background = t.background) (dir : Option Directory)

include hback

theorem withinSession_parallel {α : Type} (server : String) {first second : StateM History (Outcome α)}
    (hstep : Parallel s t first second) :
    Parallel s t (withinSession (s.workplace.peers dir) server first)
      (withinSession (t.workplace.peers dir) server second) := by
  refine .bind hstep fun mid => ?_
  match mid with
  | .error .abandoned => exact .bind (.closeLater hback _) fun _ => .pure _
  | .error (.failed e) | .ok x =>
    refine .bind (closeSession_parallel s t dir server) fun closed => ?_
    match closed with
    | .ok () => exact .pure _
    | .error e => exact .pure _

theorem loginAndPush_parallel (c : Config) (a : Artifact) :
    Parallel s t (loginAndPush (s.workplace.peers dir) c a) (loginAndPush (t.workplace.peers dir) c a) := by
  unfold loginAndPush
  by_cases hwants : c.wantsLogin = true
  · rw [if_pos hwants, if_pos hwants]
    refine .bind (credentials_parallel s t dir c) fun mid => ?_
    match mid with
    | .error e => exact .pure _
    | .ok given =>
      refine .bind (openSession_parallel s t dir c.server given) fun opened => ?_
      match opened with
      | .error e => exact .pure _
      | .ok () => exact withinSession_parallel hback dir c.server (pushArtifact_parallel s t dir c.platform a)
  · rw [if_neg hwants, if_neg hwants]
    exact pushArtifact_parallel s t dir c.platform a

/-- Two runs go the same way until a question is answered differently. -/
theorem run_parallel (own : Bool) (c : Config) (a : Artifact) :
    Parallel s t (run s.workplace own c a) (run t.workplace own c a) := by
  unfold run
  by_cases hunknown : (!a.isImage) = true
  · rw [if_pos hunknown, if_pos hunknown]
    exact .pure _
  · rw [if_neg hunknown, if_neg hunknown]
    cases own with
    | true => exact withScratch_parallel s t fun path => loginAndPush_parallel hback (some path) c a
    | false => exact loginAndPush_parallel hback none c a

end

end ImagePush.Push
