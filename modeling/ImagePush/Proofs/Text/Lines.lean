import ImagePush.Proofs.Text.Utf8
import ImagePush.Text.Lines
import ImagePush.Text.Search
import Mathlib.Data.List.Induction

/-!
# Text read line by line

A stream that is read line by line gives a text exactly if it is the encoding of one (`textOf_eq_ok_iff`): the ends of
lines are ASCII and do not cut a character. What is given is the text with an LF for each CR LF and with its last line
closed (`normal`).
-/

namespace ImagePush.Text.Lines

/-! ### Ends of lines in a text -/

/-- The text with an LF for each CR LF. -/
def withLf : List Char → List Char
  | [] => []
  | c :: rest => if c = '\r' ∧ rest.head? = some '\n' then withLf rest else c :: withLf rest

/-- The text with an LF at its end, unless one stands there or there is no text. -/
def closed (cs : List Char) : List Char :=
  if cs = [] ∨ cs.getLast? = some '\n' then cs else cs ++ ['\n']

/-- The text with each line closed by one LF. -/
def normal (cs : List Char) : List Char :=
  closed (withLf cs)

/-- The string with each line closed by one LF. -/
def closeLines (s : String) : String :=
  .ofList (normal s.toList)

theorem withLf_of_not_mem {line : List Char} (hline : '\n' ∉ line) : withLf line = line := by
  induction line with
  | nil => rfl
  | cons c line ih =>
    obtain ⟨-, hrest⟩ := not_or.1 (mt List.mem_cons.2 hline)
    have hhead : line.head? ≠ some '\n' := fun h => hrest (List.mem_of_mem_head? h)
    rw [withLf, if_neg (fun h => hhead h.2), ih hrest]

theorem dropBack_cons_cons (last c d : Char) (line : List Char) :
    dropBack last (c :: d :: line) = c :: dropBack last (d :: line) := by
  unfold dropBack
  rw [List.getLast?_cons_cons, List.dropLast_cons_cons]
  split <;> rfl

/-- In front of an LF, one CR is dropped. -/
theorem withLf_append_lf {line : List Char} (hline : '\n' ∉ line) (rest : List Char) :
    withLf (line ++ '\n' :: rest) = dropBack '\r' line ++ '\n' :: withLf rest := by
  induction line with
  | nil => rfl
  | cons c line ih =>
    obtain ⟨hc, hrest⟩ := not_or.1 (mt List.mem_cons.2 hline)
    cases line with
    | nil =>
      by_cases hcr : c = '\r'
      · subst hcr
        rfl
      · have hback : dropBack '\r' [c] = [c] := if_neg (by simpa using hcr)
        rw [hback, List.singleton_append, withLf, if_neg (fun h => hcr h.1)]
        rfl
    | cons d line =>
      have hd : d ≠ '\n' := fun h => hrest (h ▸ List.mem_cons_self)
      have hhead : ¬ (c = '\r' ∧ (d :: line ++ '\n' :: rest).head? = some '\n') :=
        fun h => hd (Option.some.inj h.2)
      rw [List.cons_append, withLf, if_neg hhead, ih hrest, dropBack_cons_cons]
      rfl

theorem closed_append_lf (front rest : List Char) :
    closed (front ++ '\n' :: rest) = front ++ '\n' :: closed rest := by
  cases rest with
  | nil => simp [closed]
  | cons c rest =>
    have hend : (front ++ '\n' :: c :: rest).getLast? = (c :: rest).getLast? := by
      rw [List.getLast?_append, List.getLast?_cons_cons, List.getLast?_cons, Option.some_or]
    unfold closed
    rw [hend]
    by_cases hlast : (c :: rest).getLast? = some '\n'
    · simp [hlast]
    · simp [hlast]

theorem normal_append_lf {line : List Char} (hline : '\n' ∉ line) (rest : List Char) :
    normal (line ++ '\n' :: rest) = dropBack '\r' line ++ '\n' :: normal rest := by
  rw [normal, withLf_append_lf hline, closed_append_lf]
  rfl

theorem normal_of_not_mem {line : List Char} (hline : '\n' ∉ line) (hne : line ≠ []) :
    normal line = line ++ ['\n'] := by
  have hlast : line.getLast? ≠ some '\n' := fun h => hline (List.mem_of_getLast? h)
  rw [normal, withLf_of_not_mem hline, closed, if_neg (not_or.2 ⟨hne, hlast⟩)]

/-! ### Ends of lines in bytes -/

theorem dropCr_encode (line : List Char) : dropCr (Utf8.encode line) = Utf8.encode (dropBack '\r' line) := by
  induction line using List.reverseRecOn with
  | nil => rfl
  | append_singleton line c =>
    rw [Utf8.encode_concat, dropCr, dropBack, List.getLast?_concat, List.dropLast_concat]
    by_cases hc : c = '\r'
    · subst hc
      have hcr : Utf8.encodeChar '\r' = [cr] := rfl
      rw [hcr, List.getLast?_concat, List.dropLast_concat, if_pos rfl, if_pos (by simp)]
    · have hlast : (Utf8.encode line ++ Utf8.encodeChar c).getLast? ≠ some cr := by
        obtain ⟨b, bs, hbytes, -⟩ := Utf8.head_encodeChar c []
        intro hlast
        rw [List.getLast?_append, hbytes, List.getLast?_cons, Option.some_or, ← List.getLast?_cons,
          ← hbytes] at hlast
        exact hc (Utf8.eq_of_mem_encodeChar (List.mem_of_getLast? hlast) (by decide))
      rw [if_neg hlast, if_neg (by simpa using hc), Utf8.encode_concat]

theorem exists_encode_of_dropCr {bs : List UInt8} {text : List Char} (h : dropCr bs = Utf8.encode text) :
    ∃ line, bs = Utf8.encode line := by
  unfold dropCr at h
  split at h
  · next hlast =>
    obtain ⟨front, rfl⟩ := List.getLast?_eq_some_iff.1 hlast
    rw [List.dropLast_concat] at h
    exact ⟨text ++ ['\r'], by rw [Utf8.encode_concat, h]; rfl⟩
  · exact ⟨text, h⟩

theorem splitFrom_append {line : List UInt8} (hline : lf ∉ line) (current rest : List UInt8) :
    splitFrom current (line ++ rest) = splitFrom (line.reverse ++ current) rest := by
  induction line generalizing current with
  | nil => rfl
  | cons b line ih =>
    obtain ⟨hb, hline⟩ := not_or.1 (mt List.mem_cons.2 hline)
    rw [List.cons_append, splitFrom, if_neg (Ne.symm hb), ih hline, List.reverse_cons, List.append_assoc]
    rfl

/-- The bytes of an empty text are none. -/
theorem isEmpty_reverse_encode {line : List Char} :
    (Utf8.encode line).reverse.isEmpty = true ↔ line = [] := by
  rw [List.isEmpty_iff, List.reverse_eq_nil_iff]
  constructor
  · intro h
    exact Utf8.encode_injective h
  · rintro rfl
    rfl

/-! ### Streams -/

/-- A text is read from its bytes; `line` is what was read of the current line. -/
theorem join_splitFrom_encode (s : List Char) : ∀ {line : List Char}, '\n' ∉ line →
    join (splitFrom (Utf8.encode line).reverse (Utf8.encode s)) = .ok (normal (line ++ s)) := by
  induction s with
  | nil =>
    intro line hline
    have hnil : Utf8.encode [] = [] := rfl
    rw [hnil, splitFrom, List.append_nil]
    by_cases hempty : line = []
    · subst hempty
      rfl
    · rw [if_neg (mt isEmpty_reverse_encode.1 hempty), List.reverse_reverse, join, Utf8.decode_eq_ok_iff.2 rfl,
        normal_of_not_mem hline hempty]
      rfl
  | cons c s ih =>
    intro line hline
    by_cases hc : c = '\n'
    · subst hc
      have hlf : Utf8.encode ('\n' :: s) = lf :: Utf8.encode s := rfl
      have hrest : join (splitFrom [] (Utf8.encode s)) = .ok (normal s) := ih List.not_mem_nil
      rw [hlf, splitFrom, if_pos rfl, List.reverse_reverse, dropCr_encode, join, Utf8.decode_eq_ok_iff.2 rfl, hrest,
        normal_append_lf hline]
      rfl
    · have hcline : '\n' ∉ line ++ [c] := by
        simpa [hline] using Ne.symm hc
      have hbytes : lf ∉ Utf8.encodeChar c := fun hmem => hc (Utf8.eq_of_mem_encodeChar hmem (by decide))
      have hline' : (Utf8.encodeChar c).reverse ++ (Utf8.encode line).reverse =
          (Utf8.encode (line ++ [c])).reverse := by
        rw [← List.reverse_append, Utf8.encode_concat]
      have happend : line ++ c :: s = (line ++ [c]) ++ s := by simp
      rw [Utf8.encode_cons, splitFrom_append hbytes, hline', happend]
      exact ih hcline

/-- What can be read line by line is the bytes of a text; `current` is what was read of the current line. -/
theorem exists_encode_of_join (bs : List UInt8) : ∀ (current : List UInt8) {t : List Char},
    join (splitFrom current bs) = .ok t → ∃ s, current.reverse ++ bs = Utf8.encode s := by
  induction bs with
  | nil =>
    intro current t h
    rw [splitFrom] at h
    by_cases hempty : current.isEmpty = true
    · exact ⟨[], by rw [List.isEmpty_iff.1 hempty]; rfl⟩
    · rw [if_neg hempty] at h
      obtain ⟨text, htext, -⟩ := bind_eq_ok.1 h
      exact ⟨text, by rw [List.append_nil, Utf8.decode_eq_ok_iff.1 htext]⟩
  | cons b bs ih =>
    intro current t h
    rw [splitFrom] at h
    by_cases hb : b = lf
    · subst hb
      rw [if_pos rfl] at h
      obtain ⟨text, htext, h⟩ := bind_eq_ok.1 h
      obtain ⟨more, hmore, -⟩ := bind_eq_ok.1 h
      obtain ⟨s, hs⟩ := ih [] hmore
      obtain ⟨line, hline⟩ := exists_encode_of_dropCr (Utf8.decode_eq_ok_iff.1 htext)
      refine ⟨line ++ '\n' :: s, ?_⟩
      rw [Utf8.encode_append, ← hline]
      show _ = _ ++ lf :: Utf8.encode s
      rw [← hs]
      rfl
    · rw [if_neg hb] at h
      obtain ⟨s, hs⟩ := ih (b :: current) h
      refine ⟨s, ?_⟩
      rw [← hs, List.reverse_cons, List.append_assoc]
      rfl

/-- **A stream is read line by line exactly if it is the encoding of a text**, and then it gives the text with each
line closed by one LF. -/
theorem textOf_eq_ok_iff {bs : List UInt8} {t : List Char} :
    textOf bs = .ok t ↔ ∃ s, bs = Utf8.encode s ∧ t = normal s := by
  have hread : ∀ s, textOf (Utf8.encode s) = .ok (normal s) := fun s => join_splitFrom_encode s List.not_mem_nil
  constructor
  · intro h
    obtain ⟨s, hs⟩ := exists_encode_of_join bs [] h
    obtain rfl : bs = Utf8.encode s := hs
    rw [hread] at h
    exact ⟨s, rfl, (Except.ok.inj h).symm⟩
  · rintro ⟨s, rfl, rfl⟩
    exact hread s

example : normal "a\r\r\n\r\n\rb\r".toList = "a\r\n\n\rb\r\n".toList := by decide

/-! ### Faults -/

theorem join_append_of_malformed {before : List (List UInt8)} (hbefore : ∀ l ∈ before, Utf8.IsText l)
    {line : List UInt8} {fault : Utf8.Malformed} (hline : Utf8.decode line = .error fault) (after : List (List UInt8)) :
    join (before ++ line :: after) = .error fault := by
  induction before with
  | nil =>
    rw [List.nil_append, join, hline]
    rfl
  | cons first before ih =>
    obtain ⟨⟨text, hfirst⟩, hrest⟩ := List.forall_mem_cons.1 hbefore
    rw [List.cons_append, join, Utf8.decode_eq_ok_iff.2 hfirst, ih hrest]
    rfl

theorem exists_malformed_of_join {lines : List (List UInt8)} {fault : Utf8.Malformed}
    (h : join lines = .error fault) : ∃ before line after, lines = before ++ line :: after ∧
      (∀ l ∈ before, Utf8.IsText l) ∧ Utf8.decode line = .error fault := by
  induction lines with
  | nil => cases h
  | cons first rest ih =>
    cases hfirst : Utf8.decode first with
    | error f =>
      rw [join, hfirst] at h
      obtain rfl : f = fault := Except.error.inj h
      exact ⟨[], first, rest, rfl, List.forall_mem_nil _, hfirst⟩
    | ok text =>
      have hrest : join rest = .error fault := by
        rw [join, hfirst] at h
        cases hmore : join rest with
        | ok more =>
          rw [hmore] at h
          cases h
        | error f =>
          rw [hmore] at h
          exact h
      obtain ⟨before, line, after, rfl, hbefore, hline⟩ := ih hrest
      have htext : Utf8.IsText first := ⟨text, Utf8.decode_eq_ok_iff.1 hfirst⟩
      exact ⟨first :: before, line, after, rfl, List.forall_mem_cons.2 ⟨htext, hbefore⟩, hline⟩

/-- **The fault of a stream is that of its first line that is not text**, and of this line without its end. -/
theorem textOf_eq_error_iff {bs : List UInt8} {fault : Utf8.Malformed} :
    textOf bs = .error fault ↔ ∃ before line after, split bs = before ++ line :: after ∧
      (∀ l ∈ before, Utf8.IsText l) ∧ Utf8.decode line = .error fault := by
  constructor
  · exact exists_malformed_of_join
  · rintro ⟨before, line, after, hsplit, hbefore, hline⟩
    rw [textOf, hsplit]
    exact join_append_of_malformed hbefore hline after

/-- The LF behind the first two bytes of a character is not taken for its third. -/
example : textOf [0xE2, 0x82, lf] = .error ⟨0, none⟩ := by
  refine textOf_eq_error_iff.2 ⟨[], [0xE2, 0x82], [], rfl, List.forall_mem_nil _, ?_⟩
  simp [Utf8.decode, Utf8.decodeFrom, Utf8.head, Utf8.isSecond, Utf8.isTail]

end ImagePush.Text.Lines
