import ImagePush.Proofs.Results
import ImagePush.Text.Utf8

/-!
# Text through UTF-8

The head of the bytes of a character is that character (`head_encodeChar`), so that bytes are decoded as the
text they encode (`decode?_encode`). Bytes whose head is read as a character begin with its bytes
(`encodeChar_of_head`), so that nothing else is decoded at all (`decode_eq_ok_iff`).
-/

namespace ImagePush.Text.Utf8

/-! ### Bytes -/

theorem ofNat_lt_iff {k : Nat} (hk : k < 256) (b : UInt8) : UInt8.ofNat k < b ↔ k < b.toNat := by
  rw [UInt8.lt_iff_toNat_lt, UInt8.toNat_ofNat_of_lt' hk]

theorem ofNat_eq_iff {k : Nat} (hk : k < 256) (b : UInt8) : UInt8.ofNat k = b ↔ k = b.toNat := by
  rw [← UInt8.toNat_inj, UInt8.toNat_ofNat_of_lt' hk]

/-- The byte that continues a character with six bits of it. -/
def tailByte (k : Nat) : UInt8 :=
  UInt8.ofNat (0x80 + k % 0x40)

theorem toNat_tailByte (k : Nat) : (tailByte k).toNat = 0x80 + k % 0x40 :=
  UInt8.toNat_ofNat_of_lt' (by show 0x80 + k % 0x40 < 256; omega)

theorem tailByte_between {k : Nat} {low high : UInt8} (hlow : low.toNat ≤ 0x80 + k % 0x40)
    (hhigh : 0x80 + k % 0x40 < high.toNat) : (low ≤ tailByte k && tailByte k < high) = true := by
  rw [Bool.and_eq_true, decide_eq_true_eq, decide_eq_true_eq, UInt8.le_iff_toNat_le, UInt8.lt_iff_toNat_lt,
    toNat_tailByte]
  exact ⟨hlow, hhigh⟩

theorem isTail_tailByte (k : Nat) : isTail (tailByte k) = true :=
  tailByte_between (Nat.le_add_right 0x80 _) (show 0x80 + k % 0x40 < 0xC0 by omega)

theorem tailBits_tailByte (k : Nat) : tailBits (tailByte k) = k % 0x40 := by
  rw [tailBits, toNat_tailByte]
  omega

/-- The limits of the second byte, in terms of the bits it carries. -/
theorem isSecond_tailByte {f k : Nat} (hf : f < 256) (hE0 : f = 0xE0 → 0x20 ≤ k % 0x40)
    (hED : f = 0xED → k % 0x40 < 0x20) (hF0 : f = 0xF0 → 0x10 ≤ k % 0x40) (hF4 : f = 0xF4 → k % 0x40 < 0x10) :
    isSecond (UInt8.ofNat f) (tailByte k) = true := by
  simp only [isSecond, beq_iff_eq, ofNat_eq_iff hf, UInt8.reduceToNat]
  split
  · exact tailByte_between (show 0xA0 ≤ 0x80 + k % 0x40 by omega) (show 0x80 + k % 0x40 < 0xC0 by omega)
  · split
    · exact tailByte_between (show 0x80 ≤ 0x80 + k % 0x40 by omega) (show 0x80 + k % 0x40 < 0xA0 by omega)
    · split
      · exact tailByte_between (show 0x90 ≤ 0x80 + k % 0x40 by omega) (show 0x80 + k % 0x40 < 0xC0 by omega)
      · split
        · exact tailByte_between (show 0x80 ≤ 0x80 + k % 0x40 by omega) (show 0x80 + k % 0x40 < 0x90 by omega)
        · exact isTail_tailByte k

/-! ### Characters -/

section

variable {f : Nat} (rest : List UInt8)

theorem head_one (hf : f < 0x80) : head (UInt8.ofNat f) rest = .char (Char.ofNat f) 0 := by
  have hbyte : f < 256 := by omega
  have hsmall : UInt8.ofNat f < 0x80 := (ofNat_lt_iff hbyte 0x80).2 hf
  unfold head
  rw [if_pos hsmall, UInt8.toNat_ofNat_of_lt' hbyte]

theorem head_two (hlow : 0xC2 ≤ f) (hhigh : f < 0xE0) (k : Nat) :
    head (UInt8.ofNat f) (tailByte k :: rest) = .char (Char.ofNat (f % 0x20 * 0x40 + k % 0x40)) 1 := by
  have hbyte : f < 256 := by omega
  have hone : ¬ f < 0x80 := by omega
  have hnone : ¬ f < 0xC2 := by omega
  simp only [head, ofNat_lt_iff hbyte, UInt8.reduceToNat, hone, hnone, hhigh, if_true, if_false,
    isTail_tailByte, tailBits_tailByte, UInt8.toNat_ofNat_of_lt' hbyte]

theorem head_three (hlow : 0xE0 ≤ f) (hhigh : f < 0xF0) {k : Nat} (hE0 : f = 0xE0 → 0x20 ≤ k % 0x40)
    (hED : f = 0xED → k % 0x40 < 0x20) (l : Nat) :
    head (UInt8.ofNat f) (tailByte k :: tailByte l :: rest) =
      .char (Char.ofNat ((f % 0x10 * 0x40 + k % 0x40) * 0x40 + l % 0x40)) 2 := by
  have hbyte : f < 256 := by omega
  have hone : ¬ f < 0x80 := by omega
  have hnone : ¬ f < 0xC2 := by omega
  have htwo : ¬ f < 0xE0 := by omega
  have hsecond := isSecond_tailByte hbyte hE0 hED (by omega) (by omega)
  simp only [head, ofNat_lt_iff hbyte, UInt8.reduceToNat, hone, hnone, htwo, hhigh, if_true, if_false,
    hsecond, isTail_tailByte, Bool.not_true, Bool.false_eq_true, tailBits_tailByte, UInt8.toNat_ofNat_of_lt' hbyte]

theorem head_four (hlow : 0xF0 ≤ f) (hhigh : f < 0xF5) {k : Nat} (hF0 : f = 0xF0 → 0x10 ≤ k % 0x40)
    (hF4 : f = 0xF4 → k % 0x40 < 0x10) (l m : Nat) :
    head (UInt8.ofNat f) (tailByte k :: tailByte l :: tailByte m :: rest) =
      .char (Char.ofNat (((f % 0x08 * 0x40 + k % 0x40) * 0x40 + l % 0x40) * 0x40 + m % 0x40)) 3 := by
  have hbyte : f < 256 := by omega
  have hone : ¬ f < 0x80 := by omega
  have hnone : ¬ f < 0xC2 := by omega
  have htwo : ¬ f < 0xE0 := by omega
  have hthree : ¬ f < 0xF0 := by omega
  have hsecond := isSecond_tailByte hbyte (by omega) (by omega) hF0 hF4
  simp only [head, ofNat_lt_iff hbyte, UInt8.reduceToNat, hone, hnone, htwo, hthree, hhigh, if_true, if_false,
    hsecond, isTail_tailByte, Bool.not_true, Bool.false_eq_true, tailBits_tailByte,
    UInt8.toNat_ofNat_of_lt' hbyte]

end

/-- The bytes of a character are read as the character. -/
theorem head_encodeChar (c : Char) (rest : List UInt8) :
    ∃ b bs, encodeChar c = b :: bs ∧ head b (bs ++ rest) = .char c bs.length := by
  have hvalid : c.toNat < 0xD800 ∨ 0xDFFF < c.toNat ∧ c.toNat < 0x110000 := c.valid
  have hself : ∀ n, n = c.toNat → Char.ofNat n = c := fun n hn => hn ▸ Char.ofNat_toNat c
  unfold encodeChar
  simp only
  split
  · next h =>
    refine ⟨_, [], rfl, (head_one _ h).trans ?_⟩
    rw [hself _ rfl]
    rfl
  · split
    · next h₁ h₂ =>
      refine ⟨_, [tailByte c.toNat], rfl, (head_two _ (by omega) (by omega) _).trans ?_⟩
      rw [hself _ (by omega)]
      rfl
    · split
      · next h₁ h₂ h₃ =>
        refine ⟨_, [tailByte (c.toNat / 0x40), tailByte c.toNat], rfl,
          (head_three _ (by omega) (by omega) (by omega) (by omega) _).trans ?_⟩
        rw [hself _ (by omega)]
        rfl
      · next h₁ h₂ h₃ =>
        refine ⟨_, [tailByte (c.toNat / 0x1000), tailByte (c.toNat / 0x40), tailByte c.toNat], rfl,
          (head_four _ (by omega) (by omega) (by omega) (by omega) _ _).trans ?_⟩
        rw [hself _ (by omega)]
        rfl

/-- **Text is decoded from its bytes.** -/
theorem decodeFrom_encode (cs : List Char) : ∀ index, decodeFrom index (encode cs) = .ok cs := by
  induction cs with
  | nil =>
    intro index
    rw [encode, List.flatMap_nil, decodeFrom]
  | cons c cs ih =>
    intro index
    obtain ⟨b, bs, hbytes, hhead⟩ := head_encodeChar c (encode cs)
    have hcons : encode (c :: cs) = b :: (bs ++ encode cs) := by
      rw [encode, List.flatMap_cons, hbytes, List.cons_append]
      rfl
    rw [hcons, decodeFrom, hhead]
    show (decodeFrom _ ((bs ++ encode cs).drop bs.length)).map _ = _
    rw [List.drop_left, ih]
    rfl

theorem decode?_encode (cs : List Char) : decode? (encode cs) = some cs := by
  rw [decode?, decode, decodeFrom_encode]
  rfl

/-! ### Well-formed bytes -/

theorem toNat_charOfNat {n : Nat} (hn : n.isValidChar) : (Char.ofNat n).toNat = n := by
  rw [Char.ofNat, dif_pos hn]
  rfl

theorem tailBits_lt (b : UInt8) : tailBits b < 0x40 :=
  Nat.mod_lt _ (by decide)

theorem isTail_iff {b : UInt8} : isTail b = true ↔ 0x80 ≤ b.toNat ∧ b.toNat < 0xC0 := by
  simp [isTail, UInt8.le_iff_toNat_le, UInt8.lt_iff_toNat_lt]

/-- A byte that continues a character is known by its six bits. -/
theorem tailByte_eq {b : UInt8} (hb : isTail b = true) {k : Nat} (hk : k % 0x40 = tailBits b) : tailByte k = b := by
  rw [isTail_iff] at hb
  rw [tailBits] at hk
  rw [← UInt8.toNat_inj, toNat_tailByte]
  omega

/-- The limits of the second byte, in terms of the bits it carries. -/
theorem isSecond_iff {b b₁ : UInt8} :
    isSecond b b₁ = true ↔ isTail b₁ = true ∧ (b.toNat = 0xE0 → 0x20 ≤ tailBits b₁) ∧
      (b.toNat = 0xED → tailBits b₁ < 0x20) ∧ (b.toNat = 0xF0 → 0x10 ≤ tailBits b₁) ∧
      (b.toNat = 0xF4 → tailBits b₁ < 0x10) := by
  rw [isTail_iff]
  simp only [isSecond, beq_iff_eq, ← UInt8.toNat_inj, UInt8.reduceToNat, tailBits]
  split
  · simp only [Bool.and_eq_true, decide_eq_true_eq, UInt8.le_iff_toNat_le, UInt8.lt_iff_toNat_lt, UInt8.reduceToNat]
    omega
  split
  · simp only [Bool.and_eq_true, decide_eq_true_eq, UInt8.le_iff_toNat_le, UInt8.lt_iff_toNat_lt, UInt8.reduceToNat]
    omega
  split
  · simp only [Bool.and_eq_true, decide_eq_true_eq, UInt8.le_iff_toNat_le, UInt8.lt_iff_toNat_lt, UInt8.reduceToNat]
    omega
  split
  · simp only [Bool.and_eq_true, decide_eq_true_eq, UInt8.le_iff_toNat_le, UInt8.lt_iff_toNat_lt, UInt8.reduceToNat]
    omega
  · rw [isTail_iff]
    omega

section

variable {b b₁ b₂ b₃ : UInt8}

theorem encodeChar_one (hb : b < 0x80) : encodeChar (Char.ofNat b.toNat) = [b] := by
  have hsmall : b.toNat < 0x80 := UInt8.lt_iff_toNat_lt.1 hb
  simp only [encodeChar, toNat_charOfNat (show b.toNat.isValidChar from .inl (by omega))]
  rw [if_pos hsmall, UInt8.ofNat_toNat]

theorem encodeChar_two (hlow : 0xC2 ≤ b.toNat) (hhigh : b.toNat < 0xE0) (h₁ : isTail b₁ = true) :
    encodeChar (Char.ofNat (b.toNat % 0x20 * 0x40 + tailBits b₁)) = [b, b₁] := by
  have hbits := tailBits_lt b₁
  generalize hn : b.toNat % 0x20 * 0x40 + tailBits b₁ = n
  have hfirst : UInt8.ofNat (0xC0 + n / 0x40) = b := (ofNat_eq_iff (by omega) b).2 (by omega)
  have hsecond : UInt8.ofNat (0x80 + n % 0x40) = b₁ := tailByte_eq h₁ (by omega)
  simp only [encodeChar, toNat_charOfNat (show n.isValidChar from .inl (by omega))]
  rw [if_neg (by omega), if_pos (by omega), hfirst, hsecond]

theorem encodeChar_three (hlow : 0xE0 ≤ b.toNat) (hhigh : b.toNat < 0xF0) (h₁ : isSecond b b₁ = true)
    (h₂ : isTail b₂ = true) :
    encodeChar (Char.ofNat ((b.toNat % 0x10 * 0x40 + tailBits b₁) * 0x40 + tailBits b₂)) = [b, b₁, b₂] := by
  obtain ⟨htail, hE0, hED, -, -⟩ := isSecond_iff.1 h₁
  have hbits₁ := tailBits_lt b₁
  have hbits₂ := tailBits_lt b₂
  generalize hn : (b.toNat % 0x10 * 0x40 + tailBits b₁) * 0x40 + tailBits b₂ = n
  have hvalid : n.isValidChar := by
    show n < 0xD800 ∨ 0xDFFF < n ∧ n < 0x110000
    omega
  have hfirst : UInt8.ofNat (0xE0 + n / 0x1000) = b := (ofNat_eq_iff (by omega) b).2 (by omega)
  have hsecond : UInt8.ofNat (0x80 + n / 0x40 % 0x40) = b₁ := tailByte_eq htail (by omega)
  have hthird : UInt8.ofNat (0x80 + n % 0x40) = b₂ := tailByte_eq h₂ (by omega)
  simp only [encodeChar, toNat_charOfNat hvalid]
  rw [if_neg (by omega), if_neg (by omega), if_pos (by omega), hfirst, hsecond, hthird]

theorem encodeChar_four (hlow : 0xF0 ≤ b.toNat) (hhigh : b.toNat < 0xF5) (h₁ : isSecond b b₁ = true)
    (h₂ : isTail b₂ = true) (h₃ : isTail b₃ = true) :
    encodeChar (Char.ofNat (((b.toNat % 0x08 * 0x40 + tailBits b₁) * 0x40 + tailBits b₂) * 0x40 +
      tailBits b₃)) = [b, b₁, b₂, b₃] := by
  obtain ⟨htail, -, -, hF0, hF4⟩ := isSecond_iff.1 h₁
  have hbits₁ := tailBits_lt b₁
  have hbits₂ := tailBits_lt b₂
  have hbits₃ := tailBits_lt b₃
  generalize hn : ((b.toNat % 0x08 * 0x40 + tailBits b₁) * 0x40 + tailBits b₂) * 0x40 + tailBits b₃ = n
  have hvalid : n.isValidChar := by
    show n < 0xD800 ∨ 0xDFFF < n ∧ n < 0x110000
    omega
  have hfirst : UInt8.ofNat (0xF0 + n / 0x40000) = b := (ofNat_eq_iff (by omega) b).2 (by omega)
  have hsecond : UInt8.ofNat (0x80 + n / 0x1000 % 0x40) = b₁ := tailByte_eq htail (by omega)
  have hthird : UInt8.ofNat (0x80 + n / 0x40 % 0x40) = b₂ := tailByte_eq h₂ (by omega)
  have hfourth : UInt8.ofNat (0x80 + n % 0x40) = b₃ := tailByte_eq h₃ (by omega)
  simp only [encodeChar, toNat_charOfNat hvalid]
  rw [if_neg (by omega), if_neg (by omega), if_neg (by omega), hfirst, hsecond, hthird, hfourth]

end

/-- Bytes whose head is read as a character begin with the bytes of the character. -/
theorem encodeChar_of_head {b : UInt8} {rest : List UInt8} {c : Char} {more : Nat}
    (hhead : head b rest = .char c more) : encodeChar c = b :: rest.take more := by
  unfold head at hhead
  simp only [UInt8.lt_iff_toNat_lt, UInt8.reduceToNat] at hhead
  split at hhead
  · next h =>
    cases hhead
    exact encodeChar_one (UInt8.lt_iff_toNat_lt.2 h)
  split at hhead
  · cases hhead
  split at hhead
  · next hlow hhigh =>
    cases rest with
    | nil => cases hhead
    | cons b₁ rest =>
      simp only at hhead
      split at hhead
      · next h₁ =>
        cases hhead
        exact encodeChar_two (by omega) hhigh h₁
      · cases hhead
  split at hhead
  · next hlow hhigh =>
    split at hhead
    · cases hhead
    · split at hhead <;> cases hhead
    · next b₁ b₂ rest =>
      split at hhead
      · cases hhead
      split at hhead
      · cases hhead
      · next h₁ h₂ =>
        cases hhead
        exact encodeChar_three (by omega) hhigh (by simpa using h₁) (by simpa using h₂)
  split at hhead
  · next hlow hhigh =>
    split at hhead
    · cases hhead
    · split at hhead <;> cases hhead
    · split at hhead
      · cases hhead
      · split at hhead <;> cases hhead
    · next b₁ b₂ b₃ rest =>
      split at hhead
      · cases hhead
      split at hhead
      · cases hhead
      split at hhead
      · cases hhead
      · next h₁ h₂ h₃ =>
        cases hhead
        exact encodeChar_four (by omega) hhigh (by simpa using h₁) (by simpa using h₂) (by simpa using h₃)
  · cases hhead

theorem eq_encode_of_decodeFrom {index : Nat} {bs : List UInt8} :
    ∀ {cs : List Char}, decodeFrom index bs = .ok cs → bs = encode cs := by
  induction index, bs using decodeFrom.induct with
  | case1 index =>
    intro cs hcs
    rw [decodeFrom] at hcs
    cases hcs
    rfl
  | case2 index b rest c more hhead ih =>
    intro cs hcs
    rw [decodeFrom, hhead] at hcs
    obtain ⟨cs', hcs', rfl⟩ := map_eq_ok.1 hcs
    calc b :: rest = (b :: rest.take more) ++ rest.drop more := by rw [List.cons_append, List.take_append_drop]
      _ = encodeChar c ++ encode cs' := by rw [encodeChar_of_head hhead, ← ih hcs']
      _ = encode (c :: cs') := rfl
  | case3 index b rest more hhead =>
    intro cs hcs
    rw [decodeFrom, hhead] at hcs
    cases hcs
  | case4 index b rest hhead =>
    intro cs hcs
    rw [decodeFrom, hhead] at hcs
    cases hcs

/-- **Bytes are decoded as a text only if they encode it.** -/
theorem decode_eq_ok_iff {bs : List UInt8} {cs : List Char} : decode bs = .ok cs ↔ bs = encode cs := by
  constructor
  · exact eq_encode_of_decodeFrom
  · rintro rfl
    exact decodeFrom_encode cs 0

theorem decode?_eq_some_iff {bs : List UInt8} {cs : List Char} : decode? bs = some cs ↔ bs = encode cs := by
  rw [← decode_eq_ok_iff, decode?]
  cases decode bs <;> simp [Except.toOption]

/-- The bytes encode some text. -/
def IsText (bs : List UInt8) : Prop :=
  ∃ cs, bs = encode cs

theorem isText_ofString (s : String) : IsText (ofString s) :=
  ⟨s.toList, rfl⟩

theorem not_isText_of_decode {bs : List UInt8} {fault : Malformed} (h : decode bs = .error fault) : ¬ IsText bs := by
  rintro ⟨cs, rfl⟩
  rw [decode_eq_ok_iff.2 rfl] at h
  cases h

theorem encode_injective : Function.Injective encode := by
  intro cs cs' h
  have hcs : decode (encode cs) = .ok cs' := decode_eq_ok_iff.2 h
  rw [decode_eq_ok_iff.2 rfl] at hcs
  exact Except.ok.inj hcs

theorem encode_cons (c : Char) (cs : List Char) : encode (c :: cs) = encodeChar c ++ encode cs :=
  List.flatMap_cons

theorem encode_append (cs cs' : List Char) : encode (cs ++ cs') = encode cs ++ encode cs' :=
  List.flatMap_append

theorem encode_concat (cs : List Char) (c : Char) : encode (cs ++ [c]) = encode cs ++ encodeChar c := by
  rw [encode_append, encode_cons]
  exact congrArg (encode cs ++ ·) (List.append_nil _)

/-- A byte of the ASCII range stands for its character only. -/
theorem eq_of_mem_encodeChar {c : Char} {b : UInt8} (hb : b ∈ encodeChar c) (hsmall : b.toNat < 0x80) :
    c = Char.ofNat b.toNat := by
  have hvalid : c.toNat < 0xD800 ∨ 0xDFFF < c.toNat ∧ c.toNat < 0x110000 := c.valid
  have hlarge : ∀ k, 0x80 ≤ k → k < 256 → b = UInt8.ofNat k → c = Char.ofNat b.toNat := by
    rintro k hlow hhigh rfl
    rw [UInt8.toNat_ofNat_of_lt' hhigh] at hsmall
    omega
  unfold encodeChar at hb
  simp only at hb
  split at hb
  · next h =>
    rw [List.mem_singleton.1 hb, UInt8.toNat_ofNat_of_lt' (show c.toNat < 256 by omega), Char.ofNat_toNat]
  split at hb
  · simp only [List.mem_cons, List.not_mem_nil, or_false] at hb
    rcases hb with hb | hb <;> exact hlarge _ (by omega) (by omega) hb
  split at hb
  · simp only [List.mem_cons, List.not_mem_nil, or_false] at hb
    rcases hb with hb | hb | hb <;> exact hlarge _ (by omega) (by omega) hb
  · simp only [List.mem_cons, List.not_mem_nil, or_false] at hb
    rcases hb with hb | hb | hb | hb <;> exact hlarge _ (by omega) (by omega) hb

/-- Bytes of the ASCII range encode the characters of the same numbers. -/
theorem encode_ascii {bs : List UInt8} (hbs : ∀ b ∈ bs, b < 0x80) :
    encode (bs.map fun b => Char.ofNat b.toNat) = bs := by
  induction bs with
  | nil => rfl
  | cons b bs ih =>
    obtain ⟨hb, hbs⟩ := List.forall_mem_cons.1 hbs
    rw [List.map_cons, encode, List.flatMap_cons, encodeChar_one hb]
    exact congrArg (b :: ·) (ih hbs)

/-- A decoder that mends malformed bytes has nothing to mend in the bytes of a text. -/
theorem decodeLossy_encode (cs : List Char) : decodeLossy (encode cs) = cs := by
  induction cs with
  | nil => rw [encode, List.flatMap_nil, decodeLossy]
  | cons c cs ih =>
    obtain ⟨b, bs, hbytes, hhead⟩ := head_encodeChar c (encode cs)
    have hcons : encode (c :: cs) = b :: (bs ++ encode cs) := by
      rw [encode, List.flatMap_cons, hbytes, List.cons_append]
      rfl
    rw [hcons, decodeLossy, hhead]
    show c :: decodeLossy ((bs ++ encode cs).drop bs.length) = _
    rw [List.drop_left, ih]

/-- Bytes in which nothing was mended are the bytes of what they were decoded as. -/
theorem eq_encode_of_decodeLossy {bs : List UInt8} (h : replacement ∉ decodeLossy bs) :
    bs = encode (decodeLossy bs) := by
  induction bs using decodeLossy.induct with
  | case1 =>
    rw [decodeLossy]
    rfl
  | case2 b rest c more hhead ih =>
    rw [decodeLossy, hhead] at h ⊢
    have hrest : replacement ∉ decodeLossy (rest.drop more) := fun hmem => h (List.mem_cons_of_mem c hmem)
    calc b :: rest = (b :: rest.take more) ++ rest.drop more := by rw [List.cons_append, List.take_append_drop]
      _ = encodeChar c ++ encode (decodeLossy (rest.drop more)) := by rw [encodeChar_of_head hhead, ← ih hrest]
      _ = encode (c :: decodeLossy (rest.drop more)) := (encode_cons c _).symm
  | case3 b rest more hhead ih =>
    rw [decodeLossy, hhead] at h
    exact absurd List.mem_cons_self h
  | case4 b rest hhead =>
    rw [decodeLossy, hhead] at h
    exact absurd List.mem_cons_self h

/-! ### The text in front -/

/-- The bytes do not begin with a character. -/
def Broken (bs : List UInt8) : Prop :=
  ∀ c more, bs ≠ encodeChar c ++ more

theorem broken_nil : Broken [] := by
  intro c more h
  obtain ⟨b, bs, hbytes, -⟩ := head_encodeChar c []
  rw [hbytes] at h
  cases h

theorem encodeChar_append_inj {c c' : Char} {rest rest' : List UInt8}
    (h : encodeChar c ++ rest = encodeChar c' ++ rest') : c = c' ∧ rest = rest' := by
  obtain ⟨b, bs, hbytes, hhead⟩ := head_encodeChar c rest
  obtain ⟨b', bs', hbytes', hhead'⟩ := head_encodeChar c' rest'
  have hcons : b :: (bs ++ rest) = b' :: (bs' ++ rest') := by
    rw [← List.cons_append, ← hbytes, h, hbytes', List.cons_append]
  obtain ⟨rfl, hrest⟩ := List.cons.inj hcons
  rw [hrest, hhead'] at hhead
  obtain rfl := (Head.char.inj hhead).1
  exact ⟨rfl, List.append_cancel_left h⟩

/-- **The text in front of broken bytes is known by the bytes.** -/
theorem encode_append_inj {cs cs' : List Char} {rest rest' : List UInt8} (hrest : Broken rest)
    (hrest' : Broken rest') (h : encode cs ++ rest = encode cs' ++ rest') : cs = cs' ∧ rest = rest' := by
  induction cs generalizing cs' with
  | nil =>
    cases cs' with
    | nil => exact ⟨rfl, h⟩
    | cons c' cs' =>
      rw [encode_cons, List.append_assoc] at h
      exact absurd h (hrest c' _)
  | cons c cs ih =>
    rw [encode_cons, List.append_assoc] at h
    cases cs' with
    | nil => exact absurd h.symm (hrest' c _)
    | cons c' cs' =>
      rw [encode_cons, List.append_assoc] at h
      obtain ⟨rfl, htail⟩ := encodeChar_append_inj h
      obtain ⟨rfl, hsame⟩ := ih htail
      exact ⟨rfl, hsame⟩

theorem length_encodeChar_of_head {b : UInt8} {rest : List UInt8} {c : Char} {more : Nat}
    (hhead : head b rest = .char c more) : (encodeChar c).length = more + 1 := by
  have hbytes := encodeChar_of_head hhead
  obtain ⟨b', bs, hbytes', hhead'⟩ := head_encodeChar c (rest.drop more)
  obtain ⟨rfl, rfl⟩ := List.cons.inj (hbytes.symm.trans hbytes')
  rw [List.take_append_drop, hhead] at hhead'
  obtain ⟨-, hmore⟩ := Head.char.inj hhead'
  rw [hbytes, List.length_cons, ← hmore]

theorem broken_of_head {b : UInt8} {rest : List UInt8} (h : ∀ c more, head b rest ≠ .char c more) :
    Broken (b :: rest) := by
  intro c more heq
  obtain ⟨b', bs, hbytes, hhead⟩ := head_encodeChar c more
  rw [hbytes, List.cons_append] at heq
  obtain ⟨rfl, rfl⟩ := List.cons.inj heq
  exact h c bs.length hhead

/-- Where decoding fails, there is text in front and broken bytes behind it. -/
theorem of_decodeFrom_eq_error {index : Nat} {bs : List UInt8} {m : Malformed} (h : decodeFrom index bs = .error m) :
    ∃ cs rest, bs = encode cs ++ rest ∧ m.index = index + (encode cs).length ∧ Broken rest := by
  induction index, bs using decodeFrom.induct with
  | case1 index =>
    rw [decodeFrom] at h
    cases h
  | case2 index b rest c more hhead ih =>
    rw [decodeFrom, hhead] at h
    obtain ⟨cs, broken, hdrop, hindex, hbroken⟩ := ih (map_eq_error.1 h)
    have hlength : (encodeChar c).length = more + 1 := length_encodeChar_of_head hhead
    refine ⟨c :: cs, broken, ?_, ?_, hbroken⟩
    · rw [encode_cons, List.append_assoc, ← hdrop, encodeChar_of_head hhead, List.cons_append, List.take_append_drop]
    · rw [encode_cons, List.length_append, hlength, hindex]
      omega
  | case3 index b rest more hhead =>
    rw [decodeFrom, hhead] at h
    cases h
    exact ⟨[], b :: rest, rfl, rfl, broken_of_head (by simp [hhead])⟩
  | case4 index b rest hhead =>
    rw [decodeFrom, hhead] at h
    cases h
    exact ⟨[], b :: rest, rfl, rfl, broken_of_head (by simp [hhead])⟩

end ImagePush.Text.Utf8
