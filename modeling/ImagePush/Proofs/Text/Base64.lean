import ImagePush.Proofs.Results
import ImagePush.Text.Base64

/-!
# Base64 as the inverse of its encoding

Four symbols carry the bits of three bytes, and a group that is filled up with padding carries those of one or
two bytes if its last bits are zero. A text is decoded as bytes exactly if it is the encoding of these bytes
(`decode_eq_ok_iff`), so that there is one text for each list of bytes.
-/

namespace ImagePush.Text.Base64

/-! ### Symbols -/

theorem value?_symbol {n : Nat} (hn : n < 64) : value? (symbol n) = some n := by
  revert n
  decide

theorem symbol_ne_pad {n : Nat} (hn : n < 64) : symbol n ≠ pad := by
  revert n
  decide

theorem ofNat_eq {k : Nat} {b : UInt8} (hk : k = b.toNat) : UInt8.ofNat k = b :=
  hk ▸ UInt8.ofNat_toNat

/-- Only symbols of the alphabet have a value. -/
theorem symbol_of_value? {b : UInt8} {n : Nat} (hb : value? b = some n) : n < 64 ∧ symbol n = b := by
  unfold value? at hb
  simp only at hb
  unfold symbol
  split at hb
  · next h =>
    obtain rfl := Option.some.inj hb
    refine ⟨by omega, ?_⟩
    rw [if_pos (by omega)]
    exact ofNat_eq (by omega)
  split at hb
  · next h =>
    obtain rfl := Option.some.inj hb
    refine ⟨by omega, ?_⟩
    rw [if_neg (by omega), if_pos (by omega)]
    exact ofNat_eq (by omega)
  split at hb
  · next h =>
    obtain rfl := Option.some.inj hb
    refine ⟨by omega, ?_⟩
    rw [if_neg (by omega), if_neg (by omega), if_pos (by omega)]
    exact ofNat_eq (by omega)
  split at hb
  · next h =>
    obtain rfl := Option.some.inj hb
    exact ⟨by omega, UInt8.toNat_inj.1 h.symm⟩
  split at hb
  · next h =>
    obtain rfl := Option.some.inj hb
    exact ⟨by omega, UInt8.toNat_inj.1 h.symm⟩
  · cases hb

theorem valueAt_eq_ok {offset : Nat} {b : UInt8} {n : Nat} :
    valueAt offset b = .ok n ↔ n < 64 ∧ b = symbol n := by
  unfold valueAt
  constructor
  · intro h
    cases hb : value? b with
    | none =>
      rw [hb] at h
      cases h
    | some m =>
      rw [hb] at h
      obtain rfl : m = n := Except.ok.inj h
      obtain ⟨hm, hsymbol⟩ := symbol_of_value? hb
      exact ⟨hm, hsymbol.symm⟩
  · rintro ⟨hn, rfl⟩
    rw [value?_symbol hn]

/-! ### The last group -/

/-- The last group is some symbols, two at least in front of padding, and then padding only. -/
theorem lastSymbols_eq_ok {offset i pads : Nat} {group : List UInt8} {ns : List Nat} :
    lastSymbols offset i group = .ok (ns, pads) ↔
      group = ns.map symbol ++ List.replicate pads pad ∧ (∀ n ∈ ns, n < 64) ∧
        (pads = 0 ∨ 2 ≤ i + ns.length) := by
  induction group generalizing i ns pads with
  | nil =>
    rw [lastSymbols]
    constructor
    · intro h
      cases h
      simp
    · rintro ⟨hgroup, -, -⟩
      obtain ⟨hns, hpads⟩ := List.append_eq_nil_iff.1 hgroup.symm
      rw [List.map_eq_nil_iff.1 hns, (List.replicate_eq_nil_iff pad).1 hpads]
  | cons b rest ih =>
    rw [lastSymbols]
    by_cases hb : b = pad
    · subst hb
      rw [if_pos rfl]
      constructor
      · intro h
        split at h
        · cases h
        split at h
        · next hi hall =>
          cases h
          refine ⟨?_, by simp, .inr (by omega)⟩
          have hrest : rest = List.replicate rest.length pad :=
            List.eq_replicate_iff.2 ⟨rfl, fun b hb => beq_iff_eq.1 (List.all_eq_true.1 hall b hb)⟩
          rw [List.map_nil, List.nil_append, List.replicate_succ, ← hrest]
        · cases h
      · rintro ⟨hgroup, hns, hpads⟩
        cases ns with
        | cons n ns =>
          -- a symbol is no padding
          have hn := (List.cons.inj hgroup).1
          exact absurd hn.symm (symbol_ne_pad (hns n List.mem_cons_self))
        | nil =>
          cases pads with
          | zero => cases hgroup
          | succ pads =>
            obtain rfl : rest = List.replicate pads pad := (List.cons.inj hgroup).2
            have hi : ¬ i < 2 := by
              simp at hpads
              omega
            rw [if_neg hi, if_pos (by simp), List.length_replicate]
    · rw [if_neg hb]
      constructor
      · intro h
        obtain ⟨n, hn, h⟩ := bind_eq_ok.1 h
        obtain ⟨⟨ns', pads'⟩, hrest, h⟩ := bind_eq_ok.1 h
        cases h
        obtain ⟨hlt, rfl⟩ := valueAt_eq_ok.1 hn
        obtain ⟨rfl, hns, hpads⟩ := ih.1 hrest
        refine ⟨rfl, List.forall_mem_cons.2 ⟨hlt, hns⟩, ?_⟩
        rw [List.length_cons]
        omega
      · rintro ⟨hgroup, hns, hpads⟩
        cases ns with
        | nil =>
          cases pads with
          | zero => cases hgroup
          | succ pads => exact absurd (List.cons.inj hgroup).1 hb
        | cons n ns =>
          obtain ⟨hn, hns⟩ := List.forall_mem_cons.1 hns
          obtain ⟨hsymbol, hrest⟩ := List.cons.inj hgroup
          rw [List.length_cons] at hpads
          exact bind_eq_ok.2 ⟨n, valueAt_eq_ok.2 ⟨hn, hsymbol⟩,
            bind_eq_ok.2 ⟨(ns, pads), ih.2 ⟨hrest, hns, by omega⟩, rfl⟩⟩

theorem checkLast_eq_ok {group bytes bs : List UInt8} {offset i bits : Nat} :
    checkLast group offset i bits bytes = .ok bs ↔ bits = 0 ∧ bytes = bs := by
  unfold checkLast
  by_cases hbits : bits = 0
  · simp [hbits]
  · simp [hbits]

/-! ### Groups -/

section

variable {a b c d : Nat}

/-- Two symbols carry a byte, if the last four bits of the second one are zero. -/
theorem encode_two_symbols (ha : a < 64) (hb : b < 64) (hbits : b % 16 = 0) :
    encode [UInt8.ofNat (a * 4 + b / 16)] = [symbol a, symbol b, pad, pad] := by
  have hx : (UInt8.ofNat (a * 4 + b / 16)).toNat = a * 4 + b / 16 :=
    UInt8.toNat_ofNat_of_lt' (show _ < 256 by omega)
  have hfirst : (a * 4 + b / 16) / 4 = a := by omega
  have hsecond : (a * 4 + b / 16) % 4 * 16 = b := by omega
  rw [encode, hx, hfirst, hsecond]

/-- Three symbols carry two bytes, if the last two bits of the third one are zero. -/
theorem encode_three_symbols (ha : a < 64) (hb : b < 64) (hc : c < 64) (hbits : c % 4 = 0) :
    encode [UInt8.ofNat (a * 4 + b / 16), UInt8.ofNat (b % 16 * 16 + c / 4)] =
      [symbol a, symbol b, symbol c, pad] := by
  have hx : (UInt8.ofNat (a * 4 + b / 16)).toNat = a * 4 + b / 16 :=
    UInt8.toNat_ofNat_of_lt' (show _ < 256 by omega)
  have hy : (UInt8.ofNat (b % 16 * 16 + c / 4)).toNat = b % 16 * 16 + c / 4 :=
    UInt8.toNat_ofNat_of_lt' (show _ < 256 by omega)
  have hfirst : (a * 4 + b / 16) / 4 = a := by omega
  have hsecond : (a * 4 + b / 16) % 4 * 16 + (b % 16 * 16 + c / 4) / 16 = b := by omega
  have hthird : (b % 16 * 16 + c / 4) % 16 * 4 = c := by omega
  rw [encode, hx, hy, hfirst, hsecond, hthird]

/-- Four symbols carry three bytes. -/
theorem encode_four_symbols (ha : a < 64) (hb : b < 64) (hc : c < 64) (hd : d < 64) (bytes : List UInt8) :
    encode (UInt8.ofNat (a * 4 + b / 16) :: UInt8.ofNat (b % 16 * 16 + c / 4) ::
        UInt8.ofNat (c % 4 * 64 + d) :: bytes) =
      symbol a :: symbol b :: symbol c :: symbol d :: encode bytes := by
  have hx : (UInt8.ofNat (a * 4 + b / 16)).toNat = a * 4 + b / 16 :=
    UInt8.toNat_ofNat_of_lt' (show _ < 256 by omega)
  have hy : (UInt8.ofNat (b % 16 * 16 + c / 4)).toNat = b % 16 * 16 + c / 4 :=
    UInt8.toNat_ofNat_of_lt' (show _ < 256 by omega)
  have hz : (UInt8.ofNat (c % 4 * 64 + d)).toNat = c % 4 * 64 + d :=
    UInt8.toNat_ofNat_of_lt' (show _ < 256 by omega)
  have hfirst : (a * 4 + b / 16) / 4 = a := by omega
  have hsecond : (a * 4 + b / 16) % 4 * 16 + (b % 16 * 16 + c / 4) / 16 = b := by omega
  have hthird : (b % 16 * 16 + c / 4) % 16 * 4 + (c % 4 * 64 + d) / 64 = c := by omega
  have hfourth : (c % 4 * 64 + d) % 64 = d := by omega
  rw [encode, hx, hy, hz, hfirst, hsecond, hthird, hfourth]

end

theorem eq_encode_of_decodeLast {offset : Nat} {group bs : List UInt8}
    (h : decodeLast offset group = .ok bs) : group = encode bs := by
  obtain ⟨⟨ns, pads⟩, hlast, h⟩ := bind_eq_ok.1 h
  obtain ⟨rfl, hns, -⟩ := lastSymbols_eq_ok.1 hlast
  simp only at h
  split at h
  · next hempty =>
    cases h
    exact List.isEmpty_iff.1 hempty
  split at h
  · cases h
  split at h
  · cases h
  next hlow hfour =>
  match ns with
  | [] | [_] => simp at hlow
  | [a, b] =>
    obtain ⟨hbits, rfl⟩ := checkLast_eq_ok.1 h
    obtain rfl : pads = 2 := by simp at hfour; omega
    have ha : a < 64 := hns a (by simp)
    have hb : b < 64 := hns b (by simp)
    rw [encode_two_symbols ha hb hbits]
    rfl
  | [a, b, c] =>
    obtain ⟨hbits, rfl⟩ := checkLast_eq_ok.1 h
    obtain rfl : pads = 1 := by simp at hfour; omega
    have ha : a < 64 := hns a (by simp)
    have hb : b < 64 := hns b (by simp)
    have hc : c < 64 := hns c (by simp)
    rw [encode_three_symbols ha hb hc hbits]
    rfl
  | [a, b, c, d] =>
    obtain rfl := Except.ok.inj h
    obtain rfl : pads = 0 := by simp at hfour; omega
    have ha : a < 64 := hns a (by simp)
    have hb : b < 64 := hns b (by simp)
    have hc : c < 64 := hns c (by simp)
    have hd : d < 64 := hns d (by simp)
    rw [encode_four_symbols ha hb hc hd]
    rfl
  | _ :: _ :: _ :: _ :: _ :: _ => simp at hfour; omega

theorem eq_encode_of_decodeFrom {offset : Nat} {text : List UInt8} :
    ∀ {bs : List UInt8}, decodeFrom offset text = .ok bs → text = encode bs := by
  induction offset, text using decodeFrom.induct with
  | case1 offset a b c d e rest ih =>
    intro bs h
    rw [decodeFrom] at h
    obtain ⟨na, ha, h⟩ := bind_eq_ok.1 h
    obtain ⟨nb, hb, h⟩ := bind_eq_ok.1 h
    obtain ⟨nc, hc, h⟩ := bind_eq_ok.1 h
    obtain ⟨nd, hd, h⟩ := bind_eq_ok.1 h
    obtain ⟨more, hmore, h⟩ := bind_eq_ok.1 h
    obtain rfl := Except.ok.inj h
    obtain ⟨hna, rfl⟩ := valueAt_eq_ok.1 ha
    obtain ⟨hnb, rfl⟩ := valueAt_eq_ok.1 hb
    obtain ⟨hnc, rfl⟩ := valueAt_eq_ok.1 hc
    obtain ⟨hnd, rfl⟩ := valueAt_eq_ok.1 hd
    rw [encode_four_symbols hna hnb hnc hnd, ih hmore]
  | case2 offset group hgroup =>
    intro bs h
    rw [decodeFrom] at h
    · exact eq_encode_of_decodeLast h
    · exact hgroup

/-! ### Bytes -/

section

variable (offset : Nat) (x y z : UInt8)

theorem decodeLast_encode_one : decodeLast offset (encode [x]) = .ok [x] := by
  have hx := x.toNat_lt
  have hlast : lastSymbols offset 0 (encode [x]) = .ok ([x.toNat / 4, x.toNat % 4 * 16], 2) := by
    refine lastSymbols_eq_ok.2 ⟨by rw [encode]; rfl, ?_, .inr (Nat.le_refl 2)⟩
    simp only [List.mem_cons, List.not_mem_nil, or_false]
    rintro n (rfl | rfl) <;> omega
  refine bind_eq_ok.2 ⟨_, hlast, ?_⟩
  rw [encode]
  refine checkLast_eq_ok.2 ⟨by omega, ?_⟩
  rw [ofNat_eq (show x.toNat / 4 * 4 + x.toNat % 4 * 16 / 16 = x.toNat by omega)]

theorem decodeLast_encode_two : decodeLast offset (encode [x, y]) = .ok [x, y] := by
  have hx := x.toNat_lt
  have hy := y.toNat_lt
  have hlast : lastSymbols offset 0 (encode [x, y]) =
      .ok ([x.toNat / 4, x.toNat % 4 * 16 + y.toNat / 16, y.toNat % 16 * 4], 1) := by
    refine lastSymbols_eq_ok.2 ⟨by rw [encode]; rfl, ?_, .inr (Nat.le_succ 2)⟩
    simp only [List.mem_cons, List.not_mem_nil, or_false]
    rintro n (rfl | rfl | rfl) <;> omega
  refine bind_eq_ok.2 ⟨_, hlast, ?_⟩
  rw [encode]
  refine checkLast_eq_ok.2 ⟨by omega, ?_⟩
  rw [ofNat_eq (show x.toNat / 4 * 4 + (x.toNat % 4 * 16 + y.toNat / 16) / 16 = x.toNat by omega),
    ofNat_eq (show (x.toNat % 4 * 16 + y.toNat / 16) % 16 * 16 + y.toNat % 16 * 4 / 4 = y.toNat by omega)]

/-- The values of the symbols for three bytes. -/
theorem values_lt :
    x.toNat / 4 < 64 ∧ x.toNat % 4 * 16 + y.toNat / 16 < 64 ∧ y.toNat % 16 * 4 + z.toNat / 64 < 64 ∧
      z.toNat % 64 < 64 := by
  have hx := x.toNat_lt
  have hy := y.toNat_lt
  have hz := z.toNat_lt
  omega

/-- The bits of three bytes come back from their symbols. -/
theorem bytes_of_values :
    UInt8.ofNat (x.toNat / 4 * 4 + (x.toNat % 4 * 16 + y.toNat / 16) / 16) = x ∧
      UInt8.ofNat ((x.toNat % 4 * 16 + y.toNat / 16) % 16 * 16 + (y.toNat % 16 * 4 + z.toNat / 64) / 4) = y ∧
      UInt8.ofNat ((y.toNat % 16 * 4 + z.toNat / 64) % 4 * 64 + z.toNat % 64) = z := by
  have hy := y.toNat_lt
  have hz := z.toNat_lt
  exact ⟨ofNat_eq (by omega), ofNat_eq (by omega), ofNat_eq (by omega)⟩

theorem decodeLast_encode_three : decodeLast offset (encode [x, y, z]) = .ok [x, y, z] := by
  obtain ⟨ha, hb, hc, hd⟩ := values_lt x y z
  obtain ⟨hx, hy, hz⟩ := bytes_of_values x y z
  have hlast : lastSymbols offset 0 (encode [x, y, z]) =
      .ok ([x.toNat / 4, x.toNat % 4 * 16 + y.toNat / 16, y.toNat % 16 * 4 + z.toNat / 64, z.toNat % 64], 0) := by
    refine lastSymbols_eq_ok.2 ⟨by rw [encode, encode]; rfl, ?_, .inl rfl⟩
    simp only [List.mem_cons, List.not_mem_nil, or_false]
    rintro n (rfl | rfl | rfl | rfl) <;> assumption
  refine bind_eq_ok.2 ⟨_, hlast, ?_⟩
  rw [encode]
  show Except.ok _ = Except.ok _
  rw [hx, hy, hz]

end

/-- Every byte of an encoding is a symbol or padding. -/
theorem forall_mem_encode {P : UInt8 → Prop} (hsymbol : ∀ n < 64, P (symbol n)) (hpad : P pad) (bs : List UInt8) :
    ∀ b ∈ encode bs, P b := by
  induction bs using encode.induct with
  | case1 => simp [encode]
  | case2 x =>
    have hx := x.toNat_lt
    simp only [encode, List.forall_mem_cons]
    exact ⟨hsymbol _ (by omega), hsymbol _ (by omega), hpad, hpad, by simp⟩
  | case3 x y =>
    have hx := x.toNat_lt
    have hy := y.toNat_lt
    simp only [encode, List.forall_mem_cons]
    exact ⟨hsymbol _ (by omega), hsymbol _ (by omega), hsymbol _ (by omega), hpad, by simp⟩
  | case4 x y z rest ih =>
    obtain ⟨ha, hb, hc, hd⟩ := values_lt x y z
    simp only [encode, List.forall_mem_cons]
    exact ⟨hsymbol _ ha, hsymbol _ hb, hsymbol _ hc, hsymbol _ hd, ih⟩

theorem length_encode_mod (bs : List UInt8) : (encode bs).length % 4 = 0 := by
  induction bs using encode.induct with
  | case1 => simp [encode]
  | case2 x => simp [encode]
  | case3 x y => simp [encode]
  | case4 x y z rest ih =>
    simp only [encode, List.length_cons]
    omega

theorem decodeFrom_encode (bs : List UInt8) : ∀ offset, decodeFrom offset (encode bs) = .ok bs := by
  induction bs using encode.induct with
  | case1 => intro offset; rw [encode]; rfl
  | case2 x =>
    intro offset
    rw [← decodeLast_encode_one offset x, encode]
    rfl
  | case3 x y =>
    intro offset
    rw [← decodeLast_encode_two offset x y, encode]
    rfl
  | case4 x y z rest ih =>
    intro offset
    cases hrest : encode rest with
    | nil =>
      obtain rfl : rest = [] := by
        have hnil := ih offset
        rw [hrest] at hnil
        exact (Except.ok.inj hnil).symm
      rw [← decodeLast_encode_three offset x y z, encode, encode]
      rfl
    | cons e es =>
      obtain ⟨ha, hb, hc, hd⟩ := values_lt x y z
      obtain ⟨hx, hy, hz⟩ := bytes_of_values x y z
      have hmore := ih (offset + 4)
      rw [hrest] at hmore
      rw [encode, hrest, decodeFrom, valueAt_eq_ok.2 ⟨ha, rfl⟩, valueAt_eq_ok.2 ⟨hb, rfl⟩,
        valueAt_eq_ok.2 ⟨hc, rfl⟩, valueAt_eq_ok.2 ⟨hd, rfl⟩, hmore]
      show Except.ok _ = Except.ok _
      rw [hx, hy, hz]

/-- **Base64 is decoded exactly as it is encoded**: one text only stands for given bytes. -/
theorem decode_eq_ok_iff {text bs : List UInt8} : decode text = .ok bs ↔ text = encode bs := by
  unfold decode
  constructor
  · intro h
    split at h
    · cases h
    · exact eq_encode_of_decodeFrom h
  · rintro rfl
    have hwhole : straySymbol? (encode bs) = none := by
      rw [straySymbol?, length_encode_mod]
      rfl
    rw [hwhole]
    exact decodeFrom_encode bs 0

end ImagePush.Text.Base64
