import ImagePush.Proofs.StateValue.Places

/-!
# Whole numbers in state values

A whole number that is written in the text of a state value, wherever it stands, is read as an integer if it is in the
signed range, as a natural number past it up to 64 bits, and otherwise as a double, unless it is out of range
(`StateValue.parse_of_writtenIn`). Where a value has one of the first two, each of its texts has the digits again
(`StateValue.digitsAt_of_standsFor`).
-/

namespace ImagePush

namespace Json

/-- A whole number is written in the text, as a value at the place, and the text is that of a value that is nested no
deeper than the reader allows. -/
def WrittenIn (n : Int) (place : Option (List Step)) (text : List Char) : Prop :=
  ∃ b t b' value, Blanks b ∧ Blanks b' ∧ Holds Denotes (intText n) place t value ∧ (value null).depth ≤ maxDepth ∧
    text = b ++ (t ++ b')

/-- The text is one of the value, and it has the digits of a whole number at the end of the path. -/
def DigitsAt (n : Int) (path : List Step) (v : Json) (t : List Char) : Prop :=
  ∃ value, Holds (fun t v => Spells v t) (intText n) (some path) t value ∧ value (int n) = v

/-- Where a value has a whole number, its texts have the digits. -/
theorem digitsAt_of_at? {n : Int} {path : List Step} {v : Json} {t : List Char} (hn : v.at? path = some (int n))
    (ht : Spells v t) : DigitsAt n path v t := by
  obtain ⟨s, value, rfl, hholds, hvalue⟩ := holdsPart_of_at? hn ht
  exact ⟨value, hholds, hvalue⟩

end Json

namespace StateValue

open Json (Step Holds Denotes WrittenIn DigitsAt Fits intText Spells)

/-- The value stands for a whole number: an integer in the signed range, a natural number past it up to 64 bits, and
otherwise a double. -/
structure StandsFor (n : Int) (v : StateValue) : Prop where
  integer : -0x8000000000000000 ≤ n → n ≤ 0x7FFFFFFFFFFFFFFF → ∃ k : Int64, v = .integer k ∧ k.toInt = n
  unsigned : 0x8000000000000000 ≤ n → n ≤ 0xFFFFFFFFFFFFFFFF → ∃ k : UInt64, v = .unsigned k ∧ k.toNat = n
  float : n < -0x8000000000000000 ∨ 0xFFFFFFFFFFFFFFFF < n → ∃ x, v = .float x

theorem standsFor_ofInt {n : Int} (hn : Fits n) : StandsFor n (ofInt n) where
  integer hlow hhigh := by
    refine ⟨Int64.ofInt n, ?_, Int64.toInt_ofInt_of_le hlow (by omega)⟩
    rw [ofInt, if_pos (by omega)]
  unsigned hlow hhigh := by
    refine ⟨UInt64.ofNat n.toNat, ?_, ?_⟩
    · rw [ofInt, if_neg (by omega)]
    · rw [UInt64.toNat_ofNat']
      omega
  float hn' := by
    obtain ⟨hlow, hhigh⟩ := hn
    omega

theorem standsFor_float {n : Int} (hn : ¬ Fits n) (x : Double) : StandsFor n (.float x) where
  integer hlow hhigh := absurd ⟨hlow, by omega⟩ hn
  unsigned hlow hhigh := absurd ⟨by omega, by omega⟩ hn
  float _ := ⟨x, rfl⟩

/-- What stands for a whole number that fits is written as the number. -/
theorem StandsFor.toJson_eq {n : Int} {v : StateValue} (hv : StandsFor n v) (hn : Fits n) : v.toJson = .int n := by
  obtain ⟨hlow, hhigh⟩ := hn
  by_cases hsigned : n ≤ 0x7FFFFFFFFFFFFFFF
  · obtain ⟨k, rfl, hk⟩ := hv.integer hlow hsigned
    rw [toJson, hk]
  · obtain ⟨k, rfl, hk⟩ := hv.unsigned (by omega) (by omega)
    rw [toJson, hk]

/-- The value is a whole number. -/
def IsInteger (v : StateValue) : Prop :=
  (∃ k, v = .integer k) ∨ ∃ k, v = .unsigned k

/-- A string has no whole number in it, and neither do several. -/
theorem not_isInteger_of_at?_string {t : String} {path : List Step} {u : StateValue}
    (hu : (string t).at? path = some u) : ¬ u.IsInteger := by
  cases path with
  | nil =>
    obtain rfl := Option.some.inj hu
    rintro (⟨k, hk⟩ | ⟨k, hk⟩) <;> cases hk
  | cons step path => cases step <;> cases hu

theorem not_isInteger_of_at?_strings {ts : List String} {path : List Step} {u : StateValue}
    (hu : (strings ts).at? path = some u) : ¬ u.IsInteger := by
  cases path with
  | nil =>
    obtain rfl := Option.some.inj hu
    rintro (⟨k, hk⟩ | ⟨k, hk⟩) <;> cases hk
  | cons step path =>
    cases step with
    | item i =>
      obtain ⟨t, -, ht⟩ := Option.bind_eq_some_iff.1 hu
      exact not_isInteger_of_at?_string ht
    | key k => cases hu

/-- The text of a whole number denotes what stands for the number, unless it is out of range. -/
theorem denotes_or_outOfRange (n : Int) :
    (∃ w : Json, Denotes (intText n) w ∧ StandsFor n (ofJson w) ∧ w.depth = 0) ∨
      ¬ Fits n ∧ ∀ depth rest, Json.Ends rest →
        Json.FailsFor .numberOutOfRange (Json.readValue depth (intText n ++ rest)) := by
  by_cases hn : Fits n
  · exact .inl ⟨_, Json.denotes_intText hn, standsFor_ofInt hn, rfl⟩
  · rcases Json.denotes_intText_of_not_fits hn with ⟨x, hx⟩ | hfails
    · exact .inl ⟨_, hx, standsFor_float hn x, rfl⟩
    · exact .inr ⟨hn, hfails⟩

/-! ### Reading -/

section

variable {n : Int} {place : Option (List Step)}

/-- What stands for the number stands at its place in the whole value. -/
theorem at?_ofJson_value {t : List Char} {value : Json → Json} (ht : Holds Denotes (intText n) place t value)
    {w : Json} (hw : StandsFor n (ofJson w)) :
    ∀ path ∈ place, ∃ u, (ofJson (value w)).at? path = some u ∧ StandsFor n u := by
  intro path hpath
  refine ⟨ofJson w, ?_, hw⟩
  rw [at?_ofJson, ht.at?_value w path hpath]
  rfl

/-- Wherever a whole number is written in a text that has a value, the value has what stands for the number. -/
theorem standsFor_of_holds {t : List Char} {value : Json → Json} {j : Json}
    (ht : Holds Denotes (intText n) place t value) (hj : Denotes t j) :
    ∀ path ∈ place, ∃ u, (ofJson j).at? path = some u ∧ StandsFor n u := by
  rcases denotes_or_outOfRange n with ⟨w, hw, hstands, -⟩ | ⟨-, hfails⟩
  · rw [hj.unique (ht.denotes hw)]
    exact at?_ofJson_value ht hstands
  · -- a text with a number that is out of range has no value
    have hread := (Json.reads_value _).give ⟨hj, Nat.le_max_right (value .null).depth j.depth⟩ Json.blanks_nil
      Json.ends_nil
    obtain ⟨f, hfault, -⟩ := ht.readValue_fails (Json.beginsItem_intText n) hfails
      (Nat.le_max_left (value .null).depth j.depth) Json.ends_nil
    rw [List.nil_append, hfault] at hread
    cases hread

/-- **A text with a whole number in it is read as a value in which something stands for the number at its place**,
unless the number does not fit and is out of range. -/
theorem parse_of_writtenIn {text : List Char} (htext : WrittenIn n place text) :
    (∃ v, parse text = .ok v ∧ ∀ path ∈ place, ∃ u, v.at? path = some u ∧ StandsFor n u) ∨
      ¬ Fits n ∧ ∃ e, parse text = .error e ∧ e.cause = .numberOutOfRange := by
  obtain ⟨b, t, b', value, hb, hb', ht, hdepth, rfl⟩ := htext
  rcases denotes_or_outOfRange n with ⟨w, hw, hstands, hflat⟩ | ⟨hn, hfails⟩
  · left
    have hvalue : (value w).depth ≤ Json.maxDepth := ht.depth_value_le (Nat.le_of_eq hflat) hdepth
    have hparse := Json.parse_iff.2 ⟨⟨b, t, b', hb, hb', ht.denotes hw, rfl⟩, hvalue⟩
    refine ⟨ofJson (value w), ?_, at?_ofJson_value ht hstands⟩
    rw [parse, hparse]
    rfl
  · right
    obtain ⟨e, hparse, hcause⟩ := ht.parse_fails (Json.beginsItem_intText n) hfails hdepth hb hb'
    refine ⟨hn, e, ?_, hcause⟩
    rw [parse, hparse]
    rfl

end

/-! ### Writing -/

/-- **Where something stands for a number that fits, each text of the value has the digits.** -/
theorem digitsAt_of_standsFor {n : Int} (hn : Fits n) {path : List Step} {v u : StateValue} (hv : v.Ordered)
    (hu : v.at? path = some u) (hstands : StandsFor n u) {t : List Char} (ht : Spells v.toJson t) :
    DigitsAt n path v.toJson t := by
  apply Json.digitsAt_of_at? _ ht
  rw [at?_toJson path hv hu, hstands.toJson_eq hn]

end StateValue

end ImagePush
