import ImagePush.Proofs.Json.Accepted
import ImagePush.Proofs.Json.ReadBack
import ImagePush.Proofs.StateValue.Normal

/-!
# Round trip of state values

The texts of a state value in both layouts are read as its normal form, and no text is read as anything but a
normal value. Values that are nested too deep are written all the same, but not read.
-/

namespace ImagePush.StateValue

/-- A value that survives its text: its maps are in order, it holds no finite double, and it is nested no
deeper than the reader allows. -/
structure Storable (v : StateValue) : Prop where
  ordered : v.Ordered
  noFiniteFloat : v.NoFiniteFloat
  depth_le : v.toJson.depth ≤ Json.maxDepth

/-- Each text of a storable value is read as its normal form. -/
theorem Storable.parse_spells {v : StateValue} (hv : v.Storable) {t : List Char}
    (ht : Json.Spells v.toJson t) : parse t = .ok v.norm := by
  rw [parse, Json.parse_spells ht (exact_toJson hv.noFiniteFloat) hv.depth_le, ← ofJson_toJson hv.ordered]
  rfl

theorem compact_norm (v : StateValue) : v.norm.compact = v.compact := by
  rw [compact, compact, toJson_norm]

theorem pretty_norm (v : StateValue) : v.norm.pretty = v.pretty := by
  rw [pretty, pretty, toJson_norm]

theorem norm_norm (v : StateValue) : v.norm.norm = v.norm :=
  (normal_norm v).norm_eq

/-- In a layout that is read back, storable values have the same text exactly if they have the same normal
form. -/
theorem Storable.text_eq_iff {text : StateValue → List Char} (hnorm : ∀ v, text v.norm = text v)
    (hread : ∀ v : StateValue, v.Storable → parse (text v) = .ok v.norm) {v w : StateValue}
    (hv : v.Storable) (hw : w.Storable) : text v = text w ↔ v.norm = w.norm := by
  constructor
  · intro htext
    have hparse := hread v hv
    rw [htext, hread w hw] at hparse
    exact (Except.ok.inj hparse).symm
  · intro heq
    rw [← hnorm v, heq, hnorm]

/-- A text of a value that is nested too deep is refused. -/
theorem parse_error_of_spells {v : StateValue} {t : List Char} (ht : Json.Spells v.toJson t)
    (hdepth : Json.maxDepth < v.toJson.depth) : ∃ e, parse t = .error e := by
  cases hparse : parse t with
  | error e => exact ⟨e, rfl⟩
  | ok w =>
    obtain ⟨j, hj, -⟩ := map_eq_ok.1 hparse
    exact absurd (Json.depth_le_of_parse_spells ht hj) (Nat.not_le_of_lt hdepth)

/-- What is read from any text is normal and in order. -/
theorem of_parse {text : List Char} {v : StateValue} (hparse : parse text = .ok v) :
    v.Normal ∧ v.Ordered := by
  obtain ⟨j, hj, rfl⟩ := map_eq_ok.1 hparse
  exact ⟨normal_ofJson (Json.parse_accepted hj).2, ordered_ofJson j⟩

/-- **Round trip of state values.** Both texts of a storable value are read as its normal form. A value and
its normal form have the same texts, so that storable values have the same text exactly if they have the same
normal form. A value that is nested too deep is refused when it is read back. Whatever text is read, the
value is normal, hence its own normal form. -/
theorem text_round_trip :
    (∀ v : StateValue, v.Storable → parse v.compact = .ok v.norm ∧ parse v.pretty = .ok v.norm) ∧
    (∀ v : StateValue, v.norm.compact = v.compact ∧ v.norm.pretty = v.pretty ∧ v.norm.norm = v.norm) ∧
    (∀ v w : StateValue, v.Storable → w.Storable →
      (v.compact = w.compact ↔ v.norm = w.norm) ∧ (v.pretty = w.pretty ↔ v.norm = w.norm)) ∧
    (∀ v : StateValue, Json.maxDepth < v.toJson.depth →
      (∃ e, parse v.compact = .error e) ∧ ∃ e, parse v.pretty = .error e) ∧
    ∀ (text : List Char) (v : StateValue), parse text = .ok v → v.Normal ∧ v.norm = v := by
  have hcompact : ∀ v : StateValue, v.Storable → parse v.compact = .ok v.norm :=
    fun v hv => hv.parse_spells (Json.spells_compact _)
  have hpretty : ∀ v : StateValue, v.Storable → parse v.pretty = .ok v.norm :=
    fun v hv => hv.parse_spells (Json.spells_pretty _)
  refine ⟨fun v hv => ⟨hcompact v hv, hpretty v hv⟩,
    fun v => ⟨compact_norm v, pretty_norm v, norm_norm v⟩, fun v w hv hw => ?_, fun v hdepth => ?_,
    fun text v hparse => ?_⟩
  · exact ⟨hv.text_eq_iff compact_norm hcompact hw, hv.text_eq_iff pretty_norm hpretty hw⟩
  · exact ⟨parse_error_of_spells (Json.spells_compact _) hdepth,
      parse_error_of_spells (Json.spells_pretty _) hdepth⟩
  · have hnormal := (of_parse hparse).1
    exact ⟨hnormal, hnormal.norm_eq⟩

/-- A value with every constructor whose JSON is read as another one. -/
def loose : StateValue :=
  .list
    [.unsigned 5, .unsigned 9223372036854775808, .float ⟨0x7FF0000000000000⟩, .list [], .entries [],
      .entries [(.string "a\n", .string "é"), (.null, .list [.string "\""])],
      .map [("", .list [.string "b"]), ("k", .integer (-3))]]

theorem text_round_trip_loose :
    loose.Storable ∧
    parse loose.pretty =
      .ok (.list
        [.integer 5, .unsigned 9223372036854775808, .null, .strings [], .strings [],
          .list [.strings ["a\n", "é"], .list [.null, .strings ["\""]]],
          .map [("", .strings ["b"]), ("k", .integer (-3))]]) := by
  have hinfinite : Double.isFinite ⟨0x7FF0000000000000⟩ = false := by decide
  have hsorted : KeyMap.Sorted [("", list [.string "b"]), ("k", .integer (-3))] :=
    List.pairwise_pair.2 (by decide)
  have hstorable : loose.Storable := by
    refine ⟨?_, ?_, by decide⟩
    · simp [Ordered, loose, Everywhere, EverywhereInItems, EverywhereInMembers, EverywhereInPairs,
        KeysIncrease, hsorted]
    · simp [NoFiniteFloat, loose, Everywhere, EverywhereInItems, EverywhereInMembers, EverywhereInPairs,
        NotFinite, hinfinite]
  exact ⟨hstorable, (text_round_trip.1 loose hstorable).2⟩

end ImagePush.StateValue
