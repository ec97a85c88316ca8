import ImagePush.Proofs.Json.Layout

/-!
# Texts of a value

`Spells v t` says that `t` is a text of the value: scalars as they are written, arrays and objects in any
layout. Both layouts of the writer are such texts (`spells_compact`, `spells_pretty`).
-/

namespace ImagePush.Json

/-! ### Texts -/

mutual

/-- The text is one of the value. -/
def Spells : Json → List Char → Prop
  | null, t => t = nullText
  | bool b, t => t = boolText b
  | int n, t => t = intText n
  | float x, t => t = floatText x
  | string s, t => t = quote s
  | array vs, t => ∃ pieces body, SpellsItems vs pieces ∧ Enclosed ']' pieces body ∧ t = '[' :: body
  | object ms, t =>
    ∃ pieces body, SpellsMembers ms pieces ∧ Enclosed '\x7d' (pieces.map memberText) body ∧ t = '\x7b' :: body

/-- The pieces are texts of the items of an array. -/
def SpellsItems : List Json → List (List Char) → Prop
  | [], pieces => pieces = []
  | v :: vs, pieces => ∃ p ps, Spells v p ∧ SpellsItems vs ps ∧ pieces = p :: ps

/-- The pieces are texts of the members of an object. -/
def SpellsMembers : List (String × Json) → List (String × List Char) → Prop
  | [], pieces => pieces = []
  | (k, v) :: ms, pieces =>
    ∃ b b' p ps, Blanks b ∧ Blanks b' ∧ Spells v p ∧ SpellsMembers ms ps ∧
      pieces = (k, b ++ ':' :: (b' ++ p)) :: ps

end

/-! ### The layouts of the writer -/

mutual

theorem spells_compact : ∀ v : Json, Spells v v.compact
  | null | bool _ | int _ | float _ | string _ => rfl
  | array [] => ⟨[], [']'], rfl, ⟨[], blanks_nil, rfl⟩, rfl⟩
  | array (v :: vs) => by
    obtain ⟨ps, hps, hlisted⟩ := listed_compactItems vs
    exact ⟨v.compact :: ps, _, ⟨_, _, spells_compact v, hps, rfl⟩, ⟨[], _, blanks_nil, hlisted, rfl⟩, rfl⟩
  | object [] => ⟨[], ['\x7d'], rfl, ⟨[], blanks_nil, rfl⟩, rfl⟩
  | object ((k, v) :: ms) => by
    obtain ⟨ps, hps, hlisted⟩ := listed_compactMembers ms
    refine ⟨(k, ':' :: v.compact) :: ps, _,
      ⟨[], [], _, _, blanks_nil, blanks_nil, spells_compact v, hps, rfl⟩,
      ⟨[], _, blanks_nil, hlisted, rfl⟩, ?_⟩
    simp [compact, memberText]

theorem listed_compactItems : ∀ vs : List Json,
    ∃ pieces, SpellsItems vs pieces ∧ Listed ']' pieces (compactItems vs)
  | [] => ⟨[], rfl, [], blanks_nil, rfl⟩
  | v :: vs => by
    obtain ⟨ps, hps, hlisted⟩ := listed_compactItems vs
    exact ⟨v.compact :: ps, ⟨_, _, spells_compact v, hps, rfl⟩,
      [], [], _, blanks_nil, blanks_nil, hlisted, rfl⟩

theorem listed_compactMembers : ∀ ms : List (String × Json),
    ∃ pieces, SpellsMembers ms pieces ∧ Listed '\x7d' (pieces.map memberText) (compactMembers ms)
  | [] => ⟨[], rfl, [], blanks_nil, rfl⟩
  | (k, v) :: ms => by
    obtain ⟨ps, hps, hlisted⟩ := listed_compactMembers ms
    refine ⟨(k, ':' :: v.compact) :: ps, ⟨[], [], _, _, blanks_nil, blanks_nil, spells_compact v, hps, rfl⟩,
      [], [], _, blanks_nil, blanks_nil, hlisted, ?_⟩
    simp [compactMembers, memberText]

end

theorem blanks_newLine (level : Nat) : Blanks (newLine level) := by
  intro c hc
  rcases List.mem_cons.1 hc with rfl | hc
  · rfl
  · rw [List.eq_of_mem_replicate hc]
    rfl

theorem blanks_space : Blanks [' '] := by
  simp [Blanks, isBlank]

mutual

theorem spells_prettyAt (level : Nat) : ∀ v : Json, Spells v (prettyAt level v)
  | null | bool _ | int _ | float _ | string _ => rfl
  | array [] => ⟨[], [']'], rfl, ⟨[], blanks_nil, rfl⟩, rfl⟩
  | array (v :: vs) => by
    obtain ⟨ps, hps, hlisted⟩ := listed_prettyItems level vs
    refine ⟨prettyAt (level + 1) v :: ps, _, ⟨_, _, spells_prettyAt (level + 1) v, hps, rfl⟩,
      ⟨newLine (level + 1), _, blanks_newLine _, hlisted, rfl⟩, ?_⟩
    simp [prettyAt]
  | object [] => ⟨[], ['\x7d'], rfl, ⟨[], blanks_nil, rfl⟩, rfl⟩
  | object ((k, v) :: ms) => by
    obtain ⟨ps, hps, hlisted⟩ := listed_prettyMembers level ms
    refine ⟨(k, ':' :: ' ' :: prettyAt (level + 1) v) :: ps, _,
      ⟨[], [' '], _, _, blanks_nil, blanks_space, spells_prettyAt (level + 1) v, hps, rfl⟩,
      ⟨newLine (level + 1), _, blanks_newLine _, hlisted, rfl⟩, ?_⟩
    simp [prettyAt, memberText]

theorem listed_prettyItems (level : Nat) : ∀ vs : List Json,
    ∃ pieces, SpellsItems vs pieces ∧ Listed ']' pieces (prettyItems level vs)
  | [] => ⟨[], rfl, newLine level, blanks_newLine _, rfl⟩
  | v :: vs => by
    obtain ⟨ps, hps, hlisted⟩ := listed_prettyItems level vs
    refine ⟨prettyAt (level + 1) v :: ps, ⟨_, _, spells_prettyAt (level + 1) v, hps, rfl⟩,
      [], newLine (level + 1), _, blanks_nil, blanks_newLine _, hlisted, ?_⟩
    simp [prettyItems]

theorem listed_prettyMembers (level : Nat) : ∀ ms : List (String × Json),
    ∃ pieces, SpellsMembers ms pieces ∧ Listed '\x7d' (pieces.map memberText) (prettyMembers level ms)
  | [] => ⟨[], rfl, newLine level, blanks_newLine _, rfl⟩
  | (k, v) :: ms => by
    obtain ⟨ps, hps, hlisted⟩ := listed_prettyMembers level ms
    refine ⟨(k, ':' :: ' ' :: prettyAt (level + 1) v) :: ps,
      ⟨[], [' '], _, _, blanks_nil, blanks_space, spells_prettyAt (level + 1) v, hps, rfl⟩,
      [], newLine (level + 1), _, blanks_nil, blanks_newLine _, hlisted, ?_⟩
    simp [prettyMembers, memberText]

end

theorem spells_pretty (v : Json) : Spells v v.pretty :=
  spells_prettyAt 0 v

end ImagePush.Json
