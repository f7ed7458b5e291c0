import SmallLisp.Proofs.Equality
import SmallLisp.Proofs.Written

/-!
# The round trip of values

The written form of some values reads as values that equal them only if they are all readable
(`parse_renderAll_iff`). What was read tells what was written: the reader gives legible values, and
only legible ones equal these. That leaves the infinities, but they are written like symbols, which
equal no number.
-/

namespace SmallLisp

open Reader

/-! ## What is read is legible -/

namespace Reader

theorem Lexeme.legible {text : List Char} {k : Token} {v : Value} (h : Lexeme text (.ok k))
    (hv : k.atom? = some v) : v.Legible (· ≠ .nan) := by
  cases h with
  | opening | closing | quote => cases hv
  | string _ hend =>
    cases hend
    cases hv
    trivial
  | int => cases hv; trivial
  | double =>
    cases hv
    intro h
    unfold Double.ofDecimal Double.ofRatio at h
    split at h <;> cases h
  | truth => cases hv; trivial
  | falsehood => cases hv; trivial
  | symbol hall hstart htrue hfalse =>
    cases hv
    rw [Value.Legible, String.toList_ofList]
    exact ⟨List.all_eq_true.2 hall, hstart, htrue, hfalse⟩

mutual

theorem Tree.legible_iff {D : Double → Prop} (t : Tree) :
    t.value.Legible D ↔ ∀ k ∈ t.tokens, ∀ v, k.atom? = some v → v.Legible D := by
  cases t with
  | atom k v hk =>
    rw [Tree.value, Tree.tokens, List.forall_mem_singleton, hk]
    simp only [Option.some.injEq, forall_eq']
  | quote t =>
    have hname : IsName "quote".toList := by decide
    have ih := t.legible_iff (D := D)
    rw [Tree.value, quoted, Value.legible_list, List.forall_mem_cons, List.forall_mem_singleton,
      Value.Legible, Tree.tokens, List.forall_mem_cons, ih]
    exact and_congr_left fun _ => iff_of_true hname fun v hv => by cases hv
  | list ts =>
    rw [Tree.value, Value.legible_list, Tree.legibleAll_iff ts, Tree.tokens, List.forall_mem_cons,
      List.forall_mem_append, List.forall_mem_singleton]
    exact ⟨fun h => ⟨fun v hv => (by cases hv), h, fun v hv => by cases hv⟩, fun h => h.2.1⟩

theorem Tree.legibleAll_iff {D : Double → Prop} (ts : List Tree) :
    (∀ v ∈ Tree.valueAll ts, v.Legible D) ↔
      ∀ k ∈ Tree.tokensAll ts, ∀ v, k.atom? = some v → v.Legible D := by
  cases ts with
  | nil =>
    rw [Tree.valueAll, Tree.tokensAll]
    exact iff_of_true (List.forall_mem_nil _) (List.forall_mem_nil _)
  | cons t ts =>
    rw [Tree.valueAll, Tree.tokensAll, List.forall_mem_cons, List.forall_mem_append,
      t.legible_iff, Tree.legibleAll_iff ts]

end

/-- What the forms of a source are built from are its tokens. -/
theorem legible_iff_of_parse {source : String} {forms : List Value}
    (h : parse source = .ok forms) (D : Double → Prop) :
    (∀ v ∈ forms, v.Legible D) ↔
      ∀ t, .ok t ∈ items source → ∀ v, t.val.atom? = some v → v.Legible D := by
  obtain ⟨ts, trees, htokenize, htokens, rfl⟩ := parse_eq_ok_iff.1 h
  rw [Tree.legibleAll_iff, htokens, List.forall_mem_map, tokenize_eq_ok_iff.1 htokenize]
  simp only [List.mem_map, Except.ok.injEq, exists_eq_right]

theorem legible_of_mem_items {source : String} {t : Located Token} (ht : .ok t ∈ items source)
    {v : Value} (hv : t.val.atom? = some v) : v.Legible (· ≠ .nan) := by
  have htiling := items_eq_iff.1 (rfl : items source = _)
  obtain ⟨_, text, _, -, -, -, hlex, -⟩ := htiling.spansIn [] rfl (.ok t) ht
  exact Lexeme.legible hlex hv

/-- The forms of a source hold no NaN, and no value without a literal. -/
theorem legible_of_parse {source : String} {forms : List Value}
    (h : parse source = .ok forms) : ∀ v ∈ forms, v.Legible (· ≠ .nan) :=
  (legible_iff_of_parse h _).2 fun _ ht _ => legible_of_mem_items ht

end Reader

/-! ## Equality -/

namespace Double

theorem ne_nan_of_equal {x y : Double} (h : x.equal y = true) : y ≠ .nan := by
  rintro rfl
  cases x <;> cases h

end Double

namespace Value

theorem Legible.of_occursIn {D : Double → Prop} {u v : Value} (hu : u.OccursIn v)
    (h : v.Legible D) : u.Legible D := by
  induction hu with
  | self => exact h
  | element hv _ ih => exact ih (legible_list.1 h _ hv)

theorem Legible.equal_self {v : Value} (h : v.Legible (· ≠ .nan)) : v.equal v = true := by
  rw [equal_self_iff]
  intro u hu
  have hlegible := h.of_occursIn hu
  constructor
  · rintro rfl
    exact hlegible rfl
  · rintro b rfl
    exact hlegible

theorem equalAll_self (vs : List Value) (h : ∀ v ∈ vs, v.Legible (· ≠ .nan)) :
    equalAll vs vs = true := by
  have hself := (legible_list.2 h).equal_self
  rwa [equal] at hself

mutual

/-- A value that equals something legible is legible. -/
theorem legible_of_equal (f v : Value) (hf : f.Legible (· ≠ .nan)) (h : f.equal v = true) :
    v.Legible (· ≠ .nan) := by
  -- What is legible equals nothing of another kind, but that an integer may equal a double.
  cases f with
  | nil | builtin | closure => exact hf.elim
  | int n =>
    cases v with
    | int => trivial
    | double x => exact Double.ne_nan_of_equal h
    | _ => cases h
  | double x =>
    cases v with
    | int => trivial
    | double y => exact Double.ne_nan_of_equal h
    | _ => cases h
  | bool b =>
    cases v with
    | bool => trivial
    | _ => cases h
  | str s =>
    cases v with
    | str => trivial
    | _ => cases h
  | sym s =>
    cases v with
    | sym t =>
      obtain rfl : s = t := beq_iff_eq.1 h
      exact hf
    | _ => cases h
  | list vs =>
    cases v with
    | list ws =>
      rw [legible_list] at hf ⊢
      exact legible_of_equalAll vs ws hf h
    | _ => cases h

theorem legible_of_equalAll (fs vs : List Value) (hf : ∀ f ∈ fs, f.Legible (· ≠ .nan))
    (h : equalAll fs vs = true) : ∀ v ∈ vs, v.Legible (· ≠ .nan) := by
  cases fs with
  | nil =>
    cases vs with
    | nil => exact hf
    | cons v vs => simp [equalAll] at h
  | cons f fs =>
    cases vs with
    | nil => simp [equalAll] at h
    | cons v vs =>
      rw [equalAll, Bool.and_eq_true] at h
      rw [List.forall_mem_cons] at hf ⊢
      exact ⟨legible_of_equal f v hf.1 h.1, legible_of_equalAll fs vs hf.2 h.2⟩

end

/-! ## Infinities -/

mutual

/-- The value with symbols in the place of infinities. -/
def spell : Value → Value
  | double x => if x.isFinite then double x else sym (String.ofList x.chars)
  | list vs => list (spellAll vs)
  | v => v

def spellAll : List Value → List Value
  | [] => []
  | v :: vs => spell v :: spellAll vs

end

mutual

theorem chars_spell (v : Value) : v.spell.chars = v.chars := by
  cases v with
  | double x =>
    rw [spell]
    cases x with
    | finite => rfl
    | _ => simp [Double.isFinite, Double.literal]
  | list vs => rw [spell, chars_list, chars_list, charsAll_spellAll vs]
  | _ => simp only [spell]

theorem charsAll_spellAll (vs : List Value) : charsAll (spellAll vs) = charsAll vs := by
  match vs with
  | [] => rw [spellAll]
  | [v] => rw [spellAll, spellAll, charsAll_singleton, charsAll_singleton, chars_spell v]
  | v :: w :: vs =>
    have ih := charsAll_spellAll (w :: vs)
    rw [spellAll] at ih
    rw [spellAll, spellAll, charsAll_cons_cons, charsAll_cons_cons, chars_spell v, ih]

end

theorem renderAll_spellAll (vs : List Value) : renderAll (spellAll vs) = renderAll vs := by
  rw [renderAll, renderAll, charsAll_spellAll]

theorem isName_chars {x : Double} (h : x ≠ .nan) (hx : x.isFinite = false) : IsName x.chars := by
  cases x with
  | nan => exact (h rfl).elim
  | infinite n => cases n <;> decide
  | finite => cases hx

mutual

theorem readable_spell (v : Value) (h : v.Legible (· ≠ .nan)) : v.spell.Readable := by
  cases v with
  | double x =>
    rw [Legible] at h
    rw [spell, Readable]
    split
    case isTrue hx => rw [Legible]; exact hx
    case isFalse hx =>
      rw [Legible, String.toList_ofList]
      exact isName_chars h (by simpa using hx)
  | list vs =>
    rw [legible_list] at h
    rw [spell, Readable, legible_list]
    exact readable_spellAll vs h
  | sym s =>
    rw [Legible] at h
    simp only [spell, Readable]
    rw [Legible]
    exact h
  | nil | builtin | closure => simp [Legible] at h
  | _ =>
    simp only [spell, Readable]
    trivial

theorem readable_spellAll (vs : List Value) (h : ∀ v ∈ vs, v.Legible (· ≠ .nan)) :
    ∀ v ∈ spellAll vs, v.Readable := by
  cases vs with
  | nil =>
    rw [spellAll]
    exact List.forall_mem_nil _
  | cons v vs =>
    rw [List.forall_mem_cons] at h
    rw [spellAll, List.forall_mem_cons]
    exact ⟨readable_spell v h.1, readable_spellAll vs h.2⟩

end

mutual

/-- A symbol equals no number, so a value that equals its spelling has no infinities. -/
theorem readable_of_equal_spell (v : Value) (h : v.Legible (· ≠ .nan))
    (he : v.spell.equal v = true) : v.Readable := by
  cases v with
  | double x =>
    rw [spell] at he
    split at he
    case isTrue hx => rw [Readable, Legible]; exact hx
    case isFalse => simp [equal] at he
  | list vs =>
    rw [legible_list] at h
    rw [spell, equal] at he
    rw [Readable, legible_list]
    exact readable_of_equalAll_spellAll vs h he
  | sym s => rw [Readable, Legible]; rwa [Legible] at h
  | nil | builtin | closure => simp [Legible] at h
  | _ => trivial

theorem readable_of_equalAll_spellAll (vs : List Value) (h : ∀ v ∈ vs, v.Legible (· ≠ .nan))
    (he : equalAll (spellAll vs) vs = true) : ∀ v ∈ vs, v.Readable := by
  cases vs with
  | nil => exact List.forall_mem_nil _
  | cons v vs =>
    rw [List.forall_mem_cons] at h ⊢
    rw [spellAll, equalAll, Bool.and_eq_true] at he
    exact ⟨readable_of_equal_spell v h.1 he.1, readable_of_equalAll_spellAll vs h.2 he.2⟩

end

end Value

/-! ## The round trip -/

namespace Reader

open Value in
theorem readable_of_parse {forms vs : List Value} (h : parse (renderAll vs) = .ok forms)
    (he : equalAll forms vs = true) : ∀ v ∈ vs, v.Readable := by
  have hlegible := legible_of_equalAll forms vs (legible_of_parse h) he
  have hspell := parse_renderAll_of_readable (readable_spellAll vs hlegible)
  rw [renderAll_spellAll, h] at hspell
  obtain rfl : forms = spellAll vs := Except.ok.inj hspell
  exact readable_of_equalAll_spellAll vs hlegible he

/-- Exactly the readable values read back from their written form as values that equal them. What
is read back is then the same values, a double as a double and never as an integer. -/
theorem parse_renderAll_iff (vs : List Value) :
    ((∃ forms, parse (Value.renderAll vs) = .ok forms ∧
        List.Forall₂ (fun f v => f.equal v = true) forms vs) ↔ ∀ v ∈ vs, v.Readable) ∧
    (parse (Value.renderAll vs) = .ok vs ↔ ∀ v ∈ vs, v.Readable) := by
  have hself : parse (Value.renderAll vs) = .ok vs → Value.equalAll vs vs = true :=
    fun h => Value.equalAll_self vs (legible_of_parse h)
  refine ⟨⟨?_, fun h => ?_⟩, fun h => readable_of_parse h (hself h), parse_renderAll_of_readable⟩
  · rintro ⟨forms, h, he⟩
    exact readable_of_parse h (Value.equalAll_eq_true_iff.2 he)
  · have hparse := parse_renderAll_of_readable h
    exact ⟨vs, hparse, Value.equalAll_eq_true_iff.1 (hself hparse)⟩

end Reader

end SmallLisp
