import SmallLisp.Proofs.RoundTrip
import SmallLisp.Proofs.TokenClass

/-!
# Reading what was written of what was read

The forms of a source are written as a text that reads again. It reads as the same forms, but that a
number literal too large for a double has been read as an infinity, whose written form is a symbol
(`reread_forms`). Writing what was read again gives the same text in any case.
-/

namespace SmallLisp.Reader

open Value

/-! ## Which forms are readable -/

/-- A token stands for something readable, unless it is a literal that is too large. -/
theorem readable_atom_iff {source : String} {t : Located Token} (ht : .ok t ∈ items source) :
    (∀ v, t.val.atom? = some v → v.Readable) ↔
      ∀ negative, t.val ≠ .double (.infinite negative) := by
  have hlegible := fun v => legible_of_mem_items ht (v := v)
  generalize t.val = k at hlegible ⊢
  cases k with
  | double x =>
    have hnan := hlegible _ rfl
    rw [Legible] at hnan
    cases x <;> simp_all [Token.atom?, Readable, Legible, Double.isFinite]
  | sym s =>
    have hname := hlegible _ rfl
    rw [Legible] at hname
    simpa [Token.atom?, Readable, Legible] using hname
  | _ => simp [Token.atom?, Readable, Legible]

/-- The forms of a source are readable, unless one of its literals is too large. -/
theorem readable_iff_of_parse {source : String} {forms : List Value}
    (h : parse source = .ok forms) :
    (∀ v ∈ forms, v.Readable) ↔
      ∀ t, .ok t ∈ items source → ∀ negative, t.val ≠ .double (.infinite negative) :=
  (legible_iff_of_parse h _).trans (forall₂_congr fun _ => readable_atom_iff)

/-- Only infinities are spelt as something else. -/
theorem spellAll_eq_self_iff {vs : List Value} (h : ∀ v ∈ vs, v.Legible (· ≠ .nan)) :
    spellAll vs = vs ↔ ∀ v ∈ vs, v.Readable := by
  have hspell := readable_spellAll vs h
  refine ⟨fun heq => heq ▸ hspell, fun hreadable => ?_⟩
  have hread := parse_renderAll_of_readable hspell
  rw [renderAll_spellAll, parse_renderAll_of_readable hreadable] at hread
  exact (Except.ok.inj hread).symm

/-- The forms of a source are written as a text that reads again, and what is read then is written
as the same text. It is the same forms, exactly if no literal of the source is too large for a
double: in the place of one that is there is then the symbol that an infinity is written as. -/
theorem reread_forms {source : String} {forms : List Value} (h : parse source = .ok forms) :
    parse (renderAll forms) = .ok (spellAll forms) ∧
    renderAll (spellAll forms) = renderAll forms ∧
    (spellAll forms = forms ↔
      ∀ t, .ok t ∈ items source → ∀ negative, t.val ≠ .double (.infinite negative)) := by
  have hlegible := legible_of_parse h
  refine ⟨?_, renderAll_spellAll forms, ?_⟩
  · rw [← renderAll_spellAll]
    exact parse_renderAll_of_readable (readable_spellAll forms hlegible)
  · rw [spellAll_eq_self_iff hlegible, readable_iff_of_parse h]

theorem reread_forms_quote :
    parse "'(x \"\\\"\" -7) ; end" = .ok [quoted (.list [.sym "x", .str "\"", .int (-7)])] ∧
    parse "(quote (x \"\\\"\" -7))" = .ok [quoted (.list [.sym "x", .str "\"", .int (-7)])] := by
  have h : parse "'(x \"\\\"\" -7) ; end" =
      .ok [quoted (.list [.sym "x", .str "\"", .int (-7)])] := by with_unfolding_all rfl
  have hrender : renderAll [quoted (.list [.sym "x", .str "\"", .int (-7)])] =
      "(quote (x \"\\\"\" -7))" := by decide +kernel
  refine ⟨h, ?_⟩
  rw [← hrender]
  exact (reread_forms h).1

/-! ## A literal that is too large -/

theorem parse_of_lexeme {text : List Char} {k : Token} {v : Value} (h : Lexeme text (.ok k))
    (hv : k.atom? = some v) : parse (String.ofList text) = .ok [v] :=
  parse_eq_ok_iff.2 ⟨[⟨k, 0, _⟩], [.atom k v hv], tokenize_eq_ok_iff.2 h.items_alone, rfl, rfl⟩

/-- The digits of `10 ^ n`. -/
def powerDigits (n : Nat) : List Char := '1' :: List.replicate n '0'

theorem isDigits_powerDigits (n : Nat) : IsDigits (powerDigits n) := by
  refine ⟨List.cons_ne_nil _ _, List.forall_mem_cons.2 ⟨rfl, fun c hc => ?_⟩⟩
  rw [List.eq_of_mem_replicate hc]
  rfl

theorem ofDigitChars_replicate (n value : Nat) :
    Nat.ofDigitChars 10 (List.replicate n '0') value = value * Nat.pow 10 n := by
  induction n generalizing value with
  | zero => simp [Nat.ofDigitChars]
  | succ n ih =>
    have hzero : '0'.toNat - '0'.toNat = 0 := rfl
    rw [List.replicate_succ, Nat.ofDigitChars_cons, ih, hzero, Nat.add_zero, Nat.mul_comm 10,
      Nat.mul_assoc, Nat.mul_comm 10]
    rfl

theorem ofDigits_powerDigits (n : Nat) :
    Decimal.ofDigits (powerDigits n) [] = ⟨Nat.pow 10 n, 0⟩ := by
  rw [Decimal.ofDigits, List.append_nil, powerDigits, Nat.ofDigitChars_cons, ofDigitChars_replicate]
  exact congrArg (Decimal.mk · 0) (Nat.one_mul _)

theorem lexeme_power {n : Nat} {x : Double} (h : Double.ofDecimal false ⟨Nat.pow 10 n, 0⟩ = x) :
    Lexeme (powerDigits n ++ ['.']) (.ok (.double x)) := by
  rw [← h, ← ofDigits_powerDigits]
  exact @Lexeme.double [] (powerDigits n) [] (.inl rfl) (isDigits_powerDigits n)
    (List.forall_mem_nil _)

/-- The number `10 ^ 309` reads as an infinity, which reads again as a symbol. -/
theorem reread_huge :
    parse (String.ofList (powerDigits 309 ++ ['.'])) = .ok [.double (.infinite false)] ∧
    parse (renderAll [.double (.infinite false)]) = .ok [.sym "inf"] ∧
    parse (renderAll [.double (.infinite false)]) ≠ .ok [.double (.infinite false)] := by
  have hlexeme : Lexeme (powerDigits 309 ++ ['.']) (.ok (.double (.infinite false))) :=
    lexeme_power (by decide +kernel)
  have hname : Lexeme "inf".toList (.ok (.sym "inf")) := lexeme_name (by decide)
  have hread : parse (renderAll [.double (.infinite false)]) = .ok [.sym "inf"] :=
    parse_of_lexeme hname rfl
  refine ⟨parse_of_lexeme hlexeme rfl, hread, ?_⟩
  rw [hread]
  rintro ⟨⟩

end SmallLisp.Reader
