import SmallLisp.Reader.Item

/-!
# Lexemes

`Lexeme text content`: the characters `text`, taken together, read as `content`, a token or a
fault. `Follows content rest` says that the run ends there, because `rest` has no character that
would prolong it.
-/

namespace SmallLisp.Reader

/-- The characters stand for a text inside a string literal. -/
inductive Spells : List Char → List Char → Prop where
  | nil : Spells [] []
  | plain {c : Char} {cs text : List Char} : c ≠ '"' → c ≠ '\\' → Spells cs text →
      Spells (c :: cs) (c :: text)
  | escape {letter c : Char} {cs text : List Char} : Text.escaped? letter = some c →
      Spells cs text → Spells ('\\' :: letter :: cs) (c :: text)

/-- How a string literal ends whose characters so far stand for `text`. The last two ends are
those of the source. -/
inductive StringEnd (text : List Char) : List Char → Except Fault Token → Prop where
  | closed : StringEnd text ['"'] (.ok (.str (String.ofList text)))
  | invalidEscape {c : Char} : Text.escaped? c = none →
      StringEnd text ['\\', c] (.error (.invalidEscape c))
  | unterminated : StringEnd text [] (.error .unterminatedString)
  | unterminatedEscape : StringEnd text ['\\'] (.error .unterminatedString)

/-- An optional sign. -/
def IsSign (cs : List Char) : Prop := cs = [] ∨ cs = ['+'] ∨ cs = ['-']

/-- One digit or more. -/
def IsDigits (cs : List Char) : Prop := cs ≠ [] ∧ ∀ c ∈ cs, c.isDigit = true

/-- What the characters, taken together, read as. -/
inductive Lexeme : List Char → Except Fault Token → Prop where
  | opening : Lexeme ['('] (.ok .opening)
  | closing : Lexeme [')'] (.ok .closing)
  | quote : Lexeme ['\''] (.ok .quote)
  | string {body text tail : List Char} {content : Except Fault Token} : Spells body text →
      StringEnd text tail content → Lexeme ('"' :: (body ++ tail)) content
  | int {sign digits : List Char} {n : Int64} : IsSign sign → IsDigits digits →
      Integer.ofDigits? (sign = ['-']) digits = some n → Lexeme (sign ++ digits) (.ok (.int n))
  | invalidNumber {sign digits : List Char} : IsSign sign → IsDigits digits →
      Integer.ofDigits? (sign = ['-']) digits = none →
      Lexeme (sign ++ digits) (.error (.invalidNumber (String.ofList (sign ++ digits))))
  | double {sign whole fraction : List Char} : IsSign sign → IsDigits whole →
      (∀ c ∈ fraction, c.isDigit = true) → Lexeme (sign ++ whole ++ '.' :: fraction)
        (.ok (.double (.ofDecimal (sign = ['-']) (.ofDigits whole fraction))))
  | truth : Lexeme "true".toList (.ok (.bool true))
  | falsehood : Lexeme "false".toList (.ok (.bool false))
  | symbol {c : Char} {cs : List Char} : (∀ d ∈ c :: cs, isSymbolChar d = true) →
      startsNumber c cs = false → c :: cs ≠ "true".toList → c :: cs ≠ "false".toList →
      Lexeme (c :: cs) (.ok (.sym (String.ofList (c :: cs))))
  | unexpected {c : Char} : c ∉ ['(', ')', '\'', '"', ';'] → isSymbolChar c = false →
      Text.isBlank c = false → Lexeme [c] (.error (.unexpectedCharacter c))

/-- The character is no trivia. -/
def StartsItem (c : Char) : Prop := c ≠ ';' ∧ Text.isBlank c = false

instance (c : Char) : Decidable (StartsItem c) := inferInstanceAs (Decidable (_ ∧ _))

/-- The text does not start with a character that satisfies `p`. -/
def Stops (p : Char → Bool) (cs : List Char) : Prop := ∀ c, cs.head? = some c → p c = false

/-- What follows does not prolong a lexeme with this content. -/
def Follows : Except Fault Token → List Char → Prop
  | .ok (.int _), rest | .error (.invalidNumber _), rest =>
    Stops Char.isDigit rest ∧ rest.head? ≠ some '.'
  | .ok (.double _), rest => Stops Char.isDigit rest
  | .ok (.bool _), rest | .ok (.sym _), rest => Stops isSymbolChar rest
  | .error .unterminatedString, rest => rest = []
  | _, _ => True

/-! ## Classes of characters -/

/-- No code point is in both lists of ranges. -/
def disjointRanges (rs ss : List (Nat × Nat)) : Bool :=
  rs.all fun r => ss.all fun s => r.2 < s.1 || s.2 < r.1

theorem inRanges_eq_false {rs : List (Nat × Nat)} (ss : List (Nat × Nat))
    (h : disjointRanges rs ss = true) {c : Char} (hc : Text.inRanges rs c = true) :
    Text.inRanges ss c = false := by
  obtain ⟨r, hr, hr1, hr2⟩ := Text.inRanges_iff.1 hc
  rw [Bool.eq_false_iff, ne_eq, Text.inRanges_iff]
  rintro ⟨s, hs, hs1, hs2⟩
  have := List.all_eq_true.1 (List.all_eq_true.1 h r hr) s hs
  simp only [Bool.or_eq_true, decide_eq_true_eq] at this
  omega

theorem isAlphanum_of_isBlank {c : Char} (h : Text.isBlank c = true) (hc : c.toNat < 128) :
    c.isAlphanum = false := by
  obtain ⟨r, hr, h1, h2⟩ := Text.inRanges_iff.1 h
  have hlt : c.toNat < 33 := by
    simp only [Text.blankRanges, List.mem_cons, List.not_mem_nil, or_false] at hr
    rcases hr with rfl | rfl | rfl | rfl | rfl | rfl | rfl | rfl | rfl | rfl <;> omega
  have hall : ∀ n < 33, (Char.ofNat n).isAlphanum = false := by decide
  rw [← Char.ofNat_toNat c]
  exact hall c.toNat hlt

theorem isAlphanumeric_of_isBlank {c : Char} (h : Text.isBlank c = true) :
    Text.isAlphanumeric c = false := by
  by_cases hc : c.toNat < 128
  · rw [Text.isAlphanumeric_of_lt hc, isAlphanum_of_isBlank h hc]
  · have ha := inRanges_eq_false Text.alphabeticRanges (by decide +kernel) h
    have hn := inRanges_eq_false Text.numeralRanges (by decide +kernel) h
    simp [Text.isAlphanumeric, Text.isAlphabetic, Text.isNumeral, hc, ha, hn]

/-- No blank is part of a symbol. -/
theorem isSymbolChar_of_isBlank {c : Char} (h : Text.isBlank c = true) :
    isSymbolChar c = false := by
  rw [isSymbolChar, isAlphanumeric_of_isBlank h, Bool.false_or, Bool.eq_false_iff, ne_eq,
    List.contains_iff_mem]
  intro hc
  have hall : ("!@$%^&*-_+=|~:<>.?\\/,".toList.all fun d => !Text.isBlank d) = true := by decide
  have := List.all_eq_true.1 hall c hc
  rw [h] at this
  cases this

theorem isSymbolChar_of_isDigit {c : Char} (h : c.isDigit = true) : isSymbolChar c = true := by
  have hc : c.toNat < 128 := by
    simp only [Char.isDigit, Bool.and_eq_true, decide_eq_true_eq] at h
    exact Nat.lt_of_le_of_lt (UInt32.le_iff_toNat_le.1 h.2) (by decide)
  simp [isSymbolChar, Text.isAlphanumeric_of_lt hc, Char.isAlphanum, h]

end SmallLisp.Reader
