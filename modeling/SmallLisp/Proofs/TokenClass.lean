import SmallLisp.Proofs.Written

/-!
# Classes of tokens

The text of a token, by itself, says which token it is: each kind of tokens has a class of texts
(`Token.Class`), and a text reads as a token exactly if it is of the token's class
(`lexeme_ok_iff`). What stands around the text matters only in that it does not prolong it
(`token_class`).
-/

namespace SmallLisp.Reader

open Text (byteSize)

/-! ## Classes -/

/-- An optional sign and one digit or more, with the number that they denote. -/
def IsWhole (cs : List Char) (z : Int) : Prop :=
  ∃ sign digits, IsSign sign ∧ IsDigits digits ∧ cs = sign ++ digits ∧
    z = if sign = ['-'] then -(Nat.ofDigitChars 10 digits 0 : Int)
      else Nat.ofDigitChars 10 digits 0

/-- An optional sign, one digit or more, a point and perhaps more digits, with the nearest
double. -/
def IsPointed (cs : List Char) (x : Double) : Prop :=
  ∃ sign whole fraction, IsSign sign ∧ IsDigits whole ∧ (∀ c ∈ fraction, c.isDigit = true) ∧
    cs = sign ++ whole ++ '.' :: fraction ∧
    x = .ofDecimal (sign = ['-']) (.ofDigits whole fraction)

/-- Characters between double quotes, with the text that they spell. -/
def IsQuoted (cs text : List Char) : Prop := ∃ body, cs = '"' :: (body ++ ['"']) ∧ Spells body text

/-- The text is one of those that are written for the token. -/
def Token.Class (cs : List Char) : Token → Prop
  | opening => cs = ['(']
  | closing => cs = [')']
  | quote => cs = ['\'']
  | int n => IsWhole cs n.toInt
  | double x => IsPointed cs x
  | bool b => cs = (if b then "true" else "false").toList
  | str s => IsQuoted cs s.toList
  | sym name => IsName cs ∧ name = String.ofList cs

/-! ## Lexemes of a class -/

theorem ofDigits?_eq_some_iff {sign digits : List Char} {n : Int64} :
    Integer.ofDigits? (sign = ['-']) digits = some n ↔
      n.toInt = if sign = ['-'] then -(Nat.ofDigitChars 10 digits 0 : Int)
        else Nat.ofDigitChars 10 digits 0 := by
  simp [Integer.ofDigits?, Integer.ofInt?_eq_some_iff]

theorem ofDigits?_eq_none_iff {sign digits : List Char} :
    Integer.ofDigits? (sign = ['-']) digits = none ↔
      ¬ Integer.InRange (if sign = ['-'] then -(Nat.ofDigitChars 10 digits 0 : Int)
        else Nat.ofDigitChars 10 digits 0) := by
  simp [Integer.ofDigits?, Integer.ofInt?_eq_none_iff]

theorem isName_cons {c : Char} {cs : List Char} :
    IsName (c :: cs) ↔ (∀ d ∈ c :: cs, isSymbolChar d = true) ∧ startsNumber c cs = false ∧
      c :: cs ≠ "true".toList ∧ c :: cs ≠ "false".toList := by
  rw [IsName, List.all_eq_true]

theorem class_of_lexeme {cs : List Char} {k : Token} (h : Lexeme cs (.ok k)) : k.Class cs := by
  cases h with
  | opening | closing | quote | truth | falsehood => rfl
  | string hs ht =>
    cases ht
    exact ⟨_, rfl, by rwa [String.toList_ofList]⟩
  | int hs hd hn => exact ⟨_, _, hs, hd, rfl, ofDigits?_eq_some_iff.1 hn⟩
  | double hs hd hf => exact ⟨_, _, _, hs, hd, hf, rfl, rfl⟩
  | symbol hall hn ht hf => exact ⟨isName_cons.2 ⟨hall, hn, ht, hf⟩, rfl⟩

theorem lexeme_of_class {cs : List Char} {k : Token} (h : k.Class cs) : Lexeme cs (.ok k) := by
  cases k with
  | opening =>
    obtain rfl : cs = ['('] := h
    exact .opening
  | closing =>
    obtain rfl : cs = [')'] := h
    exact .closing
  | quote =>
    obtain rfl : cs = ['\''] := h
    exact .quote
  | int n =>
    obtain ⟨sign, digits, hs, hd, rfl, hn⟩ := h
    exact .int hs hd (ofDigits?_eq_some_iff.2 hn)
  | double x =>
    obtain ⟨sign, whole, fraction, hs, hd, hf, hcs, hx⟩ := h
    rw [hcs, hx]
    exact .double hs hd hf
  | bool b =>
    obtain rfl : cs = (if b then "true" else "false").toList := h
    cases b with
    | true => exact .truth
    | false => exact .falsehood
  | str s =>
    obtain ⟨body, rfl, hs⟩ := h
    have hclosed : StringEnd s.toList ['"'] (.ok (.str (String.ofList s.toList))) := .closed
    rw [String.ofList_toList] at hclosed
    exact .string hs hclosed
  | sym name =>
    obtain ⟨hname, rfl⟩ := h
    cases cs with
    | nil => exact hname.elim
    | cons c cs =>
      obtain ⟨hall, hn, ht, hf⟩ := isName_cons.1 hname
      exact .symbol hall hn ht hf

theorem lexeme_ok_iff {cs : List Char} {k : Token} : Lexeme cs (.ok k) ↔ k.Class cs :=
  ⟨class_of_lexeme, lexeme_of_class⟩

theorem lexeme_invalidNumber_iff {cs : List Char} {literal : String} :
    Lexeme cs (.error (.invalidNumber literal)) ↔
      literal = String.ofList cs ∧ ∃ z, IsWhole cs z ∧ ¬ Integer.InRange z := by
  constructor
  · intro h
    cases h with
    | string hs ht => cases ht
    | invalidNumber hs hd hn =>
      exact ⟨rfl, _, ⟨_, _, hs, hd, rfl, rfl⟩, ofDigits?_eq_none_iff.1 hn⟩
  · rintro ⟨rfl, z, ⟨sign, digits, hs, hd, rfl, rfl⟩, hz⟩
    exact .invalidNumber hs hd (ofDigits?_eq_none_iff.2 hz)

/-! ## A text by itself -/

theorem follows_nil (content : Except Fault Token) : Follows content [] := by
  have hstops (p : Char → Bool) : Stops p [] := fun c hc => by cases hc
  rcases content with (_ | _ | _ | _) | (_ | _ | _ | _ | _ | _ | _ | _) <;>
    first
      | trivial
      | rfl
      | exact hstops _
      | exact ⟨hstops _, by simp⟩

/-- A text reads as one thing. -/
theorem Lexeme.unique {cs : List Char} {content content' : Except Fault Token}
    (h : Lexeme cs content) (h' : Lexeme cs content') : content = content' := by
  obtain ⟨c, ds, rfl, hscan, -⟩ := scan_of_lexeme h (follows_nil content)
  obtain ⟨d, es, hcons, hscan', -⟩ := scan_of_lexeme h' (follows_nil content')
  obtain ⟨rfl, rfl⟩ := List.cons.inj hcons
  exact congrArg Piece.content (hscan.symm.trans hscan')

theorem Lexeme.items_alone {cs : List Char} {content : Except Fault Token} (h : Lexeme cs content) :
    items (String.ofList cs) = [Piece.item ⟨content, byteSize cs, []⟩ 0] := by
  have htiling : Tiling 0 ([] ++ (cs ++ []))
      [Piece.item ⟨content, byteSize cs, []⟩ (0 + byteSize [])] :=
    .item .nil h (follows_nil content) (.done .nil)
  rw [items_eq_iff, String.toList_ofList]
  simpa using htiling

/-! ## Items -/

namespace Item

/-- The text of an item of the source. -/
def text (source : String) (i : Item) : List Char :=
  Text.takeBytes (i.stop - i.start) (Text.dropBytes i.start source.toList)

/-- The text after an item of the source. -/
def after (source : String) (i : Item) : List Char := Text.dropBytes i.stop source.toList

end Item

theorem Item.SpansIn.lexeme {source : String} {i : Item} (h : i.SpansIn source.toList) :
    Lexeme (i.text source) i.content ∧ Follows i.content (i.after source) := by
  obtain ⟨before, text, after, hsource, hstart, hstop, hlex, hf⟩ := h
  have hsize : i.stop - i.start = byteSize text := by
    rw [hstart, hstop, Text.byteSize_append]
    omega
  have htext : i.text source = text := by
    rw [Item.text, hsource, hsize, hstart, Text.dropBytes_append, Text.takeBytes_append]
  have hafter : i.after source = after := by
    rw [Item.after, hsource, hstop, ← List.append_assoc, Text.dropBytes_append]
  rw [htext, hafter]
  exact ⟨hlex, hf⟩

/-- A token of a source is the one of whose class its text is. It has the longest text: what comes
after would not prolong it. The text is that token also when nothing stands around it. A number
without a point is invalid exactly if no word holds it. -/
theorem token_class (source : String) :
    (∀ t, .ok t ∈ items source →
      (∀ k : Token, t.val = k ↔ k.Class (Item.text source (.ok t))) ∧
      Follows (.ok t.val) (Item.after source (.ok t)) ∧
      tokenize (String.ofList (Item.text source (.ok t))) =
        .ok [⟨t.val, 0, byteSize (Item.text source (.ok t))⟩]) ∧
    ∀ i ∈ items source, ∀ literal, i.content = .error (.invalidNumber literal) ↔
      literal = String.ofList (i.text source) ∧
        ∃ z, IsWhole (i.text source) z ∧ ¬ Integer.InRange z := by
  have hspans := (items_eq_iff.1 (rfl : items source = _)).spansIn [] rfl
  refine ⟨fun t ht => ?_, fun i hi literal => ?_⟩
  · obtain ⟨hlex, hf⟩ := Item.SpansIn.lexeme (hspans _ ht)
    change Lexeme _ (.ok t.val) at hlex
    refine ⟨fun k => ?_, hf, tokenize_eq_ok_iff.2 ?_⟩
    · rw [← lexeme_ok_iff]
      constructor
      · rintro rfl
        exact hlex
      · exact fun hk => Except.ok.inj (hlex.unique hk)
    · rw [hlex.items_alone]
      simp [Piece.item]
  · have hlex := (Item.SpansIn.lexeme (hspans _ hi)).1
    rw [← lexeme_invalidNumber_iff]
    constructor
    · intro h
      rwa [h] at hlex
    · exact fun h => hlex.unique h

example : tokenize "12abc" = .ok [⟨.int 12, 0, 2⟩, ⟨.sym "abc", 2, 5⟩] := by cbv

end SmallLisp.Reader
