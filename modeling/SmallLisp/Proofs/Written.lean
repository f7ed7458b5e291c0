import SmallLisp.Proofs.Grammar
import SmallLisp.Proofs.Numeral
import SmallLisp.Value.Render

/-!
# Written forms of readable values

`Readable` values are those that source text can hold. Their written form has the tokens of a
derivation of them, whatever stands around it (`Scans`), so that it reads as these very values
(`parse_renderAll_of_readable`).
-/

namespace SmallLisp

namespace Reader

/-- A text that reads as a symbol. -/
def IsName : List Char → Prop
  | [] => False
  | c :: cs => (c :: cs).all isSymbolChar = true ∧ startsNumber c cs = false ∧
    c :: cs ≠ "true".toList ∧ c :: cs ≠ "false".toList

instance : DecidablePred IsName
  | [] => inferInstanceAs (Decidable False)
  | c :: cs => inferInstanceAs (Decidable (_ ∧ _ ∧ c :: cs ≠ _ ∧ c :: cs ≠ _))

end Reader

open Reader

namespace Value

mutual

/-- The value is built from integers, booleans, strings, names and doubles that satisfy `D`. -/
def Legible (D : Double → Prop) : Value → Prop
  | int _ | bool _ | str _ => True
  | double x => D x
  | sym s => IsName s.toList
  | list vs => LegibleAll D vs
  | nil | builtin _ | closure .. => False

def LegibleAll (D : Double → Prop) : List Value → Prop
  | [] => True
  | v :: vs => Legible D v ∧ LegibleAll D vs

end

theorem legible_list {D : Double → Prop} {vs : List Value} :
    (list vs).Legible D ↔ ∀ v ∈ vs, v.Legible D := by
  rw [Legible]
  induction vs with
  | nil => simp [LegibleAll]
  | cons v vs ih => rw [LegibleAll, ih, List.forall_mem_cons]

/-- The value has a form in source text. -/
def Readable (v : Value) : Prop := v.Legible fun x => x.isFinite = true

end Value

/-! ## Tokens of a written form -/

namespace Reader

open Text (byteSize)

/-- The text has these tokens, wherever it starts. -/
def HasTokens (cs : List Char) (ks : List Token) : Prop :=
  ∀ offset, ∃ ts : List (Located Token), ts.map Located.val = ks ∧
    Tiling offset cs (ts.map .ok)

/-- What follows a value in a written form. -/
def Delimited (rest : List Char) : Prop := ∀ c, rest.head? = some c → c = ' ' ∨ c = ')'

theorem Delimited.stops {rest : List Char} (h : Delimited rest) {p : Char → Bool}
    (hblank : p ' ' = false) (hclose : p ')' = false) : Stops p rest := by
  intro c hc
  rcases h c hc with rfl | rfl
  · exact hblank
  · exact hclose

theorem Delimited.follows {rest : List Char} (h : Delimited rest) (k : Token) :
    Follows (.ok k) rest := by
  cases k with
  | int n =>
    refine ⟨h.stops rfl rfl, fun hdot => ?_⟩
    rcases h _ hdot with e | e <;> cases e
  | double x => exact h.stops rfl rfl
  | bool b => exact h.stops (by decide) (by decide)
  | sym s => exact h.stops (by decide) (by decide)
  | _ => trivial

theorem Tiling.cons_blank {offset next : Nat} {c : Char} {cs : List Char} {items : List Item}
    (hc : Text.isBlank c = true) (hnext : next = offset + c.utf8Size)
    (h : Tiling next cs items) : Tiling offset (c :: cs) items := by
  cases h with
  | done ht => exact .done (.blank hc ht)
  | @item _ gap text rest content items ht hlex hf hrest =>
    have hstart : next + byteSize gap = offset + byteSize (c :: gap) := by
      rw [Text.byteSize_cons]
      omega
    rw [hstart] at hrest ⊢
    exact .item (.blank hc ht) hlex hf hrest

theorem HasTokens.nil : HasTokens [] [] := fun _ => ⟨[], rfl, .done .nil⟩

theorem HasTokens.blank {cs : List Char} {ks : List Token} (h : HasTokens cs ks) :
    HasTokens (' ' :: cs) ks := by
  intro offset
  obtain ⟨ts, hts, ht⟩ := h (offset + ' '.utf8Size)
  exact ⟨ts, hts, ht.cons_blank (by decide) rfl⟩

theorem HasTokens.lexeme {text rest : List Char} {k : Token} {ks : List Token}
    (hlex : Lexeme text (.ok k)) (hf : Follows (.ok k) rest) (h : HasTokens rest ks) :
    HasTokens (text ++ rest) (k :: ks) := by
  intro offset
  obtain ⟨ts, rfl, ht⟩ := h (offset + byteSize text)
  exact ⟨⟨k, offset, offset + byteSize text⟩ :: ts, rfl, .item .nil hlex hf ht⟩

/-- The text has these tokens, and then those of whatever delimits it. -/
def Scans (cs : List Char) (ks : List Token) : Prop :=
  ∀ rest ls, Delimited rest → HasTokens rest ls → HasTokens (cs ++ rest) (ks ++ ls)

theorem Scans.hasTokens {cs : List Char} {ks : List Token} (h : Scans cs ks) : HasTokens cs ks := by
  have := h [] [] (fun c hc => by cases hc) .nil
  rwa [List.append_nil, List.append_nil] at this

theorem Scans.nil : Scans [] [] := fun _ _ _ h => h

theorem Scans.lexeme {text : List Char} {k : Token} (h : Lexeme text (.ok k)) : Scans text [k] :=
  fun _ _ hd hrest => .lexeme h (hd.follows k) hrest

theorem Scans.spaced {cs ds : List Char} {ks ls : List Token} (h : Scans cs ks) (h' : Scans ds ls) :
    Scans (cs ++ ' ' :: ds) (ks ++ ls) := by
  intro rest ms hd hrest
  rw [List.append_assoc, List.append_assoc]
  refine h _ _ (fun c hc => ?_) (h' rest ms hd hrest).blank
  cases hc
  exact .inl rfl

theorem Scans.parenthesized {cs : List Char} {ks : List Token} (h : Scans cs ks) :
    Scans ('(' :: (cs ++ [')'])) (.opening :: (ks ++ [.closing])) := by
  intro rest ls _ hrest
  have hclose : HasTokens (')' :: rest) (.closing :: ls) := .lexeme .closing trivial hrest
  have hinner := h _ _ (fun c hc => by cases hc; exact .inr rfl) hclose
  have := HasTokens.lexeme .opening trivial hinner
  simpa using this

/-! ## Readable values -/

theorem spells_literal (s : List Char) : Spells (s.flatMap Text.literalChar) s := by
  induction s with
  | nil => exact .nil
  | cons c s ih =>
    rw [List.flatMap_cons]
    unfold Text.literalChar
    split
    case h_1 letter h => exact .escape (Text.escaped?_of_escapeLetter? h) ih
    case h_2 h =>
      refine .plain ?_ ?_ ih
      · rintro rfl
        cases h
      · rintro rfl
        cases h

theorem lexeme_string (s : String) : Lexeme (Text.literal s.toList) (.ok (.str s)) := by
  have := Lexeme.string (spells_literal s.toList) .closed
  rwa [String.ofList_toList] at this

theorem lexeme_name {s : String} (h : IsName s.toList) : Lexeme s.toList (.ok (.sym s)) := by
  cases hs : s.toList with
  | nil =>
    rw [hs] at h
    exact h.elim
  | cons c cs =>
    rw [hs] at h
    have hname : String.ofList (c :: cs) = s := by rw [← hs, String.ofList_toList]
    have hlex := Lexeme.symbol (List.all_eq_true.1 h.1) h.2.1 h.2.2.1 h.2.2.2
    rwa [hname] at hlex

/-- A token that is a value by itself, with its written form. -/
theorem exists_tree_of_lexeme {cs : List Char} {k : Token} {v : Value} (h : Lexeme cs (.ok k))
    (hv : k.atom? = some v) : ∃ tree : Tree, tree.value = v ∧ Scans cs tree.tokens :=
  ⟨.atom k v hv, by rw [Tree.value], by rw [Tree.tokens]; exact .lexeme h⟩

mutual

theorem exists_tree_of_readable (v : Value) (h : v.Readable) :
    ∃ tree : Tree, tree.value = v ∧ Scans v.chars tree.tokens := by
  cases v with
  | int n =>
    rw [Value.chars_int]
    exact exists_tree_of_lexeme (lexeme_int n) rfl
  | double x =>
    cases x with
    | finite negative m =>
      rw [Value.chars_double]
      exact exists_tree_of_lexeme (lexeme_double negative m) rfl
    | _ => simp [Value.Readable, Value.Legible, Double.isFinite] at h
  | bool b =>
    cases b with
    | true => exact exists_tree_of_lexeme (by rw [Value.chars_true]; exact .truth) rfl
    | false => exact exists_tree_of_lexeme (by rw [Value.chars_false]; exact .falsehood) rfl
  | str s =>
    rw [Value.chars_str]
    exact exists_tree_of_lexeme (lexeme_string s) rfl
  | sym s =>
    rw [Value.Readable, Value.Legible] at h
    rw [Value.chars_sym]
    exact exists_tree_of_lexeme (lexeme_name h) rfl
  | list vs =>
    rw [Value.Readable, Value.legible_list] at h
    obtain ⟨trees, rfl, hscans⟩ := exists_trees_of_readable vs h
    refine ⟨.list trees, by rw [Tree.value], ?_⟩
    rw [Value.chars_list, Tree.tokens]
    exact hscans.parenthesized
  | nil | builtin | closure => simp [Value.Readable, Value.Legible] at h

theorem exists_trees_of_readable (vs : List Value) (h : ∀ v ∈ vs, v.Readable) :
    ∃ trees : List Tree, Tree.valueAll trees = vs ∧
      Scans (Value.charsAll vs) (Tree.tokensAll trees) := by
  match vs with
  | [] =>
    refine ⟨[], by rw [Tree.valueAll], ?_⟩
    rw [Value.charsAll_nil, Tree.tokensAll]
    exact .nil
  | [v] =>
    obtain ⟨tree, rfl, hscans⟩ := exists_tree_of_readable v (h v List.mem_cons_self)
    refine ⟨[tree], by rw [Tree.valueAll, Tree.valueAll], ?_⟩
    rw [Value.charsAll_singleton, Tree.tokensAll, Tree.tokensAll, List.append_nil]
    exact hscans
  | v :: w :: vs =>
    obtain ⟨hv, hvs⟩ := List.forall_mem_cons.1 h
    obtain ⟨tree, rfl, hscans⟩ := exists_tree_of_readable v hv
    obtain ⟨trees, htrees, hscans'⟩ := exists_trees_of_readable (w :: vs) hvs
    refine ⟨tree :: trees, by rw [Tree.valueAll, htrees], ?_⟩
    rw [Value.charsAll_cons_cons, Tree.tokensAll]
    exact hscans.spaced hscans'

end

theorem parse_renderAll_of_readable {vs : List Value} (h : ∀ v ∈ vs, v.Readable) :
    parse (Value.renderAll vs) = .ok vs := by
  obtain ⟨trees, hvalue, hscans⟩ := exists_trees_of_readable vs h
  obtain ⟨ts, hts, ht⟩ := hscans.hasTokens 0
  have hitems : items (Value.renderAll vs) = ts.map .ok := by
    rw [items_eq_iff, Value.renderAll, String.toList_ofList]
    exact ht
  exact parse_eq_ok_iff.2 ⟨ts, trees, tokenize_eq_ok_iff.2 hitems, hts.symm, hvalue⟩

end Reader

end SmallLisp
