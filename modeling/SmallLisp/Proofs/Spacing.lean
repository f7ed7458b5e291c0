import Mathlib.Data.List.Pairwise
import SmallLisp.Proofs.Relocation
import SmallLisp.Proofs.TokenClass

/-!
# Blanks and comments between tokens

A token is recognized by its own text, and no blank or semicolon would prolong it. So where the
source is not inside a token or a comment, blanks and whole comments can be inserted, and the tokens
stay as they are (`Tiling.inserted`). What is read depends on nothing else
(`spacing_irrelevant`).
-/

namespace SmallLisp.Reader

open Text (byteSize)

/-- Blanks and comments, each comment with the line feed that ends it. -/
inductive Spacing : List Char → Prop where
  | nil : Spacing []
  | blank {c : Char} {cs : List Char} : Text.isBlank c = true → Spacing cs → Spacing (c :: cs)
  | comment {body cs : List Char} : '\n' ∉ body → Spacing cs →
      Spacing (';' :: (body ++ '\n' :: cs))

/-- The second text is the first one, which starts at a byte offset, with spacing inserted at
offsets that satisfy `P`. -/
inductive Inserted (P : Nat → Prop) : Nat → List Char → List Char → Prop where
  | nil (offset : Nat) : Inserted P offset [] []
  | keep {offset : Nat} {c : Char} {cs ds : List Char} : Inserted P (offset + c.utf8Size) cs ds →
      Inserted P offset (c :: cs) (c :: ds)
  | insert {offset : Nat} {extra cs ds : List Char} : P offset → Spacing extra →
      Inserted P offset cs ds → Inserted P offset cs (extra ++ ds)

/-- The offset is inside a comment of the source: on the line of a semicolon that is part of no
token, after this semicolon and before another character. -/
def InComment (source : List Char) (tokens : List (Located Token)) (offset : Nat) : Prop :=
  ∃ before body c after, source = before ++ (';' :: (body ++ c :: after)) ∧ '\n' ∉ body ∧
    c ≠ '\n' ∧ (∀ t ∈ tokens, byteSize before < t.start ∨ t.stop ≤ byteSize before) ∧
    offset = byteSize (before ++ ';' :: body)

/-- The offset is inside no token, and inside no comment. -/
def Boundary (source : String) (tokens : List (Located Token)) (offset : Nat) : Prop :=
  (∀ t ∈ tokens, offset ≤ t.start ∨ t.stop ≤ offset) ∧ ¬ InComment source.toList tokens offset

/-! ## Spacing -/

theorem Spacing.append {cs ds : List Char} (h : Spacing cs) (h' : Spacing ds) :
    Spacing (cs ++ ds) := by
  induction h with
  | nil => exact h'
  | blank hc _ ih => exact .blank hc ih
  | comment hbody _ ih =>
    rw [List.cons_append, List.append_assoc, List.cons_append]
    exact .comment hbody ih

theorem stops_newline (cs : List Char) : Stops (· != '\n') ('\n' :: cs) := by
  rintro c ⟨⟩
  rfl

/-- Spacing before trivia is trivia. -/
theorem Spacing.trivia_append {extra gap rest : List Char} (h : Spacing extra)
    (hgap : Trivia rest gap) : Trivia rest (extra ++ gap) := by
  induction h with
  | nil => exact hgap
  | blank hc _ ih => exact .blank hc ih
  | comment hbody _ ih =>
    rw [List.cons_append, List.append_assoc, List.cons_append]
    exact .comment hbody (stops_newline _) (.blank (by decide) ih)

/-- Spacing at the end of a comment belongs to the comment up to its first line feed. -/
theorem Spacing.trivia_comment {body extra gap rest : List Char} (h : Spacing extra)
    (hbody : '\n' ∉ body) (hstop : Stops (· != '\n') (gap ++ rest)) (hgap : Trivia rest gap) :
    Trivia rest (';' :: (body ++ (extra ++ gap))) := by
  induction h generalizing body with
  | nil => exact .comment hbody hstop hgap
  | @blank c cs hc hcs ih =>
    by_cases hn : c = '\n'
    · subst hn
      exact .comment hbody (stops_newline _) (.blank hc (hcs.trivia_append hgap))
    · have hline : '\n' ∉ body ++ [c] := by simp [hbody, Ne.symm hn]
      have := ih hline
      simpa using this
  | @comment text cs htext hcs ih =>
    have hline : '\n' ∉ body ++ ';' :: text := by simp [hbody, htext]
    have htrivia : Trivia rest ('\n' :: (cs ++ gap)) := .blank (by decide) (hcs.trivia_append hgap)
    have := Trivia.comment hline (stops_newline _) htrivia
    simpa using this

theorem Trivia.append_trivia {rest gap gap' : List Char} (h : Trivia (gap' ++ rest) gap)
    (h' : Trivia rest gap') : Trivia rest (gap ++ gap') := by
  induction h with
  | nil => exact h'
  | blank hc _ ih => exact .blank hc ih
  | comment hbody hstop _ ih =>
    rw [List.cons_append, List.append_assoc]
    exact .comment hbody (by rwa [List.append_assoc]) ih

/-- Spacing starts with a blank or a comment, neither of which prolongs a token. -/
theorem Spacing.follows {extra : List Char} (h : Spacing extra) (hne : extra ≠ []) (k : Token)
    (rest : List Char) : Follows (.ok k) (extra ++ rest) := by
  obtain ⟨c, cs, rfl, hc⟩ : ∃ c cs, extra = c :: cs ∧ isSymbolChar c = false := by
    cases h with
    | nil => exact (hne rfl).elim
    | blank hc _ => exact ⟨_, _, rfl, isSymbolChar_of_isBlank hc⟩
    | comment => exact ⟨_, _, rfl, by decide⟩
  have hsymbol : Stops isSymbolChar (c :: cs ++ rest) := by
    rintro d ⟨⟩
    exact hc
  have hdigit : Stops Char.isDigit (c :: cs ++ rest) := by
    rintro d ⟨⟩
    by_contra hd
    have := isSymbolChar_of_isDigit (by simpa using hd)
    exact Bool.false_ne_true (hc.symm.trans this)
  cases k with
  | int n =>
    refine ⟨hdigit, fun hdot => ?_⟩
    cases hdot
    exact absurd hc (by decide)
  | double x => exact hdigit
  | bool b => exact hsymbol
  | sym name => exact hsymbol
  | _ => trivial

/-- What follows a token matters by its first character. -/
theorem follows_congr {k : Token} {cs ds : List Char} (h : ds.head? = cs.head?) :
    Follows (.ok k) ds ↔ Follows (.ok k) cs := by
  have hstops (p : Char → Bool) : Stops p ds ↔ Stops p cs := by
    unfold Stops
    rw [h]
  cases k with
  | int n => exact and_congr (hstops _) (by rw [h])
  | double x => exact hstops _
  | bool b => exact hstops _
  | sym name => exact hstops _
  | _ => exact Iff.rfl

/-- A token does not start with a line feed. -/
theorem Lexeme.not_stops_newline {text rest : List Char} {content : Except Fault Token}
    (h : Lexeme text content) (hf : Follows content rest) : ¬ Stops (· != '\n') (text ++ rest) := by
  obtain ⟨c, cs, rfl, -, hstarts⟩ := scan_of_lexeme h hf
  intro hstops
  obtain rfl : c = '\n' := by simpa using hstops c rfl
  cases hstarts.2

/-! ## Inserted spacing -/

section Inserted

variable {P : Nat → Prop} {offset : Nat}

theorem Inserted.nil_left {cs ds : List Char} (h : Inserted P offset cs ds) (hcs : cs = []) :
    Spacing ds := by
  induction h with
  | nil => exact .nil
  | keep => cases hcs
  | insert _ hextra _ ih => exact hextra.append (ih hcs)

/-- What is inserted before a character, if this is the place for it, and what is inserted after
it. -/
theorem Inserted.cons_left {c : Char} {cs' cs ds : List Char} (h : Inserted P offset cs' ds)
    (hcs : cs' = c :: cs) : ∃ extra rest, ds = extra ++ c :: rest ∧ Spacing extra ∧
      (extra = [] ∨ P offset) ∧ Inserted P (offset + c.utf8Size) cs rest := by
  induction h with
  | nil => cases hcs
  | keep h _ =>
    cases hcs
    exact ⟨[], _, rfl, .nil, .inl rfl, h⟩
  | insert hP hextra _ ih =>
    obtain ⟨extra, rest, rfl, hextra', -, hrest⟩ := ih hcs
    exact ⟨_, rest, (List.append_assoc ..).symm, hextra.append hextra', .inr hP, hrest⟩

theorem Inserted.append_left {cs cs' ds : List Char} (h : Inserted P offset (cs ++ cs') ds) :
    ∃ es es', ds = es ++ es' ∧ Inserted P offset cs es ∧
      Inserted P (offset + byteSize cs) cs' es' := by
  induction cs generalizing offset ds with
  | nil => exact ⟨[], ds, rfl, .nil offset, h⟩
  | cons c cs ih =>
    obtain ⟨extra, rest, rfl, hextra, hP, hrest⟩ := h.cons_left rfl
    obtain ⟨es, es', rfl, hes, hes'⟩ := ih hrest
    refine ⟨extra ++ c :: es, es', by simp, ?_, ?_⟩
    · rcases hP with rfl | hP
      · exact .keep hes
      · exact .insert hP hextra (.keep hes)
    · rwa [Text.byteSize_cons, ← Nat.add_assoc]

/-- A run of characters is kept in one piece if none of them is at a place for spacing. -/
theorem Inserted.kept {run cs ds : List Char} (h : Inserted P offset (run ++ cs) ds)
    (hrun : ∀ before c after, run = before ++ c :: after → ¬ P (offset + byteSize before)) :
    ∃ rest, ds = run ++ rest ∧ Inserted P (offset + byteSize run) cs rest := by
  induction run generalizing offset ds with
  | nil => exact ⟨ds, rfl, h⟩
  | cons c run ih =>
    obtain ⟨extra, rest, rfl, -, hextra, hrest⟩ := h.cons_left rfl
    obtain rfl : extra = [] := hextra.resolve_right (hrun [] c run rfl)
    obtain ⟨rest, rfl, hrest⟩ := ih hrest fun before d after hsplit => by
      have := hrun (c :: before) d after (by rw [hsplit, List.cons_append])
      rwa [Text.byteSize_cons, ← Nat.add_assoc] at this
    exact ⟨rest, rfl, by rwa [Text.byteSize_cons, ← Nat.add_assoc]⟩

/-- Where no place for spacing is inside the text of a token, there may be some before it. -/
theorem Inserted.token {text cs ds : List Char} (h : Inserted P offset (text ++ cs) ds)
    (hne : text ≠ []) (htext : ∀ n, offset < n → n < offset + byteSize text → ¬ P n) :
    ∃ extra rest, ds = extra ++ (text ++ rest) ∧ Spacing extra ∧
      Inserted P (offset + byteSize text) cs rest := by
  obtain ⟨c, text, rfl⟩ := List.exists_cons_of_ne_nil hne
  obtain ⟨extra, rest, rfl, hextra, -, hrest⟩ := h.cons_left rfl
  obtain ⟨rest, rfl, hrest⟩ := hrest.kept fun before d after hsplit => by
    have hc := c.utf8Size_pos
    have hd := d.utf8Size_pos
    refine htext _ (by omega) ?_
    simp only [hsplit, Text.byteSize_cons, Text.byteSize_append]
    omega
  exact ⟨extra, rest, rfl, hextra, by rwa [Text.byteSize_cons, ← Nat.add_assoc]⟩

/-- What is inserted first, and then the text with its first character. -/
theorem Inserted.leading {cs ds : List Char} (h : Inserted P offset cs ds) :
    ∃ extra rest, ds = extra ++ rest ∧ Spacing extra ∧ Inserted P offset cs rest ∧
      rest.head? = cs.head? := by
  cases cs with
  | nil => exact ⟨ds, [], by simp, h.nil_left rfl, .nil offset, rfl⟩
  | cons c cs =>
    obtain ⟨extra, rest, rfl, hextra, -, hrest⟩ := h.cons_left rfl
    exact ⟨extra, c :: rest, rfl, hextra, .keep hrest, rfl⟩

theorem Inserted.follows {k : Token} {cs ds : List Char} (h : Inserted P offset cs ds)
    (hf : Follows (.ok k) cs) : Follows (.ok k) ds := by
  obtain ⟨extra, rest, rfl, hextra, -, hhead⟩ := h.leading
  by_cases hne : extra = []
  · subst hne
    exact (follows_congr hhead).2 hf
  · exact hextra.follows hne k rest

/-- Trivia stay trivia, if nothing is inserted inside of a comment. What comes after them may
change, but does not go on with a comment. -/
theorem Trivia.inserted {rest rest' gap gap' : List Char} (h : Trivia rest gap)
    (hins : Inserted P offset gap gap')
    (hcomment : ∀ before body c after, gap = before ++ ';' :: (body ++ c :: after) →
      '\n' ∉ body → c ≠ '\n' → ¬ P (offset + byteSize (before ++ ';' :: body)))
    (hrest : Stops (· != '\n') rest → Stops (· != '\n') rest') : Trivia rest' gap' := by
  induction h generalizing offset gap' with
  | nil =>
    have hnil : Trivia rest' [] := .nil
    have := (hins.nil_left rfl).trivia_append hnil
    rwa [List.append_nil] at this
  | @blank c gap hc _ ih =>
    obtain ⟨extra, ds, rfl, hextra, -, hds⟩ := hins.cons_left rfl
    refine hextra.trivia_append (.blank hc (ih hds ?_))
    intro before body d after hgap hbody hd
    have := hcomment (c :: before) body d after (by rw [hgap, List.cons_append]) hbody hd
    rwa [List.cons_append, Text.byteSize_cons, ← Nat.add_assoc] at this
  | @comment body gap hbody hstop _ ih =>
    obtain ⟨extra, ds, rfl, hextra, -, hds⟩ := hins.cons_left rfl
    obtain ⟨ds, rfl, hkept⟩ := hds.kept fun before c after hsplit => by
      rw [hsplit, List.mem_append, List.mem_cons, not_or, not_or] at hbody
      have := hcomment [] before c (after ++ gap) (by rw [hsplit]; simp) hbody.1
        (Ne.symm hbody.2.1)
      rwa [List.nil_append, Text.byteSize_cons, ← Nat.add_assoc] at this
    -- What is inserted at the end of the comment prolongs it.
    obtain ⟨extra', ds, rfl, hextra', hds, hhead⟩ := hkept.leading
    refine hextra.trivia_append (hextra'.trivia_comment hbody ?_ (ih hds ?_))
    · cases gap with
      | nil =>
        obtain rfl : ds = [] := List.head?_eq_none_iff.1 hhead
        exact hrest hstop
      | cons c gap =>
        obtain ⟨ds, rfl⟩ := List.head?_eq_some_iff.1 hhead
        exact hstop
    · intro before text c after hgap htext hc
      have := hcomment (';' :: (body ++ before)) text c after (by rw [hgap]; simp) htext hc
      simpa [Nat.add_assoc] using this

end Inserted

/-! ## Tokens -/

theorem HasTokens.trivia {gap cs : List Char} {ks : List Token} (hgap : Trivia cs gap)
    (h : HasTokens cs ks) : HasTokens (gap ++ cs) ks := by
  intro offset
  obtain ⟨ts, hts, htiling⟩ := h (offset + byteSize gap)
  refine ⟨ts, hts, ?_⟩
  generalize ts.map (Except.ok (ε := Located Fault)) = items at htiling
  cases htiling with
  | done ht => exact .done (Trivia.append_trivia (by rwa [List.append_nil]) ht)
  | @item _ gap' text rest content items ht hlex hf hrest =>
    rw [Nat.add_assoc offset, ← Text.byteSize_append] at hrest ⊢
    rw [← List.append_assoc]
    exact .item (Trivia.append_trivia hgap ht) hlex hf hrest

theorem HasTokens.exists_tokenize {cs : List Char} {ks : List Token} (h : HasTokens cs ks) :
    ∃ tokens, tokenize (String.ofList cs) = .ok tokens ∧ tokens.map Located.val = ks := by
  obtain ⟨tokens, hks, htiling⟩ := h 0
  refine ⟨tokens, tokenize_eq_ok_iff.2 (items_eq_iff.2 ?_), hks⟩
  rwa [String.toList_ofList]

/-- Texts of tokens with a space between them have these tokens. -/
theorem scans_intercalate {texts : List (List Char)} {ks : List Token}
    (h : List.Forall₂ (fun text k => Lexeme text (.ok k)) texts ks) :
    Scans ([' '].intercalate texts) ks := by
  induction h with
  | nil => exact .nil
  | @cons text k texts ks hlex hrest ih =>
    cases hrest with
    | nil => simpa using Scans.lexeme hlex
    | @cons text' k' texts ks hlex' hrest =>
      rw [List.intercalate_cons_cons, List.append_assoc]
      exact (Scans.lexeme hlex).spaced ih

/-- A text keeps its tokens where spacing is inserted in none of them and in no comment. -/
theorem Tiling.inserted {P : Nat → Prop} {offset : Nat} {cs ds : List Char} {items : List Item}
    (h : Tiling offset cs items) {tokens : List (Located Token)} (hitems : items = tokens.map .ok)
    (hins : Inserted P offset cs ds)
    (htoken : ∀ t ∈ tokens, ∀ n, t.start < n → n < t.stop → ¬ P n)
    (hcomment : ∀ before body c after, cs = before ++ ';' :: (body ++ c :: after) →
      '\n' ∉ body → c ≠ '\n' →
      (∀ t ∈ tokens, offset + byteSize before < t.start ∨ t.stop ≤ offset + byteSize before) →
      ¬ P (offset + byteSize (before ++ ';' :: body))) :
    HasTokens ds (tokens.map Located.val) := by
  induction h generalizing tokens ds with
  | done hgap =>
    obtain rfl := List.map_eq_nil_iff.1 hitems.symm
    have hgap' : Trivia [] ds := hgap.inserted hins
      (fun before body c after hsplit hbody hc =>
        hcomment before body c after hsplit hbody hc fun _ ht => (by cases ht))
      id
    intro start
    exact ⟨[], rfl, .done hgap'⟩
  | @item offset gap text rest content items hgap hlex hf htail ih =>
    obtain ⟨t, tokens, rfl, ht, rfl⟩ := List.map_eq_cons_iff.1 hitems.symm
    have hstart : t.start = offset + byteSize gap := by
      have := congrArg Item.start ht
      rwa [Piece.start_item] at this
    have hstop : t.stop = offset + byteSize gap + byteSize text := by
      have := congrArg Item.stop ht
      rwa [Piece.stop_item] at this
    obtain rfl : .ok t.val = content := by
      have := congrArg Item.content ht
      rwa [Piece.content_item] at this
    have hspan : t.start < t.stop := by
      have := Text.byteSize_pos hlex.ne_nil
      omega
    have hlater : ∀ u ∈ tokens, t.stop ≤ u.start := by
      intro u hu
      rw [hstop]
      exact htail.ordered.1 _ (List.mem_map_of_mem hu)
    obtain ⟨htoken, htokens⟩ := List.forall_mem_cons.1 htoken
    obtain ⟨gap', ds, rfl, hgap', hds⟩ := hins.append_left
    obtain ⟨extra, ds, rfl, hextra, hds⟩ := hds.token hlex.ne_nil (by rwa [← hstop, ← hstart])
    have htrivia : Trivia (extra ++ (text ++ ds)) gap' := by
      refine hgap.inserted hgap' ?_ fun hstops => (hlex.not_stops_newline hf hstops).elim
      intro before body c after hsplit hbody hc
      refine hcomment before body c (after ++ (text ++ rest)) (by rw [hsplit]; simp) hbody hc ?_
      have hbefore : offset + byteSize before < t.start := by
        have : ';'.utf8Size = 1 := rfl
        rw [hstart, hsplit, Text.byteSize_append, Text.byteSize_cons]
        omega
      refine List.forall_mem_cons.2 ⟨.inl hbefore, fun u hu => .inl ?_⟩
      exact hbefore.trans_le ((Nat.le_of_lt hspan).trans (hlater u hu))
    have hrest : HasTokens ds (tokens.map Located.val) := by
      refine ih rfl hds htokens ?_
      intro before body c after hsplit hbody hc hout
      have := hcomment (gap ++ (text ++ before)) body c after (by rw [hsplit]; simp) hbody hc ?_
      · simpa [Nat.add_assoc] using this
      · have hplace : offset + byteSize (gap ++ (text ++ before)) =
            offset + byteSize gap + byteSize text + byteSize before := by
          rw [Text.byteSize_append, Text.byteSize_append]
          omega
        rw [hplace]
        exact List.forall_mem_cons.2 ⟨.inr (by omega), hout⟩
    have htext := HasTokens.lexeme hlex (hds.follows hf) hrest
    exact (htext.trivia (by simpa using hextra.trivia_append .nil)).trivia htrivia

/-! ## Ends of tokens -/

/-- If trivia come before a token, each comment in them has its line feed. -/
theorem Trivia.newline_mem {rest gap : List Char} (h : Trivia rest gap)
    (hrest : ¬ Stops (· != '\n') rest) {before cs : List Char} (hgap : gap = before ++ ';' :: cs) :
    '\n' ∈ cs := by
  induction h generalizing before with
  | nil => simp at hgap
  | @blank c gap hc _ ih =>
    cases before with
    | nil =>
      cases hgap
      exact absurd hc (by decide)
    | cons d before =>
      cases hgap
      exact ih rfl
  | @comment body gap hbody hstop _ ih =>
    have hfeed : '\n' ∈ gap := by
      cases gap with
      | nil => exact (hrest hstop).elim
      | cons c gap =>
        obtain rfl : c = '\n' := by simpa using hstop c rfl
        exact List.mem_cons_self
    cases before with
    | nil =>
      cases hgap
      exact List.mem_append_right _ hfeed
    | cons d before =>
      have hsplit := (List.cons.inj hgap).2
      rcases List.append_eq_append_iff.1 hsplit with ⟨run, rfl, rfl⟩ | ⟨run, rfl, hrun⟩
      · exact ih rfl
      · cases run with
        | nil =>
          have hgap : gap = [] ++ ';' :: cs := hrun.symm
          exact ih hgap
        | cons e run =>
          cases hrun
          exact List.mem_append_right _ hfeed

/-- A semicolon outside the items starts a comment or belongs to one: the next item comes after a
line feed. -/
theorem Tiling.newline_before {offset : Nat} {cs : List Char} {items : List Item}
    (h : Tiling offset cs items) {before after : List Char} (hcs : cs = before ++ ';' :: after)
    (hout : ∀ i ∈ items, offset + byteSize before < i.start ∨ i.stop ≤ offset + byteSize before) :
    ∀ i ∈ items, i.stop ≤ offset + byteSize before ∨ ∃ body more, after = body ++ '\n' :: more ∧
      '\n' ∉ body ∧ offset + byteSize (before ++ ';' :: body) < i.start := by
  have hone : ';'.utf8Size = 1 := rfl
  induction h generalizing before with
  | done => exact fun _ hi => (by cases hi)
  | @item offset gap text rest content items hgap hlex hf htail ih =>
    obtain ⟨hfirst, hlater⟩ := List.forall_mem_cons.1 hout
    rw [Piece.start_item, Piece.stop_item] at hfirst
    dsimp only at hfirst
    have hstops := hlex.not_stops_newline hf
    rcases List.append_eq_append_iff.1 hcs with ⟨run, rfl, hrun⟩ | ⟨run, rfl, hrun⟩
    · -- The semicolon comes after the first item.
      rw [Text.byteSize_append] at hfirst hlater ⊢
      have hsize : byteSize text ≤ byteSize run := by omega
      obtain ⟨run, rfl, rfl⟩ : ∃ more, run = text ++ more ∧ rest = more ++ ';' :: after := by
        rcases List.append_eq_append_iff.1 hrun with h | ⟨more, rfl, hmore⟩
        · exact h
        · cases more with
          | nil => exact ⟨[], by simp, hmore.symm⟩
          | cons c more =>
            have := c.utf8Size_pos
            rw [Text.byteSize_append, Text.byteSize_cons] at hsize
            omega
      have := ih rfl
      simp only [Text.byteSize_append, Nat.add_assoc] at hlater this ⊢
      refine List.forall_mem_cons.2 ⟨.inl ?_, this hlater⟩
      rw [Piece.stop_item]
      dsimp only
      omega
    · -- It comes in the trivia before it.
      have hpos := Text.byteSize_pos hlex.ne_nil
      cases run with
      | nil =>
        rw [List.append_nil] at hfirst
        omega
      | cons c run =>
        obtain ⟨rfl, rfl⟩ := List.cons.inj hrun
        obtain ⟨body, more, rfl, hbody⟩ := List.eq_append_cons_of_mem (hgap.newline_mem hstops rfl)
        have hplace : offset + byteSize (before ++ ';' :: body) <
            offset + byteSize (before ++ ';' :: (body ++ '\n' :: more)) := by
          simp only [Text.byteSize_append, Text.byteSize_cons]
          have := '\n'.utf8Size_pos
          omega
        refine List.forall_mem_cons.2 ⟨?_, fun i hi => ?_⟩
        · rw [Piece.start_item]
          exact .inr ⟨body, _, List.append_assoc .., hbody, hplace⟩
        · have := htail.ordered.1 i hi
          exact .inr ⟨body, _, List.append_assoc .., hbody, by omega⟩

section Places

variable {source : String} {tokens : List (Located Token)} (h : tokenize source = .ok tokens)
include h

theorem tiling_of_tokenize : Tiling 0 source.toList (tokens.map .ok) :=
  items_eq_iff.1 (tokenize_eq_ok_iff.1 h)

theorem start_lt_stop {t : Located Token} (ht : t ∈ tokens) : t.start < t.stop := by
  have := (items_tile source).2.1 (.ok t)
  rw [tokenize_eq_ok_iff.1 h] at this
  exact (this (List.mem_map_of_mem ht)).1

theorem stop_le_byteSize {t : Located Token} (ht : t ∈ tokens) :
    t.stop ≤ byteSize source.toList := by
  obtain ⟨before, text, after, hsource, -, hstop, -⟩ :=
    (tiling_of_tokenize h).spansIn [] rfl (.ok t) (List.mem_map_of_mem ht)
  change t.stop = byteSize (before ++ text) at hstop
  rw [List.nil_append] at hsource
  rw [hsource, hstop]
  simp only [Text.byteSize_append]
  omega

/-- Two tokens are apart or the same. -/
theorem apart_of_mem {t u : Located Token} (ht : t ∈ tokens) (hu : u ∈ tokens) :
    t.stop ≤ u.start ∨ u.stop ≤ t.start ∨ t = u := by
  have hordered := (tiling_of_tokenize h).ordered.2
  rw [List.pairwise_map] at hordered
  have hapart : tokens.Pairwise fun t u => t.stop ≤ u.start ∨ u.stop ≤ t.start :=
    hordered.imp .inl
  have : Std.Symm fun t u : Located Token => t.stop ≤ u.start ∨ u.stop ≤ t.start :=
    ⟨fun _ _ => Or.symm⟩
  by_cases hne : t = u
  · exact .inr (.inr hne)
  · rw [← or_assoc]
    exact .inl (hapart.forall ht hu hne)

/-- No token starts or ends inside of a comment. -/
theorem not_inComment_of_mem {t : Located Token} (ht : t ∈ tokens) {n : Nat}
    (hn : n = t.start ∨ n = t.stop) : ¬ InComment source.toList tokens n := by
  rintro ⟨before, body, c, after, hsource, hbody, hc, hout, rfl⟩
  have hspan := start_lt_stop h ht
  have hline := (tiling_of_tokenize h).newline_before hsource
    (by simpa [Item.start, Item.stop] using hout) (.ok t) (List.mem_map_of_mem ht)
  simp only [Nat.zero_add, Text.byteSize_append, Text.byteSize_cons, Item.start, Item.stop]
    at hline hn
  rcases hline with hstop | ⟨line, more, hsplit, hline, hstart⟩
  · have := ';'.utf8Size_pos
    omega
  · -- The comment goes on after the offset, but ends before the token.
    rcases List.append_eq_append_iff.1 hsplit with ⟨run, rfl, -⟩ | ⟨run, rfl, hrun⟩
    · rw [Text.byteSize_append] at hstart
      omega
    · cases run with
      | nil => exact hc (List.cons.inj hrun).1.symm
      | cons d run =>
        obtain rfl := (List.cons.inj hrun).1
        simp at hbody

/-- Every token starts and ends at a boundary, and so does the source. -/
theorem boundary_of_end : Boundary source tokens 0 ∧ Boundary source tokens source.utf8ByteSize ∧
    ∀ t ∈ tokens, Boundary source tokens t.start ∧ Boundary source tokens t.stop := by
  rw [← Text.byteSize_toList]
  refine ⟨⟨fun t _ => .inl (Nat.zero_le _), ?_⟩,
    ⟨fun t ht => .inr (stop_le_byteSize h ht), ?_⟩, fun t ht => ⟨⟨fun u hu => ?_, ?_⟩, ?_, ?_⟩⟩
  · rintro ⟨before, body, c, after, -, -, -, -, hzero⟩
    have := ';'.utf8Size_pos
    rw [Text.byteSize_append, Text.byteSize_cons] at hzero
    omega
  · rintro ⟨before, body, c, after, hsource, -, -, -, hsize⟩
    have := c.utf8Size_pos
    simp only [hsource, Text.byteSize_append, Text.byteSize_cons] at hsize
    omega
  · have := start_lt_stop h ht
    rcases apart_of_mem h ht hu with hstop | hstop | rfl <;> omega
  · exact not_inComment_of_mem h ht (.inl rfl)
  · intro u hu
    have := start_lt_stop h ht
    rcases apart_of_mem h ht hu with hstop | hstop | rfl <;> omega
  · exact not_inComment_of_mem h ht (.inr rfl)

end Places

/-! ## Errors -/

/-- An error of reading without the place that it names. -/
inductive ReadError.Kind where
  | lexical (fault : Fault)
  | unterminatedList
  | unexpectedToken (token : Token)
  | prematureEnd
  deriving DecidableEq

def ReadError.kind : ReadError → ReadError.Kind
  | lexical f => .lexical f.val
  | unterminatedList _ => .unterminatedList
  | unexpectedToken t => .unexpectedToken t.val
  | prematureEnd => .prematureEnd

/-- Sources with the same tokens, at whatever places, read as the same forms or with an error of
the same kind. -/
theorem parse_congr {source source' : String} {tokens tokens' : List (Located Token)}
    (h : tokenize source = .ok tokens) (h' : tokenize source' = .ok tokens')
    (hval : tokens'.map Located.val = tokens.map Located.val) :
    (parse source').mapError ReadError.kind = (parse source).mapError ReadError.kind := by
  let R (i i' : Item) : Prop := Item.content i' = Item.content i
  have hitems : List.Forall₂ R (items source) (items source') := by
    rw [← List.forall₂_eq_eq_eq, List.forall₂_map_left_iff, List.forall₂_map_right_iff] at hval
    rw [tokenize_eq_ok_iff.1 h, tokenize_eq_ok_iff.1 h', List.forall₂_map_left_iff,
      List.forall₂_map_right_iff]
    exact hval.flip.imp fun t t' ht => congrArg Except.ok ht
  have hrelated : RelatedResult R (parse source) (parse source') :=
    readForms_related (fun hi => hi) [] hitems
  generalize parse source = result at hrelated ⊢
  generalize parse source' = result' at hrelated ⊢
  cases hrelated with
  | ok forms => rfl
  | error he =>
    cases he with
    | lexical hf =>
      have := Except.error.inj hf
      simp [Except.mapError, ReadError.kind, this]
    | unterminatedList => rfl
    | unexpectedToken ht =>
      have := Except.ok.inj ht
      simp [Except.mapError, ReadError.kind, this]
    | prematureEnd => rfl

/-! ## The theorem -/

/-- The two sources have tokens of the same kinds and values, in the same order, and they read as
the same forms or with an error of the same kind. -/
def SameReading (source source' : String) : Prop :=
  ∃ tokens tokens', tokenize source = .ok tokens ∧ tokenize source' = .ok tokens' ∧
    tokens'.map Located.val = tokens.map Located.val ∧
    (parse source').mapError ReadError.kind = (parse source).mapError ReadError.kind

theorem HasTokens.sameReading {source : String} {cs : List Char} {tokens : List (Located Token)}
    (h : tokenize source = .ok tokens) (hcs : HasTokens cs (tokens.map Located.val)) :
    SameReading source (String.ofList cs) := by
  obtain ⟨tokens', h', hval⟩ := hcs.exists_tokenize
  exact ⟨tokens, tokens', h, h', hval, parse_congr h h' hval⟩

/-- Let a source have tokens, that is, no fault. Spacing may be inserted at all its boundaries,
which are the ends of its tokens, its own ends, and the places between tokens that are not inside of
a comment: the tokens stay, and with them what is read. Also the texts of the tokens with a space
between them, instead of whatever is there, have these tokens. -/
theorem spacing_irrelevant {source : String} {tokens : List (Located Token)}
    (h : tokenize source = .ok tokens) :
    (∀ cs, Inserted (Boundary source tokens) 0 source.toList cs →
      SameReading source (String.ofList cs)) ∧
    SameReading source (String.ofList ([' '].intercalate
      (tokens.map fun t => Item.text source (.ok t)))) ∧
    Boundary source tokens 0 ∧ Boundary source tokens source.utf8ByteSize ∧
    ∀ t ∈ tokens, Boundary source tokens t.start ∧ Boundary source tokens t.stop := by
  refine ⟨fun cs hcs => ?_, ?_, boundary_of_end h⟩
  · refine HasTokens.sameReading h ((tiling_of_tokenize h).inserted rfl hcs ?_ ?_)
    · intro t ht n hstart hstop hboundary
      have := hboundary.1 t ht
      omega
    · intro before body c after hsource hbody hc hout hboundary
      rw [Nat.zero_add] at hboundary
      exact hboundary.2 ⟨before, body, c, after, hsource, hbody, hc, by simpa using hout, rfl⟩
  · refine HasTokens.sameReading h (scans_intercalate ?_).hasTokens
    rw [List.forall₂_map_left_iff, List.forall₂_map_right_iff, List.forall₂_same]
    intro t ht
    have hspans := (tiling_of_tokenize h).spansIn [] rfl (.ok t) (List.mem_map_of_mem ht)
    exact (Item.SpansIn.lexeme hspans).1

/-- Two tokens touch, and a comment with its line feed is inserted between them. -/
theorem spacing_irrelevant_touching :
    SameReading "12abc" (String.ofList ("12".toList ++ (";x\n".toList ++ "abc".toList))) ∧
      SameReading "12abc" "12 abc" := by
  have h : tokenize "12abc" = .ok [⟨.int 12, 0, 2⟩, ⟨.sym "abc", 2, 5⟩] := by
    with_unfolding_all rfl
  obtain ⟨hinserted, htexts, -, -, hends⟩ := spacing_irrelevant h
  have hboundary := (hends ⟨.int 12, 0, 2⟩ List.mem_cons_self).2
  have hcomment : Spacing (';' :: (['x'] ++ '\n' :: [])) := .comment (by decide) .nil
  have hafter : Inserted (Boundary "12abc" [⟨.int 12, 0, 2⟩, ⟨.sym "abc", 2, 5⟩]) 2 "abc".toList
      (";x\n".toList ++ "abc".toList) := .insert hboundary hcomment (.keep (.keep (.keep (.nil _))))
  exact ⟨hinserted _ (.keep (.keep hafter)), htexts⟩

end SmallLisp.Reader
