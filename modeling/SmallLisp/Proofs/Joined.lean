import SmallLisp.Proofs.Relocation
import SmallLisp.Source

/-!
# Sources joined by a line feed

A line feed ends every token and every comment but no string literal, and is itself a blank. So the
items of two texts with a line feed between them are those of the first one, if they are all tokens,
and then those of the second one, moved (`items_joined`). The forms are then read, and evaluated, in
one piece as they are in two (`evaluateSource_joined`).
-/

namespace SmallLisp

namespace Reader

open Text (byteSize)

/-! ## Items -/

theorem Stops.append {p : Char → Bool} {cs : List Char} (h : Stops p cs) (hcs : cs ≠ [])
    (ds : List Char) : Stops p (cs ++ ds) := by
  obtain ⟨c, cs, rfl⟩ := List.exists_cons_of_ne_nil hcs
  exact h

theorem Stops.append_newline {p : Char → Bool} {cs : List Char} (h : Stops p cs)
    (hp : p '\n' = false) (ds : List Char) : Stops p (cs ++ '\n' :: ds) := by
  cases cs with
  | nil =>
    rintro c ⟨⟩
    exact hp
  | cons c cs => exact h

theorem Trivia.append {rest gap : List Char} (h : Trivia rest gap) (hrest : rest ≠ [])
    (more : List Char) : Trivia (rest ++ more) gap := by
  induction h with
  | nil => exact .nil
  | blank hc _ ih => exact .blank hc ih
  | @comment body gap hbody hstop _ ih =>
    refine .comment hbody ?_ ih
    rw [← List.append_assoc]
    exact hstop.append (List.append_ne_nil_of_right_ne_nil _ hrest) more

/-- A line feed ends a comment, and is a blank. -/
theorem Trivia.append_newline {rest gap more : List Char} (h : Trivia [] gap)
    (hmore : Trivia rest more) : Trivia rest (gap ++ '\n' :: more) := by
  induction h with
  | nil => exact .blank (by decide) hmore
  | blank hc _ ih => exact .blank hc ih
  | @comment body gap hbody hstop _ ih =>
    rw [List.append_nil] at hstop
    rw [List.cons_append, List.append_assoc]
    refine .comment hbody ?_ ih
    rw [List.append_assoc, List.cons_append]
    exact hstop.append_newline (by decide) (more ++ rest)

/-- A line feed prolongs no token. -/
theorem Follows.append_newline {t : Token} {rest : List Char} (h : Follows (.ok t) rest)
    (more : List Char) : Follows (.ok t) (rest ++ '\n' :: more) := by
  cases t with
  | int n =>
    refine ⟨h.1.append_newline (by decide) more, ?_⟩
    cases rest with
    | nil => simp
    | cons c cs => exact h.2
  | double x => exact Stops.append_newline h (by decide) more
  | bool b => exact Stops.append_newline h (by decide) more
  | sym name => exact Stops.append_newline h (by decide) more
  | _ => trivial

/-- Trivia and a line feed before a text only move its items. -/
theorem Tiling.after_trivia {offset : Nat} {gap cs : List Char} {items : List Item}
    (hgap : Trivia [] gap) (h : Tiling (offset + byteSize gap + 1) cs items) :
    Tiling offset (gap ++ '\n' :: cs) items := by
  have hn : '\n'.utf8Size = 1 := rfl
  cases h with
  | done ht => exact .done (hgap.append_newline ht)
  | @item _ gap' text rest content items ht hlex hf htail =>
    have hsize : offset + byteSize gap + 1 + byteSize gap' =
        offset + byteSize (gap ++ '\n' :: gap') := by
      rw [Text.byteSize_append, Text.byteSize_cons, hn]
      omega
    rw [hsize] at htail ⊢
    rw [← List.cons_append, ← List.append_assoc]
    exact .item (hgap.append_newline ht) hlex hf htail

/-- The items of two texts with a line feed between them. -/
theorem Tiling.joined {offset : Nat} {cs ds : List Char} {items items' : List Item}
    (h : Tiling offset cs items) (htokens : ∀ i ∈ items, ∃ t, i = .ok t)
    (h' : Tiling (offset + byteSize cs + 1) ds items') :
    Tiling offset (cs ++ '\n' :: ds) (items ++ items') := by
  induction h with
  | done hgap => exact h'.after_trivia hgap
  | @item offset gap text rest content items ht hlex hf _ ih =>
    obtain ⟨⟨t, hitem⟩, hrest⟩ := List.forall_mem_cons.1 htokens
    obtain ⟨token, rfl⟩ : ∃ token, content = .ok token := by
      cases content with
      | ok token => exact ⟨token, rfl⟩
      | error f => cases hitem
    rw [List.append_assoc, List.append_assoc, List.cons_append]
    refine .item ?_ hlex (hf.append_newline ds) (ih hrest ?_)
    · rw [← List.append_assoc]
      exact ht.append (List.append_ne_nil_of_left_ne_nil hlex.ne_nil _) _
    · simpa only [Text.byteSize_append, Nat.add_assoc] using h'

theorem items_joined {s₁ s₂ : String} (h : ∀ i ∈ items s₁, ∃ t, i = .ok t) :
    items (s₁ ++ "\n" ++ s₂) =
      items s₁ ++ (items s₂).map (Item.move (s₁.utf8ByteSize + 1)) := by
  have h₁ := items_eq_iff.1 (rfl : items s₁ = _)
  have h₂ := (items_eq_iff.1 (rfl : items s₂ = _)).move (s₁.utf8ByteSize + 1)
  rw [items_eq_iff, String.toList_append, String.toList_append, List.append_assoc]
  refine h₁.joined h ?_
  rwa [Text.byteSize_toList, Nat.add_assoc]

/-! ## Forms -/

/-- The forms read so far only come first. -/
theorem readForms_append (forms before : List Value) (items : List Item) :
    (readForms (forms ++ before) items).1 =
      (readForms forms items).1.map (before.reverse ++ ·) := by
  fun_induction readForms forms items with
  | case1 forms => rw [readForms, List.reverse_append]; rfl
  | case2 forms f rest => rw [readForms]; rfl
  | case3 forms t rest v rest' h hread ih =>
    rw [readForms, hread]
    exact ih
  | case4 forms t rest e rest' h hread =>
    rw [readForms, hread]
    rfl

/-- The tokens of values read as these, and then reading goes on. -/
theorem readForms_tokens (trees : List Tree) (forms : List Value) {ts : List (Located Token)}
    (e : Tree.tokensAll trees = ts.map Located.val) (rest : List Item) :
    readForms forms (ts.map .ok ++ rest) =
      readForms ((Tree.valueAll trees).reverse ++ forms) rest := by
  induction trees generalizing forms ts with
  | nil =>
    rw [Tree.tokensAll] at e
    obtain rfl := List.map_eq_nil_iff.1 e.symm
    rw [Tree.valueAll]
    rfl
  | cons tree trees ih =>
    rw [Tree.tokensAll] at e
    obtain ⟨us, ws, rfl, hus, hws⟩ := List.map_eq_append_iff.1 e.symm
    obtain ⟨k, ks, hk, -⟩ := tree.exists_tokens_eq_cons
    obtain ⟨t, us, rfl, rfl, -⟩ := List.map_eq_cons_iff.1 (hus.trans hk)
    rw [List.map_append, List.append_assoc, List.map_cons, List.cons_append]
    obtain ⟨h', hread⟩ := readFrom_of_tokens tree (Nat.le_refl _) rfl hus.symm
    rw [readForms, hread]
    dsimp only
    rw [ih _ hws.symm, Tree.valueAll, List.reverse_cons, List.append_assoc]
    rfl

/-- After a source that reads as forms, another one reads as it does alone, but for offsets. -/
theorem parse_joined {s₁ s₂ : String} {f₁ : List Value} (h : parse s₁ = .ok f₁) :
    parse (s₁ ++ "\n" ++ s₂) =
      ((parse s₂).mapError (ReadError.move (s₁.utf8ByteSize + 1))).map (f₁ ++ ·) := by
  obtain ⟨ts, trees, htokens, htrees, rfl⟩ := parse_eq_ok_iff.1 h
  have hitems := tokenize_eq_ok_iff.1 htokens
  have hspans := (items_eq_iff.1 (rfl : items s₂ = _)).spansIn [] rfl
  have hok : ∀ i ∈ items s₁, ∃ t, i = .ok t := by
    rw [hitems]
    exact List.forall_mem_map.2 fun t _ => ⟨t, rfl⟩
  rw [parse, items_joined hok, hitems, readProgram, readForms_tokens trees [] htrees,
    ← List.nil_append (_ ++ []), readForms_append, List.append_nil, List.reverse_reverse, parse,
    ← (readProgram_move hspans _).1]
  rfl

end Reader

/-! ## Evaluation -/

theorem evalBody_append (ev : Value → Env → Eval Value) (env : Env) {es es' : List Value}
    (h : es ≠ []) (h' : es' ≠ []) : evalBody ev env (es ++ es') = (do
      let _ ← evalBody ev env es
      evalBody ev env es') := by
  fun_induction evalBody ev env es with
  | case1 => exact (h rfl).elim
  | case2 e =>
    obtain ⟨e', es', rfl⟩ := List.exists_cons_of_ne_nil h'
    rfl
  | case3 e e' es ih =>
    rw [bind_assoc, ← ih (List.cons_ne_nil _ _)]
    rfl

theorem evaluateSource_of_parse {source : String} {forms : List Value}
    (h : Reader.parse source = .ok forms) (depth : Nat) (env : Env) :
    evaluateSource depth source env = (evalBody (eval depth) env forms).mapError .evaluation := by
  rw [evaluateSource, h]

theorem evaluateSource_of_parse_error {source : String} {e : Reader.ReadError}
    (h : Reader.parse source = .error e) (depth : Nat) (env : Env) :
    evaluateSource depth source env = Run.fail (.reading e) := by
  rw [evaluateSource, h]

/-- Forms evaluated one after the other, in two parts. -/
theorem mapError_evalBody_append (ev : Value → Env → Eval Value) (env : Env)
    (es es' : List Value) :
    ((evalBody ev env (es ++ es')).mapError .evaluation : Run SourceError Value) = (do
      let v ← (evalBody ev env es).mapError .evaluation
      let w ← (evalBody ev env es').mapError .evaluation
      pure (if es'.isEmpty then v else w)) := by
  rcases es' with _ | ⟨e', es'⟩
  · rw [List.append_nil]
    exact (bind_pure _).symm
  · simp only [List.isEmpty_cons, Bool.false_eq_true, if_false, bind_pure]
    rcases es with _ | ⟨e, es⟩
    · rfl
    · rw [evalBody_append ev env (List.cons_ne_nil _ _) (List.cons_ne_nil _ _), Run.mapError_bind]

/-- Let `s₁` read as forms. If `s₂` reads as forms too, the two joined by a line feed read as both
and are evaluated as `s₁`, and then `s₂` in the same environment if `s₁` has a value. Otherwise the
two joined fail with the error of `s₂`, its offset counted from the start of `s₁`, and nothing is
evaluated. -/
theorem evaluateSource_joined {s₁ s₂ : String} {f₁ : List Value} (h₁ : Reader.parse s₁ = .ok f₁) :
    (∀ f₂, Reader.parse s₂ = .ok f₂ →
      Reader.parse (s₁ ++ "\n" ++ s₂) = .ok (f₁ ++ f₂) ∧
      ∀ depth env, evaluateSource depth (s₁ ++ "\n" ++ s₂) env = (do
        let v ← evaluateSource depth s₁ env
        let w ← evaluateSource depth s₂ env
        pure (if f₂.isEmpty then v else w))) ∧
    ∀ e, Reader.parse s₂ = .error e → ∃ e', e' = e.move (s₁.utf8ByteSize + 1) ∧
      Reader.parse (s₁ ++ "\n" ++ s₂) = .error e' ∧
      e'.offset? = e.offset?.map (· + (s₁.utf8ByteSize + 1)) ∧
      SourceError.stage (.reading e') = SourceError.stage (.reading e) ∧
      ∀ depth env s, evaluateSource depth (s₁ ++ "\n" ++ s₂) env s =
        some (.error (.reading e'), s) := by
  have hjoined : Reader.parse (s₁ ++ "\n" ++ s₂) = _ := Reader.parse_joined h₁
  refine ⟨fun f₂ h₂ => ?_, fun e h₂ => ?_⟩
  · rw [h₂] at hjoined
    refine ⟨hjoined, fun depth env => ?_⟩
    rw [evaluateSource_of_parse hjoined, evaluateSource_of_parse h₁, evaluateSource_of_parse h₂]
    exact mapError_evalBody_append (eval depth) env f₁ f₂
  · rw [h₂] at hjoined
    refine ⟨_, rfl, hjoined, ?_, by cases e <;> rfl, fun depth env s => ?_⟩
    · have hspans := (Reader.items_eq_iff.1 (rfl : Reader.items s₂ = _)).spansIn [] rfl
      exact (Reader.readProgram_move hspans _).2 e h₂
    · rw [evaluateSource_of_parse_error hjoined]
      rfl

/-- The first text ends with a comment, which the line feed ends. The second one is a number, or has
a string that does not end. -/
theorem evaluateSource_joined_comment :
    Reader.parse "1 ; one" = .ok [.int 1] ∧
    Reader.parse ("1 ; one" ++ "\n" ++ "-2") = .ok ([.int 1] ++ [.int (-2)]) ∧
    ∃ e, e = .lexical ⟨.unterminatedString, 11, 13⟩ ∧ e.offset? = some 11 ∧
      Reader.parse ("1 ; one" ++ "\n" ++ "(f \"a") = .error e ∧
      ∀ depth env s, evaluateSource depth ("1 ; one" ++ "\n" ++ "(f \"a") env s =
        some (.error (.reading e), s) := by
  have h₁ : Reader.parse "1 ; one" = .ok [.int 1] := by with_unfolding_all rfl
  have h₂ : Reader.parse "(f \"a" = .error (.lexical ⟨.unterminatedString, 3, 5⟩) := by
    with_unfolding_all rfl
  have h₃ : Reader.parse "-2" = .ok [.int (-2)] := by with_unfolding_all rfl
  obtain ⟨e, he, hparse, hoffset, -, heval⟩ := (evaluateSource_joined h₁).2 _ h₂
  exact ⟨h₁, ((evaluateSource_joined h₁).1 _ h₃).1, e, he, hoffset, hparse, heval⟩

end SmallLisp
