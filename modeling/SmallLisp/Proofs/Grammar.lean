import SmallLisp.Proofs.Tiling
import SmallLisp.Reader.Reading

/-!
# The grammar of forms

    program = value*
    value   = "(" value* ")" | "'" value | atom

A derivation of a value is a `Tree`; `Tree.tokens` are the tokens that it derives and `Tree.value`
is what they mean. A program is a list of them. A source reads as forms if its tokens have a
derivation whose values these are (`parse_eq_ok_iff`), and tokens have at most one
(`Tree.tokensAll_inj`).
-/

namespace SmallLisp.Reader

/-- The value of a token that is one by itself. -/
def Token.atom? : Token → Option Value
  | .opening | .closing | .quote => none
  | .int n => some (.int n)
  | .double x => some (.double x)
  | .bool b => some (.bool b)
  | .str s => some (.str s)
  | .sym s => some (.sym s)

inductive Tree where
  | atom (token : Token) (v : Value) (h : token.atom? = some v)
  | quote (inner : Tree)
  | list (elements : List Tree)

namespace Tree

mutual

def tokens : Tree → List Token
  | atom token .. => [token]
  | quote t => .quote :: tokens t
  | list ts => .opening :: (tokensAll ts ++ [.closing])

def tokensAll : List Tree → List Token
  | [] => []
  | t :: ts => tokens t ++ tokensAll ts

end

mutual

def value : Tree → Value
  | atom _ v _ => v
  | quote t => quoted (value t)
  | list ts => .list (valueAll ts)

def valueAll : List Tree → List Value
  | [] => []
  | t :: ts => value t :: valueAll ts

end

/-! ## There is one derivation -/

/-- No value starts with a closing parenthesis. -/
theorem exists_tokens_eq_cons (t : Tree) : ∃ k ks, t.tokens = k :: ks ∧ k ≠ .closing := by
  cases t with
  | atom token v h =>
    refine ⟨token, [], by rw [tokens], ?_⟩
    rintro rfl
    cases h
  | quote t => exact ⟨.quote, t.tokens, by rw [tokens], by decide⟩
  | list ts => exact ⟨.opening, tokensAll ts ++ [.closing], by rw [tokens], by decide⟩

/-- No value follows. -/
def Closes (ks : List Token) : Prop := ∀ k, ks.head? = some k → k = .closing

theorem closes_nil : Closes [] := fun _ h => (by cases h)

theorem closes_closing (ks : List Token) : Closes (.closing :: ks) := fun _ h => (by cases h; rfl)

theorem not_closes_tokens (t : Tree) (ks : List Token) : ¬ Closes (t.tokens ++ ks) := by
  intro h
  obtain ⟨k, us, ht, hk⟩ := t.exists_tokens_eq_cons
  exact hk (h k (by rw [ht]; rfl))

/-! The first token of a derivation tells which rule it starts with. -/

theorem eq_atom_of_tokens {t : Tree} {k : Token} {v : Value} {ks us : List Token}
    (h : k.atom? = some v) (e : t.tokens ++ ks = k :: us) : t = atom k v h ∧ ks = us := by
  cases t with
  | atom k' v' h' =>
    obtain ⟨rfl, rfl⟩ := List.cons.inj e
    obtain rfl : v' = v := Option.some.inj (h'.symm.trans h)
    exact ⟨rfl, rfl⟩
  | quote t =>
    obtain ⟨rfl, -⟩ := List.cons.inj e
    cases h
  | list ts =>
    obtain ⟨rfl, -⟩ := List.cons.inj e
    cases h

theorem eq_quote_of_tokens {t : Tree} {ks us : List Token} (e : t.tokens ++ ks = .quote :: us) :
    ∃ t', t = quote t' ∧ t'.tokens ++ ks = us := by
  cases t with
  | atom k v h =>
    obtain ⟨rfl, -⟩ := List.cons.inj e
    cases h
  | quote t => exact ⟨t, rfl, (List.cons.inj e).2⟩
  | list ts => simp [tokens] at e

theorem eq_list_of_tokens {t : Tree} {ks us : List Token} (e : t.tokens ++ ks = .opening :: us) :
    ∃ ts, t = list ts ∧ tokensAll ts ++ .closing :: ks = us := by
  cases t with
  | atom k v h =>
    obtain ⟨rfl, -⟩ := List.cons.inj e
    cases h
  | quote t => simp [tokens] at e
  | list ts => exact ⟨ts, rfl, by simpa [tokens] using e⟩

mutual

theorem tokens_append_inj (t t' : Tree) (ks ks' : List Token)
    (e : t.tokens ++ ks = t'.tokens ++ ks') : t = t' ∧ ks = ks' := by
  cases t with
  | atom k v h =>
    obtain ⟨rfl, rfl⟩ := eq_atom_of_tokens h e.symm
    exact ⟨rfl, rfl⟩
  | quote t =>
    obtain ⟨t', rfl, e'⟩ := eq_quote_of_tokens e.symm
    obtain ⟨rfl, rfl⟩ := tokens_append_inj t t' ks ks' e'.symm
    exact ⟨rfl, rfl⟩
  | list ts =>
    rw [tokens, List.cons_append, List.append_assoc] at e
    obtain ⟨ts', rfl, e'⟩ := eq_list_of_tokens e.symm
    obtain ⟨rfl, e''⟩ :=
      tokensAll_append_inj ts ts' _ _ (closes_closing _) (closes_closing _) e'.symm
    exact ⟨rfl, (List.cons.inj e'').2⟩

theorem tokensAll_append_inj (ts ts' : List Tree) (ks ks' : List Token) (h : Closes ks)
    (h' : Closes ks') (e : tokensAll ts ++ ks = tokensAll ts' ++ ks') : ts = ts' ∧ ks = ks' := by
  cases ts with
  | nil =>
    cases ts' with
    | nil => exact ⟨rfl, e⟩
    | cons t' ts' =>
      rw [tokensAll, tokensAll, List.nil_append, List.append_assoc] at e
      exact (not_closes_tokens t' _ (e ▸ h)).elim
  | cons t ts =>
    cases ts' with
    | nil =>
      rw [tokensAll, tokensAll, List.nil_append, List.append_assoc] at e
      exact (not_closes_tokens t _ (e ▸ h')).elim
    | cons t' ts' =>
      rw [tokensAll, tokensAll, List.append_assoc, List.append_assoc] at e
      obtain ⟨rfl, e'⟩ := tokens_append_inj t t' _ _ e
      obtain ⟨rfl, rfl⟩ := tokensAll_append_inj ts ts' ks ks' h h' e'
      exact ⟨rfl, rfl⟩

end

/-- Tokens have at most one derivation. -/
theorem tokensAll_inj {ts ts' : List Tree} (h : tokensAll ts = tokensAll ts') : ts = ts' :=
  (tokensAll_append_inj ts ts' [] [] closes_nil closes_nil (by rw [h])).1

end Tree

/-! ## The reader on a token -/

section Reader

variable {t : Located Token} (bound items : List Item) (h : items.length ≤ bound.length)

theorem readFrom_atom {v : Value} (ht : t.val.atom? = some v) :
    readFrom bound t items h = ⟨.ok v, items, h⟩ := by
  obtain ⟨token, start, stop⟩ := t
  cases token <;> cases ht <;> rw [readFrom]

theorem readFrom_opening (ht : t.val = .opening) :
    readFrom bound t items h = readElements bound t.start [] items h := by
  rw [readFrom, ht]

theorem readFrom_quote (ht : t.val = .quote) {v : Value} {rest : List Item}
    {h' : rest.length ≤ bound.length} (hread : readValue bound items h = ⟨.ok v, rest, h'⟩) :
    readFrom bound t items h = ⟨.ok (quoted v), rest, h'⟩ := by
  rw [readFrom, ht, hread]

theorem readElements_cons (ht : t.val ≠ .closing) (start : Nat) (elements : List Value)
    {v : Value} {rest : List Item} {h' : rest.length ≤ items.length}
    (hread : readFrom items t items (Nat.le_refl _) = ⟨.ok v, rest, h'⟩)
    (h : (Except.ok t :: items : List Item).length ≤ bound.length) :
    readElements bound start elements (.ok t :: items) h =
      readElements bound start (v :: elements) rest
        (Nat.le_trans h' (Nat.le_of_succ_le h)) := by
  rw [readElements, if_neg ht, hread]

end Reader

/-! ## What is read has a derivation -/

mutual

theorem exists_tree_of_readFrom {bound items rest : List Item} {t : Located Token} {v : Value}
    {h : items.length ≤ bound.length} {h' : rest.length ≤ bound.length}
    (e : readFrom bound t items h = ⟨.ok v, rest, h'⟩) :
    ∃ (tree : Tree) (ts : List (Located Token)), items = ts.map .ok ++ rest ∧
      tree.tokens = t.val :: ts.map Located.val ∧ tree.value = v := by
  cases hk : t.val.atom? with
  | some a =>
    rw [readFrom_atom _ _ _ hk] at e
    cases e
    exact ⟨.atom t.val v hk, [], rfl, by rw [Tree.tokens, List.map_nil], by rw [Tree.value]⟩
  | none =>
    rw [readFrom] at e
    cases htoken : t.val with
    | opening =>
      rw [htoken] at e
      obtain ⟨trees, ts, rfl, htokens, rfl⟩ := exists_trees_of_readElements e
      exact ⟨.list trees, ts, rfl, by rw [Tree.tokens, htokens], by rw [Tree.value]; rfl⟩
    | closing =>
      rw [htoken] at e
      cases e
    | quote =>
      rw [htoken] at e
      dsimp only at e
      split at e
      · next hread =>
        obtain ⟨tree, ts, rfl, htokens, rfl⟩ := exists_tree_of_readValue hread
        cases e
        exact ⟨.quote tree, ts, rfl, by rw [Tree.tokens, htokens], by rw [Tree.value]⟩
      · cases e
    | _ =>
      rw [htoken] at hk
      cases hk
termination_by 2 * items.length + 1

theorem exists_tree_of_readValue {bound items rest : List Item} {v : Value}
    {h : items.length ≤ bound.length} {h' : rest.length ≤ bound.length}
    (e : readValue bound items h = ⟨.ok v, rest, h'⟩) :
    ∃ (tree : Tree) (ts : List (Located Token)), items = ts.map .ok ++ rest ∧
      tree.tokens = ts.map Located.val ∧ tree.value = v := by
  match items with
  | [] => rw [readValue] at e; cases e
  | .error f :: items => rw [readValue] at e; cases e
  | .ok t :: items =>
    rw [readValue] at e
    obtain ⟨tree, ts, rfl, htokens, rfl⟩ := exists_tree_of_readFrom e
    exact ⟨tree, t :: ts, rfl, htokens, rfl⟩
termination_by 2 * items.length

theorem exists_trees_of_readElements {bound items rest : List Item} {start : Nat}
    {elements : List Value} {v : Value}
    {h : items.length ≤ bound.length} {h' : rest.length ≤ bound.length}
    (e : readElements bound start elements items h = ⟨.ok v, rest, h'⟩) :
    ∃ (trees : List Tree) (ts : List (Located Token)), items = ts.map .ok ++ rest ∧
      Tree.tokensAll trees ++ [.closing] = ts.map Located.val ∧
      v = .list (elements.reverse ++ Tree.valueAll trees) := by
  match items with
  | [] => rw [readElements] at e; cases e
  | .error f :: items => rw [readElements] at e; cases e
  | .ok t :: items =>
    rw [readElements] at e
    split at e
    case isTrue hclose =>
      cases e
      exact ⟨[], [t], rfl, by rw [Tree.tokensAll, List.map_cons, hclose]; rfl,
        by rw [Tree.valueAll, List.append_nil]⟩
    case isFalse =>
      split at e
      case h_2 => cases e
      case h_1 hread =>
        obtain ⟨tree, ts, rfl, htokens, rfl⟩ := exists_tree_of_readFrom hread
        obtain ⟨trees, us, rfl, htokens', rfl⟩ := exists_trees_of_readElements e
        refine ⟨tree :: trees, t :: (ts ++ us), by simp, ?_, by simp [Tree.valueAll]⟩
        rw [Tree.tokensAll, List.append_assoc, htokens, htokens']
        simp
termination_by 2 * items.length

end

theorem exists_trees_of_readForms {forms vs : List Value} {items rest : List Item}
    (e : readForms forms items = (.ok vs, rest)) :
    ∃ (trees : List Tree) (ts : List (Located Token)), items = ts.map .ok ∧
      Tree.tokensAll trees = ts.map Located.val ∧ vs = forms.reverse ++ Tree.valueAll trees := by
  match items with
  | [] =>
    rw [readForms] at e
    cases e
    exact ⟨[], [], rfl, by rw [Tree.tokensAll, List.map_nil],
      by rw [Tree.valueAll, List.append_nil]⟩
  | .error f :: items => rw [readForms] at e; cases e
  | .ok t :: items =>
    rw [readForms] at e
    split at e
    case h_2 => cases e
    case h_1 hread =>
      obtain ⟨tree, ts, rfl, htokens, rfl⟩ := exists_tree_of_readFrom hread
      obtain ⟨trees, us, rfl, htokens', rfl⟩ := exists_trees_of_readForms e
      refine ⟨tree :: trees, t :: (ts ++ us), by simp, ?_, by simp [Tree.valueAll]⟩
      rw [Tree.tokensAll, htokens, htokens']
      simp
termination_by items.length

/-! ## What has a derivation is read -/

mutual

theorem readFrom_of_tokens (tree : Tree) {bound items rest : List Item} {t : Located Token}
    {ts : List (Located Token)} (h : items.length ≤ bound.length)
    (hitems : items = ts.map .ok ++ rest) (e : tree.tokens = t.val :: ts.map Located.val) :
    ∃ h', readFrom bound t items h = ⟨.ok tree.value, rest, h'⟩ := by
  cases tree with
  | atom k v hk =>
    rw [Tree.tokens] at e
    obtain ⟨rfl, hts⟩ := List.cons.inj e
    obtain rfl := List.map_eq_nil_iff.1 hts.symm
    subst hitems
    exact ⟨h, by rw [Tree.value]; exact readFrom_atom _ _ _ hk⟩
  | quote inner =>
    rw [Tree.tokens] at e
    obtain ⟨hquote, hts⟩ := List.cons.inj e
    obtain ⟨h', hread⟩ := readValue_of_tokens inner h hitems hts
    exact ⟨h', by rw [readFrom_quote _ _ _ hquote.symm hread, Tree.value]⟩
  | list trees =>
    rw [Tree.tokens] at e
    obtain ⟨hopen, hts⟩ := List.cons.inj e
    obtain ⟨h', hread⟩ := readElements_of_tokens trees t.start [] h hitems hts
    exact ⟨h', by rw [readFrom_opening _ _ _ hopen.symm, hread, Tree.value]; rfl⟩

theorem readValue_of_tokens (tree : Tree) {bound items rest : List Item}
    {ts : List (Located Token)} (h : items.length ≤ bound.length)
    (hitems : items = ts.map .ok ++ rest) (e : tree.tokens = ts.map Located.val) :
    ∃ h', readValue bound items h = ⟨.ok tree.value, rest, h'⟩ := by
  obtain ⟨k, ks, hk, -⟩ := tree.exists_tokens_eq_cons
  obtain ⟨t, ts, rfl, rfl, -⟩ := List.map_eq_cons_iff.1 (e.symm.trans hk)
  rw [List.map_cons, List.cons_append] at hitems
  subst hitems
  obtain ⟨h', hread⟩ := readFrom_of_tokens tree (Nat.le_of_succ_le h) rfl e
  exact ⟨h', by rw [readValue, hread]⟩

theorem readElements_of_tokens (trees : List Tree) {bound items rest : List Item} (start : Nat)
    (elements : List Value) {ts : List (Located Token)} (h : items.length ≤ bound.length)
    (hitems : items = ts.map .ok ++ rest)
    (e : Tree.tokensAll trees ++ [.closing] = ts.map Located.val) :
    ∃ h', readElements bound start elements items h =
      ⟨.ok (.list (elements.reverse ++ Tree.valueAll trees)), rest, h'⟩ := by
  cases trees with
  | nil =>
    rw [Tree.tokensAll, List.nil_append] at e
    obtain ⟨t, us, rfl, hclose, hus⟩ := List.map_eq_cons_iff.1 e.symm
    obtain rfl := List.map_eq_nil_iff.1 hus
    rw [List.map_cons, List.cons_append] at hitems
    subst hitems
    exact ⟨Nat.le_of_succ_le h, by
      rw [readElements, if_pos hclose, Tree.valueAll, List.append_nil]; rfl⟩
  | cons tree trees =>
    rw [Tree.tokensAll, List.append_assoc] at e
    obtain ⟨us, ws, rfl, hus, hws⟩ := List.map_eq_append_iff.1 e.symm
    obtain ⟨k, ks, hk, hclose⟩ := tree.exists_tokens_eq_cons
    obtain ⟨t, us, rfl, rfl, -⟩ := List.map_eq_cons_iff.1 (hus.trans hk)
    rw [List.map_append, List.append_assoc, List.map_cons, List.cons_append] at hitems
    subst hitems
    obtain ⟨h', hread⟩ := readFrom_of_tokens tree (Nat.le_refl _) rfl hus.symm
    obtain ⟨h'', hreads⟩ := readElements_of_tokens trees start (tree.value :: elements)
      (Nat.le_trans h' (Nat.le_of_succ_le h)) rfl hws.symm
    refine ⟨h'', ?_⟩
    rw [readElements_cons _ _ hclose _ _ hread, hreads, Tree.valueAll, List.reverse_cons,
      List.append_assoc]
    rfl

end

theorem readForms_of_tokens (trees : List Tree) (forms : List Value) (ts : List (Located Token))
    (e : Tree.tokensAll trees = ts.map Located.val) :
    readForms forms (ts.map .ok) = (.ok (forms.reverse ++ Tree.valueAll trees), []) := by
  induction trees generalizing forms ts with
  | nil =>
    rw [Tree.tokensAll] at e
    obtain rfl := List.map_eq_nil_iff.1 e.symm
    rw [List.map_nil, readForms, Tree.valueAll, List.append_nil]
  | cons tree trees ih =>
    rw [Tree.tokensAll] at e
    obtain ⟨us, ws, rfl, hus, hws⟩ := List.map_eq_append_iff.1 e.symm
    obtain ⟨k, ks, hk, -⟩ := tree.exists_tokens_eq_cons
    obtain ⟨t, us, rfl, rfl, -⟩ := List.map_eq_cons_iff.1 (hus.trans hk)
    obtain ⟨h', hread⟩ := readFrom_of_tokens tree (Nat.le_refl _) List.map_append hus.symm
    rw [List.cons_append, List.map_cons, readForms, hread]
    dsimp only
    rw [ih _ _ hws.symm, Tree.valueAll, List.reverse_cons, List.append_assoc]
    rfl

/-! ## The forms of a source -/

/-- A source reads as forms if its tokens have a derivation whose values these are. -/
theorem parse_eq_ok_iff {source : String} {forms : List Value} :
    parse source = .ok forms ↔ ∃ (tokens : List (Located Token)) (trees : List Tree),
      tokenize source = .ok tokens ∧ Tree.tokensAll trees = tokens.map Located.val ∧
      Tree.valueAll trees = forms := by
  unfold parse readProgram
  constructor
  · intro h
    obtain ⟨trees, ts, hitems, htokens, hvalue⟩ :=
      exists_trees_of_readForms (Prod.ext h rfl : _ = (_, (readForms [] (items source)).2))
    exact ⟨ts, trees, tokenize_eq_ok_iff.2 hitems, htokens, hvalue.symm⟩
  · rintro ⟨ts, trees, htokenize, htokens, rfl⟩
    rw [tokenize_eq_ok_iff.1 htokenize, readForms_of_tokens trees [] ts htokens]
    rfl

/-- The reader accepts the grammar and no more: a source reads as forms exactly if it has tokens,
and they have a derivation whose values are the forms. There is no other derivation of them. -/
theorem accepts_grammar (source : String) :
    (∀ forms, parse source = .ok forms ↔ ∃ (tokens : List (Located Token)) (trees : List Tree),
      tokenize source = .ok tokens ∧ Tree.tokensAll trees = tokens.map Located.val ∧
      Tree.valueAll trees = forms) ∧
    Function.Injective Tree.tokensAll :=
  ⟨fun _ => parse_eq_ok_iff, fun _ _ => Tree.tokensAll_inj⟩

end SmallLisp.Reader
