import SmallLisp.Proofs.Scan

/-!
# The items tile the source

`Tiling offset cs items`: the text `cs`, which starts at byte `offset`, is trivia, a lexeme,
trivia, a lexeme, and so on, up to trivia at its end, and `items` are what the lexemes read as,
each with its bytes. The items of a text are its one tiling (`items_eq_iff`).
-/

namespace SmallLisp.Reader

open Text (byteSize)

/-- Blanks and comments, with `rest` after them. A comment runs up to a line feed or the end. -/
inductive Trivia (rest : List Char) : List Char → Prop where
  | nil : Trivia rest []
  | blank {c : Char} {gap : List Char} : Text.isBlank c = true → Trivia rest gap →
      Trivia rest (c :: gap)
  | comment {body gap : List Char} : '\n' ∉ body → Stops (· != '\n') (gap ++ rest) →
      Trivia rest gap → Trivia rest (';' :: (body ++ gap))

inductive Tiling : Nat → List Char → List Item → Prop where
  | done {offset : Nat} {gap : List Char} : Trivia [] gap → Tiling offset gap []
  | item {offset : Nat} {gap text rest : List Char} {content : Except Fault Token}
      {items : List Item} : Trivia (text ++ rest) gap → Lexeme text content →
      Follows content rest → Tiling (offset + byteSize gap + byteSize text) rest items →
      Tiling offset (gap ++ (text ++ rest))
        (Piece.item ⟨content, byteSize text, rest⟩ (offset + byteSize gap) :: items)

/-! ## Trivia -/

/-- Trivia that may start inside a comment. -/
def TriviaFrom (rest : List Char) : Bool → List Char → Prop
  | false, gap => Trivia rest gap
  | true, gap => ∃ body after, gap = body ++ after ∧ '\n' ∉ body ∧
    Stops (· != '\n') (after ++ rest) ∧ Trivia rest after

theorem TriviaFrom.cons {rest gap : List Char} {c : Char} (h : TriviaFrom rest (c != '\n') gap) :
    TriviaFrom rest true (c :: gap) := by
  by_cases hc : c = '\n'
  · subst hc
    refine ⟨[], '\n' :: gap, rfl, List.not_mem_nil, ?_, .blank (by decide) h⟩
    rintro d ⟨⟩
    rfl
  · rw [show (c != '\n') = true by simpa using hc] at h
    obtain ⟨body, after, rfl, hbody, hstop, ht⟩ := h
    exact ⟨c :: body, after, rfl, by simp [hbody, Ne.symm hc], hstop, ht⟩

theorem skipTrivia_taken (comment : Bool) (size : Nat) (cs : List Char) :
    ∃ gap, cs = gap ++ (skipTrivia comment size cs).2 ∧
      (skipTrivia comment size cs).1 = size + byteSize gap ∧
      TriviaFrom (skipTrivia comment size cs).2 comment gap ∧
      ∀ c, (skipTrivia comment size cs).2.head? = some c → StartsItem c := by
  fun_induction skipTrivia comment size cs with
  | case1 comment size =>
    refine ⟨[], rfl, rfl, ?_, fun c hc => by cases hc⟩
    cases comment with
    | false => exact .nil
    | true => exact ⟨[], [], rfl, List.not_mem_nil, fun c hc => (by cases hc), .nil⟩
  | case2 size c cs ih =>
    obtain ⟨gap, hcs, hsize, ht, hstart⟩ := ih
    exact ⟨c :: gap, by rw [List.cons_append, ← hcs],
      by rw [hsize, Text.byteSize_cons, Nat.add_assoc], ht.cons, hstart⟩
  | case3 comment size cs hcomment ih =>
    obtain ⟨gap, hcs, hsize, ⟨body, after, rfl, hbody, hstop, ht⟩, hstart⟩ := ih
    refine ⟨';' :: (body ++ after), by rw [List.cons_append, ← hcs],
      by rw [hsize, Text.byteSize_cons, Nat.add_assoc], ?_, hstart⟩
    rw [show comment = false by simpa using hcomment]
    exact .comment hbody hstop ht
  | case4 comment size c cs hcomment hsemi hblank ih =>
    obtain ⟨gap, hcs, hsize, ht, hstart⟩ := ih
    refine ⟨c :: gap, by rw [List.cons_append, ← hcs],
      by rw [hsize, Text.byteSize_cons, Nat.add_assoc], ?_, hstart⟩
    rw [show comment = false by simpa using hcomment]
    exact .blank hblank ht
  | case5 comment size c cs hcomment hsemi hblank =>
    refine ⟨[], rfl, rfl, ?_, ?_⟩
    · rw [show comment = false by simpa using hcomment]
      exact .nil
    · rintro d ⟨⟩
      exact ⟨hsemi, by simpa using hblank⟩

/-- The rest of a comment is skipped, up to the end of its line. -/
theorem skipTrivia_comment {body cs : List Char} (hbody : '\n' ∉ body)
    (hstop : Stops (· != '\n') cs) (size : Nat) :
    skipTrivia true size (body ++ cs) = skipTrivia false (size + byteSize body) cs := by
  induction body generalizing size with
  | nil =>
    cases cs with
    | nil => rfl
    | cons c cs =>
      obtain rfl : c = '\n' := by simpa using hstop c rfl
      rfl
  | cons c body ih =>
    obtain ⟨hc, hbody⟩ := not_or.1 (mt List.mem_cons.2 hbody)
    rw [List.cons_append, skipTrivia, if_pos rfl, show (c != '\n') = true by simpa using Ne.symm hc,
      ih hbody, Text.byteSize_cons, Nat.add_assoc]

theorem skipTrivia_of_trivia {gap rest : List Char} (h : Trivia rest gap)
    (hstart : ∀ c, rest.head? = some c → StartsItem c) (size : Nat) :
    skipTrivia false size (gap ++ rest) = (size + byteSize gap, rest) := by
  induction h generalizing size with
  | nil =>
    cases rest with
    | nil => rfl
    | cons c cs => simp [skipTrivia, (hstart c rfl).1, (hstart c rfl).2]
  | @blank c gap hc _ ih =>
    have hsemi : c ≠ ';' := by
      rintro rfl
      revert hc
      decide
    rw [List.cons_append, skipTrivia, if_neg Bool.false_ne_true, if_neg hsemi, if_pos hc, ih,
      Text.byteSize_cons, Nat.add_assoc]
  | @comment body gap hbody hstop _ ih =>
    rw [List.cons_append, skipTrivia, if_neg Bool.false_ne_true, if_pos rfl, List.append_assoc,
      skipTrivia_comment hbody hstop, ih, Text.byteSize_cons, Text.byteSize_append]
    simp only [Nat.add_assoc]

/-! ## Items -/

theorem itemsFrom_taken (offset : Nat) (found : List Item) (cs : List Char) :
    ∃ items, itemsFrom offset found cs = found.reverse ++ items ∧ Tiling offset cs items := by
  fun_induction itemsFrom offset found cs with
  | case1 offset found cs start h =>
    obtain ⟨gap, hcs, -, ht, -⟩ := skipTrivia_taken false offset cs
    rw [h, List.append_nil] at hcs
    rw [h, ← hcs] at ht
    exact ⟨[], by simp, .done ht⟩
  | case2 offset found cs start c rest h this ih =>
    obtain ⟨gap, hcs, hsize, ht, hstart⟩ := skipTrivia_taken false offset cs
    rw [h] at hcs hsize ht hstart
    obtain ⟨text, htext, hn, hlex, hf⟩ := scan_taken rest (hstart c rfl)
    obtain ⟨items, hitems, htiling⟩ := ih
    refine ⟨(scan c rest).item start :: items, by rw [hitems]; simp, ?_⟩
    generalize scan c rest = p at *
    obtain ⟨content, size, after⟩ := p
    dsimp only at *
    subst hn hsize
    rw [hcs, htext]
    exact .item (htext ▸ ht) hlex hf htiling

theorem itemsFrom_end {offset start : Nat} {cs : List Char}
    (h : skipTrivia false offset cs = (start, [])) (found : List Item) :
    itemsFrom offset found cs = found.reverse := by
  rw [itemsFrom]
  split
  · rfl
  · next h' => rw [h] at h'; cases h'

theorem itemsFrom_next {offset start : Nat} {c : Char} {cs rest : List Char}
    (h : skipTrivia false offset cs = (start, c :: rest)) (found : List Item) :
    itemsFrom offset found cs = itemsFrom (start + (scan c rest).size)
      ((scan c rest).item start :: found) (scan c rest).rest := by
  rw [itemsFrom]
  split
  · next h' => rw [h] at h'; cases h'
  · next h' => rw [h] at h'; cases h'; rfl

theorem itemsFrom_of_tiling {offset : Nat} {cs : List Char} {items : List Item}
    (h : Tiling offset cs items) (found : List Item) :
    itemsFrom offset found cs = found.reverse ++ items := by
  induction h generalizing found with
  | @done offset gap ht =>
    have hskip := skipTrivia_of_trivia ht (by simp) offset
    rw [List.append_nil] at hskip
    rw [itemsFrom_end hskip, List.append_nil]
  | @item offset gap text rest content items ht hlex hf _ ih =>
    obtain ⟨c, cs, rfl, hscan, hstart⟩ := scan_of_lexeme hlex hf
    have hskip := skipTrivia_of_trivia ht (fun d hd => by cases hd; exact hstart) offset
    rw [List.cons_append] at hskip ⊢
    rw [itemsFrom_next hskip, hscan, ih]
    simp

/-- The items of a source are its one tiling. -/
theorem items_eq_iff {source : String} {its : List Item} :
    items source = its ↔ Tiling 0 source.toList its := by
  constructor
  · rintro rfl
    obtain ⟨its, h, ht⟩ := itemsFrom_taken 0 [] source.toList
    rw [items, h]
    exact ht
  · intro h
    exact itemsFrom_of_tiling h []

/-! ## Spans -/

namespace Item

def start : Item → Nat
  | .ok t => t.start
  | .error f => f.start

def stop : Item → Nat
  | .ok t => t.stop
  | .error f => f.stop

def content : Item → Except Fault Token
  | .ok t => .ok t.val
  | .error f => .error f.val

/-- The bytes of the item are whole characters of the source, which read as its content. -/
def SpansIn (source : List Char) (item : Item) : Prop :=
  ∃ before text after, source = before ++ (text ++ after) ∧ item.start = byteSize before ∧
    item.stop = byteSize (before ++ text) ∧ Lexeme text item.content ∧ Follows item.content after

end Item

@[simp] theorem Piece.start_item (p : Piece) (n : Nat) : Item.start (p.item n) = n := by
  unfold Piece.item
  split <;> rfl

@[simp] theorem Piece.stop_item (p : Piece) (n : Nat) : Item.stop (p.item n) = n + p.size := by
  unfold Piece.item
  split <;> rfl

@[simp] theorem Piece.content_item (p : Piece) (n : Nat) : Item.content (p.item n) = p.content := by
  unfold Piece.item
  split <;> simp [Item.content, *]

theorem Lexeme.ne_nil {text : List Char} {content : Except Fault Token} (h : Lexeme text content) :
    text ≠ [] := by
  cases h with
  | int _ hd => exact List.append_ne_nil_of_right_ne_nil _ hd.1
  | invalidNumber _ hd => exact List.append_ne_nil_of_right_ne_nil _ hd.1
  | double => simp
  | truth => decide
  | falsehood => decide
  | _ => exact List.cons_ne_nil _ _

/-- The items of a text after `before`, as items of the whole. -/
theorem Tiling.spansIn {offset : Nat} {cs : List Char} {items : List Item}
    (h : Tiling offset cs items) :
    ∀ before, byteSize before = offset → ∀ item ∈ items, item.SpansIn (before ++ cs) := by
  induction h with
  | done => exact fun _ _ _ hi => (by cases hi)
  | @item offset gap text rest content items _ hlex hf _ ih =>
    rintro before rfl item hi
    rcases List.mem_cons.1 hi with rfl | hi
    · exact ⟨before ++ gap, text, rest, by simp, by simp, by simp [Nat.add_assoc],
        by simpa using hlex, by simpa using hf⟩
    · have := ih (before ++ gap ++ text) (by simp [Nat.add_assoc]) item hi
      simpa using this

theorem Tiling.ordered {offset : Nat} {cs : List Char} {items : List Item}
    (h : Tiling offset cs items) :
    (∀ item ∈ items, offset ≤ item.start) ∧ items.Pairwise fun a b => a.stop ≤ b.start := by
  induction h with
  | done => exact ⟨fun _ hi => (by cases hi), List.Pairwise.nil⟩
  | @item offset gap text rest content items _ _ _ _ ih =>
    refine ⟨fun item hi => ?_, .cons (fun item hi => ?_) ih.2⟩
    · rcases List.mem_cons.1 hi with rfl | hi
      · simp
      · have := ih.1 item hi
        omega
    · simpa using ih.1 item hi

/-! ## Faults -/

/-- What stands where the fault points. -/
def Fault.Heads : Fault → List Char → Prop
  | .unexpectedCharacter c, cs => ∃ after, cs = c :: after
  | .unterminatedString, cs => ∃ after, cs = '"' :: after
  | .invalidEscape c, cs => ∃ after, cs = '\\' :: c :: after
  | .invalidNumber literal, cs => ∃ after, cs = literal.toList ++ after

/-- The offset of the fault is that of the characters that it is about. -/
def Located.PointsInto (source : List Char) (f : Located Fault) : Prop :=
  ∃ before cs, source = before ++ cs ∧ f.faultOffset = byteSize before ∧ f.val.Heads cs

theorem Item.SpansIn.pointsInto {source : List Char} {f : Located Fault}
    (h : Item.SpansIn source (.error f)) : f.PointsInto source := by
  obtain ⟨fault, start, stop⟩ := f
  obtain ⟨before, text, after, rfl, hstart, hstop, hlex, -⟩ := h
  obtain rfl : start = byteSize before := hstart
  obtain rfl : stop = byteSize (before ++ text) := hstop
  change Lexeme text (.error fault) at hlex
  cases hlex with
  | @string body unescaped tail _ hs ht =>
    cases ht with
    | @invalidEscape c he =>
      refine ⟨before ++ '"' :: body, '\\' :: c :: after, by simp, ?_, ⟨after, rfl⟩⟩
      have hb : '\\'.utf8Size = 1 := rfl
      simp only [Located.faultOffset, Text.byteSize_append, Text.byteSize_cons, Text.byteSize_nil]
      omega
    | unterminated => exact ⟨before, _, rfl, rfl, ⟨_, rfl⟩⟩
    | unterminatedEscape => exact ⟨before, _, rfl, rfl, ⟨_, rfl⟩⟩
  | invalidNumber => exact ⟨before, _, rfl, rfl, after, by rw [String.toList_ofList]⟩
  | unexpected => exact ⟨before, _, rfl, rfl, ⟨after, rfl⟩⟩

/-! ## Tokens -/

section Sequence

variable {ε α : Type} {e : ε} {xs : List (Except ε α)}

theorem mapM_id_error_cons : (.error e :: xs).mapM id = .error e := by
  rw [List.mapM_cons]
  rfl

theorem mapM_id_ok_cons {a : α} : (.ok a :: xs).mapM id = (xs.mapM id).map (a :: ·) := by
  rw [List.mapM_cons]
  cases xs.mapM id <;> rfl

theorem mapM_id_eq_ok_iff {as : List α} : xs.mapM id = .ok as ↔ xs = as.map .ok := by
  induction xs generalizing as with
  | nil => cases as <;> simp [pure, Except.pure]
  | cons x xs ih =>
    cases x with
    | error e =>
      rw [mapM_id_error_cons]
      cases as <;> simp
    | ok a =>
      rw [mapM_id_ok_cons]
      cases as with
      | nil => cases xs.mapM id <;> simp [Except.map]
      | cons b as =>
        rw [List.map_cons, List.cons.injEq, ← ih]
        cases xs.mapM id <;> simp [Except.map]

theorem mapM_id_eq_error_iff :
    xs.mapM id = .error e ↔ ∃ (as : List α) (rest : _), xs = as.map .ok ++ .error e :: rest := by
  induction xs with
  | nil => simp [pure, Except.pure]
  | cons x xs ih =>
    cases x with
    | error e' =>
      rw [mapM_id_error_cons]
      constructor
      · rintro ⟨⟩
        exact ⟨[], xs, rfl⟩
      · rintro ⟨as, rest, h⟩
        cases as <;> cases h
        rfl
    | ok a =>
      have hmap : (xs.mapM id).map (a :: ·) = .error e ↔ xs.mapM id = .error e := by
        cases xs.mapM id <;> simp [Except.map]
      rw [mapM_id_ok_cons, hmap, ih]
      constructor
      · rintro ⟨as, rest, rfl⟩
        exact ⟨a :: as, rest, rfl⟩
      · rintro ⟨as, rest, h⟩
        cases as <;> cases h
        exact ⟨_, rest, rfl⟩

end Sequence

theorem tokenize_eq_ok_iff {source : String} {tokens : List (Located Token)} :
    tokenize source = .ok tokens ↔ items source = tokens.map .ok :=
  mapM_id_eq_ok_iff

theorem tokenize_eq_error_iff {source : String} {f : Located Fault} :
    tokenize source = .error f ↔ ∃ (tokens : List (Located Token)) (rest : List Item),
      items source = tokens.map .ok ++ .error f :: rest :=
  mapM_id_eq_error_iff

/-- The items of a source, of which there are finitely many, have spans that lie one after the
other, none empty, with only trivia between them. Each is a lexeme, and a fault points at the
characters that it is about. The tokens of the source are its items, if none of them is a fault;
otherwise the first fault is the answer. -/
theorem items_tile (source : String) :
    Tiling 0 source.toList (items source) ∧
    (∀ item ∈ items source, item.start < item.stop ∧ item.SpansIn source.toList) ∧
    ((items source).Pairwise fun a b => a.stop ≤ b.start) ∧
    (∀ f, .error f ∈ items source → f.PointsInto source.toList) ∧
    (∀ tokens, tokenize source = .ok tokens ↔ items source = tokens.map .ok) ∧
    ∀ f, tokenize source = .error f ↔ ∃ (tokens : List (Located Token)) (rest : List Item),
      items source = tokens.map .ok ++ .error f :: rest := by
  have ht : Tiling 0 source.toList (items source) := items_eq_iff.1 rfl
  have hspans := ht.spansIn [] rfl
  refine ⟨ht, fun item hi => ⟨?_, hspans item hi⟩, ht.ordered.2,
    fun f hf => (hspans _ hf).pointsInto, fun _ => tokenize_eq_ok_iff,
    fun _ => tokenize_eq_error_iff⟩
  obtain ⟨before, text, after, -, hstart, hstop, hlex, -⟩ := hspans item hi
  have := Text.byteSize_pos hlex.ne_nil
  rw [hstart, hstop, Text.byteSize_append]
  omega

end SmallLisp.Reader
