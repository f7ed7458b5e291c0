import Mathlib.Data.List.Forall2
import SmallLisp.Proofs.Grammar

/-!
# Reading at another place

The reader looks at the tokens of items and copies their places into errors. So items that have the
same contents at other places read as the same forms, or with the same error about the item at the
other place (`readForms_related`). In particular a text may start at another offset
(`readProgram_move`).
-/

namespace SmallLisp.Reader

open Text (byteSize)

section Related

variable (R : Item → Item → Prop)

/-- The same error, about items that `R` relates. -/
inductive ReadError.Related : ReadError → ReadError → Prop where
  | lexical {f f' : Located Fault} : R (.error f) (.error f') →
      Related (.lexical f) (.lexical f')
  | unterminatedList {t t' : Located Token} : R (.ok t) (.ok t') →
      Related (.unterminatedList t.start) (.unterminatedList t'.start)
  | unexpectedToken {t t' : Located Token} : R (.ok t) (.ok t') →
      Related (.unexpectedToken t) (.unexpectedToken t')
  | prematureEnd : Related .prematureEnd .prematureEnd

/-- The same result, or the same error about related items. -/
inductive RelatedResult {α : Type} : Except ReadError α → Except ReadError α → Prop where
  | ok (a : α) : RelatedResult (.ok a) (.ok a)
  | error {e e' : ReadError} : e.Related R e' → RelatedResult (.error e) (.error e')

structure Reading.Related {α : Type} {bound bound' : List Item} (r : Reading α bound)
    (r' : Reading α bound') : Prop where
  result : RelatedResult R r.result r'.result
  rest : List.Forall₂ R r.rest r'.rest

end Related

section Related

variable {R : Item → Item → Prop} (hR : ∀ {i i'}, R i i' → Item.content i' = Item.content i)
include hR

theorem val_eq_of_related {t t' : Located Token} (h : R (.ok t) (.ok t')) : t'.val = t.val :=
  Except.ok.inj (hR h)

theorem related_ok {t : Located Token} {i : Item} (h : R (.ok t) i) :
    ∃ t', i = .ok t' ∧ R (.ok t) (.ok t') := by
  have hi := hR h
  cases i with
  | error f => cases hi
  | ok t' => exact ⟨t', rfl, h⟩

theorem related_error {f : Located Fault} {i : Item} (h : R (.error f) i) :
    ∃ f', i = .error f' ∧ R (.error f) (.error f') := by
  have hi := hR h
  cases i with
  | error f' => exact ⟨f', rfl, h⟩
  | ok t => cases hi

mutual

theorem readFrom_related {bound bound' items items' : List Item} {t t' : Located Token}
    (h : items.length ≤ bound.length) (h' : items'.length ≤ bound'.length)
    (ht : R (.ok t) (.ok t')) (hitems : List.Forall₂ R items items') :
    (readFrom bound t items h).Related R (readFrom bound' t' items' h') := by
  have hval := val_eq_of_related hR ht
  cases hk : t.val with
  | opening =>
    rw [readFrom_opening _ _ _ hk, readFrom_opening _ _ _ (hval.trans hk)]
    exact readElements_related h h' ht [] hitems
  | closing =>
    rw [readFrom, readFrom, hval, hk]
    exact ⟨.error (.unexpectedToken ht), hitems⟩
  | quote =>
    rw [readFrom, readFrom, hval, hk]
    have ih := readValue_related h h' hitems
    generalize readValue bound items h = r at ih ⊢
    generalize readValue bound' items' h' = r' at ih ⊢
    obtain ⟨result, left, hr⟩ := r
    obtain ⟨result', left', hr'⟩ := r'
    obtain ⟨hresult, hleft⟩ := ih
    cases hresult with
    | ok v => exact ⟨.ok _, hleft⟩
    | error he => exact ⟨.error he, hleft⟩
  | _ =>
    rw [readFrom, readFrom, hval, hk]
    exact ⟨.ok _, hitems⟩
termination_by 2 * items.length + 1

theorem readValue_related {bound bound' items items' : List Item}
    (h : items.length ≤ bound.length) (h' : items'.length ≤ bound'.length)
    (hitems : List.Forall₂ R items items') :
    (readValue bound items h).Related R (readValue bound' items' h') := by
  match items with
  | [] =>
    obtain rfl := List.forall₂_nil_left_iff.1 hitems
    rw [readValue, readValue]
    exact ⟨.error .prematureEnd, .nil⟩
  | .error f :: items =>
    obtain ⟨i, items', hi, hrest, rfl⟩ := List.forall₂_cons_left_iff.1 hitems
    obtain ⟨f', rfl, hf⟩ := related_error hR hi
    rw [readValue, readValue]
    exact ⟨.error (.lexical hf), hrest⟩
  | .ok t :: items =>
    obtain ⟨i, items', hi, hrest, rfl⟩ := List.forall₂_cons_left_iff.1 hitems
    obtain ⟨t', rfl, ht⟩ := related_ok hR hi
    rw [readValue, readValue]
    exact readFrom_related _ _ ht hrest
termination_by 2 * items.length

theorem readElements_related {bound bound' items items' : List Item} {t t' : Located Token}
    (h : items.length ≤ bound.length) (h' : items'.length ≤ bound'.length)
    (ht : R (.ok t) (.ok t')) (elements : List Value) (hitems : List.Forall₂ R items items') :
    (readElements bound t.start elements items h).Related R
      (readElements bound' t'.start elements items' h') := by
  match items with
  | [] =>
    obtain rfl := List.forall₂_nil_left_iff.1 hitems
    rw [readElements, readElements]
    exact ⟨.error (.unterminatedList ht), .nil⟩
  | .error f :: items =>
    obtain ⟨i, items', hi, hrest, rfl⟩ := List.forall₂_cons_left_iff.1 hitems
    obtain ⟨f', rfl, hf⟩ := related_error hR hi
    rw [readElements, readElements]
    exact ⟨.error (.lexical hf), hrest⟩
  | .ok u :: items =>
    obtain ⟨i, items', hi, hrest, rfl⟩ := List.forall₂_cons_left_iff.1 hitems
    obtain ⟨u', rfl, hu⟩ := related_ok hR hi
    rw [readElements, readElements, val_eq_of_related hR hu]
    split
    · exact ⟨.ok _, hrest⟩
    · have ih := readFrom_related (Nat.le_refl _) (Nat.le_refl _) hu hrest
      generalize readFrom items u items (Nat.le_refl _) = r at ih ⊢
      generalize readFrom items' u' items' (Nat.le_refl _) = r' at ih ⊢
      obtain ⟨result, left, hr⟩ := r
      obtain ⟨result', left', hr'⟩ := r'
      obtain ⟨hresult, hleft⟩ := ih
      cases hresult with
      | ok v => exact readElements_related _ _ ht (v :: elements) hleft
      | error he => exact ⟨.error he, hleft⟩
termination_by 2 * items.length

end

/-- Related items read as the same forms, or fail with the same error about related items. -/
theorem readForms_related (forms : List Value) {items items' : List Item}
    (hitems : List.Forall₂ R items items') :
    RelatedResult R (readForms forms items).1 (readForms forms items').1 := by
  match items with
  | [] =>
    obtain rfl := List.forall₂_nil_left_iff.1 hitems
    rw [readForms]
    exact .ok _
  | .error f :: items =>
    obtain ⟨i, items', hi, hrest, rfl⟩ := List.forall₂_cons_left_iff.1 hitems
    obtain ⟨f', rfl, hf⟩ := related_error hR hi
    rw [readForms, readForms]
    exact .error (.lexical hf)
  | .ok t :: items =>
    obtain ⟨i, items', hi, hrest, rfl⟩ := List.forall₂_cons_left_iff.1 hitems
    obtain ⟨t', rfl, ht⟩ := related_ok hR hi
    rw [readForms, readForms]
    have ih := readFrom_related hR (Nat.le_refl _) (Nat.le_refl _) ht hrest
    generalize readFrom items t items (Nat.le_refl _) = r at ih ⊢
    generalize readFrom items' t' items' (Nat.le_refl _) = r' at ih ⊢
    obtain ⟨result, left, hr⟩ := r
    obtain ⟨result', left', hr'⟩ := r'
    obtain ⟨hresult, hleft⟩ := ih
    cases hresult with
    | ok v => exact readForms_related (v :: forms) hleft
    | error he => exact .error he
termination_by items.length

end Related

/-! ## Moved items -/

def Located.move {α : Type} (k : Nat) (x : Located α) : Located α :=
  ⟨x.val, x.start + k, x.stop + k⟩

/-- The item, so many bytes later. -/
def Item.move (k : Nat) : Item → Item
  | .ok t => .ok (t.move k)
  | .error f => .error (f.move k)

namespace ReadError

/-- The error, about items so many bytes later. -/
def move (k : Nat) : ReadError → ReadError
  | lexical f => lexical (f.move k)
  | unterminatedList start => unterminatedList (start + k)
  | unexpectedToken t => unexpectedToken (t.move k)
  | prematureEnd => prematureEnd

/-- The offset in the message. -/
def offset? : ReadError → Option Nat
  | lexical f => some f.faultOffset
  | unterminatedList start => some start
  | unexpectedToken t => some t.start
  | prematureEnd => none

end ReadError

theorem Item.content_move (k : Nat) (i : Item) : Item.content (Item.move k i) = Item.content i := by
  cases i <;> rfl

theorem Piece.move_item (p : Piece) (n k : Nat) : Item.move k (p.item n) = p.item (n + k) := by
  obtain ⟨content, size, rest⟩ := p
  cases content <;> simp [Piece.item, Item.move, Located.move, Nat.add_right_comm]

/-- A text has its items wherever it starts. -/
theorem Tiling.move {offset : Nat} {cs : List Char} {items : List Item}
    (h : Tiling offset cs items) (k : Nat) :
    Tiling (offset + k) cs (items.map (Item.move k)) := by
  induction h with
  | done ht => exact .done ht
  | @item offset gap text rest content items ht hlex hf _ ih =>
    rw [List.map_cons, Piece.move_item, Nat.add_right_comm offset]
    refine .item ht hlex hf ?_
    rwa [Nat.add_right_comm offset k, Nat.add_right_comm _ k]

/-- A faulty escape is as long as its two characters at least. -/
theorem Item.SpansIn.faultOffset_move {source : List Char} {f : Located Fault}
    (h : Item.SpansIn source (.error f)) (k : Nat) :
    (f.move k).faultOffset = f.faultOffset + k := by
  obtain ⟨fault, start, stop⟩ := f
  cases fault with
  | invalidEscape c =>
    obtain ⟨before, text, after, -, -, hstop, hlex, -⟩ := h
    obtain rfl : stop = byteSize (before ++ text) := hstop
    change Lexeme text (.error (.invalidEscape c)) at hlex
    cases hlex with
    | @string body unescaped tail _ hs ht =>
      cases ht
      have hb : '\\'.utf8Size = 1 := rfl
      simp only [Located.faultOffset, Located.move, Text.byteSize_append, Text.byteSize_cons,
        Text.byteSize_nil]
      omega
  | _ => rfl

/-- Moved items read as the same forms, or with the same error moved, also as it is shown. -/
theorem readProgram_move {source : List Char} {items : List Item}
    (hspans : ∀ i ∈ items, Item.SpansIn source i) (k : Nat) :
    (readProgram (items.map (Item.move k))).1 =
        (readProgram items).1.mapError (ReadError.move k) ∧
      ∀ e, (readProgram items).1 = .error e → (e.move k).offset? = e.offset?.map (· + k) := by
  let R (i i' : Item) : Prop := i ∈ items ∧ i' = Item.move k i
  have hR {i i' : Item} (h : R i i') : Item.content i' = Item.content i := by
    rw [h.2, Item.content_move]
  have hitems : List.Forall₂ R items (items.map (Item.move k)) :=
    List.forall₂_map_right_iff.2 (List.forall₂_same.2 fun i hi => ⟨hi, rfl⟩)
  have hrelated : RelatedResult R (readProgram items).1
      (readProgram (items.map (Item.move k))).1 := readForms_related hR [] hitems
  generalize (readProgram items).1 = result at hrelated ⊢
  generalize (readProgram (items.map (Item.move k))).1 = result' at hrelated ⊢
  cases hrelated with
  | ok forms => exact ⟨rfl, fun e he => by cases he⟩
  | @error e e' he =>
    suffices e' = e.move k ∧ (e.move k).offset? = e.offset?.map (· + k) by
      obtain ⟨rfl, hoffset⟩ := this
      refine ⟨rfl, ?_⟩
      rintro _ ⟨⟩
      exact hoffset
    cases he with
    | lexical hf =>
      obtain ⟨hmem, hmove⟩ := hf
      cases hmove
      exact ⟨rfl, congrArg some ((hspans _ hmem).faultOffset_move k)⟩
    | unterminatedList ht | unexpectedToken ht =>
      obtain ⟨-, hmove⟩ := ht
      cases hmove
      exact ⟨rfl, rfl⟩
    | prematureEnd => exact ⟨rfl, rfl⟩

end SmallLisp.Reader
