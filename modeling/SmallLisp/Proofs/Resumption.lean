import Mathlib.Data.Nat.Find
import SmallLisp.Proofs.Pending
import SmallLisp.Proofs.Relocation

/-!
# Reading on after an error

A reading that fails leaves the items after the one that did not fit, and the next reading goes on
there (`leftAfter`). Each reading takes items of its own and fails only if it takes one, so that the
readings divide the items of a source between them and come to an end (`readings_divide`). What a
reading answers is what the text that is left reads as.
-/

namespace SmallLisp.Reader

open Pending
open Text (byteSize)

/-- The items left after so many readings. -/
def leftAfter (items : List Item) : Nat → List Item
  | 0 => items
  | n + 1 => (readProgram (leftAfter items n)).2

/-- What a reading answers that comes after so many others. -/
def answer (items : List Item) (n : Nat) : Except ReadError (List Value) :=
  (readProgram (leftAfter items n)).1

/-- The error is about what was begun and is not completed at the end. -/
def ReadError.AtEnd : ReadError → Prop
  | unterminatedList _ | prematureEnd => True
  | lexical _ | unexpectedToken _ => False

/-! ## One reading -/

theorem readProgram_consumes (items : List Item) :
    ∃ taken, items = taken ++ (readProgram items).2 ∧
      Consumes [] [] taken (readProgram items).1 (readProgram items).2 :=
  readForms_consumes [] items

theorem readProgram_nil : readProgram [] = (.ok [], []) := by
  rw [readProgram, readForms]
  rfl

/-- An item that does not fit is not the end. -/
theorem Pending.not_atEnd_of_step_error {stack : List Pending} {i : Item} {e : ReadError}
    (h : step stack i = .error e) : ¬ e.AtEnd := by
  rcases i with f | ⟨t, start, stop⟩
  · cases h
    exact not_false
  · cases t <;> rcases stack with _ | ⟨_ | _, _⟩ <;> cases h <;> exact not_false

namespace Consumes

variable {α : Type} {done : List Pending} {taken rest : List Item} {e : ReadError}

theorem ne_nil (h : Consumes (α := α) [] done taken (.error e) rest) : taken ≠ [] := by
  cases h with
  | unfit => exact List.append_ne_nil_of_right_ne_nil _ (List.cons_ne_nil _ _)
  | ended htaken hend =>
    rintro rfl
    cases htaken
    cases hend

theorem rest_eq_nil (h : Consumes (α := α) [] done taken (.error e) rest) (he : e.AtEnd) :
    rest = [] := by
  cases h with
  | unfit _ hi => exact (not_atEnd_of_step_error hi he).elim
  | ended => rfl

end Consumes

/-! ## The text that is left -/

/-- The items of a text are left over a part of it. -/
theorem Tiling.suffix {offset : Nat} {cs : List Char} {taken left : List Item}
    (h : Tiling offset cs (taken ++ left)) :
    ∃ before after, cs = before ++ after ∧ Tiling (offset + byteSize before) after left := by
  induction taken generalizing offset cs with
  | nil => exact ⟨[], cs, rfl, h⟩
  | cons i taken ih =>
    cases h with
    | @item _ gap text rest content _ _ _ _ htail =>
      obtain ⟨before, after, rfl, hleft⟩ := ih htail
      refine ⟨gap ++ (text ++ before), after, by simp only [List.append_assoc], ?_⟩
      simpa only [Text.byteSize_append, Nat.add_assoc] using hleft

/-- What is left reads as its text does alone, so many bytes later. -/
theorem Tiling.readProgram_eq {offset : Nat} {cs : List Char} {left : List Item}
    (h : Tiling offset cs left) :
    left = (items (String.ofList cs)).map (Item.move offset) ∧
      (readProgram left).1 = (parse (String.ofList cs)).mapError (ReadError.move offset) := by
  have halone : Tiling 0 cs (items (String.ofList cs)) := by
    simpa only [String.toList_ofList] using items_eq_iff.1 (rfl : items (String.ofList cs) = _)
  have hmoved := halone.move offset
  rw [Nat.zero_add] at hmoved
  obtain rfl : left = (items (String.ofList cs)).map (Item.move offset) :=
    (itemsFrom_of_tiling h []).symm.trans (itemsFrom_of_tiling hmoved [])
  exact ⟨rfl, (readProgram_move (halone.spansIn [] rfl) offset).1⟩

/-! ## The readings together -/

section Readings

variable {items : List Item}

theorem eq_flatMap_taken {taken : Nat → List Item}
    (h : ∀ n, leftAfter items n = taken n ++ leftAfter items (n + 1)) (n : Nat) :
    items = (List.range n).flatMap taken ++ leftAfter items n := by
  induction n with
  | zero => rfl
  | succ n ih =>
    rw [List.range_succ, List.flatMap_append, List.flatMap_singleton, List.append_assoc, ← h n]
    exact ih

/-- A failure takes an item at least. -/
theorem length_leftAfter_succ_lt {n : Nat} {e : ReadError} (h : answer items n = .error e) :
    (leftAfter items (n + 1)).length < (leftAfter items n).length := by
  obtain ⟨taken, htaken, hconsumes⟩ := readProgram_consumes (leftAfter items n)
  rw [answer] at h
  rw [h] at hconsumes
  have hlength := congrArg List.length htaken
  rw [List.length_append] at hlength
  rw [leftAfter, hlength]
  exact Nat.lt_add_of_pos_left (List.length_pos_iff.2 hconsumes.ne_nil)

theorem add_length_leftAfter_le {n : Nat} (h : ∀ k < n, ∃ e, answer items k = .error e) :
    n + (leftAfter items n).length ≤ items.length := by
  induction n with
  | zero => exact (Nat.zero_add _).le
  | succ n ih =>
    obtain ⟨e, he⟩ := h n n.lt_succ_self
    have hbefore := ih fun k hk => h k (Nat.lt_succ_of_lt hk)
    have hlt := length_leftAfter_succ_lt he
    omega

theorem answer_of_left_eq_nil {n : Nat} (h : leftAfter items n = []) :
    answer items n = .ok [] := by
  rw [answer, h, readProgram_nil]

/-- No more readings fail than there are items, and then one succeeds. -/
theorem exists_answer_ok (items : List Item) :
    ∃ n ≤ items.length, ∃ forms, answer items n = .ok forms := by
  by_contra hnone
  have hfail (n : Nat) (hn : n ≤ items.length) : ∃ e, answer items n = .error e := by
    cases h : answer items n with
    | error e => exact ⟨e, rfl⟩
    | ok forms => exact (hnone ⟨n, hn, forms, h⟩).elim
  have hlength := add_length_leftAfter_le fun k hk => hfail k hk.le
  have hleft : leftAfter items items.length = [] := List.length_eq_zero_iff.1 (by omega)
  exact hnone ⟨_, Nat.le_refl _, [], answer_of_left_eq_nil hleft⟩

theorem leftAfter_of_answer_ok {m n : Nat} {forms : List Value} (h : answer items m = .ok forms)
    (hn : m < n) : leftAfter items n = [] := by
  induction n, hn using Nat.le_induction with
  | base => exact snd_readForms_of_ok h
  | succ n _ ih => rw [leftAfter, ih, readProgram_nil]

/-- The readings before the first success fail, and those after it find nothing left. -/
theorem answers_settle (items : List Item) :
    ∃ m ≤ items.length, (∀ n < m, ∃ e, answer items n = .error e) ∧
      (∃ forms, answer items m = .ok forms) ∧
      ∀ n, m < n → leftAfter items n = [] ∧ answer items n = .ok [] := by
  classical
  obtain ⟨k, hk, hok⟩ := exists_answer_ok items
  have hexists : ∃ n, ∃ forms, answer items n = .ok forms := ⟨k, hok⟩
  obtain ⟨forms, hforms⟩ := Nat.find_spec hexists
  refine ⟨Nat.find hexists, (Nat.find_min' hexists hok).trans hk, fun n hn => ?_, ⟨forms, hforms⟩,
    fun n hn => ?_⟩
  · cases h : answer items n with
    | error e => exact ⟨e, rfl⟩
    | ok forms => exact (Nat.find_min hexists hn ⟨forms, h⟩).elim
  · have hleft := leftAfter_of_answer_ok hforms hn
    exact ⟨hleft, answer_of_left_eq_nil hleft⟩

end Readings

/-- The readings of a source, one after the other, divide its items between them: each starts where
the one before it stopped, and takes the items up to the one that does not fit, or all. It answers
what the text from there on reads as, with offsets that count from the start of the source. One that
fails takes an item at least, and all of them if something is pending at the end. After no more
failures than there are items a reading succeeds, and from then on there are no forms left. -/
theorem readings_divide (source : String) :
    ∃ taken : Nat → List Item,
      (∀ n, items source = (List.range n).flatMap taken ++ leftAfter (items source) n) ∧
      (∀ n, leftAfter (items source) n = taken n ++ leftAfter (items source) (n + 1) ∧
        Consumes [] [] (taken n) (answer (items source) n) (leftAfter (items source) (n + 1))) ∧
      (∀ n, ∃ before after, source.toList = before ++ after ∧
        leftAfter (items source) n =
          (items (String.ofList after)).map (Item.move (byteSize before)) ∧
        answer (items source) n =
          (parse (String.ofList after)).mapError (ReadError.move (byteSize before))) ∧
      (∀ n e, answer (items source) n = .error e →
        taken n ≠ [] ∧ (e.AtEnd → leftAfter (items source) (n + 1) = [])) ∧
      ∃ m ≤ (items source).length, (∀ n < m, ∃ e, answer (items source) n = .error e) ∧
        (∃ forms, answer (items source) m = .ok forms) ∧
        ∀ n, m < n → leftAfter (items source) n = [] ∧ answer (items source) n = .ok [] := by
  choose taken htaken hconsumes using
    fun n => readProgram_consumes (leftAfter (items source) n)
  have hall := eq_flatMap_taken htaken
  refine ⟨taken, hall, fun n => ⟨htaken n, hconsumes n⟩, fun n => ?_, fun n e he => ?_,
    answers_settle (items source)⟩
  · have htiling := items_eq_iff.1 (hall n)
    obtain ⟨before, after, hsource, hleft⟩ := htiling.suffix
    rw [Nat.zero_add] at hleft
    exact ⟨before, after, hsource, hleft.readProgram_eq⟩
  · have h := hconsumes n
    rw [answer] at he
    rw [he] at h
    exact ⟨h.ne_nil, h.rest_eq_nil⟩

example : (List.range 3).map (answer (items ") (a")) =
    [.error (.unexpectedToken ⟨.closing, 0, 1⟩), .error (.unterminatedList 2), .ok []] := by cbv

end SmallLisp.Reader
