import Mathlib.Data.List.TakeWhile
import SmallLisp.Proofs.Lexeme

/-!
# Scanning

`scan` takes the lexeme at the front of a text (`scan_taken`), and whatever is a lexeme and ends
there is what it takes (`scan_of_lexeme`).
-/

namespace SmallLisp.Reader

open Text (byteSize)

/-! ## Runs of characters -/

theorem stops_dropWhile (p : Char → Bool) (cs : List Char) : Stops p (cs.dropWhile p) := by
  intro c hc
  have h := List.head?_dropWhile_not p cs
  rw [hc] at h
  simpa using h

section Runs

variable {p : Char → Bool} {run rest : List Char} (hrun : ∀ c ∈ run, p c = true)
  (hrest : Stops p rest)
include hrun hrest

theorem dropWhile_run : (run ++ rest).dropWhile p = rest := by
  rw [List.dropWhile_append_of_pos hrun]
  cases rest with
  | nil => rfl
  | cons c cs => rw [List.dropWhile_cons_of_neg (by simp [hrest c rfl])]

theorem takeWhile_run : (run ++ rest).takeWhile p = run := by
  rw [List.takeWhile_append_of_pos hrun]
  cases rest with
  | nil => simp
  | cons c cs => rw [List.takeWhile_cons_of_neg (by simp [hrest c rfl]), List.append_nil]

end Runs

/-! ## What `scan` takes -/

/-- The piece is a lexeme at the front of a text, and ends where it does. -/
def Piece.TakenFrom (p : Piece) (cs : List Char) : Prop :=
  ∃ text, cs = text ++ p.rest ∧ p.size = byteSize text ∧ Lexeme text p.content ∧
    Follows p.content p.rest

theorem scanString_taken (size : Nat) (read cs : List Char) :
    ∃ body text tail, cs = body ++ (tail ++ (scanString size read cs).rest) ∧ Spells body text ∧
      StringEnd (read.reverse ++ text) tail (scanString size read cs).content ∧
      (scanString size read cs).size = size + (byteSize body + byteSize tail) ∧
      Follows (scanString size read cs).content (scanString size read cs).rest := by
  have hb : '\\'.utf8Size = 1 := rfl
  fun_induction scanString size read cs with
  | case1 size read => exact ⟨[], [], [], rfl, .nil, .unterminated, rfl, rfl⟩
  | case2 size read => exact ⟨[], [], ['\\'], rfl, .nil, .unterminatedEscape, rfl, rfl⟩
  | case3 size read c cs e he ih =>
    obtain ⟨body, text, tail, hcs, hs, ht, hn, hf⟩ := ih
    refine ⟨'\\' :: c :: body, e :: text, tail, ?_, .escape he hs, ?_, ?_, hf⟩
    · rw [List.cons_append, List.cons_append, ← hcs]
    · simpa using ht
    · rw [hn, Text.byteSize_cons, Text.byteSize_cons]
      omega
  | case4 size read c cs he =>
    refine ⟨[], [], ['\\', c], rfl, .nil, .invalidEscape he, ?_, trivial⟩
    simp only [Text.byteSize_cons, Text.byteSize_nil]
    omega
  | case5 size read cs => exact ⟨[], [], ['"'], rfl, .nil, by simpa using .closed, rfl, trivial⟩
  | case6 size read c cs h1 h2 h3 ih =>
    obtain ⟨body, text, tail, hcs, hs, ht, hn, hf⟩ := ih
    have hne : c ≠ '\\' := by
      rintro rfl
      cases cs with
      | nil => exact h1 rfl rfl
      | cons d ds => exact h2 d ds rfl rfl
    refine ⟨c :: body, c :: text, tail, ?_, .plain h3 hne hs, ?_, ?_, hf⟩
    · rw [List.cons_append, ← hcs]
    · simpa using ht
    · rw [hn, Text.byteSize_cons]
      omega

/-- Where a number starts, an optional sign is followed by one digit or more. -/
theorem exists_sign {c : Char} {cs : List Char} (h : startsNumber c cs = true) :
    ∃ sign, c :: cs.takeWhile Char.isDigit =
        sign ++ (if c.isDigit then c :: cs.takeWhile Char.isDigit else cs.takeWhile Char.isDigit) ∧
      IsSign sign ∧
      IsDigits (if c.isDigit then c :: cs.takeWhile Char.isDigit else cs.takeWhile Char.isDigit) ∧
      decide (sign = ['-']) = (c == '-') := by
  have hmore : ∀ d ∈ cs.takeWhile Char.isDigit, d.isDigit = true := fun d => List.mem_takeWhile_imp
  by_cases hc : c.isDigit = true
  · have hne : c ≠ '-' := by rintro rfl; cases hc
    rw [if_pos hc]
    refine ⟨[], rfl, .inl rfl, ⟨List.cons_ne_nil _ _, ?_⟩, by simp [hne]⟩
    exact List.forall_mem_cons.2 ⟨hc, hmore⟩
  · simp only [startsNumber, hc, Bool.false_or, Bool.and_eq_true, Bool.or_eq_true,
      beq_iff_eq] at h
    obtain ⟨hsign, hnext⟩ := h
    have hne : cs.takeWhile Char.isDigit ≠ [] := by
      cases cs with
      | nil => cases hnext
      | cons d ds => simp [show d.isDigit = true from hnext]
    rw [if_neg hc]
    refine ⟨[c], rfl, ?_, ⟨hne, hmore⟩, Bool.eq_iff_iff.2 (by simp)⟩
    rcases hsign with rfl | rfl
    · exact .inr (.inl rfl)
    · exact .inr (.inr rfl)

theorem byteSize_of_isSign {sign : List Char} (h : IsSign sign) : byteSize sign = sign.length := by
  rcases h with rfl | rfl | rfl <;> rfl

theorem byteSize_number {sign digits : List Char} (hs : IsSign sign)
    (hd : ∀ c ∈ digits, c.isDigit = true) :
    byteSize (sign ++ digits) = (sign ++ digits).length := by
  rw [Text.byteSize_append, byteSize_of_isSign hs, Text.byteSize_of_isDigit hd, List.length_append]

theorem scanNumber_taken {c : Char} {cs : List Char} (h : startsNumber c cs = true) :
    (scanNumber c cs).TakenFrom (c :: cs) := by
  obtain ⟨sign, hcs, hsign, hdigits, hneg⟩ := exists_sign h
  have hsplit : c :: cs = c :: cs.takeWhile Char.isDigit ++ cs.dropWhile Char.isDigit := by simp
  have hstop := stops_dropWhile Char.isDigit cs
  have hsize : byteSize (c :: cs.takeWhile Char.isDigit) =
      (cs.takeWhile Char.isDigit).length + 1 := by
    rw [hcs, byteSize_number hsign hdigits.2, ← hcs, List.length_cons]
  unfold scanNumber
  dsimp only
  generalize hw : (if c.isDigit then c :: cs.takeWhile Char.isDigit else cs.takeWhile Char.isDigit)
    = whole at *
  split
  · next rest hrest =>
    have hfraction : ∀ d ∈ rest.takeWhile Char.isDigit, d.isDigit = true :=
      fun d => List.mem_takeWhile_imp
    refine ⟨sign ++ whole ++ '.' :: rest.takeWhile Char.isDigit, ?_, ?_, ?_, stops_dropWhile _ _⟩
    · rw [hsplit, hrest, hcs]
      simp
    · rw [Text.byteSize_append, ← hcs, hsize, Text.byteSize_cons,
        Text.byteSize_of_isDigit hfraction]
      have : '.'.utf8Size = 1 := rfl
      dsimp only
      omega
    · rw [← hneg]
      exact .double hsign hdigits hfraction
  · next hpoint =>
    have hf : (cs.dropWhile Char.isDigit).head? ≠ some '.' := by
      intro hd
      obtain ⟨rest, hr⟩ := List.head?_eq_some_iff.1 hd
      exact hpoint rest hr
    split
    · next n hn =>
      refine ⟨sign ++ whole, by rw [← hcs, ← hsplit], by rw [← hcs, hsize], ?_, hstop, hf⟩
      rw [← hneg] at hn
      exact .int hsign hdigits hn
    · next hn =>
      refine ⟨sign ++ whole, by rw [← hcs, ← hsplit], by rw [← hcs, hsize], ?_, hstop, hf⟩
      rw [← hneg] at hn
      rw [hcs]
      exact .invalidNumber hsign hdigits hn

theorem startsNumber_takeWhile {c : Char} {cs : List Char} (h : startsNumber c cs = false)
    {p : Char → Bool} : startsNumber c (cs.takeWhile p) = false := by
  cases cs with
  | nil => exact h
  | cons d ds =>
    by_cases hd : p d = true
    · simpa [startsNumber, hd] using h
    · simp_all [startsNumber]

theorem scanSymbol_taken {c : Char} {cs : List Char} (hn : startsNumber c cs = false)
    (hc : isSymbolChar c = true) : (scanSymbol c cs).TakenFrom (c :: cs) := by
  have hall : ∀ d ∈ c :: cs.takeWhile isSymbolChar, isSymbolChar d = true :=
    List.forall_mem_cons.2 ⟨hc, fun d => List.mem_takeWhile_imp⟩
  have hstop := stops_dropWhile isSymbolChar cs
  refine ⟨c :: cs.takeWhile isSymbolChar, by simp [scanSymbol], rfl, ?_⟩
  unfold scanSymbol
  dsimp only
  split
  · next h =>
    rw [show c :: cs.takeWhile isSymbolChar = "true".toList by rw [← h, String.toList_ofList]]
    exact ⟨.truth, hstop⟩
  · next h =>
    rw [show c :: cs.takeWhile isSymbolChar = "false".toList by rw [← h, String.toList_ofList]]
    exact ⟨.falsehood, hstop⟩
  · next ht hf =>
    refine ⟨.symbol hall (startsNumber_takeWhile hn) (fun h => ht ?_) (fun h => hf ?_), hstop⟩
    · rw [h, String.ofList_toList]
    · rw [h, String.ofList_toList]

/-- `scan` takes a lexeme. -/
theorem scan_taken {c : Char} (cs : List Char) (h : StartsItem c) :
    (scan c cs).TakenFrom (c :: cs) := by
  unfold scan
  split_ifs with h1 h2 h3 h4 h5 h6
  · exact ⟨['('], by rw [h1]; rfl, rfl, .opening, trivial⟩
  · exact ⟨[')'], by rw [h2]; rfl, rfl, .closing, trivial⟩
  · exact ⟨['\''], by rw [h3]; rfl, rfl, .quote, trivial⟩
  · obtain ⟨body, text, tail, hcs, hs, ht, hn, hf⟩ := scanString_taken 1 [] cs
    exact ⟨'"' :: (body ++ tail), by rw [h4, List.cons_append, List.append_assoc, ← hcs],
      by rw [hn, Text.byteSize_cons, Text.byteSize_append]; rfl, .string hs ht, hf⟩
  · exact scanNumber_taken h5
  · exact scanSymbol_taken (by simpa using h5) h6
  · exact ⟨[c], rfl, by simp, .unexpected (by simp [h1, h2, h3, h4, h.1]) (by simpa using h6) h.2,
      trivial⟩

/-! ## What `scan` makes of a lexeme -/

/-- The first character of a text starts an item, and `scan` takes the text from it on. -/
def Takes (text rest : List Char) (content : Except Fault Token) : Prop :=
  ∃ c cs, text = c :: cs ∧ scan c (cs ++ rest) = ⟨content, byteSize text, rest⟩ ∧ StartsItem c

theorem scanString_spelled {body text : List Char} (h : Spells body text) (size : Nat)
    (read cs : List Char) :
    scanString size read (body ++ cs) =
      scanString (size + byteSize body) (text.reverse ++ read) cs := by
  induction h generalizing size read with
  | nil => rfl
  | @plain c body text hq hb _ ih =>
    rw [List.cons_append, scanString, ih]
    · simp [Nat.add_assoc]
    · exact fun e _ => hb e
    · exact fun _ _ e _ => hb e
    · exact hq
  | @escape letter c body text he _ ih =>
    have : '\\'.utf8Size = 1 := rfl
    rw [List.cons_append, List.cons_append, scanString, he]
    simp only [ih, Text.byteSize_cons, List.reverse_cons, List.append_assoc, List.singleton_append]
    congr 1
    omega

theorem scanString_end {read tail rest : List Char} {content : Except Fault Token}
    (h : StringEnd read.reverse tail content) (hf : Follows content rest) (size : Nat) :
    scanString size read (tail ++ rest) = ⟨content, size + byteSize tail, rest⟩ := by
  have hb : '\\'.utf8Size = 1 := rfl
  cases h with
  | closed => rfl
  | @invalidEscape c he =>
    rw [List.cons_append, List.singleton_append, scanString, he]
    simp [hb, Nat.add_assoc]
  | unterminated =>
    obtain rfl : rest = [] := hf
    rfl
  | unterminatedEscape =>
    obtain rfl : rest = [] := hf
    rfl

/-- The first character of a number and the digits after it. -/
theorem exists_first {sign digits : List Char} (hs : IsSign sign) (hd : IsDigits digits) :
    ∃ c cs, sign ++ digits = c :: cs ∧ (∀ d ∈ cs, d.isDigit = true) ∧
      (if c.isDigit then c :: cs else cs) = digits ∧ (c == '-') = decide (sign = ['-']) ∧
      ∀ rest, startsNumber c (cs ++ rest) = true := by
  obtain ⟨d, ds, rfl⟩ := List.exists_cons_of_ne_nil hd.1
  obtain ⟨hd, hds⟩ := List.forall_mem_cons.1 hd.2
  rcases hs with rfl | rfl | rfl
  · have hne : d ≠ '-' := by rintro rfl; cases hd
    exact ⟨d, ds, rfl, hds, by rw [if_pos hd], by simp [hne], fun _ => by simp [startsNumber, hd]⟩
  · exact ⟨'+', d :: ds, rfl, List.forall_mem_cons.2 ⟨hd, hds⟩, rfl, rfl,
      fun _ => by simp [startsNumber, hd]⟩
  · exact ⟨'-', d :: ds, rfl, List.forall_mem_cons.2 ⟨hd, hds⟩, rfl, rfl,
      fun _ => by simp [startsNumber, hd]⟩

theorem not_mem_of_isSymbolChar {c : Char} (h : isSymbolChar c = true) :
    c ∉ ['(', ')', '\'', '"', ';'] := by
  have hall : (['(', ')', '\'', '"', ';'].all fun d => !isSymbolChar d) = true := by decide
  intro hc
  have := List.all_eq_true.1 hall c hc
  rw [h] at this
  cases this

theorem isSymbolChar_of_startsNumber {c : Char} {cs : List Char} (h : startsNumber c cs = true) :
    isSymbolChar c = true := by
  simp only [startsNumber, Bool.or_eq_true, Bool.and_eq_true, beq_iff_eq] at h
  rcases h with h | ⟨rfl | rfl, _⟩
  · exact isSymbolChar_of_isDigit h
  · decide
  · decide

theorem scan_of_startsNumber {c : Char} {cs : List Char} (h : startsNumber c cs = true) :
    scan c cs = scanNumber c cs := by
  have hc := not_mem_of_isSymbolChar (isSymbolChar_of_startsNumber h)
  simp only [List.mem_cons, not_or] at hc
  simp [scan, hc, h]

theorem scan_of_isSymbolChar {c : Char} {cs : List Char} (h : isSymbolChar c = true)
    (hn : startsNumber c cs = false) : scan c cs = scanSymbol c cs := by
  have hc := not_mem_of_isSymbolChar h
  simp only [List.mem_cons, not_or] at hc
  simp [scan, hc, h, hn]

section Numbers

variable {c : Char} {cs digits : List Char} {negative : Bool} (hcs : ∀ d ∈ cs, d.isDigit = true)
  (hdigits : (if c.isDigit then c :: cs else cs) = digits) (hneg : (c == '-') = negative)
include hcs hdigits hneg

theorem scanNumber_whole {rest : List Char} (hr : Stops Char.isDigit rest)
    (hp : rest.head? ≠ some '.') :
    scanNumber c (cs ++ rest) = ⟨(Integer.ofDigits? negative digits).elim
      (.error (.invalidNumber (String.ofList (c :: cs)))) fun n => .ok (.int n),
      cs.length + 1, rest⟩ := by
  unfold scanNumber
  simp only [takeWhile_run hcs hr, dropWhile_run hcs hr, hdigits, hneg]
  split
  · next h => exact (hp rfl).elim
  · cases Integer.ofDigits? negative digits <;> rfl

theorem scanNumber_point {fraction rest : List Char} (hf : ∀ d ∈ fraction, d.isDigit = true)
    (hr : Stops Char.isDigit rest) :
    scanNumber c (cs ++ ('.' :: (fraction ++ rest))) =
      ⟨.ok (.double (.ofDecimal negative (.ofDigits digits fraction))),
        cs.length + fraction.length + 2, rest⟩ := by
  have hpoint : Stops Char.isDigit ('.' :: (fraction ++ rest)) := by
    rintro d ⟨⟩
    rfl
  unfold scanNumber
  simp only [takeWhile_run hcs hpoint, dropWhile_run hcs hpoint, takeWhile_run hf hr,
    dropWhile_run hf hr, hdigits, hneg]

end Numbers

theorem startsItem_of_isSymbolChar {c : Char} (h : isSymbolChar c = true) : StartsItem c := by
  constructor
  · rintro rfl
    revert h
    decide
  · by_contra hb
    have := isSymbolChar_of_isBlank (by simpa using hb)
    exact Bool.false_ne_true (this.symm.trans h)

section Numbers

variable {sign digits rest : List Char} (hs : IsSign sign) (hd : IsDigits digits)
  (hr : Stops Char.isDigit rest)
include hs hd hr

theorem takes_whole (hp : rest.head? ≠ some '.') :
    Takes (sign ++ digits) rest ((Integer.ofDigits? (sign = ['-']) digits).elim
      (.error (.invalidNumber (String.ofList (sign ++ digits)))) fun n => .ok (.int n)) := by
  obtain ⟨c, cs, htext, hcs, hdigits, hneg, hstart⟩ := exists_first hs hd
  have hsymbol := isSymbolChar_of_startsNumber (hstart rest)
  refine ⟨c, cs, htext, ?_, startsItem_of_isSymbolChar hsymbol⟩
  rw [scan_of_startsNumber (hstart rest), scanNumber_whole hcs hdigits hneg hr hp,
    byteSize_number hs hd.2, htext, List.length_cons]

theorem takes_point {fraction : List Char} (hf : ∀ c ∈ fraction, c.isDigit = true) :
    Takes (sign ++ digits ++ '.' :: fraction) rest
      (.ok (.double (.ofDecimal (sign = ['-']) (.ofDigits digits fraction)))) := by
  obtain ⟨c, cs, htext, hcs, hdigits, hneg, hstart⟩ := exists_first hs hd
  have hsymbol := isSymbolChar_of_startsNumber (hstart rest)
  refine ⟨c, cs ++ '.' :: fraction, by rw [htext, List.cons_append], ?_,
    startsItem_of_isSymbolChar hsymbol⟩
  have hp : '.'.utf8Size = 1 := rfl
  rw [List.append_assoc, List.cons_append, scan_of_startsNumber (hstart _),
    scanNumber_point hcs hdigits hneg hf hr, Text.byteSize_append, byteSize_number hs hd.2,
    htext, Text.byteSize_cons, Text.byteSize_of_isDigit hf]
  simp only [List.length_cons, Piece.mk.injEq, true_and, and_true]
  omega

end Numbers

theorem startsNumber_append {c : Char} {cs rest : List Char} (h : startsNumber c cs = false)
    (hr : Stops isSymbolChar rest) : startsNumber c (cs ++ rest) = false := by
  cases cs with
  | cons d ds => exact h
  | nil =>
    cases rest with
    | nil => exact h
    | cons d ds =>
      have hd : d.isDigit = false := by
        by_contra hd
        have hs := isSymbolChar_of_isDigit (c := d) (by simpa using hd)
        exact Bool.false_ne_true ((hr d rfl).symm.trans hs)
      simpa [startsNumber, hd] using h

theorem takes_word {c : Char} {cs rest : List Char} (hall : ∀ d ∈ c :: cs, isSymbolChar d = true)
    (hn : startsNumber c cs = false) (hr : Stops isSymbolChar rest) :
    Takes (c :: cs) rest (scanSymbol c cs).content := by
  obtain ⟨hc, hcs⟩ := List.forall_mem_cons.1 hall
  have hself : cs.takeWhile isSymbolChar = cs := List.takeWhile_eq_self_iff.2 hcs
  refine ⟨c, cs, rfl, ?_, startsItem_of_isSymbolChar hc⟩
  rw [scan_of_isSymbolChar hc (startsNumber_append hn hr)]
  simp only [scanSymbol, takeWhile_run hcs hr, dropWhile_run hcs hr, hself]

theorem content_scanSymbol {c : Char} {cs : List Char} (hcs : ∀ d ∈ cs, isSymbolChar d = true)
    (ht : c :: cs ≠ "true".toList) (hf : c :: cs ≠ "false".toList) :
    (scanSymbol c cs).content = .ok (.sym (String.ofList (c :: cs))) := by
  have hself : cs.takeWhile isSymbolChar = cs := List.takeWhile_eq_self_iff.2 hcs
  simp only [scanSymbol, hself]
  split
  · next h => exact (ht (by rw [← h, String.toList_ofList])).elim
  · next h => exact (hf (by rw [← h, String.toList_ofList])).elim
  · rfl

/-- `scan` takes a whole lexeme where it ends. -/
theorem scan_of_lexeme {text rest : List Char} {content : Except Fault Token}
    (h : Lexeme text content) (hf : Follows content rest) : Takes text rest content := by
  cases h with
  | opening => exact ⟨'(', [], rfl, rfl, by decide⟩
  | closing => exact ⟨')', [], rfl, rfl, by decide⟩
  | quote => exact ⟨'\'', [], rfl, rfl, by decide⟩
  | @string body text tail _ hs ht =>
    refine ⟨'"', body ++ tail, rfl, ?_, by decide⟩
    have hq : '"'.utf8Size = 1 := rfl
    rw [show scan '"' (body ++ tail ++ rest) = scanString 1 [] (body ++ tail ++ rest) from rfl,
      List.append_assoc, scanString_spelled hs, scanString_end (by simpa using ht) hf]
    simp only [Text.byteSize_cons, Text.byteSize_append, hq, Nat.add_assoc]
  | int hs hd hn =>
    have := takes_whole hs hd hf.1 hf.2
    rwa [hn] at this
  | invalidNumber hs hd hn =>
    have := takes_whole hs hd hf.1 hf.2
    rwa [hn] at this
  | double hs hd hfraction => exact takes_point hs hd hf hfraction
  | truth => exact takes_word (List.all_eq_true.1 (by decide)) (by decide) hf
  | falsehood => exact takes_word (List.all_eq_true.1 (by decide)) (by decide) hf
  | symbol hall hn ht hfalse =>
    rw [← content_scanSymbol (List.forall_mem_cons.1 hall).2 ht hfalse]
    exact takes_word hall hn hf
  | @unexpected c hc hsym hb =>
    have hn : startsNumber c rest = false := by
      by_contra hn
      have := isSymbolChar_of_startsNumber (by simpa using hn)
      exact Bool.false_ne_true (hsym.symm.trans this)
    simp only [List.mem_cons, not_or] at hc
    refine ⟨c, [], rfl, ?_, hc.2.2.2.2.1, hb⟩
    simp [scan, hc, hn, hsym]

end SmallLisp.Reader
