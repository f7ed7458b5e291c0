import SmallLisp.CommandLine.Program
import SmallLisp.Proofs.Joined
import SmallLisp.Proofs.Session

/-!
# Scripts and interactive sessions

An interactive session evaluates line after line, and shows after each one what it printed, and its
value or its error (`run_eq_exchanges`). A script of the same lines is read as a whole, and ends
with the first error. But if each line can be read by itself, then the script reads as its lines one
after the other, and the text printed before has no influence on what comes. So the script prints
just what the session prints up to the first line that fails (`script_agrees_with_session`).
-/

namespace SmallLisp

namespace SourceError

/-- The error of an outcome. -/
def of? {α : Type} : Except SourceError α → Option SourceError
  | .ok _ => none
  | .error e => some e

/-- What a session says before the cause of an error, by the stage that failed. -/
def sessionHeading : Stage → String
  | .lexing => "Error reading input:\n"
  | .parsing => "Error parsing input:\n"
  | .evaluation => "Error evaluating:\n"

/-- What a script says before it. -/
def scriptHeading : Stage → String
  | .lexing => "Lexing error: "
  | .parsing => "Parsing error: "
  | .evaluation => "Evaluation error: "

theorem description_eq (e : SourceError) : e.description = sessionHeading e.stage ++ e.cause := by
  unfold description
  cases e.stage <;> rfl

theorem message_eq (e : SourceError) : e.message = scriptHeading e.stage ++ e.cause := by
  unfold message
  cases e.stage <;> rfl

end SourceError

namespace Repl

/-- A line of a session: the text that it printed, and the value or error that it ended with. A
blank line is not evaluated. -/
structure Exchange where
  printed : String
  result : Option (Except SourceError Value)

namespace Exchange

/-- What the session writes for the line, after the prompt. -/
def reply (x : Exchange) : Reply :=
  match x.result with
  | none => ⟨x.printed, ""⟩
  | some (.ok v) => ⟨x.printed ++ v.render ++ "\n", ""⟩
  | some (.error e) => ⟨x.printed, SourceError.sessionHeading e.stage ++ e.cause ++ "\n"⟩

/-- The error that the line ended with. -/
def error? (x : Exchange) : Option SourceError := x.result.bind SourceError.of?

/-- What the program printed for all the lines. -/
def printedAll (xs : List Exchange) : String := String.join (xs.map printed)

/-- All that a session writes: the banner, and a prompt for each line and for the end. -/
def transcript (xs : List Exchange) : Transcript where
  code := 0
  out := banner ++ String.join (xs.map fun x => prompt ++ x.reply.out) ++ prompt
  err := String.join (xs.map fun x => x.reply.err)

end Exchange

variable (depth : Nat) (env : Env)

/-- Evaluates a line that is not blank, and takes the text that it printed. -/
def exchange (line : String) (s : State) : Option (Exchange × State) :=
  if Text.isBlankText line then some (⟨"", none⟩, s)
  else (evaluateSource depth line env s).map fun (result, s') =>
    (⟨s'.output, some result⟩, s'.takeOutput.2)

/-- Evaluates lines one after the other, also after one that fails. -/
def exchanges : List String → State → Option (List Exchange)
  | [], _ => some []
  | line :: lines, s => (exchange depth env line s).bind fun (x, s') =>
    (exchanges lines s').map (x :: ·)

/-! ## What a session writes -/

variable {depth env}

theorem respond_eq (line : String) (s : State) :
    respond depth env line s = (exchange depth env line s).map fun (x, s') => (x.reply, s') := by
  unfold respond exchange
  split
  · rfl
  · cases evaluateSource depth line env s with
    | none => rfl
    | some p =>
      obtain ⟨_ | _, _⟩ := p
      · simp only [SourceError.description_eq]
        rfl
      · rfl

theorem session_eq (lines : List String) (s : State) :
    session depth env lines s = (exchanges depth env lines s).map fun xs =>
      ⟨String.join (xs.map fun x => prompt ++ x.reply.out) ++ prompt,
        String.join (xs.map fun x => x.reply.err)⟩ := by
  induction lines generalizing s with
  | nil => simp [session, exchanges, String.join]
  | cons line lines ih =>
    rw [session, respond_eq, exchanges]
    cases exchange depth env line s with
    | none => rfl
    | some p =>
      obtain ⟨x, s'⟩ := p
      simp only [Option.map_some, Option.bind_some, ih, Option.map_map]
      congr 1
      funext xs
      simp [String.join_cons, String.append_assoc]

theorem run_eq_exchanges {input : String} {lines : List String} (h : lines = Repl.lines input) :
    run depth input = (exchanges depth State.empty.pushGlobal.1 lines State.empty.pushGlobal.2).map
      Exchange.transcript := by
  subst h
  dsimp only [run]
  rw [session_eq, Option.map_map]
  refine congrArg (Option.map · _) (funext fun xs => ?_)
  simp [Exchange.transcript, String.append_assoc]

/-! ## Up to an error -/

variable (depth env) in
/-- Evaluates lines up to the first one that fails, this one included. -/
def untilError : List String → State → Option (List Exchange)
  | [], _ => some []
  | line :: lines, s => (exchange depth env line s).bind fun (x, s') =>
    if x.error?.isSome then some [x] else (untilError lines s').map (x :: ·)

theorem length_exchanges {lines : List String} {s : State} {xs : List Exchange}
    (h : exchanges depth env lines s = some xs) : xs.length = lines.length := by
  induction lines generalizing s xs with
  | nil =>
    cases h
    rfl
  | cons line lines ih =>
    obtain ⟨⟨x, s'⟩, -, h⟩ := Option.bind_eq_some_iff.1 h
    obtain ⟨xs, hxs, rfl⟩ := Option.map_eq_some_iff.1 h
    rw [List.length_cons, List.length_cons, ih hxs]

/-- These are the exchanges of the first lines, of which only the last may have failed. If it has
not, they are all the lines. -/
theorem untilError_eq_some_iff {lines : List String} {s : State} {xs : List Exchange} :
    untilError depth env lines s = some xs ↔
      ∃ k, exchanges depth env (lines.take k) s = some xs ∧
        (∀ x ∈ xs.dropLast, x.error? = none) ∧
        (lines.length ≤ k ∨ ∃ x, xs.getLast? = some x ∧ x.error?.isSome) := by
  induction lines generalizing s xs with
  | nil =>
    simp only [untilError, List.take_nil, exchanges, Option.some.injEq]
    constructor
    · rintro rfl
      exact ⟨0, rfl, List.forall_mem_nil _, .inl (Nat.le_refl 0)⟩
    · rintro ⟨k, hxs, -⟩
      exact hxs
  | cons line lines ih =>
    rw [untilError]
    constructor
    · intro h
      obtain ⟨⟨x, s'⟩, hx, h⟩ := Option.bind_eq_some_iff.1 h
      dsimp only at h
      split_ifs at h with herror
      · cases h
        refine ⟨1, ?_, List.forall_mem_nil _, .inr ⟨x, rfl, herror⟩⟩
        simp [exchanges, hx]
      · obtain ⟨xs, hxs, rfl⟩ := Option.map_eq_some_iff.1 h
        obtain ⟨k, hk, hinit, hend⟩ := ih.1 hxs
        refine ⟨k + 1, by simp [exchanges, hx, hk], ?_, ?_⟩
        · cases xs with
          | nil => exact List.forall_mem_nil _
          | cons y xs => exact List.forall_mem_cons.2 ⟨by simpa using herror, hinit⟩
        · rcases hend with hlength | ⟨y, hy, hfailed⟩
          · exact .inl (Nat.succ_le_succ hlength)
          · exact .inr ⟨y, by rw [List.getLast?_cons, hy]; rfl, hfailed⟩
    · rintro ⟨k, hk, hinit, hend⟩
      cases k with
      | zero =>
        cases hk
        simp at hend
      | succ k =>
        rw [List.take_succ_cons, exchanges] at hk
        obtain ⟨⟨x, s'⟩, hx, hk⟩ := Option.bind_eq_some_iff.1 hk
        obtain ⟨xs, hxs, rfl⟩ := Option.map_eq_some_iff.1 hk
        rw [hx, Option.bind_some]
        dsimp only
        cases xs with
        | nil =>
          split_ifs with herror
          · rfl
          · have hlength : lines.length ≤ k := by
              rcases hend with hlength | ⟨y, hy, hfailed⟩
              · exact Nat.le_of_succ_le_succ hlength
              · cases hy
                exact (herror hfailed).elim
            rw [ih.2 ⟨k, hxs, List.forall_mem_nil _, .inl hlength⟩]
            rfl
        | cons y xs =>
          obtain ⟨herror, hinit⟩ := List.forall_mem_cons.1 hinit
          rw [herror, if_neg (by simp)]
          rw [ih.2 ⟨k, hxs, hinit, hend.imp Nat.le_of_succ_le_succ id⟩]
          rfl

end Repl

/-! ## Lines that can be read -/

/-- Lines as the text of a script. -/
def joined (lines : List String) : String := "\n".intercalate lines

theorem joined_cons_cons (line line' : String) (lines : List String) :
    joined (line :: line' :: lines) = line ++ "\n" ++ joined (line' :: lines) :=
  String.intercalate_cons_cons

theorem parse_of_isBlankText {line : String} (h : Text.isBlankText line = true) :
    Reader.parse line = .ok [] := by
  have htrivia : Reader.Trivia [] line.toList := by
    rw [Text.isBlankText, List.all_eq_true] at h
    generalize line.toList = cs at h
    induction cs with
    | nil => exact .nil
    | cons c cs ih =>
      obtain ⟨hc, hcs⟩ := List.forall_mem_cons.1 h
      exact .blank hc (ih hcs)
  have hitems : Reader.items line = [] := Reader.items_eq_iff.2 (.done htrivia)
  rw [Reader.parse, hitems, Reader.readProgram, Reader.readForms]
  rfl

theorem exists_parse_joined {lines : List String}
    (h : ∀ line ∈ lines, ∃ forms, Reader.parse line = .ok forms) :
    ∃ forms, Reader.parse (joined lines) = .ok forms := by
  induction lines with
  | nil => exact ⟨[], parse_of_isBlankText rfl⟩
  | cons line lines ih =>
    obtain ⟨⟨forms, hforms⟩, hlines⟩ := List.forall_mem_cons.1 h
    cases lines with
    | nil => exact ⟨forms, hforms⟩
    | cons line' lines =>
      obtain ⟨forms', hforms'⟩ := ih hlines
      rw [joined_cons_cons]
      exact ⟨_, ((evaluateSource_joined hforms).1 forms' hforms').1⟩

section Lines

variable (depth : Nat) (env : Env)

/-- Evaluates lines as a script, of which the value does not matter. -/
def evaluateLines (lines : List String) : Run SourceError Unit := do
  let _ ← evaluateSource depth (joined lines) env
  pure ()

variable {depth env}

theorem evaluateLines_nil : evaluateLines depth env [] = pure () := by
  have hparse : Reader.parse (joined []) = .ok [] := parse_of_isBlankText rfl
  rw [evaluateLines, evaluateSource_of_parse hparse]
  rfl

theorem evaluateLines_cons {line : String} {lines : List String}
    (h : ∀ l ∈ line :: lines, ∃ forms, Reader.parse l = .ok forms) :
    evaluateLines depth env (line :: lines) =
      evaluateSource depth line env >>= fun _ => evaluateLines depth env lines := by
  obtain ⟨⟨forms, hforms⟩, hlines⟩ := List.forall_mem_cons.1 h
  cases lines with
  | nil =>
    rw [evaluateLines_nil]
    rfl
  | cons line' lines =>
    obtain ⟨forms', hforms'⟩ := exists_parse_joined hlines
    rw [evaluateLines, joined_cons_cons,
      ((evaluateSource_joined hforms).1 forms' hforms').2 depth env]
    simp only [evaluateLines, bind_assoc, pure_bind]

/-! ## The text printed before -/

/-- From states that differ in the text printed before, a source ends with the same value or error,
and prints the same. -/
theorem evaluateSource_mirror {printed printed' : String} {s t : State}
    (hst : (mirror .id printed printed').states s t) (henv : s.Allocated env) (source : String) :
    (evaluateSource depth source env s = none ∧ evaluateSource depth source env t = none) ∨
      ∃ result s' t', evaluateSource depth source env s = some (result, s') ∧
        evaluateSource depth source env t = some (result, t') ∧ s.Grows s' ∧
        (mirror .id printed printed').states s' t' := by
  cases hforms : Reader.parse source with
  | error e =>
    rw [evaluateSource_of_parse_error hforms]
    exact .inr ⟨_, s, t, rfl, rfl, .refl s, hst⟩
  | ok forms =>
    have hsound (e : Value) (he : e ∈ forms) : e.Sound s.Knows :=
      Value.Legible.sound e (Reader.legible_of_parse hforms e he)
    have hagree := Lockstep.evalBody_agree (Lockstep.eval_agrees _ depth) hst
      fun e he => ⟨henv, hsound e he⟩
    rw [Renaming.env_id, Value.rename_id, List.map_id] at hagree
    rw [evaluateSource_of_parse hforms]
    unfold Run.mapError
    cases hagree with
    | endless hx hy => exact .inl ⟨by rw [hx], by rw [hy]⟩
    | value hx hy hs hst' hv =>
      obtain ⟨rfl, -⟩ := hv
      exact .inr ⟨_, _, _, by rw [hx], by rw [hy, Value.rename_id]; rfl, hs, hst'⟩
    | error hx hy hs hst' he =>
      exact .inr ⟨_, _, _, by rw [hx], by rw [hy, EvalError.rename_id]; rfl, hs, hst'⟩

/-- The session takes the text that was printed. -/
theorem takeOutput_mirror {printed : String} {s t : State}
    (hst : (mirror .id "" printed).states s t) :
    s.takeOutput.2.output = "" ∧ t.output = printed ++ s.output ∧
      (mirror .id "" (printed ++ s.output)).states s.takeOutput.2 t := by
  obtain ⟨hs, hmirrors, text, htext, htext'⟩ := hst
  obtain rfl : s.output = text := by simpa using htext
  refine ⟨rfl, htext', hs.of_frames rfl (Nat.le_refl _), ⟨hmirrors.frame, hmirrors.size,
    hmirrors.closures⟩, "", rfl, by simpa using htext'⟩

open Repl in
/-- As a script the lines print what they print in a session up to the first error, and end with
it. -/
theorem evaluateLines_eq {lines : List String}
    (h : ∀ line ∈ lines, ∃ forms, Reader.parse line = .ok forms) {printed : String} {s t : State}
    (hst : (mirror .id "" printed).states s t) (hs : s.output = "") (henv : s.Allocated env) :
    (evaluateLines depth env lines t).map (fun p => (SourceError.of? p.1, p.2.output)) =
      (untilError depth env lines s).map fun xs =>
        (xs.getLast?.bind Exchange.error?, printed ++ Exchange.printedAll xs) := by
  induction lines generalizing s t printed with
  | nil =>
    have houtput := (takeOutput_mirror hst).2.1
    rw [evaluateLines_nil]
    simp [pure, Run.pure, untilError, SourceError.of?, Exchange.printedAll, String.join, houtput,
      hs]
  | cons line lines ih =>
    obtain ⟨⟨forms, hforms⟩, hlines⟩ := List.forall_mem_cons.1 h
    rw [evaluateLines_cons h, untilError, exchange]
    -- After a line without an error the script goes on as the session does.
    have hnext {x : Exchange} {s' t' : State} (hx : x.error? = none)
        (hst' : (mirror .id "" (printed ++ x.printed)).states s' t') (hs' : s'.output = "")
        (henv' : s'.Allocated env) :
        (evaluateLines depth env lines t').map (fun p => (SourceError.of? p.1, p.2.output)) =
          ((untilError depth env lines s').map (x :: ·)).map fun xs =>
            (xs.getLast?.bind Exchange.error?, printed ++ Exchange.printedAll xs) := by
      rw [ih hlines hst' hs' henv', Option.map_map]
      refine congrArg (Option.map · _) (funext fun xs => ?_)
      cases xs with
      | nil => simp [Exchange.printedAll, hx, String.join]
      | cons y xs => simp [Exchange.printedAll, String.join_cons, String.append_assoc]
    split_ifs with hblank
    · have hline : evaluateSource depth line env t = some (.ok .nil, t) := by
        rw [evaluateSource_of_parse (parse_of_isBlankText hblank)]
        rfl
      rw [Run.bind_of_ok hline]
      exact hnext rfl (by simpa using hst) hs henv
    · rcases evaluateSource_mirror hst henv line with
        ⟨hx, hy⟩ | ⟨result, s', t', hx, hy, hgrows, hst'⟩
      · rw [Run.bind_of_none hy, hx]
        rfl
      · obtain ⟨hempty, houtput, htaken⟩ := takeOutput_mirror hst'
        rw [hx]
        cases result with
        | error e =>
          rw [Run.bind_of_error hy]
          simp [SourceError.of?, Exchange.error?, Exchange.printedAll, String.join, houtput]
        | ok v =>
          rw [Run.bind_of_ok hy]
          exact hnext rfl htaken hempty (hgrows.allocated henv)

end Lines

/-! ## What a script writes -/

namespace Repl

/-- What a script writes that has printed a text and then ended, perhaps with an error. -/
def scriptEnd (error : Option SourceError) (printed : String) : Transcript :=
  match error with
  | none => ⟨0, printed, ""⟩
  | some e => ⟨1, printed, SourceError.scriptHeading e.stage ++ e.cause ++ "\n"⟩

/-- What a script writes for lines that were evaluated up to an error. -/
def Exchange.scriptTranscript (xs : List Exchange) : Transcript :=
  scriptEnd (xs.getLast?.bind error?) (printedAll xs)

theorem runSource_eq (depth : Nat) (lines : List String) :
    CommandLine.runSource depth (joined lines) =
      ((evaluateLines depth State.empty.pushGlobal.1 lines State.empty.pushGlobal.2).map
        fun p => (SourceError.of? p.1, p.2.output)).map fun q => scriptEnd q.1 q.2 := by
  rw [CommandLine.runSource, evaluateAlone, evaluateLines]
  cases hrun : evaluateSource depth (joined lines) State.empty.pushGlobal.1
      State.empty.pushGlobal.2 with
  | none =>
    rw [Run.bind_of_none hrun]
    simp [hrun]
  | some p =>
    obtain ⟨e | v, s⟩ := p
    · rw [Run.bind_of_error hrun]
      simp [hrun, SourceError.of?, scriptEnd, CommandLine.failure, SourceError.message_eq]
    · rw [Run.bind_of_ok hrun]
      simp [hrun, SourceError.of?, scriptEnd, pure, Run.pure]

theorem runSource_joined (depth : Nat) {lines : List String}
    (h : ∀ line ∈ lines, ∃ forms, Reader.parse line = .ok forms) :
    CommandLine.runSource depth (joined lines) =
      (untilError depth State.empty.pushGlobal.1 lines State.empty.pushGlobal.2).map
        Exchange.scriptTranscript := by
  have hglobal : State.empty.pushGlobal.2.Wellformed :=
    State.Wellformed.empty.push (fun _ h => by cases h) Session.sound_library
  have henv : State.empty.pushGlobal.2.Allocated State.empty.pushGlobal.1 :=
    State.allocated_fst_push _ _
  rw [runSource_eq, evaluateLines_eq h hglobal.mirror_self rfl henv, Option.map_map]
  refine congrArg (Option.map · _) (funext fun xs => ?_)
  simp [Exchange.scriptTranscript, State.pushGlobal, State.push, State.empty]

/-- The line is read as it is: it has no line feed, no backspace and no carriage return at its
end. -/
def IsTyped (line : String) : Prop :=
  '\n' ∉ line.toList ∧ '\x08' ∉ line.toList ∧ line.toList.getLast? ≠ some '\r'

theorem linesFrom_append {cs : List Char} (hcs : '\n' ∉ cs) (read rest : List Char) :
    linesFrom read (cs ++ '\n' :: rest) = (read.reverse ++ cs ++ ['\n']) :: linesFrom [] rest := by
  induction cs generalizing read with
  | nil => simp [linesFrom]
  | cons c cs ih =>
    obtain ⟨hc, hcs⟩ := not_or.1 (mt List.mem_cons.2 hcs)
    rw [List.cons_append, linesFrom, ih hcs]
    · simp
    · exact Ne.symm hc

theorem dropEnding_append {cs : List Char} (h : cs.getLast? ≠ some '\r') :
    dropEnding (cs ++ ['\n']) = cs := by
  rw [List.getLast?_eq_head?_reverse] at h
  have hreverse : (cs ++ ['\n']).reverse = '\n' :: cs.reverse := by simp
  rw [dropEnding, hreverse]
  split
  · next rest hsplit =>
    rw [(List.cons.inj hsplit).2] at h
    exact (h rfl).elim
  · next rest _ hsplit => rw [← (List.cons.inj hsplit).2, List.reverse_reverse]
  · next hother => exact (hother _ rfl).elim

theorem lineText_of_isTyped {line : String} (h : IsTyped line) :
    lineText (line.toList ++ ['\n']) = line := by
  rw [lineText, dropEnding_append h.2.2, Text.applyBackspaces_of_not_mem h.2.1,
    String.ofList_toList]

theorem lines_of_isTyped {lines : List String} (h : ∀ line ∈ lines, IsTyped line) :
    Repl.lines (String.join (lines.map (· ++ "\n"))) = lines := by
  induction lines with
  | nil => rfl
  | cons line lines ih =>
    obtain ⟨hline, hlines⟩ := List.forall_mem_cons.1 h
    have hrest := ih hlines
    rw [Repl.lines] at hrest ⊢
    rw [List.map_cons, String.join_cons, String.toList_append, String.toList_append,
      List.append_assoc]
    have hfirst := linesFrom_append hline.1 [] (String.join (lines.map (· ++ "\n"))).toList
    have hnewline : "\n".toList ++ (String.join (lines.map (· ++ "\n"))).toList =
        '\n' :: (String.join (lines.map (· ++ "\n"))).toList := rfl
    rw [hnewline, hfirst, List.map_cons, hrest, List.reverse_nil, List.nil_append,
      lineText_of_isTyped hline]

end Repl

open Repl in
/-- Let each of some lines read by itself, and let the input of a session be read as these lines.
Then the session writes its banner, a prompt for each line and for the end, after each line the text
that it printed and its value or its error, and it succeeds. As a script the lines print the texts
that they print in the session up to the first line that fails, and end with its error, or succeed
if there is none. Lines that have no characters for editing are read as they are. -/
theorem script_agrees_with_session (depth : Nat) {lines : List String}
    (h : ∀ line ∈ lines, ∃ forms, Reader.parse line = .ok forms) :
    let env := State.empty.pushGlobal.1
    let s := State.empty.pushGlobal.2
    (∀ input, Repl.lines input = lines →
      Repl.run depth input = (exchanges depth env lines s).map Exchange.transcript) ∧
    (∀ xs, exchanges depth env lines s = some xs → xs.length = lines.length) ∧
    (∀ path t, CommandLine.runScript depth path (.ok (joined lines)) = some t ↔
      ∃ k xs, exchanges depth env (lines.take k) s = some xs ∧
        (∀ x ∈ xs.dropLast, x.error? = none) ∧
        (lines.length ≤ k ∨ ∃ x, xs.getLast? = some x ∧ x.error?.isSome) ∧
        t = Exchange.scriptTranscript xs) ∧
    ((∀ line ∈ lines, IsTyped line) →
      Repl.lines (String.join (lines.map (· ++ "\n"))) = lines) := by
  refine ⟨fun input hinput => run_eq_exchanges hinput.symm, fun xs => length_exchanges,
    fun path t => ?_, lines_of_isTyped⟩
  rw [CommandLine.runScript, runSource_joined depth h, Option.map_eq_some_iff]
  simp only [untilError_eq_some_iff]
  constructor
  · rintro ⟨xs, ⟨k, hxs, hinit, hend⟩, rfl⟩
    exact ⟨k, xs, hxs, hinit, hend, rfl⟩
  · rintro ⟨k, xs, hxs, hinit, hend, rfl⟩
    exact ⟨xs, ⟨k, hxs, hinit, hend⟩, rfl⟩

open Repl in
/-- The second of four lines fails, and the third one is blank. -/
theorem script_agrees_with_session_failing :
    (∀ line ∈ ["(print 1)", "x", "", "2"], ∃ forms, Reader.parse line = .ok forms) ∧
    (∃ xs, xs.map Exchange.printed = ["1", "", "", ""] ∧
      Repl.run 3 "(print 1)\nx\n\n2\n" = some (Exchange.transcript xs)) ∧
    CommandLine.runScript 3 "s" (.ok "(print 1)\nx\n\n2") =
      some ⟨1, "1", "Evaluation error: Unbound symbol: x\n"⟩ := by
  have h₁ : Reader.parse "(print 1)" = .ok [.list [.sym "print", .int 1]] := by with_unfolding_all rfl
  have h₂ : Reader.parse "x" = .ok [.sym "x"] := by with_unfolding_all rfl
  have h₃ : Reader.parse "" = .ok [] := by with_unfolding_all rfl
  have h₄ : Reader.parse "2" = .ok [.int 2] := by with_unfolding_all rfl
  have hlines : ∀ line ∈ ["(print 1)", "x", "", "2"], ∃ forms, Reader.parse line = .ok forms := by
    simp [h₁, h₂, h₃, h₄]
  obtain ⟨hsession, -, hscript, hread⟩ := script_agrees_with_session 3 hlines
  have hinput : Repl.lines "(print 1)\nx\n\n2\n" = ["(print 1)", "x", "", "2"] :=
    hread (by simp [IsTyped])
  let xs : List Exchange := [⟨"1", some (.ok .nil)⟩,
    ⟨"", some (.error (.evaluation (.unboundSymbol "x")))⟩, ⟨"", none⟩, ⟨"", some (.ok (.int 2))⟩]
  have hxs (k : Nat) (hk : k = 2 ∨ k = 4) : exchanges 3 State.empty.pushGlobal.1
      (["(print 1)", "x", "", "2"].take k) State.empty.pushGlobal.2 = some (xs.take k) := by
    rcases hk with rfl | rfl
    · simp only [List.take, exchanges, exchange, evaluateSource_of_parse h₁,
        evaluateSource_of_parse h₂]
      rfl
    · simp only [List.take, exchanges, exchange, evaluateSource_of_parse h₁,
        evaluateSource_of_parse h₂, evaluateSource_of_parse h₄]
      rfl
  refine ⟨hlines, ⟨xs, rfl, ?_⟩, ?_⟩
  · rw [hsession _ hinput]
    exact congrArg (Option.map _) (hxs 4 (.inr rfl))
  · exact (hscript "s" _).2 ⟨2, xs.take 2, hxs 2 (.inl rfl),
      by simp [xs, Exchange.error?, SourceError.of?], .inr ⟨_, rfl, rfl⟩, rfl⟩

end SmallLisp
