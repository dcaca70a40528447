import Mathlib
import ModelOperator.Inference.Client

/-!
# Pulls and the pieces of their bodies

    The body of a pull is a line for each step of the server, and it arrives in pieces that are
    cut anywhere.  What is not yet a line waits for the next piece.  Since the pieces before a
    cut leave behind exactly the bytes behind their last line feed (`Pull.lines_append`), taking
    all pieces one by one is taking the whole body at once (`Pull.feedAll_eq_feed`).

    So the result of a pull is told by the lines of the body alone (`Pull.receive_lines`): a line
    is blank, or it fails (`Pull.Fails`), or it reports how far the pull has come
    (`Pull.Reports`).  The first line that fails decides, and if there is none, the last that
    reports. -/

namespace ModelOperator

namespace Inference

namespace Pull

/-! ## Lines -/

theorem lines_feed (rest : List UInt8) :
    lines (10 :: rest) = ([] :: (lines rest).1, (lines rest).2) := rfl

/-- A byte in front of a line that is complete belongs to that line. -/
theorem lines_complete {b : UInt8} (hb : b ≠ 10) {rest line : List UInt8}
    {more : List (List UInt8)} (h : (lines rest).1 = line :: more) :
    lines (b :: rest) = ((b :: line) :: more, (lines rest).2) := by
  rw [lines]
  dsimp only
  rw [if_neg hb, h]

/-- A byte where no line is complete yet waits with the others. -/
theorem lines_incomplete {b : UInt8} (hb : b ≠ 10) {rest : List UInt8} (h : (lines rest).1 = []) :
    lines (b :: rest) = ([], b :: (lines rest).2) := by
  rw [lines]
  dsimp only
  rw [if_neg hb, h]

/-- The lines of a body are its complete ones and what follows them. -/
theorem splitOn_eq_lines (body : List UInt8) :
    body.splitOn 10 = (lines body).1 ++ [(lines body).2] := by
  rw [List.splitOn_eq_splitOnP]
  induction body with
  | nil => rfl
  | cons b rest ih =>
      rw [List.splitOnP_cons_eq_if_modifyHead, ih]
      by_cases hb : b = 10
      · rw [if_pos (by simpa using hb), hb, lines_feed]
        rfl
      · rw [if_neg (by simpa using hb)]
        cases hcomplete : (lines rest).1 with
        | nil =>
            rw [lines_incomplete hb hcomplete]
            rfl
        | cons line more =>
            rw [lines_complete hb hcomplete]
            rfl

/-- Nothing that is left behind the last line feed has one in it. -/
theorem lines_pending (body : List UInt8) : lines (lines body).2 = ([], (lines body).2) := by
  induction body with
  | nil => rfl
  | cons b rest ih =>
      by_cases hb : b = 10
      · rw [hb, lines_feed]
        exact ih
      · cases hcomplete : (lines rest).1 with
        | nil =>
            rw [lines_incomplete hb hcomplete]
            dsimp only
            rw [lines_incomplete hb (by rw [ih]), ih]
        | cons line more =>
            rw [lines_complete hb hcomplete]
            exact ih

/-- **Bytes behind a cut.**  They complete what the bytes before the cut left over. -/
theorem lines_append (before after : List UInt8) :
    lines (before ++ after) =
      ((lines before).1 ++ (lines ((lines before).2 ++ after)).1,
        (lines ((lines before).2 ++ after)).2) := by
  induction before with
  | nil => rfl
  | cons b rest ih =>
      rw [List.cons_append]
      by_cases hb : b = 10
      · rw [hb, lines_feed, lines_feed, ih]
        rfl
      · cases hcomplete : (lines rest).1 with
        | cons line more =>
            have htogether : (lines (rest ++ after)).1 =
                line :: (more ++ (lines ((lines rest).2 ++ after)).1) := by
              rw [ih, hcomplete]
              rfl
            rw [lines_complete hb htogether, lines_complete hb hcomplete, ih]
            rfl
        | nil =>
            -- the byte stays in front of what is pending, on both sides
            rw [hcomplete] at ih
            rw [lines_incomplete hb hcomplete]
            dsimp only
            rw [List.nil_append, List.cons_append]
            cases hlater : (lines ((lines rest).2 ++ after)).1 with
            | nil =>
                rw [lines_incomplete hb (by rw [ih, hlater]; rfl), lines_incomplete hb hlater, ih]
            | cons line more =>
                rw [lines_complete hb (by rw [ih, hlater]; rfl), lines_complete hb hlater, ih]

section

variable (words : List UInt8 → String)

/-! ## Pieces -/

/-- Lines are read one after the other, each with the last report so far. -/
theorem readLines_append (last : PullProgress) (before after : List (List UInt8)) :
    readLines words last (before ++ after) =
      match readLines words last before with
      | .error e => .error e
      | .ok next => readLines words next after := by
  induction before generalizing last with
  | nil => rfl
  | cons line rest ih =>
      rw [List.cons_append, readLines, readLines]
      cases readLine words line with
      | error e => rfl
      | ok progress => exact ih _

/-- **Pieces one by one.**  They come to what the body comes to in one piece. -/
theorem feedAll_eq_feed (pieces : List (List UInt8)) {s : State}
    (h : lines s.pending = ([], s.pending)) :
    feedAll words pieces s = feed words s pieces.flatten := by
  induction pieces generalizing s with
  | nil =>
      rw [feedAll, feed, List.flatten_nil, List.append_nil, h]
      rfl
  | cons piece rest ih =>
      rw [feedAll, List.flatten_cons, feed, feed, ← List.append_assoc,
        lines_append (s.pending ++ piece)]
      dsimp only
      rw [readLines_append]
      cases readLines words s.last (lines (s.pending ++ piece)).1 with
      | error e => rfl
      | ok last => exact ih (s := ⟨last, _⟩) (lines_pending _)

/-- A whole body is read line by line, and the end of the body ends a line. -/
theorem receive_eq_readLines {r : Reply} (hstatus : r.isSuccess = true)
    (hwhole : r.broken = none) :
    receive words (.ok r) = readLines words {} (r.pieces.flatten.splitOn 10) := by
  have hcheck : checkStatus .pull r = .ok () := if_pos hstatus
  rw [receive]
  simp only [hcheck, hwhole]
  rw [feedAll_eq_feed words r.pieces (s := {}) rfl, feed, splitOn_eq_lines, readLines_append]
  dsimp only [List.nil_append]
  cases readLines words {} (lines r.pieces.flatten).1 <;> rfl

end

/-! ## What a line says -/

/-- A line of nothing but blanks. -/
def Blank (line : List UInt8) : Prop := ∀ b ∈ line, isAsciiBlank b = true

/-- The refusal of the server in a line, if it is one. -/
def refusal? (line : List UInt8) : Option Refusal := Refusal.decoder.ofBytes? (trimLine line)

/-- The progress in a line, if it is any. -/
def progress? (line : List UInt8) : Option PullProgress :=
  PullProgress.decoder.ofBytes? (trimLine line)

/-- A line that ends a pull. -/
inductive Fails (words : List UInt8 → String) (line : List UInt8) : Error → Prop
  /-- It says that the server refuses. -/
  | refused {r : Refusal} (hblank : ¬ Blank line) (hr : refusal? line = some r) :
      Fails words line (.stream .pull r.error)
  /-- It is neither a refusal nor progress. -/
  | unreadable (hblank : ¬ Blank line) (hr : refusal? line = none) (hp : progress? line = none) :
      Fails words line (.unreadable .pull (words (trimLine line)))

/-- A line that says how far a pull has come. -/
structure Reports (line : List UInt8) (p : PullProgress) : Prop where
  not_blank : ¬ Blank line
  not_refused : refusal? line = none
  read : progress? line = some p

/-- A line is blank exactly if nothing is left of it once it is trimmed. -/
theorem trimLine_eq_nil_iff (line : List UInt8) : trimLine line = [] ↔ Blank line := by
  rw [trimLine, List.reverse_eq_nil_iff, List.dropWhile_eq_nil_iff, Blank,
    ← List.dropWhile_eq_nil_iff (p := isAsciiBlank) (l := line)]
  constructor
  · intro h
    rw [← List.dropWhile_idempotent isAsciiBlank line, List.dropWhile_eq_nil_iff]
    exact fun b hb => h b (List.mem_reverse.mpr hb)
  · intro h
    rw [h]
    exact nofun

section

variable {words : List UInt8 → String}

/-- A blank line reports nothing. -/
theorem readLine_blank {line : List UInt8} (h : Blank line) : readLine words line = .ok none := by
  rw [readLine, (trimLine_eq_nil_iff line).mpr h]
  rfl

/-- A line is first taken for a refusal, and for progress only if it is none. -/
theorem readLine_of_not_blank (words : List UInt8 → String) {line : List UInt8}
    (h : ¬ Blank line) :
    readLine words line =
      match refusal? line with
      | some r => .error (.stream .pull r.error)
      | none =>
        match progress? line with
        | some p => .ok (some p)
        | none => .error (.unreadable .pull (words (trimLine line))) := by
  have hne : (trimLine line).isEmpty = false :=
    List.isEmpty_eq_false_iff.mpr fun hnil => h ((trimLine_eq_nil_iff line).mp hnil)
  rw [readLine, refusal?, progress?]
  simp only [hne, Bool.false_eq_true, if_false]
  cases Refusal.decoder.ofBytes? (trimLine line) with
  | some r => rfl
  | none =>
      dsimp only
      rw [readBody]
      cases PullProgress.decoder.ofBytes? (trimLine line) <;> rfl

/-- **One line.**  It is blank, or reports, or fails, and is read as what it is. -/
theorem readLine_cases (words : List UInt8 → String) (line : List UInt8) :
    (Blank line ∧ readLine words line = .ok none) ∨
      (∃ p, Reports line p ∧ readLine words line = .ok (some p)) ∨
      ∃ e, Fails words line e ∧ readLine words line = .error e := by
  by_cases hblank : Blank line
  · exact Or.inl ⟨hblank, readLine_blank hblank⟩
  · refine Or.inr ?_
    have hread := readLine_of_not_blank words hblank
    cases hr : refusal? line with
    | some r =>
        rw [hr] at hread
        exact Or.inr ⟨_, .refused hblank hr, hread⟩
    | none =>
        rw [hr] at hread
        cases hp : progress? line with
        | some p =>
            rw [hp] at hread
            exact Or.inl ⟨p, ⟨hblank, hr, hp⟩, hread⟩
        | none =>
            rw [hp] at hread
            exact Or.inr ⟨_, .unreadable hblank hr hp, hread⟩

/-- What a line fails with is what it is read as. -/
theorem readLine_of_fails {line : List UInt8} {e : Error} (h : Fails words line e) :
    readLine words line = .error e := by
  cases h with
  | refused hblank hr => rw [readLine_of_not_blank words hblank, hr]
  | unreadable hblank hr hp => rw [readLine_of_not_blank words hblank, hr, hp]

/-- What a line reports is what it is read as. -/
theorem readLine_of_reports {line : List UInt8} {p : PullProgress} (h : Reports line p) :
    readLine words line = .ok (some p) := by
  rw [readLine_of_not_blank words h.not_blank, h.not_refused, h.read]

/-- A line fails as it is specified exactly if it is read so. -/
theorem fails_iff {line : List UInt8} {e : Error} :
    Fails words line e ↔ readLine words line = .error e := by
  refine ⟨readLine_of_fails, fun h => ?_⟩
  rcases readLine_cases words line with ⟨-, hread⟩ | ⟨p, -, hread⟩ | ⟨e', hfails, hread⟩
  · cases h.symm.trans hread
  · cases h.symm.trans hread
  · cases h.symm.trans hread
    exact hfails

/-- A line reports what it is specified to report exactly if it is read so. -/
theorem reports_iff (words : List UInt8 → String) {line : List UInt8} {p : PullProgress} :
    Reports line p ↔ readLine words line = .ok (some p) := by
  refine ⟨readLine_of_reports, fun h => ?_⟩
  rcases readLine_cases words line with ⟨-, hread⟩ | ⟨p', hreports, hread⟩ | ⟨e, -, hread⟩
  · cases h.symm.trans hread
  · cases h.symm.trans hread
    exact hreports
  · cases h.symm.trans hread

/-- A line is passed over exactly if it is blank. -/
theorem blank_iff (words : List UInt8 → String) {line : List UInt8} :
    Blank line ↔ readLine words line = .ok none := by
  refine ⟨readLine_blank, fun h => ?_⟩
  rcases readLine_cases words line with ⟨hblank, -⟩ | ⟨p, -, hread⟩ | ⟨e, -, hread⟩
  · exact hblank
  · cases h.symm.trans hread
  · cases h.symm.trans hread

/-- A line that is read without an error does not fail. -/
theorem not_fails_of_ok {line : List UInt8} {progress : Option PullProgress}
    (h : readLine words line = .ok progress) (e : Error) : ¬ Fails words line e := by
  intro hfails
  cases h.symm.trans (readLine_of_fails hfails)

end

/-! ## All lines -/

/-- The first of the lines that fails does so with this error. -/
def FirstFails (words : List UInt8 → String) (lines : List (List UInt8)) (e : Error) : Prop :=
  ∃ before line after, lines = before ++ line :: after ∧
    (∀ other ∈ before, ∀ e', ¬ Fails words other e') ∧ Fails words line e

/-- The last of the lines that is not blank reports this. -/
def LastReports (lines : List (List UInt8)) (p : PullProgress) : Prop :=
  ∃ before line after, lines = before ++ line :: after ∧ Reports line p ∧
    ∀ other ∈ after, Blank other

section

variable {words : List UInt8 → String}

/-- The first failure is that of the first line, or comes behind it. -/
theorem firstFails_cons {first : List UInt8} {rest : List (List UInt8)} {e : Error} :
    FirstFails words (first :: rest) e ↔
      Fails words first e ∨ (∀ e', ¬ Fails words first e') ∧ FirstFails words rest e := by
  constructor
  · rintro ⟨before, line, after, heq, hbefore, hline⟩
    cases before with
    | nil =>
        cases heq
        exact Or.inl hline
    | cons other before =>
        cases heq
        obtain ⟨hother, hbefore⟩ := List.forall_mem_cons.mp hbefore
        exact Or.inr ⟨hother, before, line, after, rfl, hbefore, hline⟩
  · rintro (hfirst | ⟨hfirst, before, line, after, rfl, hbefore, hline⟩)
    · exact ⟨[], first, rest, rfl, nofun, hfirst⟩
    · exact ⟨first :: before, line, after, rfl, List.forall_mem_cons.mpr ⟨hfirst, hbefore⟩, hline⟩

/-- The last report among more lines: one of the later ones, or the first if these are blank. -/
theorem lastReports_cons {first : List UInt8} {rest : List (List UInt8)} {p : PullProgress} :
    LastReports (first :: rest) p ↔
      LastReports rest p ∨ Reports first p ∧ ∀ other ∈ rest, Blank other := by
  constructor
  · rintro ⟨before, line, after, heq, hline, hafter⟩
    cases before with
    | nil =>
        cases heq
        exact Or.inr ⟨hline, hafter⟩
    | cons other before =>
        cases heq
        exact Or.inl ⟨before, line, after, rfl, hline, hafter⟩
  · rintro (⟨before, line, after, rfl, hline, hafter⟩ | ⟨hfirst, hrest⟩)
    · exact ⟨first :: before, line, after, rfl, hline, hafter⟩
    · exact ⟨[], first, rest, rfl, hfirst, hrest⟩

/-- **Lines that do not all succeed.**  The first that fails decides. -/
theorem readLines_error_iff (last : PullProgress) (lines : List (List UInt8)) (e : Error) :
    readLines words last lines = .error e ↔ FirstFails words lines e := by
  induction lines generalizing last with
  | nil =>
      refine iff_of_false nofun ?_
      rintro ⟨before, line, after, heq, -⟩
      exact List.append_ne_nil_of_right_ne_nil before (List.cons_ne_nil line after) heq.symm
  | cons first rest ih =>
      rw [firstFails_cons, readLines, fails_iff]
      cases hread : readLine words first with
      | error e' =>
          have hfails : ¬ ∀ e', ¬ Fails words first e' := fun h => h e' (fails_iff.mpr hread)
          rw [Except.error.injEq, Except.error.injEq]
          exact ⟨Or.inl, fun h => h.resolve_right fun hlater => hfails hlater.1⟩
      | ok progress =>
          refine (ih _).trans ?_
          rw [or_iff_right nofun, and_iff_right (not_fails_of_ok hread)]

/-- **Lines that all succeed.**  The last that is not blank decides, and if there is none, what
    was known before. -/
theorem readLines_ok_iff (last : PullProgress) (lines : List (List UInt8)) (p : PullProgress) :
    readLines words last lines = .ok p ↔ (∀ line ∈ lines, ∀ e, ¬ Fails words line e) ∧
      (LastReports lines p ∨ (∀ line ∈ lines, Blank line) ∧ p = last) := by
  induction lines generalizing last with
  | nil =>
      have hnone : ¬ LastReports [] p := by
        rintro ⟨before, line, after, heq, -⟩
        exact List.append_ne_nil_of_right_ne_nil before (List.cons_ne_nil line after) heq.symm
      rw [or_iff_right hnone, and_iff_right nofun, and_iff_right nofun, readLines, Except.ok.injEq]
      exact eq_comm
  | cons first rest ih =>
      rw [lastReports_cons, List.forall_mem_cons, List.forall_mem_cons, readLines,
        reports_iff words, blank_iff words]
      cases hread : readLine words first with
      | error e =>
          refine iff_of_false nofun fun h => ?_
          exact h.1.1 e (fails_iff.mpr hread)
      | ok progress =>
          refine (ih _).trans ?_
          rw [and_iff_right (not_fails_of_ok hread)]
          refine and_congr_right fun _ => ?_
          cases progress with
          | none => simp
          | some q =>
              -- this line is the last to report exactly if the others are blank
              simp [eq_comm, and_comm]

end

/-! ## Whole pulls -/

section

variable (words : List UInt8 → String)

/-- How the pieces are cut makes no difference. -/
theorem receive_congr {r other : Reply} (hstatus : other.status = r.status)
    (hwhole : other.broken = r.broken) (hbody : other.pieces.flatten = r.pieces.flatten) :
    receive words (.ok other) = receive words (.ok r) := by
  have hcheck : checkStatus .pull other = checkStatus .pull r := by
    rw [checkStatus, checkStatus, Reply.isSuccess, Reply.isSuccess, hstatus, hwhole, hbody]
  have hfeed := fun pieces : List (List UInt8) => feedAll_eq_feed words pieces (s := {}) rfl
  rw [receive, receive, hcheck, hwhole, hfeed, hfeed, hbody]

/-- **The result of a pull.**  Let the server answer a pull with success and a whole body.  The
    result does not depend on how the body is cut.  It is the failure of the first of its lines
    that fails; if none does, it is the progress that the last line that is not blank reports,
    and without any such line the progress of a pull that has not begun.  So the pull counts as
    complete exactly if no line fails and the last one that is not blank says so. -/
theorem receive_lines {r : Reply} (hstatus : r.isSuccess = true) (hwhole : r.broken = none) :
    (∀ other : Reply, other.status = r.status → other.broken = none →
      other.pieces.flatten = r.pieces.flatten →
      receive words (.ok other) = receive words (.ok r)) ∧
    (∀ e, receive words (.ok r) = .error e ↔
      FirstFails words (r.pieces.flatten.splitOn 10) e) ∧
    (∀ p, receive words (.ok r) = .ok p ↔
      (∀ line ∈ r.pieces.flatten.splitOn 10, ∀ e, ¬ Fails words line e) ∧
        (LastReports (r.pieces.flatten.splitOn 10) p ∨
          (∀ line ∈ r.pieces.flatten.splitOn 10, Blank line) ∧ p = {})) ∧
    ((∃ p, receive words (.ok r) = .ok p ∧ p.isSuccess = true) ↔
      (∀ line ∈ r.pieces.flatten.splitOn 10, ∀ e, ¬ Fails words line e) ∧
        ∃ p, LastReports (r.pieces.flatten.splitOn 10) p ∧ p.status = "success") := by
  have hcut : ∀ other : Reply, other.status = r.status → other.broken = none →
      other.pieces.flatten = r.pieces.flatten →
      receive words (.ok other) = receive words (.ok r) :=
    fun other hsame hall hbody => receive_congr words hsame (hall.trans hwhole.symm) hbody
  rw [receive_eq_readLines words hstatus hwhole] at hcut ⊢
  refine ⟨hcut, readLines_error_iff _ _, readLines_ok_iff _ _, ?_⟩
  constructor
  · rintro ⟨p, hp, hsuccess⟩
    obtain ⟨hfails, hlast | ⟨-, rfl⟩⟩ := (readLines_ok_iff _ _ p).mp hp
    · exact ⟨hfails, p, hlast, eq_of_beq hsuccess⟩
    · -- a pull that has not begun is not complete
      cases hsuccess
  · rintro ⟨hfails, p, hlast, hsuccess⟩
    exact ⟨p, (readLines_ok_iff _ _ p).mpr ⟨hfails, Or.inl hlast⟩, beq_iff_eq.mpr hsuccess⟩

end

/-- A pull that succeeds, with a blank line, cut within a word and with an empty piece.  Its last
    report has a member that is not looked at, with half of a surrogate pair in it. -/
def cutReply : Reply where
  status := 200
  pieces := [utf8Bytes "\x7b\"status\":\"pulling manifest\"\x7d\n \n\x7b\"sta", [],
    utf8Bytes "tus\":\"success\",\"note\":\"\\ud800\"\x7d\n"]

/-- In one piece it comes to the same, and its last report stands before a blank line. -/
theorem receive_lines_cut : cutReply.isSuccess = true ∧ cutReply.broken = none ∧
    receive (fun _ => "") (.ok ⟨200, [cutReply.pieces.flatten], none⟩) =
      .ok { status := "success" } ∧
    (∀ line ∈ cutReply.pieces.flatten.splitOn 10, ∀ e, ¬ Fails (fun _ => "") line e) ∧
    LastReports (cutReply.pieces.flatten.splitOn 10) { status := "success" } := by
  have hstatus : cutReply.isSuccess = true := rfl
  have hwhole : cutReply.broken = none := rfl
  have hreceive : receive (fun _ => "") (.ok cutReply) = .ok { status := "success" } := by cbv
  obtain ⟨hcut, -, hok, -⟩ := receive_lines (fun _ => "") hstatus hwhole
  obtain ⟨hfails, hlast⟩ := (hok _).mp hreceive
  have hwholly := hcut ⟨200, [cutReply.pieces.flatten], none⟩ rfl rfl (List.append_nil _)
  refine ⟨hstatus, hwhole, hwholly.trans hreceive, hfails, ?_⟩
  exact hlast.resolve_right fun h => absurd h.2 (by decide)

end Pull

end Inference

end ModelOperator
