import TaskControl.Activation.Reconciliation
import TaskControl.Cron.FileBytes
import TaskControl.Domain.JournalFaults
import TaskControl.Foundation.Words

/-!
# The local journal

One line for each activation that could not reach the control plane.  The readers
go over the lines of the file and leave out those whose failure they catch.  An
append opens the file at its end, so that one that fails half-way leaves the front
of its line behind, and the next one continues that line.
-/

set_option autoImplicit false

namespace TaskControl.Journal

open PythonText JsonText IsoTime
open TaskControl.Cron (encode decode encode_append decode_encode)

/-! ## Reading -/

/-- What opening and reading the journal file comes to. -/
inductive FileRead where
  | notFound
  | osError
  | bytes (content : ByteArray)

inductive JournalError where
  | infrastructure (error : TaskControlError)
  | unicodeDecode
  | line (error : LineError)
  deriving DecidableEq

/-- An iteration over the entries: what it yields, and the exception that ends it. -/
structure Reading where
  yielded : List ReadEntry
  raised : Option JournalError

def cannotRead : JournalError :=
  .infrastructure (transientInfrastructureError "Could not read the local activation journal.")

/-- `read_text(encoding="utf-8")`; none where the bytes are not UTF-8. -/
def readText (content : ByteArray) : Option Text := (decode content).map translateNewlines

def isBlank (line : Text) : Bool := decide (strip line = [])

section

variable (limits : Interpreter)

/-- The loop of `entries`. -/
def readLines : List Text → Reading
  | [] => ⟨[], none⟩
  | line :: rest =>
      if isBlank line then readLines rest
      else
        match parseLine limits line with
        | .ok entry => ⟨entry :: (readLines rest).yielded, (readLines rest).raised⟩
        | .error error => if error.caught then readLines rest else ⟨[], some (.line error)⟩

def entries : FileRead → Reading
  | .notFound => ⟨[], none⟩
  | .osError => ⟨[], some cannotRead⟩
  | .bytes content =>
      match readText content with
      | some text => readLines limits (splitLines text)
      | none => ⟨[], some .unicodeDecode⟩

/-- The loop of `unreadable_line_count`. -/
def countLines : Nat → List Text → Except JournalError Nat
  | skipped, [] => .ok skipped
  | skipped, line :: rest =>
      if isBlank line then countLines skipped rest
      else
        match parseLine limits line with
        | .ok _ => countLines skipped rest
        | .error error =>
            if error.caught then countLines (skipped + 1) rest else .error (.line error)

def unreadableLineCount : FileRead → Except JournalError Nat
  | .notFound => .ok 0
  | .osError => .ok 0
  | .bytes content =>
      match readText content with
      | some text => countLines limits 0 (splitLines text)
      | none => .error .unicodeDecode

/-! ## What the readers are for -/

/-- The lines of a text that are not blank. -/
def filledLines (text : Text) : List Text := (splitLines text).filter fun line => !isBlank line

/-- The lines of a file that are not blank. -/
def journalLines (content : ByteArray) : List Text :=
  match readText content with
  | some text => filledLines text
  | none => []

def validEntry (line : Text) : Option ReadEntry := (parseLine limits line).toOption

/-- The readers survive a file: nothing is raised, the entries are those of the valid lines in
their order, and every line that is not blank is yielded or counted. -/
structure Survives (content : ByteArray) : Prop where
  silent : (entries limits (.bytes content)).raised = none
  yields : (entries limits (.bytes content)).yielded =
    (journalLines content).filterMap (validEntry limits)
  counts : ∃ skipped, unreadableLineCount limits (.bytes content) = .ok skipped ∧
    (entries limits (.bytes content)).yielded.length + skipped = (journalLines content).length

end

/-! ## The loops -/

theorem entries_text {limits : Interpreter} {content : ByteArray} {text : Text}
    (read : readText content = some text) :
    entries limits (.bytes content) = readLines limits (splitLines text) := by
  simp only [entries, read]

section

variable {limits : Interpreter} {line : Text} {rest : List Text}

theorem readLines_blank (blank : isBlank line = true) :
    readLines limits (line :: rest) = readLines limits rest := by rw [readLines, if_pos blank]

theorem readLines_valid {entry : ReadEntry} (filled : isBlank line = false)
    (parsed : parseLine limits line = .ok entry) :
    readLines limits (line :: rest) =
      ⟨entry :: (readLines limits rest).yielded, (readLines limits rest).raised⟩ := by
  simp only [readLines, filled, parsed, Bool.false_eq_true, if_false]

theorem readLines_caught {error : LineError} (filled : isBlank line = false)
    (parsed : parseLine limits line = .error error) (caught : error.caught = true) :
    readLines limits (line :: rest) = readLines limits rest := by
  simp only [readLines, filled, parsed, caught, Bool.false_eq_true, if_false, if_true]

theorem readLines_escaped {error : LineError} (filled : isBlank line = false)
    (parsed : parseLine limits line = .error error) (uncaught : error.caught = false) :
    readLines limits (line :: rest) = ⟨[], some (.line error)⟩ := by
  simp only [readLines, filled, parsed, uncaught, Bool.false_eq_true, if_false]

/-- What a line that is not fatal parses to. -/
theorem parseLine_tame (tame : ¬ Fatal limits line) :
    (∃ entry, parseLine limits line = .ok entry) ∨
      ∃ error, parseLine limits line = .error error ∧ error.caught = true := by
  cases parsed : parseLine limits line with
  | ok entry => exact Or.inl ⟨entry, rfl⟩
  | error error =>
      cases caught : error.caught with
      | true => exact Or.inr ⟨error, rfl, caught⟩
      | false => exact absurd (parseLine_escapes.mp ⟨error, parsed, caught⟩) tame

end

/-- Over lines that are not fatal the loops run to their end, and agree on every line. -/
theorem loops_tame {limits : Interpreter} {lines : List Text}
    (tame : ∀ line ∈ lines.filter (fun line => !isBlank line), ¬ Fatal limits line)
    (skipped : Nat) :
    readLines limits lines =
        ⟨(lines.filter fun line => !isBlank line).filterMap (validEntry limits), none⟩ ∧
      ∃ more, countLines limits skipped lines = .ok (skipped + more) ∧
        (readLines limits lines).yielded.length + more =
          (lines.filter fun line => !isBlank line).length := by
  induction lines generalizing skipped with
  | nil => exact ⟨rfl, 0, rfl, rfl⟩
  | cons line rest ih =>
      cases blank : isBlank line with
      | true =>
          have same : (line :: rest).filter (fun line => !isBlank line) =
              rest.filter fun line => !isBlank line := by simp [blank]
          rw [same] at tame ⊢
          rw [readLines_blank blank, countLines, if_pos blank]
          exact ih tame skipped
      | false =>
          have same : (line :: rest).filter (fun line => !isBlank line) =
              line :: rest.filter fun line => !isBlank line := by simp [blank]
          rw [same, List.forall_mem_cons] at tame
          rw [same, List.filterMap_cons]
          rcases parseLine_tame tame.1 with ⟨entry, parsed⟩ | ⟨error, parsed, caught⟩
          · obtain ⟨read, more, counted, sum⟩ := ih tame.2 skipped
            have valid : validEntry limits line = some entry := by rw [validEntry, parsed]; rfl
            rw [readLines_valid blank parsed, valid, read]
            refine ⟨rfl, more, ?_, ?_⟩
            · simp only [countLines, blank, parsed, Bool.false_eq_true, if_false]
              exact counted
            · simp only [read] at sum
              simp only [List.length_cons]
              omega
          · obtain ⟨read, more, counted, sum⟩ := ih tame.2 (skipped + 1)
            have invalid : validEntry limits line = none := by rw [validEntry, parsed]; rfl
            rw [readLines_caught blank parsed caught, invalid]
            refine ⟨read, more + 1, ?_, ?_⟩
            · simp only [countLines, blank, parsed, caught, Bool.false_eq_true, if_false, if_true]
              rw [counted, Nat.add_assoc, Nat.add_comm 1 more]
            · simp only [List.length_cons]
              omega

/-- A fatal line ends the iteration. -/
theorem readLines_fatal {limits : Interpreter} {lines : List Text} {line : Text}
    (filled : line ∈ lines.filter fun line => !isBlank line) (fatal : Fatal limits line) :
    (readLines limits lines).raised ≠ none := by
  induction lines with
  | nil => cases filled
  | cons first rest ih =>
      cases blank : isBlank first with
      | true =>
          have same : (first :: rest).filter (fun line => !isBlank line) =
              rest.filter fun line => !isBlank line := by simp [blank]
          rw [readLines_blank blank]
          exact ih (same ▸ filled)
      | false =>
          have same : (first :: rest).filter (fun line => !isBlank line) =
              first :: rest.filter fun line => !isBlank line := by simp [blank]
          rw [same] at filled
          by_cases tame : Fatal limits first
          · obtain ⟨error, parsed, uncaught⟩ := parseLine_escapes.mpr tame
            rw [readLines_escaped blank parsed uncaught]
            exact Option.some_ne_none _
          · have later : line ∈ rest.filter fun line => !isBlank line := by
              rcases List.mem_cons.mp filled with rfl | later
              · exact absurd fatal tame
              · exact later
            rcases parseLine_tame tame with ⟨entry, parsed⟩ | ⟨error, parsed, caught⟩
            · rw [readLines_valid blank parsed]
              exact ih later
            · rw [readLines_caught blank parsed caught]
              exact ih later

/-- The readers survive exactly the files that are UTF-8 and have no fatal line. -/
theorem readers_survive_iff (limits : Interpreter) (content : ByteArray) :
    Survives limits content ↔
      (readText content).isSome = true ∧ ∀ line ∈ journalLines content, ¬ Fatal limits line := by
  cases decoded : readText content with
  | none =>
      have undecodable : (entries limits (.bytes content)).raised = some .unicodeDecode := by
        simp only [entries, decoded]
      constructor
      · intro survives
        rw [survives.silent] at undecodable
        cases undecodable
      · intro readable
        cases readable.1
  | some text =>
      have reading := @entries_text limits content text decoded
      have counting : unreadableLineCount limits (.bytes content) =
          countLines limits 0 (splitLines text) := by simp only [unreadableLineCount, decoded]
      have filled : journalLines content =
          (splitLines text).filter fun line => !isBlank line := by
        simp only [journalLines, decoded, filledLines]
      rw [filled]
      constructor
      · intro survives
        refine ⟨rfl, fun line listed fatal => ?_⟩
        have silent := survives.silent
        rw [reading] at silent
        exact readLines_fatal listed fatal silent
      · rintro ⟨_, tame⟩
        obtain ⟨read, more, counted, sum⟩ := loops_tame tame 0
        constructor
        · rw [reading, read]
        · rw [reading, read, filled]
        · rw [reading, counting, filled]
          exact ⟨more, by rw [counted, Nat.zero_add], sum⟩

namespace Backup

theorem interpreter_converts : ∀ limit ∈ some 4300, 640 ≤ limit := by simp

theorem interpreter_nests : 1 ≤ 1000 := by decide

/-- An interpreter with its default limits. -/
def interpreter : Interpreter := ⟨1000, some 4300, interpreter_nests, interpreter_converts⟩

/-- A journal of one line, which is JSON but no object. -/
def listing : ByteArray := encode "[]\n".toList

theorem readText_listing : readText listing = some "[]\n".toList := by
  rw [readText, listing, decode_encode]
  rfl

end Backup

/-- A line with a list raises an `AttributeError`. -/
theorem list_line_raises : ¬ Survives Backup.interpreter Backup.listing := by
  intro survives
  have raised : (readLines Backup.interpreter (splitLines "[]\n".toList)).raised =
      some (.line .attribute) := by decide +kernel
  have silent := survives.silent
  rw [entries_text Backup.readText_listing, raised] at silent
  cases silent

/-! ## One line -/

/-- The text that `append` hands to the file. -/
def appended (limits : Interpreter) (entry : WrittenEntry) : Option Text :=
  (entry.line limits).map fun line => line ++ ['\n']

/-- The text that `append` writes is one line.  What the line is read as is the entry, exactly where
no string of the entry has a split surrogate pair. -/
theorem appended_line {limits : Interpreter} {entry : WrittenEntry} {text : Text}
    (written : appended limits entry = some text) :
    ∃ line, text = line ++ ['\n'] ∧ Unbroken line ∧
      (parseLine limits line = .ok entry.read ↔ entry.Whole) := by
  obtain ⟨line, dumped, rfl⟩ := Option.map_eq_some_iff.mp written
  refine ⟨line, rfl, (dumps_printable dumped).unbroken, ?_⟩
  rw [parseLine_line dumped, ← joined_eq_self]
  constructor
  · intro same
    exact read_injective (Except.ok.inj same)
  · intro same
    rw [same]

namespace Backup

open TaskControl.Activation.Backup

theorem started_inRange : InRange journalled.startedAt.value := by decide +kernel

theorem finished_inRange : InRange journalled.finishedAt.value := by decide +kernel

/-- The entry of a degraded run. -/
def recorded : WrittenEntry := journalled.recorded started_inRange finished_inRange

theorem recorded_written : (appended interpreter recorded).isSome = true := by decide +kernel

theorem high_point : 0xD83D < 0x110000 := by decide

theorem low_point : 0xDE00 < 0x110000 := by decide

def splitPair : Points := [⟨0xD83D, high_point⟩, ⟨0xDE00, low_point⟩]

/-- The same run, explained by the two halves of a character. -/
def halved : WrittenEntry := { recorded with explanation := splitPair }

theorem halved_written : (halved.line interpreter).isSome = true := by decide +kernel

end Backup

theorem appended_line_recorded :
    ∃ text, appended Backup.interpreter Backup.recorded = some text ∧
      ∃ line, text = line ++ ['\n'] ∧ Unbroken line ∧
        (parseLine Backup.interpreter line = .ok Backup.recorded.read ↔ Backup.recorded.Whole) := by
  obtain ⟨text, written⟩ := Option.isSome_iff_exists.mp Backup.recorded_written
  exact ⟨text, written, appended_line written⟩

/-- The two halves come back as one character. -/
theorem halves_joined :
    ∃ line, Backup.halved.line Backup.interpreter = some line ∧
      parseLine Backup.interpreter line ≠ .ok Backup.halved.read := by
  obtain ⟨line, written⟩ := Option.isSome_iff_exists.mp Backup.halved_written
  refine ⟨line, written, ?_⟩
  rw [parseLine_line written]
  intro same
  have whole := joined_eq_self.mp (read_injective (Except.ok.inj same))
  have words : ¬ Unsplit Backup.splitPair := by decide
  exact words whole.1

/-! ## Appending -/

/-- How a call of `append` ends: it returns, or it fails before the file is opened, or after so many
characters of the line have reached the file. -/
inductive AppendEnding where
  | returned
  | unopened
  | torn (written : Nat)
  deriving DecidableEq

structure AppendCall where
  entry : WrittenEntry
  ending : AppendEnding

/-- The content of the journal, which is empty where there is no file. -/
def held (file : Option ByteArray) : ByteArray := file.getD ByteArray.empty

/-- The bytes that a call adds; the line is ASCII, so that its characters are its bytes.  Where
`json.dumps` raises, the file is not touched. -/
def append (limits : Interpreter) (file : Option ByteArray) (call : AppendCall) : Option ByteArray :=
  match appended limits call.entry, call.ending with
  | none, _ => file
  | some text, .returned => some (held file ++ encode text)
  | some _, .unopened => file
  | some text, .torn written => some (held file ++ encode (text.take written))

/-- Whether the call returns. -/
def AppendCall.returns (limits : Interpreter) (call : AppendCall) : Bool :=
  decide (call.ending = .returned) && (appended limits call.entry).isSome

/-- The journal after a sequence of appends, from none on. -/
def journalAfter (limits : Interpreter) (calls : List AppendCall) : Option ByteArray :=
  calls.foldl (append limits) none

/-- The entries of the calls that returned. -/
def returnedEntries (limits : Interpreter) (calls : List AppendCall) : List WrittenEntry :=
  (calls.filter (AppendCall.returns limits)).map AppendCall.entry

def readFile : Option ByteArray → FileRead
  | none => .notFound
  | some content => .bytes content

/-- Every entry of a call that returned is yielded, in the order of the calls. -/
def YieldsReturned (limits : Interpreter) (calls : List AppendCall) : Prop :=
  (entries limits (readFile (journalAfter limits calls))).raised = none ∧
    ((returnedEntries limits calls).map JournalRecord.read).Sublist
      (entries limits (readFile (journalAfter limits calls))).yielded

/-- The next character that is written starts a line. -/
def AtLineStart (file : Option ByteArray) : Prop :=
  held file = encode [] ∨ ∃ text, held file = encode (text ++ ['\n'])

/-- A call that writes anything starts a line, and one that returns has no split surrogate pair. -/
structure CleanCall (limits : Interpreter) (file : Option ByteArray) (call : AppendCall) : Prop where
  starts : held (append limits file call) ≠ held file → AtLineStart file
  whole : call.returns limits = true → call.entry.Whole

/-- Every call of the sequence is clean. -/
def CleanCalls (limits : Interpreter) : Option ByteArray → List AppendCall → Prop
  | _, [] => True
  | file, call :: rest => CleanCall limits file call ∧ CleanCalls limits (append limits file call) rest

/-! ## What a clean sequence leaves -/

/-- The whole lines of a journal with their entries, and the front of a line behind them. -/
structure Written (limits : Interpreter) (file : Option ByteArray)
    (lines : List (WrittenEntry × Text)) (tail : Text) : Prop where
  content : held file = encode (joinLines (lines.map Prod.snd) ++ tail)
  dumped : ∀ entry ∈ lines, entry.1.line limits = some entry.2
  broken : tail = [] ∨ ∃ entry line, JournalRecord.line limits entry = some line ∧ tail <+: line

theorem line_brace {limits : Interpreter} {entry : WrittenEntry} {line : Text}
    (dumped : entry.line limits = some line) : ∃ rest, line = '\x7b' :: rest := by
  obtain ⟨text, _, rfl⟩ := Option.map_eq_some_iff.mp dumped
  exact ⟨_, rfl⟩

theorem isBlank_of_brace (rest : Text) : isBlank ('\x7b' :: rest) = false := by
  have solid := List.ne_nil_of_mem (mem_strip (@List.mem_cons_self _ '\x7b' rest) (by decide))
  simpa [isBlank] using solid

/-- A line that breaks off is left out, or is whole but for its line end. -/
theorem tail_tame {limits : Interpreter} {entry : WrittenEntry} {line tail : Text}
    (dumped : entry.line limits = some line) (cut : tail <+: line) : ¬ Fatal limits tail := by
  rw [← parseLine_escapes]
  rintro ⟨error, failed, uncaught⟩
  by_cases whole : tail = line
  · rw [whole, parseLine_line dumped] at failed
    cases failed
  · rw [parseLine, loads_cut dumped cut whole] at failed
    cases failed
    cases uncaught

theorem line_tame {limits : Interpreter} {entry : WrittenEntry} {line : Text}
    (dumped : entry.line limits = some line) : ¬ Fatal limits line :=
  tail_tame dumped List.prefix_rfl

theorem line_unbroken {limits : Interpreter} {entry : WrittenEntry} {line : Text}
    (dumped : entry.line limits = some line) : Unbroken line := (dumps_printable dumped).unbroken

theorem carriage_not_mem {t : Text} (unbroken : Unbroken t) : '\r' ∉ t := by
  intro found
  have breaks := unbroken '\r' found
  rw [isLineBreak_carriage] at breaks
  cases breaks

section

variable {limits : Interpreter} {file : Option ByteArray} {lines : List (WrittenEntry × Text)}
  {tail : Text}

theorem Written.tail_unbroken (written : Written limits file lines tail) : Unbroken tail := by
  rcases written.broken with rfl | ⟨entry, line, dumped, cut⟩
  · intro c found
    cases found
  · exact fun c found => line_unbroken dumped c (cut.subset found)

theorem Written.lines_unbroken (written : Written limits file lines tail) :
    ∀ line ∈ lines.map Prod.snd, Unbroken line := by
  intro line listed
  obtain ⟨entry, member, rfl⟩ := List.mem_map.mp listed
  exact line_unbroken (written.dumped entry member)

/-- The lines of the file are those that were written, and the front of a line where one is left. -/
theorem Written.splitLines_text (written : Written limits file lines tail) :
    splitLines (joinLines (lines.map Prod.snd) ++ tail) =
      lines.map Prod.snd ++ if tail = [] then [] else [tail] := by
  rw [splitLines_joinLines written.lines_unbroken]
  by_cases nonempty : tail = []
  · rw [if_pos nonempty, nonempty]
    rfl
  · have unbroken := written.tail_unbroken
    have body : lineBody tail = tail := by
      rw [lineBody, List.takeWhile_eq_self_iff]
      intro c found
      rw [unbroken c found]
      rfl
    rw [if_neg nonempty, splitLines, splitKeep_unbroken nonempty unbroken, List.map_singleton, body]

theorem Written.readText (written : Written limits file lines tail) :
    readText (held file) = some (joinLines (lines.map Prod.snd) ++ tail) := by
  have carriageFree : '\r' ∉ joinLines (lines.map Prod.snd) ++ tail := by
    intro found
    rcases List.mem_append.mp found with inside | behind
    · obtain ⟨line, listed, member⟩ := List.mem_flatMap.mp inside
      rcases List.mem_append.mp member with body | newline
      · exact carriage_not_mem (written.lines_unbroken line listed) body
      · exact absurd (List.mem_singleton.mp newline) (by decide)
    · exact carriage_not_mem written.tail_unbroken behind
  rw [Journal.readText, written.content, decode_encode, Option.map_some,
    Cron.translateNewlines_carriageFree carriageFree]

theorem valid_entries (dumped : ∀ entry ∈ lines, entry.1.line limits = some entry.2) :
    ((lines.map Prod.snd).filter fun line => !isBlank line).filterMap (validEntry limits) =
      lines.map fun entry => entry.1.joined.read := by
  induction lines with
  | nil => rfl
  | cons entry rest ih =>
      have first := dumped entry List.mem_cons_self
      obtain ⟨tail, braced⟩ := line_brace first
      have filled : isBlank entry.2 = false := by
        rw [braced]
        exact isBlank_of_brace tail
      have valid : validEntry limits entry.2 = some entry.1.joined.read := by
        rw [validEntry, parseLine_line first]
        rfl
      rw [List.map_cons, List.filter_cons_of_pos (by simp [filled]), List.filterMap_cons_some valid,
        ih fun later listed => dumped later (List.mem_cons_of_mem _ listed)]
      rfl

/-- All whole lines are yielded, and nothing is raised. -/
theorem Written.entries_bytes (written : Written limits file lines tail) :
    ∃ more, entries limits (.bytes (held file)) =
      ⟨lines.map (fun entry => entry.1.joined.read) ++ more, none⟩ := by
  have tame : ∀ line ∈ (lines.map Prod.snd ++ if tail = [] then [] else [tail]).filter
      (fun line => !isBlank line), ¬ Fatal limits line := by
    intro line filled
    rcases List.mem_append.mp (List.mem_of_mem_filter filled) with whole | broken
    · obtain ⟨entry, listed, rfl⟩ := List.mem_map.mp whole
      exact line_tame (written.dumped entry listed)
    · split at broken
      · cases broken
      · next nonempty =>
          obtain rfl := List.mem_singleton.mp broken
          rcases written.broken with empty | ⟨entry, whole, dumped, cut⟩
          · exact absurd empty nonempty
          · exact tail_tame dumped cut
  have read := (loops_tame tame 0).1
  refine ⟨((if tail = [] then [] else [tail]).filter fun line => !isBlank line).filterMap
    (validEntry limits), ?_⟩
  rw [entries_text written.readText, written.splitLines_text, read, List.filter_append, List.filterMap_append,
    valid_entries written.dumped]

end

/-! ## The step of one append -/

theorem written_start (limits : Interpreter) : Written limits none [] [] where
  content := rfl
  dumped := by simp
  broken := Or.inl rfl

section

variable {limits : Interpreter} {file : Option ByteArray} {lines : List (WrittenEntry × Text)}
  {tail : Text} {call : AppendCall}

/-- Where a line starts there is no front of a line. -/
theorem Written.tail_nil (written : Written limits file lines tail) (starts : AtLineStart file) :
    tail = [] := by
  rcases starts with empty | ⟨text, ended⟩
  · rw [written.content, Cron.encode_inj] at empty
    exact (List.append_eq_nil_iff.mp empty).2
  · rw [written.content, Cron.encode_inj] at ended
    by_contra nonempty
    have last := congrArg List.getLast? ended
    rw [List.getLast?_append_of_ne_nil _ nonempty, List.getLast?_concat] at last
    have breaks := written.tail_unbroken '\n' (List.mem_of_getLast? last)
    revert breaks
    decide

/-- Nothing is added, or something where a line starts. -/
theorem Written.added (written : Written limits file lines tail) {text : Text}
    (added : held (append limits file call) = held file ++ encode text)
    (clean : CleanCall limits file call) : text = [] ∨ tail = [] := by
  by_cases nothing : text = []
  · exact Or.inl nothing
  · refine Or.inr (written.tail_nil (clean.starts ?_))
    rw [added, written.content, ← encode_append, Ne, Cron.encode_inj]
    simp [nothing]

theorem Written.line (written : Written limits file lines []) {entry : WrittenEntry} {line : Text}
    (dumped : entry.line limits = some line) {grown : Option ByteArray}
    (content : held grown = held file ++ encode (line ++ ['\n'])) :
    Written limits grown (lines ++ [(entry, line)]) [] where
  content := by
    rw [content, written.content, ← encode_append, List.map_append, joinLines_append]
    simp [joinLines]
  dumped := by
    intro other listed
    rcases List.mem_append.mp listed with earlier | last
    · exact written.dumped other earlier
    · rw [List.mem_singleton.mp last]
      exact dumped
  broken := Or.inl rfl

theorem Written.front (written : Written limits file lines []) {entry : WrittenEntry} {line : Text}
    (dumped : entry.line limits = some line) {front : Text} (cut : front <+: line)
    {grown : Option ByteArray} (content : held grown = held file ++ encode front) :
    Written limits grown lines front where
  content := by
    rw [content, written.content, ← encode_append, List.append_nil]
  dumped := written.dumped
  broken := Or.inr ⟨entry, line, dumped, cut⟩

theorem Written.same (written : Written limits file lines tail) {grown : Option ByteArray}
    (content : held grown = held file) : Written limits grown lines tail where
  content := content.trans written.content
  dumped := written.dumped
  broken := written.broken

/-- A clean call that fails after some of its line was written. -/
theorem Written.torn (written : Written limits file lines tail)
    (clean : CleanCall limits file call) {line : Text} (dumped : call.entry.line limits = some line)
    {count : Nat} (content : held (append limits file call) =
      held file ++ encode ((line ++ ['\n']).take count)) :
    ∃ added tail', Written limits (append limits file call) (lines ++ added) tail' := by
  rcases written.added content clean with nothing | rfl
  · rw [nothing, written.content, ← encode_append, List.append_nil, ← written.content] at content
    exact ⟨[], tail, by simpa using written.same content⟩
  · by_cases inside : count ≤ line.length
    · rw [List.take_append_of_le_length inside] at content
      exact ⟨[], line.take count, by
        simpa using written.front dumped (List.take_prefix count line) content⟩
    · rw [List.take_of_length_le (by simp only [List.length_append, List.length_singleton]; omega)]
        at content
      exact ⟨[(call.entry, line)], [], written.line dumped content⟩

/-- A clean call adds its line, the front of it or nothing; a call that returns adds its line. -/
theorem Written.append (written : Written limits file lines tail)
    (clean : CleanCall limits file call) :
    ∃ added tail', Written limits (append limits file call) (lines ++ added) tail' ∧
      (call.returns limits = true → added.map Prod.fst = [call.entry]) := by
  cases dumped : call.entry.line limits with
  | none =>
      have refused : appended limits call.entry = none := by rw [appended, dumped]; rfl
      have same : Journal.append limits file call = file := by
        simp only [Journal.append, refused]
      refine ⟨[], tail, ?_, fun returned => ?_⟩
      · rw [List.append_nil, same]
        exact written
      · simp [AppendCall.returns, refused] at returned
  | some line =>
      have text : appended limits call.entry = some (line ++ ['\n']) := by rw [appended, dumped]; rfl
      cases ending : call.ending with
      | returned =>
          have content : held (Journal.append limits file call) =
              held file ++ encode (line ++ ['\n']) := by
            simp only [Journal.append, text, ending]
            rfl
          obtain rfl : tail = [] := by
            rcases written.added content clean with nothing | empty
            · simp at nothing
            · exact empty
          exact ⟨[(call.entry, line)], [], written.line dumped content, fun _ => rfl⟩
      | unopened =>
          have same : Journal.append limits file call = file := by
            simp only [Journal.append, text, ending]
          refine ⟨[], tail, ?_, fun returned => ?_⟩
          · rw [List.append_nil, same]
            exact written
          · simp [AppendCall.returns, ending] at returned
      | torn count =>
          have content : held (Journal.append limits file call) =
              held file ++ encode ((line ++ ['\n']).take count) := by
            simp only [Journal.append, text, ending]
            rfl
          obtain ⟨added, tail', shape⟩ := written.torn clean dumped content
          refine ⟨added, tail', shape, fun returned => ?_⟩
          simp [AppendCall.returns, ending] at returned

end

/-! ## Whole sequences -/

section

variable {limits : Interpreter}

/-- A clean sequence adds the lines of its calls that return, in their order. -/
theorem Written.calls {file : Option ByteArray} {lines : List (WrittenEntry × Text)} {tail : Text}
    (written : Written limits file lines tail) {calls : List AppendCall}
    (clean : CleanCalls limits file calls) :
    ∃ added tail',
      Written limits (calls.foldl (Journal.append limits) file) (lines ++ added) tail' ∧
      (returnedEntries limits calls).Sublist (added.map Prod.fst) := by
  induction calls generalizing file lines tail with
  | nil => exact ⟨[], tail, by simpa using written, List.Sublist.refl _⟩
  | cons call rest ih =>
      obtain ⟨first, middle, shape, returns⟩ := written.append clean.1
      obtain ⟨later, tail', whole, sublist⟩ := ih shape clean.2
      refine ⟨first ++ later, tail', by rwa [← List.append_assoc], ?_⟩
      rw [List.map_append]
      cases returned : call.returns limits with
      | true =>
          have front : returnedEntries limits (call :: rest) =
              [call.entry] ++ returnedEntries limits rest := by
            simp [returnedEntries, returned]
          rw [front, returns returned]
          exact sublist.cons_cons call.entry
      | false =>
          have same : returnedEntries limits (call :: rest) = returnedEntries limits rest := by
            simp [returnedEntries, returned]
          rw [same]
          exact sublist.trans (List.sublist_append_right _ _)

theorem returned_whole {file : Option ByteArray} {calls : List AppendCall}
    (clean : CleanCalls limits file calls) :
    ∀ entry ∈ returnedEntries limits calls, entry.Whole := by
  induction calls generalizing file with
  | nil => simp [returnedEntries]
  | cons call rest ih =>
      intro entry listed
      obtain ⟨other, member, rfl⟩ := List.mem_map.mp listed
      obtain ⟨present, returned⟩ := List.mem_filter.mp member
      rcases List.mem_cons.mp present with rfl | later
      · exact clean.1.whole returned
      · exact ih clean.2 other.entry
          (List.mem_map.mpr ⟨other, List.mem_filter.mpr ⟨later, returned⟩, rfl⟩)

theorem cleanCalls_front {file : Option ByteArray} {before after : List AppendCall}
    (clean : CleanCalls limits file (before ++ after)) : CleanCalls limits file before := by
  induction before generalizing file with
  | nil => trivial
  | cons call rest ih => exact ⟨clean.1, ih clean.2⟩

theorem entries_held (file : Option ByteArray) :
    entries limits (readFile file) = entries limits (.bytes (held file)) := by
  cases file with
  | none =>
      have empty : readText (held none) = some [] := (written_start limits).readText
      rw [entries_text empty]
      rfl
  | some content => rfl

/-- In every state that a clean sequence of appends reaches, the entries of the calls that have
returned are yielded in their order. -/
theorem returned_entries_yielded {before after : List AppendCall}
    (clean : CleanCalls limits none (before ++ after)) : YieldsReturned limits before := by
  have reached := cleanCalls_front clean
  obtain ⟨added, tail, written, sublist⟩ := (written_start limits).calls reached
  obtain ⟨more, read⟩ := written.entries_bytes
  have same : (returnedEntries limits before).map JournalRecord.read =
      (returnedEntries limits before).map fun entry => entry.joined.read := by
    refine List.map_congr_left fun entry listed => ?_
    rw [joined_eq_self.mpr (returned_whole reached entry listed)]
  unfold YieldsReturned journalAfter
  rw [entries_held, read, same]
  refine ⟨rfl, List.Sublist.trans ?_ (List.sublist_append_left _ _)⟩
  have mapped := sublist.map fun entry : WrittenEntry => entry.joined.read
  rwa [List.map_map] at mapped

end

theorem returned_entries_yielded_recorded :
    YieldsReturned Backup.interpreter
      [⟨Backup.recorded, .returned⟩, ⟨Backup.recorded, .torn 5⟩] := by
  obtain ⟨text, written⟩ := Option.isSome_iff_exists.mp Backup.recorded_written
  have whole : Backup.recorded.Whole := recorded_whole _ _ _
  refine @returned_entries_yielded _ _ [] ⟨⟨fun _ => Or.inl rfl, fun _ => whole⟩,
    ⟨fun _ => Or.inr ?_, fun _ => whole⟩, trivial⟩
  obtain ⟨line, _, rfl⟩ := Option.map_eq_some_iff.mp written
  refine ⟨line, ?_⟩
  simp only [append, written]
  rfl

/-- A line behind the first brace of another is no JSON. -/
theorem loads_braced {limits : Interpreter} {entry : WrittenEntry} {line : Text}
    (dumped : entry.line limits = some line) : loads limits ('\x7b' :: line) = .error .decode := by
  obtain ⟨rest, rfl⟩ := line_brace dumped
  obtain ⟨scan, _, same⟩ := loads_object limits ('\x7b' :: rest)
  have failed : scanObject scan ('\x7b' :: rest) = .error .decode := by
    rw [scanObject, skipSpace_solid (by decide)]
    exact scanMembers_unnamed _ _ rfl
  rw [same, failed]
  rfl

/-- The file after an entry of which one character was written, and an entry behind it. -/
theorem readText_torn {limits : Interpreter} {entry : WrittenEntry} {line : Text}
    (dumped : entry.line limits = some line) :
    readText (held (journalAfter limits [⟨entry, .torn 1⟩, ⟨entry, .returned⟩])) =
      some (joinLines ['\x7b' :: line] ++ []) := by
  have written : appended limits entry = some (line ++ ['\n']) := by
    rw [appended, dumped]
    rfl
  obtain ⟨rest, braced⟩ := line_brace dumped
  have front : (line ++ ['\n']).take 1 = ['\x7b'] := by
    rw [braced]
    rfl
  have content : held (journalAfter limits [⟨entry, .torn 1⟩, ⟨entry, .returned⟩]) =
      encode [] ++ encode ['\x7b'] ++ encode (line ++ ['\n']) := by
    simp only [journalAfter, List.foldl_cons, List.foldl_nil, append, written, front]
    rfl
  have carriageFree : '\r' ∉ [] ++ ['\x7b'] ++ (line ++ ['\n']) := by
    have clear := carriage_not_mem (line_unbroken dumped)
    simp [clear]
  rw [readText, content, ← encode_append, ← encode_append, decode_encode, Option.map_some,
    Cron.translateNewlines_carriageFree carriageFree]
  simp [joinLines]

/-- One character of an entry is left behind, and the next entry is lost with it. -/
theorem torn_front_swallows :
    ¬ YieldsReturned Backup.interpreter
      [⟨Backup.recorded, .torn 1⟩, ⟨Backup.recorded, .returned⟩] := by
  obtain ⟨text, written⟩ := Option.isSome_iff_exists.mp Backup.recorded_written
  obtain ⟨line, dumped, rfl⟩ := Option.map_eq_some_iff.mp written
  have unbroken : ∀ other ∈ ['\x7b' :: line], Unbroken other := by
    intro other listed
    rw [List.mem_singleton.mp listed]
    intro c found
    rcases List.mem_cons.mp found with rfl | inside
    · decide
    · exact line_unbroken dumped c inside
  have split : splitLines (joinLines ['\x7b' :: line] ++ []) = ['\x7b' :: line] := by
    rw [splitLines_joinLines unbroken]
    rfl
  have parsed : parseLine Backup.interpreter ('\x7b' :: line) = .error .jsonDecode := by
    rw [parseLine, loads_braced dumped]
    rfl
  have none_ : (entries Backup.interpreter (readFile (journalAfter Backup.interpreter
      [⟨Backup.recorded, .torn 1⟩, ⟨Backup.recorded, .returned⟩]))).yielded = [] := by
    rw [entries_held, entries_text (readText_torn dumped), split,
      readLines_caught (isBlank_of_brace line) parsed rfl]
    rfl
  have returned : returnedEntries Backup.interpreter
      [⟨Backup.recorded, .torn 1⟩, ⟨Backup.recorded, .returned⟩] = [Backup.recorded] := by
    simp [returnedEntries, AppendCall.returns, written]
  rintro ⟨_, yielded⟩
  rw [none_, returned] at yielded
  cases yielded

end TaskControl.Journal
