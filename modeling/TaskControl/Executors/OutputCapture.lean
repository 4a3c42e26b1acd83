import TaskControl.Foundation.PythonText

/-!
# Captured output

How the subprocess executor keeps what a process writes.  A stream is read line by line,
decoded and with its newlines translated; a line is kept whole as long as the bytes kept
before it are fewer than the limit, and everything after that is dropped.
-/

set_option autoImplicit false

namespace TaskControl.OutputCapture

open PythonText

/-! ## The program -/

/-- The lines of a text stream, each with its newline. -/
def iterLines : Text → List Text
  | [] => []
  | c :: rest =>
      if c = '\n' then [c] :: iterLines rest
      else
        match iterLines rest with
        | [] => [[c]]
        | line :: lines => (c :: line) :: lines

/-- `len(text.encode("utf-8"))`. -/
def byteLength (t : Text) : Nat := (t.map Char.utf8Size).sum

/-- One stream of `_StreamCollector`: what is kept, its size and whether lines were dropped. -/
structure Capture where
  sink : List Text
  collected : Nat
  truncated : Bool

/-- The round of `_drain` for one line. -/
def drainLine (limit : Nat) (capture : Capture) (line : Text) : Capture :=
  if limit ≤ capture.collected then { capture with truncated := true }
  else { capture with
    sink := capture.sink ++ [line], collected := capture.collected + byteLength line }

/-- `_drain`. -/
def drain (limit : Nat) (stream : Text) : Capture :=
  (iterLines stream).foldl (drainLine limit) ⟨[], 0, false⟩

structure ExecutionOutput where
  stdout : Text
  stderr : Text
  stdoutTruncated : Bool
  stderrTruncated : Bool
  deriving DecidableEq

/-- What `_StreamCollector` returns when both streams have been drained. -/
def output (limit : Nat) (stdout stderr : Text) : ExecutionOutput where
  stdout := (drain limit stdout).sink.flatten
  stderr := (drain limit stderr).sink.flatten
  stdoutTruncated := (drain limit stdout).truncated
  stderrTruncated := (drain limit stderr).truncated

example : output 4 "ab\ncdef\ng".toList [] =
    ⟨"ab\ncdef\n".toList, [], true, false⟩ := by decide

/-! ## Lines and bytes -/

theorem iterLines_flatten (stream : Text) : (iterLines stream).flatten = stream := by
  induction stream with
  | nil => rfl
  | cons c rest ih =>
      rw [iterLines]
      split_ifs
      · rw [List.flatten_cons, ih, List.singleton_append]
      · cases lines : iterLines rest with
        | nil =>
            rw [lines] at ih
            rw [← ih]
            rfl
        | cons line others =>
            rw [lines] at ih
            rw [← ih]
            rfl

theorem iterLines_nonempty {stream line : Text} (found : line ∈ iterLines stream) : line ≠ [] := by
  induction stream generalizing line with
  | nil => cases found
  | cons c rest ih =>
      rw [iterLines] at found
      split_ifs at found
      · rcases List.mem_cons.mp found with rfl | later
        · exact List.cons_ne_nil _ _
        · exact ih later
      · cases lines : iterLines rest with
        | nil =>
            rw [lines] at found
            rw [List.mem_singleton.mp found]
            exact List.cons_ne_nil _ _
        | cons first others =>
            rw [lines] at found
            rcases List.mem_cons.mp found with rfl | later
            · exact List.cons_ne_nil _ _
            · exact ih (by rw [lines]; exact List.mem_cons_of_mem _ later)

theorem byteLength_append (first rest : Text) :
    byteLength (first ++ rest) = byteLength first + byteLength rest := by
  simp [byteLength]

theorem byteLength_front {front whole : Text} (cut : front <+: whole) :
    byteLength front ≤ byteLength whole := by
  obtain ⟨rest, rfl⟩ := cut
  rw [byteLength_append]
  omega

/-! ## What is kept -/

/-- The lines kept: those that begin before the limit. -/
structure Kept (limit : Nat) (lines front back : List Text) : Prop where
  whole : lines = front ++ back
  begins : ∀ init last, front = init ++ [last] → byteLength init.flatten < limit
  full : back ≠ [] → limit ≤ byteLength front.flatten

/-- Behind the limit every line is dropped. -/
theorem drained_full {limit : Nat} (lines : List Text) {capture : Capture}
    (full : limit ≤ capture.collected) :
    lines.foldl (drainLine limit) capture =
      { capture with truncated := capture.truncated || !lines.isEmpty } := by
  induction lines generalizing capture with
  | nil => simp
  | cons line rest ih =>
      have next : limit ≤ (drainLine limit capture line).collected := by
        rw [drainLine, if_pos full]
        exact full
      rw [List.foldl_cons, ih next, drainLine, if_pos full]
      simp

theorem drained (limit : Nat) (lines sink : List Text) {capture : Capture}
    (shape : capture = ⟨sink, byteLength sink.flatten, false⟩)
    (begins : ∀ init last, sink = init ++ [last] → byteLength init.flatten < limit) :
    ∃ front back, Kept limit (sink ++ lines) front back ∧
      lines.foldl (drainLine limit) capture =
        ⟨front, byteLength front.flatten, !back.isEmpty⟩ := by
  induction lines generalizing sink capture with
  | nil =>
      refine ⟨sink, [], ⟨rfl, begins, by simp⟩, ?_⟩
      rw [shape]
      rfl
  | cons line rest ih =>
      by_cases full : limit ≤ byteLength sink.flatten
      · refine ⟨sink, line :: rest, ⟨rfl, begins, fun _ => full⟩, ?_⟩
        rw [shape, drained_full _ full]
        rfl
      · have next : drainLine limit capture line =
            ⟨sink ++ [line], byteLength (sink ++ [line]).flatten, false⟩ := by
          rw [shape, drainLine, if_neg full, List.flatten_append, byteLength_append,
            List.flatten_singleton]
        have still : ∀ init last, sink ++ [line] = init ++ [last] →
            byteLength init.flatten < limit := by
          intro init last same
          obtain ⟨rfl, _⟩ := List.append_inj' same rfl
          omega
        obtain ⟨front, back, kept, result⟩ := ih (sink ++ [line]) next still
        rw [List.append_assoc, List.singleton_append] at kept
        exact ⟨front, back, kept, result⟩

theorem drain_kept (limit : Nat) (stream : Text) :
    ∃ front back, Kept limit (iterLines stream) front back ∧
      drain limit stream = ⟨front, byteLength front.flatten, !back.isEmpty⟩ :=
  drained limit (iterLines stream) [] rfl (by simp)

/-! ## The bound -/

/-- What is kept of a stream is a prefix of it within the limit, and it is said to be truncated
exactly if something was dropped. -/
structure Honest (limit : Nat) (stream kept : Text) (truncated : Bool) : Prop where
  isPrefix : kept <+: stream
  bounded : byteLength kept ≤ limit
  flagged : truncated = true ↔ kept ≠ stream

/-- Every line that begins before the limit ends by it. -/
def Fits (limit : Nat) (stream : Text) : Prop :=
  ∀ before line after, iterLines stream = before ++ line :: after →
    byteLength before.flatten < limit → byteLength (before ++ [line]).flatten ≤ limit

theorem Kept.bounded_iff {limit : Nat} {stream : Text} {front back : List Text}
    (kept : Kept limit (iterLines stream) front back) :
    byteLength front.flatten ≤ limit ↔ Fits limit stream := by
  constructor
  · intro bounded before line after lines early
    have cuts : before ++ line :: after = front ++ back := by rw [← lines, kept.whole]
    rcases List.append_eq_append_iff.mp cuts with ⟨more, rfl, rest⟩ | ⟨more, rfl, rest⟩
    · cases more with
      | nil =>
          have some_ : back ≠ [] := by
            rw [← List.nil_append back, ← rest]
            exact List.cons_ne_nil _ _
          have full := kept.full some_
          rw [List.append_nil] at full
          omega
      | cons first others =>
          obtain rfl := (List.cons.inj rest).1
          have cut : (before ++ [line]).flatten <+: (before ++ line :: others).flatten := by
            refine ⟨others.flatten, ?_⟩
            simp
          exact le_trans (byteLength_front cut) bounded
    · have some_ : back ≠ [] := by
        rw [rest]
        simp
      have full := kept.full some_
      rw [List.flatten_append, byteLength_append] at early
      omega
  · intro fits
    rcases List.eq_nil_or_concat front with rfl | ⟨init, last, rfl⟩
    · exact Nat.zero_le _
    · rw [List.concat_eq_append] at kept ⊢
      have lines := kept.whole
      rw [List.append_assoc] at lines
      exact fits init last back lines (kept.begins init last rfl)

theorem drain_honest_iff (limit : Nat) (stream : Text) :
    Honest limit stream (drain limit stream).sink.flatten (drain limit stream).truncated ↔
      Fits limit stream := by
  obtain ⟨front, back, kept, result⟩ := drain_kept limit stream
  have whole : stream = front.flatten ++ back.flatten := by
    rw [← List.flatten_append, ← kept.whole, iterLines_flatten]
  rw [result]
  constructor
  · intro honest
    exact kept.bounded_iff.mp honest.bounded
  · intro fits
    refine ⟨⟨back.flatten, whole.symm⟩, kept.bounded_iff.mpr fits, ?_⟩
    cases back with
    | nil => simp [whole]
    | cons line others =>
        have nonempty : line ≠ [] := by
          refine @iterLines_nonempty stream line ?_
          rw [kept.whole]
          simp
        rw [whole]
        simp [nonempty]

end TaskControl.OutputCapture
