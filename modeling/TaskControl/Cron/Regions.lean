import TaskControl.Common.Errors
import TaskControl.Cron.Markers

/-!
# Marked regions in a crontab

Finding, replacing and removing one task's marked region.  Lines are found by
`splitlines()` and cut by `splitlines(keepends=True)`; the two agree on indices.
-/

set_option autoImplicit false

namespace TaskControl.Cron

open PythonText

structure ManagedRegion where
  slug : Text
  taskId : Text
  digest : Text
  start : Nat
  stop : Nat
  lines : List Text
  deriving DecidableEq, Repr

/-- The region as text, newline-terminated. -/
def ManagedRegion.text (region : ManagedRegion) : Text := joinLines region.lines

/-- The loop of `find_managed_regions` from line `index` on.  `opened` is the
begin marker still waiting for its end, `rest` the lines not yet read. -/
def scanRegions (lines : List Text) :
    Nat → Option (Nat × Identity) → List Text → Except TaskControlError (List ManagedRegion)
  | _, none, [] => .ok []
  | _, some _, [] => .error (ambiguousManagedContentError
      ("A managed region begins and never ends. Something truncated the file, or an " ++
        "end marker was deleted by hand."))
  | index, opened, line :: rest =>
      match matchBegin line with
      | some begins =>
          match opened with
          | some _ => .error (ambiguousManagedContentError
              ("A managed region begins inside another managed region. TaskControl " ++
                "will not guess where one ends and the next starts."))
          | none => scanRegions lines (index + 1) (some (index, begins)) rest
      | none =>
          match matchEnd line with
          | none => scanRegions lines (index + 1) opened rest
          | some slug =>
              match opened with
              | none => .error (ambiguousManagedContentError
                  "A managed region ends without having begun.")
              | some (openAt, opening) =>
                  if slug ≠ opening.slug then .error (ambiguousManagedContentError
                    "A managed region ends with a different task than it began with.")
                  else do
                    let regions ← scanRegions lines (index + 1) none rest
                    return ⟨opening.slug, opening.taskId, opening.digest, openAt, index,
                      (lines.drop openAt).take (index + 1 - openAt)⟩ :: regions

/-- Raises at the first entry whose task identifier was already seen. -/
def assertDistinct {α : Type} (taskId : α → Text) (problem : α → TaskControlError) :
    List Text → List α → Except TaskControlError Unit
  | _, [] => .ok ()
  | seen, entry :: rest =>
      if taskId entry ∈ seen then .error (problem entry)
      else assertDistinct taskId problem (taskId entry :: seen) rest

/-- `_assert_unique`. -/
def assertUnique : List ManagedRegion → Except TaskControlError Unit :=
  assertDistinct ManagedRegion.taskId (fun region => ambiguousManagedContentError
    (s!"Two managed regions claim the task '{String.ofList region.slug}'. Rewriting either " ++
      "one could leave the other running stale work, so TaskControl will not " ++
      "choose between them. Remove the wrong region by hand.")) []

def findManagedRegions (content : Text) : Except TaskControlError (List ManagedRegion) := do
  let lines := splitLines content
  let regions ← scanRegions lines 0 none lines
  assertUnique regions
  return regions

/-- The newline that an insertion at the end puts before itself. -/
def separator (content : Text) : Text := if endsWithNewline content then [] else ['\n']

/-- The text with something inserted after it. -/
def appended (content new : Text) : Text :=
  if content = [] then new else content ++ separator content ++ new

def replaceRegion (content slug rendered : Text) : Except TaskControlError Text := do
  let regions ← findManagedRegions content
  match regions.find? (·.slug = slug) with
  | none => return appended content rendered
  | some existing =>
      let lines := splitKeep content
      let replacement := splitKeep rendered
      return (lines.take existing.start ++ replacement ++ lines.drop (existing.stop + 1)).flatten

def removeRegion (content slug : Text) : Except TaskControlError Text := do
  let regions ← findManagedRegions content
  match regions.find? (·.slug = slug) with
  | none => return content
  | some existing =>
      let lines := splitKeep content
      return (lines.take existing.start ++ lines.drop (existing.stop + 1)).flatten

theorem assertDistinct_eq_ok {α : Type} {taskId : α → Text} {problem : α → TaskControlError}
    {seen : List Text} {entries : List α} :
    assertDistinct taskId problem seen entries = .ok () ↔
      (entries.map taskId).Nodup ∧ ∀ entry ∈ entries, taskId entry ∉ seen := by
  induction entries generalizing seen with
  | nil => simp [assertDistinct]
  | cons entry rest ih =>
      by_cases known : taskId entry ∈ seen
      · simp [assertDistinct, known]
      · simp only [assertDistinct, known, if_false, ih, List.map_cons, List.nodup_cons,
          List.mem_cons, not_or, List.mem_map, not_exists, not_and]
        constructor
        · rintro ⟨distinct, fresh⟩
          refine ⟨⟨fun other member => (fresh other member).1, distinct⟩, ?_⟩
          rintro other (rfl | member)
          · exact known
          · exact (fresh other member).2
        · rintro ⟨⟨fresh, distinct⟩, unseen⟩
          exact ⟨distinct, fun other member => ⟨fresh other member, unseen other (Or.inr member)⟩⟩

end TaskControl.Cron
