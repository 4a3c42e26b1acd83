import TaskControl.Cron.Regions
import TaskControl.Cron.Rendering

/-!
# The single managed block

One block per crontab holds the entries of every capability deployed in that
form; an identity comment opens each entry.
-/

set_option autoImplicit false

namespace TaskControl.Cron

open PythonText

structure BlockMember where
  slug : Text
  taskId : Text
  digest : Text
  lines : List Text
  deriving DecidableEq, Repr

/-- The entry as text, newline-terminated. -/
def BlockMember.text (member : BlockMember) : Text := joinLines member.lines

/-- The loop of `_block_bounds` from line `index` on.  A second end marker is
accepted and replaces the first. -/
def scanBlock : Nat → Option Nat → Option Nat → List Text →
    Except TaskControlError (Option Nat × Option Nat)
  | _, start, stop, [] => .ok (start, stop)
  | index, start, stop, line :: rest =>
      if (matchBlockBegin line).isSome then
        match start with
        | some _ => .error (ambiguousManagedContentError
            ("The crontab contains two managed blocks. TaskControl will not choose " ++
              "between them."))
        | none => scanBlock (index + 1) (some index) stop rest
      else if (matchBlockEnd line).isSome then
        match start with
        | none => .error (ambiguousManagedContentError
            "A managed block ends without having begun.")
        | some _ => scanBlock (index + 1) start (some index) rest
      else scanBlock (index + 1) start stop rest

def blockBounds (content : Text) : Except TaskControlError (Option (Nat × Nat)) := do
  match ← scanBlock 0 none none (splitLines content) with
  | (none, _) => return none
  | (some _, none) => throw (ambiguousManagedContentError
      ("The managed block begins and never ends. Something truncated the file, or an " ++
        "end marker was deleted by hand."))
  | (some start, some stop) => return some (start, stop)

/-- `_member`. -/
def toMember (identity : Identity) (lines : List Text) : BlockMember :=
  ⟨identity.slug, identity.taskId, identity.digest, lines⟩

/-- The loop of `find_block_members`; `current` is the entry being collected. -/
def scanMembers : Option (Identity × List Text) → List Text → List BlockMember
  | none, [] => []
  | some (identity, body), [] => [toMember identity body]
  | current, line :: rest =>
      match matchMember line with
      | some identity =>
          match current with
          | some (previous, body) =>
              toMember previous body :: scanMembers (some (identity, [line])) rest
          | none => scanMembers (some (identity, [line])) rest
      | none =>
          match current with
          | some (identity, body) => scanMembers (some (identity, body ++ [line])) rest
          | none => scanMembers none rest

/-- `_assert_members_unique`. -/
def assertMembersUnique : List BlockMember → Except TaskControlError Unit :=
  assertDistinct BlockMember.taskId (fun member => ambiguousManagedContentError
    (s!"The managed block contains two entries for '{String.ofList member.slug}'. Rewriting " ++
      "either could leave the other running stale work, so TaskControl will not " ++
      "choose between them. Remove the wrong entry by hand.")) []

def findBlockMembers (content : Text) : Except TaskControlError (List BlockMember) := do
  match ← blockBounds content with
  | none => return []
  | some (start, stop) =>
      let members := scanMembers none (((splitLines content).take stop).drop (start + 1))
      assertMembersUnique members
      return members

/-- The text of a whole block around its members. -/
def blockText (members : Text) : Text :=
  blockBeginMarker ++ '\n' :: generatedNotice ++ '\n' :: members ++ blockEndMarker ++ ['\n']

/-- `_rewrite_block`. -/
def rewriteBlock (content : Text) (bounds : Nat × Nat) (members : List Text) : Text :=
  let lines := splitKeep content
  (lines.take bounds.1 ++ [blockText members.flatten] ++ lines.drop (bounds.2 + 1)).flatten

def upsertBlockMember (content slug member : Text) : Except TaskControlError Text := do
  match ← blockBounds content with
  | none => return appended content (blockText member)
  | some bounds =>
      let members ← findBlockMembers content
      let rebuilt := members.map fun existing =>
        if existing.slug = slug then member else existing.text
      let replaced := members.any (·.slug = slug)
      return rewriteBlock content bounds (if replaced then rebuilt else rebuilt ++ [member])

def removeBlockMember (content slug : Text) : Except TaskControlError Text := do
  match ← blockBounds content with
  | none => return content
  | some bounds =>
      let members ← findBlockMembers content
      let remaining := (members.filter (·.slug ≠ slug)).map BlockMember.text
      if remaining = [] then
        let lines := splitKeep content
        return (lines.take bounds.1 ++ lines.drop (bounds.2 + 1)).flatten
      else return rewriteBlock content bounds remaining

end TaskControl.Cron
