import TaskControl.Cron.BlockEdits
import TaskControl.Cron.Stores

/-!
# The bytes of a crontab file

A crontab file is read and written as text: `\r\n` and a lone `\r` arrive as
newlines, and newlines are written.  An edit that changes one entry of the text
then changes one entry of the file, unless a line around it ends with a `\r`.
-/

set_option autoImplicit false

namespace TaskControl.Cron

open PythonText

/-! ## The file -/

/-- The bytes of a text in UTF-8. -/
def encode (text : Text) : ByteArray := (String.ofList text).toUTF8

/-- The text of UTF-8 bytes. -/
def decode (bytes : ByteArray) : Option Text := (String.fromUTF8? bytes).map String.toList

namespace FileCrontab

/-- `FileCrontab.read` of a file that exists; none where it is not UTF-8. -/
def read (bytes : ByteArray) : Option Text := (decode bytes).map translateNewlines

/-- What `FileCrontab.write` leaves in the file. -/
def write (content : Text) : ByteArray := encode content

end FileCrontab

/-! ## What an edit keeps -/

def linesBefore (text : Text) (start : Nat) : Text := ((splitKeep text).take start).flatten

def linesFrom (text : Text) (stop : Nat) : Text := ((splitKeep text).drop stop).flatten

/-- The new file is the old one with a text in the place of the lines from `start` to `stop`, but
for a newline behind the last line where the text is put behind it. -/
def KeepsAround (file : Text) (start stop : Nat) (text : Text) (written : ByteArray) : Prop :=
  ∃ gap, (gap = [] ∨ gap = ['\n'] ∧ (splitKeep file).length ≤ start) ∧
    written = encode (linesBefore file start) ++ encode gap ++ encode text ++
      encode (linesFrom file stop)

/-- No line before `start` or from `stop` on ends with a carriage return, also not before a
newline. -/
def CarriageFree (file : Text) (start stop : Nat) : Prop :=
  '\r' ∉ linesBefore file start ∧ '\r' ∉ linesFrom file stop

/-- The lines of the slug's first region, or the place behind the last line. -/
def regionSpot (content slug : Text) (regions : List ManagedRegion) : Nat × Nat :=
  match regions.find? (·.slug = slug) with
  | some region => (region.start, region.stop + 1)
  | none => ((splitKeep content).length, (splitKeep content).length)

def memberLines (members : List BlockMember) : List Text := members.flatMap BlockMember.lines

/-- The slug's entry among the entries of the block, or the place behind them. -/
structure HeldOnce (slug : Text) (members front held back : List BlockMember) : Prop where
  whole : members = front ++ held ++ back
  once : held.length ≤ 1
  mine : ∀ member ∈ held, member.slug = slug
  others : ∀ member ∈ front ++ back, member.slug ≠ slug
  last : held = [] → back = []

/-- The lines of the block from `start` to `stop`, without those of the entry, are as the renderer
writes them. -/
structure AsRendered (content : Text) (start first last stop : Nat)
    (front back : List BlockMember) : Prop where
  head : ((splitKeep content).take first).drop start =
    (blockBeginMarker :: generatedNotice :: memberLines front).map fun line => line ++ ['\n']
  tail : ((splitKeep content).drop last).take (stop + 1 - last) =
    (memberLines back ++ [blockEndMarker]).map fun line => line ++ ['\n']

/-- Of a file whose block ends at line `stop`, or which has none. -/
def EntryKept (file slug text : Text) (members : List BlockMember) (written : ByteArray) :
    Option (Nat × Nat) → Prop
  | none =>
      KeepsAround file (splitKeep file).length (splitKeep file).length (blockText text) written
  | some (_, stop) => ∃ front held back, HeldOnce slug members front held back ∧
      KeepsAround file (stop - (memberLines (held ++ back)).length)
        (stop - (memberLines back).length) text written

/-- No carriage return in the lines around the entry, which are the renderer's own as far as they
are of the block. -/
def EntryClean (file content slug : Text) (members : List BlockMember) :
    Option (Nat × Nat) → Prop
  | none => CarriageFree file (splitKeep file).length (splitKeep file).length
  | some (start, stop) => ∃ front held back, HeldOnce slug members front held back ∧
      CarriageFree file (stop - (memberLines (held ++ back)).length)
        (stop - (memberLines back).length) ∧
      AsRendered content start (stop - (memberLines (held ++ back)).length)
        (stop - (memberLines back).length) stop front back

/-! ## Bytes and texts -/

theorem encode_append (first second : Text) :
    encode (first ++ second) = encode first ++ encode second := by
  unfold encode
  rw [String.ofList_append]
  rfl

theorem encode_inj {first second : Text} : encode first = encode second ↔ first = second := by
  unfold encode
  rw [String.toUTF8_eq_toByteArray, String.toUTF8_eq_toByteArray, String.toByteArray_inj,
    String.ofList_inj]

theorem encode_decoded {bytes : ByteArray} {file : Text} (decoded : decode bytes = some file) :
    bytes = encode file := by
  obtain ⟨string, converted, rfl⟩ := Option.map_eq_some_iff.mp decoded
  unfold String.fromUTF8? at converted
  split at converted
  · next valid =>
      obtain rfl := Option.some.inj converted
      rw [encode, String.ofList_toList]
      rfl
  · cases converted

theorem decode_encode (text : Text) : decode (encode text) = some text := by
  have valid : (String.ofList text).toByteArray.IsValidUTF8 := (String.ofList text).isValidUTF8
  unfold decode encode String.fromUTF8?
  rw [String.toUTF8_eq_toByteArray, dif_pos valid]
  exact congrArg some (String.toList_ofList)

/-- A host's crontab is the text of the file. -/
theorem readCrontab_bytes {host : Host} {c : CrontabName} {file : Text}
    (held : host.crontab c = some file) :
    FileCrontab.read (encode file) = some (host.readCrontab c) := by
  rw [FileCrontab.read, decode_encode, Host.readCrontab, held]
  rfl

theorem writeCrontab_bytes (host : Host) (c : CrontabName) (content : Text) :
    decode (FileCrontab.write content) = (host.writeCrontab c content).crontab c := by
  rw [FileCrontab.write, decode_encode, Host.writeCrontab]
  simp

/-! ## Reading lines -/

/-- A text is read line by line. -/
theorem splitKeep_translate (t : Text) :
    splitKeep (translateNewlines t) = (splitKeep t).map translateNewlines := by
  induction t using translateNewlines.induct with
  | case1 => rfl
  | case2 rest ih =>
      have pair : splitKeep ('\r' :: '\n' :: rest) = ['\r', '\n'] :: splitKeep rest := by
        rw [splitKeep_cons, splitKeep_feed]
        rfl
      rw [pair, translateNewlines, splitKeep_feed, ih]
      rfl
  | case3 c rest apart ih =>
      by_cases carriage : c = '\r'
      · subst carriage
        have alone : splitKeep ('\r' :: rest) = ['\r'] :: splitKeep rest := by
          rw [splitKeep_cons, pushChar_carriage]
          intro lines starts
          have head := head_of_feed starts
          cases rest with
          | nil => cases head
          | cons d more => exact apart more rfl (by rw [Option.some.inj head])
        rw [alone, translateNewlines, if_pos rfl, splitKeep_feed, ih]
        · rfl
        · exact apart
      · rw [translateNewlines_cons carriage, splitKeep_cons, splitKeep_cons, ih]
        cases breaks : isLineBreak c with
        | true =>
            have own (lines : List Text) : pushChar c lines = [c] :: lines := by
              simp [pushChar, carriage, breaks]
            rw [own, own, List.map_cons, translateNewlines_cons carriage]
            rfl
        | false =>
            cases splitKeep rest with
            | nil =>
                have own : pushChar c [] = [[c]] := by simp [pushChar, carriage, breaks]
                rw [List.map_nil, own, List.map_singleton, translateNewlines_cons carriage]
                rfl
            | cons line more =>
                rw [List.map_cons, pushChar_unbroken breaks, pushChar_unbroken breaks,
                  List.map_cons, translateNewlines_cons carriage]

theorem flatten_translate {lines : List Text} (free : '\r' ∉ lines.flatten) :
    (lines.map translateNewlines).flatten = lines.flatten := by
  induction lines with
  | nil => rfl
  | cons line rest ih =>
      rw [List.flatten_cons, List.mem_append, not_or] at free
      rw [List.map_cons, List.flatten_cons, List.flatten_cons, ih free.2,
        translateNewlines_carriageFree free.1]

theorem linesBefore_translate {file : Text} {start : Nat} (free : '\r' ∉ linesBefore file start) :
    linesBefore (translateNewlines file) start = linesBefore file start := by
  unfold linesBefore at *
  rw [splitKeep_translate, ← List.map_take, flatten_translate free]

theorem linesFrom_translate {file : Text} {stop : Nat} (free : '\r' ∉ linesFrom file stop) :
    linesFrom (translateNewlines file) stop = linesFrom file stop := by
  unfold linesFrom at *
  rw [splitKeep_translate, ← List.map_drop, flatten_translate free]

/-! ## Regions -/

theorem length_translate (file : Text) :
    (splitKeep (translateNewlines file)).length = (splitKeep file).length := by
  rw [splitKeep_translate, List.length_map]

theorem linesBefore_all (text : Text) : linesBefore text (splitKeep text).length = text := by
  rw [linesBefore, List.take_length, splitKeep_flatten]

theorem linesFrom_all (text : Text) : linesFrom text (splitKeep text).length = [] := by
  rw [linesFrom, List.drop_length, List.flatten_nil]

theorem not_mem_flatten_of_sublist {lines more : List Text} (sub : lines.Sublist more)
    (free : '\r' ∉ more.flatten) : '\r' ∉ lines.flatten := fun member => by
  obtain ⟨line, inLines, within⟩ := List.mem_flatten.mp member
  exact free (List.mem_flatten.mpr ⟨line, sub.subset inLines, within⟩)

theorem linesBefore_free (file : Text) (start : Nat) :
    '\r' ∉ linesBefore (translateNewlines file) start := by
  apply not_mem_flatten_of_sublist (List.take_sublist start _)
  rw [splitKeep_flatten]
  exact carriage_not_mem_translate file

theorem linesFrom_free (file : Text) (stop : Nat) :
    '\r' ∉ linesFrom (translateNewlines file) stop := by
  apply not_mem_flatten_of_sublist (List.drop_sublist stop _)
  rw [splitKeep_flatten]
  exact carriage_not_mem_translate file

/-- A text put among lines that were read brings in all the carriage returns there are. -/
theorem carriageFree_of_keeps {file text result : Text} {start stop : Nat}
    (keeps : KeepsAround file start stop text (encode result))
    (count : result.count '\r' = text.count '\r') : CarriageFree file start stop := by
  obtain ⟨gap, _, written⟩ := keeps
  rw [← encode_append, ← encode_append, ← encode_append, encode_inj] at written
  rw [written] at count
  simp only [List.count_append] at count
  constructor <;> rw [← List.count_eq_zero] <;> omega

theorem appended_gap (content text : Text) :
    ∃ gap, (gap = [] ∨ gap = ['\n']) ∧ appended content text = content ++ gap ++ text := by
  unfold appended separator
  split
  · next none_ => exact ⟨[], Or.inl rfl, by simp [none_]⟩
  · split
    · exact ⟨[], Or.inl rfl, rfl⟩
    · exact ⟨['\n'], Or.inr rfl, rfl⟩

/-- A text is put behind a file that was read, and the file is kept exactly if it has no carriage
return. -/
theorem appended_keeps_iff {file text : Text} (size : Nat)
    (whole : size = (splitKeep file).length) :
    KeepsAround file size size text (encode (appended (translateNewlines file) text)) ↔
      CarriageFree file size size := by
  subst whole
  obtain ⟨gap, either, shape⟩ := appended_gap (translateNewlines file) text
  constructor
  · intro keeps
    apply carriageFree_of_keeps keeps
    have none_ : (translateNewlines file).count '\r' = 0 :=
      List.count_eq_zero.mpr (carriage_not_mem_translate file)
    have none_' : gap.count '\r' = 0 := by rcases either with rfl | rfl <;> rfl
    rw [shape, List.count_append, List.count_append, none_, none_', Nat.zero_add]
  · rintro ⟨free, _⟩
    have same := linesBefore_translate free
    rw [← length_translate, linesBefore_all] at same
    refine ⟨gap, either.imp_right fun newline => ⟨newline, Nat.le_refl _⟩, ?_⟩
    rw [shape, linesFrom_all, ← encode_append, ← encode_append, ← encode_append, List.append_nil,
      same, length_translate]

theorem region_kept_iff {file slug rendered : Text} {regions : List ManagedRegion}
    (found : findManagedRegions (translateNewlines file) = .ok regions) (spot : Nat × Nat)
    (here : spot = regionSpot (translateNewlines file) slug regions) :
    (∃ result, replaceRegion (translateNewlines file) slug rendered = .ok result ∧
        KeepsAround file spot.1 spot.2 rendered (encode result)) ↔
      CarriageFree file spot.1 spot.2 := by
  cases chosen : regions.find? (·.slug = slug) with
  | none =>
      have returned : replaceRegion (translateNewlines file) slug rendered =
          .ok (appended (translateNewlines file) rendered) := by
        simp only [replaceRegion, found, bind, Except.bind, chosen, pure, Except.pure]
      have spots : spot = ((splitKeep file).length, (splitKeep file).length) := by
        rw [here, regionSpot, chosen, length_translate]
      rw [returned, spots]
      simpa using appended_keeps_iff _ rfl
  | some region =>
      have returned : replaceRegion (translateNewlines file) slug rendered =
          .ok (linesBefore (translateNewlines file) region.start ++ rendered ++
            linesFrom (translateNewlines file) (region.stop + 1)) := by
        simp only [replaceRegion, found, bind, Except.bind, chosen, pure, Except.pure,
          List.flatten_append, splitKeep_flatten, linesBefore, linesFrom]
      have spots : spot = (region.start, region.stop + 1) := by
        rw [here, regionSpot, chosen]
      rw [returned, spots]
      constructor
      · rintro ⟨result, same, keeps⟩
        obtain rfl := Except.ok.inj same
        apply carriageFree_of_keeps keeps
        rw [List.count_append, List.count_append,
          List.count_eq_zero.mpr (linesBefore_free file _),
          List.count_eq_zero.mpr (linesFrom_free file _)]
        omega
      · rintro ⟨before, after⟩
        refine ⟨_, rfl, [], Or.inl rfl, ?_⟩
        rw [linesBefore_translate before, linesFrom_translate after, ← encode_append,
          ← encode_append, ← encode_append, List.append_nil]

/-! ## The block -/

/-- Terminated lines around a text that ends its last line are the same in both texts, if there are
as many behind it. -/
theorem lines_around_eq {front front' back back' rest : List Text} {text : Text}
    (closed : Closed text) (terminated : ∀ line ∈ front, Terminated line)
    (terminated' : ∀ line ∈ front', Terminated line) (kept : KeptLines (back ++ rest))
    (kept' : KeptLines (back' ++ rest)) (length : back.length = back'.length) :
    front.flatten ++ text ++ (back ++ rest).flatten =
        front'.flatten ++ text ++ (back' ++ rest).flatten ↔ front = front' ∧ back = back' := by
  constructor
  · intro same
    have lines := congrArg splitKeep same
    rw [List.append_assoc, List.append_assoc, splitKeep_terminated terminated,
      splitKeep_terminated terminated', splitKeep_append closed, splitKeep_append closed,
      kept.splitKeep_flatten, kept'.splitKeep_flatten] at lines
    have sizes := congrArg List.length lines
    simp only [List.length_append] at sizes
    obtain ⟨same_, others⟩ := List.append_inj lines (by omega)
    exact ⟨same_, List.append_cancel_right (List.append_cancel_left others)⟩
  · rintro ⟨rfl, rfl⟩
    rfl

theorem joinLines_eq_flatten (lines : List Text) :
    joinLines lines = (lines.map fun line => line ++ ['\n']).flatten := by
  rw [joinLines, List.flatMap_def]

theorem terminated_map {lines : List Text} (unbroken : ∀ line ∈ lines, Unbroken line) :
    ∀ line ∈ lines.map (fun line => line ++ ['\n']), Terminated line := by
  intro line member
  obtain ⟨body, inLines, rfl⟩ := List.mem_map.mp member
  exact ⟨body, '\n', rfl, unbroken body inLines, by decide, by decide⟩

theorem flatten_texts (members : List BlockMember) :
    (members.map BlockMember.text).flatten = joinLines (memberLines members) := by
  induction members with
  | nil => rfl
  | cons member rest ih =>
      have lines : memberLines (member :: rest) = member.lines ++ memberLines rest := rfl
      rw [List.map_cons, List.flatten_cons, ih, lines, joinLines_append]
      rfl

/-- What is written to the block, for a slug with one entry at most. -/
theorem upserted_texts {slug text : Text} {members front held back : List BlockMember}
    (once : HeldOnce slug members front held back) :
    (if members.any (·.slug = slug) then
        members.map fun existing => if existing.slug = slug then text else existing.text
      else (members.map fun existing => if existing.slug = slug then text else existing.text) ++
        [text]).flatten =
      joinLines (memberLines front) ++ text ++ joinLines (memberLines back) := by
  have others (some_ : List BlockMember) (sub : ∀ member ∈ some_, member ∈ front ++ back) :
      (some_.map fun existing => if existing.slug = slug then text else existing.text) =
        some_.map BlockMember.text :=
    List.map_congr_left fun member inSome => if_neg (once.others member (sub member inSome))
  rw [once.whole, List.map_append, List.map_append,
    others front fun member => List.mem_append_left back,
    others back fun member => List.mem_append_right front]
  cases held : held with
  | nil =>
      have none_ := once.last held
      have missing : (front ++ [] ++ back).any (·.slug = slug) = false := by
        rw [none_, List.append_nil, List.append_nil, List.any_eq_false]
        intro member inFront
        simpa using once.others member (List.mem_append_left back inFront)
      rw [missing, none_]
      simp [flatten_texts, memberLines, joinLines]
  | cons member rest =>
      have single := once.once
      rw [held, List.length_cons] at single
      have none_ : rest = [] := List.length_eq_zero_iff.mp (by omega)
      have mine := once.mine member (by rw [held]; exact List.mem_cons_self)
      have present : (front ++ member :: rest ++ back).any (·.slug = slug) = true := by
        simp [mine]
      rw [present, none_, if_pos rfl]
      simp [mine, flatten_texts]

/-- Where the entries are that are found in a block. -/
structure EntriesIn (content : Text) (members : List BlockMember) (start stop : Nat) : Prop where
  within : start + 1 + (memberLines members).length ≤ stop
  inside : stop < (splitKeep content).length
  unbroken : ∀ line ∈ memberLines members, Unbroken line

theorem memberLines_toMember (entries : List Entry) :
    memberLines (entries.map Entry.toMember) = entryLines entries := by
  rw [memberLines, entryLines, List.flatMap_map]
  rfl

theorem entriesIn {content : Text} {members : List BlockMember} {start stop : Nat}
    (found : findBlockMembers content = .ok members)
    (bounds : blockBounds content = .ok (some (start, stop))) :
    EntriesIn content members start stop := by
  obtain ⟨block, cut, rfl, rfl⟩ := blockLines_of_bounds bounds
  obtain ⟨preamble, entries, inside, quiet⟩ := entries_of_lines block.inside
  obtain ⟨rfl, _⟩ := (findBlockMembers_lines cut inside quiet).mp found
  have more : (entryLines entries).length ≤ block.inside.length := by
    rw [inside, List.length_append]
    omega
  have length := congrArg List.length cut
  rw [splitLines, List.length_map] at length
  refine ⟨?_, ?_, fun line member => ?_⟩
  · rw [memberLines_toMember]
    unfold BlockLines.start BlockLines.stop
    omega
  · rw [length]
    simp only [BlockLines.lines, BlockLines.stop, List.length_append, List.length_cons]
    omega
  · rw [memberLines_toMember] at member
    apply @unbroken_of_mem_splitLines content
    rw [cut]
    simp [BlockLines.lines, inside, member]

/-- The text that is written in place of the block, between what is before and behind it. -/
theorem upserted_between {content slug text : Text} {members front held back : List BlockMember}
    {start stop : Nat} (found : findBlockMembers content = .ok members)
    (bounds : blockBounds content = .ok (some (start, stop)))
    (once : HeldOnce slug members front held back) :
    upsertBlockMember content slug text = .ok (linesBefore content start ++
      (joinLines (blockBeginMarker :: generatedNotice :: memberLines front) ++ text ++
        (joinLines (memberLines back ++ [blockEndMarker]) ++ linesFrom content (stop + 1)))) := by
  have texts := @upserted_texts slug text members front held back once
  unfold upsertBlockMember
  rw [bounds, found]
  simp only [bind, Except.bind, pure, Except.pure, rewriteBlock, Except.ok.injEq]
  rw [texts]
  simp [linesBefore, linesFrom, blockText, joinLines]

theorem linesBefore_split (text : Text) {start first : Nat} (ordered : start ≤ first) :
    linesBefore text first =
      linesBefore text start ++ (((splitKeep text).take first).drop start).flatten := by
  unfold linesBefore
  rw [← List.flatten_append]
  congr 1
  have cut := (List.take_append_drop start ((splitKeep text).take first)).symm
  rwa [List.take_take, Nat.min_eq_left ordered] at cut

theorem drop_split (lines : List Text) {last stop : Nat} (ordered : last ≤ stop) :
    (lines.drop last).take (stop - last) ++ lines.drop stop = lines.drop last := by
  have cut := List.take_append_drop (stop - last) (lines.drop last)
  rwa [List.drop_drop, Nat.add_sub_cancel' ordered] at cut

theorem linesFrom_split (text : Text) {last stop : Nat} (ordered : last ≤ stop) :
    linesFrom text last =
      (((splitKeep text).drop last).take (stop - last) ++ (splitKeep text).drop stop).flatten := by
  rw [linesFrom, drop_split _ ordered]

theorem joinLines_free {lines : List Text} (unbroken : ∀ line ∈ lines, Unbroken line) :
    (joinLines lines).count '\r' = 0 := by
  rw [joinLines_eq_flatten, List.count_eq_zero]
  exact (keptLines_of_terminated (terminated_map unbroken)).carriageFree

theorem keptLines_suffix {first rest : List Text} (kept : KeptLines (first ++ rest)) :
    KeptLines rest := by
  by_cases none_ : rest = []
  · rw [none_]
    trivial
  · exact ((keptLines_append first none_).mp kept).2

/-- The lines of the entry are within the block. -/
theorem EntriesIn.spot {content slug : Text} {members front held back : List BlockMember}
    {start stop first last : Nat} (entries : EntriesIn content members start stop)
    (once : HeldOnce slug members front held back)
    (from_ : first = stop - (memberLines (held ++ back)).length)
    (to_ : last = stop - (memberLines back).length) :
    start ≤ first ∧ first ≤ last ∧ last ≤ stop ∧ last + (memberLines back).length = stop := by
  have within := entries.within
  rw [once.whole] at within
  simp only [memberLines, List.flatMap_append, List.length_append] at within from_ to_ ⊢
  omega

theorem EntriesIn.front_unbroken {content slug : Text} {members front held back : List BlockMember}
    {start stop : Nat} (entries : EntriesIn content members start stop)
    (once : HeldOnce slug members front held back) :
    ∀ line ∈ blockBeginMarker :: generatedNotice :: memberLines front, Unbroken line := by
  have marker : Unbroken blockBeginMarker := by decide
  have notice : Unbroken generatedNotice := by decide +kernel
  refine List.forall_mem_cons.mpr ⟨marker, List.forall_mem_cons.mpr ⟨notice, ?_⟩⟩
  intro line member
  apply entries.unbroken line
  rw [once.whole]
  simp [memberLines, List.flatMap_append] at member ⊢
  exact Or.inl member

theorem EntriesIn.back_unbroken {content slug : Text} {members front held back : List BlockMember}
    {start stop : Nat} (entries : EntriesIn content members start stop)
    (once : HeldOnce slug members front held back) :
    ∀ line ∈ memberLines back ++ [blockEndMarker], Unbroken line := by
  have marker : Unbroken blockEndMarker := by decide
  intro line member
  rcases List.mem_append.mp member with inBack | last
  · apply entries.unbroken line
    rw [once.whole]
    simp [memberLines, List.flatMap_append] at inBack ⊢
    exact Or.inr (Or.inr inBack)
  · rwa [List.mem_singleton.mp last]

/-- The rewritten text has the lines around the entry exactly if the block's other lines are as
they are rendered. -/
theorem slot_same_iff {content slug text : Text} {members front held back : List BlockMember}
    {start stop first last : Nat} (clear : '\r' ∉ content)
    (entries : EntriesIn content members start stop) (closed : Closed text)
    (once : HeldOnce slug members front held back)
    (from_ : first = stop - (memberLines (held ++ back)).length)
    (to_ : last = stop - (memberLines back).length) :
    linesBefore content first ++ text ++ linesFrom content last = linesBefore content start ++
        (joinLines (blockBeginMarker :: generatedNotice :: memberLines front) ++ text ++
          (joinLines (memberLines back ++ [blockEndMarker]) ++ linesFrom content (stop + 1))) ↔
      AsRendered content start first last stop front back := by
  obtain ⟨begins, ordered, ends, size⟩ := entries.spot once from_ to_
  have inside := entries.inside
  have kept := keptLines_splitKeep clear
  have later : KeptLines ((splitKeep content).drop last) := by
    rw [← List.take_append_drop last (splitKeep content)] at kept
    exact keptLines_suffix kept
  have after : KeptLines ((splitKeep content).drop (stop + 1)) := by
    rw [← List.take_append_drop (stop + 1) (splitKeep content)] at kept
    exact keptLines_suffix kept
  have before : ∀ line ∈ ((splitKeep content).take first).drop start, Terminated line := by
    intro line member
    have some_ : (splitKeep content).drop first ≠ [] := by
      rw [← List.length_pos_iff, List.length_drop]
      omega
    rw [← List.take_append_drop first (splitKeep content), keptLines_append _ some_] at kept
    exact kept.1 line (List.mem_of_mem_drop member)
  rw [linesBefore_split content begins, linesFrom_split content (Nat.le_succ_of_le ends),
    joinLines_eq_flatten, joinLines_eq_flatten, linesFrom, ← List.flatten_append,
    List.append_assoc, List.append_assoc, List.append_cancel_left_eq, ← List.append_assoc,
    lines_around_eq closed before (terminated_map (entries.front_unbroken once))]
  · exact ⟨fun both => ⟨both.1, both.2⟩, fun rendered => ⟨rendered.head, rendered.tail⟩⟩
  · rwa [drop_split _ (Nat.le_succ_of_le ends)]
  · have written := terminated_map (entries.back_unbroken once)
    by_cases none_ : (splitKeep content).drop (stop + 1) = []
    · rw [none_, List.append_nil]
      exact keptLines_of_terminated written
    · exact (keptLines_append _ none_).mpr ⟨written, after⟩
  · simp only [List.length_take, List.length_drop, List.length_map, List.length_append,
      List.length_singleton]
    omega

/-- A file is kept around the slug's entry exactly if there is no carriage return around it and the
block's other lines are as they are rendered. -/
theorem slot_kept_iff {file slug text : Text} {members front held back : List BlockMember}
    {start stop first last : Nat}
    (entries : EntriesIn (translateNewlines file) members start stop) (closed : Closed text)
    (once : HeldOnce slug members front held back)
    (from_ : first = stop - (memberLines (held ++ back)).length)
    (to_ : last = stop - (memberLines back).length) :
    KeepsAround file first last text (encode (linesBefore (translateNewlines file) start ++
        (joinLines (blockBeginMarker :: generatedNotice :: memberLines front) ++ text ++
          (joinLines (memberLines back ++ [blockEndMarker]) ++
            linesFrom (translateNewlines file) (stop + 1))))) ↔
      CarriageFree file first last ∧
        AsRendered (translateNewlines file) start first last stop front back := by
  have rendered := @slot_same_iff _ _ text _ _ _ _ _ _ _ _ (carriage_not_mem_translate file) entries
    closed once from_ to_
  obtain ⟨_, ordered, ends, _⟩ := entries.spot once from_ to_
  have inside := entries.inside
  rw [length_translate] at inside
  constructor
  · intro keeps
    have free := carriageFree_of_keeps keeps (by
      simp only [List.count_append, joinLines_free (entries.front_unbroken once),
        joinLines_free (entries.back_unbroken once), Nat.zero_add, Nat.add_zero,
        List.count_eq_zero.mpr (linesBefore_free file _),
        List.count_eq_zero.mpr (linesFrom_free file _)])
    obtain ⟨gap, none_ | ⟨_, short⟩, written⟩ := keeps
    · rw [none_, ← encode_append, ← encode_append, ← encode_append, encode_inj, List.append_nil,
        ← linesBefore_translate free.1, ← linesFrom_translate free.2] at written
      exact ⟨free, rendered.mp written.symm⟩
    · omega
  · rintro ⟨free, same⟩
    refine ⟨[], Or.inl rfl, ?_⟩
    rw [← rendered.mpr same, linesBefore_translate free.1, linesFrom_translate free.2,
      ← encode_append, ← encode_append, ← encode_append, List.append_nil]

theorem entry_kept_iff {file slug text : Text} {members : List BlockMember}
    {bounds : Option (Nat × Nat)} (found : findBlockMembers (translateNewlines file) = .ok members)
    (scanned : blockBounds (translateNewlines file) = .ok bounds) (closed : Closed text) :
    (∃ result, upsertBlockMember (translateNewlines file) slug text = .ok result ∧
        EntryKept file slug text members (encode result) bounds) ↔
      EntryClean file (translateNewlines file) slug members bounds := by
  cases bounds with
  | none =>
      have returned : upsertBlockMember (translateNewlines file) slug text =
          .ok (appended (translateNewlines file) (blockText text)) := by
        unfold upsertBlockMember
        rw [scanned]
        rfl
      have kept := @appended_keeps_iff file (blockText text) _ rfl
      constructor
      · rintro ⟨result, same, keeps⟩
        obtain rfl := Except.ok.inj (returned.symm.trans same)
        exact kept.mp keeps
      · exact fun clean => ⟨_, returned, kept.mpr clean⟩
  | some pair =>
      obtain ⟨start, stop⟩ := pair
      have entries := entriesIn found scanned
      constructor
      · rintro ⟨result, returned, front, held, back, once, keeps⟩
        rw [upserted_between found scanned once] at returned
        obtain rfl := Except.ok.inj returned
        exact ⟨front, held, back, once, (slot_kept_iff entries closed once rfl rfl).mp keeps⟩
      · rintro ⟨front, held, back, once, clean⟩
        exact ⟨_, upserted_between found scanned once, front, held, back, once,
          (slot_kept_iff entries closed once rfl rfl).mpr clean⟩

/-- A UTF-8 crontab file that is read and written is the same exactly if it has no carriage return.
An edit keeps it but for one region exactly if there is none outside that region, and but for one
entry of the block exactly if there is none outside that entry and the block's other lines are as
the renderer writes them. -/
theorem file_bytes_kept_iff {bytes : ByteArray} {file content : Text}
    (decoded : decode bytes = some file) (read : FileCrontab.read bytes = some content) :
    (FileCrontab.write content = bytes ↔ '\r' ∉ file) ∧
      (∀ regions slug rendered, findManagedRegions content = .ok regions →
        ((∃ result, replaceRegion content slug rendered = .ok result ∧
            KeepsAround file (regionSpot content slug regions).1 (regionSpot content slug regions).2
              rendered (FileCrontab.write result)) ↔
          CarriageFree file (regionSpot content slug regions).1
            (regionSpot content slug regions).2)) ∧
      ∀ members bounds artefact text, findBlockMembers content = .ok members →
        blockBounds content = .ok bounds → renderBlockMember artefact = .ok text →
        ((∃ result, upsertBlockMember content artefact.slug text = .ok result ∧
            EntryKept file artefact.slug text members (FileCrontab.write result) bounds) ↔
          EntryClean file content artefact.slug members bounds) := by
  unfold FileCrontab.read at read
  rw [decoded] at read
  obtain rfl : translateNewlines file = content := Option.some.inj read
  refine ⟨?_, ?_, ?_⟩
  · rw [encode_decoded decoded, FileCrontab.write, encode_inj, translateNewlines_eq_self]
  · intro regions slug rendered found
    exact region_kept_iff found _ rfl
  · intro members bounds artefact text found scanned rendered
    obtain ⟨lines, _, rfl⟩ := Effects.except_map_eq_ok.mp rendered
    exact entry_kept_iff found scanned (joinLines_closed lines)

/-! ## Two files -/

def mailedFile : Text := "MAILTO=ops\n".toList ++ nightlyRegion

theorem file_bytes_kept_mailed :
    FileCrontab.write (translateNewlines mailedFile) = encode mailedFile := by
  have decoded := decode_encode mailedFile
  have read : FileCrontab.read (encode mailedFile) = some (translateNewlines mailedFile) := by
    rw [FileCrontab.read, decoded]
    rfl
  exact (file_bytes_kept_iff decoded read).1.mpr (by decide +kernel)

/-- A file whose one line ends as on another system. -/
def foreignFile : Text := "MAILTO=ops\r\n".toList

/-- The line's end is another one when the file was written as it was read, and when a region was
put behind it. -/
theorem foreign_line_end_lost :
    decode (encode foreignFile) = some foreignFile ∧
      FileCrontab.read (encode foreignFile) = some "MAILTO=ops\n".toList ∧
      FileCrontab.write "MAILTO=ops\n".toList ≠ encode foreignFile ∧
      replaceRegion "MAILTO=ops\n".toList (nightlyBackup .default).slug nightlyRegion =
        .ok ("MAILTO=ops\n".toList ++ nightlyRegion) ∧
      ¬ KeepsAround foreignFile 1 1 nightlyRegion
        (FileCrontab.write ("MAILTO=ops\n".toList ++ nightlyRegion)) := by
  have decoded := decode_encode foreignFile
  refine ⟨decoded, ?_, ?_, ?_, ?_⟩
  · rw [FileCrontab.read, decoded]
    decide
  · rw [FileCrontab.write, Ne, encode_inj]
    decide
  · decide +kernel
  · intro keeps
    have free := carriageFree_of_keeps keeps (by decide +kernel)
    have returned : '\r' ∈ linesBefore foreignFile 1 := by decide
    exact free.1 returned

end TaskControl.Cron
