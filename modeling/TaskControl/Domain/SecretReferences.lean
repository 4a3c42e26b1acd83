import TaskControl.Domain.Actions

/-!
# The text of a secret reference

A reference is written `provider://path`, with `#version` behind it where it has a
version.  The constructor tests the joined text and not its parts, so that a part
may hold what separates it from the next one.
-/

set_option autoImplicit false

namespace TaskControl

open PythonText

namespace SecretReference

/-! ## Writing and reading -/

/-- The constructor. -/
def make (provider path : Text) (version : Option Text) :
    Except TaskControlError SecretReference :=
  if provided : provider = [] then
    .error (validationError "SecretReference requires a provider.")
  else if located : path = [] then .error (validationError "SecretReference requires a path.")
  else if shaped : matchSecretReference (secretBody provider path) = none then
    .error (validationError "SecretReference must look like 'provider://path'.")
  else if versioned : version = some [] then
    .error (validationError "SecretReference version must be a non-empty string.")
  else .ok ⟨provider, path, version, provided, located, shaped, versioned⟩

/-- `str(reference)`. -/
def text (reference : SecretReference) : Text :=
  secretBody reference.provider reference.path ++
    match reference.version with
    | some version => '#' :: version
    | none => []

/-- `parse`. -/
def parse (text : Text) : Except TaskControlError SecretReference :=
  let separated := text.contains '#'
  let version := (text.dropWhile (· ≠ '#')).tail
  match matchSecretReference (text.takeWhile (· ≠ '#')) with
  | none => .error (validationError "SecretReference must look like 'provider://path'.")
  | some (provider, path) =>
      if separated ∧ version = [] then
        .error (validationError "SecretReference version must not be empty when '#' is used.")
      else make provider path (if version = [] then none else some version)

/-! ## What is read back -/

/-- Parsing the text gives the reference. -/
def RoundTrips (reference : SecretReference) : Prop := parse reference.text = .ok reference

/-- The provider is one by itself, and the path neither has a `#` nor ends with a line feed. -/
structure Plain (reference : SecretReference) : Prop where
  provider : reference.provider.all isProviderChar = true
  path : '#' ∉ reference.path
  line : endsWithNewline reference.path = false

end SecretReference

/-! ## The pattern -/

theorem isProviderChar_colon : isProviderChar ':' = false := by decide

theorem isProviderChar_hash : isProviderChar '#' = false := by decide

theorem isSpace_newline : isSpace '\n' = true := by decide

theorem matchPath_some {rest path : Text} (matched : matchPath rest = some path) :
    (∀ c ∈ path, isSpace c = false) ∧
      (rest = path ∧ endsWithNewline rest = false ∨ rest = path ++ ['\n']) := by
  cases ends : endsWithNewline rest with
  | true =>
      have last : rest.getLast? = some '\n' := by simpa [endsWithNewline] using ends
      obtain ⟨init, rfl⟩ := List.getLast?_eq_some_iff.mp last
      simp only [matchPath, ends, if_true, List.dropLast_concat, Option.ite_none_right_eq_some,
        Option.some.injEq] at matched
      obtain ⟨⟨_, solid⟩, rfl⟩ := matched
      exact ⟨by simpa using solid, Or.inr rfl⟩
  | false =>
      simp only [matchPath, ends, Bool.false_eq_true, if_false, Option.ite_none_right_eq_some,
        Option.some.injEq] at matched
      obtain ⟨⟨_, solid⟩, rfl⟩ := matched
      exact ⟨by simpa using solid, Or.inl ⟨rfl, rfl⟩⟩

/-- A match is a provider, the separator and a path, and at most a line feed more. -/
theorem matchSecretReference_some {t provider path : Text}
    (matched : matchSecretReference t = some (provider, path)) :
    provider.all isProviderChar = true ∧
      ∃ rest, t = secretBody provider rest ∧ matchPath rest = some path := by
  unfold matchSecretReference at matched
  dsimp only at matched
  split at matched
  · next start later rest first separator =>
      split at matched
      · obtain ⟨path', found, same⟩ := Option.map_eq_some_iff.mp matched
        obtain ⟨rfl, rfl⟩ := Prod.mk.inj same
        have whole : t.takeWhile isProviderChar ++ t.dropWhile isProviderChar = t :=
          List.takeWhile_append_dropWhile
        refine ⟨List.all_takeWhile, rest, ?_, found⟩
        rw [separator] at whole
        rw [secretBody, List.append_assoc]
        exact whole.symm
      · cases matched
  · cases matched

/-- A provider by itself is what the pattern finds in front of the separator. -/
theorem matchSecretReference_body {provider rest : Text}
    (plain : provider.all isProviderChar = true) :
    matchSecretReference (secretBody provider rest) =
      if (provider.head?.any isProviderStart) = true then
        (matchPath rest).map fun path => (provider, path)
      else none := by
  have all := List.all_eq_true.mp plain
  have front : (secretBody provider rest).takeWhile isProviderChar = provider := by
    rw [secretBody, List.append_assoc, List.takeWhile_append_of_pos all]
    simp [isProviderChar_colon]
  have back : (secretBody provider rest).dropWhile isProviderChar = "://".toList ++ rest := by
    rw [secretBody, List.append_assoc, List.dropWhile_append_of_pos all]
    simp [isProviderChar_colon]
  unfold matchSecretReference
  rw [front, back]
  cases provider with
  | nil => rfl
  | cons start later => rfl

/-! ## Round trips -/

namespace SecretReference

theorem make_fields (reference : SecretReference) :
    make reference.provider reference.path reference.version = .ok reference := by
  rw [make, dif_neg reference.provided, dif_neg reference.located, dif_neg reference.shaped,
    dif_neg reference.versioned]

theorem make_ok {provider path : Text} {version : Option Text} {reference : SecretReference}
    (made : make provider path version = .ok reference) :
    reference.provider = provider ∧ reference.path = path := by
  unfold make at made
  split at made
  · cases made
  · split at made
    · cases made
    · split at made
      · cases made
      · split at made
        · cases made
        · cases made
          exact ⟨rfl, rfl⟩

/-- The part of a plain reference's text in front of its version. -/
theorem body_hashless {reference : SecretReference} (plain : reference.Plain) :
    ∀ c ∈ secretBody reference.provider reference.path, c ≠ '#' := by
  rintro c member rfl
  rw [secretBody, List.append_assoc, List.mem_append, List.mem_append] at member
  rcases member with inProvider | inSeparator | inPath
  · have inAlphabet := List.all_eq_true.mp plain.provider '#' inProvider
    rw [isProviderChar_hash] at inAlphabet
    cases inAlphabet
  · revert inSeparator
    decide
  · exact plain.path inPath

theorem match_body {reference : SecretReference} (plain : reference.Plain) :
    matchSecretReference (secretBody reference.provider reference.path) =
      some (reference.provider, reference.path) := by
  obtain ⟨found, matched⟩ := Option.ne_none_iff_exists'.mp reference.shaped
  rw [matched]
  rw [matchSecretReference_body plain.provider] at matched
  split at matched
  · obtain ⟨path, located, rfl⟩ := Option.map_eq_some_iff.mp matched
    rcases (matchPath_some located).2 with ⟨same, _⟩ | longer
    · rw [same]
    · have ends : endsWithNewline reference.path = true := by simp [longer, endsWithNewline]
      rw [plain.line] at ends
      cases ends
  · cases matched

theorem roundTrips_of_plain {reference : SecretReference} (plain : reference.Plain) :
    reference.RoundTrips := by
  have solid : ∀ c ∈ secretBody reference.provider reference.path, decide (c ≠ '#') = true := by
    simpa using body_hashless plain
  have hashless : '#' ∉ secretBody reference.provider reference.path :=
    fun member => body_hashless plain '#' member rfl
  have made := make_fields reference
  unfold RoundTrips parse text
  cases versioned : reference.version with
  | none =>
      rw [versioned] at made
      simp only [List.append_nil]
      rw [List.takeWhile_eq_self_iff.mpr solid, List.dropWhile_eq_nil_iff.mpr solid,
        match_body plain]
      simpa [hashless] using made
  | some version =>
      rw [versioned] at made
      have nonempty : version ≠ [] := by
        rintro rfl
        exact reference.versioned versioned
      simp only
      rw [List.takeWhile_append_of_pos solid, List.dropWhile_append_of_pos solid,
        List.takeWhile_cons_of_neg (by simp), List.dropWhile_cons_of_neg (by simp),
        List.append_nil, match_body plain]
      simpa [nonempty] using made

theorem plain_of_roundTrips {reference : SecretReference} (back : reference.RoundTrips) :
    reference.Plain := by
  unfold RoundTrips parse at back
  dsimp only at back
  split at back
  · cases back
  · next provider path matched =>
      split at back
      · cases back
      · obtain ⟨sameProvider, samePath⟩ := make_ok back
        obtain ⟨alphabet, rest, split, located⟩ := matchSecretReference_some matched
        obtain ⟨solid, shape⟩ := matchPath_some located
        have hashless : ∀ c ∈ rest, c ≠ '#' := by
          intro c member
          have inBody : c ∈ reference.text.takeWhile (· ≠ '#') := by
            rw [split, secretBody]
            exact List.mem_append_right _ member
          simpa using List.mem_takeWhile_imp inBody
        constructor
        · rw [sameProvider]
          exact alphabet
        · rw [samePath]
          intro member
          rcases shape with ⟨same, _⟩ | longer
          · exact hashless '#' (same ▸ member) rfl
          · exact hashless '#' (longer ▸ List.mem_append_left _ member) rfl
        · rw [samePath, Bool.eq_false_iff]
          intro ends
          have last : path.getLast? = some '\n' := by simpa [endsWithNewline] using ends
          have space := solid '\n' (List.mem_of_getLast? last)
          rw [isSpace_newline] at space
          cases space

theorem roundTrips_iff {reference : SecretReference} :
    reference.RoundTrips ↔ reference.Plain :=
  ⟨plain_of_roundTrips, roundTrips_of_plain⟩

/-- The plain references are read back, and no two of them have one text. -/
theorem texts_name_references_iff (first second : SecretReference) :
    (first.RoundTrips ∧ second.RoundTrips ∧ (first.text = second.text → first = second)) ↔
      first.Plain ∧ second.Plain := by
  rw [roundTrips_iff, roundTrips_iff]
  constructor
  · rintro ⟨one, other, _⟩
    exact ⟨one, other⟩
  · rintro ⟨one, other⟩
    refine ⟨one, other, fun same => ?_⟩
    have read := roundTrips_of_plain one
    rw [RoundTrips, same, roundTrips_of_plain other] at read
    exact (Except.ok.inj read).symm

namespace Backup

theorem fragment_shaped : matchSecretReference (secretBody "vault".toList "db#2".toList) ≠ none := by
  decide

theorem path_shaped : matchSecretReference (secretBody "vault".toList "db".toList) ≠ none := by
  decide

theorem vault_some : "vault".toList ≠ [] := by decide

theorem fragment_some : "db#2".toList ≠ [] := by decide

theorem path_some : "db".toList ≠ [] := by decide

theorem unversioned : (none : Option Text) ≠ some [] := by decide

theorem versioned : some "2".toList ≠ some [] := by decide

/-- A path with a `#`. -/
def fragment : SecretReference where
  provider := "vault".toList
  path := "db#2".toList
  version := none
  provided := vault_some
  located := fragment_some
  shaped := fragment_shaped
  versioned := unversioned

/-- The second version of a secret. -/
def secondVersion : SecretReference where
  provider := "vault".toList
  path := "db".toList
  version := some "2".toList
  provided := vault_some
  located := path_some
  shaped := path_shaped
  versioned := versioned

end Backup

/-- A path with a `#` and a path with a version have one text. -/
theorem fragment_read_as_version :
    ¬ Backup.fragment.RoundTrips ∧ Backup.fragment.text = Backup.secondVersion.text ∧
      Backup.fragment ≠ Backup.secondVersion := by
  refine ⟨?_, by decide, ?_⟩
  · intro back
    exact (plain_of_roundTrips back).path (by decide)
  · intro same
    have paths := congrArg SecretReference.path same
    revert paths
    decide

end SecretReference

end TaskControl
