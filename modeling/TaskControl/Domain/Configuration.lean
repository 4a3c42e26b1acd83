import TaskControl.Domain.Actions
import TaskControl.Foundation.Effects
import TaskControl.Foundation.Overlays

/-!
# Layered configuration

Profiles define variables at layers, and the highest definition of a variable wins.
Resolution applies the profiles from the lowest layer up and refuses two definitions
at one layer and a definition above one that is pinned.
-/

set_option autoImplicit false

namespace TaskControl.Configuration

open PythonText Effects Overlays

inductive ConfigurationLayer where
  | productDefault
  | organisationDefault
  | environmentDefault
  | collectionDefault
  | targetDefault
  | taskRevision
  | triggerParameter
  | executionOverride
  deriving DecidableEq, Repr

def ConfigurationLayer.precedence : ConfigurationLayer → Nat
  | .productDefault => 10
  | .organisationDefault => 20
  | .environmentDefault => 40
  | .collectionDefault => 50
  | .targetDefault => 60
  | .taskRevision => 80
  | .triggerParameter => 90
  | .executionOverride => 100

def maxVariableNameLength : Nat := 200

def maxVariablesPerProfile : Nat := 500

structure Variable where
  name : Text
  value : Option Text
  secret : Option SecretReference
  overridable : Bool
  named : strip name ≠ []
  nameBounded : name.length ≤ maxVariableNameLength
  exactlyOne : value = none ↔ secret ≠ none

/-- The identifier, the slug and the description of a profile are read by no modelled
function and left out. -/
structure Profile where
  name : Text
  layer : ConfigurationLayer
  variables_ : List Variable
  named : strip name ≠ []
  variablesBounded : variables_.length ≤ maxVariablesPerProfile
  namesUnique : (variables_.map Variable.name).Nodup

structure ResolvedValue where
  name : Text
  layer : ConfigurationLayer
  sourceProfile : Text
  value : Option Text
  secret : Option SecretReference
  overridden : List (ConfigurationLayer × Text)

structure ResolutionTrace where
  values : Text → Option ResolvedValue
  profilesApplied : List Text

/-! ## Resolution -/

/-- The dictionaries of `resolve_configuration`. -/
structure Resolution where
  resolved : Text → Option ResolvedValue
  pinned : Text → Option (ConfigurationLayer × Text)
  claimedAtLayer : ConfigurationLayer → Text → Option Text

def Resolution.empty : Resolution := ⟨fun _ => none, fun _ => none, fun _ _ => none⟩

/-- A definition that comes in the place of an earlier one. -/
def resolvedOver (previous : Option ResolvedValue) (profile : Profile) (variable_ : Variable) :
    ResolvedValue where
  name := variable_.name
  layer := profile.layer
  sourceProfile := profile.name
  value := variable_.value
  secret := variable_.secret
  overridden :=
    match previous with
    | some previous => previous.overridden ++ [(previous.layer, previous.sourceProfile)]
    | none => []

/-- The dictionaries after a definition. -/
def Resolution.with (state : Resolution) (profile : Profile) (variable_ : Variable) :
    Resolution where
  resolved := Function.update state.resolved variable_.name
    (some (resolvedOver (state.resolved variable_.name) profile variable_))
  pinned :=
    if variable_.overridable then state.pinned
    else Function.update state.pinned variable_.name (some (profile.layer, profile.name))
  claimedAtLayer := Function.update state.claimedAtLayer profile.layer
    (Function.update (state.claimedAtLayer profile.layer) variable_.name (some profile.name))

/-- The round of the inner loop. -/
def define (state : Resolution) (definition : Profile × Variable) :
    Except TaskControlError Resolution :=
  let (profile, variable_) := definition
  match state.claimedAtLayer profile.layer variable_.name, state.pinned variable_.name with
  | some _, _ =>
      .error (domainRuleViolationError
        ("Two profiles at the same layer define the same key, so which one wins is undefined. " ++
          "Resolve the conflict rather than relying on order."))
  | none, some _ =>
      .error (domainRuleViolationError
        "This value is pinned by a lower layer and must not be overridden.")
  | none, none => .ok (state.with profile variable_)

/-- `sorted(profiles, key=lambda profile: profile.layer)`. -/
def inPrecedence (profiles : List Profile) : List Profile :=
  profiles.insertionSort fun first second => first.layer.precedence ≤ second.layer.precedence

/-- What the two loops go over. -/
def definitions (profiles : List Profile) : List (Profile × Variable) :=
  profiles.flatMap fun profile => profile.variables_.map fun variable_ => (profile, variable_)

/-- `resolve_configuration`. -/
def resolveConfiguration (profiles : List Profile) : Except TaskControlError ResolutionTrace := do
  let ordered := inPrecedence profiles
  let state ← (definitions ordered).foldlM define Resolution.empty
  return ⟨state.resolved, ordered.map Profile.name⟩

/-! ## What resolution is for -/

/-- No key is defined by two profiles at one layer, or above a layer that pins it. -/
structure Consistent (profiles : List Profile) : Prop where
  apart : profiles.Pairwise fun first second => first.layer = second.layer →
    ∀ one ∈ first.variables_, ∀ other ∈ second.variables_, one.name ≠ other.name
  unpinned : ∀ first ∈ profiles, ∀ one ∈ first.variables_, one.overridable = false →
    ∀ second ∈ profiles, ∀ other ∈ second.variables_, other.name = one.name →
      ¬ first.layer.precedence < second.layer.precedence

/-- The definition of the key at the highest layer, which is the only one there. -/
def Highest (profiles : List Profile) (key : Text) (profile : Profile) (variable_ : Variable) :
    Prop :=
  (profile, variable_) ∈ definitions profiles ∧ variable_.name = key ∧
    ∀ other ∈ definitions profiles, other.2.name = key → other ≠ (profile, variable_) →
      other.1.layer.precedence < profile.layer.precedence

/-- The value is that of the definition, with the other definitions of the key from the lowest
layer up. -/
structure Provenance (profiles : List Profile) (key : Text) (profile : Profile)
    (variable_ : Variable) (resolved : ResolvedValue) : Prop where
  name : resolved.name = key
  layer : resolved.layer = profile.layer
  sourceProfile : resolved.sourceProfile = profile.name
  value : resolved.value = variable_.value
  secret : resolved.secret = variable_.secret
  rising : resolved.overridden.Pairwise fun first second =>
    first.1.precedence < second.1.precedence
  overridden : ∀ entry, entry ∈ resolved.overridden ↔ ∃ other ∈ definitions profiles,
    other.2.name = key ∧ other ≠ (profile, variable_) ∧ entry = (other.1.layer, other.1.name)

/-- Every key that is defined has the value of its highest definition, and no other key has one. -/
structure ResolvesAll (profiles : List Profile) (trace : ResolutionTrace) : Prop where
  defined : ∀ definition ∈ definitions profiles, ∃ profile variable_ resolved,
    Highest profiles definition.2.name profile variable_ ∧
      trace.values definition.2.name = some resolved ∧
      Provenance profiles definition.2.name profile variable_ resolved
  undefined : ∀ key, (∀ definition ∈ definitions profiles, definition.2.name ≠ key) →
    trace.values key = none

/-! ## The loop -/

def keyOf (definition : Profile × Variable) : Text := definition.2.name

def layerOf (definition : Profile × Variable) : Nat := definition.1.layer.precedence

/-- The value that the history of a key leaves. -/
def resolvedFrom (definitions : List (Profile × Variable)) : Option ResolvedValue :=
  definitions.foldl (fun previous definition =>
    some (resolvedOver previous definition.1 definition.2)) none

theorem precedence_injective {first second : ConfigurationLayer}
    (same : first.precedence = second.precedence) : first = second := by
  cases first <;> cases second <;> first | rfl | cases same

/-- The dictionaries hold what the definitions so far say. -/
structure Tracks (state : Resolution) (done : List (Profile × Variable)) : Prop where
  resolved : ∀ key, state.resolved key = resolvedFrom (history keyOf key done)
  pinned : ∀ key, state.pinned key = none ↔
    ∀ definition ∈ done, definition.2.name = key → definition.2.overridable = true
  claimed : ∀ layer key, state.claimedAtLayer layer key = none ↔
    ∀ definition ∈ done, definition.2.name = key → definition.1.layer ≠ layer

theorem tracks_empty : Tracks Resolution.empty [] := by
  constructor
  · exact fun key => rfl
  · simp [Resolution.empty]
  · simp [Resolution.empty]

/-- An earlier definition does not stand in the way of a later one. -/
def Compatible (first second : Profile × Variable) : Prop :=
  first.2.name = second.2.name → first.1.layer ≠ second.1.layer ∧ first.2.overridable = true

variable {state : Resolution} {done : List (Profile × Variable)}

theorem define_ok (tracks : Tracks state done) (definition : Profile × Variable) :
    (∃ next, define state definition = .ok next) ↔
      ∀ earlier ∈ done, Compatible earlier definition := by
  obtain ⟨profile, variable_⟩ := definition
  have goes : (∃ next, define state (profile, variable_) = .ok next) ↔
      state.claimedAtLayer profile.layer variable_.name = none ∧
        state.pinned variable_.name = none := by
    unfold define
    cases claimed : state.claimedAtLayer profile.layer variable_.name with
    | some _ => simp [claimed]
    | none =>
        cases pinned : state.pinned variable_.name with
        | some _ => simp [claimed, pinned]
        | none => simp [claimed, pinned]
  rw [goes, tracks.claimed, tracks.pinned]
  constructor
  · rintro ⟨clear, free⟩ earlier member same
    exact ⟨clear earlier member same, free earlier member same⟩
  · intro compatible
    exact ⟨fun earlier member same => (compatible earlier member same).1,
      fun earlier member same => (compatible earlier member same).2⟩

theorem define_value {next : Resolution} {definition : Profile × Variable}
    (defined : define state definition = .ok next) :
    next = state.with definition.1 definition.2 := by
  unfold define at defined
  dsimp only at defined
  split at defined
  · cases defined
  · cases defined
  · exact (Except.ok.inj defined).symm

theorem Tracks.with (tracks : Tracks state done) (definition : Profile × Variable) :
    Tracks (state.with definition.1 definition.2) (done ++ [definition]) := by
  obtain ⟨profile, variable_⟩ := definition
  constructor
  · intro key
    rw [history_append]
    by_cases same : key = variable_.name
    · subst same
      have last : history keyOf variable_.name [(profile, variable_)] = [(profile, variable_)] := by
        simp [history, keyOf]
      rw [last, resolvedFrom, List.foldl_append]
      simp only [Resolution.with, Function.update_self, List.foldl_cons, List.foldl_nil,
        tracks.resolved, resolvedFrom]
    · have last : history keyOf key [(profile, variable_)] = [] := by
        simp [history, keyOf, Ne.symm same]
      rw [last, List.append_nil, ← tracks.resolved]
      exact Function.update_of_ne same _ _
  · intro key
    have earlier := tracks.pinned key
    simp only [List.mem_append, List.mem_singleton, or_imp, forall_and, forall_eq]
    rw [← earlier]
    unfold Resolution.with
    cases free : variable_.overridable with
    | true => simp
    | false =>
        by_cases same : key = variable_.name
        · simp [same]
        · simp [Function.update_of_ne same, Ne.symm same]
  · intro layer key
    have earlier := tracks.claimed layer key
    simp only [List.mem_append, List.mem_singleton, or_imp, forall_and, forall_eq]
    rw [← earlier]
    unfold Resolution.with
    by_cases sameLayer : layer = profile.layer
    · subst sameLayer
      by_cases same : key = variable_.name
      · simp [same]
      · simp [Function.update_of_ne same, Ne.symm same]
    · simp [Function.update_of_ne sameLayer, Ne.symm sameLayer]

/-- The loop goes through exactly if no definition stands in the way of a later one. -/
theorem loop_ok {todo : List (Profile × Variable)} : ∀ {state : Resolution}
    {done : List (Profile × Variable)}, Tracks state done →
    ((∃ final, todo.foldlM define state = .ok final) ↔
      (∀ earlier ∈ done, ∀ later ∈ todo, Compatible earlier later) ∧ todo.Pairwise Compatible) ∧
    ∀ final, todo.foldlM define state = .ok final → Tracks final (done ++ todo) := by
  induction todo with
  | nil =>
      intro state done tracks
      refine ⟨iff_of_true ⟨state, rfl⟩ ⟨by simp, .nil⟩, fun final ran => ?_⟩
      obtain rfl := Except.ok.inj ran
      simpa using tracks
  | cons definition rest ih =>
      intro state done tracks
      have one := define_ok tracks definition
      constructor
      · constructor
        · rintro ⟨final, ran⟩
          rw [List.foldlM_cons] at ran
          obtain ⟨next, defined, later⟩ := except_bind_eq_ok.mp ran
          have clear := one.mp ⟨next, defined⟩
          rw [define_value defined] at later
          obtain ⟨across, inside⟩ := (ih (tracks.with definition)).1.mp ⟨final, later⟩
          refine ⟨fun earlier member => ?_, List.pairwise_cons.mpr ⟨?_, inside⟩⟩
          · rw [List.forall_mem_cons]
            exact ⟨clear earlier member, across earlier (List.mem_append_left _ member)⟩
          · exact across definition (List.mem_append_right _ List.mem_cons_self)
        · rintro ⟨across, inside⟩
          rw [List.pairwise_cons] at inside
          obtain ⟨next, defined⟩ := one.mpr fun earlier member =>
            across earlier member definition List.mem_cons_self
          have value := define_value defined
          subst value
          obtain ⟨final, later⟩ := (ih (tracks.with definition)).1.mpr ⟨by
            intro earlier member
            rcases List.mem_append.mp member with before | here
            · exact fun other inRest => across earlier before other (List.mem_cons_of_mem _ inRest)
            · rw [List.mem_singleton.mp here]
              exact inside.1, inside.2⟩
          refine ⟨final, ?_⟩
          rw [List.foldlM_cons]
          exact except_bind_eq_ok.mpr ⟨_, defined, later⟩
      · intro final ran
        rw [List.foldlM_cons] at ran
        obtain ⟨next, defined, later⟩ := except_bind_eq_ok.mp ran
        rw [define_value defined] at later
        have whole := (ih (tracks.with definition)).2 final later
        rwa [List.append_assoc] at whole

/-! ## The order of the definitions -/

variable {profiles others : List Profile}

theorem inPrecedence_perm (profiles : List Profile) : (inPrecedence profiles).Perm profiles :=
  List.perm_insertionSort _ profiles

theorem inPrecedence_rising (profiles : List Profile) : (inPrecedence profiles).Pairwise
    fun first second => first.layer.precedence ≤ second.layer.precedence := by
  have total : Std.Total fun first second : Profile =>
      first.layer.precedence ≤ second.layer.precedence := ⟨fun _ _ => Nat.le_total _ _⟩
  have transitive : IsTrans Profile fun first second =>
      first.layer.precedence ≤ second.layer.precedence := ⟨fun _ _ _ => Nat.le_trans⟩
  exact List.pairwise_insertionSort _ profiles

theorem definitions_perm (same : profiles.Perm others) :
    (definitions profiles).Perm (definitions others) := same.flatMap_right _

/-- A relation between the definitions of a list, read off its profiles. -/
theorem definitions_pairwise {relation : Profile × Variable → Profile × Variable → Prop} :
    (definitions profiles).Pairwise relation ↔
      (∀ profile ∈ profiles, profile.variables_.Pairwise fun one other =>
        relation (profile, one) (profile, other)) ∧
      profiles.Pairwise fun first second => ∀ one ∈ first.variables_, ∀ other ∈ second.variables_,
        relation (first, one) (second, other) := by
  simp [definitions, List.pairwise_flatMap, List.pairwise_map]

theorem definitions_rising (ordered : profiles.Pairwise fun first second =>
    first.layer.precedence ≤ second.layer.precedence) :
    Rising layerOf (definitions profiles) := by
  refine definitions_pairwise.mpr ⟨fun profile _ => ?_, ordered.imp fun less _ _ _ _ => less⟩
  exact List.pairwise_of_forall fun _ _ => Nat.le_refl profile.layer.precedence

theorem names_apart (profile : Profile) :
    profile.variables_.Pairwise fun one other => one.name ≠ other.name := by
  have unique := profile.namesUnique
  rwa [List.Nodup, List.pairwise_map] at unique

/-- Nothing that the first profile pins is defined by the second, where that is above it. -/
def Frees (first second : Profile) : Prop :=
  first.layer.precedence < second.layer.precedence → ∀ one ∈ first.variables_,
    ∀ other ∈ second.variables_, one.name = other.name → one.overridable = true

/-- In the order of their layers, the definitions stand in nobody's way exactly if the profiles
are consistent. -/
theorem compatible_iff (ordered : profiles.Pairwise fun first second =>
    first.layer.precedence ≤ second.layer.precedence) :
    (definitions profiles).Pairwise Compatible ↔ Consistent profiles := by
  rw [definitions_pairwise]
  constructor
  · rintro ⟨_, across⟩
    have upward : profiles.Pairwise Frees := across.imp fun compatible _ one inFirst other inSecond
      same => (compatible one inFirst other inSecond same).2
    have downward : profiles.Pairwise (flip Frees) :=
      ordered.imp fun less below => absurd below (not_lt.mpr less)
    have freed := upward.forall_of_forall_of_flip (fun _ _ below => absurd below (lt_irrefl _))
      downward
    constructor
    · refine across.imp fun compatible sameLayer one inFirst other inSecond sameName => ?_
      exact (compatible one inFirst other inSecond sameName).1 sameLayer
    · intro first inProfiles one inFirst pinned second inProfiles' other inSecond sameName below
      have free := freed inProfiles inProfiles' below one inFirst other inSecond sameName.symm
      rw [pinned] at free
      cases free
  · intro consistent
    refine ⟨fun profile _ => (names_apart profile).imp fun differ same => absurd same differ, ?_⟩
    refine (ordered.and consistent.apart).imp_of_mem fun {first second} inProfiles inProfiles'
      both one inFirst other inSecond same => ?_
    obtain ⟨less, apart⟩ := both
    have sameLayer : first.layer ≠ second.layer := fun here =>
      apart here one inFirst other inSecond same
    refine ⟨sameLayer, ?_⟩
    by_contra pinned
    rw [Bool.not_eq_true] at pinned
    have below : first.layer.precedence < second.layer.precedence :=
      lt_of_le_of_ne less fun here => sameLayer (precedence_injective here)
    exact consistent.unpinned first inProfiles one inFirst pinned second inProfiles' other inSecond
      same.symm below

theorem compatible_apart {one other : Profile × Variable} (compatible : Compatible one other) :
    Apart keyOf layerOf one other :=
  fun same sameLayer => (compatible same).1 (precedence_injective sameLayer)

theorem consistent_perm (same : profiles.Perm others) (consistent : Consistent profiles) :
    Consistent others where
  apart := by
    refine (same.pairwise_iff fun {first second} clear sameLayer one inFirst other inSecond => ?_).mp
      consistent.apart
    exact (clear sameLayer.symm other inSecond one inFirst).symm
  unpinned first inOthers one inFirst pinned second inOthers' :=
    consistent.unpinned first (same.mem_iff.mpr inOthers) one inFirst pinned second
      (same.mem_iff.mpr inOthers')

/-! ## The values of a resolution -/

/-- A place that defines a key. -/
def entry (definition : Profile × Variable) : ConfigurationLayer × Text :=
  (definition.1.layer, definition.1.name)

theorem resolvedFrom_append (earlier : List (Profile × Variable))
    (definition : Profile × Variable) : resolvedFrom (earlier ++ [definition]) =
      some (resolvedOver (resolvedFrom earlier) definition.1 definition.2) := by
  rw [resolvedFrom, List.foldl_append]
  rfl

theorem resolvedOver_overridden (earlier : List (Profile × Variable)) (profile : Profile)
    (variable_ : Variable) :
    (resolvedOver (resolvedFrom earlier) profile variable_).overridden = earlier.map entry := by
  induction earlier using List.reverseRecOn generalizing profile variable_ with
  | nil => rfl
  | append_singleton init last ih =>
      rw [resolvedFrom_append, List.map_append, ← ih last.1 last.2]
      rfl

/-- Resolution succeeds exactly for consistent profiles, and leaves what their definitions say. -/
theorem resolveConfiguration_ok (profiles : List Profile) :
    ((∃ trace, resolveConfiguration profiles = .ok trace) ↔ Consistent profiles) ∧
      ∀ trace, resolveConfiguration profiles = .ok trace → ∀ key, trace.values key =
        resolvedFrom (history keyOf key (definitions (inPrecedence profiles))) := by
  have loop := @loop_ok (definitions (inPrecedence profiles)) _ _ tracks_empty
  constructor
  · have goes : (∃ trace, resolveConfiguration profiles = .ok trace) ↔
        ∃ final, (definitions (inPrecedence profiles)).foldlM define Resolution.empty =
          .ok final := by
      unfold resolveConfiguration
      constructor
      · rintro ⟨trace, resolved⟩
        obtain ⟨final, ran, _⟩ := except_bind_eq_ok.mp resolved
        exact ⟨final, ran⟩
      · rintro ⟨final, ran⟩
        exact ⟨_, except_bind_eq_ok.mpr ⟨final, ran, rfl⟩⟩
    rw [goes, loop.1, compatible_iff (inPrecedence_rising profiles)]
    constructor
    · rintro ⟨_, consistent⟩
      exact consistent_perm (inPrecedence_perm profiles) consistent
    · intro consistent
      exact ⟨by simp, consistent_perm (inPrecedence_perm profiles).symm consistent⟩
  · intro trace resolved key
    unfold resolveConfiguration at resolved
    obtain ⟨final, ran, returned⟩ := except_bind_eq_ok.mp resolved
    obtain rfl := Except.ok.inj returned
    exact (loop.2 final ran).resolved key

/-- The values that the histories leave are those of the highest definitions. -/
theorem resolvesAll {trace : ResolutionTrace} (consistent : Consistent profiles)
    (values : ∀ key, trace.values key =
      resolvedFrom (history keyOf key (definitions (inPrecedence profiles)))) :
    ResolvesAll profiles trace := by
  have same := definitions_perm (inPrecedence_perm profiles)
  have ordered := inPrecedence_rising profiles
  have rising := definitions_rising ordered
  have apart : (definitions (inPrecedence profiles)).Pairwise (Apart keyOf layerOf) :=
    ((compatible_iff ordered).mpr
      (consistent_perm (inPrecedence_perm profiles).symm consistent)).imp compatible_apart
  constructor
  · intro definition member
    have found : definition ∈ history keyOf definition.2.name
        (definitions (inPrecedence profiles)) := mem_history.mpr ⟨same.mem_iff.mpr member, rfl⟩
    obtain ⟨earlier, last, shape⟩ := List.eq_nil_or_concat' _ |>.resolve_left
      (List.ne_nil_of_mem found)
    have above := history_last rising apart shape
    have increasing := history_increasing (k := definition.2.name) rising apart
    have members (other : Profile × Variable) : other ∈ earlier ∨ other = last ↔
        other ∈ definitions profiles ∧ other.2.name = definition.2.name := by
      have listed : other ∈ history keyOf definition.2.name (definitions (inPrecedence profiles)) ↔
          other ∈ definitions profiles ∧ other.2.name = definition.2.name := by
        rw [mem_history, same.mem_iff]
        rfl
      rw [← listed, shape, List.mem_append, List.mem_singleton]
    have others (other : Profile × Variable) : other ∈ earlier ↔
        other ∈ definitions profiles ∧ other.2.name = definition.2.name ∧ other ≠ last := by
      rw [← and_assoc, ← members]
      constructor
      · intro before
        refine ⟨Or.inl before, ?_⟩
        rintro rfl
        exact lt_irrefl _ (above other before)
      · rintro ⟨before | here, differs⟩
        · exact before
        · exact absurd here differs
    obtain ⟨inProfiles, named⟩ := (members last).mp (Or.inr rfl)
    have value := values definition.2.name
    rw [shape, resolvedFrom_append] at value
    refine ⟨last.1, last.2, _, ⟨inProfiles, named, ?_⟩, value, ?_⟩
    · intro other inDefinitions otherNamed differs
      exact above other ((others other).mpr ⟨inDefinitions, otherNamed, differs⟩)
    · have overridden := resolvedOver_overridden earlier last.1 last.2
      rw [shape, List.pairwise_append] at increasing
      constructor
      · exact named
      · rfl
      · rfl
      · rfl
      · rfl
      · rw [overridden, List.pairwise_map]
        exact increasing.1
      · intro place
        rw [overridden, List.mem_map]
        constructor
        · rintro ⟨other, before, rfl⟩
          obtain ⟨inDefinitions, otherNamed, differs⟩ := (others other).mp before
          exact ⟨other, inDefinitions, otherNamed, differs, rfl⟩
        · rintro ⟨other, inDefinitions, otherNamed, differs, rfl⟩
          exact ⟨other, (others other).mpr ⟨inDefinitions, otherNamed, differs⟩, rfl⟩
  · intro key unnamed
    have empty : history keyOf key (definitions (inPrecedence profiles)) = [] := by
      rw [List.eq_nil_iff_forall_not_mem]
      intro definition member
      obtain ⟨inDefinitions, named⟩ := mem_history.mp member
      exact unnamed definition (same.mem_iff.mp inDefinitions) named
    rw [values, empty]
    rfl

/-- Resolution succeeds exactly for consistent profiles, gives every key its highest definition,
and the values are the same in whatever order the profiles are given. -/
theorem resolution_layered (profiles : List Profile) :
    ((∃ trace, resolveConfiguration profiles = .ok trace) ↔ Consistent profiles) ∧
      ∀ trace, resolveConfiguration profiles = .ok trace → ResolvesAll profiles trace ∧
        ∀ others : List Profile, profiles.Perm others →
          ∃ trace', resolveConfiguration others = .ok trace' ∧ trace'.values = trace.values := by
  obtain ⟨succeeds, leaves⟩ := resolveConfiguration_ok profiles
  refine ⟨succeeds, fun trace resolved => ?_⟩
  have consistent := succeeds.mp ⟨trace, resolved⟩
  refine ⟨resolvesAll consistent (leaves trace resolved), fun others same => ?_⟩
  obtain ⟨succeeds', leaves'⟩ := resolveConfiguration_ok others
  obtain ⟨trace', resolved'⟩ := succeeds'.mpr (consistent_perm same consistent)
  refine ⟨trace', resolved', funext fun key => ?_⟩
  have ordered := inPrecedence_rising profiles
  have apart : (definitions (inPrecedence profiles)).Pairwise (Apart keyOf layerOf) :=
    ((compatible_iff ordered).mpr
      (consistent_perm (inPrecedence_perm profiles).symm consistent)).imp compatible_apart
  have reordered := definitions_perm (((inPrecedence_perm profiles).trans same).trans
    (inPrecedence_perm others).symm)
  rw [leaves trace resolved key, leaves' trace' resolved' key, history_perm reordered
    (definitions_rising ordered) (definitions_rising (inPrecedence_rising others)) apart]

namespace Backup

theorem region_named : strip "region".toList ≠ [] := by decide

theorem region_bounded : "region".toList.length ≤ maxVariableNameLength := by decide

theorem literal (text : Text) : some text = none ↔ (none : Option SecretReference) ≠ none := by simp

def region (value : Text) : Variable where
  name := "region".toList
  value := some value
  secret := none
  overridable := true
  named := region_named
  nameBounded := region_bounded
  exactlyOne := literal value

theorem shipped_named : strip "shipped".toList ≠ [] := by decide

theorem task_named : strip "task".toList ≠ [] := by decide

theorem single_bounded (variable_ : Variable) : [variable_].length ≤ maxVariablesPerProfile := by
  simp [maxVariablesPerProfile]

theorem single_unique (variable_ : Variable) : ([variable_].map Variable.name).Nodup :=
  List.nodup_singleton variable_.name

/-- The shipped default. -/
def shipped : Profile where
  name := "shipped".toList
  layer := .productDefault
  variables_ := [region "north".toList]
  named := shipped_named
  variablesBounded := single_bounded _
  namesUnique := single_unique _

/-- What the task binds. -/
def bound : Profile where
  name := "task".toList
  layer := .taskRevision
  variables_ := [region "south".toList]
  named := task_named
  variablesBounded := single_bounded _
  namesUnique := single_unique _

theorem resolves : (resolveConfiguration [bound, shipped]).isOk = true := by decide +kernel

end Backup

theorem resolution_layered_region : ∃ trace trace',
    resolveConfiguration [Backup.bound, Backup.shipped] = .ok trace ∧
      ResolvesAll [Backup.bound, Backup.shipped] trace ∧
      resolveConfiguration [Backup.shipped, Backup.bound] = .ok trace' ∧
      trace'.values = trace.values := by
  have resolves := Backup.resolves
  cases resolved : resolveConfiguration [Backup.bound, Backup.shipped] with
  | error refused =>
      rw [resolved] at resolves
      cases resolves
  | ok trace =>
      obtain ⟨all, same⟩ := (resolution_layered _).2 trace resolved
      obtain ⟨trace', resolved', values⟩ := same [Backup.shipped, Backup.bound] (.swap _ _ [])
      exact ⟨trace, trace', rfl, all, resolved', values⟩

end TaskControl.Configuration
