import Mathlib

/-!
# Programs that can raise

A program runs on a state and returns or raises; the state reached stays either
way, as the side effects of a Python call do.  `handle` is `try ... except`,
`always` is `try ... finally`.  `Triple` is the usual pre- and postcondition,
with a second postcondition for the raising exit, and `Keeps` is an invariant of
both exits.
-/

set_option autoImplicit false

namespace Effects

variable {ε σ α β : Type}

abbrev Program (ε σ α : Type) := EStateM ε σ α

/-- `try: body except: handler`.  What the body did to the state stays done. -/
def handle (body : Program ε σ α) (handler : ε → Program ε σ α) : Program ε σ α := fun s =>
  match body s with
  | .ok a s' => .ok a s'
  | .error e s' => handler e s'

/-- `try: body finally: cleanup`.  An exception of the cleanup replaces the outcome. -/
def always (body : Program ε σ α) (cleanup : Program ε σ Unit) : Program ε σ α := fun s =>
  match body s with
  | .ok a s' =>
      match cleanup s' with
      | .ok _ s'' => .ok a s''
      | .error e s'' => .error e s''
  | .error e s' =>
      match cleanup s' with
      | .ok _ s'' => .error e s''
      | .error e' s'' => .error e' s''

/-! ## Runs of compound programs -/

theorem bind_run (body : Program ε σ α) (next : α → Program ε σ β) (s : σ) :
    (body >>= next) s =
      match body s with
      | .ok a s' => next a s'
      | .error e s' => .error e s' := by
  simp only [bind, EStateM.bind]
  cases body s <;> rfl

theorem bind_eq_ok {body : Program ε σ α} {next : α → Program ε σ β} {s s' : σ} {b : β} :
    (body >>= next) s = .ok b s' ↔ ∃ a mid, body s = .ok a mid ∧ next a mid = .ok b s' := by
  rw [bind_run]
  cases run : body s with
  | ok a mid => simp
  | error e mid => simp

theorem bind_eq_error {body : Program ε σ α} {next : α → Program ε σ β} {s s' : σ} {e : ε} :
    (body >>= next) s = .error e s' ↔
      body s = .error e s' ∨ ∃ a mid, body s = .ok a mid ∧ next a mid = .error e s' := by
  rw [bind_run]
  cases run : body s with
  | ok a mid => simp
  | error e' mid => simp

theorem handle_eq_ok {body : Program ε σ α} {handler : ε → Program ε σ α} {s s' : σ} {a : α} :
    handle body handler s = .ok a s' ↔
      body s = .ok a s' ∨ ∃ e mid, body s = .error e mid ∧ handler e mid = .ok a s' := by
  unfold handle
  cases run : body s with
  | ok a mid => simp
  | error e mid => simp

/-! ## Triples -/

def Triple (pre : σ → Prop) (body : Program ε σ α) (post : α → σ → Prop)
    (raised : ε → σ → Prop) : Prop :=
  ∀ s, pre s →
    match body s with
    | .ok a s' => post a s'
    | .error e s' => raised e s'

theorem Triple.ok {pre : σ → Prop} {body : Program ε σ α} {post : α → σ → Prop}
    {raised : ε → σ → Prop} (triple : Triple pre body post raised) {s s' : σ} {a : α}
    (holds : pre s) (run : body s = .ok a s') : post a s' := by
  have result := triple s holds
  rwa [run] at result

theorem Triple.error {pre : σ → Prop} {body : Program ε σ α} {post : α → σ → Prop}
    {raised : ε → σ → Prop} (triple : Triple pre body post raised) {s s' : σ} {e : ε}
    (holds : pre s) (run : body s = .error e s') : raised e s' := by
  have result := triple s holds
  rwa [run] at result

theorem Triple.consequence {pre pre' : σ → Prop} {body : Program ε σ α}
    {post post' : α → σ → Prop} {raised raised' : ε → σ → Prop}
    (triple : Triple pre body post raised) (weaker : ∀ s, pre' s → pre s)
    (returns : ∀ a s, post a s → post' a s) (raises : ∀ e s, raised e s → raised' e s) :
    Triple pre' body post' raised' := by
  intro s holds
  have result := triple s (weaker s holds)
  cases run : body s with
  | ok a s' => rw [run] at result; exact returns a s' result
  | error e s' => rw [run] at result; exact raises e s' result

theorem Triple.bind {pre : σ → Prop} {mid : α → σ → Prop} {post : β → σ → Prop}
    {raised : ε → σ → Prop} {body : Program ε σ α} {next : α → Program ε σ β}
    (first : Triple pre body mid raised) (then_ : ∀ a, Triple (mid a) (next a) post raised) :
    Triple pre (body >>= next) post raised := by
  intro s holds
  have result := first s holds
  rw [bind_run]
  cases run : body s with
  | ok a s' => rw [run] at result; exact then_ a s' result
  | error e s' => rw [run] at result; exact result

theorem Triple.handle {pre : σ → Prop} {post : α → σ → Prop} {mid raised : ε → σ → Prop}
    {body : Program ε σ α} {handler : ε → Program ε σ α}
    (first : Triple pre body post mid) (rescue : ∀ e, Triple (mid e) (handler e) post raised) :
    Triple pre (Effects.handle body handler) post raised := by
  intro s holds
  have result := first s holds
  unfold Effects.handle
  cases run : body s with
  | ok a s' => rw [run] at result; exact result
  | error e s' => rw [run] at result; exact rescue e s' result

/-! ## Invariants -/

/-- The invariant survives the program, however it ends. -/
def Keeps (invariant : σ → Prop) (body : Program ε σ α) : Prop :=
  Triple invariant body (fun _ s => invariant s) (fun _ s => invariant s)

theorem keeps_pure (invariant : σ → Prop) (a : α) :
    Keeps invariant (pure a : Program ε σ α) :=
  fun _ holds => holds

theorem keeps_throw (invariant : σ → Prop) (e : ε) :
    Keeps invariant (throw e : Program ε σ α) :=
  fun _ holds => holds

theorem keeps_get (invariant : σ → Prop) : Keeps invariant (get : Program ε σ σ) :=
  fun _ holds => holds

theorem Keeps.bind {invariant : σ → Prop} {body : Program ε σ α} {next : α → Program ε σ β}
    (first : Keeps invariant body) (then_ : ∀ a, Keeps invariant (next a)) :
    Keeps invariant (body >>= next) :=
  Triple.bind first then_

theorem keeps_ite {invariant : σ → Prop} {condition : Prop} [Decidable condition]
    {yes no : Program ε σ α} (holds : condition → Keeps invariant yes)
    (fails : ¬ condition → Keeps invariant no) :
    Keeps invariant (if condition then yes else no) := by
  by_cases decided : condition
  · rw [if_pos decided]
    exact holds decided
  · rw [if_neg decided]
    exact fails decided

/-- A loop over a list keeps what each of its rounds keeps. -/
theorem keeps_forM {γ : Type} {invariant : σ → Prop} (items : List γ)
    (round : γ → Program ε σ PUnit) (keeps : ∀ item ∈ items, Keeps invariant (round item)) :
    Keeps invariant (items.forM round) := by
  induction items with
  | nil => exact keeps_pure invariant ()
  | cons item rest ih =>
      exact (keeps item (by simp)).bind fun _ => ih fun other member => keeps other (by simp [member])

theorem forM_append {γ : Type} (first rest : List γ) (round : γ → Program ε σ PUnit) :
    (first ++ rest).forM round = (first.forM round >>= fun _ => rest.forM round) := by
  rw [List.forM_eq_forM, List.forM_append]

/-! ## Simulations -/

/-- Each successful round of a loop is a step of the abstract side. -/
theorem forM_simulates {γ δ : Type} (represents : σ → δ → Prop) {round : γ → Program ε σ PUnit}
    {step : δ → γ → δ} (items : List γ)
    (simulates : ∀ item ∈ items, ∀ s s' d, represents s d → round item s = .ok ⟨⟩ s' →
      represents s' (step d item))
    {s s' : σ} {d : δ} (start : represents s d) (ran : items.forM round s = .ok ⟨⟩ s') :
    represents s' (items.foldl step d) := by
  induction items generalizing s d with
  | nil =>
      cases ran
      exact start
  | cons item rest ih =>
      obtain ⟨_, mid, first, later⟩ := bind_eq_ok.mp ran
      exact ih (fun other member => simulates other (List.mem_cons_of_mem item member))
        (simulates item List.mem_cons_self s mid d start first) later

/-- What each successful round of a loop preserves, the loop preserves. -/
theorem forM_preserves {γ : Type} {invariant : σ → Prop} {round : γ → Program ε σ PUnit}
    (items : List γ)
    (preserves : ∀ item ∈ items, ∀ s s', invariant s → round item s = .ok ⟨⟩ s' → invariant s')
    {s s' : σ} (start : invariant s) (ran : items.forM round s = .ok ⟨⟩ s') : invariant s' := by
  induction items generalizing s with
  | nil =>
      cases ran
      exact start
  | cons item rest ih =>
      obtain ⟨_, mid, first, later⟩ := bind_eq_ok.mp ran
      exact ih (fun other member => preserves other (List.mem_cons_of_mem item member))
        (preserves item List.mem_cons_self s mid start first) later

/-! ## How a program ends -/

/-- The body ends from `s` as one of the two conditions says. -/
def Ends (body : Program ε σ α) (s : σ) (post : α → σ → Prop) (raised : ε → σ → Prop) : Prop :=
  match body s with
  | .ok a s' => post a s'
  | .error e s' => raised e s'

section Ends

variable {body : Program ε σ α} {s : σ} {post post' : α → σ → Prop} {raised raised' : ε → σ → Prop}

theorem ends_of_ok {a : α} {s' : σ} (ran : body s = .ok a s') :
    Ends body s post raised ↔ post a s' := by
  unfold Ends
  rw [ran]

theorem ends_of_error {e : ε} {s' : σ} (ran : body s = .error e s') :
    Ends body s post raised ↔ raised e s' := by
  unfold Ends
  rw [ran]

theorem ends_pure {a : α} (holds : post a s) :
    Ends (pure a : Program ε σ α) s post raised := holds

theorem ends_throw {e : ε} (holds : raised e s) :
    Ends (throw e : Program ε σ α) s post raised := holds

theorem ends_get {read : σ → σ → Prop} (holds : read s s) :
    Ends (get : Program ε σ σ) s read raised := holds

theorem ends_modify {change : σ → σ} {changed : PUnit → σ → Prop}
    (holds : changed ⟨⟩ (change s)) : Ends (modify change : Program ε σ PUnit) s changed raised :=
  holds

theorem Ends.mono (ends : Ends body s post raised) (returns : ∀ a s', post a s' → post' a s')
    (raises : ∀ e s', raised e s' → raised' e s') : Ends body s post' raised' := by
  cases run : body s with
  | ok a s' => exact (ends_of_ok run).mpr (returns a s' ((ends_of_ok run).mp ends))
  | error e s' => exact (ends_of_error run).mpr (raises e s' ((ends_of_error run).mp ends))

theorem Ends.and (first : Ends body s post raised) (second : Ends body s post' raised') :
    Ends body s (fun a s' => post a s' ∧ post' a s') fun e s' => raised e s' ∧ raised' e s' := by
  cases run : body s with
  | ok a s' => exact (ends_of_ok run).mpr ⟨(ends_of_ok run).mp first, (ends_of_ok run).mp second⟩
  | error e s' =>
      exact (ends_of_error run).mpr ⟨(ends_of_error run).mp first, (ends_of_error run).mp second⟩

theorem Ends.bind {next : α → Program ε σ β} {after : β → σ → Prop}
    (first : Ends body s (fun a s' => Ends (next a) s' after raised) raised) :
    Ends (body >>= next) s after raised := by
  cases run : body s with
  | ok a s' =>
      have later := (ends_of_ok run).mp first
      unfold Ends at later ⊢
      rwa [bind_run, run]
  | error e s' =>
      have escaped := (ends_of_error run).mp first
      refine (ends_of_error ?_).mpr escaped
      rw [bind_run, run]

theorem Ends.handle {handler : ε → Program ε σ α}
    (first : Ends body s post (fun e s' => Ends (handler e) s' post raised)) :
    Ends (Effects.handle body handler) s post raised := by
  cases run : body s with
  | ok a s' =>
      refine (ends_of_ok ?_).mpr ((ends_of_ok run).mp first)
      rw [Effects.handle, run]
  | error e s' =>
      have rescued := (ends_of_error run).mp first
      unfold Ends at rescued ⊢
      rwa [Effects.handle, run]

theorem Ends.always {cleanup : Program ε σ Unit}
    (first : Ends body s (fun a s' => Ends cleanup s' (fun _ s'' => post a s'') raised)
      (fun e s' => Ends cleanup s' (fun _ s'' => raised e s'') raised)) :
    Ends (Effects.always body cleanup) s post raised := by
  cases run : body s with
  | ok a s' =>
      have later := (ends_of_ok run).mp first
      cases cleaned : cleanup s' with
      | ok u s'' =>
          refine (ends_of_ok ?_).mpr ((ends_of_ok cleaned).mp later)
          simp only [Effects.always, run, cleaned]
      | error e s'' =>
          refine (ends_of_error ?_).mpr ((ends_of_error cleaned).mp later)
          simp only [Effects.always, run, cleaned]
  | error e s' =>
      have later := (ends_of_error run).mp first
      cases cleaned : cleanup s' with
      | ok u s'' =>
          refine (ends_of_error ?_).mpr ((ends_of_ok cleaned).mp later)
          simp only [Effects.always, run, cleaned]
      | error e' s'' =>
          refine (ends_of_error ?_).mpr ((ends_of_error cleaned).mp later)
          simp only [Effects.always, run, cleaned]

end Ends

/-! ## Programs that return -/

/-- The body returns from `s`, and what it returns meets `post`. -/
def Returns (body : Program ε σ α) (s : σ) (post : α → σ → Prop) : Prop :=
  ∃ a s', body s = .ok a s' ∧ post a s'

theorem returns_pure {a : α} {s : σ} {post : α → σ → Prop} (holds : post a s) :
    Returns (pure a : Program ε σ α) s post :=
  ⟨a, s, rfl, holds⟩

/-- A program that ends without raising returns. -/
theorem returns_of_ends {body : Program ε σ α} {s : σ} {post : α → σ → Prop}
    {raised : ε → σ → Prop} (ends : Ends body s post raised) (quiet : ∀ e s', ¬ raised e s') :
    Returns body s post := by
  cases run : body s with
  | ok a s' => exact ⟨a, s', run, (ends_of_ok run).mp ends⟩
  | error e s' => exact absurd ((ends_of_error run).mp ends) (quiet e s')

theorem Returns.mono {body : Program ε σ α} {s : σ} {post post' : α → σ → Prop}
    (returns : Returns body s post) (weaker : ∀ a s', post a s' → post' a s') :
    Returns body s post' := by
  obtain ⟨a, s', ran, holds⟩ := returns
  exact ⟨a, s', ran, weaker a s' holds⟩

theorem Returns.bind {body : Program ε σ α} {next : α → Program ε σ β} {s : σ}
    {mid : α → σ → Prop} {post : β → σ → Prop} (first : Returns body s mid)
    (later : ∀ a s', mid a s' → Returns (next a) s' post) : Returns (body >>= next) s post := by
  obtain ⟨a, s', ran, holds⟩ := first
  obtain ⟨b, s'', ran', holds'⟩ := later a s' holds
  exact ⟨b, s'', bind_eq_ok.mpr ⟨a, s', ran, ran'⟩, holds'⟩

/-- A loop whose rounds return and keep an invariant. -/
theorem returns_forM {γ : Type} (invariant : σ → Prop) {items : List γ}
    {round : γ → Program ε σ PUnit} {s : σ} (holds : invariant s)
    (each : ∀ item ∈ items, ∀ s, invariant s → Returns (round item) s fun _ s' => invariant s') :
    Returns (items.forM round) s fun _ s' => invariant s' := by
  induction items generalizing s with
  | nil => exact returns_pure holds
  | cons item rest ih =>
      exact (each item List.mem_cons_self s holds).bind fun _ s' kept =>
        ih kept fun other member => each other (List.mem_cons_of_mem item member)

/-! ## Loops that collect -/

theorem except_bind_eq_ok {step : Except ε α} {next : α → Except ε β} {b : β} :
    (step >>= next) = .ok b ↔ ∃ a, step = .ok a ∧ next a = .ok b := by
  cases step <;> simp [bind, Except.bind]

theorem except_map_eq_ok {step : Except ε α} {f : α → β} {b : β} :
    f <$> step = .ok b ↔ ∃ a, step = .ok a ∧ f a = b := by
  cases step <;> simp [Functor.map, Except.map]

/-- A loop that collects results succeeds when every round does. -/
theorem mapM_eq_ok {f : α → Except ε β} {items : List α} {results : List β} :
    items.mapM f = .ok results ↔ List.Forall₂ (fun item result => f item = .ok result) items results := by
  induction items generalizing results with
  | nil =>
      rw [List.mapM_nil, List.forall₂_nil_left_iff]
      constructor
      · intro done
        exact (Except.ok.inj done).symm
      · rintro rfl
        rfl
  | cons item rest ih =>
      rw [List.mapM_cons, List.forall₂_cons_left_iff, except_bind_eq_ok]
      constructor
      · rintro ⟨result, done, collected⟩
        obtain ⟨others, later, returned⟩ := except_bind_eq_ok.mp collected
        exact ⟨result, others, done, ih.mp later, (Except.ok.inj returned).symm⟩
      · rintro ⟨result, others, done, later, rfl⟩
        exact ⟨result, done, except_bind_eq_ok.mpr ⟨others, ih.mpr later, rfl⟩⟩

/-- Two loops over one list whose rounds are related collect related results. -/
theorem mapM_related {γ : Type} {f : α → Except ε β} {g : α → Except ε γ}
    {relation : β → γ → Prop} {items : List α} {first : List β} {second : List γ}
    (each : ∀ item ∈ items, ∀ b c, f item = .ok b → g item = .ok c → relation b c)
    (collected : items.mapM f = .ok first) (collected' : items.mapM g = .ok second) :
    List.Forall₂ relation first second := by
  have left := mapM_eq_ok.mp collected
  have right := mapM_eq_ok.mp collected'
  clear collected collected'
  induction left generalizing second with
  | nil =>
      cases right
      exact .nil
  | cons here _ ih =>
      cases right with
      | cons there rest =>
          exact .cons (each _ List.mem_cons_self _ _ here there)
            (ih (fun item member => each item (List.mem_cons_of_mem _ member)) rest)

/-- Each result of a collecting loop is one round's. -/
theorem mem_of_related {relation : α → β → Prop} {items : List α} {results : List β}
    (each : List.Forall₂ relation items results) {b : β} (member : b ∈ results) :
    ∃ a ∈ items, relation a b := by
  induction each with
  | nil => cases member
  | cons first _ ih =>
      rcases List.mem_cons.mp member with rfl | later
      · exact ⟨_, List.mem_cons_self, first⟩
      · obtain ⟨a, inRest, related⟩ := ih later
        exact ⟨a, List.mem_cons_of_mem _ inRest, related⟩

theorem mapM_isOk_iff {f : α → Except ε β} {items : List α} :
    (∃ results, items.mapM f = .ok results) ↔ ∀ item ∈ items, ∃ result, f item = .ok result := by
  simp only [mapM_eq_ok]
  induction items with
  | nil => simp
  | cons item rest ih =>
      simp only [List.forall_mem_cons, ← ih, List.forall₂_cons_left_iff]
      constructor
      · rintro ⟨_, result, others, here, later, rfl⟩
        exact ⟨⟨result, here⟩, others, later⟩
      · rintro ⟨⟨result, here⟩, others, later⟩
        exact ⟨_, result, others, here, later, rfl⟩

/-- The results of a collecting loop are those of its rounds. -/
theorem mem_of_mapM {f : α → Except ε β} {items : List α} {results : List β}
    (collected : items.mapM f = .ok results) (b : β) :
    b ∈ results ↔ ∃ item ∈ items, f item = .ok b := by
  have each := mapM_eq_ok.mp collected
  clear collected
  induction each with
  | nil => simp
  | cons first _ ih =>
      rw [List.mem_cons, List.exists_mem_cons_iff]
      simp only [ih, first, Except.ok.injEq]
      exact or_congr_left eq_comm

/-- What the rounds of a collecting loop return together. -/
theorem mapM_flatten {f : α → Except ε (List β)} {items : List α} {lists : List (List β)}
    (collected : items.mapM f = .ok lists) :
    (∀ item ∈ items, ∃ list, f item = .ok list) ∧
      ∀ b, b ∈ lists.flatten ↔ ∃ item ∈ items, ∃ list, f item = .ok list ∧ b ∈ list := by
  have each := mapM_eq_ok.mp collected
  clear collected
  induction each with
  | nil => simp
  | cons first later ih =>
      obtain ⟨every, flat⟩ := ih
      simp only [List.forall_mem_cons, List.flatten_cons, List.mem_append, List.exists_mem_cons_iff,
        flat, first, Except.ok.injEq, exists_eq_left']
      exact ⟨⟨⟨_, rfl⟩, every⟩, fun _ => trivial⟩

end Effects
