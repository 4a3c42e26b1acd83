import TaskControl.Foundation.IsoTime

/-!
# Time zones

A zone is a function from instants to the offset of its local time, less than a day.  The
other way a local time may be read by several instants, the first for `fold` 0 and the last
for `fold` 1, or by none, when the clock was put forward past it: it is then taken with the
offset before the change for `fold` 0 and after it for `fold` 1.
-/

set_option autoImplicit false

namespace IsoTime

/-- The local time at an instant. -/
def localTime (offset : Int → Int) (t : Int) : Int := t + offset t

/-- The instant a local time stands for, by its fold. -/
structure Resolves (offset : Int → Int) (wall : Int) (first last : Int) : Prop where
  earliest : ∀ t, localTime offset t = wall → localTime offset first = wall ∧ first ≤ t
  latest : ∀ t, localTime offset t = wall → localTime offset last = wall ∧ t ≤ last
  gap : (∀ t, localTime offset t ≠ wall) →
    ∃ change, localTime offset (change - 1) < wall ∧ wall < localTime offset change ∧
      first = wall - offset (change - 1) ∧ last = wall - offset change

structure Zone where
  offset : Int → Int
  resolve : Bool → Int → Int
  near : ∀ t, -dayLength < offset t ∧ offset t < dayLength
  resolves : ∀ wall, Resolves offset wall (resolve false wall) (resolve true wall)

def Zone.read (zone : Zone) (t : Int) : Int := localTime zone.offset t

/-- A change of the clock passes every local time that is not read. -/
theorem exists_change {offset : Int → Int}
    (near : ∀ t, -dayLength < offset t ∧ offset t < dayLength) {wall : Int}
    (missing : ∀ t, localTime offset t ≠ wall) :
    ∃ change, localTime offset (change - 1) < wall ∧ wall < localTime offset change := by
  obtain ⟨change, ⟨after, passed⟩, least⟩ := @Int.exists_least_of_bdd
    (fun t => wall - dayLength ≤ t ∧ wall ≤ localTime offset t)
    ⟨wall - dayLength, fun _ holds => holds.1⟩
    ⟨wall + dayLength, by
      have bound := near (wall + dayLength)
      simp only [localTime, dayLength, second] at bound ⊢
      omega⟩
  refine ⟨change, ?_, lt_of_le_of_ne passed (missing change).symm⟩
  by_contra notBefore
  have start := near (wall - dayLength)
  have inside : wall - dayLength ≤ change - 1 := by
    by_contra early
    have same : change = wall - dayLength := by omega
    rw [same, localTime] at passed
    omega
  have again := least (change - 1) ⟨inside, not_lt.mp notBefore⟩
  omega

theorem exists_resolves {offset : Int → Int}
    (near : ∀ t, -dayLength < offset t ∧ offset t < dayLength) (wall : Int) :
    ∃ first last, Resolves offset wall first last := by
  by_cases exists_ : ∃ t, localTime offset t = wall
  · have low (t : Int) (reads : localTime offset t = wall) : wall - dayLength ≤ t := by
      have bound := near t
      rw [localTime] at reads
      omega
    have high (t : Int) (reads : localTime offset t = wall) : t ≤ wall + dayLength := by
      have bound := near t
      rw [localTime] at reads
      omega
    obtain ⟨first, reads, least⟩ := Int.exists_least_of_bdd ⟨_, low⟩ exists_
    obtain ⟨last, reads', greatest⟩ := Int.exists_greatest_of_bdd ⟨_, high⟩ exists_
    refine ⟨first, last, fun t same => ⟨reads, least t same⟩,
      fun t same => ⟨reads', greatest t same⟩, fun missing => ?_⟩
    obtain ⟨t, same⟩ := exists_
    exact absurd same (missing t)
  · have missing : ∀ t, localTime offset t ≠ wall := not_exists.mp exists_
    obtain ⟨change, before, after⟩ := exists_change near missing
    exact ⟨_, _, fun t same => absurd same (missing t), fun t same => absurd same (missing t),
      fun _ => ⟨change, before, after, rfl, rfl⟩⟩

/-- Every function of offsets below a day is that of a zone. -/
theorem exists_zone (offset : Int → Int)
    (near : ∀ t, -dayLength < offset t ∧ offset t < dayLength) :
    ∃ zone : Zone, zone.offset = offset := by
  choose first last resolves using exists_resolves near
  exact ⟨⟨offset, fun fold => if fold then last else first, near, resolves⟩, rfl⟩

end IsoTime
