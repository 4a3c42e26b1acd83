import TaskControl.Domain.Identifiers

/-!
# Identifiers in the order of their creation

The layout of a UUID of version 7, from its timestamp and the random bits, and the
order of identifiers: that of their numbers, which is that of their text forms and
begins with the timestamp.
-/

set_option autoImplicit false

namespace TaskControl

open PythonText

/-! ## Generation -/

/-- The number that is put together from its parts. -/
def uuid7 (millis : Nat) (randA : BitVec 12) (randB : BitVec 62) : Nat :=
  millis <<< 80 ||| 7 <<< 76 ||| randA.toNat <<< 64 ||| 2 <<< 62 ||| randB.toNat

theorem uuid7_eq (millis : Nat) (randA : BitVec 12) (randB : BitVec 62) :
    uuid7 millis randA randB =
      millis * 2 ^ 80 + 7 * 2 ^ 76 + randA.toNat * 2 ^ 64 + 2 * 2 ^ 62 + randB.toNat := by
  have a := randA.isLt
  have b := randB.isLt
  have version : millis <<< 80 ||| 7 <<< 76 = (millis * 2 ^ 4 + 7) <<< 76 := by
    rw [← Nat.shiftLeft_add_eq_or_of_lt (by decide), Nat.shiftLeft_eq, Nat.shiftLeft_eq,
      Nat.shiftLeft_eq]
    omega
  have first : (millis * 2 ^ 4 + 7) <<< 76 ||| randA.toNat <<< 64 =
      ((millis * 2 ^ 4 + 7) * 2 ^ 12 + randA.toNat) <<< 64 := by
    rw [← Nat.shiftLeft_add_eq_or_of_lt (by rw [Nat.shiftLeft_eq]; omega), Nat.shiftLeft_eq,
      Nat.shiftLeft_eq, Nat.shiftLeft_eq]
    omega
  have variant : ((millis * 2 ^ 4 + 7) * 2 ^ 12 + randA.toNat) <<< 64 ||| 2 <<< 62 =
      (((millis * 2 ^ 4 + 7) * 2 ^ 12 + randA.toNat) * 2 ^ 2 + 2) <<< 62 := by
    rw [← Nat.shiftLeft_add_eq_or_of_lt (by decide), Nat.shiftLeft_eq, Nat.shiftLeft_eq,
      Nat.shiftLeft_eq]
    omega
  rw [uuid7, version, first, variant, ← Nat.shiftLeft_add_eq_or_of_lt b, Nat.shiftLeft_eq]
  omega

theorem uuid7_bounded {millis : Nat} (fits : millis < 2 ^ 48) (randA : BitVec 12)
    (randB : BitVec 62) : uuid7 millis randA randB < uuidBound := by
  have a := randA.isLt
  have b := randB.isLt
  rw [uuid7_eq, uuidBound]
  omega

/-- `EntityId.generate` with a timestamp, from the bits that `generate_uuid7` draws. -/
def EntityId.generate (kind : IdentifierKind) (timestampMs : Int) (randA : BitVec 12)
    (randB : BitVec 62) : Except TaskControlError (EntityId kind) :=
  if fits : 0 ≤ timestampMs ∧ timestampMs.toNat < 2 ^ 48 then
    .ok ⟨uuid7 timestampMs.toNat randA randB, uuid7_bounded fits.2 randA randB⟩
  else .error (validationError "Timestamp does not fit in the 48-bit UUIDv7 field.")

/-! ## The fields of a UUID -/

inductive UuidVariant where
  | reservedNcs
  | rfc4122
  | reservedMicrosoft
  | reservedFuture
  deriving DecidableEq, Repr

/-- `UUID.variant`. -/
def uuidVariant (value : Nat) : UuidVariant :=
  if value &&& 0x8000 <<< 48 = 0 then .reservedNcs
  else if value &&& 0x4000 <<< 48 = 0 then .rfc4122
  else if value &&& 0x2000 <<< 48 = 0 then .reservedMicrosoft
  else .reservedFuture

/-- `UUID.version`. -/
def uuidVersion (value : Nat) : Option Nat :=
  if uuidVariant value = .rfc4122 then some (value >>> 76 &&& 0xF) else none

/-- `created_at_ms`. -/
def EntityId.createdAtMs {kind : IdentifierKind} (id : EntityId kind) : Option Nat :=
  if uuidVersion id.value = some 7 then some (id.value >>> 80) else none

/-- Whether a bit is off. -/
theorem and_bit_eq_zero {value i : Nat} : value &&& 2 ^ i = 0 ↔ value / 2 ^ i % 2 = 0 := by
  rw [← Nat.toNat_testBit]
  constructor
  · intro off
    have bit := congrArg (fun n => Nat.testBit n i) off
    simp only [Nat.testBit_and, Nat.testBit_two_pow_self, Bool.and_true, Nat.zero_testBit] at bit
    simp [bit]
  · intro off
    refine Nat.eq_of_testBit_eq fun j => ?_
    rw [Nat.testBit_and, Nat.testBit_two_pow, Nat.zero_testBit]
    by_cases same : i = j
    · subst same
      cases bit : value.testBit i with
      | false => rfl
      | true => simp [bit] at off
    · simp [same]

theorem uuidVariant_uuid7 (millis : Nat) (randA : BitVec 12) (randB : BitVec 62) :
    uuidVariant (uuid7 millis randA randB) = .rfc4122 := by
  have a := randA.isLt
  have b := randB.isLt
  have high : ¬ uuid7 millis randA randB &&& 0x8000 <<< 48 = 0 := by
    rw [show 0x8000 <<< 48 = 2 ^ 63 from rfl, and_bit_eq_zero, uuid7_eq]
    omega
  have low : uuid7 millis randA randB &&& 0x4000 <<< 48 = 0 := by
    rw [show 0x4000 <<< 48 = 2 ^ 62 from rfl, and_bit_eq_zero, uuid7_eq]
    omega
  rw [uuidVariant, if_neg high, if_pos low]

theorem uuidVersion_uuid7 (millis : Nat) (randA : BitVec 12) (randB : BitVec 62) :
    uuidVersion (uuid7 millis randA randB) = some 7 := by
  have a := randA.isLt
  have b := randB.isLt
  rw [uuidVersion, if_pos (uuidVariant_uuid7 millis randA randB), show 0xF = 2 ^ 4 - 1 from rfl,
    Nat.and_two_pow_sub_one_eq_mod, Nat.shiftRight_eq_div_pow, uuid7_eq]
  congr 1
  omega

theorem shiftRight_uuid7 (millis : Nat) (randA : BitVec 12) (randB : BitVec 62) :
    uuid7 millis randA randB >>> 80 = millis := by
  have a := randA.isLt
  have b := randB.isLt
  rw [Nat.shiftRight_eq_div_pow, uuid7_eq]
  omega

/-! ## The order of the texts -/

/-- `__lt__`. -/
instance {kind : IdentifierKind} : LT (EntityId kind) := ⟨fun first second => first.value < second.value⟩

/-- Behind fronts of one length, the first difference decides. -/
theorem append_lt_append_iff {first second rest rest' : Text}
    (same : first.length = second.length) :
    first ++ rest < second ++ rest' ↔ first < second ∨ first = second ∧ rest < rest' := by
  induction first generalizing second with
  | nil =>
      obtain rfl := List.length_eq_zero_iff.mp same.symm
      simp
  | cons c tail ih =>
      cases second with
      | nil => cases same
      | cons d tail' =>
          have lengths : tail.length = tail'.length := by simpa using same
          rw [List.cons_append, List.cons_append, List.cons_lt_cons_iff, List.cons_lt_cons_iff,
            ih lengths, List.cons.injEq]
          constructor
          · rintro (less | ⟨rfl, less | ⟨rfl, less⟩⟩)
            · exact Or.inl (Or.inl less)
            · exact Or.inl (Or.inr ⟨rfl, less⟩)
            · exact Or.inr ⟨⟨rfl, rfl⟩, less⟩
          · rintro ((less | ⟨rfl, less⟩) | ⟨⟨rfl, rfl⟩, less⟩)
            · exact Or.inl less
            · exact Or.inr ⟨rfl, Or.inl less⟩
            · exact Or.inr ⟨rfl, Or.inr ⟨rfl, less⟩⟩

theorem hexDigit_lt : ∀ i < 16, ∀ j < 16, hexDigit i < hexDigit j ↔ i < j := by decide

/-- Texts of hexadecimal digits are ordered as the numbers. -/
theorem hexDigits_lt {count : Nat} : ∀ {first second : Nat},
    hexDigits count first < hexDigits count second ↔ first % 16 ^ count < second % 16 ^ count := by
  induction count with
  | zero => simp [hexDigits, Nat.mod_one]
  | succ count ih =>
      intro first second
      have digit (value : Nat) : value % 16 < 16 := Nat.mod_lt _ (by omega)
      have last : [hexDigit (first % 16)] < [hexDigit (second % 16)] ↔ first % 16 < second % 16 := by
        rw [List.cons_lt_cons_iff, hexDigit_lt _ (digit first) _ (digit second)]
        simp
      have front : hexDigits count (first / 16) = hexDigits count (second / 16) ↔
          first / 16 % 16 ^ count = second / 16 % 16 ^ count := by
        constructor
        · intro same
          rw [← hexRead_hexDigits, ← hexRead_hexDigits, same]
        · intro same
          have notLess : ¬ hexDigits count (first / 16) < hexDigits count (second / 16) := by
            rw [ih, same]
            exact Nat.lt_irrefl _
          have notGreater : ¬ hexDigits count (second / 16) < hexDigits count (first / 16) := by
            rw [ih, same]
            exact Nat.lt_irrefl _
          exact le_antisymm (not_lt.mp notGreater) (not_lt.mp notLess)
      rw [hexDigits, hexDigits, append_lt_append_iff (by simp [hexDigits_length]), ih, last, front,
        Nat.pow_succ', Nat.mod_mul, Nat.mod_mul]
      have := digit first
      have := digit second
      omega

/-- The order of two texts, read in two parts. -/
theorem cut_lt (n : Nat) {first second : Text} (same : first.length = second.length) :
    first < second ↔ first.take n < second.take n ∨
      first.take n = second.take n ∧ first.drop n < second.drop n := by
  have parts := @append_lt_append_iff (first.take n) (second.take n) (first.drop n) (second.drop n)
    (by simp [same])
  rwa [List.take_append_drop, List.take_append_drop] at parts

theorem hyphen_lt {first second rest rest' : Text} (same : first.length = second.length) :
    first ++ '-' :: rest < second ++ '-' :: rest' ↔
      first < second ∨ first = second ∧ rest < rest' := by
  rw [append_lt_append_iff same, List.cons_lt_cons_iff]
  simp

/-- UUIDs are ordered as their texts. -/
theorem uuidText_lt {first second : Nat} (firstBound : first < uuidBound)
    (secondBound : second < uuidBound) : uuidText first < uuidText second ↔ first < second := by
  have digits : hexDigits 32 first < hexDigits 32 second ↔ first < second := by
    have bound : uuidBound = 16 ^ 32 := by decide
    rw [bound] at firstBound secondBound
    rw [hexDigits_lt, Nat.mod_eq_of_lt firstBound, Nat.mod_eq_of_lt secondBound]
  have same : (hexDigits 32 first).length = (hexDigits 32 second).length := by
    rw [hexDigits_length, hexDigits_length]
  have dropped (n : Nat) :
      ((hexDigits 32 first).drop n).length = ((hexDigits 32 second).drop n).length := by
    rw [List.length_drop, List.length_drop, same]
  have taken (n k : Nat) : (((hexDigits 32 first).drop n).take k).length =
      (((hexDigits 32 second).drop n).take k).length := by
    rw [List.length_take, List.length_take, dropped]
  have front : ((hexDigits 32 first).take 8).length = ((hexDigits 32 second).take 8).length := by
    rw [List.length_take, List.length_take, same]
  rw [← digits, cut_lt 8 same, cut_lt 4 (dropped 8), List.drop_drop, List.drop_drop,
    cut_lt 4 (dropped 12), List.drop_drop, List.drop_drop, cut_lt 4 (dropped 16), List.drop_drop,
    List.drop_drop]
  simp only [uuidText, List.append_assoc, List.cons_append]
  rw [hyphen_lt front, hyphen_lt (taken 8 4), hyphen_lt (taken 12 4), hyphen_lt (taken 16 4)]

theorem text_lt {kind : IdentifierKind} {first second : EntityId kind} :
    first.text < second.text ↔ first < second := by
  rw [EntityId.text, EntityId.text, append_lt_append_iff rfl, List.cons_lt_cons_iff,
    uuidText_lt first.bounded second.bounded]
  simp only [lt_irrefl, false_or, true_and]
  exact Iff.rfl

/-! ## The order of creation -/

/-- An identifier is generated with the layout of version 7, from which its timestamp is read. -/
def GeneratesVersion7 (kind : IdentifierKind) : Prop :=
  ∀ (timestampMs : Int) (randA : BitVec 12) (randB : BitVec 62), 0 ≤ timestampMs →
    timestampMs < 2 ^ 48 → ∃ id, EntityId.generate kind timestampMs randA randB = .ok id ∧
      uuidVersion id.value = some 7 ∧ uuidVariant id.value = .rfc4122 ∧
      id.createdAtMs = some timestampMs.toNat

theorem generatesVersion7 (kind : IdentifierKind) : GeneratesVersion7 kind := by
  intro timestampMs randA randB nonnegative below
  have fits : 0 ≤ timestampMs ∧ timestampMs.toNat < 2 ^ 48 := by
    refine ⟨nonnegative, ?_⟩
    omega
  refine ⟨_, dif_pos fits, uuidVersion_uuid7 _ _ _, uuidVariant_uuid7 _ _ _, ?_⟩
  rw [EntityId.createdAtMs, if_pos (uuidVersion_uuid7 _ _ _), shiftRight_uuid7]

theorem lt_of_createdAtMs {kind : IdentifierKind} {first second : EntityId kind} {ms1 ms2 : Nat}
    (one : first.createdAtMs = some ms1) (other : second.createdAtMs = some ms2)
    (earlier : ms1 < ms2) : first < second := by
  unfold EntityId.createdAtMs at one other
  split at one
  · split at other
    · rw [Option.some.injEq, Nat.shiftRight_eq_div_pow] at one other
      rw [← one, ← other] at earlier
      exact Nat.lt_of_div_lt_div earlier
    · cases other
  · cases one

/-- Generated identifiers carry their timestamps, and two identifiers of one kind with different
timestamps are ordered by them, as numbers and as texts. -/
theorem created_in_order (kind : IdentifierKind) :
    GeneratesVersion7 kind ∧ ∀ (first second : EntityId kind) (ms1 ms2 : Nat),
      first.createdAtMs = some ms1 → second.createdAtMs = some ms2 → ms1 < ms2 →
        first < second ∧ first.text < second.text := by
  refine ⟨generatesVersion7 kind, fun first second ms1 ms2 one other earlier => ?_⟩
  have less := lt_of_createdAtMs one other earlier
  exact ⟨less, text_lt.mpr less⟩

namespace Backup

/-- A task created at a time, with no random bit set. -/
def created (millis : Nat) (fits : millis < 2 ^ 48) : TaskId :=
  ⟨uuid7 millis 0 0, uuid7_bounded fits 0 0⟩

theorem first_fits : 1700000000000 < 2 ^ 48 := by decide

theorem second_fits : 1700000000001 < 2 ^ 48 := by decide

theorem created_createdAtMs {millis : Nat} (fits : millis < 2 ^ 48) :
    (created millis fits).createdAtMs = some millis := by
  rw [EntityId.createdAtMs, created, if_pos (uuidVersion_uuid7 _ _ _), shiftRight_uuid7]

end Backup

theorem created_in_order_tasks :
    Backup.created 1700000000000 Backup.first_fits < Backup.created 1700000000001 Backup.second_fits ∧
      (Backup.created 1700000000000 Backup.first_fits).text <
        (Backup.created 1700000000001 Backup.second_fits).text :=
  (created_in_order .task).2 _ _ _ _ (Backup.created_createdAtMs Backup.first_fits)
    (Backup.created_createdAtMs Backup.second_fits) (by decide)

end TaskControl
