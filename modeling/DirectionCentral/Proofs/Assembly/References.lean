import DirectionCentral.Assembly.Draft
import DirectionCentral.Proofs.Assembly.Layout
import DirectionCentral.Proofs.Outcome

/-!
# Filling in references

A reference comes to the exact sum of an address and an offset. If the sum fits the field that waits
for it (`Field.Takes`), it is filled in (`exists_resolve_bind`), and otherwise it is refused, where
the number that is reported is what 64 bits make of it (`resolve_bind_of_not_takes`). So the outcome
is that of a sum which wraps around at 64 bits: a sum that is too large becomes negative, and no
field takes a negative number (`resolve_bind_fill`).
-/

namespace DirectionCentral.Assembly

/-- A list of labels gives a label an address. -/
def Listed (labels : List (String × Nat)) (label : String) (address : Int) : Prop :=
  ∃ n : Nat, labels.lookup label = some n ∧ address = n

/-- The values that fit a field of a reference: an address is one of 16 bits, and a whole word takes
the low bits of any value of at most 63 bits that is not negative. -/
def Field.Takes : Field → Int → Prop
  | .address, value => 0 ≤ value ∧ value ≤ 65535
  | .word, value => 0 ≤ value ∧ value ≤ 2 ^ 63 - 1

variable {labels : List (String × Nat)} {r : Reference} {field : Field} {word : Word} {value : Int}

/-- A reference is resolved to the value that it comes to, unless 64 bits cannot hold that. -/
theorem resolve_of_operandValue (comes : OperandValue (Listed labels) (.reference r) value) :
    r.resolve labels = if -2 ^ 63 ≤ value ∧ value < 2 ^ 63 then .ok value
      else .error (.outOfRange (wrap64 value)) := by
  cases comes with
  | reference listed =>
    obtain ⟨n, found, rfl⟩ := listed
    rw [Reference.resolve, found]
    dsimp only
    split
    · rename_i kept
      obtain ⟨inside, rfl⟩ := within64?_eq_some_iff.1 kept
      rw [if_pos inside]
    · rename_i dropped
      rw [if_neg fun inside => by
        rw [within64?_eq_some_iff.2 ⟨inside, rfl⟩] at dropped
        contradiction]

/-- A reference that is resolved comes to its value. -/
theorem operandValue_of_resolve (resolved : r.resolve labels = .ok value) :
    OperandValue (Listed labels) (.reference r) value := by
  cases found : labels.lookup r.label with
  | none =>
    rw [Reference.resolve, found] at resolved
    contradiction
  | some n =>
    have comes : OperandValue (Listed labels) (.reference r) (n + r.offset) :=
      .reference ⟨n, found, rfl⟩
    rw [resolve_of_operandValue comes] at resolved
    split at resolved
    · rwa [Except.ok.inj resolved] at comes
    · contradiction

/-- A value that fits a field is filled in. -/
theorem exists_resolve_bind (comes : OperandValue (Listed labels) (.reference r) value)
    (takes : field.Takes value) :
    ∃ filled, (r.resolve labels).bind (field.fill word) = .ok filled := by
  rw [resolve_of_operandValue comes]
  cases field with
  | address =>
    have fits : toAddress value = .ok (UInt16.ofNat value.toNat) := if_pos takes
    obtain ⟨low, high⟩ := takes
    rw [if_pos ⟨by omega, by omega⟩]
    exact ⟨_, map_eq_ok_iff.2 ⟨_, fits, rfl⟩⟩
  | word =>
    obtain ⟨low, high⟩ := takes
    rw [if_pos ⟨by omega, by omega⟩]
    exact ⟨_, if_neg (not_lt.2 low)⟩

/-- A field refuses a value of 64 bits that does not fit. -/
theorem fill_of_not_takes (outside : ¬ field.Takes value) (small : value < 2 ^ 63) :
    field.fill word value = .error (.outOfRange value) := by
  cases field with
  | address =>
    have refused : toAddress value = .error (.outOfRange value) := if_neg outside
    rw [Field.fill, refused]
    rfl
  | word => exact if_pos (not_le.1 fun low => outside ⟨low, Int.le_sub_one_of_lt small⟩)

/-- A value that does not fit a field is refused as what 64 bits make of it. -/
theorem resolve_bind_of_not_takes (comes : OperandValue (Listed labels) (.reference r) value)
    (outside : ¬ field.Takes value) :
    (r.resolve labels).bind (field.fill word) = .error (.outOfRange (wrap64 value)) := by
  rw [resolve_of_operandValue comes]
  split
  · rename_i inside
    rw [wrap64_eq_self (by omega)]
    exact fill_of_not_takes outside inside.2
  · rfl

/-- What a reference in a text fills in is the sum of 64 bits of an address of 63 bits and the
offset: if the exact sum is too large, that sum wraps around to a negative value, which is refused.
-/
theorem resolve_bind_fill {text : List Char} {address : Nat}
    (said : OperandText text (.reference r)) (found : labels.lookup r.label = some address)
    (near : address < 2 ^ 63) :
    (r.resolve labels).bind (field.fill word) = field.fill word (wrap64 (address + r.offset)) := by
  have comes : OperandValue (Listed labels) (.reference r) (address + r.offset) :=
    .reference ⟨address, found, rfl⟩
  have offset : -2 ^ 63 ≤ r.offset ∧ r.offset ≤ 2 ^ 63 - 1 := by
    cases said with
    | reference other cut identifier tail => exact tail.bounds
  rw [resolve_of_operandValue comes]
  split
  · rw [wrap64_eq_self (by omega)]
    rfl
  · have wrapped : wrap64 (address + r.offset) < 0 := by
      rw [wrap64_of_large (by omega)]
      omega
    have outside : ¬ field.Takes (wrap64 (address + r.offset)) := by
      cases field with
      | address | word => exact fun takes => absurd takes.1 (not_le.2 wrapped)
    exact (fill_of_not_takes outside (by omega)).symm

end DirectionCentral.Assembly
