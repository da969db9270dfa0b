import Mathlib.Data.List.Nodup
import DirectionCentral.Json.Record
import DirectionCentral.Proofs.Json.Numeral
import DirectionCentral.Proofs.Json.Scanning

/-!
# Written parts are read back

The ways of putting values together, each with the way that it is taken apart: an integer in range
is read as itself, a list item by item, and a record under the names of its fields. What is put
together from such parts can also be read back from its text (`Legible`).
-/

namespace DirectionCentral.Json

/-! ## Integers -/

/-- The value of an integer is legible. -/
theorem legible_ofInt (value : Int) : Legible (ofInt value) :=
  .number (fun _ => isWordChar_of_mem_render) (word?_render_ofInt value)

/-- The value of a natural number is legible. -/
theorem legible_ofNat (value : Nat) : Legible (ofNat value) := legible_ofInt value

/-- Every integer is read. -/
theorem int?_ofInt (value : Int) : (ofInt value).int? = some value := Numeral.integer?_ofInt value

/-- A natural number below the bound is read. -/
theorem natBelow?_ofNat {bound value : Nat} (below : value < bound) :
    (ofNat value).natBelow? bound = some value := by
  have stands : (ofNat value).int? = some (Int.ofNat value) := int?_ofInt value
  rw [natBelow?, stands]
  exact if_pos below

/-- Every number of 8 bits is read. -/
theorem uint8?_ofNat (value : UInt8) : (ofNat value.toNat).uint8? = some value := by
  rw [uint8?, natBelow?_ofNat value.toNat_lt_size, Option.map_some, UInt8.ofNat_toNat]

/-- Every number of 16 bits is read. -/
theorem uint16?_ofNat (value : UInt16) : (ofNat value.toNat).uint16? = some value := by
  rw [uint16?, natBelow?_ofNat value.toNat_lt_size, Option.map_some, UInt16.ofNat_toNat]

/-- Every number of 32 bits is read. -/
theorem uint32?_ofNat (value : UInt32) : (ofNat value.toNat).uint32? = some value := by
  rw [uint32?, natBelow?_ofNat value.toNat_lt_size, Option.map_some, UInt32.ofNat_toNat]

/-- Every number of 64 bits is read. -/
theorem uint64?_ofNat (value : UInt64) : (ofNat value.toNat).uint64? = some value := by
  rw [uint64?, natBelow?_ofNat value.toNat_lt_size, Option.map_some, UInt64.ofNat_toNat]

/-- Every signed number of 32 bits is read. -/
theorem int32?_ofInt (value : Int32) : (ofInt value.toInt).int32? = some value := by
  have lower := value.le_toInt
  have upper := value.toInt_lt
  rw [int32?, int?_ofInt, Option.bind_some, if_pos (by omega), Int32.ofInt_toInt]

/-- Every signed number of 64 bits is read. -/
theorem int64?_ofInt (value : Int64) : (ofInt value.toInt).int64? = some value := by
  have lower := value.le_toInt
  have upper := value.toInt_lt
  rw [int64?, int?_ofInt, Option.bind_some, if_pos (by omega), Int64.ofInt_toInt]

/-! ## Lists -/

section Lists

variable {α : Type} {encode : α → Json} {values : List α}

/-- A list of legible values is legible. -/
theorem legible_ofList (each : ∀ value ∈ values, Legible (encode value)) :
    Legible (ofList encode values) :=
  .array (List.forall_mem_map.2 each)

/-- A list is read if each of its items is. -/
theorem list?_ofList {decode : Json → Option α}
    (each : ∀ value ∈ values, decode (encode value) = some value) :
    (ofList encode values).list? decode = some values := by
  change (values.map encode).mapM decode = some values
  induction values with
  | nil => rfl
  | cons value values ih =>
    obtain ⟨first, others⟩ := List.forall_mem_cons.1 each
    rw [List.map_cons, List.mapM_cons, first, ih others]
    rfl

end Lists

/-! ## Records -/

section Records

variable {members : List (String × Json)}

/-- A record of legible values is legible. -/
theorem legible_record (each : ∀ member ∈ members, Legible member.2) : Legible (record members) :=
  .object (List.forall_mem_map.2 fun _ _ => rfl) (List.forall_mem_map.2 each)

/-- A record with different names gives each of them once. -/
theorem namesOnce_record (different : (members.map Prod.fst).Nodup) (names : List String) :
    namesOnce names (members.map fun (name, value) => (some name, value)) = true := by
  rw [namesOnce, Bool.and_eq_true, List.all_eq_true, List.all_eq_true]
  refine ⟨List.forall_mem_map.2 fun _ _ => rfl, fun name _ => ?_⟩
  have once := List.nodup_iff_count_le_one.1 different name
  rw [List.count, List.countP_map] at once
  rw [List.countP_map, decide_eq_true_eq]
  simpa [Function.comp_def] using once

/-- The value of a field is found under its name, if no two names are the same. -/
theorem lookup_record (different : (members.map Prod.fst).Nodup) {member : String × Json}
    (within : member ∈ members) :
    (members.map fun (name, value) => (some name, value)).lookup (some member.1) =
      some member.2 := by
  obtain ⟨before, behind, rfl⟩ := List.append_of_mem within
  have fresh : ∀ other ∈ before, member.1 ≠ other.1 := by
    intro other earlier same
    rw [List.map_append, List.map_cons, List.nodup_middle, List.nodup_cons] at different
    exact different.1 (List.mem_append_left _ (same ▸ List.mem_map_of_mem earlier))
  rw [List.lookup_eq_some_iff]
  refine ⟨_, _, List.map_append, List.forall_mem_map.2 fun other earlier => ?_⟩
  simpa using fresh other earlier

/-- The fields of a record with different names are read in order. -/
theorem fields?_record (different : (members.map Prod.fst).Nodup) :
    (record members).fields? (members.map Prod.fst) = some (members.map fun m => some m.2) := by
  rw [record, fields?, if_pos (namesOnce_record different _), List.map_map]
  exact congrArg some (List.map_congr_left fun _ within => lookup_record different within)

end Records

end DirectionCentral.Json
