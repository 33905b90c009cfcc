/-
  The values that a column type admits, and what becomes of them.

  * `ColumnType.Admits`: the type does not refuse a value, `ColumnType.fitted`: what it makes of it;
  * `ColumnType.coerce_eq_ok_null_iff`: only the absent value becomes the absent value;
  * `ColumnType.coerce_eq_error`: only too long a text is refused.
-/
import PocketSql.Table.ColumnType

namespace PocketSql

namespace ColumnType

variable {type : ColumnType} {column : String} {v : Value}

/-- The type does not refuse the value. -/
def Admits (type : ColumnType) (column : String) (v : Value) : Prop :=
  ∃ w, type.coerce column v = .ok w

/-- A value fitted to a type, and one that the type refuses as it is. -/
def fitted (type : ColumnType) (column : String) (v : Value) : Value :=
  (type.coerce column v).toOption.getD v

theorem coerce_eq_ok_iff {w : Value} :
    type.coerce column v = .ok w ↔ type.Admits column v ∧ w = type.fitted column v := by
  unfold Admits fitted
  cases type.coerce column v with
  | error cause => simp [Except.toOption]
  | ok u => simp [Except.toOption, eq_comm]

/-- Only the absent value is stored as the absent value. -/
theorem coerce_eq_ok_null_iff : type.coerce column v = .ok .null ↔ v = .null := by
  constructor
  · intro h
    unfold coerce at h
    split at h
    · cases h
    · unfold coerceDate at h
      split at h <;> cases h
    · unfold coerceDate at h
      split at h <;> cases h
    · unfold coerceTruth at h
      split at h
      · cases h
      · split at h <;> cases h
    · split at h <;> cases h
    · exact Except.ok.inj h
  · rintro rfl
    unfold coerce
    split <;> first | rfl | contradiction

/-- Only too long a text is refused. -/
theorem coerce_eq_error {cause : SqlError} (h : type.coerce column v = .error cause) :
    ∃ limit reason, cause = .invalidValue column reason ∧ type = .varchar (some limit) := by
  unfold coerce at h
  split at h
  · cases h
  · cases h
  · cases h
  · cases h
  · split at h
    · exact ⟨_, _, (Except.error.inj h).symm, rfl⟩
    · cases h
  · cases h

end ColumnType

end PocketSql
