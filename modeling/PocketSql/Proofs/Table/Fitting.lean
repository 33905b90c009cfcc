/-
  Literals fitted to column types, and the rows that store them.

  * `Value.isLiteral`: the values that literals other than NULL stand for;
  * `ColumnType.Respells`: a boolean column stores a truth word in capital letters as a truth value,
    which is shown in small ones;
  * `ColumnType.looselyEquals_coerce`: a fitted literal equals the literal unless it is respelled;
  * `Schema.Stores`: a stored row holds what a new row gives, fitted to the types of the columns;
    `Schema.prepareRows_stores`: so does each row of a batch.
-/
import PocketSql.Proofs.Number.Rounding
import PocketSql.Proofs.Table.Lookup

namespace PocketSql

/-! ## Equality of values -/

/-- A value that a literal other than NULL stands for. -/
def Value.isLiteral : Value → Bool
  | .integer _ | .text _ | .boolean _ => true
  | .decimal x => x.isFinite
  | .null | .instant _ => false

theorem Binary64.equals_self {x : Binary64} (h : x.isNaN = false) : x.equals x = true := by
  simp [equals, compare?, h]

theorem Binary64.isNaN_of_isFinite {x : Binary64} (h : x.isFinite = true) : x.isNaN = false := by
  simp only [isFinite, isNaN, decide_eq_true_eq, decide_eq_false_iff_not] at h ⊢
  omega

namespace Value

theorem looselyEquals_text (s t : String) : (text s).looselyEquals (text t) = (s == t) := rfl

theorem looselyEquals_boolean_text {b : Bool} {s : String} :
    (boolean b).looselyEquals (text s) = true ↔ s = (boolean b).display :=
  beq_iff_eq.trans eq_comm

theorem looselyEquals_self {v : Value} (h : v.isLiteral = true) : v.looselyEquals v = true := by
  cases v with
  | integer i => exact Binary64.equals_self (Binary64.isNaN_ofInt _)
  | decimal x => exact Binary64.equals_self (Binary64.isNaN_of_isFinite h)
  | text s => exact beq_self_eq_true s
  | boolean b => exact beq_self_eq_true (boolean b).display
  | null | instant => cases h

end Value

/-! ## Fitted literals -/

namespace ColumnType

/-- A text is stored as a truth value under another spelling. -/
def Respells (type : ColumnType) (v : Value) : Prop :=
  type = boolean ∧ ∃ s word, v = .text s ∧ word ∈ ["true", "false"] ∧
    sameIgnoringCase s.toList word.toList = true ∧ s ≠ word

theorem looselyEquals_coerceDate (s : String) : (coerceDate s).looselyEquals (.text s) = true := by
  unfold coerceDate
  split
  · next instant h =>
    simp [Value.looselyEquals, Value.isNull, Value.numbers?, Value.isNumeric, Value.compareDates?,
      Value.isDated, Value.timestamp?, h]
  · exact Value.looselyEquals_self rfl

theorem respells_boolean_iff {s : String} :
    boolean.Respells (.text s) ↔
      (sameIgnoringCase s.toList "true".toList = true ∧ s ≠ "true") ∨
      (sameIgnoringCase s.toList "false".toList = true ∧ s ≠ "false") := by
  constructor
  · rintro ⟨-, _, word, ⟨⟩, hword, hsame⟩
    simp only [List.mem_cons, List.not_mem_nil, or_false] at hword
    rcases hword with rfl | rfl
    · exact .inl hsame
    · exact .inr hsame
  · rintro (hsame | hsame)
    · exact ⟨rfl, s, "true", rfl, by simp, hsame⟩
    · exact ⟨rfl, s, "false", rfl, by simp, hsame⟩

/-- No text is both truth words. -/
theorem spellsFalse_of_spellsTrue {s : String} (h : sameIgnoringCase s.toList "true".toList = true) :
    sameIgnoringCase s.toList "false".toList = false := by
  simp only [sameIgnoringCase, beq_iff_eq, beq_eq_false_iff_ne] at h ⊢
  rw [h]
  decide

theorem looselyEquals_coerceTruth (s : String) :
    (coerceTruth s).looselyEquals (.text s) = true ↔ ¬ boolean.Respells (.text s) := by
  rw [respells_boolean_iff, coerceTruth]
  have hboth := spellsFalse_of_spellsTrue (s := s)
  generalize sameIgnoringCase s.toList "true".toList = spellsTrue at *
  generalize sameIgnoringCase s.toList "false".toList = spellsFalse at *
  cases spellsTrue with
  | true =>
    obtain rfl : spellsFalse = false := hboth rfl
    simp [Value.looselyEquals_boolean_text, Value.display]
  | false =>
    cases spellsFalse with
    | true => simp [Value.looselyEquals_boolean_text, Value.display]
    | false => simp [Value.looselyEquals_text]

/-- A literal fitted to a type equals the literal, unless the type respells it. -/
theorem looselyEquals_coerce {type : ColumnType} {column : String} {v w : Value}
    (hv : v.isLiteral = true) (h : type.coerce column v = .ok w) :
    w.looselyEquals v = true ↔ ¬ type.Respells v := by
  by_cases hbool : type = boolean
  · subst hbool
    cases v with
    | text s => cases h; exact looselyEquals_coerceTruth s
    | null | instant => cases hv
    | integer | decimal | boolean =>
      cases h
      exact iff_of_true (Value.looselyEquals_self hv) fun ⟨_, _, _, htext, _⟩ => nomatch htext
  · refine iff_of_true ?_ fun hrespells => hbool hrespells.1
    unfold coerce at h
    split at h
    · cases h; exact Binary64.equals_self (Binary64.isNaN_ofInt _)
    · cases h; exact looselyEquals_coerceDate _
    · cases h; exact looselyEquals_coerceDate _
    · exact absurd rfl hbool
    · split at h
      · cases h
      · cases h; exact Value.looselyEquals_self hv
    · cases h; exact Value.looselyEquals_self hv

end ColumnType

/-! ## New rows -/

namespace Schema

variable {s : Schema} {instant : Timestamp} {highest : Int} {row : Row} {tuple : Tuple}

/-- What a new row gives stands in the stored one, in a column of its name, fitted to its type. -/
def Stores (s : Schema) (row : Row) (tuple : Tuple) : Prop :=
  ∀ name v, row.get? name = some v →
    ∃ (i : Nat) (c : Column), s.columns[i]? = some c ∧ c.name = name ∧
      c.type.coerce name v = .ok (tuple.cell i)

theorem newCells_given {columns : List Column}
    (h : newCells instant highest row columns = .ok tuple) {i : Nat} {c : Column} {v : Value}
    (hc : columns[i]? = some c) (hv : row.get? c.name = some v) :
    c.type.coerce c.name v = .ok (tuple.cell i) := by
  induction columns generalizing tuple i with
  | nil => simp at hc
  | cons d columns ih =>
    simp only [newCells, bind_eq_ok] at h
    obtain ⟨u, hu, u', hu', rest, hrest, h⟩ := h
    cases h
    obtain ⟨rfl, -⟩ := checkNull_eq_ok hu'
    cases i with
    | zero =>
      obtain rfl : d = c := by simpa using hc
      simpa [newCell, hv] using hu
    | succ i => exact ih hrest (by simpa using hc)

theorem complete_stores (h : s.complete instant highest row = .ok tuple) : s.Stores row tuple := by
  simp only [complete, bind_eq_ok] at h
  obtain ⟨_, hnames, hcells⟩ := h
  intro name v hv
  obtain ⟨before, after, hsplit, -⟩ := List.lookup_eq_some_iff.1 hv
  have hname : name ∈ row.names := by simp [Row.names, hsplit]
  obtain ⟨c, hc, rfl⟩ := List.mem_map.1 (requireAll_eq_ok_iff.1 hnames name hname)
  obtain ⟨i, hi⟩ := List.mem_iff_getElem?.1 hc
  exact ⟨i, c, hi, rfl, newCells_given hcells hi hv⟩

/-- The rows of a batch are stored in their order. -/
theorem prepareRows_stores {clock : Nat → Timestamp} {batch : Batch} {rows : List Row}
    {tuples : List Tuple} (h : s.prepareRows clock batch rows = .ok tuples) {k : Nat}
    (hrow : rows[k]? = some row) : ∃ tuple, tuples[k]? = some tuple ∧ s.Stores row tuple := by
  induction rows generalizing clock batch tuples k with
  | nil => simp at hrow
  | cons first rows ih =>
    simp only [prepareRows, bind_eq_ok] at h
    obtain ⟨⟨stored, next⟩, hfirst, rest, hrest, h⟩ := h
    cases h
    cases k with
    | zero =>
      obtain rfl : first = row := by simpa using hrow
      simp only [prepareRow, bind_eq_ok] at hfirst
      obtain ⟨_, hcomplete, _, -, h⟩ := hfirst
      cases h
      exact ⟨stored, rfl, complete_stores hcomplete⟩
    | succ k => simpa using ih hrest (by simpa using hrow)

end Schema

end PocketSql
