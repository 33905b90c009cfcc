/-
  When sorting has a total order to go by.

  * `compareRows_swap`: a comparison of rows from the other side is the reverse;
  * `Scale`: numbers, texts, truth values and timestamps have an order of their own each;
  * `Scale.ranks`: cells on one scale compare as places on a line do, the absent value last, and
    `compareRows_ranks`: so do rows whose cells are on one scale for each sort key;
  * `Scale.circle`: the values of any two scales do not;
  * `compareRows_preorder_iff`: so rows are sorted by a total preorder exactly if each column holds
    values of one scale;
  * `sortKeys_circle`: a column of texts that holds a number is sorted in a circle.
-/
import Mathlib.Order.WithBot
import PocketSql.Execution
import PocketSql.Proofs.Number.Rounding
import PocketSql.Proofs.Ordering.Ranking
import PocketSql.Proofs.Value.Sides

namespace PocketSql

/-! ## The other side -/

theorem compareCells_swap (u v : Value) : compareCells v u = (compareCells u v).swap := by
  unfold compareCells
  rw [Value.compare?_swap u v]
  cases u.isNull <;> cases v.isNull <;> try rfl
  cases u.compare? v <;> rfl

theorem SortKey.compare_swap (key : SortKey) (a b : Row) :
    key.compare b a = (key.compare a b).swap := by
  unfold compare
  rw [compareCells_swap (a.getD key.column)]
  split <;> rfl

theorem compareRows_swap (keys : List SortKey) (a b : Row) :
    compareRows keys b a = (compareRows keys a b).swap := by
  induction keys with
  | nil => rfl
  | cons key keys ih => rw [compareRows, compareRows, Ordering.swap_then, ih, key.compare_swap a b]

/-! ## One scale -/

/-- The kinds of values that have an order of their own. -/
inductive Scale
  | numbers
  | texts
  | truths
  | instants

/-- A value of a kind. -/
inductive Value.On : Scale → Value → Prop
  | integer {i} : On .numbers (.integer i)
  | decimal {x} : x.isNaN = false → On .numbers (.decimal x)
  | text {s} : On .texts (.text s)
  | boolean {b} : On .truths (.boolean b)
  | instant {t} : On .instants (.instant t)

/-- The place of a truth value: false before true. -/
def Value.truth : Value → Nat
  | .boolean b => b.toNat
  | _ => 0

theorem Value.On.isNull_eq {scale : Scale} {v : Value} (h : v.On scale) : v.isNull = false := by
  cases h <;> rfl

theorem Value.On.number {v : Value} (h : v.On .numbers) :
    v.isNumeric = true ∧ ∃ x, v.number? = some x ∧ x.isNaN = false := by
  cases h with
  | integer => exact ⟨rfl, _, rfl, Binary64.isNaN_ofInt _⟩
  | decimal hx => exact ⟨rfl, _, rfl, hx⟩

/-- Cells with keys on a line compare as the keys do, if the absent ones stand behind all others. -/
theorem ranks_of_key {Key : Type} [LinearOrder Key] {cells : List Value} (key : Value → Key)
    (h : ∀ u ∈ cells, ∀ v ∈ cells, u.isNull = false → v.isNull = false →
      ((u.compare? v).getD .eq).Compares (key u) (key v)) : Ranks compareCells cells := by
  refine ⟨WithTop Key, inferInstance, fun v => if v.isNull then ⊤ else key v, ?_⟩
  intro u hu v hv
  have hkeys := h u hu v hv
  unfold compareCells
  cases hun : u.isNull <;> cases hvn : v.isNull <;>
    simp only [hun, hvn, Bool.false_eq_true, if_false, if_true]
  · exact WithTop.coe_strictMono.compares.2 (hkeys hun hvn)
  · exact WithTop.coe_lt_top _
  · exact WithTop.coe_lt_top _
  · rfl

namespace Scale

variable {cells : List Value}

/-- The order of two values of a kind is that of their keys. -/
theorem exists_key (scale : Scale) : ∃ (Key : Type) (_ : LinearOrder Key) (key : Value → Key),
    ∀ u v : Value, u.On scale → v.On scale →
      ((u.compare? v).getD .eq).Compares (key u) (key v) := by
  cases scale with
  | numbers =>
    refine ⟨Int, inferInstance, fun v => (v.number?.getD (.zero false)).ordinal, ?_⟩
    intro u v hu hv
    obtain ⟨hun, x, hx, hxn⟩ := hu.number
    obtain ⟨-, y, hy, hyn⟩ := hv.number
    have hcompare : u.compare? v = some (compare x.ordinal y.ordinal) := by
      simp [Value.compare?, Value.numbers?, hu.isNull_eq, hv.isNull_eq, hun, hx, hy,
        Binary64.compare?, hxn, hyn]
    simp only [hcompare, hx, hy, Option.getD_some]
    exact compare_int_compares _ _
  | texts =>
    refine ⟨String, inferInstance, Value.display, ?_⟩
    rintro _ _ ⟨⟩ ⟨⟩
    exact Value.compareText_compares _ _
  | truths =>
    refine ⟨Nat, inferInstance, Value.truth, ?_⟩
    rintro _ _ ⟨⟩ ⟨⟩
    exact compare_nat_compares _ _
  | instants =>
    refine ⟨Int, inferInstance, fun v => (v.timestamp?.map Timestamp.nanos).getD 0, ?_⟩
    rintro _ _ ⟨⟩ ⟨⟩
    exact compare_int_compares _ _

/-- **Cells on one scale stand on a line.** -/
theorem ranks (scale : Scale) (h : ∀ v ∈ cells, v = .null ∨ v.On scale) :
    Ranks compareCells cells := by
  obtain ⟨Key, _, key, hkey⟩ := scale.exists_key
  have hon : ∀ v ∈ cells, v.isNull = false → v.On scale := by
    rintro v hv hvn
    rcases h v hv with rfl | hv
    · cases hvn
    · exact hv
  exact ranks_of_key key fun u hu v hv hun hvn => hkey u v (hon u hu hun) (hon v hv hvn)

/-! ## Two scales -/

/-- A value of a kind. -/
def low : Scale → Value
  | numbers => .integer 0
  | texts => .text "a"
  | truths => .boolean false
  | instants => .instant ⟨"1970-01-01", .date, 0⟩

/-- A value after the low one. -/
def high : Scale → Value
  | numbers => .integer 1
  | texts => .text "b"
  | truths => .boolean true
  | instants => .instant ⟨"1970-01-02", .date, 86400000000000⟩

theorem low_on (scale : Scale) : scale.low.On scale := by
  cases scale <;> constructor

theorem high_on (scale : Scale) : scale.high.On scale := by
  cases scale <;> constructor

/-- A value of another kind counts as equal both to the low and to the high one. -/
theorem circle {p q : Scale} (h : p ≠ q) :
    compareCells p.high q.low = .eq ∧ compareCells q.low p.low = .eq ∧
      compareCells p.high p.low = .gt := by
  cases p <;> cases q <;> first | exact absurd rfl h | decide +kernel

end Scale

/-! ## Rows -/

theorem compareRows_ranks {keys : List SortKey} {rows : List Row}
    (h : ∀ key ∈ keys, Ranks compareCells (rows.map (·.getD key.column))) :
    Ranks (compareRows keys) rows := by
  induction keys with
  | nil => exact .eq rows
  | cons key keys ih =>
    refine .lex ?_ (ih fun k hk => h k (List.mem_cons_of_mem _ hk))
    have hcells := (h key List.mem_cons_self).comap
    unfold SortKey.compare
    cases key.ascending with
    | true => exact hcells
    | false => exact hcells.swap

/-- The cells of a row are of the kinds that their columns may hold, or absent. -/
def Row.Within (kinds : String → Scale → Prop) (row : Row) : Prop :=
  ∀ column, row.getD column = .null ∨ ∃ scale, kinds column scale ∧ (row.getD column).On scale

theorem ranks_of_within {kinds : String → Scale → Prop} {rows : List Row} {column : String}
    (hkinds : ∀ p q, kinds column p → kinds column q → p = q)
    (h : ∀ row ∈ rows, row.Within kinds) : Ranks compareCells (rows.map (·.getD column)) := by
  -- a column that may hold no kind of values has only absent cells, which are on every scale
  obtain ⟨scale, hscale⟩ : ∃ scale, ∀ p, kinds column p → p = scale := by
    by_cases hsome : ∃ p, kinds column p
    · obtain ⟨p, hp⟩ := hsome
      exact ⟨p, fun q hq => hkinds q p hq hp⟩
    · exact ⟨.texts, fun p hp => absurd ⟨p, hp⟩ hsome⟩
  refine scale.ranks (List.forall_mem_map.2 fun row hrow => ?_)
  rcases h row hrow column with hnull | ⟨p, hp, hon⟩
  · exact .inl hnull
  · exact .inr (hscale p hp ▸ hon)

/-- A row of one cell. -/
def cellRow (column : String) (v : Value) : Row :=
  ⟨[(column, v)]⟩

theorem compareRows_cellRow (column : String) (u v : Value) :
    compareRows [⟨column, true⟩] (cellRow column u) (cellRow column v) = compareCells u v := by
  simp [compareRows, SortKey.compare, Row.getD, Row.get?, cellRow]

theorem cellRow_within {kinds : String → Scale → Prop} {column : String} {scale : Scale} {v : Value}
    (h : kinds column scale) (hv : v.On scale) : (cellRow column v).Within kinds := by
  intro name
  by_cases hname : name = column
  · subst hname
    exact .inr ⟨scale, h, by simpa [Row.getD, Row.get?, cellRow] using hv⟩
  · have hother : (name == column) = false := by simpa using hname
    exact .inl (by simp [Row.getD, Row.get?, cellRow, List.lookup_cons, hother])

/-- **Rows are sorted by a total preorder exactly if no column holds two kinds of values.**  From
    the other side the comparison by some keys is always the reverse.  It is transitive, whatever
    the keys, if and only if the cells of each column that are not absent are all numbers, all
    texts, all truth values or all timestamps. -/
theorem compareRows_preorder_iff (kinds : String → Scale → Prop) :
    (∀ keys a b, compareRows keys b a = (compareRows keys a b).swap) ∧
    ((∀ keys a b c, a.Within kinds → b.Within kinds → c.Within kinds →
        compareRows keys a b ≠ .gt → compareRows keys b c ≠ .gt → compareRows keys a c ≠ .gt) ↔
      ∀ column p q, kinds column p → kinds column q → p = q) := by
  refine ⟨compareRows_swap, ?_, ?_⟩
  · intro htrans column p q hp hq
    by_contra hne
    obtain ⟨hhigh, hlow, hgt⟩ := Scale.circle hne
    refine htrans [⟨column, true⟩] (cellRow column p.high) (cellRow column q.low)
      (cellRow column p.low) (cellRow_within hp p.high_on) (cellRow_within hq q.low_on)
      (cellRow_within hp p.low_on) ?_ ?_ ?_
    · rw [compareRows_cellRow, hhigh]; decide
    · rw [compareRows_cellRow, hlow]; decide
    · rw [compareRows_cellRow, hgt]
  · intro hkinds keys a b c ha hb hc
    have hrows : ∀ row ∈ [a, b, c], row.Within kinds := by simp [ha, hb, hc]
    have hranks : Ranks (compareRows keys) [a, b, c] :=
      compareRows_ranks fun key _ => ranks_of_within (hkinds key.column) hrows
    exact hranks.trans (by simp) (by simp) (by simp)

/-- In a column of texts, `5` comes before the number 9 and 9 before `10`, and `10` before `5`. -/
theorem sortKeys_circle :
    let run := Store.run ⟨.reject, .apply, false, 3⟩ fun _ => ⟨"", .date, 0⟩
    let created := (run .empty "CREATE TABLE t (v TEXT)".toList).2
    let inserted := run created "INSERT INTO t VALUES (9), ('10'), ('5')".toList
    let row := cellRow "v"
    inserted.1 = .ok (.affected 3 "3 rows inserted") ∧
      (run inserted.2 "SELECT * FROM t ORDER BY v".toList).1 =
        .ok (.rows [row (.integer 9), row (.text "10"), row (.text "5")]) ∧
      compareRows [⟨"v", true⟩] (row (.text "5")) (row (.integer 9)) = .lt ∧
      compareRows [⟨"v", true⟩] (row (.integer 9)) (row (.text "10")) = .lt ∧
      compareRows [⟨"v", true⟩] (row (.text "5")) (row (.text "10")) = .gt := by
  decide +kernel

end PocketSql
