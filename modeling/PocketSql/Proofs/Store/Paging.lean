/-
  Pages of a SELECT.

  * `Projection.show_spec`: a projection shows its columns, each once, with what they hold;
  * `Gathers`: the rows of pages one after the other, up to the first empty page;
    `gathers_page_iff`: those of the pages of a list are the list;
  * `Store.select_eq_ok_iff`: when a SELECT succeeds, and what it shows; `Store.select_within`: so
    does it with other bounds;
  * `select_pages`: what this says of the SELECTs with bounds in a reached store.
-/
import Mathlib.Data.List.Forall2
import PocketSql.Engine
import PocketSql.Proofs.Store.Batch
import PocketSql.Proofs.Table.Cells

namespace PocketSql

/-! ## Columns that are shown -/

/-- The columns that a projection shows of a table. -/
def Projection.shown (s : Schema) : Projection → List String
  | all => s.names
  | columns names => names.eraseDups

/-- A projection shows its columns, with what they hold. -/
theorem Projection.show_spec {projection : Projection} {s : Schema} {row : Row}
    (hrow : row.names = s.names) (h : ∀ name ∈ projection.names, name ∈ s.names) :
    (projection.show row).names = projection.shown s ∧
      ∀ name ∈ projection.shown s, (projection.show row).get? name = row.get? name := by
  cases projection with
  | all => exact ⟨hrow, fun _ _ => rfl⟩
  | columns names =>
    obtain ⟨hnames, hcells⟩ := Row.project_spec (hrow ▸ h : ∀ name ∈ names, name ∈ row.names)
    exact ⟨hnames, fun name hname => hcells name (List.mem_eraseDups.1 hname)⟩

/-! ## Pages -/

/-- The rows of pages one after the other, from a page on up to the first empty one. -/
inductive Gathers {α : Type} (pages : Nat → Except SqlError (List α)) : Nat → List α → Prop
  | last {j} : pages j = .ok [] → Gathers pages j []
  | more {j rows others} : pages j = .ok rows → rows ≠ [] → Gathers pages (j + 1) others →
      Gathers pages j (rows ++ others)

section
variable {α β : Type} {k j : Nat}

theorem page_append (k j : Nat) (xs : List α) :
    page (some (j * k)) (some k) xs ++ xs.drop ((j + 1) * k) = xs.drop (j * k) := by
  rw [Nat.succ_mul, ← List.drop_drop, page]
  exact List.take_append_drop k _

theorem page_eq_nil_iff (hk : 1 ≤ k) (xs : List α) :
    page (some (j * k)) (some k) xs = [] ↔ xs.drop (j * k) = [] := by
  simp only [page, Option.getD_some, List.take_eq_nil_iff]
  exact or_iff_right (by omega)

/-- Pages of a list, seen through a function, gather to what they have left of it. -/
theorem gathers_page (hk : 1 ≤ k) (f : α → β) (xs : List α) (j : Nat) :
    Gathers (fun j => .ok ((page (some (j * k)) (some k) xs).map f)) j
      ((xs.drop (j * k)).map f) := by
  by_cases hnil : xs.drop (j * k) = []
  · rw [hnil]
    refine .last (congrArg Except.ok ?_)
    rw [(page_eq_nil_iff hk xs).2 hnil, List.map_nil]
  · rw [← page_append, List.map_append]
    refine .more rfl ?_ (gathers_page hk f xs (j + 1))
    rwa [Ne, List.map_eq_nil_iff, page_eq_nil_iff hk]
termination_by xs.length - j * k
decreasing_by
  rw [List.drop_eq_nil_iff] at hnil
  rw [Nat.succ_mul]
  omega

theorem Gathers.unique {pages : Nat → Except SqlError (List α)} {rows others : List α}
    (h : Gathers pages j rows) (h' : Gathers pages j others) : rows = others := by
  induction h generalizing others with
  | last hj =>
    cases h' with
    | last => rfl
    | more hj' hne => exact absurd (Except.ok.inj (hj'.symm.trans hj)) hne
  | more hj hne _ ih =>
    cases h' with
    | last hj' => exact absurd (Except.ok.inj (hj.symm.trans hj')) hne
    | more hj' _ hothers =>
      obtain rfl := Except.ok.inj (hj.symm.trans hj')
      rw [ih hothers]

end

/-! ## SELECT -/

/-- A query with other bounds. -/
def Query.within (query : Query) (offset limit : Option Nat) : Query :=
  { query with offset := offset, limit := limit }

/-- A query of all columns. -/
def Query.whole (query : Query) : Query :=
  { query with projection := .all }

namespace Store

variable {settings : Settings} {s : Store} {query : Query} {shown : List Row}

theorem select_eq_ok_iff :
    s.select settings query = .ok shown ↔
      ∃ t settled sorted, s.require query.table = .ok t ∧
        (∀ name ∈ query.projection.names, name ∈ t.schema.names) ∧
        (∀ key ∈ query.order, key.column ∈ t.schema.names) ∧
        resolveCondition settings.predicatePolicy t.schema query.condition = .ok settled ∧
        sortRows query.order (t.scan.filter (meets settled)) = .ok sorted ∧
        (page query.offset query.limit sorted).map query.projection.show = shown := by
  simp only [select, bind_eq_ok, Except.ok.injEq]
  constructor
  · rintro ⟨t, ht, _, hnames, _, horder, settled, hsettled, sorted, hsorted, hshown⟩
    exact ⟨t, settled, sorted, ht, Schema.requireAll_eq_ok_iff.1 hnames,
      List.forall_mem_map.1 (Schema.requireAll_eq_ok_iff.1 horder), hsettled, hsorted, hshown⟩
  · rintro ⟨t, settled, sorted, ht, hnames, horder, hsettled, hsorted, hshown⟩
    exact ⟨t, ht, (), Schema.requireAll_eq_ok_iff.2 hnames, (),
      Schema.requireAll_eq_ok_iff.2 (List.forall_mem_map.2 horder), settled, hsettled, sorted,
      hsorted, hshown⟩

/-- A query that has an answer has one within any bounds: a page of the sorted rows. -/
theorem select_within (query : Query) {t : Table} {settled : Option Predicate} {sorted : List Row}
    (ht : s.require query.table = .ok t)
    (hnames : ∀ name ∈ query.projection.names, name ∈ t.schema.names)
    (horder : ∀ key ∈ query.order, key.column ∈ t.schema.names)
    (hsettled : resolveCondition settings.predicatePolicy t.schema query.condition = .ok settled)
    (hsorted : sortRows query.order (t.scan.filter (meets settled)) = .ok sorted)
    (offset limit : Option Nat) :
    s.select settings (query.within offset limit) =
      .ok ((page offset limit sorted).map query.projection.show) :=
  select_eq_ok_iff.2 ⟨t, settled, sorted, ht, hnames, horder, hsettled, hsorted, rfl⟩

/-- Without sort keys and bounds, a query shows the rows in the order in which they stand. -/
theorem select_unordered (query : Query) {t : Table} {settled : Option Predicate}
    (horder : query.order = []) (hoffset : query.offset = none) (hlimit : query.limit = none)
    (ht : s.require query.table = .ok t)
    (hnames : ∀ name ∈ query.projection.names, name ∈ t.schema.names)
    (hsettled :
      resolveCondition settings.predicatePolicy t.schema query.condition = .ok settled) :
    s.select settings query =
      .ok ((t.scan.filter (meets settled)).map query.projection.show) := by
  refine select_eq_ok_iff.2 ⟨t, settled, _, ht, hnames, ?_, hsettled, horder ▸ sortRows_nil _, ?_⟩
  · rw [horder]
    nofun
  · rw [hoffset, hlimit]
    rfl

end Store

theorem names_of_mem_page {t : Table} (ht : t.Valid) {order : List SortKey}
    {settled : Option Predicate} {sorted : List Row} {offset limit : Option Nat} {row : Row}
    (hsorted : sortRows order (t.scan.filter (meets settled)) = .ok sorted)
    (h : row ∈ page offset limit sorted) : row.names = t.schema.names := by
  have hdrop : row ∈ sorted.drop (offset.getD 0) := by
    cases limit with
    | none => exact h
    | some n => exact List.mem_of_mem_take h
  have hscan := (perm_of_sortRows hsorted).mem_iff.1 (List.mem_of_mem_drop hdrop)
  obtain ⟨tuple, htuple, rfl⟩ := List.mem_map.1 (List.mem_filter.1 hscan).1
  exact Schema.names_rowOf (ht.fits tuple htuple).length_eq

/-- **Pages neither lose nor repeat a row.**  Let a SELECT without bounds show rows of a reached
    store.  Pages of `k ≥ 1` rows, one after the other up to the first empty one, gather to exactly
    these rows.  Within any bounds, the SELECT shows the rows that it shows of all columns within
    these bounds, each with exactly the columns of the projection and what they hold, and its answer
    counts them.  Without sort keys, it shows the rows that satisfy the condition in the order in
    which they stand; when rows are added, those of them that satisfy it come after the others. -/
theorem select_pages {settings : Settings} {s : Store} {query : Query} {shown : List Row}
    (hs : s.Reachable) (hoffset : query.offset = none) (hlimit : query.limit = none)
    (h : s.select settings query = .ok shown) :
    (∀ k, 1 ≤ k → ∀ rows, rows = shown ↔
      Gathers (fun j => s.select settings (query.within (some (j * k)) (some k))) 0 rows) ∧
    ∃ t settled, s.require query.table = .ok t ∧
      resolveCondition settings.predicatePolicy t.schema query.condition = .ok settled ∧
      (∀ offset limit, ∃ rows whole,
        s.select settings (query.within offset limit) = .ok rows ∧
        s.select settings (query.whole.within offset limit) = .ok whole ∧
        List.Forall₂ (fun row full => row.names = query.projection.shown t.schema ∧
          ∀ name ∈ row.names, row.get? name = full.get? name) rows whole ∧
        ∀ clock, (Operation.execute settings clock (.select (query.within offset limit)) s).1 =
            .ok (.rows rows) ∧
          (Outcome.rows rows).fields.lookup "rowCount" = some (countJson rows.length)) ∧
      (query.order = [] →
        s.select settings query.whole = .ok (t.scan.filter (meets settled)) ∧
        ∀ clock rows inserted s',
          Operation.insertRows clock query.table rows s = (.ok inserted, s') →
          s'.select settings query =
            .ok (shown ++ (inserted.filter (meets settled)).map query.projection.show)) := by
  obtain ⟨t, settled, sorted, ht, hnames, horder, hsettled, hsorted, hshown⟩ :=
    Store.select_eq_ok_iff.1 h
  rw [hoffset, hlimit] at hshown
  have hvalid : t.Valid := hs.valid.tables t (Store.require_eq_ok ht).1
  refine ⟨fun k hk rows => ?_, t, settled, ht, hsettled, fun offset limit => ?_, fun hnil => ?_⟩
  · simp only [Store.select_within query ht hnames horder hsettled hsorted]
    have hpages := gathers_page hk query.projection.show sorted 0
    rw [Nat.zero_mul] at hpages
    constructor
    · rintro rfl
      rw [← hshown]
      exact hpages
    · intro hrows
      rw [← hshown]
      exact hrows.unique hpages
  · refine ⟨_, _, Store.select_within query ht hnames horder hsettled hsorted offset limit,
      Store.select_within query.whole ht nofun horder hsettled hsorted offset limit, ?_,
      fun clock => ⟨?_, rfl⟩⟩
    · rw [List.forall₂_map_left_iff, List.forall₂_map_right_iff]
      refine List.forall₂_same.2 fun row hrow => ?_
      obtain ⟨hcolumns, hcells⟩ := Projection.show_spec (names_of_mem_page hvalid hsorted hrow) hnames
      exact ⟨hcolumns, hcolumns ▸ hcells⟩
    · have hpage := Store.select_within query ht hnames horder hsettled hsorted offset limit
      exact congrArg Prod.fst (Operation.read_bind_ok hpage _)
  · constructor
    · have hwhole : s.select settings query.whole = .ok (List.map id _) :=
        Store.select_unordered query.whole hnil hoffset hlimit ht nofun hsettled
      rwa [List.map_id] at hwhole
    · intro clock rows inserted s' hins
      obtain ⟨t', new, ht', hschema, -, hscan⟩ := Operation.shows_of_insertRows ht hins
      rw [hnil, sortRows_nil, Except.ok.injEq] at hsorted
      rw [Store.select_unordered query hnil hoffset hlimit ht' (hschema ▸ hnames)
        (hschema ▸ hsettled), hscan, List.filter_append, List.map_append, ← hshown, ← hsorted]
      rfl

/-- A table with numbers of which two are equal. -/
def tiedCalls : List StoreCall :=
  [.create "t" [(Column.ofName "id" .serial).asPrimaryKey, Column.ofName "n" .integer],
    .insert (fun _ => ⟨"", .date, 0⟩) "t" [.ofCells [("n", .integer 2)],
      .ofCells [("n", .integer 7)], .ofCells [("n", .null)], .ofCells [("n", .integer 2)]]]

/-- The second page shows the row of the second of the equal numbers. -/
theorem select_pages_tied :
    let s := runCalls tiedCalls (.ofSettings ⟨.reject, .apply, false, 3⟩ fun _ => ⟨"", .date, 0⟩)
    let query : Query := ⟨.columns ["n", "id", "n"], "t", some (.isNull "n" true), [⟨"n", false⟩],
      none, none⟩
    let pages := fun j =>
      s.select ⟨.reject, .apply, false, 3⟩ (query.within (some (j * 2)) (some 2))
    let shown : List Row := [⟨[("n", .integer 7), ("id", .integer 2)]⟩,
      ⟨[("n", .integer 2), ("id", .integer 1)]⟩, ⟨[("n", .integer 2), ("id", .integer 4)]⟩]
    s.select ⟨.reject, .apply, false, 3⟩ query = .ok shown ∧ pages 1 = .ok (shown.drop 2) ∧
      Gathers pages 0 shown := by
  intro s query pages shown
  have hs : s.Reachable := .runCalls .new _
  have hshown : s.select ⟨.reject, .apply, false, 3⟩ query = .ok shown := by decide +kernel
  have h := select_pages hs rfl rfl hshown
  exact ⟨hshown, by decide +kernel, (h.1 2 (by decide) shown).1 rfl⟩

end PocketSql
