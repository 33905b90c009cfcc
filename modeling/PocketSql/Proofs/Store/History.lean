/-
  The tables of a store and the history of its calls.

  * `CatalogEvent` is a table made or dropped by a call, `history` those of a run in their order;
  * `standing`: the names whose latest creation no drop follows, in the order of these creations
    (`mem_standing_iff`, `standing_pairwise`);
  * `names_apply`: what one call makes of the table names, and by induction `names_runCalls`: after
    a run, these are the standing names of its history;
  * `Store.Lists`: all that a store shows of its tables goes by one list of names;
  * `catalog_of_runCalls`: this list is the one that the history says.
-/
import PocketSql.Proofs.Store.Catalog

namespace PocketSql

/-! ## Histories -/

/-- A table was made or dropped. -/
inductive CatalogEvent
  | created (name : String)
  | dropped (name : String)
deriving DecidableEq

/-- What a call does to the table names if it succeeds. -/
def StoreCall.event? : StoreCall → Option CatalogEvent
  | create name _ => some (.created name)
  | drop name => some (.dropped name)
  | insert .. | update .. | delete .. => none

/-- What a call does to the table names of a store. -/
def StoreCall.eventOn? (call : StoreCall) (s : Store) : Option CatalogEvent :=
  match (call.apply s).1 with
  | .ok _ => call.event?
  | .error _ => none

/-- The tables made and dropped in a run. -/
def history : List StoreCall → Store → List CatalogEvent
  | [], _ => []
  | call :: calls, s => (call.eventOn? s).toList ++ history calls (call.apply s).2

/-- The names whose latest creation no drop follows, in the order of these creations. -/
def standing : List CatalogEvent → List String
  | [] => []
  | .created name :: later =>
    if .created name ∈ later ∨ .dropped name ∈ later then standing later
    else name :: standing later
  | .dropped _ :: later => standing later

/-- The names among some that are not dropped. -/
def surviving (events : List CatalogEvent) (names : List String) : List String :=
  names.filter fun name => .dropped name ∉ events

/-- A name is created and not dropped since. -/
def Stands (events : List CatalogEvent) (name : String) : Prop :=
  ∃ before later, events = before ++ .created name :: later ∧
    .created name ∉ later ∧ .dropped name ∉ later

/-- The latest creation of a name comes before that of another. -/
def CreatedBefore (events : List CatalogEvent) (name other : String) : Prop :=
  ∃ before between later,
    events = before ++ .created name :: (between ++ .created other :: later) ∧
      .created name ∉ between ++ .created other :: later ∧ .created other ∉ later

section
variable {events : List CatalogEvent} {name other : String}

theorem stands_cons {event : CatalogEvent} :
    Stands (event :: events) name ↔
      (event = .created name ∧ .created name ∉ events ∧ .dropped name ∉ events) ∨
        Stands events name := by
  constructor
  · rintro ⟨_ | ⟨first, before⟩, later, h, hcreated, hdropped⟩
    · obtain ⟨rfl, rfl⟩ := List.cons.inj h
      exact .inl ⟨rfl, hcreated, hdropped⟩
    · obtain ⟨-, rfl⟩ := List.cons.inj h
      exact .inr ⟨before, later, rfl, hcreated, hdropped⟩
  · rintro (⟨rfl, hcreated, hdropped⟩ | ⟨before, later, rfl, hcreated, hdropped⟩)
    · exact ⟨[], events, rfl, hcreated, hdropped⟩
    · exact ⟨event :: before, later, rfl, hcreated, hdropped⟩

theorem mem_standing_iff : name ∈ standing events ↔ Stands events name := by
  induction events with
  | nil => simp [standing, Stands]
  | cons event events ih =>
    rw [stands_cons, ← ih]
    cases event with
    | dropped other => simp [standing]
    | created other =>
      rw [standing]
      split
      · next hlater =>
        refine (or_iff_right ?_).symm
        rintro ⟨⟨⟩, hcreated, hdropped⟩
        exact hlater.elim hcreated hdropped
      · next hlast =>
        rw [not_or] at hlast
        rw [List.mem_cons, CatalogEvent.created.injEq]
        refine or_congr_left ⟨?_, fun h => h.1.symm⟩
        rintro rfl
        exact ⟨rfl, hlast⟩

theorem standing_created (h : .dropped name ∉ events → .created name ∉ events) :
    standing (.created name :: events) =
      (if .dropped name ∈ events then [] else [name]) ++ standing events := by
  rw [standing]
  by_cases hdropped : .dropped name ∈ events
  · rw [if_pos (.inr hdropped), if_pos hdropped, List.nil_append]
  · rw [if_neg (not_or.2 ⟨h hdropped, hdropped⟩), if_neg hdropped, List.singleton_append]

theorem surviving_append (events : List CatalogEvent) (names : List String) (name : String) :
    surviving events (names ++ [name]) =
      surviving events names ++ if .dropped name ∈ events then [] else [name] := by
  by_cases h : .dropped name ∈ events <;> simp [surviving, List.filter_append, h]

theorem surviving_created (name : String) (events : List CatalogEvent) (names : List String) :
    surviving (.created name :: events) names = surviving events names := by
  simp [surviving]

theorem surviving_dropped (name : String) (events : List CatalogEvent) (names : List String) :
    surviving (.dropped name :: events) names = surviving events (names.filter (· != name)) := by
  rw [surviving, surviving, List.filter_filter]
  refine List.filter_congr fun other _ => ?_
  by_cases h : other = name <;> simp [h]

theorem CreatedBefore.cons (event : CatalogEvent) (h : CreatedBefore events name other) :
    CreatedBefore (event :: events) name other := by
  obtain ⟨before, between, later, rfl, hname, hother⟩ := h
  exact ⟨event :: before, between, later, rfl, hname, hother⟩

theorem standing_pairwise (events : List CatalogEvent) :
    (standing events).Pairwise (CreatedBefore events) := by
  induction events with
  | nil => exact .nil
  | cons event events ih =>
    have ih' := ih.imp (CreatedBefore.cons event)
    cases event with
    | dropped name => exact ih'
    | created name =>
      rw [standing]
      split
      · exact ih'
      · next hlast =>
        rw [not_or] at hlast
        refine List.pairwise_cons.2 ⟨fun other hother => ?_, ih'⟩
        obtain ⟨between, later, rfl, hnone, -⟩ := mem_standing_iff.1 hother
        exact ⟨[], between, later, rfl, hlast.1, hnone⟩

end

/-! ## Runs -/

theorem Store.names_modify (name : String) {change : Table → Except SqlError Table} (s : Store) :
    (s.modify name change).2.names = s.names := by
  unfold modify
  split
  · rfl
  split
  · rfl
  · exact names_put _ s

theorem StoreCall.eventOn?_of_none {call : StoreCall} (h : call.event? = none) (s : Store) :
    call.eventOn? s = none := by
  unfold eventOn?
  split
  · exact h
  · rfl

/-- What a call makes of the table names. -/
def NamesAfter (names after : List String) : Option CatalogEvent → Prop
  | none => after = names
  | some (.created name) => name ∉ names ∧ after = names ++ [name]
  | some (.dropped name) => after = names.filter (· != name)

theorem names_apply (call : StoreCall) (s : Store) :
    NamesAfter s.names (call.apply s).2.names (call.eventOn? s) := by
  cases call with
  | create name columns =>
    rw [StoreCall.eventOn?, StoreCall.apply_create]
    cases hschema : Schema.ofColumns name columns with
    | error cause => rfl
    | ok schema =>
      obtain rfl := Operation.ofColumns_name hschema
      dsimp only
      cases hhas : s.has schema.name with
      | true => rfl
      | false => exact ⟨Store.has_eq_false_iff.1 hhas, Store.names_add (.ofSchema schema) s⟩
  | drop name =>
    rw [StoreCall.eventOn?, StoreCall.apply_drop]
    cases s.has name with
    | true => exact Store.names_remove name s
    | false => rfl
  | insert clock name rows =>
    rw [StoreCall.eventOn?_of_none rfl, StoreCall.apply_insert]
    exact s.names_modify name
  | update name p assignments =>
    rw [StoreCall.eventOn?_of_none rfl, StoreCall.apply_update]
    exact s.names_modify name
  | delete name p =>
    rw [StoreCall.eventOn?_of_none rfl, StoreCall.apply_delete]
    exact s.names_modify name

/-- A table is made again only after it is dropped. -/
theorem created_notMem_history {name : String} (calls : List StoreCall) {s : Store}
    (hmem : name ∈ s.names) (hdropped : .dropped name ∉ history calls s) :
    .created name ∉ history calls s := by
  induction calls generalizing s with
  | nil => simp [history]
  | cons call calls ih =>
    have hnames := names_apply call s
    rw [history, List.mem_append, not_or] at hdropped ⊢
    cases hevent : call.eventOn? s with
    | none =>
      rw [hevent] at hnames
      exact ⟨by simp, ih (hnames ▸ hmem) hdropped.2⟩
    | some event =>
      rw [hevent] at hnames hdropped
      cases event with
      | created other =>
        obtain ⟨hother, hafter⟩ := hnames
        refine ⟨?_, ih (hafter ▸ List.mem_append_left _ hmem) hdropped.2⟩
        have hne : name ≠ other := fun hsame => hother (hsame ▸ hmem)
        simpa using hne
      | dropped other =>
        have hne : name ≠ other := by simpa using hdropped.1
        refine ⟨by simp, ih ?_ hdropped.2⟩
        rw [show (call.apply s).2.names = _ from hnames]
        simpa [hmem] using hne

/-- **After a run the table names are those that stand.**  The tables that were there before come
    first, unless the run drops them. -/
theorem names_runCalls (calls : List StoreCall) (s : Store) :
    (runCalls calls s).names =
      surviving (history calls s) s.names ++ standing (history calls s) := by
  -- the first call is taken off, so that the names it leaves are those the rest starts with
  induction calls generalizing s with
  | nil => simp [runCalls, history, surviving, standing]
  | cons call calls ih =>
    have hnames := names_apply call s
    rw [runCalls, List.foldl_cons, ← runCalls, ih, history]
    generalize hafter : (call.apply s).2 = after at *
    cases hevent : call.eventOn? s with
    | none =>
      rw [hevent] at hnames
      rw [show after.names = s.names from hnames]
      rfl
    | some event =>
      rw [hevent] at hnames
      cases event with
      | created name =>
        -- the new name goes over from the surviving names of the rest to the standing ones
        have hmem : name ∈ after.names := by simp [hnames.2]
        have hcreated := created_notMem_history calls hmem
        rw [hnames.2, surviving_append, List.append_assoc, Option.toList_some,
          List.singleton_append, surviving_created, standing_created hcreated]
      | dropped name =>
        rw [show after.names = s.names.filter (· != name) from hnames, Option.toList_some,
          List.singleton_append, surviving_dropped, standing]

/-! ## What a store shows of its tables -/

namespace Store

variable {s : Store} {name : String}

/-- All that a store shows of its tables goes by one list of names. -/
structure Lists (s : Store) (names : List String) : Prop where
  names_eq : s.names = names
  nodup : names.Nodup
  has_iff : ∀ name, s.has name = true ↔ name ∈ names
  schema_iff : ∀ name, (s.schema? name).isSome = true ↔ name ∈ names
  scan_iff : ∀ name, (∃ rows, s.scan name = .ok rows) ↔ name ∈ names
  count_iff : ∀ name, (∃ n, s.count name = .ok n) ↔ name ∈ names
  detail_iff : ∀ settings name, (∃ detail, Engine.detail name ⟨settings, s⟩ = .ok detail) ↔
    name ∈ names
  /-- A definition has the name under which it is found. -/
  schema_name : ∀ name schema, s.schema? name = some schema → schema.name = name
  /-- The overview has an entry for each name and no other, in the order of the list. -/
  overview_eq : ∀ settings, ∃ entries, entries.map Prod.fst = names ∧
    Engine.overview ⟨settings, s⟩ = .object [("success", .bool true),
      ("schemas", .object entries), ("tableCount", countJson names.length)]

theorem has_iff_mem_names : s.has name = true ↔ name ∈ s.names := by
  simp [has, names]

theorem exists_require_iff_mem_names : (∃ t, s.require name = .ok t) ↔ name ∈ s.names := by
  rw [← has_iff_mem_names, has_eq_isSome, Option.isSome_iff_exists]
  exact exists_congr fun t => require_eq_ok_iff

/-- What is made of a table is there if the table is. -/
theorem exists_of_require_iff {α : Type} (made : Table → α) :
    (∃ a, (do let t ← s.require name; .ok (made t)) = (.ok a : Except SqlError α)) ↔
      name ∈ s.names := by
  rw [← exists_require_iff_mem_names]
  constructor
  · rintro ⟨a, h⟩
    obtain ⟨t, ht, -⟩ := bind_eq_ok.1 h
    exact ⟨t, ht⟩
  · rintro ⟨t, ht⟩
    exact ⟨made t, bind_eq_ok.2 ⟨t, ht, rfl⟩⟩

theorem Valid.lists (h : s.Valid) : s.Lists s.names where
  names_eq := rfl
  nodup := h.names_nodup
  has_iff _ := has_iff_mem_names
  schema_iff name := by
    rw [schema?, Option.isSome_map, ← has_eq_isSome]
    exact has_iff_mem_names
  scan_iff _ := exists_of_require_iff Table.scan
  count_iff _ := exists_of_require_iff fun t => t.rows.length
  detail_iff _ _ := exists_of_require_iff _
  schema_name name schema hschema := by
    obtain ⟨t, ht, rfl⟩ := Option.map_eq_some_iff.1 hschema
    exact name_of_table? ht
  overview_eq settings := by
    refine ⟨s.tables.map fun t => (t.name, Engine.tableOverview ⟨settings, s⟩ t), ?_, ?_⟩
    · rw [List.map_map]
      rfl
    · rw [Engine.overview, names, List.length_map]

end Store

theorem scan_of_create {name : String} {columns : List Column} {s s' : Store}
    (h : (StoreCall.create name columns).apply s = (.ok (), s')) :
    s'.scan name = .ok [] ∧ s'.count name = .ok 0 := by
  rw [StoreCall.apply_create] at h
  cases hschema : Schema.ofColumns name columns with
  | error cause => simp [hschema] at h
  | ok schema =>
    obtain rfl := Operation.ofColumns_name hschema
    cases hhas : s.has schema.name with
    | true => simp [hschema, hhas] at h
    | false =>
      obtain rfl : s.add (.ofSchema schema) = s' := by simpa [hschema, hhas] using h
      have hnone : s.table? schema.name = none := by simpa [Store.has_eq_isSome] using hhas
      have hfound : (s.add (.ofSchema schema)).require schema.name = .ok (.ofSchema schema) :=
        Store.require_eq_ok_iff.2 (Store.table?_add_self (t := .ofSchema schema) hnone)
      rw [Store.scan, Store.count, hfound]
      exact ⟨rfl, rfl⟩

/-- **The tables of a store are those of its history.**  After any calls on an empty store, whether
    they succeed or fail, the table names are the ones that are created and not dropped since, none
    twice, in the order of their latest creation.  Everything else that the store shows of its
    tables goes by this list, a table that was just made has no rows, and a catalog that keeps the
    order apart from the tables holds the same order and the same tables, and skips none of them
    when it shows an overview. -/
theorem catalog_of_runCalls (calls : List StoreCall) :
    let s := runCalls calls .empty
    let events := history calls .empty
    let c := Catalog.run calls .empty
    (∀ name, name ∈ s.names ↔ Stands events name) ∧ s.names.Pairwise (CreatedBefore events) ∧
      s.Lists s.names ∧
      (∀ name columns s', (StoreCall.create name columns).apply s = (.ok (), s') →
        s'.scan name = .ok [] ∧ s'.count name = .ok 0) ∧
      c.order = s.names ∧ (∀ name, c.table? name = s.table? name) ∧
      ∀ settings, c.overviews (Engine.tableOverview ⟨settings, s⟩) =
        s.tables.map fun t => (t.name, Engine.tableOverview ⟨settings, s⟩ t) := by
  intro s events c
  have hnames : s.names = standing events := names_runCalls calls .empty
  have hvalid : s.Valid := runCalls_valid calls Store.valid_empty
  have hcatalog : c = Catalog.ofStore s := Catalog.run_ofStore calls .empty
  refine ⟨fun name => ?_, ?_, hvalid.lists, fun _ _ _ => scan_of_create, ?_, ?_, ?_⟩
  · rw [hnames]
    exact mem_standing_iff
  · rw [hnames]
    exact standing_pairwise events
  · rw [hcatalog]
    rfl
  · rw [hcatalog]
    exact fun _ => rfl
  · rw [hcatalog]
    exact fun _ => Catalog.overviews_ofStore _ hvalid.names_nodup

/-- A table that is made, dropped and made again, and one that is made twice. -/
def remadeCalls : List StoreCall :=
  let columns := [Column.ofName "x" .integer]
  [.create "a" columns, .create "b" columns, .drop "a", .create "b" columns, .create "a" columns,
    .drop "c"]

theorem catalog_of_remadeCalls :
    let s := runCalls remadeCalls .empty
    let after := (StoreCall.create "c" [Column.ofName "x" .integer]).apply s
    s.names = ["b", "a"] ∧ history remadeCalls .empty =
        [.created "a", .created "b", .dropped "a", .created "a"] ∧
      Stands (history remadeCalls .empty) "a" ∧ s.has "a" = true ∧
      after.1 = .ok () ∧ after.2.scan "c" = .ok [] := by
  intro s after
  have hnames : s.names = ["b", "a"] := by decide +kernel
  have hafter : after.1 = .ok () := by decide +kernel
  obtain ⟨hstands, -, hlists, hmade, -⟩ := catalog_of_runCalls remadeCalls
  have hmem : "a" ∈ s.names := by
    rw [hnames]
    decide
  refine ⟨hnames, by decide +kernel, (hstands "a").1 hmem, (hlists.has_iff "a").2 hmem, hafter, ?_⟩
  exact (hmade "c" _ after.2 (Prod.ext hafter rfl)).1

end PocketSql
