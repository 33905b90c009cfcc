/-
  What readers take of written pieces.

  * `Takes`: a reader takes tokens of some kinds, before tokens that may follow;
  * `Writes`: pieces of text stand for tokens that a reader takes as a value;
  * `writes_name`, `writes_count`, `writes_literal`: single values;
  * `takes_items_single`, `takes_items_cons`, `takes_list`, `takes_parenthesized`: lists of items;
  * `writes_list`, `writes_parenthesized`: values with commas between them, by induction on them;
  * `WritesClause`: a clause that begins with a word or is left out.
-/
import PocketSql.Proofs.Token.Passing
import PocketSql.Proofs.Token.Spelling

namespace PocketSql

/-! ## Tokens in parts -/

theorem kindsOf_eq_append {tokens : List Token} {ks ls : List TokenKind}
    (h : kindsOf tokens = ks ++ ls) :
    ∃ first second, tokens = first ++ second ∧ kindsOf first = ks ∧ kindsOf second = ls :=
  List.map_eq_append_iff.1 h

/-- Any tokens may follow. -/
def anything (_ : List Token) : Prop := True

/-- No token of a kind may follow. -/
def noNext (kind : TokenKind) (rest : List Token) : Prop :=
  accept? kind rest = none

/-- Nothing or a token of one of these kinds may follow. -/
def beginsIn (kinds : List TokenKind) (rest : List Token) : Prop :=
  ∀ t ∈ rest.head?, t.kind ∈ kinds

theorem beginsIn_cons {kinds : List TokenKind} {t : Token} {rest : List Token}
    (h : t.kind ∈ kinds) : beginsIn kinds (t :: rest) := by
  rintro _ ⟨⟩
  exact h

theorem beginsIn.mono {kinds kinds' : List TokenKind} {rest : List Token} (h : beginsIn kinds rest)
    (hsub : kinds ⊆ kinds') : beginsIn kinds' rest :=
  fun t ht => hsub (h t ht)

theorem beginsIn.noNext {kinds : List TokenKind} {rest : List Token} (h : beginsIn kinds rest)
    {kind : TokenKind} (hkind : kind ∉ kinds) : noNext kind rest := by
  cases rest with
  | nil => rfl
  | cons t rest => exact accept?_of_ne (ne_of_mem_of_not_mem (h t rfl) hkind) t.place rest

/-! ## Readers and what is written for them -/

section
variable {α : Type}

/-- A reader takes tokens of some kinds as a value, before tokens that may follow. -/
def Takes (follows : List Token → Prop) (read : Reader α) (kinds : List TokenKind) (x : α) : Prop :=
  ∀ tokens rest, kindsOf tokens = kinds → follows rest → read (tokens ++ rest) = .ok (x, rest)

/-- Pieces of text stand for tokens that a reader takes as a value. -/
def Writes (follows : List Token → Prop) (read : Reader α) (pieces : List String) (x : α) : Prop :=
  ∃ kinds, Spelled pieces kinds ∧ Takes follows read kinds x

/-! ## Single values -/

theorem writes_name {name : String} (h : IsName name) (wanted : Wanted) :
    Writes anything (readNameAs wanted) [name] name := by
  refine ⟨_, .name h .nil, fun tokens rest hkinds _ => ?_⟩
  obtain ⟨place, rfl⟩ := kindsOf_eq_singleton hkinds
  exact readNameAs_eq_ok.2 ⟨place, rfl⟩

theorem writes_count {n : Nat} (h : n < unsignedLimit) :
    Writes anything readCountToken [toString n] n := by
  refine ⟨_, .cons (spells_count n) .nil, fun tokens rest hkinds _ => ?_⟩
  obtain ⟨place, rfl⟩ := kindsOf_eq_singleton hkinds
  simp only [List.singleton_append, readCountToken, readCount_toString h]

theorem writes_literal {v : Value} (h : v.isPlain = true) :
    Writes anything readLiteral [v.literal] v := by
  obtain ⟨kinds, hspells, hliteral⟩ := spells_literal h
  refine ⟨_, .single hspells, fun tokens rest hkinds _ => ?_⟩
  exact readLiteral_spells (hkinds ▸ hliteral)

/-! ## Lists -/

section
variable {item : Reader α} {ks ls : List TokenKind} {x : α} {xs : List α}

theorem takes_items_single (h : Takes anything item ks x) (more : Nat) :
    Takes (noNext (.sign .comma)) (readItems item more) ks [x] := by
  intro tokens rest hkinds hrest
  have hread := h tokens rest hkinds trivial
  cases more with
  | zero => simp [readItems, hread, bind, Except.bind]
  | succ more =>
    have hcomma : accept? (.sign .comma) rest = none := hrest
    simp [readItems, hread, hcomma, bind, Except.bind]

/-- There are no more items than tokens. -/
theorem takes_items_cons (h : Takes anything item ks x)
    (hothers : ∀ more, ls.length ≤ more →
      Takes (noNext (.sign .comma)) (readItems item more) ls xs)
    (more : Nat) (hmore : (ks ++ .sign .comma :: ls).length ≤ more) :
    Takes (noNext (.sign .comma)) (readItems item more) (ks ++ .sign .comma :: ls) (x :: xs) := by
  intro tokens rest hkinds hrest
  simp only [List.length_append, List.length_cons] at hmore
  obtain ⟨more, rfl⟩ : ∃ m, more = m + 1 := ⟨more - 1, by omega⟩
  obtain ⟨first, second, rfl, hfirst, hsecond⟩ := kindsOf_eq_append hkinds
  obtain ⟨place, others, rfl, hls⟩ := kindsOf_eq_cons hsecond
  have hitem := h first (⟨.sign .comma, place⟩ :: (others ++ rest)) hfirst trivial
  have hitems := hothers more (by omega) others rest hls hrest
  simp [readItems, hitem, hitems, accept?_cons, bind, Except.bind]

theorem takes_list {follows : List Token → Prop}
    (h : ∀ more, ks.length ≤ more → Takes follows (readItems item more) ks xs) :
    Takes follows (readList item) ks xs := by
  intro tokens rest hkinds hrest
  refine h _ ?_ tokens rest hkinds hrest
  rw [← hkinds, List.length_map, List.length_append]
  exact Nat.le_add_right _ _

theorem takes_parenthesized (h : Takes (noNext (.sign .comma)) (readList item) ks xs) :
    Takes anything (readParenthesized item) (.sign .leftParen :: (ks ++ [.sign .rightParen])) xs := by
  intro tokens rest hkinds _
  obtain ⟨place, _, rfl, hbody⟩ := kindsOf_eq_cons hkinds
  obtain ⟨inside, _, rfl, hinside, hclose⟩ := kindsOf_eq_append hbody
  obtain ⟨closePlace, rfl⟩ := kindsOf_eq_singleton hclose
  have hlist := h inside (⟨.sign .rightParen, closePlace⟩ :: rest) hinside
    (accept?_of_ne (by simp) _ _)
  simp only [readParenthesized, bind_eq_ok, List.cons_append, List.append_assoc]
  exact ⟨_, expect_eq_ok.2 ⟨place, rfl⟩, _, hlist, rest, expect_eq_ok.2 ⟨closePlace, rfl⟩, rfl⟩

end

variable {item : Reader α} {pieces : α → List String}

theorem writes_items {xs : List α} (hne : xs ≠ [])
    (h : ∀ x ∈ xs, Writes anything item (pieces x) x) :
    ∃ kinds, Spelled (separated (xs.map pieces)) kinds ∧
      ∀ more, kinds.length ≤ more → Takes (noNext (.sign .comma)) (readItems item more) kinds xs := by
  induction xs with
  | nil => exact absurd rfl hne
  | cons x xs ih =>
    obtain ⟨ks, hspelled, htakes⟩ := h x List.mem_cons_self
    cases xs with
    | nil =>
      exact ⟨ks, by rwa [separated_single], fun more _ => takes_items_single htakes more⟩
    | cons y ys =>
      obtain ⟨ls, hothers, hread⟩ :=
        ih (List.cons_ne_nil y ys) fun z hz => h z (List.mem_cons_of_mem x hz)
      have hlist := hspelled.append (.sign .comma hothers)
      rw [← separated_cons] at hlist
      exact ⟨ks ++ .sign .comma :: ls, hlist, takes_items_cons htakes hread⟩

theorem writes_list {xs : List α} (hne : xs ≠ [])
    (h : ∀ x ∈ xs, Writes anything item (pieces x) x) :
    Writes (noNext (.sign .comma)) (readList item) (separated (xs.map pieces)) xs := by
  obtain ⟨kinds, hspelled, htakes⟩ := writes_items hne h
  exact ⟨kinds, hspelled, takes_list htakes⟩

theorem writes_parenthesized {xs : List α} (hne : xs ≠ [])
    (h : ∀ x ∈ xs, Writes anything item (pieces x) x) :
    Writes anything (readParenthesized item) (enclosed (separated (xs.map pieces))) xs := by
  obtain ⟨kinds, hspelled, htakes⟩ := writes_list hne h
  exact ⟨_, hspelled.enclosed, takes_parenthesized htakes⟩

/-- What is read as a list in parentheses begins with one. -/
theorem opens_of_readParenthesized {tokens rest : List Token} {xs : List α}
    (h : readParenthesized item tokens = .ok (xs, rest)) :
    (accept? (.sign .leftParen) tokens).isSome = true := by
  obtain ⟨_, hopen, -⟩ := bind_eq_ok.1 h
  obtain ⟨place, rfl⟩ := expect_eq_ok.1 hopen
  rw [accept?_cons, Option.isSome_some]

/-! ## Optional clauses -/

/-- A clause that begins with a word, or is left out, before what may follow it. -/
def WritesClause (word : Keyword) (after : List TokenKind) (read : Reader α) (pieces : List String)
    (x : α) : Prop :=
  ∃ kinds, Spelled pieces kinds ∧ (∀ kind ∈ kinds.head?, kind = .keyword word) ∧
    Takes (beginsIn after) read kinds x

/-- A clause with what follows it begins with its word or with what follows. -/
theorem beginsIn_clause {word : Keyword} {after : List TokenKind} {tokens rest : List Token}
    (h : ∀ kind ∈ (kindsOf tokens).head?, kind = .keyword word) (hrest : beginsIn after rest) :
    beginsIn (.keyword word :: after) (tokens ++ rest) := by
  cases tokens with
  | nil => exact hrest.mono (List.subset_cons_self _ _)
  | cons t tokens => exact beginsIn_cons (List.mem_cons.2 (.inl (h t.kind rfl)))

end

end PocketSql
