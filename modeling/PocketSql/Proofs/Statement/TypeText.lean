/-
  Column types read back from their text.

  * `spells_upper`: a name in capital letters is a name;
  * `exists_nameWithArgs`: a type name with its arguments in parentheses, without spaces;
  * `ColumnType.exists_display`: a type is written as a name with arguments that stands for it;
  * `exists_type`: a type is read back from its text, which no column list is cut in.
-/
import PocketSql.Proofs.Token.Parts
import PocketSql.Statement.ColumnReader

namespace PocketSql

/-! ## Capital letters -/

/-- Only the letters from `a` to `z` change. -/
theorem toUpper_cases (c : Char) : c.toUpper = c ∨ ∃ k < 26, c = Char.ofNat (97 + k) := by
  unfold Char.toUpper
  split
  · next h =>
    have hlow : 97 ≤ c.toNat := h.1
    have hhigh : c.toNat ≤ 122 := h.2
    refine .inr ⟨c.toNat - 97, by omega, ?_⟩
    rw [Nat.add_sub_cancel' hlow, Char.ofNat_toNat]
  · exact .inl rfl

/-- What holds of the letters that change holds of every character that it holds of when the
    capital letter is the character itself. -/
theorem toUpper_induction {P : Char → Prop} (hsmall : ∀ k < 26, P (Char.ofNat (97 + k)))
    (hsame : ∀ c, c.toUpper = c → P c) (c : Char) : P c := by
  obtain h | ⟨k, hk, rfl⟩ := toUpper_cases c
  · exact hsame c h
  · exact hsmall k hk

theorem toUpper_toUpper (c : Char) : c.toUpper.toUpper = c.toUpper :=
  toUpper_induction (P := fun c => c.toUpper.toUpper = c.toUpper) (by decide)
    (fun _ h => by rw [h, h]) c

theorem foldLetter_toUpper (c : Char) : foldLetter c.toUpper = foldLetter c :=
  toUpper_induction (P := fun c => foldLetter c.toUpper = foldLetter c) (by decide)
    (fun _ h => by rw [h]) c

theorem startsName_toUpper (c : Char) : startsName c = true → startsName c.toUpper = true :=
  toUpper_induction (P := fun c => startsName c = true → startsName c.toUpper = true)
    (by decide +kernel) (fun _ h => by rw [h]; exact id) c

theorem continuesName_toUpper (c : Char) :
    continuesName c = true → continuesName c.toUpper = true :=
  toUpper_induction (P := fun c => continuesName c = true → continuesName c.toUpper = true)
    (by decide +kernel) (fun _ h => by rw [h]; exact id) c

/-- A name in capital letters. -/
def upperName (name : String) : String :=
  String.ofList (upperText name.toList)

theorem upperName_upperName (name : String) : upperName (upperName name) = upperName name := by
  rw [upperName, upperName, String.toList_ofList, upperText, upperText, List.map_map]
  exact congrArg String.ofList (List.map_congr_left fun c _ => toUpper_toUpper c)

theorem ofWord?_upperText (word : List Char) :
    Keyword.ofWord? (upperText word) = Keyword.ofWord? word := by
  have hfold : foldKeyword (upperText word) = foldKeyword word := by
    rw [foldKeyword, foldKeyword, upperText, List.map_map]
    exact List.map_congr_left fun c _ => foldLetter_toUpper c
  rw [Keyword.ofWord?, Keyword.ofWord?, hfold]

/-- A name in capital letters is a name. -/
theorem spells_upper {name : String} (h : IsName name) :
    Spells (upperName name).toList [.name (upperName name)] := by
  obtain ⟨c, word, htext, hc, hword, hkind⟩ := h.exists_word
  have hnone : Keyword.ofWord? (c :: word) = none := by
    unfold wordKind at hkind
    split at hkind
    · cases hkind
    · next hnone => exact hnone
  have hcontinues : ∀ d ∈ upperText word, continuesName d = true := by
    intro d hd
    obtain ⟨e, he, rfl⟩ := List.mem_map.1 hd
    exact continuesName_toUpper e (hword e he)
  have hspells := spells_word (startsName_toUpper c hc) hcontinues
  have hupper : (upperName name).toList = c.toUpper :: upperText word := by
    rw [upperName, String.toList_ofList, htext]
    rfl
  have hkind' : wordKind (upperName name).toList = .name (upperName name) := by
    have hword? := ofWord?_upperText (c :: word)
    rw [hnone, ← htext] at hword?
    rw [wordKind, upperName, String.toList_ofList, hword?]
  rwa [← hupper, hkind'] at hspells

/-! ## Texts without spaces -/

theorem spells_of_laid {pieces : List String} {kinds : List TokenKind} {text : List Char}
    (h : Spelled pieces kinds) (hlaid : Laid pieces text) : Spells text kinds :=
  fun _ _ hends hrest => h.lexesTo hlaid hends hrest

theorem laid_arguments {items : List String} (hne : items ≠ []) :
    Laid (separated (items.map fun item => [item]) ++ [Sign.rightParen.spelling])
      ((",".intercalate items).toList ++ [')']) := by
  induction items with
  | nil => exact absurd rfl hne
  | cons item items ih =>
    cases items with
    | nil =>
      have hlaid : Laid [item, Sign.rightParen.spelling] (item.toList ++ [')']) :=
        .before (s := .rightParen) (by decide) .single
      rwa [separated_single]
    | cons next others =>
      have hrest := ih (List.cons_ne_nil next others)
      obtain ⟨more, hmore⟩ : ∃ more, separated ((next :: others).map fun item => [item]) ++
          [Sign.rightParen.spelling] = next :: more := by simp [separated]
      rw [hmore] at hrest
      have hpieces : separated ((item :: next :: others).map fun item => [item]) ++
          [Sign.rightParen.spelling] = item :: Sign.comma.spelling :: next :: more := by
        rw [separated_cons, ← hmore]
        rfl
      have htext : (",".intercalate (item :: next :: others)).toList ++ [')'] =
          item.toList ++ (Sign.comma.spelling.toList ++
            ((",".intercalate (next :: others)).toList ++ [')'])) := by
        simp [String.toList_intercalate, List.intercalate, Sign.spelling]
      rw [hpieces, htext]
      exact .before (by decide) (.after (by decide) hrest)

/-! ## Types -/

section
variable {word : String} {args : List Nat}

/-- The pieces of the arguments of a type, in parentheses if there are any. -/
def argumentPieces (args : List Nat) : List String :=
  if args.isEmpty then [] else enclosed (separated (args.map fun n => [toString n]))

theorem laid_nameWithArgs (word : String) (args : List Nat) :
    Laid (word :: argumentPieces args) (ColumnType.nameWithArgs word args).toList := by
  cases args with
  | nil => exact .single
  | cons n args =>
    have hne : (n :: args).map toString ≠ [] := by simp
    have hinside := laid_arguments hne
    rw [List.map_map] at hinside
    obtain ⟨more, hmore⟩ : ∃ more, separated ((n :: args).map fun n => [toString n]) ++
        [Sign.rightParen.spelling] = toString n :: more := by simp [separated]
    have hpieces : argumentPieces (n :: args) = Sign.leftParen.spelling :: toString n :: more := by
      rw [← hmore]
      rfl
    have htext : (ColumnType.nameWithArgs word (n :: args)).toList = word.toList ++
        (Sign.leftParen.spelling.toList ++
          ((",".intercalate ((n :: args).map toString)).toList ++ [')'])) := by
      simp [ColumnType.nameWithArgs, Sign.spelling]
    rw [hpieces, htext]
    exact .before (by decide) (.after (by decide) (hmore ▸ hinside))

/-- The clauses of a column list are cut at these tokens. -/
def cutsClause (kind : TokenKind) : Bool :=
  kind == .sign .rightParen || kind == .sign .comma

theorem cutsClause_uncut (kind : TokenKind) (h : cutsClause kind = true) : isCut kind = true := by
  simp only [cutsClause, Bool.or_eq_true, beq_iff_eq] at h
  rcases h with rfl | rfl <;> rfl

theorem whole_arguments {kinds : List TokenKind} (h : Spelled (argumentPieces args) kinds) :
    Whole cutsClause 0 kinds := by
  cases args with
  | nil => cases h; exact .nil
  | cons n args =>
    -- the arguments are numbers, so that only the parentheses around them are parentheses
    obtain ⟨inside, hinside, hplain⟩ := exists_separated
      (P := fun kind => kind ≠ .sign .leftParen ∧ kind ≠ .sign .rightParen) (by simp)
      fun (m : Nat) (_ : m ∈ n :: args) => ⟨_, .single (spells_count m), by simp⟩
    rw [h.unique hinside.enclosed]
    exact .enclosed rfl (.plain fun kind hkind =>
      ⟨(hplain kind hkind).1, (hplain kind hkind).2, nofun⟩)

theorem writes_typeArgs (hargs : ∀ n ∈ args, n < unsignedLimit) :
    Writes (noNext (.sign .leftParen)) readTypeArgs (argumentPieces args) args := by
  by_cases hnil : args = []
  · subst hnil
    refine ⟨[], .nil, fun tokens rest hkinds hrest => ?_⟩
    have hnone : accept? (.sign .leftParen) rest = none := hrest
    rw [List.map_eq_nil_iff.1 hkinds, List.nil_append, readTypeArgs, hnone]
    rfl
  · obtain ⟨kinds, hspelled, htakes⟩ :=
      writes_parenthesized hnil fun n hn => writes_count (hargs n hn)
    have hpieces : argumentPieces args = enclosed (separated (args.map fun n => [toString n])) :=
      if_neg (by simpa using hnil)
    refine ⟨kinds, hpieces ▸ hspelled, fun tokens rest hkinds _ => ?_⟩
    have hread := htakes tokens rest hkinds trivial
    rw [readTypeArgs, if_pos (opens_of_readParenthesized hread), hread]

/-- A name with arguments is read as the type that it stands for, and is not cut. -/
theorem exists_nameWithArgs (hword : Spells word.toList [.name word])
    (hargs : ∀ n ∈ args, n < unsignedLimit) :
    ∃ kinds, Spelled [ColumnType.nameWithArgs word args] kinds ∧ Whole cutsClause 0 kinds ∧
      Takes (noNext (.sign .leftParen)) readColumnType kinds (.ofName word args) := by
  obtain ⟨kinds, hspelled, htakes⟩ := writes_typeArgs hargs
  have hspells := spells_of_laid (.cons hword hspelled) (laid_nameWithArgs word args)
  refine ⟨_, .single hspells, .cons (by simp) (by simp) (fun _ => rfl) (whole_arguments hspelled),
    fun tokens rest hkinds hrest => ?_⟩
  obtain ⟨place, argTokens, rfl, hargTokens⟩ := kindsOf_eq_cons hkinds
  exact bind_eq_ok.2 ⟨_, htakes argTokens rest hargTokens hrest, rfl⟩

end

namespace ColumnType

theorem mem_of_ofUpperName_eq_varchar {name : String} {args : List Nat} {n : Nat}
    (h : ofUpperName name args = varchar (some n)) : n ∈ args := by
  unfold ofUpperName at h
  split at h <;> first | exact List.mem_of_head? (varchar.inj h) | cases h

theorem ofUpperName_eq_other {name written : String} {args : List Nat}
    (h : ofUpperName name args = other written) : written = nameWithArgs name args := by
  unfold ofUpperName at h
  split at h <;> cases h
  rfl

/-- A type is written as a name with arguments that stands for it: one of the names of the language,
    or the name that it was made of in capital letters. -/
theorem exists_display {name : String} (hname : IsName name) (args : List Nat) :
    ∃ word args', (ofName name args).display = nameWithArgs word args' ∧
      ofName word args' = ofName name args ∧ Spells word.toList [.name word] ∧ args' ⊆ args := by
  have hfixed : ∀ type : ColumnType, ofName type.display [] = type → IsName type.display →
      ∃ word args', type.display = nameWithArgs word args' ∧ ofName word args' = type ∧
        Spells word.toList [.name word] ∧ args' ⊆ args :=
    fun type htype hword => ⟨type.display, [], rfl, htype, hword.spells, List.nil_subset args⟩
  cases htype : ofName name args with
  | serial | integer | decimal | text | boolean | date | timestamp | json =>
    exact hfixed _ rfl (by decide +kernel)
  | varchar limit =>
    cases limit with
    | none => exact hfixed _ rfl (by decide +kernel)
    | some n =>
      have hvarchar : IsName "VARCHAR" := by decide +kernel
      refine ⟨"VARCHAR", [n], ?_, rfl, hvarchar.spells, ?_⟩
      · have hwritten : display (varchar (some n)) = "VARCHAR(" ++ toString n ++ ")" := rfl
        simp [hwritten, nameWithArgs]
      · exact List.cons_subset.2 ⟨mem_of_ofUpperName_eq_varchar htype, List.nil_subset _⟩
  | other written =>
    have hwritten := ofUpperName_eq_other htype
    have hupper : ofName (upperName name) args = ofName name args :=
      congrArg (ofUpperName · args) (upperName_upperName name)
    exact ⟨upperName name, args, hwritten, hupper.trans htype, spells_upper hname,
      List.Subset.refl args⟩

end ColumnType

/-- A type that a name and its arguments stand for is read back from its text. -/
theorem exists_type {name : String} {args : List Nat} (hname : IsName name)
    (hargs : ∀ n ∈ args, n < unsignedLimit) :
    ∃ kinds, Spelled [(ColumnType.ofName name args).display] kinds ∧ Whole cutsClause 0 kinds ∧
      Takes (noNext (.sign .leftParen)) readColumnType kinds (.ofName name args) := by
  obtain ⟨word, args', hdisplay, htype, hword, hsub⟩ := ColumnType.exists_display hname args
  rw [hdisplay, ← htype]
  exact exists_nameWithArgs hword fun n hn => hargs n (hsub hn)

end PocketSql
